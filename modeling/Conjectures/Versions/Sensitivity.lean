import Conjectures.Versions.Shuffles

/-!
# What an identity commits to

Where values that are written alike are one value, and texts of one digest are one text, two
identities of one digest are of the same constants, with the same contents, of the same import
graph and of the same statement.
-/

namespace Conjectures.Versions

open Lib Lib.Json

/-! ## Documents -/

theorem inOrder_name (name : Name) : InOrder (nameJson name) :=
  ⟨sortKeys_nameJson name, keyed_nameJson name⟩

theorem inOrder_constant (constant : ConstantIdentity) : InOrder constant.json := by
  refine inOrder_object [text "kind", text "module", text "name", text "sha256"] rfl (by decide) ?_
  simp only [List.forall_mem_cons, List.not_mem_nil, false_imp_iff, implies_true, and_true]
  exact ⟨inOrder_string _, inOrder_name _, inOrder_name _, inOrder_string _⟩

theorem inOrder_localModule (entry : LocalModule) : InOrder entry.json := by
  refine inOrder_array ?_
  simp only [List.forall_mem_cons, List.not_mem_nil, false_imp_iff, implies_true, and_true]
  exact ⟨inOrder_name _, inOrder_string _, inOrder_map inOrder_name _⟩

theorem inOrder_external (entry : Name × Text) : InOrder (externalJson entry) := by
  refine inOrder_array ?_
  simp only [List.forall_mem_cons, List.not_mem_nil, false_imp_iff, implies_true, and_true]
  exact ⟨inOrder_name _, inOrder_string _⟩

theorem inOrder_graph (graph : ImportGraph) : InOrder graph.json := by
  refine inOrder_object [text "external_imports", text "local_modules", text "module"] rfl (by decide) ?_
  simp only [List.forall_mem_cons, List.not_mem_nil, false_imp_iff, implies_true, and_true]
  exact ⟨inOrder_map inOrder_external _, inOrder_map inOrder_localModule _, inOrder_name _⟩

theorem inOrder_document (identity : DependencyIdentity) : InOrder identity.document := by
  refine inOrder_object [text "external_modules", text "imports", text "local_constants", text "module",
    text "schema_version", text "statement_type_sha256", text "theorem"] rfl (by decide) ?_
  simp only [List.forall_mem_cons, List.not_mem_nil, false_imp_iff, implies_true, and_true]
  exact ⟨inOrder_map inOrder_name _, inOrder_graph _, inOrder_map inOrder_constant _,
    inOrder_name _, inOrder_int _, inOrder_string _, inOrder_name _⟩

theorem ConstantIdentity.json_injective : Function.Injective ConstantIdentity.json := by
  intro a b h
  simp only [ConstantIdentity.json, Json.object.injEq, List.cons.injEq, Prod.mk.injEq,
    Json.string.injEq, nameJson_injective.eq_iff, true_and, and_true] at h
  cases a
  cases b
  simp_all

theorem LocalModule.json_injective : Function.Injective LocalModule.json := by
  intro a b h
  simp only [LocalModule.json, Json.array.injEq, List.cons.injEq, Json.string.injEq,
    nameJson_injective.eq_iff, (List.map_injective_iff.mpr nameJson_injective).eq_iff,
    and_true] at h
  cases a
  cases b
  simp_all

theorem externalJson_injective : Function.Injective externalJson := by
  intro a b h
  simp only [externalJson, Json.array.injEq, List.cons.injEq, Json.string.injEq,
    nameJson_injective.eq_iff, and_true] at h
  exact Prod.ext h.1 h.2

theorem ImportGraph.json_injective : Function.Injective ImportGraph.json := by
  intro a b h
  simp only [ImportGraph.json, Json.object.injEq, List.cons.injEq, Prod.mk.injEq,
    Json.array.injEq, (List.map_injective_iff.mpr externalJson_injective).eq_iff,
    (List.map_injective_iff.mpr LocalModule.json_injective).eq_iff,
    nameJson_injective.eq_iff, true_and, and_true] at h
  cases a
  cases b
  simp_all

/-- The document gives the identity. -/
theorem DependencyIdentity.document_injective :
    Function.Injective DependencyIdentity.document := by
  intro a b h
  simp only [DependencyIdentity.document, Json.object.injEq, List.cons.injEq, Prod.mk.injEq,
    Json.array.injEq, Json.string.injEq, (List.map_injective_iff.mpr nameJson_injective).eq_iff,
    ImportGraph.json_injective.eq_iff,
    (List.map_injective_iff.mpr ConstantIdentity.json_injective).eq_iff,
    nameJson_injective.eq_iff, true_and, and_true] at h
  cases a
  cases b
  simp_all

/-! ## Digests -/

variable {canonical : Canonical}

/-- Values of one digest are one value, the order of their keys apart. -/
theorem digest_sensitive (hcanonical : canonical.Injective)
    (hsha : Function.Injective canonical.sha256) {v w : Json} {digest : Text} (hv : v.Keyed)
    (hw : w.Keyed) (h : canonical.digest v = .ok digest) (h' : canonical.digest w = .ok digest) :
    v.sortKeys = w.sortKeys := by
  simp only [Canonical.digest, map_eq_ok, need_eq_ok] at h h'
  obtain ⟨bytes, hbytes, rfl⟩ := h
  obtain ⟨bytes', hbytes', heq⟩ := h'
  obtain rfl := hsha heq
  exact hcanonical v w bytes' hv hw hbytes hbytes'

/-- Identities of one digest are one. -/
theorem identity_of_digest (hcanonical : canonical.Injective)
    (hsha : Function.Injective canonical.sha256) {identity identity' : DependencyIdentity}
    {digest : Text} (h : identity.sha256 canonical = .ok digest)
    (h' : identity'.sha256 canonical = .ok digest) : identity = identity' := by
  have hsorted := digest_sensitive hcanonical hsha (inOrder_document identity).keyed
    (inOrder_document identity').keyed h h'
  rw [(inOrder_document identity).sorted, (inOrder_document identity').sorted] at hsorted
  exact DependencyIdentity.document_injective hsorted

/-! ## Constants -/

/-- The constant is recorded by its name, its module and the digest of its content. -/
structure Records (canonical : Canonical) (constant : ConstantRow) (row : ConstantIdentity) :
    Prop where
  name : row.name = constant.name
  module : row.module = constant.module
  sha256 : canonical.digest (.object constant.content) = .ok row.sha256

variable {classification classification' : Classification} {report report' : ClosureReport}
  {target target' : TargetClosure}

theorem addIdentity_records {closure : List Name} {theoremName : Name} {constant : ConstantRow}
    {rows rows' : List ConstantIdentity × Bool}
    (h : addIdentity canonical report classification.classify closure theoremName rows constant =
      .ok rows') : ∃ row, rows'.1 = rows.1 ++ [row] ∧ Records canonical constant row := by
  simp only [addIdentity, bind_eq_ok] at h
  obtain ⟨_, -, _, -, _, -, _, -, kind, -, sha256, hsha256, h⟩ := h
  obtain rfl := Except.ok.inj h
  exact ⟨_, rfl, rfl, rfl, hsha256⟩

theorem addIdentities_records {closure : List Name} {theoremName : Name}
    {constants : List ConstantRow} {rows rows' : List ConstantIdentity × Bool}
    (h : constants.foldlM
      (addIdentity canonical report classification.classify closure theoremName) rows =
      .ok rows') :
    ∃ added, rows'.1 = rows.1 ++ added ∧ List.Forall₂ (Records canonical) constants added := by
  induction constants generalizing rows with
  | nil =>
    obtain rfl := Except.ok.inj h
    exact ⟨[], (List.append_nil _).symm, .nil⟩
  | cons constant constants ih =>
    rw [List.foldlM_cons] at h
    obtain ⟨rows₁, hfirst, h⟩ := bind_eq_ok.mp h
    obtain ⟨row, hrow, hrecords⟩ := addIdentity_records hfirst
    obtain ⟨added, hadded, hrest⟩ := ih h
    refine ⟨row :: added, ?_, .cons hrecords hrest⟩
    rw [hadded, hrow, List.append_assoc, List.singleton_append]

variable {statementTypeSha256 statementTypeSha256' : Text}
  {identity identity' : DependencyIdentity}

/-- What an identity records of its target. -/
theorem identity_records
    (h : classification.identity canonical report statementTypeSha256 target = .ok identity) :
    List.Forall₂ (Records canonical) target.localConstants identity.localConstants ∧
      identity.statementTypeSha256 = statementTypeSha256 ∧
      identity.theoremName = target.theoremName ∧ identity.module = target.module ∧
      identity.externalModules = target.externalModules ∧
      classification.graph canonical report target.module = .ok identity.imports := by
  simp only [Classification.identity, dependencyIdentity, bind_eq_ok] at h
  obtain ⟨closure, -, rows, hrows, _, -, _, -, imports, himports, h⟩ := h
  obtain rfl := Except.ok.inj h
  obtain ⟨added, hadded, hrecords⟩ := addIdentities_records hrows
  rw [List.nil_append] at hadded
  exact ⟨hadded ▸ hrecords, rfl, rfl, rfl, rfl, himports⟩

/-- The same constant, with the same content, the order of its keys apart. -/
structure SameConstant (constant constant' : ConstantRow) : Prop where
  name : constant.name = constant'.name
  module : constant.module = constant'.module
  content : (Json.object constant.content).sortKeys = (Json.object constant'.content).sortKeys

/-- No content of the target has a key twice. -/
def TargetClosure.Keyed (target : TargetClosure) : Prop :=
  ∀ constant ∈ target.localConstants, (Json.object constant.content).Keyed

theorem constants_of_records (hcanonical : canonical.Injective)
    (hsha : Function.Injective canonical.sha256) {constants constants' : List ConstantRow}
    {rows : List ConstantIdentity} (h : List.Forall₂ (Records canonical) constants rows)
    (h' : List.Forall₂ (Records canonical) constants' rows)
    (hkeyed : ∀ constant ∈ constants, (Json.object constant.content).Keyed)
    (hkeyed' : ∀ constant ∈ constants', (Json.object constant.content).Keyed) :
    List.Forall₂ SameConstant constants constants' := by
  induction h generalizing constants' with
  | nil =>
    cases h'
    exact .nil
  | cons hrow _ ih =>
    cases h' with
    | cons hrow' hrows' =>
      rw [List.forall_mem_cons] at hkeyed hkeyed'
      refine .cons ⟨?_, ?_, ?_⟩ (ih hrows' hkeyed.2 hkeyed'.2)
      · rw [← hrow.name, hrow'.name]
      · rw [← hrow.module, hrow'.module]
      · exact digest_sensitive hcanonical hsha hkeyed.1 hkeyed'.1 hrow.sha256 hrow'.sha256

/-! ## Contents that were read -/

theorem validateContent_eq {v : Json} {content : List (Text × Json)}
    (h : validateContent v = .ok content) : v = .object content := by
  unfold validateContent at h
  split at h
  · next ms =>
    simp only [bind_eq_ok] at h
    obtain ⟨kind, -, _, -, h⟩ := h
    split at h
    · simp only [bind_eq_ok] at h
      obtain ⟨_, -, _, -, h⟩ := h
      split at h
      · rw [Except.ok.inj h]
      · obtain ⟨_, -, h⟩ := bind_eq_ok.mp h
        rw [Except.ok.inj h]
    · cases h
  · cases h

/-- The targets of a report that was parsed have contents without repeated keys. -/
theorem targets_keyed {content : ByteArray} {expectedRoots : List Text} {expectedLeanCommit : Text}
    {expectedTargets : List (Text × Text)}
    (h : parseClosureReport canonical content expectedRoots expectedLeanCommit expectedTargets =
      .ok report) : ∀ target ∈ report.targets, target.Keyed := by
  obtain ⟨-, ms, hvalue, -, hreads⟩ := parseClosureReport_eq_ok.mp h
  have hkeyed : (Json.object ms).Keyed := by
    simp only [strictJson, bind_eq_ok, need_eq_ok, Option.bind_eq_some_iff] at hvalue
    obtain ⟨v, ⟨cs, -, hloads⟩, hvalue⟩ := hvalue
    rw [← Except.ok.inj hvalue]
    exact ((loads?_eq_some.mp hloads).keyed).respell
  intro target htarget
  obtain ⟨vs, hvs, htargets⟩ := hreads.targets
  obtain ⟨i, hi, rfl⟩ := List.getElem_of_mem htarget
  have hi' : i < vs.length := htargets.length_eq ▸ hi
  obtain ⟨row, hrow, hread⟩ := htargets.get hi' hi
  have hrowkeyed : (Json.object row).Keyed := by
    have hmem : Json.object row ∈ vs := by
      rw [← hrow]
      exact List.getElem_mem hi'
    exact (hkeyed.field hvs).item hmem
  obtain ⟨us, rows, hus, hrows, -, hsorted⟩ := hread.constants
  intro constant hconstant
  have hmem := (sorted_perm hsorted).mem_iff.mp hconstant
  obtain ⟨j, hj, rfl⟩ := List.getElem_of_mem hmem
  have hj' : j < us.length := hrows.length_eq ▸ hj
  obtain ⟨item, hitem, hconstant⟩ := hrows.get hj' hj
  have hitemkeyed : (Json.object item).Keyed := by
    have hmem : Json.object item ∈ us := by
      rw [← hitem]
      exact List.getElem_mem hj'
    exact (hrowkeyed.field hus).item hmem
  obtain ⟨v, hv, hcontent⟩ := hconstant.content
  change (Json.object (rows.get ⟨j, hj⟩).content).Keyed
  rw [← validateContent_eq hcontent]
  exact hitemkeyed.field hv

end Conjectures.Versions
