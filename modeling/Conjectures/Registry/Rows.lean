import Conjectures.Registry.Writing

/-!
# The rows of the version registry

Each reader accepts exactly the values that spell a valid row, and reads the row that they spell.

`Spelled` says of a value that it is the object of a row, with the row's members under their keys
and no others, in any order.  A value spells at most one row, and what `to_bytes` writes of a row
spells it, so that the codec of the registry is put together from those of its rows.
-/

namespace Conjectures.Registry

open Lib Lib.Json
open Allowlist (IsCommit rewardTargetIdentity textOrNull)

variable {py : Python} {known : List Text} {instances : List Instance} {publications : ℕ}
  {value : Json} {ms : List (Text × Json)}

/-! ## Values that were read -/

/-- No key comes twice, and the floats are spelled as they are written. -/
structure Python.Reads (py : Python) (value : Json) : Prop where
  keyed : value.Keyed
  written : value.Floats fun spelling ↦ py.repr spelling = spelling

namespace Python.Reads

theorem get (h : py.Reads (.object ms)) (k : Text) : py.Reads (field ms k) :=
  ⟨h.keyed.get k, h.written.get k⟩

theorem item {vs : List Json} (h : py.Reads (.array vs)) (hv : value ∈ vs) : py.Reads value :=
  ⟨h.keyed.item hv, h.written.item hv⟩

end Python.Reads

theorem reads_strictJson {content : ByteArray} (h : py.strictJson content = some value) :
    py.Reads value := by
  obtain ⟨value, hvalue, rfl⟩ := Option.map_eq_some_iff.mp h
  obtain ⟨cs, -, hcs⟩ := Option.bind_eq_some_iff.mp hvalue
  exact ⟨(document_of_loads hcs).keyed.respell, floats_respell py.repr_repr value⟩

/-! ## Environments -/

namespace EnvironmentIdentity

variable {e e' : EnvironmentIdentity}

/-- The value spells the identity. -/
def Spelled (py : Python) (e : EnvironmentIdentity) (value : Json) : Prop :=
  ∃ schema policy, py.Equal schema (.int 1) ∧ policy.sortKeys = .object e.verificationPolicy ∧
    Says (e.membersWith schema policy) value

theorem mapM_readPackage {vs : List Json} {packages : List (Text × Text)} :
    vs.mapM readPackage = some packages ↔ vs = packages.map packageJson := by
  induction vs generalizing packages with
  | nil => cases packages <;> simp
  | cons v vs ih =>
    simp only [List.mapM_cons, Option.bind_eq_bind, Option.bind_eq_some_iff, ih, Option.pure_def,
      Option.some.injEq]
    constructor
    · rintro ⟨package, hpackage, rest, rfl, rfl⟩
      unfold readPackage at hpackage
      split at hpackage
      · cases hpackage
        rfl
      · cases hpackage
    · intro h
      cases packages with
      | nil => cases h
      | cons package packages =>
        obtain ⟨rfl, rfl⟩ := List.cons.inj h
        exact ⟨package, rfl, packages, rfl, rfl⟩

theorem readPackages_eq_some {packages : List (Text × Text)} : readPackages value = some packages ↔
    value = .array (packages.map packageJson) ∧ ValidPackages packages := by
  simp only [readPackages, Option.filter_eq_some_iff, Option.bind_eq_some_iff, asItems_eq_some,
    mapM_readPackage, decide_eq_true_eq]
  constructor
  · rintro ⟨⟨_, rfl, rfl⟩, hvalid⟩
    exact ⟨rfl, hvalid⟩
  · rintro ⟨rfl, hvalid⟩
    exact ⟨⟨_, rfl, rfl⟩, hvalid⟩

theorem readCommit_eq_ok {key : String} {s : Text} : readCommit ms key = .ok s ↔
    field ms (text key) = .string s ∧ IsCommit s := by
  simp [readCommit, Option.filter_eq_some_iff]

theorem readDigest_eq_ok {key : String} {s : Text} : readDigest ms key = .ok s ↔
    field ms (text key) = .string s ∧ Bundle.IsSha256 s := by
  simp [readDigest, Option.filter_eq_some_iff]

theorem spelled_json (h : InOrder (.object e.verificationPolicy)) : e.Spelled py e.json :=
  ⟨_, _, .refl py _, h.sorted, says_object keys_ordered.2⟩

theorem Spelled.unique (h : e.Spelled py value) (h' : e'.Spelled py value) : e = e' := by
  obtain ⟨schema, policy, -, hpolicy, hsays⟩ := h
  obtain ⟨schema', policy', -, hpolicy', hsays'⟩ := h'
  have hmembers := hsays.unique hsays' rfl
  simp only [membersWith, List.cons.injEq, Prod.mk.injEq, Json.string.injEq, Json.array.injEq,
    true_and, and_true] at hmembers
  obtain ⟨hcomparator, hgenerator, hpackages, hexport, hlean, htoolchain, hmathlib, -, hsupport,
    rfl, htemplate⟩ := hmembers
  have hpackages' : e.lakePackages = e'.lakePackages := by
    have hread := mapM_readPackage.mpr hpackages
    exact Option.some.inj ((mapM_readPackage.mpr rfl).symm.trans hread)
  have hpolicies := Json.object.inj (hpolicy.symm.trans hpolicy')
  cases e
  cases e'
  simp_all

theorem fromDict_eq_ok (hvalue : py.Reads value) :
    fromDict py value = .ok e ↔ e.Spelled py value ∧ e.Valid py := by
  simp only [fromDict, bind_eq_ok, need_eq_ok, require_eq_ok, Option.filter_eq_some_iff,
    asMembers_eq_some, asText_eq_some, readPackages_eq_some, readCommit_eq_ok, readDigest_eq_ok,
    decide_eq_true_eq, pure, Except.pure, Except.ok.injEq]
  constructor
  · rintro ⟨ms, ⟨rfl, hkeys⟩, -, hschema, packages, ⟨hpackages, hvalid⟩, comparator,
      ⟨hcomparator, hcomparator'⟩, exporter, ⟨hexporter, hexporter'⟩, lean, ⟨hlean, hlean'⟩,
      mathlib, ⟨hmathlib, hmathlib'⟩, support, ⟨hsupport, hsupport'⟩, template,
      ⟨htemplate, htemplate'⟩, policy, hpolicy, generator, ⟨hgenerator, hgenerator'⟩, toolchain,
      ⟨htoolchain, htoolchain'⟩, rfl⟩
    refine ⟨⟨_, _, hschema, hpolicy, ms, rfl, hkeys, ?_⟩, hvalid, hcomparator', hexporter', hlean',
      hmathlib', hsupport', htemplate', hgenerator', htoolchain', ?_, ?_⟩
    · simp only [membersWith, List.forall_mem_cons, List.not_mem_nil, false_implies, implies_true,
        and_true]
      exact ⟨hcomparator, hgenerator, hpackages, hexporter, hlean, htoolchain, hmathlib, trivial,
        hsupport, trivial, htemplate⟩
    · rw [← hpolicy]
      exact inOrder_sortKeys (hvalue.get _).keyed
    · rw [Written, ← hpolicy]
      exact (hvalue.get _).written.sortKeys
  · rintro ⟨⟨schema, policy, hschema, hpolicy, ms, rfl, hkeys, hms⟩, hvalid⟩
    simp only [membersWith, List.forall_mem_cons, List.not_mem_nil, false_implies, implies_true,
      and_true] at hms
    obtain ⟨hcomparator, hgenerator, hpackages, hexporter, hlean, htoolchain, hmathlib, rfl,
      hsupport, rfl, htemplate⟩ := hms
    exact ⟨ms, ⟨rfl, hkeys⟩, (), hschema, _, ⟨hpackages, hvalid.packages⟩, _,
      ⟨hcomparator, hvalid.comparatorCommit⟩, _, ⟨hexporter, hvalid.lean4exportCommit⟩, _,
      ⟨hlean, hvalid.leanCommit⟩, _, ⟨hmathlib, hvalid.mathlibCommit⟩, _,
      ⟨hsupport, hvalid.taskSupportSha256⟩, _, ⟨htemplate, hvalid.workspaceTemplateSha256⟩, _,
      hpolicy, _, ⟨hgenerator, hvalid.generatorVersion⟩, _, ⟨htoolchain, hvalid.leanToolchain⟩, rfl⟩

end EnvironmentIdentity

/-- The row spells the environment. -/
def SpelledEnvironment (py : Python) (row : Json) (e : Text × EnvironmentIdentity) : Prop :=
  ∃ identity, e.2.Spelled py identity ∧ Says (environmentMembers e.1 identity) row

/-- The environment stands under its own digest. -/
def ValidEnvironment (py : Python) (e : Text × EnvironmentIdentity) : Prop :=
  e.2.Valid py ∧ e.2.sha256 py = some e.1

theorem spelledEnvironment_json {e : Text × EnvironmentIdentity}
    (h : InOrder (.object e.2.verificationPolicy)) : SpelledEnvironment py (environmentJson e) e :=
  ⟨_, EnvironmentIdentity.spelled_json h, says_object environmentRowKeys_ordered.2⟩

theorem SpelledEnvironment.unique {e e' : Text × EnvironmentIdentity}
    (h : SpelledEnvironment py value e) (h' : SpelledEnvironment py value e') : e = e' := by
  obtain ⟨identity, hidentity, hsays⟩ := h
  obtain ⟨identity', hidentity', hsays'⟩ := h'
  have hmembers := hsays.unique hsays' rfl
  simp only [environmentMembers, List.cons.injEq, Prod.mk.injEq, Json.string.injEq, true_and,
    and_true] at hmembers
  obtain ⟨hdigest, rfl⟩ := hmembers
  exact Prod.ext hdigest (hidentity.unique hidentity')

theorem addEnvironment_eq_ok {es es' : List (Text × EnvironmentIdentity)}
    (hvalue : py.Reads value) : addEnvironment py es value = .ok es' ↔
      ∃ e, (SpelledEnvironment py value e ∧ ValidEnvironment py e) ∧ (∀ e' ∈ es, e'.1 ≠ e.1) ∧
        es' = es ++ [e] := by
  have hfresh {digest : Text} : digest ∉ es.map Prod.fst ↔ ∀ e' ∈ es, e'.1 ≠ digest := by
    simp only [List.mem_map, not_exists, not_and]
  simp only [addEnvironment, bind_eq_ok, need_eq_ok, require_eq_ok, Option.filter_eq_some_iff,
    asMembers_eq_some, decide_eq_true_eq, hfresh, pure, Except.pure, Except.ok.injEq]
  constructor
  · rintro ⟨ms, ⟨rfl, hkeys⟩, identity, hread, digest, hdigest, -, ⟨hfield, hnew⟩, rfl⟩
    obtain ⟨hspelled, hvalid⟩ :=
      (EnvironmentIdentity.fromDict_eq_ok (hvalue.get _)).mp hread
    refine ⟨(digest, identity), ⟨⟨_, hspelled, ms, rfl, hkeys, ?_⟩, hvalid, hdigest⟩, hnew, rfl⟩
    simp [environmentMembers, hfield]
  · rintro ⟨⟨digest, identity⟩, ⟨⟨_, hspelled, ms, rfl, hkeys, hsays⟩, hvalid, hdigest⟩, hnew,
      rfl⟩
    simp only [environmentMembers, List.forall_mem_cons, List.not_mem_nil, false_implies,
      implies_true, and_true] at hsays
    obtain ⟨hfield, rfl⟩ := hsays
    exact ⟨ms, ⟨rfl, hkeys⟩, identity, (EnvironmentIdentity.fromDict_eq_ok (hvalue.get _)).mpr
      ⟨hspelled, hvalid⟩, digest, hdigest, (), ⟨hfield, hnew⟩, rfl⟩

/-! ## Instances and publications -/

theorem readKnown_eq_ok {refusal : Refusal} {s : Text} :
    readKnown known refusal value = .ok s ↔ value = .string s ∧ s ∈ known := by
  cases value with
  | string s' =>
    simp only [readKnown, bind_eq_ok, require_eq_ok, pure, Except.pure, Except.ok.injEq,
      Json.string.injEq]
    constructor
    · rintro ⟨-, hs', rfl⟩
      exact ⟨rfl, hs'⟩
    · rintro ⟨rfl, hs⟩
      exact ⟨(), hs, rfl⟩
  | _ => simp [readKnown, throw, throwThe, MonadExceptOf.throw]

theorem readEnvironment_eq_ok {refusal : Refusal} {environment : Option Text} :
    readEnvironment known refusal value = .ok environment ↔
      value = textOrNull environment ∧ ∀ digest ∈ environment, digest ∈ known := by
  by_cases hvalue : value = .null
  · subst hvalue
    simp only [readEnvironment, pure, Except.pure, Except.ok.injEq]
    cases environment <;> simp [textOrNull]
  · have hread : readEnvironment known refusal value =
        (readKnown known refusal value).bind fun s ↦ .ok (some s) := by
      cases value <;> first | rfl | exact absurd rfl hvalue
    rw [hread]
    refine bind_eq_ok.trans ?_
    simp only [readKnown_eq_ok, Except.ok.injEq]
    cases environment with
    | none => simp [textOrNull, hvalue]
    | some digest => simp [textOrNull]

theorem readInstance_eq_ok {i : Instance} : readInstance known ms = .ok i ↔
    field ms (text "environment_identity_sha256") = textOrNull i.environmentIdentitySha256 ∧
      field ms (text "repository_commit") = .string i.repositoryCommit ∧ i.Valid known := by
  simp only [readInstance, bind_eq_ok, need_eq_ok, Option.filter_eq_some_iff, asText_eq_some,
    decide_eq_true_eq, readEnvironment_eq_ok, pure, Except.pure, Except.ok.injEq]
  constructor
  · rintro ⟨commit, ⟨hcommit, hcommit'⟩, environment, ⟨henvironment, hknown⟩, rfl⟩
    exact ⟨henvironment, hcommit, hcommit', hknown⟩
  · rintro ⟨henvironment, hcommit, hcommit', hknown⟩
    exact ⟨_, ⟨hcommit, hcommit'⟩, _, ⟨henvironment, hknown⟩, rfl⟩

theorem readInstanceRow_eq_ok {i : Instance} :
    readInstanceRow known value = .ok i ↔ Says i.members value ∧ i.Valid known := by
  simp only [readInstanceRow, bind_eq_ok, need_eq_ok, Option.filter_eq_some_iff, asMembers_eq_some,
    decide_eq_true_eq, readInstance_eq_ok]
  constructor
  · rintro ⟨ms, ⟨rfl, hkeys⟩, henvironment, hcommit, hvalid⟩
    exact ⟨⟨ms, rfl, hkeys, by simp [Instance.members, henvironment, hcommit]⟩, hvalid⟩
  · rintro ⟨⟨ms, rfl, hkeys, hms⟩, hvalid⟩
    simp only [Instance.members, List.forall_mem_cons, List.not_mem_nil, false_implies,
      implies_true, and_true] at hms
    exact ⟨ms, ⟨rfl, hkeys⟩, hms.1, hms.2, hvalid⟩

theorem textOrNull_injective : Function.Injective textOrNull := by
  intro s s' h
  cases s <;> cases s' <;> simp_all [textOrNull]

theorem Instance.members_injective : Function.Injective Instance.members := by
  intro i i' h
  simp only [members, List.cons.injEq, Prod.mk.injEq, Json.string.injEq, true_and, and_true] at h
  cases i
  cases i'
  simp_all [textOrNull_injective.eq_iff]

/-- The row spells the publication. -/
def Publication.Spelled (py : Python) (row : Json) (p : Publication) : Prop :=
  ∃ sequence, py.Equal sequence (.int p.sequence) ∧ Says (p.membersWith sequence) row

theorem Publication.spelled_json (p : Publication) : Publication.Spelled py p.json p :=
  ⟨_, .refl py _, says_object publicationKeys_ordered.2⟩

theorem Publication.Spelled.unique {p p' : Publication} (h : Publication.Spelled py value p)
    (h' : Publication.Spelled py value p') : p = p' := by
  obtain ⟨sequence, hsequence, hsays⟩ := h
  obtain ⟨sequence', hsequence', hsays'⟩ := h'
  have hmembers := hsays.unique hsays' rfl
  simp only [membersWith, List.cons.injEq, Prod.mk.injEq, Json.string.injEq, true_and, and_true,
    textOrNull_injective.eq_iff] at hmembers
  obtain ⟨hallowlist, henvironment, hcommit, rfl⟩ := hmembers
  have hposition : p.sequence = p'.sequence :=
    Int.ofNat.inj (Json.int.inj (hsequence.symm.trans hsequence'))
  rcases p with ⟨position, ⟨commit, environment⟩, digest⟩
  rcases p' with ⟨position', ⟨commit', environment'⟩, digest'⟩
  simp_all

/-- The publication names an instance that is listed. -/
structure Publication.Valid (known : List Text) (instances : List Instance) (p : Publication) :
    Prop where
  allowlist : Bundle.IsSha256 p.allowlistSha256
  forInstance : p.forInstance.Valid known
  listed : p.forInstance ∈ instances

theorem addPublication_eq_ok {ps ps' : List Publication} :
    addPublication py known instances ps value = .ok ps' ↔ ∃ p,
      (Publication.Spelled py value p ∧ p.Valid known instances) ∧ p.sequence = ps.length + 1 ∧
        ps' = ps ++ [p] := by
  simp only [addPublication, bind_eq_ok, need_eq_ok, require_eq_ok, Option.filter_eq_some_iff,
    asMembers_eq_some, asText_eq_some, decide_eq_true_eq, readInstance_eq_ok, pure, Except.pure,
    Except.ok.injEq]
  constructor
  · rintro ⟨ms, ⟨rfl, hkeys⟩, -, hsequence, digest, ⟨hdigest, hdigest'⟩, i,
      ⟨henvironment, hcommit, hvalid⟩, -, hlisted, rfl⟩
    refine ⟨⟨ps.length + 1, i, digest⟩, ⟨⟨_, hsequence, ms, rfl, hkeys, ?_⟩, hdigest', hvalid,
      hlisted⟩, rfl, rfl⟩
    simp [Publication.membersWith, hdigest, henvironment, hcommit]
  · rintro ⟨⟨position, i, digest⟩, ⟨⟨sequence, hsequence, ms, rfl, hkeys, hms⟩, hvalid⟩, rfl, rfl⟩
    simp only [Publication.membersWith, List.forall_mem_cons, List.not_mem_nil, false_implies,
      implies_true, and_true] at hms
    obtain ⟨hdigest, henvironment, hcommit, rfl⟩ := hms
    exact ⟨ms, ⟨rfl, hkeys⟩, (), hsequence, digest, ⟨hdigest, hvalid.allowlist⟩, i,
      ⟨henvironment, hcommit, hvalid.forInstance⟩, (), hvalid.listed, rfl⟩

end Conjectures.Registry
