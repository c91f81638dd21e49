import Conjectures.Versions.Identity

/-!
# The order of a report

What is computed does not depend on the order of the rows of a report, nor on how often a module
is imported or listed.

Closures, external modules, graphs and identities are sorted before they are written, by keys that
tell their elements apart; that is all the proofs rest on.
-/

namespace Conjectures.Versions

open Lib Lib.Json

/-! ## Reports of the same rows -/

/-- The same module, with the same set of imports. -/
structure SameRow (row row' : ModuleRow) : Prop where
  loaded : row.toLoadedModule = row'.toLoadedModule
  imports : ∀ name, name ∈ row.imports ↔ name ∈ row'.imports

/-- Each module has the same row in both reports, or none. -/
def SameRows (report report' : ClosureReport) : Prop :=
  ∀ name, Option.Rel SameRow (report.row name) (report'.row name)

variable {canonical : Canonical} {classification : Classification}
  {report report' : ClosureReport} {name module : Name}

theorem SameRow.symm {row row' : ModuleRow} (h : SameRow row row') : SameRow row' row :=
  ⟨h.loaded.symm, fun name ↦ (h.imports name).symm⟩

namespace SameRows

theorem symm (h : SameRows report report') : SameRows report' report := by
  intro name
  have hrel := h name
  generalize report.row name = a at hrel ⊢
  generalize report'.row name = b at hrel ⊢
  cases hrel with
  | none => exact .none
  | some hrow => exact .some hrow.symm

/-- A row of one report is one of the other. -/
theorem row (h : SameRows report report') {row : ModuleRow} (hrow : report.row name = some row) :
    ∃ row', report'.row name = some row' ∧ SameRow row row' := by
  have hrel := h name
  rw [hrow] at hrel
  cases hrel' : report'.row name with
  | none => rw [hrel'] at hrel; cases hrel
  | some row' =>
    rw [hrel'] at hrel
    cases hrel with
    | some hsame => exact ⟨row', rfl, hsame⟩

theorem row_none (h : SameRows report report') (hrow : report.row name = none) :
    report'.row name = none := by
  cases hrow' : report'.row name with
  | none => rfl
  | some row' =>
    obtain ⟨row, hsome, -⟩ := h.symm.row hrow'
    rw [hrow] at hsome
    cases hsome

theorem edge (h : SameRows report report') {a b : Name}
    (hedge : Worklist.Edge report.next a b) : Worklist.Edge report'.next a b := by
  obtain ⟨imports, hnext, hb⟩ := hedge
  obtain ⟨row, hrow, rfl⟩ := Option.map_eq_some_iff.mp hnext
  obtain ⟨row', hrow', hsame⟩ := h.row hrow
  exact ⟨row'.imports, by rw [ClosureReport.next, hrow']; rfl, (hsame.imports b).mp hb⟩

/-- What is reached is the same. -/
theorem reaches (h : SameRows report report') :
    report.Reaches module name ↔ report'.Reaches module name :=
  ⟨fun hreaches ↦ Relation.ReflTransGen.mono (fun _ _ ↦ h.edge) _ _ hreaches,
    fun hreaches ↦ Relation.ReflTransGen.mono (fun _ _ ↦ h.symm.edge) _ _ hreaches⟩

/-- The closure is the same, or is refused in both. -/
theorem closure (h : SameRows report report') (hnamed : report.Named) (hnamed' : report'.Named) :
    computeModuleClosure canonical report module =
      computeModuleClosure canonical report' module := by
  unfold computeModuleClosure
  rcases walk_spec hnamed module with ⟨found, hwalk, hnodup, hfound, hloaded⟩ | ⟨a, hwalk, ha, hnone⟩
  · rcases walk_spec hnamed' module with ⟨found', hwalk', hnodup', hfound', -⟩ | ⟨a, -, ha, hnone⟩
    · rw [hwalk, hwalk']
      refine sorted_eq_of_perm ?_ (by rwa [List.map_id])
      exact (List.perm_ext_iff_of_nodup hnodup hnodup').mpr fun name ↦ by
        rw [hfound, hfound', h.reaches]
    · have := hloaded a (h.reaches.mpr ha)
      rw [h.symm.row_none hnone] at this
      cases this
  · rcases walk_spec hnamed' module with ⟨found', -, -, -, hloaded⟩ | ⟨a', hwalk', -⟩
    · have := hloaded a (h.reaches.mp ha)
      rw [h.row_none hnone] at this
      cases this
    · rw [hwalk, hwalk']

end SameRows

/-! ## The graph -/

/-- An import of this module can be added. -/
def Classification.Importable (classification : Classification) (report : ClosureReport)
    (name : Name) : Prop :=
  ∃ row, report.row name = some row ∧
    (row.isLocal = true ∨ ∃ origin, classification.classify row.toLoadedModule = .ok origin)

theorem addImport_ok_iff {external : List (Name × Text)} :
    (∃ external', addImport report classification.classify external name = .ok external') ↔
      classification.Importable report name := by
  constructor
  · rintro ⟨external', h⟩
    simp only [addImport, bind_eq_ok] at h
    obtain ⟨row, hrow, h⟩ := h
    refine ⟨row, need_eq_ok.mp hrow, ?_⟩
    split at h
    · next hlocal => exact .inl hlocal
    · obtain ⟨origin, horigin, -⟩ := bind_eq_ok.mp h
      exact .inr ⟨origin, horigin⟩
  · rintro ⟨row, hrow, h⟩
    have hneed : need (report.row name) Refusal.dependencyIdentityMismatch = .ok row :=
      need_eq_ok.mpr hrow
    simp only [addImport, bind_eq_ok]
    by_cases hlocal : row.isLocal = true
    · exact ⟨external, row, hneed, by rw [if_pos hlocal]; rfl⟩
    · obtain ⟨origin, horigin⟩ := h.resolve_left hlocal
      refine ⟨put external name origin.origin, row, hneed, ?_⟩
      rw [if_neg hlocal]
      exact bind_of_ok horigin _

theorem addImports_ok_iff {imports : List Name} {external : List (Name × Text)} :
    (∃ external', imports.foldlM (addImport report classification.classify) external =
      .ok external') ↔ ∀ name ∈ imports, classification.Importable report name := by
  induction imports generalizing external with
  | nil => exact iff_of_true ⟨external, rfl⟩ (by simp)
  | cons name imports ih =>
    simp only [List.foldlM_cons, bind_eq_ok, List.forall_mem_cons]
    constructor
    · rintro ⟨external', external₁, hfirst, hrest⟩
      exact ⟨addImport_ok_iff.mp ⟨external₁, hfirst⟩, ih.mp ⟨external', hrest⟩⟩
    · rintro ⟨hfirst, hrest⟩
      obtain ⟨external₁, hfirst⟩ := (@addImport_ok_iff _ _ _ external).mpr hfirst
      obtain ⟨external', hrest⟩ := (@ih external₁).mpr hrest
      exact ⟨external', external₁, hfirst, hrest⟩

theorem SameRows.importable (h : SameRows report report')
    (hname : classification.Importable report name) : classification.Importable report' name := by
  obtain ⟨row, hrow, hok⟩ := hname
  obtain ⟨row', hrow', hsame⟩ := h.row hrow
  have hlocal : row.isLocal = row'.isLocal := congrArg (·.isLocal) hsame.loaded
  exact ⟨row', hrow', by rwa [← hlocal, ← hsame.loaded]⟩

theorem SameRows.outside (h : SameRows report report') {tree : Text} :
    classification.Outside report name tree ↔ classification.Outside report' name tree := by
  suffices ∀ {report report'}, SameRows report report' →
      classification.Outside report name tree → classification.Outside report' name tree from
    ⟨this h, this h.symm⟩
  rintro report report' h ⟨row, origin, hrow, hexternal, horigin, htree⟩
  obtain ⟨row', hrow', hsame⟩ := h.row hrow
  have hlocal : row.isLocal = row'.isLocal := congrArg (·.isLocal) hsame.loaded
  exact ⟨row', origin, hrow', hlocal ▸ hexternal, hsame.loaded ▸ horigin, htree⟩

/-- Graphs of the same local modules and of the same external ones, in any order. -/
structure SameGraph (classification : Classification) (report report' : ClosureReport)
    (graph graph' : List LocalModule × List (Name × Text)) : Prop where
  locals : graph.1 = graph'.1
  collected : classification.Collected report graph.2
  collected' : classification.Collected report' graph'.2
  external : ∀ entry, entry ∈ graph.2 ↔ entry ∈ graph'.2

variable {graph graph' graph₁ : List LocalModule × List (Name × Text)}

/-- One module adds the same to both. -/
theorem SameRows.addToGraph (h : SameRows report report')
    (hsame : SameGraph classification report report' graph graph')
    (hadd : addToGraph canonical report classification.classify graph name = .ok graph₁) :
    ∃ graph₁', addToGraph canonical report' classification.classify graph' name = .ok graph₁' ∧
      SameGraph classification report report' graph₁ graph₁' := by
  simp only [Versions.addToGraph, bind_eq_ok] at hadd ⊢
  obtain ⟨row, hrow, origin, horigin, hadd⟩ := hadd
  obtain ⟨row', hrow', hsamerow⟩ := h.row (need_eq_ok.mp hrow)
  have hneed : need (report'.row name) Refusal.keyError = .ok row' := need_eq_ok.mpr hrow'
  rw [hsamerow.loaded] at horigin
  split at hadd
  · next hnone =>
    obtain rfl := Except.ok.inj hadd
    exact ⟨graph', ⟨row', hneed, origin, horigin, by rw [if_pos hnone]; rfl⟩, hsame⟩
  · next hsome =>
    simp only [bind_eq_ok] at hadd
    obtain ⟨imports, hsorted, external, hfold, hadd⟩ := hadd
    obtain rfl := Except.ok.inj hadd
    have hperm : row.imports.dedup.Perm row'.imports.dedup :=
      (List.perm_ext_iff_of_nodup (List.nodup_dedup _) (List.nodup_dedup _)).mpr fun name ↦ by
        rw [List.mem_dedup, List.mem_dedup, hsamerow.imports]
    have hsorted' : canonical.sorted id row'.imports.dedup = .ok imports := by
      rw [← sorted_eq_of_perm hperm (by rw [List.map_id]; exact List.nodup_dedup _)]
      exact hsorted
    have himportable := addImports_ok_iff.mp ⟨external, hfold⟩
    obtain ⟨external', hfold'⟩ := (@addImports_ok_iff classification report' row'.imports
      graph'.2).mpr fun name hname ↦ h.importable (himportable name ((hsamerow.imports name).mpr hname))
    obtain ⟨hcollected, hmem⟩ := addImports_spec hsame.collected hfold
    obtain ⟨hcollected', hmem'⟩ := addImports_spec hsame.collected' hfold'
    refine ⟨(graph'.1 ++ [⟨name, origin.origin, imports⟩], external'),
      ⟨row', hneed, origin, horigin, ?_⟩, ?_, hcollected, hcollected', fun entry ↦ ?_⟩
    · rw [if_neg hsome]
      simp only [bind_eq_ok]
      exact ⟨imports, hsorted', external', hfold', rfl⟩
    · rw [hsame.locals]
    · rw [hmem, hmem', hsame.external, hsamerow.imports, h.outside]

theorem SameRows.addAllToGraph (h : SameRows report report') {names : List Name}
    (hsame : SameGraph classification report report' graph graph')
    (hadd : names.foldlM (Versions.addToGraph canonical report classification.classify) graph =
      .ok graph₁) :
    ∃ graph₁', names.foldlM (Versions.addToGraph canonical report' classification.classify) graph' =
      .ok graph₁' ∧ SameGraph classification report report' graph₁ graph₁' := by
  induction names generalizing graph graph' with
  | nil =>
    obtain rfl := Except.ok.inj hadd
    exact ⟨graph', rfl, hsame⟩
  | cons name names ih =>
    simp only [List.foldlM_cons, bind_eq_ok] at hadd ⊢
    obtain ⟨graph₂, hfirst, hadd⟩ := hadd
    obtain ⟨graph₂', hfirst', hsame₂⟩ := h.addToGraph hsame hfirst
    obtain ⟨graph₁', hadd', hsame₁⟩ := ih hsame₂ hadd
    exact ⟨graph₁', ⟨graph₂', hfirst', hadd'⟩, hsame₁⟩

/-- The graph is the same. -/
theorem SameRows.importGraph (h : SameRows report report') (hnamed : report.Named)
    (hnamed' : report'.Named) {graph : ImportGraph}
    (hgraph : classification.graph canonical report module = .ok graph) :
    classification.graph canonical report' module = .ok graph := by
  simp only [Classification.graph, Versions.importGraph, bind_eq_ok] at hgraph ⊢
  obtain ⟨names, hnames, ⟨locals, external⟩, hfold, sorted, hsorted, hgraph⟩ := hgraph
  rw [h.closure hnamed hnamed'] at hnames
  have hstart : SameGraph classification report report' ([], []) ([], []) :=
    ⟨rfl, collected_nil, collected_nil, fun _ ↦ Iff.rfl⟩
  obtain ⟨⟨locals', external'⟩, hfold', hsame⟩ := h.addAllToGraph hstart hfold
  have hperm : external.Perm external' :=
    (List.perm_ext_iff_of_nodup hsame.collected.nodup.of_map hsame.collected'.nodup.of_map).mpr
      hsame.external
  refine ⟨names, hnames, _, hfold', sorted, ?_, ?_⟩
  · exact (sorted_eq_of_perm hperm hsame.collected.nodup).symm.trans hsorted
  · obtain rfl : locals = locals' := hsame.locals
    exact hgraph

/-! ## The identity -/

theorem SameRows.addIdentity (h : SameRows report report') (closure : List Name)
    (theoremName : Name) :
    addIdentity canonical report classification.classify closure theoremName =
      addIdentity canonical report' classification.classify closure theoremName := by
  funext rows constant
  unfold Versions.addIdentity
  cases hrow : report.row constant.module with
  | none => rw [h.row_none hrow]
  | some row =>
    obtain ⟨row', hrow', hsame⟩ := h.row hrow
    have hlocal : row.isLocal = row'.isLocal := congrArg (·.isLocal) hsame.loaded
    have hneed (row : ModuleRow) : liftM (need (some row) Refusal.dependencyIdentityMismatch) =
        (Except.ok row : Except Refusal ModuleRow) := rfl
    rw [hrow', hneed, hneed, bind_of_ok (b := row) rfl, bind_of_ok (b := row') rfl, hlocal,
      hsame.loaded]

/-- The identity of a target is the same. -/
theorem SameRows.identity (h : SameRows report report') (hnamed : report.Named)
    (hnamed' : report'.Named) {statementTypeSha256 : Text} {target : TargetClosure}
    {identity : DependencyIdentity}
    (hidentity : classification.identity canonical report statementTypeSha256 target =
      .ok identity) :
    classification.identity canonical report' statementTypeSha256 target = .ok identity := by
  simp only [Classification.identity, dependencyIdentity, bind_eq_ok] at hidentity ⊢
  obtain ⟨closure, hclosure, rows, hrows, seen, hseen, digest, hdigest, imports, himports,
    hidentity⟩ := hidentity
  rw [h.closure hnamed hnamed'] at hclosure
  rw [h.addIdentity] at hrows
  exact ⟨closure, hclosure, rows, hrows, seen, hseen, digest, hdigest, imports,
    h.importGraph hnamed hnamed' himports, hidentity⟩

end Conjectures.Versions
