import Conjectures.Versions.Closure
import Mathlib.Data.List.Dedup

/-!
# Import graphs

The local modules that a module reaches, each with its tree and its direct imports, and the
external modules those import.  The graph is computed in any monad in which a closure and the
origin of a module can be asked for: with a memo, or without.
-/

namespace Conjectures.Versions

open Lib Lib.Json

/-- Where a module came from; a local one with the digest of its source. -/
structure ModuleOrigin where
  origin : Text
  sourceSha256 : Option Text

/-- Where each loaded module came from, of which exactly the local ones have a source. -/
structure Classification where
  classify : LoadedModule → Except Refusal ModuleOrigin
  source : ∀ module origin, classify module = .ok origin →
    origin.sourceSha256.isSome = module.isLocal

/-- A local module, its tree and its direct imports. -/
structure LocalModule where
  name : Name
  tree : Text
  imports : List Name
  deriving DecidableEq

structure ImportGraph where
  externalImports : List (Name × Text)
  localModules : List LocalModule
  module : Name
  deriving DecidableEq

/-- `external[imported] = origin` -/
def put (external : List (Name × Text)) (name : Name) (tree : Text) : List (Name × Text) :=
  if name ∈ external.map Prod.fst then
    external.map fun entry ↦ if entry.1 = name then (name, tree) else entry
  else external ++ [(name, tree)]

section Computing

variable {m : Type → Type} [Monad m] [MonadLiftT (Except Refusal) m]

/-- What one import adds to the external modules. -/
def addImport (report : ClosureReport) (classify : LoadedModule → m ModuleOrigin)
    (external : List (Name × Text)) (imported : Name) : m (List (Name × Text)) := do
  let row ← need (report.row imported) Refusal.dependencyIdentityMismatch
  if row.isLocal then return external
  else
    let origin ← classify row.toLoadedModule
    return put external imported origin.origin

/-- What one module of the closure adds to the graph. -/
def addToGraph (canonical : Canonical) (report : ClosureReport)
    (classify : LoadedModule → m ModuleOrigin) (graph : List LocalModule × List (Name × Text))
    (name : Name) : m (List LocalModule × List (Name × Text)) := do
  let row ← need (report.row name) Refusal.keyError
  let origin ← classify row.toLoadedModule
  if origin.sourceSha256.isNone then return graph
  else
    let imports ← canonical.sorted id row.imports.dedup
    let external ← row.imports.foldlM (addImport report classify) graph.2
    return (graph.1 ++ [⟨name, origin.origin, imports⟩], external)

/-- `_import_graph` -/
def importGraph (canonical : Canonical) (report : ClosureReport)
    (moduleClosure : Name → m (List Name)) (classify : LoadedModule → m ModuleOrigin)
    (module : Name) : m ImportGraph := do
  let names ← moduleClosure module
  let (locals, external) ← names.foldlM (addToGraph canonical report classify) ([], [])
  let external ← canonical.sorted Prod.fst external
  return ⟨external, locals, module⟩

end Computing

/-- The graph, computed without a memo. -/
def Classification.graph (classification : Classification) (canonical : Canonical)
    (report : ClosureReport) (module : Name) : Except Refusal ImportGraph :=
  importGraph canonical report (computeModuleClosure canonical report) classification.classify
    module

/-! ## The external modules -/

variable {canonical : Canonical} {report : ClosureReport} {classification : Classification}
  {name imported : Name} {tree : Text} {external external' : List (Name × Text)}
  {imports : List Name}

/-- The module was loaded, is not local, and comes from this tree. -/
def Classification.Outside (classification : Classification) (report : ClosureReport) (name : Name)
    (tree : Text) : Prop :=
  ∃ row origin, report.row name = some row ∧ row.isLocal = false ∧
    classification.classify row.toLoadedModule = .ok origin ∧ origin.origin = tree

theorem Classification.Outside.unique {tree' : Text}
    (h : classification.Outside report name tree) (h' : classification.Outside report name tree') :
    tree = tree' := by
  obtain ⟨row, origin, hrow, -, horigin, rfl⟩ := h
  obtain ⟨row', origin', hrow', -, horigin', rfl⟩ := h'
  rw [hrow, Option.some.injEq] at hrow'
  subst hrow'
  rw [horigin, Except.ok.injEq] at horigin'
  rw [horigin']

/-- Each name stands in the list once, with the tree that the module comes from. -/
structure Classification.Collected (classification : Classification) (report : ClosureReport)
    (external : List (Name × Text)) : Prop where
  nodup : (external.map Prod.fst).Nodup
  outside : ∀ entry ∈ external, classification.Outside report entry.1 entry.2

theorem collected_nil : classification.Collected report [] := ⟨List.nodup_nil, by simp⟩

/-- What is put is in the list, or was. -/
theorem Classification.Collected.put (h : classification.Collected report external)
    (houtside : classification.Outside report imported tree) :
    classification.Collected report (put external imported tree) ∧
      ∀ entry, entry ∈ put external imported tree ↔ entry ∈ external ∨ entry = (imported, tree) := by
  unfold Versions.put
  split
  · next hmem =>
    -- the name has this tree already
    have hsame (entry) (hentry : entry ∈ external) :
        (if entry.1 = imported then (imported, tree) else entry) = entry := by
      split
      · next hname =>
        have := h.outside entry hentry
        rw [hname] at this
        rw [this.unique houtside |>.symm, ← hname]
      · rfl
    rw [List.map_congr_left hsame, List.map_id']
    refine ⟨h, fun entry ↦ ⟨.inl, ?_⟩⟩
    rintro (hentry | rfl)
    · exact hentry
    · obtain ⟨entry, hentry, rfl⟩ := List.mem_map.mp hmem
      rwa [(h.outside entry hentry).unique houtside |>.symm]
  · next hmem =>
    refine ⟨⟨?_, ?_⟩, by simp⟩
    · rw [List.map_append, List.nodup_append]
      refine ⟨h.nodup, by simp, ?_⟩
      rintro name hname name' hname' rfl
      rw [List.map_singleton, List.mem_singleton] at hname'
      have hsame : name = imported := hname'
      exact hmem (hsame ▸ hname)
    · intro entry hentry
      rcases List.mem_append.mp hentry with hentry | hentry
      · exact h.outside entry hentry
      · rw [List.mem_singleton.mp hentry]
        exact houtside

/-- An import adds itself where it is external. -/
theorem addImport_spec (h : classification.Collected report external)
    (hadd : addImport report classification.classify external imported = .ok external') :
    classification.Collected report external' ∧
      (∀ entry, entry ∈ external' ↔ entry ∈ external ∨
        entry.1 = imported ∧ classification.Outside report entry.1 entry.2) := by
  simp only [addImport, bind_eq_ok] at hadd
  obtain ⟨row, hrow, hadd⟩ := hadd
  have hrow := need_eq_ok.mp hrow
  split at hadd
  · next hlocal =>
    obtain rfl := Except.ok.inj hadd
    refine ⟨h, fun entry ↦ ⟨.inl, ?_⟩⟩
    rintro (hentry | ⟨hname, houtside⟩)
    · exact hentry
    · obtain ⟨row', _, hrow', hexternal, -⟩ := houtside
      rw [hname, hrow, Option.some.injEq] at hrow'
      subst hrow'
      rw [hlocal] at hexternal
      cases hexternal
  · next hlocal =>
    obtain ⟨origin, horigin, hadd⟩ := bind_eq_ok.mp hadd
    obtain rfl := Except.ok.inj hadd
    have houtside : classification.Outside report imported origin.origin :=
      ⟨row, origin, hrow, Bool.not_eq_true _ ▸ hlocal, horigin, rfl⟩
    obtain ⟨hput, hmem⟩ := h.put houtside
    refine ⟨hput, fun entry ↦ (hmem entry).trans (or_congr_right ?_)⟩
    constructor
    · rintro rfl
      exact ⟨rfl, houtside⟩
    · rintro ⟨hname, houtside'⟩
      rw [hname] at houtside'
      exact Prod.ext hname (houtside'.unique houtside)

/-- The imports of a module add those that are external. -/
theorem addImports_spec (h : classification.Collected report external)
    (hadd : imports.foldlM (addImport report classification.classify) external = .ok external') :
    classification.Collected report external' ∧
      (∀ entry, entry ∈ external' ↔ entry ∈ external ∨
        entry.1 ∈ imports ∧ classification.Outside report entry.1 entry.2) := by
  induction imports generalizing external with
  | nil =>
    obtain rfl := Except.ok.inj hadd
    exact ⟨h, by simp⟩
  | cons imported imports ih =>
    rw [List.foldlM_cons] at hadd
    obtain ⟨external₁, hfirst, hadd⟩ := bind_eq_ok.mp hadd
    obtain ⟨hcollected, hmem₁⟩ := addImport_spec h hfirst
    obtain ⟨hcollected', hmem⟩ := ih hcollected hadd
    refine ⟨hcollected', fun entry ↦ ?_⟩
    rw [hmem, hmem₁, List.mem_cons, or_assoc, ← or_and_right]

/-! ## The graph -/

/-- The module was loaded, is local and imports the other. -/
def ClosureReport.Imports (report : ClosureReport) (importer name : Name) : Prop :=
  ∃ row, report.row importer = some row ∧ row.isLocal = true ∧ name ∈ row.imports

def ClosureReport.isLocal (report : ClosureReport) (name : Name) : Bool :=
  (report.row name).any (·.isLocal)

/-- The entry is that of a module that was loaded. -/
structure Classification.Entry (classification : Classification) (report : ClosureReport)
    (entry : LocalModule) (row : ModuleRow) : Prop where
  loaded : report.row entry.name = some row
  tree : ∃ origin, classification.classify row.toLoadedModule = .ok origin ∧
    entry.tree = origin.origin
  nodup : entry.imports.Nodup
  imports : ∀ name, name ∈ entry.imports ↔ name ∈ row.imports

/-- What the loop has collected when these modules are done. -/
structure Classification.Graphed (classification : Classification) (report : ClosureReport)
    (done : List Name) (graph : List LocalModule × List (Name × Text)) : Prop where
  names : graph.1.map (·.name) = done.filter report.isLocal
  entries : ∀ entry ∈ graph.1, ∃ row, classification.Entry report entry row
  collected : classification.Collected report graph.2
  external : ∀ entry, entry ∈ graph.2 ↔ (∃ importer ∈ done, report.Imports importer entry.1) ∧
    classification.Outside report entry.1 entry.2

variable {done names : List Name} {graph graph' : List LocalModule × List (Name × Text)}

theorem graphed_nil : classification.Graphed report [] ([], []) :=
  ⟨rfl, by simp, collected_nil, by simp⟩

/-- One module more. -/
theorem Classification.Graphed.step (h : classification.Graphed report done graph)
    (hadd : addToGraph canonical report classification.classify graph name = .ok graph') :
    classification.Graphed report (done ++ [name]) graph' := by
  simp only [addToGraph, bind_eq_ok] at hadd
  obtain ⟨row, hrow, origin, horigin, hadd⟩ := hadd
  have hrow : report.row name = some row := need_eq_ok.mp hrow
  have hsource := classification.source _ _ horigin
  have hlocal : report.isLocal name = row.isLocal := by rw [ClosureReport.isLocal, hrow]; rfl
  split at hadd
  · next hnone =>
    -- an external module adds nothing
    obtain rfl := Except.ok.inj hadd
    have hexternal : row.isLocal = false := by
      rw [← hsource, Option.isSome_eq_false_iff]
      exact hnone
    refine ⟨?_, h.entries, h.collected, fun entry ↦ ?_⟩
    · rw [List.filter_append, List.filter_singleton, hlocal, hexternal]
      simpa using h.names
    · rw [h.external]
      refine and_congr_left fun _ ↦ ⟨?_, ?_⟩
      · rintro ⟨importer, hdone, himports⟩
        exact ⟨importer, List.mem_append_left _ hdone, himports⟩
      · rintro ⟨importer, hdone, himports⟩
        rcases List.mem_append.mp hdone with hdone | hdone
        · exact ⟨importer, hdone, himports⟩
        · obtain ⟨row', hrow', hlocal', -⟩ := himports
          rw [List.mem_singleton.mp hdone, hrow, Option.some.injEq] at hrow'
          subst hrow'
          rw [hexternal] at hlocal'
          cases hlocal'
  · next hsome =>
    have hislocal : row.isLocal = true := by
      rw [← hsource, Option.isSome_iff_ne_none]
      exact fun hnone ↦ hsome (by rw [hnone]; rfl)
    simp only [bind_eq_ok] at hadd
    obtain ⟨imports, hsorted, external, hfold, hadd⟩ := hadd
    obtain rfl := Except.ok.inj hadd
    obtain ⟨hcollected, hmem⟩ := addImports_spec h.collected hfold
    refine ⟨?_, ?_, hcollected, fun entry ↦ ?_⟩
    · rw [List.map_append, h.names, List.filter_append, List.filter_singleton, hlocal, hislocal]
      rfl
    · intro entry hentry
      rcases List.mem_append.mp hentry with hentry | hentry
      · exact h.entries entry hentry
      · rw [List.mem_singleton.mp hentry]
        have hperm := sorted_perm hsorted
        exact ⟨row, hrow, ⟨origin, horigin, rfl⟩, hperm.nodup_iff.mpr (List.nodup_dedup _),
          fun name ↦ hperm.mem_iff.trans List.mem_dedup⟩
    · rw [hmem, h.external, ← or_and_right]
      refine and_congr_left fun _ ↦ ⟨?_, ?_⟩
      · rintro (⟨importer, hdone, himports⟩ | himported)
        · exact ⟨importer, List.mem_append_left _ hdone, himports⟩
        · exact ⟨name, by simp, row, hrow, hislocal, himported⟩
      · rintro ⟨importer, hdone, himports⟩
        rcases List.mem_append.mp hdone with hdone | hdone
        · exact .inl ⟨importer, hdone, himports⟩
        · obtain ⟨row', hrow', -, himported⟩ := himports
          rw [List.mem_singleton.mp hdone, hrow, Option.some.injEq] at hrow'
          subst hrow'
          exact .inr himported

/-- The loop over the modules of a closure. -/
theorem Classification.Graphed.run (h : classification.Graphed report done graph)
    (hadd : names.foldlM (addToGraph canonical report classification.classify) graph =
      .ok graph') : classification.Graphed report (done ++ names) graph' := by
  induction names generalizing done graph with
  | nil =>
    obtain rfl := Except.ok.inj hadd
    rwa [List.append_nil]
  | cons name names ih =>
    rw [List.foldlM_cons] at hadd
    obtain ⟨graph₁, hfirst, hadd⟩ := bind_eq_ok.mp hadd
    have := ih (h.step hfirst) hadd
    rwa [List.append_assoc, List.singleton_append] at this

/-- The graph of a module: the local modules that are reached, each with its tree and the set of
its imports, and the external modules those import, each with its tree. -/
structure Classification.IsGraph (classification : Classification) (report : ClosureReport)
    (module : Name) (graph : ImportGraph) : Prop where
  root : graph.module = module
  localNames : (graph.localModules.map (·.name)).Nodup
  localModules : ∀ name, name ∈ graph.localModules.map (·.name) ↔
    report.Reaches module name ∧ ∃ row, report.row name = some row ∧ row.isLocal = true
  entries : ∀ entry ∈ graph.localModules, ∃ row, classification.Entry report entry row
  externalNames : (graph.externalImports.map Prod.fst).Nodup
  externalImports : ∀ name tree, (name, tree) ∈ graph.externalImports ↔
    (∃ importer, report.Reaches module importer ∧ report.Imports importer name) ∧
      classification.Outside report name tree

theorem isLocal_iff : report.isLocal name = true ↔
    ∃ row, report.row name = some row ∧ row.isLocal = true := by
  rw [ClosureReport.isLocal, Option.any_eq_true]

/-- What is computed is the graph. -/
theorem isGraph_of_graph (hnamed : report.Named) {module : Name} {graph : ImportGraph}
    (h : classification.graph canonical report module = .ok graph) :
    classification.IsGraph report module graph := by
  simp only [Classification.graph, importGraph, bind_eq_ok] at h
  obtain ⟨names, hnames, ⟨locals, external⟩, hfold, external', hsorted, h⟩ := h
  obtain rfl := Except.ok.inj h
  obtain ⟨hnodup, hreaches, -⟩ := mem_closure hnamed hnames
  have hgraphed := graphed_nil.run hfold
  rw [List.nil_append] at hgraphed
  have hperm := sorted_perm hsorted
  refine ⟨rfl, ?_, fun name ↦ ?_, hgraphed.entries, ?_, fun name tree ↦ ?_⟩
  · rw [hgraphed.names]
    exact hnodup.filter _
  · rw [hgraphed.names, List.mem_filter, hreaches, isLocal_iff]
  · exact (hperm.map _).nodup_iff.mpr hgraphed.collected.nodup
  · rw [hperm.mem_iff, hgraphed.external]
    simp only [hreaches]

end Conjectures.Versions
