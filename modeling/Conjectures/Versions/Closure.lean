import Conjectures.Lib.Worklist
import Conjectures.Versions.Report

/-!
# Import closures

The modules that a module reaches through imports, found with a worklist and sorted by the
encoding of their names.

The worklist ends on every import relation, cyclic ones included, and has then seen what is reached
and nothing else (`walk_spec`).  There is no closure where a module is reached that the report does
not list, or where a name has half a surrogate pair and cannot be encoded.
-/

namespace Conjectures.Versions

open Lib Lib.Json

/-! ## The order of names -/

theorem sortKeys_component (c : Component) : (componentJson c).sortKeys = componentJson c := by
  cases c <;> rfl

theorem keyed_component (c : Component) : (componentJson c).Keyed := by
  cases c <;> simp [componentJson, Keyed, KeyedItems]

theorem sortKeys_nameJson (name : Name) : (nameJson name).sortKeys = nameJson name := by
  rw [nameJson, sortKeys]
  congr 1
  induction name with
  | nil => rfl
  | cons c name ih => rw [List.map_cons, sortItems, sortKeys_component, ih]

theorem keyed_nameJson (name : Name) : (nameJson name).Keyed := by
  rw [nameJson, Keyed]
  induction name with
  | nil => trivial
  | cons c name ih => exact ⟨keyed_component c, ih⟩

theorem floats_nameJson {p : List Char → Prop} (name : Name) : (nameJson name).Floats p := by
  rw [nameJson, floats_array, List.forall_mem_map]
  rintro (_ | _) - <;> simp [componentJson]

/-- Names that are written alike are one name. -/
theorem dumps_nameJson_injective {name name' : Name} {cs : List Char}
    (h : dumps (nameJson name) = some cs) (h' : dumps (nameJson name') = some cs) :
    name = name' := by
  have hread : loads? (cs ++ []) = _ :=
    loads?_dumps h (keyed_nameJson name) (floats_nameJson name) (.refl [])
  rw [loads?_dumps h' (keyed_nameJson name') (floats_nameJson name') (.refl []), sortKeys_nameJson,
    sortKeys_nameJson, Option.some.injEq] at hread
  exact (nameJson_injective hread).symm

theorem encode_injective {cs cs' : List Char} (h : encode cs = encode cs') : cs = cs' :=
  Option.some.inj ((decode?_eq_some.mpr rfl).symm.trans (decode?_eq_some.mpr h))

variable {canonical : Canonical}

/-- The keys of names tell them apart. -/
theorem nameKey_injective {name name' : Name} {k : List ℕ} (h : canonical.nameKey name = some k)
    (h' : canonical.nameKey name' = some k) : name = name' := by
  simp only [Canonical.nameKey, canonical.bytes_name, Option.map_map, Option.map_eq_some_iff,
    Function.comp_apply] at h h'
  obtain ⟨cs, hcs, rfl⟩ := h
  obtain ⟨cs', hcs', heq⟩ := h'
  have hnat : Function.Injective UInt8.toNat := fun a b ↦ UInt8.toNat_inj.mp
  have hdata := List.map_injective_iff.mpr hnat heq
  have hbytes : encode (cs' ++ ['\n']) = encode (cs ++ ['\n']) :=
    ByteArray.ext (Array.toList_inj.mp hdata)
  obtain rfl := List.append_cancel_right (encode_injective hbytes)
  exact dumps_nameJson_injective hcs hcs'

theorem sorted_eq_ok {α : Type} {name : α → Name} {rows rows' : List α} :
    canonical.sorted name rows = .ok rows' ↔
      sortedBy (fun row ↦ canonical.nameKey (name row)) rows = some rows' := need_eq_ok

theorem sorted_perm {α : Type} {name : α → Name} {rows rows' : List α}
    (h : canonical.sorted name rows = .ok rows') : rows'.Perm rows :=
  sortedBy_perm (sorted_eq_ok.mp h)

/-- Rows with names of their own are sorted alike, in whatever order they came. -/
theorem sorted_eq_of_perm {α : Type} {name : α → Name} {rows rows' : List α}
    (h : rows.Perm rows') (hname : (rows.map name).Nodup) :
    canonical.sorted name rows = canonical.sorted name rows' := by
  have hkey : Distinguishes (fun row ↦ canonical.nameKey (name row)) rows := fun a ha b hb _ hk hk' ↦
    List.inj_on_of_nodup_map hname ha hb (nameKey_injective hk hk')
  rw [Canonical.sorted, Canonical.sorted, sortedBy_eq_of_perm h hkey]

/-! ## The closure -/

/-- `report.modules.get` -/
def ClosureReport.row (report : ClosureReport) (name : Name) : Option ModuleRow :=
  report.modules.find? fun row ↦ row.name = name

/-- The imports of a module that was loaded. -/
def ClosureReport.next (report : ClosureReport) (name : Name) : Option (List Name) :=
  (report.row name).map (·.imports)

/-- The loop of `_compute_module_closure`. -/
def walk (report : ClosureReport) (module : Name) : Worklist.Outcome Name :=
  Worklist.search report.next (Worklist.passes report.next (report.modules.map (·.name))) [module]
    []

/-- `_compute_module_closure` -/
def computeModuleClosure (canonical : Canonical) (report : ClosureReport) (module : Name) :
    Except Refusal (List Name) :=
  match walk report module with
  | .done seen => canonical.sorted id seen
  | .missing _ => throw .dependencyIdentityMismatch
  | .outOfFuel => throw .exhausted

/-- The module is reached from another through imports. -/
def ClosureReport.Reaches (report : ClosureReport) : Name → Name → Prop :=
  Worklist.Reaches report.next

/-- The name of every module of the report is its own. -/
def ClosureReport.Named (report : ClosureReport) : Prop := (report.modules.map (·.name)).Nodup

variable {report : ClosureReport} {module name : Name} {names : List Name} {row : ModuleRow}

theorem name_of_row (h : report.row name = some row) : row.name = name := by
  have := List.find?_some h
  exact of_decide_eq_true this

theorem row_eq_some (hnamed : report.Named) :
    report.row name = some row ↔ row ∈ report.modules ∧ row.name = name := by
  constructor
  · intro h
    exact ⟨List.mem_of_find?_eq_some h, name_of_row h⟩
  · rintro ⟨hmem, hname⟩
    cases h : report.row name with
    | none => exact absurd (decide_eq_true hname) (List.find?_eq_none.mp h row hmem)
    | some row' =>
      exact congrArg some (List.inj_on_of_nodup_map hnamed (List.mem_of_find?_eq_some h) hmem
        ((name_of_row h).trans hname.symm))

/-- The loop ends: it has seen exactly what is reached, all of it in the report, or it has met a
module that is reached and is not. -/
theorem walk_spec (hnamed : report.Named) (module : Name) :
    (∃ found, walk report module = .done found ∧ found.Nodup ∧
      (∀ name, name ∈ found ↔ report.Reaches module name) ∧
      ∀ name, report.Reaches module name → (report.row name).isSome) ∨
    ∃ name, walk report module = .missing name ∧ report.Reaches module name ∧
      report.row name = none := by
  have hrows (name : Name) (h : (report.next name).isSome) :
      name ∈ report.modules.map (·.name) := by
    rw [ClosureReport.next, Option.isSome_map] at h
    obtain ⟨row, hrow⟩ := Option.isSome_iff_exists.mp h
    exact List.mem_map.mpr ⟨row, List.mem_of_find?_eq_some hrow, name_of_row hrow⟩
  have hspec := Worklist.search_start hnamed hrows module
  simp only [ClosureReport.next, Option.isSome_map, Option.map_eq_none_iff] at hspec
  exact hspec

/-- The closure is what is reached, each module once. -/
theorem mem_closure (hnamed : report.Named)
    (h : computeModuleClosure canonical report module = .ok names) :
    names.Nodup ∧ (∀ name, name ∈ names ↔ report.Reaches module name) ∧
      ∀ name, report.Reaches module name → (report.row name).isSome := by
  unfold computeModuleClosure at h
  rcases walk_spec hnamed module with ⟨found, hwalk, hnodup, hfound, hloaded⟩ | ⟨a, hwalk, -⟩
  · rw [hwalk] at h
    have hperm := sorted_perm h
    exact ⟨hperm.nodup_iff.mpr hnodup, fun name ↦ hperm.mem_iff.trans (hfound name), hloaded⟩
  · rw [hwalk] at h
    cases h

/-- It is refused where a module that is reached is not in the report, or has a name that has no
encoding. -/
theorem closure_refused (hnamed : report.Named) :
    (∃ refusal, computeModuleClosure canonical report module = .error refusal) ↔
      ∃ name, report.Reaches module name ∧
        (report.row name = none ∨ canonical.bytes (nameJson name) = none) := by
  unfold computeModuleClosure
  rcases walk_spec hnamed module with ⟨found, hwalk, -, hfound, hloaded⟩ | ⟨a, hwalk, ha, hnone⟩
  · rw [hwalk]
    dsimp only
    rw [Canonical.sorted]
    constructor
    · rintro ⟨refusal, h⟩
      have hnone := (need_eq_error.mp h).1
      unfold sortedBy at hnone
      split at hnone
      · cases hnone
      · next hall =>
        obtain ⟨name, hall⟩ := not_forall.mp hall
        obtain ⟨hname, hkey⟩ := Classical.not_imp.mp hall
        refine ⟨name, (hfound name).mp hname, .inr ?_⟩
        simpa [Canonical.nameKey] using hkey
    · rintro ⟨name, hreaches, hnone | hnone⟩
      · have := hloaded name hreaches
        rw [hnone] at this
        cases this
      · refine ⟨.unicodeEncodeError, need_eq_error.mpr ⟨?_, rfl⟩⟩
        rw [sortedBy, if_neg]
        intro hall
        have := hall name ((hfound name).mpr hreaches)
        simp [Canonical.nameKey, hnone] at this
  · rw [hwalk]
    exact iff_of_true ⟨_, rfl⟩ ⟨a, ha, .inl hnone⟩

end Conjectures.Versions
