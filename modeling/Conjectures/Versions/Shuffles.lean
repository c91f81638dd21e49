import Conjectures.Versions.Order

/-!
# Shuffled reports

A report whose module and constant rows come in another order, and in which imports and external
modules are repeated or come in another order, is read as a report of the same rows.

Two values are related key by key: rows of the tables in another order, imports and external modules
in another order and more than once, and everything else equal.
-/

namespace Conjectures.Versions

open Lib Lib.Json

/-! ## Shuffled values -/

/-- Both are objects, of members that are related. -/
def Objects (R : List (Text × Json) → List (Text × Json) → Prop) (v v' : Json) : Prop :=
  ∃ ms ms', v = .object ms ∧ v' = .object ms' ∧ R ms ms'

/-- At this key both have arrays, of items that are related. -/
def Arrays (R : List Json → List Json → Prop) (key : Text) (ms ms' : List (Text × Json)) : Prop :=
  ∃ vs vs', ms.lookup key = some (.array vs) ∧ ms'.lookup key = some (.array vs') ∧ R vs vs'

/-- The same items, in any order, once or more often. -/
def SameItems (vs vs' : List Json) : Prop := ∀ v, v ∈ vs ↔ v ∈ vs'

/-- The same but for these keys. -/
def AgreeOff (keys : List Text) (ms ms' : List (Text × Json)) : Prop :=
  ∀ key, key ∉ keys → ms.lookup key = ms'.lookup key

structure ShuffledModule (ms ms' : List (Text × Json)) : Prop where
  others : AgreeOff [text "imports"] ms ms'
  imports : Arrays SameItems (text "imports") ms ms'

structure ShuffledTarget (ms ms' : List (Text × Json)) : Prop where
  others : AgreeOff [text "local_constants", text "external_modules"] ms ms'
  constants : Arrays List.Perm (text "local_constants") ms ms'
  external : Arrays SameItems (text "external_modules") ms ms'

/-- The rows of the module table are shuffled, and come in another order. -/
def ShuffledModules (vs vs' : List Json) : Prop :=
  ∃ rows, List.Forall₂ (Objects ShuffledModule) vs rows ∧ rows.Perm vs'

structure ShuffledReport (ms ms' : List (Text × Json)) : Prop where
  others : AgreeOff [text "modules", text "targets"] ms ms'
  modules : Arrays ShuffledModules (text "modules") ms ms'
  targets : Arrays (List.Forall₂ (Objects ShuffledTarget)) (text "targets") ms ms'

/-! ## Keys -/

variable {ms ms' : List (Text × Json)} {key : Text} {keys : List Text}

theorem mem_keys_iff : key ∈ ms.map Prod.fst ↔ (ms.lookup key).isSome := by
  rw [List.lookup_isSome_iff, List.mem_map]
  simp only [beq_iff_eq]
  exact ⟨fun ⟨p, hp, h⟩ ↦ ⟨p, hp, h.symm⟩, fun ⟨p, hp, h⟩ ↦ ⟨p, hp, h.symm⟩⟩

theorem Arrays.mem_keys {R : List Json → List Json → Prop} (h : Arrays R key ms ms') :
    key ∈ ms.map Prod.fst ∧ key ∈ ms'.map Prod.fst := by
  obtain ⟨vs, vs', hvs, hvs', -⟩ := h
  rw [mem_keys_iff, mem_keys_iff, hvs, hvs']
  exact ⟨rfl, rfl⟩

/-- The keys are the same where those that may differ are in both. -/
theorem AgreeOff.sameKeys (h : AgreeOff keys ms ms')
    (hkeys : ∀ key ∈ keys, key ∈ ms.map Prod.fst ∧ key ∈ ms'.map Prod.fst) (key : Text) :
    key ∈ ms.map Prod.fst ↔ key ∈ ms'.map Prod.fst := by
  by_cases hkey : key ∈ keys
  · exact iff_of_true (hkeys key hkey).1 (hkeys key hkey).2
  · rw [mem_keys_iff, mem_keys_iff, h key hkey]

theorem hasKeys_of_same (h : ∀ key, key ∈ ms.map Prod.fst ↔ key ∈ ms'.map Prod.fst)
    (hkeys : HasKeys ms keys) : HasKeys ms' keys :=
  ⟨fun key hkey ↦ (h key).mp (hkeys.1 key hkey), fun key hkey ↦ hkeys.2 key ((h key).mpr hkey)⟩

theorem hasTargetKeys_of_same (h : ∀ key, key ∈ ms.map Prod.fst ↔ key ∈ ms'.map Prod.fst)
    (hkeys : HasTargetKeys ms) : HasTargetKeys ms' := by
  have hfilter (ms : List (Text × Json)) (key : Text) :
      key ∈ (ms.filter fun member ↦ member.1 ≠ text "statement_canonical").map Prod.fst ↔
        key ≠ text "statement_canonical" ∧ key ∈ ms.map Prod.fst := by
    simp only [List.mem_map, List.mem_filter, decide_eq_true_eq]
    constructor
    · rintro ⟨member, ⟨hmem, hne⟩, rfl⟩
      exact ⟨hne, member, hmem, rfl⟩
    · rintro ⟨hne, member, hmem, rfl⟩
      exact ⟨member, ⟨hmem, hne⟩, rfl⟩
  refine hasKeys_of_same (fun key ↦ ?_) hkeys
  rw [hfilter, hfilter, h]

/-! ## What is read of them -/

variable {canonical : Canonical} {vs vs' : List Json}

theorem ReadsModule.shuffle {row : ModuleRow} (h : ReadsModule ms row)
    (hshuffled : ShuffledModule ms ms') : ∃ row', ReadsModule ms' row' ∧ SameRow row row' := by
  have hothers (key : Text) (hkey : key ≠ text "imports") : ms'.lookup key = ms.lookup key :=
    (hshuffled.others key (by simpa using hkey)).symm
  have hkeys := hshuffled.others.sameKeys fun key hkey ↦ by
    rw [List.mem_singleton.mp hkey]
    exact hshuffled.imports.mem_keys
  obtain ⟨vs, vs', hvs, hvs', hsame⟩ := hshuffled.imports
  obtain ⟨us, hus, hread⟩ := h.imports
  rw [hvs, Option.some.injEq, Json.array.injEq] at hus
  subst hus
  obtain ⟨imports, hread', himports⟩ := mapM_same hread hsame
  refine ⟨⟨row.toLoadedModule, imports⟩, ⟨hasKeys_of_same hkeys h.keys, ?_, ?_, ?_, ?_⟩, rfl,
    himports⟩
  · rw [hothers _ (by decide)]
    exact h.name
  · rw [hothers _ (by decide)]
    exact h.isLocal
  · rw [hothers _ (by decide)]
    exact h.olean
  · exact ⟨vs', hvs', hread'⟩

/-- The rows of the module table are the same. -/
theorem modules_shuffle {rows : List ModuleRow}
    (h : List.Forall₂ (fun v row ↦ ∃ ms, v = .object ms ∧ ReadsModule ms row) vs rows)
    (hshuffled : ShuffledModules vs vs') :
    ∃ mid rows', List.Forall₂ SameRow rows mid ∧ mid.Perm rows' ∧
      List.Forall₂ (fun v row ↦ ∃ ms, v = .object ms ∧ ReadsModule ms row) vs' rows' := by
  obtain ⟨us, hus, hperm⟩ := hshuffled
  have hmid : ∃ mid, List.Forall₂ SameRow rows mid ∧
      List.Forall₂ (fun v row ↦ ∃ ms, v = .object ms ∧ ReadsModule ms row) us mid := by
    clear hperm
    induction hus generalizing rows with
    | nil =>
      cases h
      exact ⟨[], .nil, .nil⟩
    | cons hv _ ih =>
      cases h with
      | cons hrow hrows =>
        obtain ⟨mid, hsame, hreads⟩ := ih hrows
        obtain ⟨ms, ms', rfl, rfl, hshuffled⟩ := hv
        obtain ⟨_, heq, hrow⟩ := hrow
        obtain rfl := Json.object.inj heq
        obtain ⟨row', hrow', hsamerow⟩ := hrow.shuffle hshuffled
        exact ⟨row' :: mid, .cons hsamerow hsame, .cons ⟨ms', rfl, hrow'⟩ hreads⟩
  obtain ⟨mid, hsame, hreads⟩ := hmid
  obtain ⟨rows', hreads', hperm'⟩ := List.perm_comp_forall₂ hperm.symm hreads
  exact ⟨mid, rows', hsame, hperm'.symm, hreads'⟩

/-- A target is read alike. -/
theorem ReadsTarget.shuffle {target : TargetClosure} (h : ReadsTarget canonical ms target)
    (hshuffled : ShuffledTarget ms ms') : ReadsTarget canonical ms' target := by
  have hothers (key : Text)
      (hkey : key ∉ [text "local_constants", text "external_modules"]) :
      ms'.lookup key = ms.lookup key := (hshuffled.others key hkey).symm
  have hkeys := hshuffled.others.sameKeys fun key hkey ↦ by
    rcases List.mem_pair.mp hkey with rfl | rfl
    · exact hshuffled.constants.mem_keys
    · exact hshuffled.external.mem_keys
  refine ⟨hasTargetKeys_of_same hkeys h.keys, ?_, ?_, ?_, ?_, ?_⟩
  · rw [hothers _ (by decide)]
    exact h.theoremName
  · rw [hothers _ (by decide)]
    exact h.module
  · obtain ⟨vs, vs', hvs, hvs', hperm⟩ := hshuffled.constants
    obtain ⟨us, rows, hus, hrows, hnodup, hsorted⟩ := h.constants
    rw [hvs, Option.some.injEq, Json.array.injEq] at hus
    subst hus
    obtain ⟨rows', hrows', hperm'⟩ := List.perm_comp_forall₂ hperm.symm hrows
    have hnodup' := (hperm'.map (·.name)).nodup_iff.mpr hnodup
    exact ⟨vs', rows', hvs', hrows', hnodup', (sorted_eq_of_perm hperm' hnodup').trans hsorted⟩
  · obtain ⟨vs, vs', hvs, hvs', hsame⟩ := hshuffled.external
    obtain ⟨us, names, hus, hnames, hsorted⟩ := h.external
    rw [hvs, Option.some.injEq, Json.array.injEq] at hus
    subst hus
    obtain ⟨names', hnames', hsame'⟩ := mapM_same hnames hsame
    have hperm : names'.dedup.Perm names.dedup :=
      (List.perm_ext_iff_of_nodup (List.nodup_dedup _) (List.nodup_dedup _)).mpr fun name ↦ by
        rw [List.mem_dedup, List.mem_dedup, hsame']
    refine ⟨vs', names', hvs', hnames', ?_⟩
    rw [sorted_eq_of_perm hperm (by rw [List.map_id]; exact List.nodup_dedup _)]
    exact hsorted
  · rw [fieldOrNull, hothers _ (by decide)]
    exact h.statement

theorem targets_shuffle {targets : List TargetClosure}
    (h : List.Forall₂ (fun v target ↦ ∃ ms, v = .object ms ∧ ReadsTarget canonical ms target) vs
      targets) (hshuffled : List.Forall₂ (Objects ShuffledTarget) vs vs') :
    List.Forall₂ (fun v target ↦ ∃ ms, v = .object ms ∧ ReadsTarget canonical ms target) vs'
      targets := by
  induction hshuffled generalizing targets with
  | nil =>
    cases h
    exact .nil
  | cons hv _ ih =>
    cases h with
    | cons htarget htargets =>
      obtain ⟨ms, ms', rfl, rfl, hshuffled⟩ := hv
      obtain ⟨_, heq, htarget⟩ := htarget
      obtain rfl := Json.object.inj heq
      exact .cons ⟨ms', rfl, htarget.shuffle hshuffled⟩ (ih htargets)

/-- Tables of the same rows, in any order. -/
theorem sameRows_of_perm {report report' : ClosureReport} {mid : List ModuleRow}
    (hnamed : report.Named) (hnamed' : report'.Named)
    (hsame : List.Forall₂ SameRow report.modules mid) (hperm : mid.Perm report'.modules) :
    SameRows report report' := by
  intro name
  cases hrow : report.row name with
  | some row =>
    obtain ⟨hmem, hname⟩ := (row_eq_some hnamed).mp hrow
    obtain ⟨i, hi, rfl⟩ := List.getElem_of_mem hmem
    have hi' : i < mid.length := hsame.length_eq ▸ hi
    have hsamerow := hsame.get hi hi'
    have hmem' : mid[i] ∈ report'.modules := hperm.mem_iff.mp (List.getElem_mem hi')
    have hname' : mid[i].name = name := by
      rw [← hname]
      exact (congrArg LoadedModule.name hsamerow.loaded).symm
    rw [(row_eq_some hnamed').mpr ⟨hmem', hname'⟩]
    exact .some hsamerow
  | none =>
    cases hrow' : report'.row name with
    | none => exact .none
    | some row' =>
      obtain ⟨hmem', hname'⟩ := (row_eq_some hnamed').mp hrow'
      obtain ⟨i, hi', rfl⟩ := List.getElem_of_mem (hperm.mem_iff.mpr hmem')
      have hi : i < report.modules.length := hsame.length_eq ▸ hi'
      have hsamerow := hsame.get hi hi'
      have hname : report.modules[i].name = name := by
        rw [← hname']
        exact congrArg LoadedModule.name hsamerow.loaded
      rw [(row_eq_some hnamed).mpr ⟨List.getElem_mem hi, hname⟩] at hrow
      cases hrow

variable {expectedRoots : List Text} {expectedLeanCommit : Text}
  {expectedTargets : List (Text × Text)} {report : ClosureReport}

/-- A shuffled report is read, with the same targets and the same rows. -/
theorem ReadsReport.shuffle
    (h : ReadsReport canonical expectedRoots expectedLeanCommit expectedTargets ms report)
    (hshuffled : ShuffledReport ms ms') (sha256 : Text) :
    ∃ report' : ClosureReport, report'.sha256 = sha256 ∧
      ReadsReport canonical expectedRoots expectedLeanCommit expectedTargets ms' report' ∧
      report'.targets = report.targets ∧ SameRows report report' := by
  have hothers (key : Text) (hkey : key ∉ [text "modules", text "targets"]) :
      ms'.lookup key = ms.lookup key := (hshuffled.others key hkey).symm
  have hkeys := hshuffled.others.sameKeys fun key hkey ↦ by
    rcases List.mem_pair.mp hkey with rfl | rfl
    · exact hshuffled.modules.mem_keys
    · exact hshuffled.targets.mem_keys
  obtain ⟨vs, vs', hvs, hvs', hmodules⟩ := hshuffled.modules
  obtain ⟨us, hus, hrows, hnodup⟩ := h.modules
  rw [hvs, Option.some.injEq, Json.array.injEq] at hus
  subst hus
  obtain ⟨mid, rows', hsame, hperm, hreads⟩ := modules_shuffle hrows hmodules
  have hnames : report.modules.map (·.name) = mid.map (·.name) := by
    refine List.ext_getElem (by simp [hsame.length_eq]) fun i hi hi' ↦ ?_
    rw [List.getElem_map, List.getElem_map]
    exact congrArg LoadedModule.name (hsame.get (by simpa using hi) (by simpa using hi')).loaded
  have hnodup' : (rows'.map (·.name)).Nodup := by
    rw [← (hperm.map (·.name)).nodup_iff, ← hnames]
    exact hnodup
  let report' : ClosureReport := { report with modules := rows', sha256 }
  have hnamed' : report'.Named := hnodup'
  have hsamerows : SameRows report report' := sameRows_of_perm hnodup hnamed' hsame hperm
  refine ⟨report', rfl, ⟨hasKeys_of_same hkeys h.keys, ?_, ?_, ?_, ⟨vs', hvs', hreads, hnodup'⟩, ?_,
    h.requested, h.commit, h.localRoots⟩, rfl, hsamerows⟩
  · rw [hothers _ (by decide)]
    exact h.schemaVersion
  · rw [hothers _ (by decide)]
    exact h.leanGithash
  · rw [hothers _ (by decide)]
    exact h.roots
  · obtain ⟨ts, ts', hts, hts', hshuffled⟩ := hshuffled.targets
    obtain ⟨us, hus, htargets⟩ := h.targets
    rw [hts, Option.some.injEq, Json.array.injEq] at hus
    subst hus
    exact ⟨ts', hts', targets_shuffle htargets hshuffled⟩

end Conjectures.Versions
