import Conjectures.Registry.Records
import Conjectures.TaskStore.Publishers

/-!
# Version-2 task ids

`is_v2_task_id` asks the same of a task id wherever it is asked: of the registry's texts, which are
lists of code points (`IsV2TaskId`), and of the names of the store's entries, which are strings
(`TaskStore.isV2TaskId`).  Both find a slug, a digest and a mode with hyphens between them, the one
from the last hyphen and the lengths, the other from the letters at the end.

What both come to is the pattern itself, an id put together from such parts (`isV2TaskId_iff`,
`taskStore_isV2TaskId_iff`); a mode has no hyphen and a digest has a fixed length, so that either
way of reading finds them again.
-/

namespace Conjectures.Registry

open Lib Lib.Json
open Conjectures.Bundle (isLower isDigit)
open Allowlist (hyphen isHex)

/-- The parts of a version-2 task id. -/
structure V2Parts (slug digest mode : Text) : Prop where
  slug : slug ≠ [] ∧ slug.length ≤ 80 ∧
    ∀ c ∈ slug, isLower c = true ∨ isDigit c = true ∨ c = hyphen
  digest : digest.length = 24 ∧ ∀ c ∈ digest, isHex c = true
  mode : mode ≠ [] ∧ ∀ c ∈ mode, isLower c = true

/-- `fc-v2-`, and the parts with hyphens between them. -/
def joinV2 (slug digest mode : Text) : Text :=
  text "fc-v2-" ++ (slug ++ hyphen :: (digest ++ hyphen :: mode))

theorem modeOf_append {front mode : Text} (h : ∀ c ∈ mode, isLower c = true) :
    modeOf (front ++ hyphen :: mode) = mode := by
  have hmode : ∀ c ∈ mode.reverse, decide (c ≠ hyphen) = true := by
    intro c hc
    have := h c (List.mem_reverse.mp hc)
    refine decide_eq_true fun heq ↦ ?_
    rw [heq] at this
    cases this
  rw [modeOf, List.reverse_append, List.reverse_cons, List.append_assoc,
    List.takeWhile_append_of_pos hmode, List.singleton_append, List.takeWhile_cons_of_neg (by simp),
    List.append_nil, List.reverse_reverse]

/-- The registry's ids are those of the pattern. -/
theorem isV2TaskId_iff {taskId : Text} : IsV2TaskId taskId ↔
    ∃ slug digest mode, V2Parts slug digest mode ∧ taskId = joinV2 slug digest mode := by
  constructor
  · rintro ⟨heq, hslug, hlength, hchars, hdigest, hhex, hmode, hlower⟩
    exact ⟨_, _, _, ⟨⟨hslug, hlength, hchars⟩, ⟨hdigest, hhex⟩, hmode, hlower⟩,
      heq.trans (by simp [joinV2])⟩
  · rintro ⟨slug, digest, mode, ⟨⟨hslug, hlength, hchars⟩, ⟨hdigest, hhex⟩, hmode, hlower⟩, rfl⟩
    have hjoin : joinV2 slug digest mode =
        (text "fc-v2-" ++ slug ++ hyphen :: digest) ++ hyphen :: mode := by
      simp [joinV2]
    have hmodeOf : modeOf (joinV2 slug digest mode) = mode := by
      rw [hjoin, modeOf_append hlower]
    have hfront : (joinV2 slug digest mode).take
        ((joinV2 slug digest mode).length - mode.length - 1) =
          text "fc-v2-" ++ slug ++ hyphen :: digest := by
      rw [hjoin, List.take_left']
      simp
      omega
    have hlast : (text "fc-v2-" ++ slug ++ hyphen :: digest).drop
        ((text "fc-v2-" ++ slug ++ hyphen :: digest).length - 24) = digest := by
      rw [List.append_cons, List.drop_left']
      simp [hdigest]
      omega
    have hfirst : ((text "fc-v2-" ++ slug ++ hyphen :: digest).take
        ((text "fc-v2-" ++ slug ++ hyphen :: digest).length - 25)).drop 6 = slug := by
      have hsix : (text "fc-v2-").length = 6 := rfl
      rw [List.take_left' (by simp [hdigest]; omega), List.drop_left' hsix]
    unfold IsV2TaskId
    dsimp only
    rw [hmodeOf, hfront, hlast, hfirst]
    exact ⟨by simp [hjoin], hslug, hlength, hchars, hdigest, hhex, hmode, hlower⟩

theorem isLower_toNat (c : Char) : isLower c.toNat = ('a' ≤ c && c ≤ 'z') := by
  simp [isLower, Char.le_def, UInt32.le_iff_toNat_le]

theorem isDigit_toNat (c : Char) : isDigit c.toNat = ('0' ≤ c && c ≤ '9') := by
  simp [isDigit, Char.le_def, UInt32.le_iff_toNat_le]

/-- So are those of the store, character by character. -/
theorem taskStore_isV2TaskId_iff {taskId : TaskStore.TaskId} :
    TaskStore.isV2TaskId taskId = true ↔ ∃ slug digest mode : List Char,
      V2Parts (slug.map Char.toNat) (digest.map Char.toNat) (mode.map Char.toNat) ∧
        taskId.toList = "fc-v2-".toList ++ (slug ++ '-' :: (digest ++ '-' :: mode)) := by
  have hhex (c : Char) : isHex c.toNat = (isDigit c.toNat || ('a' ≤ c && c ≤ 'f')) := by
    simp [isHex, Char.le_def, UInt32.le_iff_toNat_le]
  have hhyphen (c : Char) : c.toNat = hyphen ↔ c = '-' :=
    ⟨fun h ↦ Char.toNat_inj.mp h, fun h ↦ h ▸ rfl⟩
  simp only [TaskStore.isV2TaskId, ← isLower_toNat, ← isDigit_toNat, ← hhex]
  constructor
  · intro h
    obtain ⟨mode, hmode⟩ : ∃ mode, taskId.toList.reverse.takeWhile (isLower ·.toNat) = mode :=
      ⟨_, rfl⟩
    have hsplit := @List.takeWhile_append_dropWhile _ (fun c : Char ↦ isLower c.toNat)
      taskId.toList.reverse
    have hlower : mode.all (isLower ·.toNat) = true := hmode ▸ List.all_takeWhile
    rw [hmode] at h hsplit
    split at h
    · next cs hcs =>
      split at h
      · next cs' hcs' =>
        simp only [Bool.and_eq_true, decide_eq_true_eq, ne_eq] at h
        obtain ⟨⟨⟨⟨⟨hne, hdigest⟩, hsix⟩, hone⟩, hlength⟩, hslug⟩ := h
        have htaken : (cs.take 24).length = 24 := by
          have := congrArg List.length hcs'
          simp only [List.length_drop, List.length_cons] at this
          simp only [List.length_take]
          omega
        have hrest : cs.reverse = cs'.reverse ++ '-' :: (cs.take 24).reverse := by
          conv_lhs => rw [← List.take_append_drop 24 cs, hcs']
          simp
        refine ⟨cs'.reverse.drop 6, (cs.take 24).reverse, mode.reverse,
          ⟨⟨?_, by simpa using hlength, ?_⟩, ⟨by simpa using htaken, ?_⟩, by simpa using hne, ?_⟩,
          ?_⟩
        · rw [Ne, List.map_eq_nil_iff]
          exact List.ne_nil_of_length_pos hone
        · rw [List.forall_mem_map]
          simpa [hhyphen, or_assoc] using hslug
        · rw [List.forall_mem_map]
          simpa using hdigest
        · rw [List.forall_mem_map]
          simpa using hlower
        · calc taskId.toList = (mode ++ '-' :: cs).reverse := by
                rw [← hcs, hsplit, List.reverse_reverse]
            _ = cs.reverse ++ '-' :: mode.reverse := by simp
            _ = _ := by
                rw [hrest, ← List.take_append_drop 6 cs'.reverse, hsix]
                simp
      · cases h
    · cases h
  · rintro ⟨slug, digest, mode, ⟨⟨hslug, hlength, hchars⟩, ⟨hdigest, hdigits⟩, hmode, hlower⟩, heq⟩
    have hreverse : taskId.toList.reverse = mode.reverse ++
        '-' :: (digest.reverse ++ '-' :: (slug.reverse ++ "fc-v2-".toList.reverse)) := by
      rw [heq]
      simp
    have hlower' : ∀ c ∈ mode.reverse, isLower c.toNat = true := by simpa using hlower
    have hdigest' : digest.reverse.length = 24 := by simpa using hdigest
    have hsix : "fc-v2-".toList.length = 6 := rfl
    rw [hreverse, List.takeWhile_append_of_pos hlower', List.dropWhile_append_of_pos hlower',
      List.takeWhile_cons_of_neg (by decide), List.dropWhile_cons_of_neg (by decide)]
    simp only [List.drop_left' hdigest', List.take_left' hdigest', List.reverse_append,
      List.reverse_reverse]
    rw [List.take_left' hsix, List.drop_left' hsix]
    rw [List.forall_mem_map] at hchars hdigits
    simp only [ne_eq, List.map_eq_nil_iff, List.length_map, hhyphen] at hslug hlength hmode hchars
    have hone := List.length_pos_iff.mpr hslug
    simpa [hmode, hlength, or_assoc] using ⟨⟨hdigits, hone⟩, hchars⟩

/-- The store and the registry know the same ids. -/
theorem isV2TaskId_text (taskId : TaskStore.TaskId) :
    TaskStore.isV2TaskId taskId = true ↔ IsV2TaskId (text taskId) := by
  rw [taskStore_isV2TaskId_iff, isV2TaskId_iff]
  constructor
  · rintro ⟨slug, digest, mode, hparts, heq⟩
    refine ⟨_, _, _, hparts, ?_⟩
    rw [text, heq]
    simp [joinV2, text, hyphen]
  · rintro ⟨slug, digest, mode, hparts, heq⟩
    obtain ⟨_, _, hlist, hsix, h₁⟩ := List.map_eq_append_iff.mp heq
    obtain ⟨slug', _, rfl, rfl, h₂⟩ := List.map_eq_append_iff.mp h₁
    obtain ⟨c, _, rfl, hc, h₃⟩ := List.map_eq_cons_iff.mp h₂
    obtain ⟨digest', _, rfl, rfl, h₄⟩ := List.map_eq_append_iff.mp h₃
    obtain ⟨c', mode', rfl, hc', rfl⟩ := List.map_eq_cons_iff.mp h₄
    have htoNat : Function.Injective Char.toNat := fun a b ↦ Char.toNat_inj.mp
    obtain rfl : c = '-' := htoNat hc
    obtain rfl : c' = '-' := htoNat hc'
    exact ⟨slug', digest', mode', hparts,
      hlist.trans (congrArg (· ++ _) (List.map_injective_iff.mpr htoNat hsix))⟩

end Conjectures.Registry
