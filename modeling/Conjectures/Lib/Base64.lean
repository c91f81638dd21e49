import Mathlib.Data.List.Basic
import Mathlib.Tactic.IntervalCases

/-!
# Base64 in URLs

The alphabet that needs no escaping in a URL, written without padding. The lenient reader passes
over characters of no alphabet, the strict one refuses them; both take those of the other alphabet
too.
-/

namespace Conjectures.Lib.Base64

def alphabet : List Char :=
  "ABCDEFGHIJKLMNOPQRSTUVWXYZabcdefghijklmnopqrstuvwxyz0123456789-_".toList

/-- The character of six bits. -/
def digit (n : ℕ) : Char := alphabet.getD n 'A'

/-- `urlsafe_b64encode`, without the padding. -/
def encode : List UInt8 → List Char
  | [] => []
  | [a] => [digit (a.toNat / 4), digit (a.toNat % 4 * 16)]
  | [a, b] =>
    [digit (a.toNat / 4), digit (a.toNat % 4 * 16 + b.toNat / 16), digit (b.toNat % 16 * 4)]
  | a :: b :: c :: rest =>
    digit (a.toNat / 4) :: digit (a.toNat % 4 * 16 + b.toNat / 16) ::
      digit (b.toNat % 16 * 4 + c.toNat / 64) :: digit (c.toNat % 64) :: encode rest

/-- What a character is worth, of either alphabet. -/
def sextet (c : Char) : Option ℕ :=
  if c.isUpper then some (c.toNat - 65)
  else if c.isLower then some (c.toNat - 71)
  else if c.isDigit then some (c.toNat + 4)
  else if c = '-' ∨ c = '+' then some 62
  else if c = '_' ∨ c = '/' then some 63
  else none

/-- The scan of `a2b_base64`: at a place of a group of four, with the bits left over from the
character before and the padding met in the group. -/
def scan : ℕ → ℕ → ℕ → List Char → Option (List UInt8)
  | place, _, _, [] => if place = 0 then some [] else none
  | place, left, pads, c :: text =>
    if c = '=' then
      if 2 ≤ place ∧ 4 ≤ place + (pads + 1) then some []
      else scan place left (if 2 ≤ place then pads + 1 else pads) text
    else
      match sextet c with
      | none => scan place left pads text
      | some d =>
        match place with
        | 0 => scan 1 d 0 text
        | 1 => (scan 2 (d % 16) 0 text).map (UInt8.ofNat (left * 4 + d / 16) :: ·)
        | 2 => (scan 3 (d % 4) 0 text).map (UInt8.ofNat (left * 16 + d / 4) :: ·)
        | _ => (scan 0 0 0 text).map (UInt8.ofNat (left * 64 + d) :: ·)

/-- `urlsafe_b64decode`, of a text without its padding. -/
def decode (text : List Char) : Option (List UInt8) :=
  if text.all fun c ↦ c.toNat < 128 then
    scan 0 0 0 (text ++ List.replicate ((4 - text.length % 4) % 4) '=')
  else none

/-- The scan in strict mode: no other characters, no more padding than a group needs, and nothing
behind it. -/
def strictScan : ℕ → ℕ → ℕ → Bool → List Char → Option (List UInt8)
  | place, _, _, _, [] => if place = 0 then some [] else none
  | place, left, pads, padding, c :: text =>
    if c = '=' then
      if place = 0 then none
      else if 2 ≤ place ∧ 4 ≤ place + (pads + 1) then if text = [] then some [] else none
      else strictScan place left (if 2 ≤ place then pads + 1 else pads) true text
    else
      match sextet c with
      | none => none
      | some d =>
        if padding then none
        else match place with
        | 0 => strictScan 1 d 0 false text
        | 1 => (strictScan 2 (d % 16) 0 false text).map (UInt8.ofNat (left * 4 + d / 16) :: ·)
        | 2 => (strictScan 3 (d % 4) 0 false text).map (UInt8.ofNat (left * 16 + d / 4) :: ·)
        | _ => (strictScan 0 0 0 false text).map (UInt8.ofNat (left * 64 + d) :: ·)

/-- `b64decode(…, altchars=b"-_", validate=True)`, of a text without its padding. -/
def strictDecode (text : List Char) : Option (List UInt8) :=
  if text.all fun c ↦ c.toNat < 128 then
    strictScan 0 0 0 false (text ++ List.replicate ((4 - text.length % 4) % 4) '=')
  else none

/-! ## The alphabet -/

theorem digit_spec : ∀ n < 64, sextet (digit n) = some n ∧ digit n ≠ '=' ∧ digit n ≠ '.' ∧
    (digit n).toNat < 128 := by
  decide +kernel

section Scan

variable {n left pads : ℕ} (hn : n < 64) (text : List Char)
include hn

theorem scan_first : scan 0 left pads (digit n :: text) = scan 1 n 0 text := by
  obtain ⟨hsextet, hpad, -, -⟩ := digit_spec n hn
  rw [scan, if_neg hpad, hsextet]
  rfl

theorem scan_second : scan 1 left pads (digit n :: text) =
    (scan 2 (n % 16) 0 text).map (UInt8.ofNat (left * 4 + n / 16) :: ·) := by
  obtain ⟨hsextet, hpad, -, -⟩ := digit_spec n hn
  rw [scan, if_neg hpad, hsextet]
  rfl

theorem scan_third : scan 2 left pads (digit n :: text) =
    (scan 3 (n % 4) 0 text).map (UInt8.ofNat (left * 16 + n / 4) :: ·) := by
  obtain ⟨hsextet, hpad, -, -⟩ := digit_spec n hn
  rw [scan, if_neg hpad, hsextet]
  rfl

theorem scan_fourth : scan 3 left pads (digit n :: text) =
    (scan 0 0 0 text).map (UInt8.ofNat (left * 64 + n) :: ·) := by
  obtain ⟨hsextet, hpad, -, -⟩ := digit_spec n hn
  rw [scan, if_neg hpad, hsextet]
  rfl

end Scan

theorem mem_encode {raw : List UInt8} {c : Char} (h : c ∈ encode raw) : ∃ n < 64, c = digit n := by
  induction raw using encode.induct with
  | case1 => cases h
  | case2 a =>
    have ha := a.toNat_lt
    simp only [encode, List.mem_cons, List.not_mem_nil, or_false] at h
    rcases h with rfl | rfl
    · exact ⟨_, by omega, rfl⟩
    · exact ⟨_, by omega, rfl⟩
  | case3 a b =>
    have ha := a.toNat_lt
    have hb := b.toNat_lt
    simp only [encode, List.mem_cons, List.not_mem_nil, or_false] at h
    rcases h with rfl | rfl | rfl
    · exact ⟨_, by omega, rfl⟩
    · exact ⟨_, by omega, rfl⟩
    · exact ⟨_, by omega, rfl⟩
  | case4 a b c' rest ih =>
    have ha := a.toNat_lt
    have hb := b.toNat_lt
    have hc := c'.toNat_lt
    simp only [encode, List.mem_cons] at h
    rcases h with rfl | rfl | rfl | rfl | h
    · exact ⟨_, by omega, rfl⟩
    · exact ⟨_, by omega, rfl⟩
    · exact ⟨_, by omega, rfl⟩
    · exact ⟨_, by omega, rfl⟩
    · exact ih h

theorem length_encode (raw : List UInt8) : (encode raw).length = (4 * raw.length + 2) / 3 := by
  induction raw using encode.induct with
  | case1 => rfl
  | case2 a => simp [encode]
  | case3 a b => simp [encode]
  | case4 a b c rest ih =>
    simp only [encode, List.length_cons, ih]
    omega

/-! ## The round trip -/

theorem ofNat_eq {b : UInt8} {n : ℕ} (h : n = b.toNat) : UInt8.ofNat n = b := by
  rw [h, UInt8.ofNat_toNat]

/-- One group at a time, the last of them padded. -/
theorem scan_encode (raw : List UInt8) :
    scan 0 0 0 (encode raw ++ List.replicate ((4 - (encode raw).length % 4) % 4) '=') =
      some raw := by
  induction raw using encode.induct with
  | case1 => rfl
  | case2 a =>
    have ha := a.toNat_lt
    change scan 0 0 0 (digit _ :: digit _ :: ['=', '=']) = _
    rw [scan_first (by omega), scan_second (by omega), ofNat_eq (b := a) (by omega)]
    rfl
  | case3 a b =>
    have ha := a.toNat_lt
    have hb := b.toNat_lt
    change scan 0 0 0 (digit _ :: digit _ :: digit _ :: ['=']) = _
    rw [scan_first (by omega), scan_second (by omega), scan_third (by omega),
      ofNat_eq (b := a) (by omega), ofNat_eq (b := b) (by omega)]
    rfl
  | case4 a b c rest ih =>
    have ha := a.toNat_lt
    have hb := b.toNat_lt
    have hc := c.toNat_lt
    have hpad : (4 - (encode (a :: b :: c :: rest)).length % 4) % 4 =
        (4 - (encode rest).length % 4) % 4 := by
      simp only [encode, List.length_cons]
      omega
    rw [hpad, encode]
    simp only [List.cons_append]
    rw [scan_first (by omega), scan_second (by omega), scan_third (by omega),
      scan_fourth (by omega), ofNat_eq (b := a) (by omega), ofNat_eq (b := b) (by omega),
      ofNat_eq (b := c) (by omega), ih]
    rfl

theorem ascii_encode (raw : List UInt8) : (encode raw).all (fun c ↦ c.toNat < 128) = true := by
  refine List.all_eq_true.mpr fun c hc ↦ ?_
  obtain ⟨n, hn, rfl⟩ := mem_encode hc
  exact decide_eq_true (digit_spec n hn).2.2.2

theorem decode_encode (raw : List UInt8) : decode (encode raw) = some raw := by
  rw [decode, if_pos (ascii_encode raw), scan_encode]

/-- What is padded as it should be is scanned alike. -/
theorem strictScan_eq_scan {text : List Char} (h : ∀ c ∈ text, ∃ n < 64, c = digit n)
    {place left : ℕ} (hplace : place < 4) (hlength : (place + text.length) % 4 ≠ 1) :
    strictScan place left 0 false
        (text ++ List.replicate ((4 - (place + text.length) % 4) % 4) '=') =
      scan place left 0 (text ++ List.replicate ((4 - (place + text.length) % 4) % 4) '=') := by
  induction text generalizing place left with
  | nil => interval_cases place <;> rfl
  | cons c text ih =>
    obtain ⟨n, hn, rfl⟩ := h c List.mem_cons_self
    obtain ⟨hsextet, hpad, -, -⟩ := digit_spec n hn
    have hlength' (next : ℕ) (hnext : next % 4 = (place + 1) % 4) :
        (next + text.length) % 4 = (place + (digit n :: text).length) % 4 := by
      rw [List.length_cons]
      omega
    have hmore (next left : ℕ) (hlt : next < 4) (hnext : next % 4 = (place + 1) % 4) :=
      @ih (fun c hc ↦ h c (List.mem_cons_of_mem _ hc)) next left hlt
        (by rw [hlength' next hnext]; exact hlength)
    simp only [List.cons_append, strictScan, scan, hpad, hsextet, if_false, Bool.false_eq_true]
    interval_cases place
    · have hnext := hmore 1 n (by omega) rfl
      rwa [hlength' 1 rfl] at hnext
    · have hnext := hmore 2 (n % 16) (by omega) rfl
      rw [hlength' 2 rfl] at hnext
      exact congrArg (Option.map _) hnext
    · have hnext := hmore 3 (n % 4) (by omega) rfl
      rw [hlength' 3 rfl] at hnext
      exact congrArg (Option.map _) hnext
    · have hnext := hmore 0 0 (by omega) rfl
      rw [hlength' 0 rfl] at hnext
      exact congrArg (Option.map _) hnext

theorem strictDecode_encode (raw : List UInt8) : strictDecode (encode raw) = some raw := by
  have hlength : (0 + (encode raw).length) % 4 ≠ 1 := by
    rw [length_encode]
    omega
  have hscan := @strictScan_eq_scan (encode raw) (fun c hc ↦ mem_encode hc) 0 0 (by omega) hlength
  rw [Nat.zero_add] at hscan
  rw [strictDecode, if_pos (ascii_encode raw), hscan, scan_encode]

end Conjectures.Lib.Base64
