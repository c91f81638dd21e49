import Conjectures.Lib.JsonDepth
import Conjectures.Lib.Transaction

/-!
# How deep an uploaded JSON text is nested

`check_json_depth` of `submission_api/trajectory_schema.py` scans the bytes for brackets, before a
recursive parser may be given them.  It does not parse: that it knows what stands in a string is
a simulation of the byte by byte reader, as far as that comes without an error.
-/

namespace Conjectures.Trajectories

open Lib JsonReader

inductive DecodeError where
  /-- `ValueError("JSON nesting exceeds 24 levels")` -/
  | nesting
  /-- `UnicodeDecodeError`, of `raw.decode("utf-8")` -/
  | unicode
  /-- what `json.loads` raises, or a hook of it -/
  | json
  deriving DecidableEq

/-- The variables of the loop. -/
structure DepthScan where
  depth : ℤ
  quoted : Bool
  escaped : Bool
  deriving DecidableEq

/-- The body of the loop. -/
def DepthScan.step (s : DepthScan) (ch : UInt8) : Except DecodeError DepthScan :=
  if s.quoted then
    if s.escaped then .ok { s with escaped := false }
    else if ch = 92 then .ok { s with escaped := true }
    else if ch = 34 then .ok { s with quoted := false }
    else .ok s
  else if ch = 34 then .ok { s with quoted := true }
  else if ch = 91 ∨ ch = 123 then
    if s.depth + 1 > 24 then .error .nesting else .ok { s with depth := s.depth + 1 }
  else if ch = 93 ∨ ch = 125 then .ok { s with depth := s.depth - 1 }
  else .ok s

def checkJsonDepth (raw : Bytes) : Except DecodeError Unit := do
  let _ ← raw.foldlM DepthScan.step ⟨0, false, false⟩
  return ()

/-- `_decode` -/
def decode (raw : ByteArray) : Except DecodeError Json := do
  checkJsonDepth raw.data.toList
  let text ← need (Json.decode? raw) .unicode
  need (Json.loads? text) .json

/-! ## The scan follows the reader -/

/-- The scan where the reader stands. -/
def scanAt (r : Reader) : DepthScan where
  depth := r.opened.length
  quoted := match r.mode with
    | .string _ | .escape _ | .unicode _ _ => true
    | _ => false
  escaped := match r.mode with
    | .escape _ => true
    | _ => false

/-- The scan where so much is open, outside of strings. -/
def scanOutside (depth : ℕ) : DepthScan := ⟨depth, false, false⟩

/-- What the scan comes to, where a reader with so much open reads a byte outside of strings. -/
def Tracks (opened : List Bracket) (ch : UInt8) (r : Reader) : Prop :=
  (scanOutside opened.length).step ch =
    if r.opened.length ≤ 24 then .ok (scanAt r) else .error .nesting

variable {opened : List Bracket} {ch : UInt8} {r r' : Reader}

theorem step_outside {depth : ℕ} (h : ch ∉ [34, 91, 123, 93, 125]) :
    (scanOutside depth).step ch = .ok (scanOutside depth) := by
  simp only [List.mem_cons, List.not_mem_nil, or_false, not_or] at h
  simp [DepthScan.step, scanOutside, h]

theorem step_open {depth : ℕ} (hch : ch = 91 ∨ ch = 123) :
    (scanOutside depth).step ch =
      if depth + 1 ≤ 24 then .ok (scanOutside (depth + 1)) else .error .nesting := by
  have hquote : ch ≠ 34 := by rcases hch with rfl | rfl <;> decide
  by_cases hdeep : depth + 1 ≤ 24
  · have hdepth : ¬ ((depth : ℤ) + 1 > 24) := by omega
    simp [DepthScan.step, scanOutside, hquote, hch, hdeep, hdepth]
  · have hdepth : (depth : ℤ) + 1 > 24 := by omega
    simp [DepthScan.step, scanOutside, hquote, hch, hdeep, hdepth]

theorem step_close {depth : ℕ} (hch : ch = 93 ∨ ch = 125) :
    (scanOutside (depth + 1)).step ch = .ok (scanOutside depth) := by
  have hnot : ch ≠ 34 ∧ ¬ (ch = 91 ∨ ch = 123) := by rcases hch with rfl | rfl <;> decide
  simp [DepthScan.step, scanOutside, hnot, hch]

/-- Bytes that leave the scan as it is. -/
theorem foldlM_same {bs : Bytes} {s : DepthScan} (h : ∀ b ∈ bs, s.step b = .ok s) :
    bs.foldlM DepthScan.step s = .ok s := by
  induction bs with
  | nil => rfl
  | cons b bs ih =>
    rw [List.foldlM_cons, h b List.mem_cons_self]
    exact ih fun c hc ↦ h c (List.mem_cons_of_mem _ hc)

/-- A byte that is no bracket and no quotation mark. -/
theorem tracks_same (hopened : opened.length ≤ 24) (h : ch ∉ [34, 91, 123, 93, 125])
    (hr : r.opened = opened) (hscan : scanAt r = scanOutside r.opened.length) :
    Tracks opened ch r := by
  rw [Tracks, step_outside h, hr, if_pos hopened, hscan, hr]

theorem not_bracket_of_isSpace (h : isSpace ch = true) : ch ∉ [34, 91, 123, 93, 125] := by
  have hmem : ch ∈ [32, 9, 10, 13] := by simpa [isSpace] using h
  exact (by simp : ∀ c ∈ ([32, 9, 10, 13] : Bytes), c ∉ ([34, 91, 123, 93, 125] : Bytes)) ch hmem

theorem not_bracket_of_isDigit (h : isDigit ch = true) : ch ∉ [34, 91, 123, 93, 125] := by
  have hmem := Reader.not_mem_of_isDigit h
  simp only [List.mem_cons, List.not_mem_nil, or_false, not_or] at hmem ⊢
  tauto

theorem not_bracket_of_exponent (h : ch = 101 ∨ ch = 69) : ch ∉ [34, 91, 123, 93, 125] := by
  rcases h with rfl | rfl <;> decide

theorem tracks_digit (hopened : opened.length ≤ 24) (h : Reader.digit opened ch = some r) :
    Tracks opened ch r := by
  unfold Reader.digit at h
  split at h
  · rename_i hch
    cases h
    exact tracks_same hopened (by rw [hch]; decide) rfl rfl
  · split at h
    · rename_i hch
      cases h
      exact tracks_same hopened (not_bracket_of_isDigit hch) rfl rfl
    · cases h

/-- What opens is counted. -/
theorem tracks_open {b : Bracket} (hch : ch = 91 ∨ ch = 123) {mode : Mode}
    (hscan : scanAt ⟨b :: opened, mode⟩ = scanOutside (opened.length + 1)) :
    Tracks opened ch ⟨b :: opened, mode⟩ := by
  rw [Tracks, hscan]
  exact step_open hch

theorem tracks_quote {key : Bool} (hopened : opened.length ≤ 24) (hch : ch = 34) :
    Tracks opened ch ⟨opened, .string key⟩ := by
  rw [Tracks, hch]
  exact (if_pos hopened).symm

theorem tracks_first (hopened : opened.length ≤ 24) (h : Reader.first opened ch = some r) :
    Tracks opened ch r := by
  unfold Reader.first at h
  split_ifs at h with hquote hbracket hbrace hn ht hf hminus
  · cases h
    exact tracks_quote hopened hquote
  · cases h
    exact tracks_open (.inl hbracket) rfl
  · cases h
    exact tracks_open (.inr hbrace) rfl
  · cases h
    exact tracks_same hopened (by rw [hn]; decide) rfl rfl
  · cases h
    exact tracks_same hopened (by rw [ht]; decide) rfl rfl
  · cases h
    exact tracks_same hopened (by rw [hf]; decide) rfl rfl
  · cases h
    exact tracks_same hopened (by rw [hminus]; decide) rfl rfl
  · exact tracks_digit hopened h

/-- What closes is no longer counted. -/
theorem tracks_close {b : Bracket} {outer : List Bracket} (hopened : (b :: outer).length ≤ 24)
    (hch : ch = 93 ∨ ch = 125) : Tracks (b :: outer) ch ⟨outer, .after⟩ := by
  have hlength : outer.length ≤ 24 := (Nat.le_succ _).trans hopened
  rw [Tracks, if_pos hlength]
  exact step_close hch

theorem tracks_behind (hopened : opened.length ≤ 24) (h : Reader.behind opened ch = some r) :
    Tracks opened ch r := by
  unfold Reader.behind at h
  split at h
  · rename_i hspace
    cases h
    exact tracks_same hopened (not_bracket_of_isSpace hspace) rfl rfl
  · split at h
    · cases h
    · split_ifs at h with hcomma hclose
      · cases h
        exact tracks_same hopened (by rw [hcomma]; decide) rfl rfl
      · cases h
        exact tracks_close hopened (.inl hclose)
    · split_ifs at h with hcomma hclose
      · cases h
        exact tracks_same hopened (by rw [hcomma]; decide) rfl rfl
      · cases h
        exact tracks_close hopened (.inr hclose)

/-- Within a string the scan follows as well, and brackets are not counted. -/
theorem step_string {key : Bool} (h : Reader.step ⟨opened, .string key⟩ ch = some r) :
    r.opened = opened ∧ (scanAt ⟨opened, .string key⟩).step ch = .ok (scanAt r) := by
  by_cases hquote : ch = 34
  · subst hquote
    cases h
    cases key <;> exact ⟨rfl, rfl⟩
  by_cases hbackslash : ch = 92
  · subst hbackslash
    cases h
    exact ⟨rfl, rfl⟩
  · simp only [Reader.step, hquote, hbackslash, if_false] at h
    split_ifs at h
    cases h
    exact ⟨rfl, by simp [DepthScan.step, scanAt, hquote, hbackslash]⟩

theorem step_escape {key : Bool} (h : Reader.step ⟨opened, .escape key⟩ ch = some r) :
    r.opened = opened ∧ (scanAt ⟨opened, .escape key⟩).step ch = .ok (scanAt r) := by
  simp only [Reader.step] at h
  split_ifs at h <;> cases h <;> exact ⟨rfl, rfl⟩

theorem step_unicode {key : Bool} {n : ℕ}
    (h : Reader.step ⟨opened, .unicode key n⟩ ch = some r) :
    r.opened = opened ∧ (scanAt ⟨opened, .unicode key n⟩).step ch = .ok (scanAt r) := by
  simp only [Reader.step] at h
  split_ifs at h with hhex
  cases h
  have hnot : ch ≠ 92 ∧ ch ≠ 34 := by
    constructor <;> rintro rfl <;> cases hhex
  refine ⟨rfl, ?_⟩
  cases n <;> simp [DepthScan.step, scanAt, hnot]

theorem tracks_word {w : Word} {n : ℕ} (hopened : opened.length ≤ 24)
    (h : Reader.step ⟨opened, .word w n⟩ ch = some r) : Tracks opened ch r := by
  have hletters : ∀ c ∈ w.bytes, c ∉ ([34, 91, 123, 93, 125] : Bytes) := by
    cases w <;> simp [Word.bytes]
  simp only [Reader.step] at h
  split_ifs at h with hletter hlast <;> cases h <;>
    exact tracks_same hopened (hletters ch (List.mem_of_getElem? hletter)) rfl rfl

/-- A byte that the reader takes changes the scan as it changes the reader, until too much is
open. -/
theorem scan_step (hopened : r.opened.length ≤ 24) (h : r.step ch = some r') :
    (scanAt r).step ch = if r'.opened.length ≤ 24 then .ok (scanAt r') else .error .nesting := by
  obtain ⟨opened, mode⟩ := r
  cases mode with
  | string key =>
    obtain ⟨hr, hstep⟩ := step_string h
    rw [hstep, hr, if_pos hopened]
  | escape key =>
    obtain ⟨hr, hstep⟩ := step_escape h
    rw [hstep, hr, if_pos hopened]
  | unicode key n =>
    obtain ⟨hr, hstep⟩ := step_unicode h
    rw [hstep, hr, if_pos hopened]
  | word w n => exact tracks_word hopened h
  | after => exact tracks_behind hopened h
  | minus => exact tracks_digit hopened h
  | value =>
    simp only [Reader.step] at h
    split_ifs at h with hspace
    · cases h
      exact tracks_same hopened (not_bracket_of_isSpace hspace) rfl rfl
    · exact tracks_first hopened h
  | items =>
    simp only [Reader.step] at h
    split_ifs at h with hspace hclose
    · cases h
      exact tracks_same hopened (not_bracket_of_isSpace hspace) rfl rfl
    · exact tracks_behind hopened h
    · exact tracks_first hopened h
  | members =>
    simp only [Reader.step] at h
    split_ifs at h with hspace hclose hquote
    · cases h
      exact tracks_same hopened (not_bracket_of_isSpace hspace) rfl rfl
    · exact tracks_behind hopened h
    · cases h
      exact tracks_quote hopened hquote
  | key =>
    simp only [Reader.step] at h
    split_ifs at h with hspace hquote
    · cases h
      exact tracks_same hopened (not_bracket_of_isSpace hspace) rfl rfl
    · cases h
      exact tracks_quote hopened hquote
  | colon =>
    simp only [Reader.step] at h
    split_ifs at h with hspace hcolon
    · cases h
      exact tracks_same hopened (not_bracket_of_isSpace hspace) rfl rfl
    · cases h
      exact tracks_same hopened (by rw [hcolon]; decide) rfl rfl
  | zero =>
    simp only [Reader.step] at h
    split_ifs at h with hpoint he
    · cases h
      exact tracks_same hopened (by rw [hpoint]; decide) rfl rfl
    · cases h
      exact tracks_same hopened (not_bracket_of_exponent he) rfl rfl
    · exact tracks_behind hopened h
  | whole =>
    simp only [Reader.step] at h
    split_ifs at h with hdigit hpoint he
    · cases h
      exact tracks_same hopened (not_bracket_of_isDigit hdigit) rfl rfl
    · cases h
      exact tracks_same hopened (by rw [hpoint]; decide) rfl rfl
    · cases h
      exact tracks_same hopened (not_bracket_of_exponent he) rfl rfl
    · exact tracks_behind hopened h
  | fraction =>
    simp only [Reader.step] at h
    split_ifs at h with hdigit he
    · cases h
      exact tracks_same hopened (not_bracket_of_isDigit hdigit) rfl rfl
    · cases h
      exact tracks_same hopened (not_bracket_of_exponent he) rfl rfl
    · exact tracks_behind hopened h
  | exponent =>
    simp only [Reader.step] at h
    split_ifs at h with hdigit hsign
    · cases h
      exact tracks_same hopened (not_bracket_of_isDigit hdigit) rfl rfl
    · cases h
      exact tracks_same hopened (by rcases hsign with rfl | rfl <;> decide) rfl rfl
  | exponentDigits =>
    simp only [Reader.step] at h
    split_ifs at h with hdigit
    · cases h
      exact tracks_same hopened (not_bracket_of_isDigit hdigit) rfl rfl
    · exact tracks_behind hopened h
  | point | exponentSign =>
    simp only [Reader.step] at h
    split_ifs at h with hdigit
    cases h
    exact tracks_same hopened (not_bracket_of_isDigit hdigit) rfl rfl

/-- A scan without an error has come to where the reader stands, and not too much is open
there. -/
theorem scan_run {bs : Bytes} {s : DepthScan} (hopened : r.opened.length ≤ 24)
    (hscan : bs.foldlM DepthScan.step (scanAt r) = .ok s) (hrun : r.run bs = some r') :
    s = scanAt r' ∧ r'.opened.length ≤ 24 := by
  induction bs generalizing r with
  | nil =>
    cases hscan
    cases hrun
    exact ⟨rfl, hopened⟩
  | cons ch bs ih =>
    obtain ⟨r₁, hstep, hrun⟩ := Option.bind_eq_some_iff.mp hrun
    rw [List.foldlM_cons, scan_step hopened hstep] at hscan
    split_ifs at hscan with hopened₁
    · exact ih hopened₁ hscan hrun
    · cases hscan

/-! ## The scan of a JSON text -/

/-- The scan of these bytes, from outside of strings. -/
def scan (depth : ℕ) (bs : Bytes) : Except DecodeError DepthScan :=
  bs.foldlM DepthScan.step (scanOutside depth)

/-- No bracket and no quotation mark. -/
def Plain (bs : Bytes) : Prop := ∀ b ∈ bs, b ∉ ([34, 91, 123, 93, 125] : Bytes)

variable {depth n : ℕ} {bs tail s : Bytes}

theorem Plain.append {bs' : Bytes} (h : Plain bs) (h' : Plain bs') : Plain (bs ++ bs') :=
  fun b hb ↦ (List.mem_append.mp hb).elim (h b) (h' b)

theorem Plain.cons {b : UInt8} (hb : b ∉ ([34, 91, 123, 93, 125] : Bytes)) (h : Plain bs) :
    Plain (b :: bs) := List.forall_mem_cons.mpr ⟨hb, h⟩

theorem plain_of_spaces (h : Spaces s) : Plain s := fun b hb ↦ not_bracket_of_isSpace (h b hb)

theorem plain_of_digits (h : Digits bs) : Plain bs :=
  fun b hb ↦ not_bracket_of_isDigit (h.2 b hb)

theorem plain_of_number (h : Number bs) : Plain bs := by
  obtain ⟨sign, whole, fraction, exponent, hsign, hwhole, hfraction, hexponent, rfl⟩ := h
  refine .append ?_ (.append ?_ (.append ?_ ?_))
  · rcases hsign with rfl | rfl <;> simp [Plain]
  · rcases hwhole with rfl | ⟨hdigits, -⟩
    · simp [Plain]
    · exact plain_of_digits hdigits
  · rcases hfraction with rfl | ⟨ds, hds, rfl⟩
    · simp [Plain]
    · exact .cons (by decide) (plain_of_digits hds)
  · rcases hexponent with rfl | ⟨e, sign, ds, he, hsign, hds, rfl⟩
    · simp [Plain]
    · refine .cons (not_bracket_of_exponent he) (.append ?_ (plain_of_digits hds))
      rcases hsign with rfl | rfl | rfl <;> simp [Plain]

theorem scan_plain (h : Plain bs) : scan depth (bs ++ tail) = scan depth tail := by
  rw [scan, List.foldlM_append, foldlM_same fun b hb ↦ step_outside (h b hb)]
  rfl

/-- A byte between values. -/
theorem scan_plain_cons {b : UInt8} (hb : b ∉ ([34, 91, 123, 93, 125] : Bytes)) :
    scan depth (b :: tail) = scan depth tail := by
  rw [scan, List.foldlM_cons, step_outside hb]
  rfl

theorem scan_open {ch : UInt8} (hch : ch = 91 ∨ ch = 123) :
    scan depth (ch :: tail) = if depth + 1 ≤ 24 then scan (depth + 1) tail else .error .nesting := by
  rw [scan, List.foldlM_cons, step_open hch]
  split_ifs <;> rfl

theorem scan_close {ch : UInt8} (hch : ch = 93 ∨ ch = 125) :
    scan (depth + 1) (ch :: tail) = scan depth tail := by
  rw [scan, List.foldlM_cons, step_close hch]
  rfl

/-- Behind its quotation mark a string is left where it closes, whatever it holds. -/
theorem scan_quoted {k : Bytes} (h : Quoted k) : scan depth (34 :: (k ++ tail)) = scan depth tail := by
  have hquoted : (k ++ tail).foldlM DepthScan.step ⟨depth, true, false⟩ = scan depth tail := by
    induction h with
    | close => rfl
    | @plain b bs hquote hbackslash _ _ ih =>
      have hstep : DepthScan.step ⟨depth, true, false⟩ b = .ok ⟨depth, true, false⟩ := by
        simp [DepthScan.step, hquote, hbackslash]
      rw [List.cons_append, List.foldlM_cons, hstep]
      exact ih
    | escape _ _ ih => exact ih
    | @unicode digits bs _ hdigits _ ih =>
      have hsame (b : UInt8) (hb : b ∈ digits) :
          DepthScan.step ⟨depth, true, false⟩ b = .ok ⟨depth, true, false⟩ := by
        have hnot : b ≠ 92 ∧ b ≠ 34 := by
          constructor <;> rintro rfl <;> cases hdigits _ hb
        simp [DepthScan.step, hnot]
      have hdigits : (digits ++ (bs ++ tail)).foldlM DepthScan.step ⟨depth, true, false⟩ =
          (bs ++ tail).foldlM DepthScan.step ⟨depth, true, false⟩ := by
        rw [List.foldlM_append, foldlM_same hsame]
        rfl
      rw [← ih, ← hdigits, ← List.append_assoc]
      rfl
  exact hquoted

/-- What a scan comes to behind a part that is nested so deep. -/
def Scanned : Part → ℕ → Bytes → Prop
  | .value, n, bs => ∀ depth ≤ 24, ∀ tail, scan depth (bs ++ tail) =
      if depth + n ≤ 24 then scan depth tail else .error .nesting
  | _, n, bs => ∀ depth < 24, ∀ tail, scan (depth + 1) (bs ++ tail) =
      if depth + 1 + n ≤ 24 then scan depth tail else .error .nesting

/-- A value and what stands around it. -/
theorem scan_value {v s' : Bytes} (hs : Spaces s) (hv : Scanned .value n v) (hs' : Spaces s')
    (hdepth : depth ≤ 24) : scan depth (s ++ (v ++ (s' ++ tail))) =
      if depth + n ≤ 24 then scan depth tail else .error .nesting := by
  rw [scan_plain (plain_of_spaces hs), hv depth hdepth, scan_plain (plain_of_spaces hs')]

theorem scanned_brackets {ch ch' : UInt8} {s : Bytes} (hs : Spaces s) (hch : ch = 91 ∨ ch = 123)
    (hch' : ch' = 93 ∨ ch' = 125) : Scanned .value 1 (ch :: (s ++ [ch'])) := by
  intro depth _ tail
  rw [List.cons_append, List.append_assoc, scan_open hch, scan_plain (plain_of_spaces hs)]
  split_ifs
  · exact scan_close hch'
  · rfl

theorem scanned_within {ch : UInt8} {part : Part} (hpart : part ≠ .value)
    (hch : ch = 91 ∨ ch = 123) (h : Scanned part n bs) : Scanned .value (n + 1) (ch :: bs) := by
  have hscan : ∀ depth < 24, ∀ tail, scan (depth + 1) (bs ++ tail) =
      if depth + 1 + n ≤ 24 then scan depth tail else .error .nesting := by
    cases part with
    | value => exact absurd rfl hpart
    | items | members => exact h
  intro depth _ tail
  rw [List.cons_append, scan_open hch]
  by_cases hdepth : depth + 1 ≤ 24
  · rw [if_pos hdepth, hscan depth hdepth, Nat.add_assoc, Nat.add_comm 1 n]
  · rw [if_neg hdepth, if_neg (by omega)]

theorem scanned_of_nested {part : Part} (h : Nested part n bs) : Scanned part n bs := by
  induction h with
  | word w =>
    intro depth hdepth tail
    have hplain : Plain w.bytes := by cases w <;> simp [Plain, Word.bytes]
    rw [scan_plain hplain, Nat.add_zero, if_pos hdepth]
  | number h =>
    intro depth hdepth tail
    rw [scan_plain (plain_of_number h), Nat.add_zero, if_pos hdepth]
  | string h =>
    intro depth hdepth tail
    rw [List.cons_append, scan_quoted h, Nat.add_zero, if_pos hdepth]
  | noItems h => exact scanned_brackets h (.inl rfl) (.inl rfl)
  | array _ ih => exact scanned_within (by simp) (.inl rfl) ih
  | noMembers h => exact scanned_brackets h (.inr rfl) (.inr rfl)
  | object _ ih => exact scanned_within (by simp) (.inr rfl) ih
  | item h _ h' ih =>
    intro depth hdepth tail
    simp only [List.append_assoc, List.cons_append, List.nil_append]
    rw [scan_value h ih h' hdepth, scan_close (.inl rfl)]
  | @items n m s v s' vs h _ h' _ ih ihs =>
    intro depth hdepth tail
    simp only [List.append_assoc, List.cons_append]
    rw [scan_value h ih h' hdepth, scan_plain_cons (by decide), ihs depth hdepth]
    split_ifs <;> first | rfl | omega
  | member h hk h₁ h₂ _ h' ih =>
    intro depth hdepth tail
    simp only [List.append_assoc, List.cons_append, List.nil_append]
    rw [scan_plain (plain_of_spaces h), scan_quoted hk, scan_plain (plain_of_spaces h₁),
      scan_plain_cons (by decide), scan_value h₂ ih h' hdepth, scan_close (.inr rfl)]
  | members h hk h₁ h₂ _ h' _ ih ihs =>
    intro depth hdepth tail
    simp only [List.append_assoc, List.cons_append]
    rw [scan_plain (plain_of_spaces h), scan_quoted hk, scan_plain (plain_of_spaces h₁),
      scan_plain_cons (by decide), scan_value h₂ ih h' hdepth, scan_plain_cons (by decide),
      ihs depth hdepth]
    split_ifs <;> first | rfl | omega

/-- A JSON text is refused for its nesting alone. -/
theorem checkJsonDepth_jsonText (h : JsonText n bs) :
    checkJsonDepth bs = if n ≤ 24 then .ok () else .error .nesting := by
  obtain ⟨s, v, s', hs, hv, hs', rfl⟩ := h
  have hscan := @scan_value 0 n [] s v s' hs (scanned_of_nested hv) hs' (Nat.zero_le _)
  rw [List.append_nil, Nat.zero_add] at hscan
  change (do let _ ← scan 0 _; return ()) = _
  rw [hscan]
  split_ifs <;> rfl

/-- What is decoded is what `json.loads` accepts, if it is nested at most 24 deep. -/
theorem decode_eq_ok {raw : ByteArray} {v : Json} : decode raw = .ok v ↔
    ∃ text, raw = Json.encode text ∧ Json.loads? text = some v ∧ v.depth ≤ 24 := by
  simp only [decode, bind_eq_ok, need_eq_ok, Json.decode?_eq_some]
  constructor
  · rintro ⟨_, hdepth, text, rfl, hv⟩
    refine ⟨text, rfl, hv, ?_⟩
    rw [Json.data_encode, checkJsonDepth_jsonText (Json.loads?_eq_some.mp hv).jsonText] at hdepth
    by_contra hdeep
    rw [if_neg hdeep] at hdepth
    cases hdepth
  · rintro ⟨text, rfl, hv, hdepth⟩
    refine ⟨(), ?_, text, rfl, hv⟩
    rw [Json.data_encode, checkJsonDepth_jsonText (Json.loads?_eq_some.mp hv).jsonText,
      if_pos hdepth]

/-- The check bounds what a reader has open before it accepts or meets its first error, also in
bytes that are no JSON text, and refuses no text that is nested at most 24 deep. -/
theorem checkJsonDepth_bounds :
    (∀ (raw before : Bytes) (r : Reader), checkJsonDepth raw = .ok () → before <+: raw →
      Reader.initial.run before = some r → r.opened.length ≤ 24) ∧
    ∀ (raw : Bytes) (n : ℕ), JsonText n raw → n ≤ 24 → checkJsonDepth raw = .ok () := by
  refine ⟨?_, fun raw n h hn ↦ (checkJsonDepth_jsonText h).trans (if_pos hn)⟩
  rintro raw before r h ⟨after, rfl⟩ hrun
  obtain ⟨s, hscan, -⟩ := bind_eq_ok.mp h
  rw [List.foldlM_append] at hscan
  obtain ⟨s', hbefore, -⟩ := bind_eq_ok.mp hscan
  have hscan : before.foldlM DepthScan.step (scanAt .initial) = .ok s' := hbefore
  exact (scan_run (Nat.zero_le _) hscan hrun).2

/-- In `[{"a[":1]` the reader meets an error at the second `]`, with two brackets open. -/
theorem checkJsonDepth_bounds_broken :
    checkJsonDepth [91, 123, 34, 97, 91, 34, 58, 49, 93] = .ok () ∧
      (∀ r, Reader.initial.run [91, 123, 34, 97, 91, 34, 58, 49] = some r → r.opened.length ≤ 24) ∧
      JsonText 1 [91, 34, 91, 34, 93] ∧ checkJsonDepth [91, 34, 91, 34, 93] = .ok () := by
  have hquoted : Quoted [91, 34] := .plain (by decide) (by decide) (by decide) .close
  have hempty : Spaces [] := fun b hb ↦ by cases hb
  have htext : JsonText 1 [91, 34, 91, 34, 93] :=
    ⟨[], [91, 34, 91, 34, 93], [], hempty, .array (.item hempty (.string hquoted) hempty), hempty, rfl⟩
  refine ⟨rfl, fun r hrun ↦ ?_, htext, checkJsonDepth_bounds.2 _ 1 htext (by decide)⟩
  exact checkJsonDepth_bounds.1 [91, 123, 34, 97, 91, 34, 58, 49, 93] _ r rfl ⟨[93], rfl⟩ hrun

end Conjectures.Trajectories
