import Mathlib.Data.List.TakeWhile
import Mathlib.Data.Int.Notation
import Mathlib.Tactic.TypeStar

/-!
# The tokens of JSON

Spaces, numbers and strings: what a token spells, as a relation, and a scanner that reads it off
the front of a text.  A scanner takes as much as it can, so a token is read back wherever what
follows cannot continue it.

The texts that are read are Unicode, those that are spelled are code points: an escape may stand
for half a surrogate pair, and halves that meet are joined.
-/

namespace Conjectures.Lib

/-- The code points of a text; surrogates may stand alone among them. -/
abbrev Text := List ℕ

instance Text.lawfulBEq : LawfulBEq Text := inferInstance

/-- A literal text. -/
def text (s : String) : Text := s.toList.map Char.toNat

inductive Json where
  | null
  | bool (b : Bool)
  | int (n : ℤ)
  /-- a number with a fraction or an exponent, as it is spelled -/
  | float (spelling : List Char)
  | string (s : Text)
  | array (items : List Json)
  | object (members : List (Text × Json))

namespace Json

/-! ## Runs of characters -/

/-- A run is read whole where what follows does not continue it. -/
theorem span_run {α : Type*} {p : α → Bool} {run rest : List α}
    (hrun : ∀ c ∈ run, p c = true) (hrest : ∀ c ∈ rest.head?, p c = false) :
    (run ++ rest).takeWhile p = run ∧ (run ++ rest).dropWhile p = rest := by
  have hempty : rest.takeWhile p = [] ∧ rest.dropWhile p = rest := by
    cases rest with
    | nil => exact ⟨rfl, rfl⟩
    | cons c rest => simp [hrest c rfl]
  rw [List.takeWhile_append_of_pos hrun, List.dropWhile_append_of_pos hrun, hempty.1, hempty.2,
    List.append_nil]
  exact ⟨rfl, rfl⟩

/-! ## Spaces -/

def isSpace (c : Char) : Bool := c = ' ' || c = '\t' || c = '\n' || c = '\r'

/-- The text is some spaces before the rest. -/
def Spaces (text rest : List Char) : Prop :=
  ∃ spaces, (∀ c ∈ spaces, isSpace c = true) ∧ text = spaces ++ rest

def skip (text : List Char) : List Char := text.dropWhile isSpace

theorem spaces_skip (text : List Char) : Spaces text (skip text) :=
  ⟨text.takeWhile isSpace, fun _ hc ↦ List.mem_takeWhile_imp hc,
    List.takeWhile_append_dropWhile.symm⟩

theorem Spaces.refl (text : List Char) : Spaces text text := ⟨[], by simp, rfl⟩

theorem Spaces.trans {text text' rest : List Char} (h : Spaces text text')
    (h' : Spaces text' rest) : Spaces text rest := by
  obtain ⟨spaces, hspaces, rfl⟩ := h
  obtain ⟨spaces', hspaces', rfl⟩ := h'
  refine ⟨spaces ++ spaces', fun c hc ↦ ?_, (List.append_assoc _ _ _).symm⟩
  exact (List.mem_append.mp hc).elim (hspaces c) (hspaces' c)

theorem Spaces.length_le {text rest : List Char} (h : Spaces text rest) :
    rest.length ≤ text.length := by
  obtain ⟨spaces, -, rfl⟩ := h
  simp

/-- All spaces are skipped before what is none. -/
theorem Spaces.skip_eq {text rest : List Char} (h : Spaces text rest)
    (hrest : ∀ c ∈ rest.head?, isSpace c = false) : skip text = rest := by
  obtain ⟨spaces, hspaces, rfl⟩ := h
  exact (span_run hspaces hrest).2

/-! ## Numbers -/

/-- The digits of a whole part: no zero leads others. -/
structure Whole (run : List Char) : Prop where
  nonempty : run ≠ []
  digits : ∀ c ∈ run, c.isDigit = true
  noLeadingZero : run.head? = some '0' → run = ['0']

/-- Digits, and at least one. -/
structure Digits (run : List Char) : Prop where
  nonempty : run ≠ []
  digits : ∀ c ∈ run, c.isDigit = true

/-- A point and digits, or nothing. -/
def Fraction (fraction : List Char) : Prop :=
  fraction = [] ∨ ∃ digits, Digits digits ∧ fraction = '.' :: digits

/-- An `e`, perhaps a sign, and digits, or nothing. -/
def Exponent (exponent : List Char) : Prop :=
  exponent = [] ∨ ∃ e sign digits, (e = 'e' ∨ e = 'E') ∧ (sign = [] ∨ sign = ['+'] ∨ sign = ['-']) ∧
    Digits digits ∧ exponent = e :: (sign ++ digits)

def minus (negative : Bool) : List Char := if negative then ['-'] else []

/-- The number that its parts spell. -/
def numberOf (negative : Bool) (whole fraction exponent : List Char) : Json :=
  if fraction = [] ∧ exponent = [] then
    let n : ℤ := Nat.ofDigitChars 10 whole 0
    .int (if negative then -n else n)
  else .float (minus negative ++ (whole ++ (fraction ++ exponent)))

/-- The text spells this number. -/
def Number (text : List Char) (v : Json) : Prop :=
  ∃ negative whole fraction exponent, Whole whole ∧ Fraction fraction ∧ Exponent exponent ∧
    text = minus negative ++ (whole ++ (fraction ++ exponent)) ∧
    v = numberOf negative whole fraction exponent

/-- Nothing here continues a number. -/
def Closed (rest : List Char) : Prop :=
  ∀ c ∈ rest.head?, c.isDigit = false ∧ c ≠ '.' ∧ c ≠ 'e' ∧ c ≠ 'E'

def sign : List Char → Bool × List Char
  | '-' :: text => (true, text)
  | text => (false, text)

def whole? : List Char → Option (List Char × List Char)
  | '0' :: rest => some (['0'], rest)
  | text =>
    if text.takeWhile Char.isDigit = [] then none
    else some (text.takeWhile Char.isDigit, text.dropWhile Char.isDigit)

def fraction : List Char → List Char × List Char
  | '.' :: text =>
    if text.takeWhile Char.isDigit = [] then ([], '.' :: text)
    else ('.' :: text.takeWhile Char.isDigit, text.dropWhile Char.isDigit)
  | text => ([], text)

def exponentSign : List Char → List Char × List Char
  | '+' :: text => (['+'], text)
  | '-' :: text => (['-'], text)
  | text => ([], text)

def exponent : List Char → List Char × List Char
  | [] => ([], [])
  | e :: text =>
    let (sign, digits) := exponentSign text
    if (e = 'e' ∨ e = 'E') ∧ digits.takeWhile Char.isDigit ≠ [] then
      (e :: (sign ++ digits.takeWhile Char.isDigit), digits.dropWhile Char.isDigit)
    else ([], e :: text)

/-- `NUMBER_RE`: the longest number a text starts with. -/
def number? (text : List Char) : Option (Json × List Char) := do
  let (negative, text) := sign text
  let (whole, text) ← whole? text
  let (fraction, text) := fraction text
  let (exponent, text) := exponent text
  return (numberOf negative whole fraction exponent, text)

theorem digits_takeWhile {text : List Char} (h : text.takeWhile Char.isDigit ≠ []) :
    Digits (text.takeWhile Char.isDigit) := ⟨h, fun _ hc ↦ List.mem_takeWhile_imp hc⟩

theorem sign_spec (text : List Char) : text = minus (sign text).1 ++ (sign text).2 := by
  unfold sign
  split <;> rfl

theorem whole?_spec {text whole rest : List Char} (h : whole? text = some (whole, rest)) :
    Whole whole ∧ text = whole ++ rest := by
  unfold whole? at h
  split at h
  · cases h
    exact ⟨⟨by simp, by simp, fun _ ↦ rfl⟩, rfl⟩
  · rename_i hzero
    split at h
    · cases h
    · rename_i hdigits
      cases h
      refine ⟨⟨hdigits, (digits_takeWhile hdigits).digits, fun hhead ↦ ?_⟩,
        List.takeWhile_append_dropWhile.symm⟩
      cases text with
      | nil => exact absurd rfl hdigits
      | cons c text =>
        by_cases hc : c.isDigit = true
        · simp only [List.takeWhile_cons, hc, if_true, List.head?_cons, Option.some.injEq] at hhead
          exact absurd (by rw [hhead]) (hzero text)
        · simp [hc] at hdigits

theorem fraction_spec (text : List Char) :
    Fraction (fraction text).1 ∧ text = (fraction text).1 ++ (fraction text).2 := by
  unfold fraction
  split
  · split
    · exact ⟨.inl rfl, rfl⟩
    · rename_i hdigits
      exact ⟨.inr ⟨_, digits_takeWhile hdigits, rfl⟩,
        congrArg _ List.takeWhile_append_dropWhile.symm⟩
  · exact ⟨.inl rfl, rfl⟩

theorem exponentSign_spec (text : List Char) :
    ((exponentSign text).1 = [] ∨ (exponentSign text).1 = ['+'] ∨ (exponentSign text).1 = ['-']) ∧
      text = (exponentSign text).1 ++ (exponentSign text).2 := by
  unfold exponentSign
  split <;> simp

theorem exponent_spec (text : List Char) :
    Exponent (exponent text).1 ∧ text = (exponent text).1 ++ (exponent text).2 := by
  cases text with
  | nil => exact ⟨.inl rfl, rfl⟩
  | cons e text =>
    obtain ⟨hsign, htext⟩ := exponentSign_spec text
    unfold exponent
    dsimp only
    split
    · rename_i h
      refine ⟨.inr ⟨e, _, _, h.1, hsign, digits_takeWhile h.2, rfl⟩, ?_⟩
      dsimp only
      rw [List.cons_append, List.append_assoc, List.takeWhile_append_dropWhile, ← htext]
    · exact ⟨.inl rfl, rfl⟩

/-- What is read is a number, and what is left follows it. -/
theorem number?_spec {text rest : List Char} {v : Json} (h : number? text = some (v, rest)) :
    ∃ number, Number number v ∧ text = number ++ rest := by
  simp only [number?, Option.bind_eq_bind, Option.bind_eq_some_iff, Option.pure_def,
    Option.some.injEq, Prod.mk.injEq] at h
  obtain ⟨⟨whole, text₁⟩, hwhole, rfl, rfl⟩ := h
  obtain ⟨hw, htext₁⟩ := whole?_spec hwhole
  obtain ⟨hf, htext₂⟩ := fraction_spec text₁
  obtain ⟨he, htext₃⟩ := exponent_spec (fraction text₁).2
  refine ⟨_, ⟨_, _, _, _, hw, hf, he, rfl, rfl⟩, ?_⟩
  calc text = minus (sign text).1 ++ (sign text).2 := sign_spec text
    _ = minus (sign text).1 ++ (whole ++ text₁) := congrArg _ htext₁
    _ = minus (sign text).1 ++ (whole ++ ((fraction text₁).1 ++ (fraction text₁).2)) :=
        congrArg (fun t ↦ minus (sign text).1 ++ (whole ++ t)) htext₂
    _ = minus (sign text).1 ++ (whole ++ ((fraction text₁).1 ++
          ((exponent (fraction text₁).2).1 ++ (exponent (fraction text₁).2).2))) :=
        congrArg (fun t ↦ minus (sign text).1 ++ (whole ++ ((fraction text₁).1 ++ t))) htext₃
    _ = _ := by simp only [List.append_assoc]

/-! ### Reading numbers back -/

theorem Closed.not_digit {rest : List Char} (h : Closed rest) :
    ∀ c ∈ rest.head?, c.isDigit = false := fun c hc ↦ (h c hc).1

theorem exponent_append {ex rest : List Char} (hex : Exponent ex) (hrest : Closed rest) :
    exponent (ex ++ rest) = (ex, rest) := by
  rcases hex with rfl | ⟨e, sign, digits, he, hsign, hdigits, rfl⟩
  · cases rest with
    | nil => rfl
    | cons c rest =>
      obtain ⟨-, -, hlower, hupper⟩ := hrest c rfl
      simp [exponent, hlower, hupper]
  · obtain ⟨htake, hdrop⟩ := span_run hdigits.digits hrest.not_digit
    have hread : exponentSign (sign ++ (digits ++ rest)) = (sign, digits ++ rest) := by
      rcases hsign with rfl | rfl | rfl
      · obtain ⟨d, ds, rfl⟩ := List.exists_cons_of_ne_nil hdigits.nonempty
        have hd := hdigits.digits d List.mem_cons_self
        unfold exponentSign
        split
        · rename_i heq
          cases heq
          cases hd
        · rename_i heq
          cases heq
          cases hd
        · rfl
      · rfl
      · rfl
    rw [List.cons_append, List.append_assoc]
    unfold exponent
    dsimp only
    rw [hread]
    dsimp only
    rw [htake, hdrop, if_pos ⟨he, hdigits.nonempty⟩]

/-- No part of a number before its exponent is continued by it. -/
theorem not_digit_exponent {ex rest : List Char} (hex : Exponent ex) (hrest : Closed rest) :
    ∀ c ∈ (ex ++ rest).head?, c.isDigit = false ∧ c ≠ '.' := by
  rcases hex with rfl | ⟨e, sign, digits, rfl | rfl, -, -, rfl⟩
  · exact fun c hc ↦ ⟨(hrest c hc).1, (hrest c hc).2.1⟩
  · rintro c ⟨⟩
    decide
  · rintro c ⟨⟩
    decide

theorem fraction_append {fr ex rest : List Char} (hfr : Fraction fr) (hex : Exponent ex)
    (hrest : Closed rest) : fraction (fr ++ (ex ++ rest)) = (fr, ex ++ rest) := by
  have hnext := not_digit_exponent hex hrest
  rcases hfr with rfl | ⟨digits, hdigits, rfl⟩
  · rw [List.nil_append]
    unfold fraction
    split
    · rename_i heq
      rw [heq] at hnext
      exact absurd rfl (hnext '.' rfl).2
    · rfl
  · obtain ⟨htake, hdrop⟩ := span_run hdigits.digits fun c hc ↦ (hnext c hc).1
    rw [List.cons_append, fraction, htake, hdrop, if_neg hdigits.nonempty]

theorem whole?_append {whole tail : List Char} (hwhole : Whole whole)
    (htail : ∀ c ∈ tail.head?, c.isDigit = false) : whole? (whole ++ tail) = some (whole, tail) := by
  obtain ⟨htake, hdrop⟩ := span_run hwhole.digits htail
  unfold whole?
  split
  · rename_i heq
    obtain ⟨d, ds, rfl⟩ := List.exists_cons_of_ne_nil hwhole.nonempty
    obtain ⟨rfl, hds⟩ := List.cons.inj heq
    obtain rfl := (List.cons.inj (hwhole.noLeadingZero rfl)).2
    rw [← hds]
    rfl
  · rw [htake, hdrop, if_neg hwhole.nonempty]

theorem sign_append {negative : Bool} {whole tail : List Char} (hwhole : Whole whole) :
    sign (minus negative ++ (whole ++ tail)) = (negative, whole ++ tail) := by
  cases negative with
  | true => rfl
  | false =>
    obtain ⟨d, ds, rfl⟩ := List.exists_cons_of_ne_nil hwhole.nonempty
    have hd := hwhole.digits d List.mem_cons_self
    unfold sign
    split
    · rename_i heq
      cases heq
      cases hd
    · rfl

/-- A number is read back where nothing continues it. -/
theorem number?_append {number rest : List Char} {v : Json} (h : Number number v)
    (hrest : Closed rest) : number? (number ++ rest) = some (v, rest) := by
  obtain ⟨negative, whole, fr, ex, hwhole, hfr, hex, rfl, rfl⟩ := h
  have htail : ∀ c ∈ (fr ++ (ex ++ rest)).head?, c.isDigit = false := by
    rcases hfr with rfl | ⟨digits, -, rfl⟩
    · exact fun c hc ↦ (not_digit_exponent hex hrest c hc).1
    · rintro c ⟨⟩
      decide
  have hassoc : minus negative ++ (whole ++ (fr ++ ex)) ++ rest =
      minus negative ++ (whole ++ (fr ++ (ex ++ rest))) := by
    simp only [List.append_assoc]
  rw [hassoc]
  unfold number?
  rw [sign_append hwhole]
  dsimp only
  rw [whole?_append hwhole htail]
  simp only [Option.bind_eq_bind, Option.bind_some, fraction_append hfr hex hrest,
    exponent_append hex hrest, Option.pure_def]

/-- A number starts with a minus or a digit. -/
theorem Number.head {number : List Char} {v : Json} (h : Number number v) :
    ∃ c tail, number = c :: tail ∧ (c = '-' ∨ c.isDigit = true) := by
  obtain ⟨negative, whole, fr, ex, hwhole, -, -, rfl, -⟩ := h
  cases negative with
  | true => exact ⟨'-', _, rfl, .inl rfl⟩
  | false =>
    obtain ⟨d, ds, rfl⟩ := List.exists_cons_of_ne_nil hwhole.nonempty
    exact ⟨d, _, rfl, .inr (hwhole.digits d List.mem_cons_self)⟩

/-! ## Strings -/

/-- What a hexadecimal digit is worth. -/
def hexValue (c : Char) : Option ℕ :=
  if 48 ≤ c.toNat ∧ c.toNat ≤ 57 then some (c.toNat - 48)
  else if 97 ≤ c.toNat ∧ c.toNat ≤ 102 then some (c.toNat - 87)
  else if 65 ≤ c.toNat ∧ c.toNat ≤ 70 then some (c.toNat - 55)
  else none

def hex4? (a b c d : Char) : Option ℕ := do
  let a ← hexValue a
  let b ← hexValue b
  let c ← hexValue c
  let d ← hexValue d
  return ((a * 16 + b) * 16 + c) * 16 + d

/-- The characters a backslash escapes; `\x22` is the quotation mark, `\x5c` the backslash. -/
def escaped : Char → Option ℕ
  | '\x22' => some 0x22
  | '\x5c' => some 0x5c
  | '/' => some 0x2f
  | 'b' => some 8
  | 'f' => some 12
  | 'n' => some 10
  | 'r' => some 13
  | 't' => some 9
  | _ => none

/-- The units of a string, from behind its opening quotation mark to behind the closing one. -/
inductive Units : List Char → Text → List Char → Prop
  | close {rest : List Char} : Units ('\x22' :: rest) [] rest
  | plain {c : Char} {text rest : List Char} {s : Text} (hquote : c ≠ '\x22')
      (hbackslash : c ≠ '\x5c') (hcontrol : 32 ≤ c.toNat) (h : Units text s rest) :
      Units (c :: text) (c.toNat :: s) rest
  | escape {c : Char} {n : ℕ} {text rest : List Char} {s : Text} (hc : escaped c = some n)
      (h : Units text s rest) : Units ('\x5c' :: c :: text) (n :: s) rest
  | unicode {a b c d : Char} {n : ℕ} {text rest : List Char} {s : Text}
      (hn : hex4? a b c d = some n) (h : Units text s rest) :
      Units ('\x5c' :: 'u' :: a :: b :: c :: d :: text) (n :: s) rest

/-- Halves of a surrogate pair that meet are one code point. -/
def joinSurrogates : Text → Text
  | high :: low :: s =>
    if 0xd800 ≤ high ∧ high ≤ 0xdbff ∧ 0xdc00 ≤ low ∧ low ≤ 0xdfff then
      (0x10000 + (high - 0xd800) * 0x400 + (low - 0xdc00)) :: joinSurrogates s
    else high :: joinSurrogates (low :: s)
  | s => s

def units? : List Char → Option (Text × List Char)
  | [] => none
  | '\x22' :: rest => some ([], rest)
  | '\x5c' :: 'u' :: a :: b :: c :: d :: text => do
    let n ← hex4? a b c d
    let (s, rest) ← units? text
    return (n :: s, rest)
  | '\x5c' :: c :: text => do
    let n ← escaped c
    let (s, rest) ← units? text
    return (n :: s, rest)
  | c :: text =>
    if 32 ≤ c.toNat then do
      let (s, rest) ← units? text
      return (c.toNat :: s, rest)
    else none

/-- What is read as a string is one. -/
theorem units?_spec {text rest : List Char} {s : Text} (h : units? text = some (s, rest)) :
    Units text s rest := by
  fun_induction units? text generalizing s rest with
  | case1 => cases h
  | case2 rest =>
    cases h
    exact .close
  | case3 a b c d text ih =>
    simp only [Option.bind_eq_bind, Option.bind_eq_some_iff, Option.pure_def, Option.some.injEq,
      Prod.mk.injEq] at h
    obtain ⟨n, hn, ⟨s', rest'⟩, hread, rfl, rfl⟩ := h
    exact .unicode hn (ih hread)
  | case4 c text _ ih =>
    simp only [Option.bind_eq_bind, Option.bind_eq_some_iff, Option.pure_def, Option.some.injEq,
      Prod.mk.injEq] at h
    obtain ⟨n, hn, ⟨s', rest'⟩, hread, rfl, rfl⟩ := h
    exact .escape hn (ih hread)
  | case5 c text hquote _ hmore hcontrol ih =>
    simp only [Option.bind_eq_bind, Option.bind_eq_some_iff, Option.pure_def, Option.some.injEq,
      Prod.mk.injEq] at h
    obtain ⟨⟨s', rest'⟩, hread, rfl, rfl⟩ := h
    refine .plain (fun hc ↦ hquote hc) (fun hc ↦ ?_) hcontrol (ih hread)
    -- a backslash escapes what follows it, so nothing does, and the string is not closed
    cases text with
    | nil => cases hread
    | cons c' text' => exact hmore c' text' hc rfl
  | case6 => cases h

theorem units?_eq {text rest : List Char} {s : Text} (h : Units text s rest) :
    units? text = some (s, rest) := by
  induction h with
  | close => rfl
  | plain hquote hbackslash hcontrol _ ih =>
    rw [units?.eq_5 _ _ (fun h ↦ hquote h) (fun _ _ _ _ _ h _ ↦ hbackslash h)
      (fun _ _ h _ ↦ hbackslash h), if_pos hcontrol, ih]
    rfl
  | @escape c n text _ _ hc _ ih =>
    have hu : ∀ a b c' d text', c = 'u' → text = a :: b :: c' :: d :: text' → False := by
      rintro _ _ _ _ _ rfl _
      cases hc
    rw [units?.eq_4 _ _ hu, hc, ih]
    rfl
  | unicode hn _ ih =>
    rw [units?, hn, ih]
    rfl

/-- Text without surrogates is joined to nothing. -/
theorem joinSurrogates_eq_self {s : Text} (h : ∀ n ∈ s, ¬ (0xd800 ≤ n ∧ n ≤ 0xdbff)) :
    joinSurrogates s = s := by
  fun_induction joinSurrogates s with
  | case1 high low s hpair _ => exact absurd ⟨hpair.1, hpair.2.1⟩ (h high List.mem_cons_self)
  | case2 high low s _ ih => rw [ih fun n hn ↦ h n (List.mem_cons_of_mem _ hn)]
  | case3 => rfl

theorem Units.length_lt {text rest : List Char} {s : Text} (h : Units text s rest) :
    rest.length < text.length := by
  induction h with
  | close => simp
  | plain _ _ _ _ ih =>
    simp only [List.length_cons]
    omega
  | escape _ _ ih =>
    simp only [List.length_cons]
    omega
  | unicode _ _ ih =>
    simp only [List.length_cons]
    omega

end Json

end Conjectures.Lib
