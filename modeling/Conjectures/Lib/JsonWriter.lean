import Conjectures.Lib.Json
import Mathlib.Algebra.Group.Int.Defs
import Mathlib.Data.List.Lex
import Mathlib.Data.List.Sort

/-!
# Writing JSON

The compact spelling of a value, in which only what must be escaped is, and the members of an
object stand in the order of their keys.  What is written spells the value it was written for, where
its floats are spelled as floats are read.
-/

namespace Conjectures.Lib.Json

/-! ## The writer -/

/-- The decimal digits of an integer. -/
def decimal (n : ℤ) : List Char := minus (n < 0) ++ Nat.toDigits 10 n.natAbs

/-- The characters that are escaped by a letter or by themselves. -/
def shorthand : ℕ → Option Char
  | 0x22 => some '\x22'
  | 0x5c => some '\x5c'
  | 10 => some 'n'
  | 13 => some 'r'
  | 9 => some 't'
  | 12 => some 'f'
  | 8 => some 'b'
  | _ => none

/-- A code point of a string; half a surrogate pair is no character and cannot be written. -/
def escape (n : ℕ) : Option (List Char) :=
  match shorthand n with
  | some c => some ['\x5c', c]
  | none =>
    if n < 32 then
      some ['\x5c', 'u', '0', '0', Nat.digitChar (n / 16), Nat.digitChar (n % 16)]
    else if n.isValidChar then some [Char.ofNat n]
    else none

/-- The units of a string and its closing quotation mark. -/
def escapes : Text → Option (List Char)
  | [] => some ['\x22']
  | n :: s => do
    let unit ← escape n
    let units ← escapes s
    return unit ++ units

def quote (s : Text) : Option (List Char) := do
  let units ← escapes s
  return '\x22' :: units

mutual

/-- A value, with its members as they stand.  A float is written as it is spelled: which spelling
a float is written with is decided where it is read. -/
def render : Json → Option (List Char)
  | .null => some ['n', 'u', 'l', 'l']
  | .bool true => some ['t', 'r', 'u', 'e']
  | .bool false => some ['f', 'a', 'l', 's', 'e']
  | .int n => some (decimal n)
  | .float spelling => some spelling
  | .string s => quote s
  | .array vs => do
    let items ← renderItems vs
    return '[' :: items
  | .object ms => do
    let members ← renderMembers ms
    return '\x7b' :: members

/-- The items and the closing bracket. -/
def renderItems : List Json → Option (List Char)
  | [] => some [']']
  | [v] => do
    let item ← render v
    return item ++ [']']
  | v :: vs => do
    let item ← render v
    let items ← renderItems vs
    return item ++ ',' :: items

/-- The members and the closing brace. -/
def renderMembers : List (Text × Json) → Option (List Char)
  | [] => some ['\x7d']
  | [(k, v)] => do
    let key ← quote k
    let value ← render v
    return key ++ ':' :: (value ++ ['\x7d'])
  | (k, v) :: ms => do
    let key ← quote k
    let value ← render v
    let members ← renderMembers ms
    return key ++ ':' :: (value ++ ',' :: members)

end

mutual

/-- The value, every object of it in the order of its keys. -/
def sortKeys : Json → Json
  | .array vs => .array (sortItems vs)
  | .object ms => .object ((sortMembers ms).insertionSort fun m m' ↦ m.1 ≤ m'.1)
  | v => v

def sortItems : List Json → List Json
  | [] => []
  | v :: vs => sortKeys v :: sortItems vs

def sortMembers : List (Text × Json) → List (Text × Json)
  | [] => []
  | (k, v) :: ms => (k, sortKeys v) :: sortMembers ms

end

/-- `json.dumps` with `sort_keys`, without `ensure_ascii` and without spaces. -/
def dumps (v : Json) : Option (List Char) := render (sortKeys v)

mutual

/-- No object has a key twice. -/
def Keyed : Json → Prop
  | .array vs => KeyedItems vs
  | .object ms => (ms.map Prod.fst).Nodup ∧ KeyedMembers ms
  | _ => True

def KeyedItems : List Json → Prop
  | [] => True
  | v :: vs => Keyed v ∧ KeyedItems vs

def KeyedMembers : List (Text × Json) → Prop
  | [] => True
  | (_, v) :: ms => Keyed v ∧ KeyedMembers ms

end

mutual

/-- The spellings of the floats are such. -/
def Floats (p : List Char → Prop) : Json → Prop
  | .float spelling => p spelling
  | .array vs => FloatsItems p vs
  | .object ms => FloatsMembers p ms
  | _ => True

def FloatsItems (p : List Char → Prop) : List Json → Prop
  | [] => True
  | v :: vs => Floats p v ∧ FloatsItems p vs

def FloatsMembers (p : List Char → Prop) : List (Text × Json) → Prop
  | [] => True
  | (_, v) :: ms => Floats p v ∧ FloatsMembers p ms

end

/-- The spelling is read as a float; that of an infinity is not. -/
def Literal (spelling : List Char) : Prop := Number spelling (.float spelling)

/-! ## What is written is spelled -/

theorem head_toDigits (n : ℕ) (h : (Nat.toDigits 10 n).head? = some '0') : n = 0 := by
  induction n using Nat.strongRecOn with
  | ind n ih =>
    by_cases hn : n < 10
    · rw [Nat.toDigits_of_lt_base hn, List.head?_cons, Option.some.injEq] at h
      exact Nat.digitChar_eq_zero.mp h
    · rw [Nat.toDigits_of_base_le (by omega) (by omega),
        List.head?_append_of_ne_nil _ Nat.toDigits_ne_nil] at h
      have := ih (n / 10) (by omega) h
      omega

theorem whole_toDigits (n : ℕ) : Whole (Nat.toDigits 10 n) where
  nonempty := Nat.toDigits_ne_nil
  digits _ hc := Nat.isDigit_of_mem_toDigits (by decide) (by decide) hc
  noLeadingZero h := by rw [head_toDigits n h, Nat.toDigits_zero]

theorem number_decimal (n : ℤ) : Number (decimal n) (.int n) := by
  refine ⟨n < 0, _, [], [], whole_toDigits n.natAbs, .inl rfl, .inl rfl, by simp [decimal], ?_⟩
  simp only [numberOf, and_self, if_true, Nat.ofDigitChars_ten_toDigits, decide_eq_true_eq]
  split
  · rw [Int.ofNat_natAbs_of_nonpos (by omega), Int.neg_neg]
  · rw [Int.natAbs_of_nonneg (by omega)]

theorem hex4?_control : ∀ n < 32,
    hex4? '0' '0' (Nat.digitChar (n / 16)) (Nat.digitChar (n % 16)) = some n := by
  decide

theorem escaped_of_shorthand {n : ℕ} {c : Char} (h : shorthand n = some c) :
    escaped c = some n := by
  unfold shorthand at h
  split at h <;> cases h <;> rfl

theorem toNat_ofNat {n : ℕ} (h : n.isValidChar) : (Char.ofNat n).toNat = n := by
  rw [Char.ofNat, dif_pos h]
  exact UInt32.toNat_ofNatLT ..

/-- A unit that is written is read back. -/
theorem units_escape {n : ℕ} {unit text rest : List Char} {s : Text} (h : escape n = some unit)
    (hunits : Units text s rest) : Units (unit ++ text) (n :: s) rest := by
  unfold escape at h
  split at h
  · rename_i c hshort
    cases h
    exact .escape (escaped_of_shorthand hshort) hunits
  · rename_i hshort
    split_ifs at h with hcontrol hvalid
    · cases h
      exact .unicode (hex4?_control n hcontrol) hunits
    · cases h
      have hnat := toNat_ofNat hvalid
      have hplain := @Units.plain (Char.ofNat n) text rest s
        (by rintro heq; rw [heq] at hnat; rw [← hnat] at hshort; cases hshort)
        (by rintro heq; rw [heq] at hnat; rw [← hnat] at hshort; cases hshort)
        (by omega) hunits
      rwa [hnat] at hplain

/-- What can be written is no surrogate. -/
theorem not_surrogate_of_escape {n : ℕ} {unit : List Char} (h : escape n = some unit) :
    ¬ (0xd800 ≤ n ∧ n ≤ 0xdbff) := by
  rintro ⟨hlow, hhigh⟩
  have hvalid : ¬ n.isValidChar := by
    rintro (h | h) <;> omega
  unfold escape at h
  split at h
  · rename_i hshort
    unfold shorthand at hshort
    split at hshort <;> first | omega | cases hshort
  · rw [if_neg (by omega), if_neg hvalid] at h
    cases h

theorem units_escapes {s : Text} {units : List Char} (h : escapes s = some units)
    (rest : List Char) : Units (units ++ rest) s rest ∧ joinSurrogates s = s := by
  suffices Units (units ++ rest) s rest ∧ ∀ n ∈ s, ¬ (0xd800 ≤ n ∧ n ≤ 0xdbff) from
    ⟨this.1, joinSurrogates_eq_self this.2⟩
  induction s generalizing units with
  | nil =>
    cases h
    exact ⟨.close, by simp⟩
  | cons n s ih =>
    simp only [escapes, Option.bind_eq_bind, Option.bind_eq_some_iff, Option.pure_def,
      Option.some.injEq] at h
    obtain ⟨unit, hunit, units', hunits, rfl⟩ := h
    obtain ⟨hspelled, hs⟩ := ih hunits
    rw [List.append_assoc]
    refine ⟨units_escape hunit hspelled, fun m hm ↦ ?_⟩
    rcases List.mem_cons.mp hm with rfl | hm
    · exact not_surrogate_of_escape hunit
    · exact hs m hm

/-- A string that is written is the key of a member, or a value. -/
theorem quote_spec {s : Text} {quoted : List Char} (h : quote s = some quoted) :
    ∃ units, quoted = '\x22' :: units ∧ (∀ rest, Units (units ++ rest) s rest) ∧
      joinSurrogates s = s := by
  simp only [quote, Option.bind_eq_bind, Option.bind_eq_some_iff, Option.pure_def,
    Option.some.injEq] at h
  obtain ⟨units, hunits, rfl⟩ := h
  exact ⟨units, rfl, fun rest ↦ (units_escapes hunits rest).1, (units_escapes hunits []).2⟩

mutual

theorem spells_of_render : ∀ (v : Json) {cs : List Char}, render v = some cs → Keyed v →
    Floats Literal v → ∀ rest, Spells (cs ++ rest) (.value v) rest
  | .null, _, h, _, _, rest => by
    cases h
    exact .nullWord
  | .bool true, _, h, _, _, rest => by
    cases h
    exact .trueWord
  | .bool false, _, h, _, _, rest => by
    cases h
    exact .falseWord
  | .int n, _, h, _, _, rest => by
    cases h
    exact .number (number_decimal n)
  | .float _, _, h, _, hfloats, rest => by
    cases h
    exact .number hfloats
  | .string s, _, h, _, _, rest => by
    obtain ⟨units, rfl, hunits, hjoin⟩ := quote_spec h
    have hspelled := Spells.string (hunits rest)
    rwa [hjoin] at hspelled
  | .array [], _, h, _, _, rest => by
    cases h
    exact .noItems (.refl _)
  | .array (v :: vs), cs, h, hkeyed, hfloats, rest => by
    unfold render at h
    obtain ⟨items, hitems, h⟩ := Option.bind_eq_some_iff.mp h
    cases h
    exact .array (spells_of_renderItems (v :: vs) (by simp) hitems hkeyed hfloats rest)
  | .object [], _, h, _, _, rest => by
    cases h
    exact .noMembers (.refl _)
  | .object ((k, v) :: ms), cs, h, hkeyed, hfloats, rest => by
    unfold render at h
    obtain ⟨members, hmembers, h⟩ := Option.bind_eq_some_iff.mp h
    cases h
    exact .object
      (spells_of_renderMembers ((k, v) :: ms) (by simp) hmembers hkeyed.2 hfloats rest) hkeyed.1

theorem spells_of_renderItems : ∀ (vs : List Json) {cs : List Char}, vs ≠ [] →
    renderItems vs = some cs → KeyedItems vs → FloatsItems Literal vs →
    ∀ rest, Spells (cs ++ rest) (.items vs) rest
  | [], _, h, _, _, _, _ => absurd rfl h
  | [v], cs, _, h, hkeyed, hfloats, rest => by
    unfold renderItems at h
    obtain ⟨item, hitem, h⟩ := Option.bind_eq_some_iff.mp h
    cases h
    rw [List.append_assoc]
    exact .item (.refl _) (spells_of_render v hitem hkeyed.1 hfloats.1 _) (.refl _)
  | v :: v' :: vs, cs, _, h, hkeyed, hfloats, rest => by
    unfold renderItems at h
    obtain ⟨item, hitem, h⟩ := Option.bind_eq_some_iff.mp h
    obtain ⟨items, hitems, h⟩ := Option.bind_eq_some_iff.mp h
    cases h
    rw [List.append_assoc]
    exact .items (.refl _) (spells_of_render v hitem hkeyed.1 hfloats.1 _) (.refl _)
      (spells_of_renderItems (v' :: vs) (by simp) hitems hkeyed.2 hfloats.2 rest)

theorem spells_of_renderMembers : ∀ (ms : List (Text × Json)) {cs : List Char}, ms ≠ [] →
    renderMembers ms = some cs → KeyedMembers ms → FloatsMembers Literal ms →
    ∀ rest, Spells (cs ++ rest) (.members ms) rest
  | [], _, h, _, _, _, _ => absurd rfl h
  | [(k, v)], cs, _, h, hkeyed, hfloats, rest => by
    unfold renderMembers at h
    obtain ⟨key, hkey, h⟩ := Option.bind_eq_some_iff.mp h
    obtain ⟨value, hvalue, h⟩ := Option.bind_eq_some_iff.mp h
    cases h
    obtain ⟨units, rfl, hunits, hjoin⟩ := quote_spec hkey
    have hspelled := Spells.member (.refl _) (hunits _) (.refl _) (.refl _)
      (spells_of_render v hvalue hkeyed.1 hfloats.1 ('\x7d' :: rest)) (.refl _)
    simpa [hjoin] using hspelled
  | (k, v) :: m :: ms, cs, _, h, hkeyed, hfloats, rest => by
    unfold renderMembers at h
    obtain ⟨key, hkey, h⟩ := Option.bind_eq_some_iff.mp h
    obtain ⟨value, hvalue, h⟩ := Option.bind_eq_some_iff.mp h
    obtain ⟨members, hmembers, h⟩ := Option.bind_eq_some_iff.mp h
    cases h
    obtain ⟨units, rfl, hunits, hjoin⟩ := quote_spec hkey
    have hspelled := Spells.members (.refl _) (hunits _) (.refl _) (.refl _)
      (spells_of_render v hvalue hkeyed.1 hfloats.1 (',' :: (members ++ rest))) (.refl _)
      (spells_of_renderMembers (m :: ms) (by simp) hmembers hkeyed.2 hfloats.2 rest)
    simpa [hjoin] using hspelled

end

/-! ## The order of the keys -/

theorem keyedMembers_iff {ms : List (Text × Json)} : KeyedMembers ms ↔ ∀ m ∈ ms, Keyed m.2 := by
  induction ms with
  | nil => simp [KeyedMembers]
  | cons m ms ih => simp [KeyedMembers, ih]

section Floats

variable {p q : List Char → Prop} {vs : List Json} {ms : List (Text × Json)}

theorem floatsItems_iff : FloatsItems p vs ↔ ∀ v ∈ vs, Floats p v := by
  induction vs with
  | nil => simp [FloatsItems]
  | cons v vs ih => simp [FloatsItems, ih]

theorem floatsMembers_iff : FloatsMembers p ms ↔ ∀ m ∈ ms, Floats p m.2 := by
  induction ms with
  | nil => simp [FloatsMembers]
  | cons m ms ih => simp [FloatsMembers, ih]

@[simp] theorem floats_null : Floats p .null := trivial

@[simp] theorem floats_bool (b : Bool) : Floats p (.bool b) := trivial

@[simp] theorem floats_int (n : ℤ) : Floats p (.int n) := trivial

@[simp] theorem floats_float {spelling : List Char} : Floats p (.float spelling) ↔ p spelling :=
  .rfl

@[simp] theorem floats_string (s : Text) : Floats p (.string s) := trivial

@[simp] theorem floats_array : Floats p (.array vs) ↔ ∀ v ∈ vs, Floats p v := floatsItems_iff

@[simp] theorem floats_object : Floats p (.object ms) ↔ ∀ m ∈ ms, Floats p m.2 :=
  floatsMembers_iff

mutual

theorem Floats.imp (h : ∀ spelling, p spelling → q spelling) : ∀ {v : Json}, Floats p v → Floats q v
  | .null, _ | .bool _, _ | .int _, _ | .string _, _ => trivial
  | .float spelling, hv => h spelling hv
  | .array _, hv => FloatsItems.imp h hv
  | .object _, hv => FloatsMembers.imp h hv

theorem FloatsItems.imp (h : ∀ spelling, p spelling → q spelling) :
    ∀ {vs : List Json}, FloatsItems p vs → FloatsItems q vs
  | [], _ => trivial
  | _ :: _, hvs => ⟨hvs.1.imp h, FloatsItems.imp h hvs.2⟩

theorem FloatsMembers.imp (h : ∀ spelling, p spelling → q spelling) :
    ∀ {ms : List (Text × Json)}, FloatsMembers p ms → FloatsMembers q ms
  | [], _ => trivial
  | _ :: _, hms => ⟨hms.1.imp h, FloatsMembers.imp h hms.2⟩

end

end Floats

theorem sortMembers_keys (ms : List (Text × Json)) :
    (sortMembers ms).map Prod.fst = ms.map Prod.fst := by
  induction ms with
  | nil => rfl
  | cons m ms ih => rw [sortMembers, List.map_cons, List.map_cons, ih]

/-- No object in the part has a key twice. -/
def Part.Keyed : Part → Prop
  | .value v => v.Keyed
  | .items vs => KeyedItems vs
  | .members ms => KeyedMembers ms

/-- What a text spells has no key twice. -/
theorem Spells.keyed {text rest : List Char} {part : Part} (h : Spells text part rest) :
    part.Keyed := by
  induction h with
  | nullWord | trueWord | falseWord | string _ | noItems _ => trivial
  | number h =>
    obtain ⟨negative, whole, fr, ex, -, -, -, -, rfl⟩ := h
    unfold numberOf
    split <;> trivial
  | array _ ih => exact ih
  | noMembers _ => exact ⟨List.nodup_nil, trivial⟩
  | object _ hkeys ih => exact ⟨hkeys, ih⟩
  | item _ _ _ ih => exact ⟨ih, trivial⟩
  | items _ _ _ _ ihv ihvs => exact ⟨ihv, ihvs⟩
  | member _ _ _ _ _ _ ih => exact ⟨ih, trivial⟩
  | members _ _ _ _ _ _ _ ihv ihms => exact ⟨ihv, ihms⟩

theorem Document.keyed {text : List Char} {v : Json} (h : Document text v) : Keyed v := by
  obtain ⟨_, _, -, hv, -⟩ := h
  exact hv.keyed

mutual

/-- Keys that are sorted are still distinct. -/
theorem Keyed.sortKeys : ∀ {v : Json}, Keyed v → Keyed v.sortKeys
  | .null, h | .bool _, h | .int _, h | .float _, h | .string _, h => h
  | .array _, h => KeyedItems.sortItems h
  | .object ms, h => by
    have hperm := List.perm_insertionSort (fun m m' : Text × Json ↦ m.1 ≤ m'.1) (sortMembers ms)
    refine ⟨?_, keyedMembers_iff.mpr fun m hm ↦ ?_⟩
    · rw [(hperm.map Prod.fst).nodup_iff, sortMembers_keys]
      exact h.1
    · exact keyedMembers_iff.mp (KeyedMembers.sortMembers h.2) m (hperm.mem_iff.mp hm)

theorem KeyedItems.sortItems : ∀ {vs : List Json}, KeyedItems vs → KeyedItems (sortItems vs)
  | [], h => h
  | _ :: _, h => ⟨h.1.sortKeys, KeyedItems.sortItems h.2⟩

theorem KeyedMembers.sortMembers : ∀ {ms : List (Text × Json)}, KeyedMembers ms →
    KeyedMembers (sortMembers ms)
  | [], h => h
  | _ :: _, h => ⟨h.1.sortKeys, KeyedMembers.sortMembers h.2⟩

end

mutual

theorem Floats.sortKeys {p : List Char → Prop} : ∀ {v : Json}, Floats p v → Floats p v.sortKeys
  | .null, h | .bool _, h | .int _, h | .float _, h | .string _, h => h
  | .array _, h => FloatsItems.sortItems h
  | .object ms, h => by
    have hperm := List.perm_insertionSort (fun m m' : Text × Json ↦ m.1 ≤ m'.1) (sortMembers ms)
    exact floats_object.mpr fun m hm ↦
      floatsMembers_iff.mp (FloatsMembers.sortMembers h) m (hperm.mem_iff.mp hm)

theorem FloatsItems.sortItems {p : List Char → Prop} :
    ∀ {vs : List Json}, FloatsItems p vs → FloatsItems p (sortItems vs)
  | [], h => h
  | _ :: _, h => ⟨h.1.sortKeys, FloatsItems.sortItems h.2⟩

theorem FloatsMembers.sortMembers {p : List Char → Prop} :
    ∀ {ms : List (Text × Json)}, FloatsMembers p ms → FloatsMembers p (sortMembers ms)
  | [], h => h
  | _ :: _, h => ⟨h.1.sortKeys, FloatsMembers.sortMembers h.2⟩

end

/-- What was written is read back, its keys in order. -/
theorem loads?_dumps {v : Json} {cs rest : List Char} (h : dumps v = some cs) (hkeyed : Keyed v)
    (hfloats : Floats Literal v) (hrest : Spaces rest []) :
    loads? (cs ++ rest) = some v.sortKeys :=
  loads?_eq_some.mpr ⟨_, rest, .refl _,
    spells_of_render v.sortKeys h hkeyed.sortKeys hfloats.sortKeys rest, hrest⟩

/-! ## What can be written -/

/-- A text without half a surrogate pair can be written. -/
theorem exists_quote {s : Text} (h : ∀ n ∈ s, n.isValidChar) : ∃ quoted, quote s = some quoted := by
  have hunits : ∃ units, escapes s = some units := by
    induction s with
    | nil => exact ⟨_, rfl⟩
    | cons n s ih =>
      obtain ⟨units, hunits⟩ := ih fun m hm ↦ h m (List.mem_cons_of_mem _ hm)
      obtain ⟨unit, hunit⟩ : ∃ unit, escape n = some unit := by
        unfold escape
        split
        · exact ⟨_, rfl⟩
        · rw [if_pos (h n List.mem_cons_self)]
          split_ifs <;> exact ⟨_, rfl⟩
      exact ⟨unit ++ units, by rw [escapes, hunit, hunits]; rfl⟩
  obtain ⟨units, hunits⟩ := hunits
  exact ⟨'\x22' :: units, by rw [quote, hunits]; rfl⟩

theorem exists_renderMembers {ms : List (Text × Json)}
    (h : ∀ m ∈ ms, (∃ key, quote m.1 = some key) ∧ ∃ value, render m.2 = some value) :
    ∃ cs, renderMembers ms = some cs := by
  induction ms with
  | nil => exact ⟨_, rfl⟩
  | cons m ms ih =>
    obtain ⟨k, v⟩ := m
    obtain ⟨⟨key, hkey⟩, value, hvalue⟩ := h _ List.mem_cons_self
    obtain ⟨cs, hcs⟩ := ih fun m hm ↦ h m (List.mem_cons_of_mem _ hm)
    cases ms with
    | nil => exact ⟨_, by rw [renderMembers, hkey, hvalue]; rfl⟩
    | cons m ms =>
      refine ⟨key ++ ':' :: (value ++ ',' :: cs), ?_⟩
      rw [renderMembers, hkey, hvalue, hcs]
      · rfl
      · simp

/-! ## How long a text is -/

/-- Code points that are written as they are. -/
def Plain (s : Text) : Prop := ∀ n ∈ s, 32 ≤ n ∧ n < 127 ∧ n ≠ 0x22 ∧ n ≠ 0x5c

instance : DecidablePred Plain := fun _ ↦ inferInstanceAs (Decidable (∀ _ ∈ _, _))

theorem escapes_plain {s : Text} (h : Plain s) :
    ∃ units, escapes s = some units ∧ units.length = s.length + 1 := by
  induction s with
  | nil => exact ⟨_, rfl, rfl⟩
  | cons n s ih =>
    obtain ⟨hlow, hhigh, hquote, hbackslash⟩ := h n List.mem_cons_self
    obtain ⟨units, hunits, hlength⟩ := ih fun m hm ↦ h m (List.mem_cons_of_mem _ hm)
    have hshort : shorthand n = none := by
      unfold shorthand
      split <;> first | omega | rfl
    have hunit : escape n = some [Char.ofNat n] := by
      rw [escape, hshort]
      dsimp only
      rw [if_neg (by omega), if_pos (.inl (by omega))]
    refine ⟨Char.ofNat n :: units, ?_, by rw [List.length_cons, List.length_cons, hlength]⟩
    rw [escapes, hunit, hunits]
    rfl

theorem quote_plain {s : Text} (h : Plain s) :
    ∃ quoted, quote s = some quoted ∧ quoted.length = s.length + 2 := by
  obtain ⟨units, hunits, hlength⟩ := escapes_plain h
  refine ⟨'\x22' :: units, ?_, by rw [List.length_cons, hlength]⟩
  rw [quote, hunits]
  rfl

/-- Members that are short make a short text. -/
theorem renderMembers_length {ms : List (Text × Json)} {b : ℕ}
    (h : ∀ m ∈ ms, ∃ key value, quote m.1 = some key ∧ render m.2 = some value ∧
      key.length + value.length + 2 ≤ b) :
    ∃ cs, renderMembers ms = some cs ∧ cs.length ≤ b * ms.length + 1 := by
  induction ms with
  | nil => exact ⟨_, rfl, by simp⟩
  | cons m ms ih =>
    obtain ⟨k, v⟩ := m
    obtain ⟨key, value, hkey, hvalue, hb⟩ := h _ List.mem_cons_self
    obtain ⟨cs, hcs, hlength⟩ := ih fun m hm ↦ h m (List.mem_cons_of_mem _ hm)
    cases ms with
    | nil =>
      refine ⟨key ++ ':' :: (value ++ ['\x7d']), ?_, ?_⟩
      · rw [renderMembers, hkey, hvalue]
        rfl
      · simp only [List.length_append, List.length_cons, List.length_nil]
        omega
    | cons m ms =>
      refine ⟨key ++ ':' :: (value ++ ',' :: cs), ?_, ?_⟩
      · rw [renderMembers, hkey, hvalue, hcs]
        · rfl
        · simp
      · simp only [List.length_append, List.length_cons, Nat.mul_add] at hlength ⊢
        omega

theorem sortMembers_eq_map (ms : List (Text × Json)) :
    sortMembers ms = ms.map fun m ↦ (m.1, m.2.sortKeys) := by
  induction ms with
  | nil => rfl
  | cons m ms ih => rw [sortMembers, List.map_cons, ih]

/-- The value is written in at most so many characters. -/
def WrittenIn (v : Json) (b : ℕ) : Prop := ∃ cs, dumps v = some cs ∧ cs.length ≤ b

theorem WrittenIn.mono {v : Json} {b b' : ℕ} (h : WrittenIn v b) (hb : b ≤ b') :
    WrittenIn v b' := by
  obtain ⟨cs, hcs, hlength⟩ := h
  exact ⟨cs, hcs, hlength.trans hb⟩

theorem writtenIn_string {s : Text} (h : Plain s) : WrittenIn (.string s) (s.length + 2) := by
  obtain ⟨quoted, hquoted, hlength⟩ := quote_plain h
  exact ⟨quoted, hquoted, hlength.le⟩

theorem writtenIn_int {n : ℤ} {b : ℕ} (hn : 0 ≤ n) (hb : 0 < b) (h : n < 10 ^ b) :
    WrittenIn (.int n) b := by
  obtain ⟨k, rfl⟩ := Int.eq_ofNat_of_zero_le hn
  refine ⟨decimal k, rfl, ?_⟩
  have hsign : decide ((k : ℤ) < 0) = false := decide_eq_false (by omega)
  rw [decimal, hsign, minus, if_neg (by simp), List.nil_append, Int.natAbs_natCast,
    Nat.length_toDigits_le_iff (by decide) hb]
  exact_mod_cast h

/-- An object is written if its members are, and is short if they are. -/
theorem writtenIn_object {ms : List (Text × Json)} {a b : ℕ}
    (h : ∀ m ∈ ms, Plain m.1 ∧ m.1.length ≤ a ∧ WrittenIn m.2 b) :
    WrittenIn (.object ms) ((a + b + 4) * ms.length + 2) := by
  have hperm := List.perm_insertionSort (fun m m' : Text × Json ↦ m.1 ≤ m'.1) (sortMembers ms)
  have hmembers : ∀ m ∈ (sortMembers ms).insertionSort (fun m m' ↦ m.1 ≤ m'.1),
      ∃ key value, quote m.1 = some key ∧ render m.2 = some value ∧
        key.length + value.length + 2 ≤ a + b + 4 := by
    intro m hm
    rw [hperm.mem_iff, sortMembers_eq_map] at hm
    obtain ⟨m', hm', rfl⟩ := List.mem_map.mp hm
    obtain ⟨hplain, hkey, value, hvalue, hlength⟩ := h m' hm'
    obtain ⟨key, hquoted, hquotes⟩ := quote_plain hplain
    exact ⟨key, value, hquoted, hvalue, by omega⟩
  obtain ⟨cs, hcs, hlength⟩ := renderMembers_length hmembers
  rw [List.length_insertionSort, sortMembers_eq_map, List.length_map] at hlength
  refine ⟨'\x7b' :: cs, ?_, by rw [List.length_cons]; omega⟩
  rw [dumps, sortKeys, render, hcs]
  rfl

end Conjectures.Lib.Json
