import Conjectures.Lib.JsonBytes
import Conjectures.Lib.JsonReader

/-!
# The depth of a document

How deep the arrays and objects of a value are nested, and that the bytes of a document are a JSON
text of that depth.

A scalar has depth zero.  Brackets inside strings do not count, so the depth is that of the value,
carried to the bytes through the grammar.
-/

namespace Conjectures.Lib.Json

open JsonReader (Nested)

/-! ## Depth -/

mutual

/-- How deep the arrays and objects of a value are nested. -/
def depth : Json → ℕ
  | .array vs => depthItems vs + 1
  | .object ms => depthMembers ms + 1
  | _ => 0

def depthItems : List Json → ℕ
  | [] => 0
  | v :: vs => max (depth v) (depthItems vs)

def depthMembers : List (Text × Json) → ℕ
  | [] => 0
  | (_, v) :: ms => max (depth v) (depthMembers ms)

end

def Part.depth : Part → ℕ
  | .value v => Json.depth v
  | .items vs => depthItems vs
  | .members ms => depthMembers ms

/-- A part, whatever it holds. -/
def Part.shape : Part → JsonReader.Part
  | .value _ => .value
  | .items _ => .items
  | .members _ => .members

/-! ## The bytes of tokens -/

/-- The bytes of a text. -/
def utf8 (cs : List Char) : List UInt8 := cs.flatMap String.utf8EncodeChar

theorem data_encode (cs : List Char) : (encode cs).data.toList = utf8 cs := by
  rw [encode_eq, List.utf8Encode, List.data_toByteArray, utf8]

theorem utf8_append (cs cs' : List Char) : utf8 (cs ++ cs') = utf8 cs ++ utf8 cs' :=
  List.flatMap_append

theorem utf8EncodeChar_ascii {c : Char} (h : c.toNat < 128) :
    String.utf8EncodeChar c = [UInt8.ofNat c.toNat] := by
  unfold String.utf8EncodeChar
  dsimp only
  exact if_pos (Nat.le_of_lt_succ h)

theorem utf8_cons_ascii {c : Char} {cs : List Char} (h : c.toNat < 128) :
    utf8 (c :: cs) = UInt8.ofNat c.toNat :: utf8 cs := by
  rw [utf8, List.flatMap_cons, utf8EncodeChar_ascii h]
  rfl

/-- Every byte of a longer spelling carries a mark. -/
theorem le_of_mem_utf8EncodeChar {c : Char} (hc : 128 ≤ c.toNat) :
    ∀ b ∈ String.utf8EncodeChar c, 128 ≤ b := by
  intro b h
  unfold String.utf8EncodeChar at h
  dsimp only at h
  rw [UInt8.le_iff_toNat_le]
  split_ifs at h
  · exact absurd hc (by change ¬ 128 ≤ c.val.toNat; omega)
  all_goals simp only [List.mem_cons, List.not_mem_nil, or_false] at h
  · rcases h with rfl | rfl <;> simp [UInt8.toNat_ofNat'] <;> omega
  · rcases h with rfl | rfl | rfl <;> simp [UInt8.toNat_ofNat'] <;> omega
  · rcases h with rfl | rfl | rfl | rfl <;> simp [UInt8.toNat_ofNat'] <;> omega

theorem spaces_bytes {text rest : List Char} (h : Spaces text rest) :
    ∃ s, JsonReader.Spaces s ∧ utf8 text = s ++ utf8 rest := by
  obtain ⟨spaces, hspaces, rfl⟩ := h
  refine ⟨utf8 spaces, fun b hb ↦ ?_, utf8_append _ _⟩
  obtain ⟨c, hc, hb⟩ := List.mem_flatMap.mp hb
  have hspace := hspaces c hc
  simp only [isSpace, Bool.or_eq_true, decide_eq_true_eq] at hspace
  rcases hspace with ((rfl | rfl) | rfl) | rfl <;> (cases List.mem_singleton.mp hb; rfl)

theorem isDigit_byte {c : Char} (h : c.isDigit = true) :
    String.utf8EncodeChar c = [UInt8.ofNat c.toNat] ∧
      JsonReader.isDigit (UInt8.ofNat c.toNat) = true := by
  have hc : 48 ≤ c.toNat ∧ c.toNat ≤ 57 := by
    simpa [Char.isDigit, UInt32.le_iff_toNat_le] using h
  refine ⟨utf8EncodeChar_ascii (by omega), ?_⟩
  simp only [JsonReader.isDigit, Bool.and_eq_true, decide_eq_true_eq, UInt8.le_iff_toNat_le,
    UInt8.toNat_ofNat']
  simp
  omega

theorem digits_bytes {run : List Char} (hne : run ≠ []) (h : ∀ c ∈ run, c.isDigit = true) :
    JsonReader.Digits (utf8 run) := by
  constructor
  · obtain ⟨c, cs, rfl⟩ := List.exists_cons_of_ne_nil hne
    rw [utf8, List.flatMap_cons, (isDigit_byte (h c List.mem_cons_self)).1]
    simp
  · intro b hb
    obtain ⟨c, hc, hb⟩ := List.mem_flatMap.mp hb
    rw [(isDigit_byte (h c hc)).1] at hb
    rw [List.mem_singleton.mp hb]
    exact (isDigit_byte (h c hc)).2

theorem whole_bytes {run : List Char} (h : Whole run) : JsonReader.Whole (utf8 run) := by
  by_cases hzero : run = ['0']
  · exact .inl (by rw [hzero]; rfl)
  · refine .inr ⟨digits_bytes h.nonempty h.digits, fun hhead ↦ hzero (h.noLeadingZero ?_)⟩
    obtain ⟨c, cs, rfl⟩ := List.exists_cons_of_ne_nil h.nonempty
    have hc := h.digits c List.mem_cons_self
    rw [utf8, List.flatMap_cons, (isDigit_byte hc).1] at hhead
    have hbyte : UInt8.ofNat c.toNat = 48 := Option.some.inj hhead
    have hnat : c.toNat = 48 := by
      have hc : c.toNat ≤ 57 := by
        have : 48 ≤ c.toNat ∧ c.toNat ≤ 57 := by
          simpa [Char.isDigit, UInt32.le_iff_toNat_le] using hc
        exact this.2
      have := congrArg UInt8.toNat hbyte
      simp [UInt8.toNat_ofNat'] at this
      omega
    exact congrArg some (Char.toNat_inj.mp hnat)

theorem number_bytes {number : List Char} {v : Json} (h : Number number v) :
    JsonReader.Number (utf8 number) := by
  obtain ⟨negative, whole, fr, ex, hwhole, hfr, hex, rfl, -⟩ := h
  refine ⟨utf8 (minus negative), utf8 whole, utf8 fr, utf8 ex, ?_, whole_bytes hwhole, ?_, ?_, ?_⟩
  · cases negative
    · exact .inl rfl
    · exact .inr rfl
  · rcases hfr with rfl | ⟨digits, hdigits, rfl⟩
    · exact .inl rfl
    · exact .inr ⟨_, digits_bytes hdigits.nonempty hdigits.digits, utf8_cons_ascii (by decide)⟩
  · rcases hex with rfl | ⟨e, sign, digits, he, hsign, hdigits, rfl⟩
    · exact .inl rfl
    · refine .inr ⟨UInt8.ofNat e.toNat, utf8 sign, utf8 digits, ?_, ?_,
        digits_bytes hdigits.nonempty hdigits.digits, ?_⟩
      · rcases he with rfl | rfl
        · exact .inl rfl
        · exact .inr rfl
      · rcases hsign with rfl | rfl | rfl
        · exact .inl rfl
        · exact .inr (.inl rfl)
        · exact .inr (.inr rfl)
      · rw [utf8_cons_ascii (by rcases he with rfl | rfl <;> decide), utf8_append]
  · simp only [utf8_append]

/-! ### Strings -/

theorem toNat_ofNat_ascii {n : ℕ} (h : n < 128) : (UInt8.ofNat n).toNat = n := by
  rw [UInt8.toNat_ofNat', Nat.mod_eq_of_lt (by omega)]

/-- A byte of a character that stands for itself in a string. -/
theorem plain_bytes {c : Char} (hquote : c ≠ '\x22') (hbackslash : c ≠ '\x5c')
    (hcontrol : 32 ≤ c.toNat) : ∀ b ∈ String.utf8EncodeChar c, b ≠ 34 ∧ b ≠ 92 ∧ 32 ≤ b := by
  intro b hb
  simp only [UInt8.le_iff_toNat_le, ne_eq, ← UInt8.toNat_inj]
  by_cases hc : c.toNat < 128
  · rw [utf8EncodeChar_ascii hc, List.mem_singleton] at hb
    subst hb
    rw [toNat_ofNat_ascii hc]
    exact ⟨fun h ↦ hquote (Char.toNat_inj.mp h), fun h ↦ hbackslash (Char.toNat_inj.mp h), hcontrol⟩
  · have hmarked : 128 ≤ b.toNat :=
      UInt8.le_iff_toNat_le.mp (le_of_mem_utf8EncodeChar (Nat.le_of_not_lt hc) b hb)
    simp
    omega

theorem quoted_append {bs k : List UInt8} (h : ∀ b ∈ bs, b ≠ 34 ∧ b ≠ 92 ∧ 32 ≤ b)
    (hk : JsonReader.Quoted k) : JsonReader.Quoted (bs ++ k) := by
  induction bs with
  | nil => exact hk
  | cons b bs ih =>
    obtain ⟨hquote, hbackslash, hcontrol⟩ := h b List.mem_cons_self
    exact .plain hquote hbackslash hcontrol (ih fun b hb ↦ h b (List.mem_cons_of_mem _ hb))

theorem escaped_byte {c : Char} {n : ℕ} (h : escaped c = some n) :
    c.toNat < 128 ∧ JsonReader.isEscape (UInt8.ofNat c.toNat) = true := by
  unfold escaped at h
  split at h <;> first | exact ⟨by decide, rfl⟩ | cases h

theorem hex_byte {c : Char} {n : ℕ} (h : hexValue c = some n) :
    c.toNat < 128 ∧ JsonReader.isHex (UInt8.ofNat c.toNat) = true := by
  have hc : c.toNat < 128 := by
    unfold hexValue at h
    split_ifs at h <;> omega
  refine ⟨hc, ?_⟩
  simp only [JsonReader.isHex, JsonReader.isDigit, Bool.or_eq_true, Bool.and_eq_true,
    decide_eq_true_eq, UInt8.le_iff_toNat_le, toNat_ofNat_ascii hc]
  unfold hexValue at h
  simp
  split_ifs at h <;> omega

theorem units_bytes {text rest : List Char} {s : Text} (h : Units text s rest) :
    ∃ k, JsonReader.Quoted k ∧ utf8 text = k ++ utf8 rest := by
  induction h with
  | close => exact ⟨[34], .close, utf8_cons_ascii (by decide)⟩
  | @plain c _ _ _ hquote hbackslash hcontrol _ ih =>
    obtain ⟨k, hk, htext⟩ := ih
    refine ⟨String.utf8EncodeChar c ++ k,
      quoted_append (plain_bytes hquote hbackslash hcontrol) hk, ?_⟩
    rw [utf8, List.flatMap_cons, List.append_assoc, ← htext, utf8]
  | escape hc _ ih =>
    obtain ⟨k, hk, htext⟩ := ih
    obtain ⟨hascii, hescape⟩ := escaped_byte hc
    refine ⟨_, .escape hescape hk, ?_⟩
    rw [utf8_cons_ascii (by decide), utf8_cons_ascii hascii, htext]
    rfl
  | @unicode a b c d _ _ _ _ hn _ ih =>
    obtain ⟨k, hk, htext⟩ := ih
    simp only [hex4?, Option.bind_eq_bind, Option.bind_eq_some_iff] at hn
    obtain ⟨_, ha, _, hb, _, hc, _, hd, -⟩ := hn
    have hdigits : ∀ x ∈ [a, b, c, d].map fun c ↦ UInt8.ofNat c.toNat,
        JsonReader.isHex x = true := by
      simpa using ⟨(hex_byte ha).2, (hex_byte hb).2, (hex_byte hc).2, (hex_byte hd).2⟩
    refine ⟨_, .unicode (by simp) hdigits hk, ?_⟩
    rw [utf8_cons_ascii (by decide), utf8_cons_ascii (by decide), utf8_cons_ascii (hex_byte ha).1,
      utf8_cons_ascii (hex_byte hb).1, utf8_cons_ascii (hex_byte hc).1,
      utf8_cons_ascii (hex_byte hd).1, htext]
    rfl

/-! ## The bytes of a document -/

/-- What is spelled is nested as deep as what it stands for. -/
theorem nested_of_spells {text rest : List Char} {part : Part} (h : Spells text part rest) :
    ∃ bs, JsonReader.Nested part.shape part.depth bs ∧ utf8 text = bs ++ utf8 rest := by
  induction h with
  | nullWord => exact ⟨_, .word .null, by simp [utf8]; rfl⟩
  | trueWord => exact ⟨_, .word .true, by simp [utf8]; rfl⟩
  | falseWord => exact ⟨_, .word .false, by simp [utf8]; rfl⟩
  | number h =>
    refine ⟨_, ?_, utf8_append _ _⟩
    obtain ⟨negative, whole, fr, ex, -, -, -, -, rfl⟩ := id h
    have hdepth : depth (numberOf negative whole fr ex) = 0 := by
      unfold numberOf
      split <;> simp [depth]
    simpa only [Part.shape, Part.depth, hdepth] using Nested.number (number_bytes h)
  | string h =>
    obtain ⟨k, hk, htext⟩ := units_bytes h
    refine ⟨34 :: k, by simpa [Part.shape, Part.depth, depth] using Nested.string hk, ?_⟩
    rw [utf8_cons_ascii (by decide), htext]
    rfl
  | noItems h =>
    obtain ⟨s, hs, htext⟩ := spaces_bytes h
    refine ⟨91 :: (s ++ [93]), .noItems hs, ?_⟩
    rw [utf8_cons_ascii (by decide), htext, utf8_cons_ascii (by decide)]
    simp
  | array _ ih =>
    obtain ⟨bs, hbs, htext⟩ := ih
    refine ⟨91 :: bs, .array hbs, ?_⟩
    rw [utf8_cons_ascii (by decide), htext]
    rfl
  | noMembers h =>
    obtain ⟨s, hs, htext⟩ := spaces_bytes h
    refine ⟨123 :: (s ++ [125]), .noMembers hs, ?_⟩
    rw [utf8_cons_ascii (by decide), htext, utf8_cons_ascii (by decide)]
    simp
  | object _ _ ih =>
    obtain ⟨bs, hbs, htext⟩ := ih
    refine ⟨123 :: bs, .object hbs, ?_⟩
    rw [utf8_cons_ascii (by decide), htext]
    rfl
  | item h _ h' ih =>
    obtain ⟨s, hs, htext⟩ := spaces_bytes h
    obtain ⟨v, hv, htext₁⟩ := ih
    obtain ⟨s', hs', htext₂⟩ := spaces_bytes h'
    refine ⟨_, by simpa [Part.shape, Part.depth, depthItems] using Nested.item hs hv hs', ?_⟩
    rw [htext, htext₁, htext₂, utf8_cons_ascii (by decide)]
    simp
  | items h _ h' _ ih ihs =>
    obtain ⟨s, hs, htext⟩ := spaces_bytes h
    obtain ⟨v, hv, htext₁⟩ := ih
    obtain ⟨s', hs', htext₂⟩ := spaces_bytes h'
    obtain ⟨vs, hvs, htext₃⟩ := ihs
    refine ⟨_, .items hs hv hs' hvs, ?_⟩
    rw [htext, htext₁, htext₂, utf8_cons_ascii (by decide), htext₃]
    simp
  | member h hk hcolon hspace _ h' ih =>
    obtain ⟨s, hs, htext⟩ := spaces_bytes h
    obtain ⟨k, hk, htext₁⟩ := units_bytes hk
    obtain ⟨s₁, hs₁, htext₂⟩ := spaces_bytes hcolon
    obtain ⟨s₂, hs₂, htext₃⟩ := spaces_bytes hspace
    obtain ⟨v, hv, htext₄⟩ := ih
    obtain ⟨s', hs', htext₅⟩ := spaces_bytes h'
    refine ⟨_, by simpa [Part.shape, Part.depth, depthMembers] using
      Nested.member hs hk hs₁ hs₂ hv hs', ?_⟩
    rw [htext, utf8_cons_ascii (by decide), htext₁, htext₂, utf8_cons_ascii (by decide), htext₃,
      htext₄, htext₅, utf8_cons_ascii (by decide)]
    simp
  | members h hk hcolon hspace _ h' _ ih ihs =>
    obtain ⟨s, hs, htext⟩ := spaces_bytes h
    obtain ⟨k, hk, htext₁⟩ := units_bytes hk
    obtain ⟨s₁, hs₁, htext₂⟩ := spaces_bytes hcolon
    obtain ⟨s₂, hs₂, htext₃⟩ := spaces_bytes hspace
    obtain ⟨v, hv, htext₄⟩ := ih
    obtain ⟨s', hs', htext₅⟩ := spaces_bytes h'
    obtain ⟨ms, hms, htext₆⟩ := ihs
    refine ⟨_, .members hs hk hs₁ hs₂ hv hs' hms, ?_⟩
    rw [htext, utf8_cons_ascii (by decide), htext₁, htext₂, utf8_cons_ascii (by decide), htext₃,
      htext₄, htext₅, utf8_cons_ascii (by decide), htext₆]
    simp

/-- The bytes of a document are a JSON text, as deep as its value. -/
theorem Document.jsonText {text : List Char} {v : Json} (h : Document text v) :
    JsonReader.JsonText v.depth (utf8 text) := by
  obtain ⟨text₁, text₂, hbefore, hv, hafter⟩ := h
  obtain ⟨s, hs, htext⟩ := spaces_bytes hbefore
  obtain ⟨bs, hbs, htext₁⟩ := nested_of_spells hv
  obtain ⟨s', hs', htext₂⟩ := spaces_bytes hafter
  refine ⟨s, bs, s', hs, hbs, hs', ?_⟩
  rw [htext, htext₁, htext₂]
  simp [utf8]

end Conjectures.Lib.Json
