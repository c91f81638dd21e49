import Conjectures.Lib.JsonWriter

/-!
# JSON in bytes

Texts are exchanged in UTF-8.  No JSON text holds a NUL, so no NUL byte is found in one.

Decoding takes exactly what encoding writes (`decode?_eq_some`).  A text is a list of characters,
none of which is half a surrogate pair.
-/

namespace Conjectures.Lib.Json

/-! ## UTF-8 -/

def encode (cs : List Char) : ByteArray := (String.ofList cs).toUTF8

/-- Strict decoding: no surrogates, and no spelling longer than it must be. -/
def decode? (raw : ByteArray) : Option (List Char) := raw.utf8Decode?.map Array.toList

theorem encode_eq (cs : List Char) : encode cs = cs.utf8Encode := by
  rw [encode, String.toUTF8_eq_toByteArray, String.toByteArray_ofList]

theorem decode?_eq_some {raw : ByteArray} {cs : List Char} :
    decode? raw = some cs ↔ raw = encode cs := by
  rw [encode_eq]
  constructor
  · intro h
    obtain ⟨chars, hchars, rfl⟩ := Option.map_eq_some_iff.mp h
    have hsome : raw.utf8Decode?.isSome := by rw [hchars]; rfl
    have hraw := @ByteArray.utf8Encode_get_utf8Decode? raw hsome
    simp only [hchars, Option.get_some] at hraw
    exact hraw.symm
  · rintro rfl
    rw [decode?, List.utf8Decode?_utf8Encode]
    rfl

theorem size_encode_le (cs : List Char) : (encode cs).size ≤ 4 * cs.length := by
  rw [encode_eq]
  induction cs with
  | nil => simp
  | cons c cs ih =>
    rw [List.utf8Encode_cons, ByteArray.size_append, List.utf8Encode_singleton]
    have hc : (String.utf8EncodeChar c).toByteArray.size ≤ 4 := by
      simpa using c.utf8Size_le_four
    rw [List.length_cons]
    omega

theorem eq_zero_of_byte {n : ℕ} (h : 0 = UInt8.ofNat n) (hn : n < 256) : n = 0 := by
  have hbyte := congrArg UInt8.toNat h
  rw [UInt8.toNat_ofNat', Nat.mod_eq_of_lt hn] at hbyte
  exact hbyte.symm

/-- The first byte of a longer spelling and every further byte carry a mark. -/
theorem eq_nul_of_mem {c : Char} (h : 0 ∈ String.utf8EncodeChar c) : c = '\x00' := by
  unfold String.utf8EncodeChar at h
  dsimp only at h
  have hmarked : ∀ {n m : ℕ}, 0 < m → m ≤ 0xf0 → n < 256 - m → 0 ≠ UInt8.ofNat (n + m) := by
    intro n m hm _ hn heq
    have := eq_zero_of_byte heq (by omega)
    omega
  split_ifs at h
  · have hzero := eq_zero_of_byte (List.mem_singleton.mp h) (by omega)
    exact Char.toNat_inj.mp hzero
  · simp only [List.mem_cons, List.not_mem_nil, or_false] at h
    rcases h with h | h <;> exact absurd h (hmarked (by omega) (by omega) (by omega))
  · simp only [List.mem_cons, List.not_mem_nil, or_false] at h
    rcases h with h | h | h <;> exact absurd h (hmarked (by omega) (by omega) (by omega))
  · simp only [List.mem_cons, List.not_mem_nil, or_false] at h
    rcases h with h | h | h | h <;> exact absurd h (hmarked (by omega) (by omega) (by omega))

theorem nul_mem_of_encode {cs : List Char} (h : 0 ∈ (encode cs).data) : '\x00' ∈ cs := by
  rw [encode_eq, List.utf8Encode, List.data_toByteArray, List.mem_toArray, List.mem_flatMap] at h
  obtain ⟨c, hc, h⟩ := h
  rwa [eq_nul_of_mem h] at hc

/-! ## No NUL in a document -/

theorem Spaces.no_nul {text rest : List Char} (h : Spaces text rest) (hrest : '\x00' ∉ rest) :
    '\x00' ∉ text := by
  obtain ⟨spaces, hspaces, rfl⟩ := h
  intro hmem
  rcases List.mem_append.mp hmem with hmem | hmem
  · exact absurd (hspaces _ hmem) (by decide)
  · exact hrest hmem

theorem Digits.no_nul {run : List Char} (h : ∀ c ∈ run, c.isDigit = true) : '\x00' ∉ run :=
  fun hmem ↦ absurd (h _ hmem) (by decide)

theorem Number.no_nul {number : List Char} {v : Json} (h : Number number v) :
    '\x00' ∉ number := by
  obtain ⟨negative, whole, fr, ex, hwhole, hfr, hex, rfl, -⟩ := h
  have hsign : '\x00' ∉ minus negative := by cases negative <;> decide
  have hfraction : '\x00' ∉ fr := by
    rcases hfr with rfl | ⟨digits, hdigits, rfl⟩
    · simp
    · simpa using Digits.no_nul hdigits.digits
  have hexponent : '\x00' ∉ ex := by
    rcases hex with rfl | ⟨e, sign, digits, he, hs, hdigits, rfl⟩
    · simp
    · have := Digits.no_nul hdigits.digits
      rcases he with rfl | rfl <;> rcases hs with rfl | rfl | rfl <;> simpa using this
  simp only [List.mem_append, not_or]
  exact ⟨hsign, Digits.no_nul hwhole.digits, hfraction, hexponent⟩

theorem nul_not_hex {c : Char} {n : ℕ} (h : hexValue c = some n) : c ≠ '\x00' := by
  rintro rfl
  cases h

theorem Units.no_nul {text rest : List Char} {s : Text} (h : Units text s rest)
    (hrest : '\x00' ∉ rest) : '\x00' ∉ text := by
  induction h with
  | close => simpa using hrest
  | plain _ _ hcontrol _ ih =>
    rw [List.mem_cons, not_or]
    refine ⟨?_, ih hrest⟩
    rintro rfl
    exact absurd hcontrol (by decide)
  | escape hc _ ih =>
    simp only [List.mem_cons, not_or]
    refine ⟨by decide, ?_, ih hrest⟩
    rintro rfl
    cases hc
  | unicode hn _ ih =>
    simp only [hex4?, Option.bind_eq_bind, Option.bind_eq_some_iff] at hn
    obtain ⟨_, ha, _, hb, _, hc, _, hd, -⟩ := hn
    simp only [List.mem_cons, not_or]
    exact ⟨by decide, by decide, (nul_not_hex ha).symm, (nul_not_hex hb).symm,
      (nul_not_hex hc).symm, (nul_not_hex hd).symm, ih hrest⟩

theorem Spells.no_nul {text rest : List Char} {part : Part} (h : Spells text part rest)
    (hrest : '\x00' ∉ rest) : '\x00' ∉ text := by
  have hcons : ∀ {c : Char} {text : List Char}, c ≠ '\x00' → '\x00' ∉ text →
      '\x00' ∉ c :: text := fun hc htext ↦ List.not_mem_cons_of_ne_of_not_mem hc.symm htext
  induction h with
  | nullWord => simpa using hrest
  | trueWord => simpa using hrest
  | falseWord => simpa using hrest
  | number h =>
    rw [List.mem_append, not_or]
    exact ⟨h.no_nul, hrest⟩
  | string h => exact hcons (by decide) (h.no_nul hrest)
  | noItems h | noMembers h => exact hcons (by decide) (h.no_nul (hcons (by decide) hrest))
  | array _ ih => exact hcons (by decide) (ih hrest)
  | object _ _ ih => exact hcons (by decide) (ih hrest)
  | item h _ h' ih => exact h.no_nul (ih (h'.no_nul (hcons (by decide) hrest)))
  | items h _ h' _ ihv ihvs =>
    exact h.no_nul (ihv (h'.no_nul (hcons (by decide) (ihvs hrest))))
  | member h hk hcolon hspace _ h' ih =>
    have hvalue := hspace.no_nul (ih (h'.no_nul (hcons (by decide) hrest)))
    exact h.no_nul (hcons (by decide) (hk.no_nul (hcolon.no_nul (hcons (by decide) hvalue))))
  | members h hk hcolon hspace _ h' _ ihv ihms =>
    have hvalue := hspace.no_nul (ihv (h'.no_nul (hcons (by decide) (ihms hrest))))
    exact h.no_nul (hcons (by decide) (hk.no_nul (hcolon.no_nul (hcons (by decide) hvalue))))

theorem Document.no_nul {text : List Char} {v : Json} (h : Document text v) :
    '\x00' ∉ text := by
  obtain ⟨text₁, text₂, hbefore, hv, hafter⟩ := h
  exact hbefore.no_nul (hv.no_nul (hafter.no_nul (by simp)))

/-- The bytes of a document hold no NUL. -/
theorem Document.no_nul_byte {text : List Char} {v : Json} (h : Document text v) :
    0 ∉ (encode text).data := fun hmem ↦ h.no_nul (nul_mem_of_encode hmem)

end Conjectures.Lib.Json
