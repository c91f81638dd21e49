import Conjectures.Api.Forwarding
import Conjectures.Lib.JsonBytes
import Conjectures.Lib.Numerals

/-!
# The parts of a cursor

The texts of integers and of UUIDs, and how `int` and `uuid.UUID` read them.

Both readers take more than is ever written: digits of other scripts, underscores between digits and
spaces around a number, and for a UUID braces, hyphens and prefixes.  What is written is read back
whatever else is read (`int?_decimal`, `uuid?_uuidText`).
-/

namespace Conjectures.Feeds

open Lib
open Api (trim)
open Db (IsSpace)

/-! ## Integers -/

/-- Digits of a base, with single underscores between them. -/
def digits? (base : ℕ) (value : Char → Option ℕ) (text : List Char) : Option ℕ :=
  if (text.splitOn '_').all fun group ↦
      group ≠ [] ∧ group.all fun c ↦ (value c).getD base < base then
    some ((text.filter (· ≠ '_')).foldl (fun n c ↦ base * n + (value c).getD 0) 0)
  else none

def negate (negative : Bool) (n : ℕ) : ℤ := if negative then -n else n

/-- `int(text)` -/
def int? (u : Decimals) (text : List Char) : Option ℤ :=
  let (negative, digits) := signed (trim text)
  (digits? 10 u.value digits).map (negate negative)

/-- The digits of base 16, of every script as far as they are decimal. -/
def hexDigit (u : Decimals) (c : Char) : Option ℕ :=
  match Json.hexValue c with
  | some n => some n
  | none => u.value c

/-- Behind `0x`, and an underscore after it. -/
def hexPrefix : List Char → List Char
  | '0' :: c :: text =>
    if c = 'x' ∨ c = 'X' then if text.head? = some '_' then text.tail else text
    else '0' :: c :: text
  | text => text

/-- `int(text, 16)` -/
def hexInt? (u : Decimals) (text : List Char) : Option ℤ :=
  let (negative, digits) := signed (trim text)
  (digits? 16 (hexDigit u) (hexPrefix digits)).map (negate negative)

/-! ## UUIDs -/

/-- The text without the occurrences of a word, searched from the left; so many characters of
one remain to be passed over. -/
def removeFrom (word : List Char) : ℕ → List Char → List Char
  | _, [] => []
  | n + 1, _ :: text => removeFrom word n text
  | 0, c :: text =>
    if word <+: c :: text then removeFrom word (word.length - 1) text
    else c :: removeFrom word 0 text

/-- `str.replace(word, "")` -/
def remove (word text : List Char) : List Char := removeFrom word 0 text

/-- The `int` of a UUID. -/
abbrev UuidInt := Fin (2 ^ 128)

/-- `'%032x' % self.int` -/
def uuidHex (id : UuidInt) : List Char := (Nat.toDigits 16 id.val).leftpad 32 '0'

/-- `str(uuid)` -/
def uuidText (id : UuidInt) : List Char :=
  let hex := uuidHex id
  ['-'].intercalate [hex.take 8, (hex.drop 8).take 4, (hex.drop 12).take 4, (hex.drop 16).take 4,
    hex.drop 20]

def isBrace (c : Char) : Bool := c = '\x7b' || c = '\x7d'

/-- `uuid.UUID(text)` -/
def uuid? (u : Decimals) (text : List Char) : Option UuidInt :=
  let hex := remove "uuid:".toList (remove "urn:".toList text)
  let hex := ((hex.dropWhile isBrace).rdropWhile isBrace).filter (· ≠ '-')
  if hex.length ≠ 32 then none
  else
    match hexInt? u hex with
    | none => none
    | some n => if h : 0 ≤ n ∧ n < 2 ^ 128 then some ⟨n.toNat, by omega⟩ else none

/-! ## What is read back -/

theorem trim_eq_self {text : List Char} (h : ∀ c ∈ text, ¬ IsSpace c) : trim text = text := by
  have hstrip := @Db.strip_eq_self (String.ofList text) (by simpa using h)
  rw [Db.strip, String.toList_ofList] at hstrip
  exact String.ofList_injective hstrip

theorem digits?_eq {base : ℕ} {value : Char → Option ℕ} {text : List Char} (hne : text ≠ [])
    (h : ∀ c ∈ text, c ≠ '_' ∧ ∃ n < base, value c = some n) :
    digits? base value text = some (text.foldl (fun n c ↦ base * n + (value c).getD 0) 0) := by
  have hsplit : text.splitOn '_' = [text] :=
    List.splitOn_eq_singleton fun hmem ↦ (h _ hmem).1 rfl
  have hfilter : text.filter (· ≠ '_') = text :=
    List.filter_eq_self.mpr fun c hc ↦ decide_eq_true (h c hc).1
  have hall : text.all (fun c ↦ decide ((value c).getD base < base)) = true := by
    refine List.all_eq_true.mpr fun c hc ↦ ?_
    obtain ⟨-, n, hn, hvalue⟩ := h c hc
    rw [hvalue]
    exact decide_eq_true hn
  rw [digits?, hsplit, hfilter, List.all_cons, List.all_nil, Bool.and_true,
    if_pos (decide_eq_true ⟨hne, hall⟩)]

theorem signed_of_head {c : Char} (text : List Char) (hminus : c ≠ '-') (hplus : c ≠ '+') :
    signed (c :: text) = (false, c :: text) := by
  unfold signed
  split
  next heq => exact absurd (List.cons.inj heq).1 hminus
  next heq => exact absurd (List.cons.inj heq).1 hplus
  next => rfl

theorem digit_toDigits {u : Decimals} {n : ℕ} {c : Char} (h : c ∈ Nat.toDigits 10 n) :
    c ≠ '_' ∧ c ≠ '-' ∧ c ≠ '+' ∧ ¬ IsSpace c ∧ ∃ d < 10, u.value c = some d := by
  have hdigit := Decimals.isDigit_toDigits h
  have hvalue := Decimals.value_of_isDigit (u := u) hdigit
  refine ⟨?_, ?_, ?_, Db.not_isSpace_of_isDigit hdigit, _, u.value_lt hvalue, hvalue⟩
  all_goals
    rintro rfl
    exact absurd hdigit (by decide)

/-- An integer is read back from its text. -/
theorem int?_decimal {u : Decimals} (n : ℤ) : int? u (Json.decimal n) = some n := by
  have hdigits := @digits?_eq 10 u.value _ (Nat.toDigits_ne_nil (n := n.natAbs) (b := 10))
    fun c hc ↦ ⟨(digit_toDigits (u := u) hc).1, (digit_toDigits hc).2.2.2.2⟩
  have hint : (Nat.toDigits 10 n.natAbs).foldl (fun n c ↦ 10 * n + (u.value c).getD 0) 0 =
      n.natAbs := Decimals.int_toDigits n.natAbs
  rw [hint] at hdigits
  have htrim : trim (Json.decimal n) = Json.decimal n := by
    refine trim_eq_self fun c hc ↦ ?_
    rcases List.mem_append.mp hc with hc | hc
    · unfold Json.minus at hc
      split at hc
      · rw [List.mem_singleton.mp hc]
        decide
      · cases hc
    · exact (digit_toDigits (u := u) hc).2.2.2.1
  rw [int?, htrim, Json.decimal]
  by_cases hneg : n < 0
  · simp only [hneg, decide_true, Json.minus, if_true, List.cons_append, List.nil_append, signed,
      hdigits, Option.map_some, negate]
    congr 1
    omega
  · obtain ⟨c, text, htext⟩ := List.exists_cons_of_ne_nil
      (Nat.toDigits_ne_nil (n := n.natAbs) (b := 10))
    have hc := digit_toDigits (u := u) (c := c) (n := n.natAbs)
      (htext ▸ List.mem_cons_self)
    have hsigned := signed_of_head text hc.2.1 hc.2.2.1
    rw [← htext] at hsigned
    simp only [hneg, decide_false, Json.minus, Bool.false_eq_true, if_false, List.nil_append,
      hsigned, hdigits, Option.map_some, negate]
    congr 1
    omega

/-- A word is not found in a text without its first character. -/
theorem remove_eq_self {c : Char} {word text : List Char} (h : c ∉ text) :
    remove (c :: word) text = text := by
  induction text with
  | nil => rfl
  | cons d text ih =>
    have hne : c ≠ d := fun heq ↦ h (heq ▸ List.mem_cons_self)
    have hstart : ¬ (c :: word <+: d :: text) := fun hpre ↦ hne (List.cons_prefix_cons.mp hpre).1
    have hrest := ih fun hmem ↦ h (List.mem_cons_of_mem _ hmem)
    rw [remove, removeFrom, if_neg hstart]
    exact congrArg (d :: ·) hrest

/-- Without underscores, an underscore or a space, the digits of base 16 are plain. -/
theorem digitChar_spec (u : Decimals) : ∀ d < 16, hexDigit u d.digitChar = some d ∧
    d.digitChar ≠ '_' ∧ d.digitChar ≠ '-' ∧ d.digitChar ≠ '+' ∧ d.digitChar ≠ 'x' ∧
    d.digitChar ≠ 'X' ∧ d.digitChar ≠ 'u' ∧ ¬ IsSpace d.digitChar ∧ isBrace d.digitChar = false ∧
    d.digitChar.toNat < 128 ∧ d.digitChar ≠ '.' := by
  have hvalue : ∀ d < 16, Json.hexValue d.digitChar = some d := by decide
  have hplain : ∀ d < 16, d.digitChar ≠ '_' ∧ d.digitChar ≠ '-' ∧ d.digitChar ≠ '+' ∧
      d.digitChar ≠ 'x' ∧ d.digitChar ≠ 'X' ∧ d.digitChar ≠ 'u' ∧ ¬ IsSpace d.digitChar ∧
      isBrace d.digitChar = false ∧ d.digitChar.toNat < 128 ∧ d.digitChar ≠ '.' := by decide
  intro d hd
  refine ⟨?_, hplain d hd⟩
  rw [hexDigit, hvalue d hd]

theorem mem_toDigits_sixteen {n : ℕ} {c : Char} (h : c ∈ Nat.toDigits 16 n) :
    ∃ d < 16, c = d.digitChar := by
  induction n using Nat.strongRec with
  | ind n ih =>
    by_cases hn : n < 16
    · rw [Nat.toDigits_of_lt_base hn, List.mem_singleton] at h
      exact ⟨n, hn, h⟩
    · rw [Nat.toDigits_of_base_le (by norm_num) (by omega), List.mem_append,
        List.mem_singleton] at h
      rcases h with h | h
      · exact ih (n / 16) (by omega) h
      · exact ⟨n % 16, Nat.mod_lt _ (by norm_num), h⟩

theorem mem_uuidHex {id : UuidInt} {c : Char} (h : c ∈ uuidHex id) : ∃ d < 16, c = d.digitChar := by
  rcases List.mem_append.mp h with h | h
  · exact ⟨0, by norm_num, List.eq_of_mem_replicate h⟩
  · exact mem_toDigits_sixteen h

theorem length_uuidHex (id : UuidInt) : (uuidHex id).length = 32 := by
  have hlen : (Nat.toDigits 16 id.val).length ≤ 32 :=
    (Nat.length_toDigits_le_iff (by norm_num) (by norm_num)).mpr id.isLt
  rw [uuidHex, List.length_leftpad]
  omega

/-- Zeros in front and the digits of a number are worth the number. -/
theorem foldl_uuidHex (u : Decimals) (id : UuidInt) :
    (uuidHex id).foldl (fun n c ↦ 16 * n + (hexDigit u c).getD 0) 0 = id.val := by
  have hdigits : ∀ n : ℕ,
      (Nat.toDigits 16 n).foldl (fun n c ↦ 16 * n + (hexDigit u c).getD 0) 0 = n := by
    intro n
    induction n using Nat.strongRec with
    | ind n ih =>
      by_cases hn : n < 16
      · rw [Nat.toDigits_of_lt_base hn, List.foldl_cons, (digitChar_spec u n hn).1]
        simp
      · rw [Nat.toDigits_of_base_le (by norm_num) (by omega), List.foldl_append,
          ih (n / 16) (by omega), List.foldl_cons,
          (digitChar_spec u (n % 16) (Nat.mod_lt _ (by norm_num))).1]
        simp only [Option.getD_some, List.foldl_nil]
        omega
  have hzeros : ∀ k : ℕ,
      (List.replicate k '0').foldl (fun n c ↦ 16 * n + (hexDigit u c).getD 0) 0 = 0 := by
    intro k
    induction k with
    | zero => rfl
    | succ k ih =>
      have hzero : hexDigit u '0' = some 0 := (digitChar_spec u 0 (by norm_num)).1
      rw [List.replicate_succ, List.foldl_cons, hzero]
      exact ih
  rw [uuidHex, List.leftpad, List.foldl_append, hzeros, hdigits]

theorem hexInt?_uuidHex (u : Decimals) (id : UuidInt) : hexInt? u (uuidHex id) = some id.val := by
  have htrim : trim (uuidHex id) = uuidHex id := by
    refine trim_eq_self fun c hc ↦ ?_
    obtain ⟨d, hd, rfl⟩ := mem_uuidHex hc
    exact (digitChar_spec u d hd).2.2.2.2.2.2.2.1
  have hne : uuidHex id ≠ [] := List.ne_nil_of_length_pos (by rw [length_uuidHex]; norm_num)
  obtain ⟨c, text, htext⟩ := List.exists_cons_of_ne_nil hne
  have hsigned : signed (uuidHex id) = (false, uuidHex id) := by
    obtain ⟨d, hd, rfl⟩ := mem_uuidHex (htext ▸ List.mem_cons_self : c ∈ uuidHex id)
    rw [htext]
    exact signed_of_head text (digitChar_spec u d hd).2.2.1 (digitChar_spec u d hd).2.2.2.1
  have hstart : hexPrefix (uuidHex id) = uuidHex id := by
    unfold hexPrefix
    split
    next x rest heq =>
      obtain ⟨d, hd, rfl⟩ := mem_uuidHex
        (heq ▸ List.mem_cons_of_mem _ List.mem_cons_self : x ∈ uuidHex id)
      have hx := (digitChar_spec u d hd).2.2.2.2
      rw [if_neg (not_or.mpr ⟨hx.1, hx.2.1⟩), heq]
    next => rfl
  have hdigits := @digits?_eq 16 (hexDigit u) _ hne fun c hc ↦ by
    obtain ⟨d, hd, rfl⟩ := mem_uuidHex hc
    exact ⟨(digitChar_spec u d hd).2.1, d, hd, (digitChar_spec u d hd).1⟩
  rw [foldl_uuidHex] at hdigits
  rw [hexInt?, htrim, hsigned]
  dsimp only
  rw [hstart, hdigits]
  rfl

theorem mem_uuidText {id : UuidInt} {c : Char} (h : c ∈ uuidText id) :
    c = '-' ∨ ∃ d < 16, c = d.digitChar := by
  simp only [uuidText, List.intercalate, List.intersperse, List.flatten_cons, List.flatten_nil,
    List.append_nil, List.mem_append, List.mem_singleton] at h
  rcases h with h | h | h | h | h | h | h | h | h
  · exact Or.inr (mem_uuidHex (List.mem_of_mem_take h))
  · exact Or.inl h
  · exact Or.inr (mem_uuidHex (List.mem_of_mem_drop (List.mem_of_mem_take h)))
  · exact Or.inl h
  · exact Or.inr (mem_uuidHex (List.mem_of_mem_drop (List.mem_of_mem_take h)))
  · exact Or.inl h
  · exact Or.inr (mem_uuidHex (List.mem_of_mem_drop (List.mem_of_mem_take h)))
  · exact Or.inl h
  · exact Or.inr (mem_uuidHex (List.mem_of_mem_drop h))

/-- Without its hyphens, the text of a UUID is its digits. -/
theorem filter_uuidText (id : UuidInt) : (uuidText id).filter (· ≠ '-') = uuidHex id := by
  have hplain : ∀ l : List Char, l <:+: uuidHex id → l.filter (· ≠ '-') = l := by
    intro l hl
    refine List.filter_eq_self.mpr fun c hc ↦ decide_eq_true ?_
    obtain ⟨d, hd, rfl⟩ := mem_uuidHex (hl.subset hc)
    exact (digitChar_spec unicodeDecimals d hd).2.2.1
  have hpart : ∀ n k : ℕ, ((uuidHex id).drop n).take k <:+: uuidHex id := fun n k ↦
    ((List.take_prefix k _).isInfix).trans (List.drop_suffix n _).isInfix
  have hjoin : (uuidHex id).take 8 ++ (((uuidHex id).drop 8).take 4 ++
      (((uuidHex id).drop 12).take 4 ++ (((uuidHex id).drop 16).take 4 ++
        (uuidHex id).drop 20))) = uuidHex id := by
    have hstep : ∀ n k : ℕ, ((uuidHex id).drop n).take k ++ (uuidHex id).drop (n + k) =
        (uuidHex id).drop n := by
      intro n k
      rw [← List.drop_drop, List.take_append_drop]
    rw [hstep 16 4, hstep 12 4, hstep 8 4, List.take_append_drop]
  have hhead : (uuidHex id).take 8 <:+: uuidHex id := (List.take_prefix 8 _).isInfix
  have hlast : (uuidHex id).drop 20 <:+: uuidHex id := (List.drop_suffix 20 _).isInfix
  simp only [uuidText, List.intercalate, List.intersperse, List.flatten_cons, List.flatten_nil,
    List.append_nil, List.filter_append, hplain _ (hpart _ _), hplain _ hhead, hplain _ hlast]
  simpa using hjoin

/-- A UUID is read back from its text. -/
theorem uuid?_uuidText (u : Decimals) (id : UuidInt) : uuid? u (uuidText id) = some id := by
  have hletter : 'u' ∉ uuidText id := by
    intro h
    rcases mem_uuidText h with h | ⟨d, hd, h⟩
    · exact absurd h (by decide)
    · exact (digitChar_spec u d hd).2.2.2.2.2.2.1 h.symm
  have hbrace : ∀ c ∈ uuidText id, isBrace c = false := by
    intro c hc
    rcases mem_uuidText hc with rfl | ⟨d, hd, rfl⟩
    · decide
    · exact (digitChar_spec u d hd).2.2.2.2.2.2.2.2.1
  have hleft : (uuidText id).dropWhile isBrace = uuidText id := by
    rcases h : uuidText id with - | ⟨c, text⟩
    · rfl
    · rw [List.dropWhile_cons, hbrace c (h ▸ List.mem_cons_self), if_neg (by decide)]
  have hright : (uuidText id).rdropWhile isBrace = uuidText id :=
    List.rdropWhile_eq_self_iff.mpr fun hne ↦ by
      rw [hbrace _ (List.getLast_mem hne)]
      decide
  have hurn : remove "urn:".toList (uuidText id) = uuidText id := remove_eq_self hletter
  have huuid : remove "uuid:".toList (uuidText id) = uuidText id := remove_eq_self hletter
  have hrange : (0 : ℤ) ≤ id.val ∧ (id.val : ℤ) < 2 ^ 128 := by
    have := id.isLt
    omega
  rw [uuid?, hurn, huuid, hleft, hright, filter_uuidText, if_neg (by rw [length_uuidHex]; decide),
    hexInt?_uuidHex]
  exact (dif_pos hrange).trans (congrArg some (Fin.ext (Int.toNat_natCast _)))

end Conjectures.Feeds
