import Conjectures.Feeds.Instants
import Conjectures.Feeds.Texts
import Conjectures.Lib.Base64
import Conjectures.Lib.Transaction

/-!
# Signed cursors

`submission_api/pagination.py` and the cursors of `submission_api/competition_pagination.py`: an
opaque text holds a version, the key of a row, and a signature of both.

HMAC-SHA-256 is a parameter, so that what is said of a cursor holds of any signature.  Every refusal
but two is the same to a client; the two are exceptions that nobody catches, a `ValueError` and, for
a signature outside of ASCII, a `TypeError`.
-/

namespace Conjectures.Feeds

open Lib Db

inductive CursorError where
  /-- `BadRequest("cursor is not one this API issued", reason_code="INVALID_CURSOR")` -/
  | invalid
  /-- A `ValueError` that nobody catches. -/
  | valueError
  /-- `hmac.compare_digest` compares no strings outside of ASCII. -/
  | typeError
  deriving DecidableEq

def maxCursorLength : ℕ := 256

def signatureBytes : ℕ := 16

/-- What the cursors use: HMAC-SHA-256 of a key and a message, and the digits of Unicode. -/
structure CursorServices where
  hmacSha256 : Bytes → Bytes → Vector UInt8 32
  decimals : Decimals

/-- `text.encode()` -/
def utf8 (text : List Char) : Bytes := (Json.encode text).data.toList

/-- `raw.decode("utf-8")` -/
def fromUtf8 (raw : Bytes) : Option (List Char) := Json.decode? ⟨raw.toArray⟩

/-- `text.partition(".")`, without the separator -/
def partition (text : List Char) : List Char × List Char :=
  (text.takeWhile (· ≠ '.'), (text.dropWhile (· ≠ '.')).tail)

def isAscii (text : List Char) : Bool := text.all fun c ↦ c.toNat < 128

/-- `hmac.compare_digest` -/
def compareDigest (a b : List Char) : Except CursorError Bool :=
  if isAscii a && isAscii b then .ok (a = b) else .error .typeError

section

variable (svc : CursorServices)

/-- `_sign` -/
def sign (payload secret : List Char) : List Char :=
  Base64.encode ((svc.hmacSha256 (utf8 secret) (utf8 payload)).toList.take signatureBytes)

/-- What every cursor is: a payload and its signature. -/
def issueCursor (payload secret : List Char) : List Char :=
  Base64.encode (utf8 payload) ++ '.' :: sign svc payload secret

/-- The payload of a cursor, once its signature is checked. -/
def openCursor (secret value : List Char) : Except CursorError (List Char) := do
  require (value ≠ [] ∧ value.length ≤ maxCursorLength) .invalid
  let (payload64, signature) := partition value
  require (signature ≠ []) .invalid
  let raw ← need (Base64.decode payload64) .invalid
  let payload ← need (fromUtf8 raw) .invalid
  let same ← compareDigest signature (sign svc payload secret)
  require same .invalid
  return payload

/-! ## Timestamp and UUID -/

def cursorVersion : List Char := ['1']

/-- The position of the last item on a page. -/
structure Cursor where
  createdAt : DateTime
  id : UuidInt
  deriving DecidableEq

/-- `Cursor.encode` -/
def Cursor.encode (cursor : Cursor) (secret : List Char) : List Char :=
  issueCursor svc (cursorVersion ++ '.' :: (Json.decimal cursor.createdAt.cursorMicros ++ '.' ::
    uuidText cursor.id)) secret

def decodeCursor (secret value : List Char) : Except CursorError Cursor := do
  let payload ← openCursor svc secret value
  let (version, rest) := partition payload
  require (version = cursorVersion) .invalid
  let (microsText, identifier) := partition rest
  let micros ← need (int? svc.decimals microsText) .invalid
  let createdAt ← need (fromMicros micros) .invalid
  let id ← need (uuid? svc.decimals identifier) .invalid
  return ⟨createdAt, id⟩

/-! ## Ordered scalars -/

/-- `^[A-Za-z0-9_-]+$`; the end may stand before a last newline. -/
def isPart (text : List Char) : Bool :=
  let body := if text.getLast? = some '\n' then text.dropLast else text
  body ≠ [] && body.all fun c ↦ c.isAlphanum || c = '_' || c = '-'

def encodeParts (secret version : List Char) (parts : List (List Char)) :
    Except CursorError (List Char) := do
  require (isPart version) .valueError
  require (parts.all isPart) .valueError
  return issueCursor svc (['.'].intercalate (version :: parts)) secret

def decodeParts (secret value version : List Char) (count : ℕ) :
    Except CursorError (List (List Char)) := do
  let payload ← openCursor svc secret value
  let fields := payload.splitOn '.'
  require (fields.length = count + 1 ∧ fields.head? = some version) .invalid
  return fields.tail

/-! ## The competition's cursors -/

/-- A `BIGINT`. -/
structure BigInt where
  val : ℤ
  low : -2 ^ 63 ≤ val
  high : val < 2 ^ 63
  deriving DecidableEq

/-- What the cursors read of a competition's submission. -/
structure CompetitionRow where
  bytes : BigInt
  submittedAt : DateTime
  id : BigInt
  deriving DecidableEq

/-- `CURSOR_FEED` -/
def cursorFeed : List Char := "cs1".toList

/-- `CURSOR_RANK` -/
def cursorRank : List Char := "cr1".toList

/-- `int(value)` where a `ValueError` is not caught. -/
def intPart (text : List Char) : Except CursorError ℤ := need (int? svc.decimals text) .valueError

/-- `_from_micros` -/
def momentPart (text : List Char) : Except CursorError DateTime := do
  let micros ← intPart svc text
  need (fromMicros micros) .valueError

def feedCursor (secret : List Char) (row : CompetitionRow) : Except CursorError (List Char) :=
  encodeParts svc secret cursorFeed
    [Json.decimal row.submittedAt.cursorMicros, Json.decimal row.id.val]

/-- `feed_after`, of a cursor -/
def feedAfter (secret cursor : List Char) : Except CursorError (DateTime × ℤ) := do
  match ← decodeParts svc secret cursor cursorFeed 2 with
  | [moment, subId] => return (← momentPart svc moment, ← intPart svc subId)
  | _ => .error .valueError

def rankCursor (secret : List Char) (row : CompetitionRow) : Except CursorError (List Char) :=
  encodeParts svc secret cursorRank
    [Json.decimal row.bytes.val, Json.decimal row.submittedAt.cursorMicros,
      Json.decimal row.id.val]

/-- `rank_after`, of a cursor -/
def rankAfter (secret cursor : List Char) : Except CursorError (ℤ × DateTime × ℤ) := do
  match ← decodeParts svc secret cursor cursorRank 3 with
  | [size, moment, subId] =>
    return (← intPart svc size, ← momentPart svc moment, ← intPart svc subId)
  | _ => .error .valueError

end

/-! ## Opening what was issued -/

theorem fromUtf8_utf8 (text : List Char) : fromUtf8 (utf8 text) = some text := by
  rw [fromUtf8, Json.decode?_eq_some, utf8, Array.toArray_toList]

/-- ASCII characters are a byte each. -/
theorem length_utf8 {text : List Char} (h : ∀ c ∈ text, c.toNat < 128) :
    (utf8 text).length = text.length := by
  have hsize : (utf8 text).length = (Json.encode text).size := by
    rw [utf8, Array.length_toList, ByteArray.size_data]
  rw [hsize, Json.encode_eq]
  induction text with
  | nil => simp
  | cons c text ih =>
    have hc : c.utf8Size = 1 := by
      have hval : c.val.toNat < 128 := h c List.mem_cons_self
      exact Char.utf8Size_eq_one_iff.mpr (UInt32.le_iff_toNat_le.mpr (Nat.le_of_lt_succ hval))
    have hrest := ih (fun c hc ↦ h c (List.mem_cons_of_mem _ hc))
      (by rw [utf8, Array.length_toList, ByteArray.size_data])
    rw [List.utf8Encode_cons, ByteArray.size_append, hrest, List.utf8Encode_singleton,
      List.length_cons]
    simp [hc, Nat.add_comm]

theorem point_notMem_encode (raw : Bytes) : '.' ∉ Base64.encode raw := by
  intro h
  obtain ⟨n, hn, heq⟩ := Base64.mem_encode h
  exact (Base64.digit_spec n hn).2.2.1 heq.symm

theorem partition_append {a b : List Char} (h : '.' ∉ a) : partition (a ++ '.' :: b) = (a, b) := by
  have hall : ∀ c ∈ a, decide (c ≠ '.') = true :=
    fun c hc ↦ decide_eq_true fun heq ↦ h (heq ▸ hc)
  rw [partition, List.takeWhile_append_of_pos hall, List.dropWhile_append_of_pos hall]
  simp

theorem isAscii_encode (raw : Bytes) : isAscii (Base64.encode raw) = true := by
  refine List.all_eq_true.mpr fun c hc ↦ ?_
  obtain ⟨n, hn, rfl⟩ := Base64.mem_encode hc
  exact decide_eq_true (Base64.digit_spec n hn).2.2.2

section

variable {svc : CursorServices}

theorem length_sign (payload secret : List Char) : (sign svc payload secret).length = 22 := by
  rw [sign, Base64.length_encode, List.length_take, Vector.length_toList]
  rfl

theorem openCursor_eq_ok {secret value payload : List Char}
    (h : openCursor svc secret value = .ok payload) :
    ∃ raw, Base64.decode (partition value).1 = some raw ∧ fromUtf8 raw = some payload := by
  simp only [openCursor, bind_eq_ok, require_eq_ok, need_eq_ok, pure, Except.pure,
    Except.ok.injEq] at h
  obtain ⟨_, -, _, -, raw, hraw, text, htext, _, -, _, -, rfl⟩ := h
  exact ⟨raw, hraw, htext⟩

/-- Whoever opens a cursor finds the payload that it was issued for. -/
theorem payload_of_openCursor {secret payload text : List Char} {issuer : CursorServices}
    {issuerSecret : List Char}
    (h : openCursor svc secret (issueCursor issuer payload issuerSecret) = .ok text) :
    text = payload := by
  obtain ⟨raw, hraw, htext⟩ := openCursor_eq_ok h
  rw [issueCursor, partition_append (point_notMem_encode _), Base64.decode_encode] at hraw
  cases hraw
  rw [fromUtf8_utf8] at htext
  exact (Option.some.inj htext).symm

/-- A payload that fits is found by its own issuer. -/
theorem openCursor_issueCursor {payload secret : List Char} (hascii : ∀ c ∈ payload, c.toNat < 128)
    (hlength : payload.length ≤ 174) :
    openCursor svc secret (issueCursor svc payload secret) = .ok payload := by
  have hlen : (issueCursor svc payload secret).length ≤ maxCursorLength := by
    rw [issueCursor, List.length_append, List.length_cons, length_sign, Base64.length_encode,
      length_utf8 hascii, maxCursorLength]
    omega
  have hne : issueCursor svc payload secret ≠ [] := by simp [issueCursor]
  have hsign : sign svc payload secret ≠ [] :=
    List.ne_nil_of_length_pos (by rw [length_sign]; norm_num)
  have hcompare : compareDigest (sign svc payload secret) (sign svc payload secret) = .ok true := by
    rw [compareDigest, sign, isAscii_encode]
    simp
  have hparts : partition (issueCursor svc payload secret) =
      (Base64.encode (utf8 payload), sign svc payload secret) :=
    partition_append (point_notMem_encode _)
  simp only [openCursor, bind_eq_ok, require_eq_ok, need_eq_ok, hparts, pure, Except.pure,
    Except.ok.injEq]
  exact ⟨(), ⟨hne, hlen⟩, (), hsign, _, Base64.decode_encode _, _, fromUtf8_utf8 _, true, hcompare,
    (), rfl, rfl⟩

end

/-! ## What the decoders find -/

theorem decimal_spec {n : ℤ} {c : Char} (h : c ∈ Json.decimal n) :
    c = '-' ∨ c.isDigit = true := by
  rcases List.mem_append.mp h with h | h
  · unfold Json.minus at h
    split at h
    · exact Or.inl (List.mem_singleton.mp h)
    · cases h
  · exact Or.inr (Decimals.isDigit_toDigits h)

theorem isDigit_ascii {c : Char} (h : c.isDigit = true) : c.toNat < 128 ∧ c ≠ '.' := by
  obtain ⟨-, hhigh⟩ := Char.isDigit_iff_toNat.mp h
  change c.toNat ≤ 57 at hhigh
  refine ⟨by omega, ?_⟩
  rintro rfl
  exact absurd h (by decide)

theorem decimal_ascii {n : ℤ} {c : Char} (h : c ∈ Json.decimal n) : c.toNat < 128 ∧ c ≠ '.' := by
  rcases decimal_spec h with rfl | h
  · decide
  · exact isDigit_ascii h

theorem length_decimal {n : ℤ} (h : n.natAbs < 10 ^ 19) : (Json.decimal n).length ≤ 20 := by
  have hdigits : (Nat.toDigits 10 n.natAbs).length ≤ 19 :=
    (Nat.length_toDigits_le_iff (by norm_num) (by norm_num)).mpr h
  have hminus : (Json.minus (n < 0)).length ≤ 1 := by
    unfold Json.minus
    split <;> simp
  rw [Json.decimal, List.length_append]
  omega

theorem isPart_decimal (n : ℤ) : isPart (Json.decimal n) = true := by
  have hlast : (Json.decimal n).getLast? ≠ some '\n' := by
    intro h
    rcases decimal_spec (List.mem_of_getLast? h) with h | h
    · exact absurd h (by decide)
    · exact absurd h (by decide)
  have hne : Json.decimal n ≠ [] := by
    simp [Json.decimal, Nat.toDigits_ne_nil]
  have hall : (Json.decimal n).all (fun c ↦ c.isAlphanum || c = '_' || c = '-') = true := by
    refine List.all_eq_true.mpr fun c hc ↦ ?_
    rcases decimal_spec hc with rfl | hc
    · decide
    · simp [Char.isAlphanum, hc]
  rw [isPart, if_neg hlast, hall, Bool.and_true]
  exact decide_eq_true hne

theorem uuidText_ascii {id : UuidInt} {c : Char} (h : c ∈ uuidText id) : c.toNat < 128 := by
  rcases mem_uuidText h with rfl | ⟨d, hd, rfl⟩
  · decide
  · exact (digitChar_spec unicodeDecimals d hd).2.2.2.2.2.2.2.2.2.1

theorem length_uuidText (id : UuidInt) : (uuidText id).length = 36 := by
  have h := length_uuidHex id
  simp [uuidText, List.intercalate, h]

section

variable {svc : CursorServices}

theorem natAbs_cursorMicros {t : DateTime} (ht : 0 ≤ t.micros) :
    t.cursorMicros.natAbs < 10 ^ 19 := by
  have := cursorMicros_range ht
  omega

/-- A cursor is decoded to what its timestamp's text stands for. -/
theorem decodeCursor_encode {cursor : Cursor} {secret : List Char}
    (ht : 0 ≤ cursor.createdAt.micros) :
    decodeCursor svc secret (cursor.encode svc secret) =
      (need (fromMicros cursor.createdAt.cursorMicros) .invalid).map (⟨·, cursor.id⟩) := by
  have hascii : ∀ c ∈ cursorVersion ++ '.' :: (Json.decimal cursor.createdAt.cursorMicros ++
      '.' :: uuidText cursor.id), c.toNat < 128 := by
    intro c hc
    simp only [cursorVersion, List.mem_append, List.mem_cons, List.not_mem_nil, or_false] at hc
    rcases hc with rfl | rfl | hc | rfl | hc
    · decide
    · decide
    · exact (decimal_ascii hc).1
    · decide
    · exact uuidText_ascii hc
  have hlength : (cursorVersion ++ '.' :: (Json.decimal cursor.createdAt.cursorMicros ++
      '.' :: uuidText cursor.id)).length ≤ 174 := by
    have := length_decimal (natAbs_cursorMicros ht)
    simp only [cursorVersion, List.length_append, List.length_cons, List.length_nil,
      length_uuidText]
    omega
  have hopen := @openCursor_issueCursor svc _ secret hascii hlength
  have hversion := partition_append (a := cursorVersion)
    (b := Json.decimal cursor.createdAt.cursorMicros ++ '.' :: uuidText cursor.id) (by decide)
  have hmicros := partition_append (a := Json.decimal cursor.createdAt.cursorMicros)
    (b := uuidText cursor.id) fun h ↦ (decimal_ascii h).2 rfl
  have hid : need (uuid? svc.decimals (uuidText cursor.id)) CursorError.invalid = .ok cursor.id :=
    need_eq_ok.mpr (uuid?_uuidText _ _)
  rw [decodeCursor, Cursor.encode, bind_of_ok hopen, hversion]
  dsimp only
  rw [bind_of_ok ((require_eq_ok (u := ())).mpr rfl), hmicros]
  dsimp only
  rw [bind_of_ok (need_eq_ok.mpr (int?_decimal _)), hid]
  cases fromMicros cursor.createdAt.cursorMicros <;> rfl

theorem point_notMem_of_isPart {text : List Char} (h : isPart text = true) : '.' ∉ text := by
  intro hmem
  unfold isPart at h
  dsimp only at h
  obtain ⟨-, hall⟩ := (Bool.and_eq_true _ _).mp h
  have hbody : '.' ∈ if text.getLast? = some '\n' then text.dropLast else text := by
    split
    next hlast =>
      obtain ⟨front, rfl⟩ := List.getLast?_eq_some_iff.mp hlast
      rw [List.dropLast_concat]
      rcases List.mem_append.mp hmem with hmem | hmem
      · exact hmem
      · exact absurd (List.mem_singleton.mp hmem) (by decide)
    next => exact hmem
  exact absurd (List.all_eq_true.mp hall '.' hbody) (by decide)

/-- The version and the parts of a cursor are found between the points. -/
theorem splitOn_parts {version : List Char} {parts : List (List Char)}
    (hversion : isPart version = true) (hparts : parts.all isPart = true) :
    (['.'].intercalate (version :: parts)).splitOn '.' = version :: parts := by
  refine List.splitOn_intercalate '.' (fun l hl ↦ ?_) (List.cons_ne_nil _ _)
  rcases List.mem_cons.mp hl with rfl | hl
  · exact point_notMem_of_isPart hversion
  · exact point_notMem_of_isPart (List.all_eq_true.mp hparts l hl)

theorem encodeParts_eq_ok {secret version value : List Char} {parts : List (List Char)} :
    encodeParts svc secret version parts = .ok value ↔
      isPart version = true ∧ parts.all isPart = true ∧
        value = issueCursor svc (['.'].intercalate (version :: parts)) secret := by
  simp only [encodeParts, bind_eq_ok, require_eq_ok, pure, Except.pure, Except.ok.injEq]
  constructor
  · rintro ⟨_, hversion, _, hparts, rfl⟩
    exact ⟨hversion, hparts, rfl⟩
  · rintro ⟨hversion, hparts, rfl⟩
    exact ⟨(), hversion, (), hparts, rfl⟩

/-- Parts that fit are found by their own issuer. -/
theorem decodeParts_encodeParts {secret version : List Char} {parts : List (List Char)}
    (hversion : isPart version = true) (hparts : parts.all isPart = true)
    (hascii : ∀ c ∈ ['.'].intercalate (version :: parts), c.toNat < 128)
    (hlength : (['.'].intercalate (version :: parts)).length ≤ 174) :
    ∃ value, encodeParts svc secret version parts = .ok value ∧
      decodeParts svc secret value version parts.length = .ok parts := by
  refine ⟨_, encodeParts_eq_ok.mpr ⟨hversion, hparts, rfl⟩, ?_⟩
  rw [decodeParts, bind_of_ok (openCursor_issueCursor hascii hlength),
    splitOn_parts hversion hparts]
  dsimp only
  rw [bind_of_ok ((require_eq_ok (u := ())).mpr ⟨List.length_cons, List.head?_cons⟩)]
  rfl

theorem intPart_decimal (n : ℤ) : intPart svc (Json.decimal n) = .ok n :=
  need_eq_ok.mpr (int?_decimal n)

theorem momentPart_decimal (n : ℤ) :
    momentPart svc (Json.decimal n) = need (fromMicros n) .valueError := by
  rw [momentPart, bind_of_ok (intPart_decimal n)]

theorem natAbs_bigInt (n : BigInt) : n.val.natAbs < 10 ^ 19 := by
  have hlow := n.low
  have hhigh := n.high
  omega

theorem intercalate_cons (version : List Char) (parts : List (List Char)) :
    ['.'].intercalate (version :: parts) = version ++ parts.flatMap ('.' :: ·) := by
  induction parts generalizing version with
  | nil => simp [List.intercalate]
  | cons part parts ih =>
    have hsplit : ['.'].intercalate (version :: part :: parts) =
        version ++ '.' :: ['.'].intercalate (part :: parts) := by
      simp [List.intercalate]
    rw [hsplit, ih, List.flatMap_cons, List.cons_append]

/-- Up to three integers, behind a version of up to three characters, are found by their own
issuer. -/
theorem decodeParts_decimals {secret version : List Char} {ns : List ℤ}
    (hversion : isPart version = true) (hascii : ∀ c ∈ version, c.toNat < 128)
    (hlength : version.length ≤ 3) (hns : ∀ n ∈ ns, n.natAbs < 10 ^ 19) (hcount : ns.length ≤ 3) :
    ∃ value, encodeParts svc secret version (ns.map Json.decimal) = .ok value ∧
      decodeParts svc secret value version ns.length = .ok (ns.map Json.decimal) := by
  have hsum : ((ns.map Json.decimal).flatMap ('.' :: ·)).length ≤ 21 * ns.length := by
    clear hcount
    induction ns with
    | nil => simp
    | cons n ns ih =>
      have hn := length_decimal (hns n List.mem_cons_self)
      have hrest := ih fun n hn ↦ hns n (List.mem_cons_of_mem _ hn)
      rw [List.map_cons, List.flatMap_cons, List.length_append, List.length_cons,
        List.length_cons]
      omega
  obtain ⟨value, hvalue, hparts⟩ := @decodeParts_encodeParts svc secret version
    (ns.map Json.decimal) hversion (by simp [isPart_decimal])
    (by
      intro c hc
      rw [intercalate_cons] at hc
      rcases List.mem_append.mp hc with hc | hc
      · exact hascii c hc
      · obtain ⟨part, hpart, hc⟩ := List.mem_flatMap.mp hc
        obtain ⟨n, -, rfl⟩ := List.mem_map.mp hpart
        rcases List.mem_cons.mp hc with rfl | hc
        · decide
        · exact (decimal_ascii hc).1)
    (by
      rw [intercalate_cons, List.length_append]
      omega)
  rw [List.length_map] at hparts
  exact ⟨value, hvalue, hparts⟩

/-- A cursor of the feed is decoded to what its timestamp's text stands for. -/
theorem feedAfter_feedCursor {row : CompetitionRow} {secret : List Char}
    (ht : 0 ≤ row.submittedAt.micros) :
    ∃ value, feedCursor svc secret row = .ok value ∧
      feedAfter svc secret value =
        (need (fromMicros row.submittedAt.cursorMicros) .valueError).map (·, row.id.val) := by
  obtain ⟨value, hvalue, hparts⟩ := @decodeParts_decimals svc secret cursorFeed
    [row.submittedAt.cursorMicros, row.id.val] (by decide)
    (by simp [cursorFeed]) (by decide)
    (by simp only [List.forall_mem_cons]; exact ⟨natAbs_cursorMicros ht, natAbs_bigInt _, nofun⟩)
    (by simp)
  have hread : decodeParts svc secret value cursorFeed 2 =
      .ok [Json.decimal row.submittedAt.cursorMicros, Json.decimal row.id.val] := hparts
  refine ⟨value, hvalue, ?_⟩
  rw [feedAfter, bind_of_ok hread]
  dsimp only
  rw [momentPart_decimal, intPart_decimal]
  cases fromMicros row.submittedAt.cursorMicros <;> rfl

/-- A cursor of the board is decoded to what its timestamp's text stands for. -/
theorem rankAfter_rankCursor {row : CompetitionRow} {secret : List Char}
    (ht : 0 ≤ row.submittedAt.micros) :
    ∃ value, rankCursor svc secret row = .ok value ∧
      rankAfter svc secret value =
        (need (fromMicros row.submittedAt.cursorMicros) .valueError).map
          fun t ↦ (row.bytes.val, t, row.id.val) := by
  obtain ⟨value, hvalue, hparts⟩ := @decodeParts_decimals svc secret cursorRank
    [row.bytes.val, row.submittedAt.cursorMicros, row.id.val]
    (by decide) (by simp [cursorRank]) (by decide)
    (by
      simp only [List.forall_mem_cons]
      exact ⟨natAbs_bigInt _, natAbs_cursorMicros ht, natAbs_bigInt _, nofun⟩)
    (by simp)
  have hread : decodeParts svc secret value cursorRank 3 =
      .ok [Json.decimal row.bytes.val, Json.decimal row.submittedAt.cursorMicros,
        Json.decimal row.id.val] := hparts
  refine ⟨value, hvalue, ?_⟩
  rw [rankAfter, bind_of_ok hread]
  dsimp only
  rw [momentPart_decimal, intPart_decimal, intPart_decimal]
  cases fromMicros row.submittedAt.cursorMicros <;> rfl

/-! ## Versions -/

theorem decodeParts_eq_ok {secret value version : List Char} {count : ℕ}
    {fields : List (List Char)} (h : decodeParts svc secret value version count = .ok fields) :
    ∃ payload, openCursor svc secret value = .ok payload ∧
      (payload.splitOn '.').head? = some version := by
  simp only [decodeParts, bind_eq_ok, require_eq_ok] at h
  obtain ⟨payload, hopen, _, ⟨-, hhead⟩, -⟩ := h
  exact ⟨payload, hopen, hhead⟩

theorem decodeCursor_eq_ok {secret value : List Char} {cursor : Cursor}
    (h : decodeCursor svc secret value = .ok cursor) :
    ∃ payload, openCursor svc secret value = .ok payload ∧
      (partition payload).1 = cursorVersion := by
  simp only [decodeCursor, bind_eq_ok, require_eq_ok] at h
  obtain ⟨payload, hopen, _, hversion, -⟩ := h
  exact ⟨payload, hopen, hversion⟩

/-- Only the decoder of its own version accepts a cursor of parts. -/
theorem version_of_decodeParts {issuer : CursorServices}
    {issuerSecret secret version version' value : List Char} {parts fields : List (List Char)}
    {count : ℕ} (hissue : encodeParts issuer issuerSecret version parts = .ok value)
    (h : decodeParts svc secret value version' count = .ok fields) : version' = version := by
  obtain ⟨hversion, hparts, rfl⟩ := encodeParts_eq_ok.mp hissue
  obtain ⟨payload, hopen, hhead⟩ := decodeParts_eq_ok h
  obtain rfl := payload_of_openCursor hopen
  rw [splitOn_parts hversion hparts, List.head?_cons] at hhead
  exact (Option.some.inj hhead).symm

theorem version_of_decodeCursor {issuer : CursorServices}
    {issuerSecret secret version value : List Char} {parts : List (List Char)} {cursor : Cursor}
    (hissue : encodeParts issuer issuerSecret version parts = .ok value)
    (h : decodeCursor svc secret value = .ok cursor) : version = cursorVersion := by
  obtain ⟨hversion, hparts, rfl⟩ := encodeParts_eq_ok.mp hissue
  obtain ⟨payload, hopen, hfirst⟩ := decodeCursor_eq_ok h
  obtain rfl := payload_of_openCursor hopen
  have hpoint := point_notMem_of_isPart hversion
  rw [← hfirst]
  cases parts with
  | nil =>
    have hall : ∀ c ∈ version, decide (c ≠ '.') = true :=
      fun c hc ↦ decide_eq_true fun heq ↦ hpoint (heq ▸ hc)
    rw [intercalate_cons, List.flatMap_nil, List.append_nil, partition,
      List.takeWhile_eq_self_iff.mpr hall]
  | cons part parts =>
    rw [intercalate_cons, List.flatMap_cons, List.cons_append, partition_append hpoint]

/-- A cursor of the proofs' feeds is accepted by no decoder of parts but one of its version. -/
theorem version_of_encode {issuer : CursorServices} {issuerSecret secret version : List Char}
    {cursor : Cursor} {fields : List (List Char)} {count : ℕ}
    (h : decodeParts svc secret (cursor.encode issuer issuerSecret) version count = .ok fields) :
    version = cursorVersion := by
  obtain ⟨payload, hopen, hhead⟩ := decodeParts_eq_ok h
  obtain rfl := payload_of_openCursor hopen
  rw [List.splitOn_append_cons_self_of_not_mem (by decide), List.head?_cons] at hhead
  exact (Option.some.inj hhead).symm

end

end Conjectures.Feeds
