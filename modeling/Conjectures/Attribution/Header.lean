import Conjectures.Attribution.Credit
import Conjectures.Lib.Base64
import Conjectures.Lib.JsonDepth

/-!
# The header of a public credit

`X-Conjectures-Public-Credit` is the credit as canonical JSON, in base64 for URLs and without
padding.  A header is accepted only as it would be written.

What a header may hold is bounded before it is decoded, so that a credit of many escapes is too long
for it, and is lost (`publicCreditHeader_lossy`).
-/

namespace Conjectures.Attribution

open Lib

def nameField : Text := text "name"

def urlField : Text := text "url"

def orcidField : Text := text "orcid"

/-- A member, if there is a value for it. -/
def member (key : Text) (value : Option Text) : List (Text × Json) :=
  value.toList.map fun s ↦ (key, .string s)

/-- `to_dict` -/
def toDict (value : PublicCredit) : Json :=
  .object ((nameField, .string value.name) :: (member urlField value.url ++
    member orcidField value.orcid))

variable (lib : TextLibrary)

/-- `public_credit_from_dict` -/
def publicCreditFromDict : Json → Except CreditError (Option PublicCredit)
  | .null => .ok none
  | .object value => do
    let unknown := (value.map Prod.fst).filter (· ∉ [nameField, urlField, orcidField])
    require (unknown = []) (.unknownFields (unknown.insertionSort (· ≤ ·)))
    let name ← need (value.lookup nameField) .nameRequired
    publicCredit lib true name ((value.lookup urlField).getD .null)
      ((value.lookup orcidField).getD .null)
  | _ => .error .notObject

/-- `encode_public_credit_header`; none where a text cannot be written in UTF-8 -/
def encodePublicCreditHeader (value : PublicCredit) : Option (List Char) :=
  (Json.dumps (toDict value)).map fun cs ↦ Base64.encode (Json.encode cs).data.toList

/-- What a header spells.  The words `NaN` and `Infinity`, which are refused with what they stand
for, are refused here, and so is a key that is repeated. -/
def headerValue? (value : List Char) : Option Json := do
  let raw ← Base64.strictDecode value
  let cs ← Json.decode? ⟨raw.toArray⟩
  Json.loads? cs

/-- `decode_public_credit_header` -/
def decodePublicCreditHeader : Option (List Char) → Except CreditError (Option PublicCredit)
  | none => .ok none
  | some value => do
    require (1 ≤ value.length ∧ value.length ≤ maxCreditHeaderChars) .headerLength
    let decoded ← need (headerValue? value) .headerMalformed
    let credit ← publicCreditFromDict lib decoded
    let credit ← need credit .notObject
    require (encodePublicCreditHeader credit = some value) .headerCanonical
    return some credit

/-! ## What is written -/

/-- The members of a credit, their keys in order. -/
def sortedMembers (credit : PublicCredit) : List (Text × Json) :=
  (nameField, .string credit.name) :: (member orcidField credit.orcid ++
    member urlField credit.url)

theorem sortKeys_toDict (credit : PublicCredit) :
    (toDict credit).sortKeys = .object (sortedMembers credit) := by
  obtain ⟨name, url, orcid⟩ := credit
  have hno : nameField ≤ orcidField := by decide
  have hnu : nameField ≤ urlField := by decide
  have huo : ¬ urlField ≤ orcidField := by decide
  cases url <;> cases orcid <;>
    simp [toDict, sortedMembers, member, Json.sortKeys, Json.sortMembers, List.insertionSort,
      List.orderedInsert, hno, hnu, huo]

theorem keyed_toDict (credit : PublicCredit) : (toDict credit).Keyed := by
  obtain ⟨name, url, orcid⟩ := credit
  have hnu : nameField ≠ urlField := by decide
  have hno : nameField ≠ orcidField := by decide
  have huo : urlField ≠ orcidField := by decide
  cases url <;> cases orcid <;>
    simp [toDict, member, Json.Keyed, Json.KeyedMembers, hnu, hno, huo]

theorem floats_toDict {p : List Char → Prop} (credit : PublicCredit) :
    (toDict credit).Floats p := by
  obtain ⟨name, url, orcid⟩ := credit
  cases url <;> cases orcid <;> simp [toDict, member]

variable {lib} {nameCharacters : Bool} {credit : PublicCredit} {value : List Char}

/-- The key and the text of a member can be written. -/
theorem isValidChar_of_mem (h : Credit lib nameCharacters credit) :
    ∀ m ∈ sortedMembers credit, (∀ n ∈ m.1, n.isValidChar) ∧
      ∃ s, m.2 = .string s ∧ ∀ n ∈ s, n.isValidChar := by
  have hnameField : ∀ n ∈ nameField, n.isValidChar := by decide
  have horcidField : ∀ n ∈ orcidField, n.isValidChar := by decide
  have hurlField : ∀ n ∈ urlField, n.isValidChar := by decide
  intro m hm
  simp only [sortedMembers, member, List.mem_cons, List.mem_append, List.mem_map,
    Option.mem_toList] at hm
  rcases hm with rfl | ⟨s, hs, rfl⟩ | ⟨s, hs, rfl⟩
  · exact ⟨hnameField, _, rfl, fun n hn ↦ isValidChar_of_category (h.name.characters n hn)⟩
  · refine ⟨horcidField, s, rfl, fun n hn ↦ .inl ?_⟩
    rcases (h.orcid s hs).digits n hn with hdigit | rfl | rfl
    · simp only [isDigit, Bool.and_eq_true, decide_eq_true_eq] at hdigit
      omega
    · decide
    · decide
  · exact ⟨hurlField, s, rfl, fun n hn ↦ isValidChar_of_category ((h.url s hs).characters n hn).2⟩

/-- Every credit that is accepted can be written. -/
theorem exists_dumps (h : Credit lib nameCharacters credit) :
    ∃ cs, Json.dumps (toDict credit) = some cs := by
  obtain ⟨cs, hcs⟩ : ∃ cs, Json.renderMembers (sortedMembers credit) = some cs := by
    refine Json.exists_renderMembers fun m hm ↦ ?_
    obtain ⟨hkey, s, hs, hvalid⟩ := isValidChar_of_mem h m hm
    refine ⟨Json.exists_quote hkey, ?_⟩
    rw [hs, Json.render]
    exact Json.exists_quote hvalid
  refine ⟨'\x7b' :: cs, ?_⟩
  rw [Json.dumps, sortKeys_toDict, Json.render, hcs]
  rfl

theorem exists_header (h : Credit lib nameCharacters credit) :
    ∃ header cs, encodePublicCreditHeader credit = some header ∧
      Json.dumps (toDict credit) = some cs := by
  obtain ⟨cs, hcs⟩ := exists_dumps h
  refine ⟨Base64.encode (Json.encode cs).data.toList, cs, ?_, hcs⟩
  rw [encodePublicCreditHeader, hcs]
  rfl

/-! ## What is read -/

theorem headerValue?_encode {cs : List Char} (h : Json.dumps (toDict credit) = some cs) :
    headerValue? (Base64.encode (Json.encode cs).data.toList) =
      some (.object (sortedMembers credit)) := by
  have hraw : (⟨(Json.encode cs).data.toList.toArray⟩ : ByteArray) = Json.encode cs := rfl
  have hloads : Json.loads? (cs ++ []) = _ := Json.loads?_dumps h (keyed_toDict credit) (floats_toDict credit) (.refl [])
  rw [List.append_nil, sortKeys_toDict] at hloads
  simp only [headerValue?, Base64.strictDecode_encode, Option.bind_eq_bind, Option.bind_some, hraw,
    Json.decode?_eq_some.mpr rfl, hloads]

/-- An empty header spells nothing. -/
theorem length_pos_of_headerValue? {v : Json} (h : headerValue? value = some v) :
    1 ≤ value.length := by
  cases value with
  | nil => cases h
  | cons c cs => simp

theorem lookup_sortedMembers (credit : PublicCredit) :
    (sortedMembers credit).lookup nameField = some (.string credit.name) ∧
      ((sortedMembers credit).lookup urlField).getD .null = optional credit.url ∧
      ((sortedMembers credit).lookup orcidField).getD .null = optional credit.orcid := by
  obtain ⟨name, url, orcid⟩ := credit
  cases url <;> cases orcid <;> exact ⟨rfl, rfl, rfl⟩

theorem keys_sortedMembers (credit : PublicCredit) :
    ∀ k ∈ (sortedMembers credit).map Prod.fst, k ∈ [nameField, urlField, orcidField] := by
  obtain ⟨name, url, orcid⟩ := credit
  cases url <;> cases orcid <;> simp [sortedMembers, member]

theorem publicCreditFromDict_sortedMembers (credit : PublicCredit) :
    publicCreditFromDict lib (.object (sortedMembers credit)) =
      publicCredit lib true (.string credit.name) (optional credit.url) (optional credit.orcid) := by
  have hunknown : ((sortedMembers credit).map Prod.fst).filter
      (· ∉ [nameField, urlField, orcidField]) = [] :=
    List.filter_eq_nil_iff.mpr fun k hk ↦ by
      rw [decide_eq_true_eq, not_not]
      exact keys_sortedMembers credit k hk
  obtain ⟨hname, hurl, horcid⟩ := lookup_sortedMembers credit
  simp only [publicCreditFromDict, hunknown, hname, hurl, horcid]
  rfl

/-- A credit that is read from a dictionary passed every check. -/
theorem credit_of_dict {decoded : Json}
    (h : publicCreditFromDict lib decoded = .ok (some credit)) : Credit lib true credit := by
  cases decoded with
  | null => cases h
  | object ms =>
    simp only [publicCreditFromDict, bind_eq_ok, need_eq_ok, require_eq_ok] at h
    obtain ⟨-, -, name, -, h⟩ := h
    exact (publicCredit_eq_ok.mp h).2.2.2
  | _ => cases h

/-- What is accepted is the credit, written as it would be written. -/
theorem decodePublicCreditHeader_eq_ok :
    decodePublicCreditHeader lib (some value) = .ok (some credit) ↔
      value.length ≤ maxCreditHeaderChars ∧ encodePublicCreditHeader credit = some value ∧
        Credit lib true credit := by
  simp only [decodePublicCreditHeader, bind_eq_ok, require_eq_ok, need_eq_ok, pure, Except.pure,
    Except.ok.injEq, Option.some.injEq, exists_const]
  constructor
  · rintro ⟨⟨-, hlength⟩, decoded, -, read, hread, credit', rfl, hcanonical, rfl⟩
    exact ⟨hlength, hcanonical, credit_of_dict hread⟩
  · rintro ⟨hlength, hencode, hcredit⟩
    obtain ⟨cs, hcs, rfl⟩ := Option.map_eq_some_iff.mp hencode
    have hvalue := headerValue?_encode hcs
    have hread : publicCreditFromDict lib (.object (sortedMembers credit)) = .ok (some credit) := by
      rw [publicCreditFromDict_sortedMembers]
      exact publicCredit_eq_ok.mpr ⟨rfl, rfl, rfl, hcredit⟩
    exact ⟨⟨length_pos_of_headerValue? hvalue, hlength⟩, _, hvalue, _, hread, credit, rfl, hencode, rfl⟩

/-- Every credit that is accepted has a header, which gives the credit back where it is not too
long and the name passes the rule on its characters; and no other header is accepted. -/
theorem publicCreditHeader_lossless (lib : TextLibrary) :
    (∀ (nameCharacters : Bool) (name url orcid : Json) (credit : PublicCredit),
      publicCredit lib nameCharacters name url orcid = .ok (some credit) →
        ∃ header, encodePublicCreditHeader credit = some header ∧
          (decodePublicCreditHeader lib (some header) = .ok (some credit) ↔
            header.length ≤ maxCreditHeaderChars ∧ nameProblem lib credit.name = none)) ∧
    ∀ (value : List Char) (credit : PublicCredit),
      decodePublicCreditHeader lib (some value) = .ok (some credit) →
        encodePublicCreditHeader credit = some value ∧
          publicCredit lib true (.string credit.name) (optional credit.url)
            (optional credit.orcid) = .ok (some credit) := by
  constructor
  · intro nameCharacters name url orcid credit h
    obtain ⟨-, -, -, hcredit⟩ := publicCredit_eq_ok.mp h
    obtain ⟨header, -, hheader, -⟩ := exists_header hcredit
    refine ⟨header, hheader, ?_⟩
    rw [decodePublicCreditHeader_eq_ok]
    constructor
    · rintro ⟨hlength, -, hstrict⟩
      exact ⟨hlength, hstrict.name.problem rfl⟩
    · rintro ⟨hlength, hproblem⟩
      obtain ⟨hname, hurl, horcid⟩ := hcredit
      exact ⟨hlength, hheader, ⟨hname.length, hname.normal, hname.characters, fun _ ↦ hproblem⟩,
        hurl, horcid⟩
  · intro value credit h
    obtain ⟨-, hencode, hcredit⟩ := decodePublicCreditHeader_eq_ok.mp h
    exact ⟨hencode, publicCredit_eq_ok.mpr ⟨rfl, rfl, rfl, hcredit⟩⟩

/-! ## A header that is too long -/

/-- The header grows with the bytes of the text. -/
theorem length_header {header cs : List Char} (h : encodePublicCreditHeader credit = some header)
    (hcs : Json.dumps (toDict credit) = some cs) :
    header.length = (4 * (Json.utf8 cs).length + 2) / 3 := by
  rw [encodePublicCreditHeader, hcs, Option.map_some, Option.some.injEq] at h
  rw [← h, Base64.length_encode, Json.data_encode]

/-- Tables that are right for ASCII and for `é`, and for URLs without a user and without a port. -/
def latinLibrary : TextLibrary where
  category n :=
    if n.isValidChar then
      if n < 32 ∨ n = 127 then text "Cc"
      else if n = 32 then text "Zs"
      else if 48 ≤ n ∧ n ≤ 57 then text "Nd"
      else if 65 ≤ n ∧ n ≤ 90 then text "Lu"
      else if 97 ≤ n ∧ n ≤ 122 ∨ n = 0xe9 then text "Ll"
      else text "Po"
    else text "Cs"
  nfc s := s
  urlsplit value :=
    if value.take 8 = text "https://" then
      some ⟨text "https", some ((value.drop 8).takeWhile (· ∉ text "/?#")), none, none⟩
    else none
  category_surrogate n hn := by
    rw [if_neg hn]
    rfl

/-- 2048 characters, all but the first 14 of two bytes. -/
def longUrl : Text := text "https://e.org/" ++ List.replicate 2034 0xe9

theorem publicCreditHeader_lossless_ascii :
    ∃ header, encodePublicCreditHeader ⟨text "A", some (text "https://e.org/"), none⟩ = some header ∧
      decodePublicCreditHeader latinLibrary (some header) =
        .ok (some ⟨text "A", some (text "https://e.org/"), none⟩) := by
  have hcredit : publicCredit latinLibrary true (.string (text "A"))
      (.string (text "https://e.org/")) .null =
        .ok (some ⟨text "A", some (text "https://e.org/"), none⟩) := by
    decide +kernel
  have hbytes : (Json.dumps (toDict ⟨text "A", some (text "https://e.org/"), none⟩)).all
      (fun cs ↦ (Json.utf8 cs).length ≤ 3072) = true := by
    decide +kernel
  obtain ⟨header, hheader, hiff⟩ := (publicCreditHeader_lossless latinLibrary).1 true _ _ _ _ hcredit
  obtain ⟨cs, hcs, -⟩ := Option.map_eq_some_iff.mp hheader
  rw [hcs, Option.all_some, decide_eq_true_eq] at hbytes
  have hlength := length_header hheader hcs
  refine ⟨header, hheader, hiff.mpr ⟨?_, by decide +kernel⟩⟩
  rw [hlength, maxCreditHeaderChars]
  omega

theorem decode_tooLong {header : List Char} (h : maxCreditHeaderChars < header.length) :
    decodePublicCreditHeader lib (some header) = .error .headerLength := by
  rw [decodePublicCreditHeader, require, if_neg (by omega)]
  rfl

/-- A header that is not too long is refused for what is wrong with the credit. -/
theorem decode_refused {header : List Char} {e : CreditError}
    (hheader : encodePublicCreditHeader credit = some header)
    (hlength : header.length ≤ maxCreditHeaderChars)
    (h : publicCredit lib true (.string credit.name) (optional credit.url)
      (optional credit.orcid) = .error e) :
    decodePublicCreditHeader lib (some header) = .error e := by
  obtain ⟨cs, hcs, rfl⟩ := Option.map_eq_some_iff.mp hheader
  have hvalue := headerValue?_encode hcs
  have hrange := And.intro (length_pos_of_headerValue? hvalue) hlength
  rw [decodePublicCreditHeader, require, if_pos hrange, hvalue]
  change (publicCreditFromDict lib _ >>= _) = _
  rw [publicCreditFromDict_sortedMembers, h]
  rfl

/-- The limits on the values let a credit pass whose header is too long, and so does the rule for
what is already stored with a name whose header is refused. -/
theorem publicCreditHeader_lossy :
    (publicCredit latinLibrary true (.string (text "A")) (.string longUrl) .null =
        .ok (some ⟨text "A", some longUrl, none⟩) ∧
      ∃ header, encodePublicCreditHeader ⟨text "A", some longUrl, none⟩ = some header ∧
        decodePublicCreditHeader latinLibrary (some header) = .error .headerLength) ∧
    publicCredit latinLibrary false (.string (text "<b>")) .null .null =
        .ok (some ⟨text "<b>", none, none⟩) ∧
      ∃ header, encodePublicCreditHeader ⟨text "<b>", none, none⟩ = some header ∧
        decodePublicCreditHeader latinLibrary (some header) =
          .error (.nameProblem (.character 60)) := by
  have hlong : publicCredit latinLibrary true (.string (text "A")) (.string longUrl) .null =
      .ok (some ⟨text "A", some longUrl, none⟩) := by
    decide +kernel
  have hmarkup : publicCredit latinLibrary false (.string (text "<b>")) .null .null =
      .ok (some ⟨text "<b>", none, none⟩) := by
    decide +kernel
  have hmore : (Json.dumps (toDict ⟨text "A", some longUrl, none⟩)).all
      (fun cs ↦ 3072 < (Json.utf8 cs).length) = true := by
    decide +kernel
  have hless : (Json.dumps (toDict ⟨text "<b>", none, none⟩)).all
      (fun cs ↦ (Json.utf8 cs).length ≤ 3072) = true := by
    decide +kernel
  refine ⟨⟨hlong, ?_⟩, hmarkup, ?_⟩
  · obtain ⟨header, cs, hheader, hcs⟩ := exists_header (publicCredit_eq_ok.mp hlong).2.2.2
    rw [hcs, Option.all_some, decide_eq_true_eq] at hmore
    have hlength := length_header hheader hcs
    refine ⟨header, hheader, decode_tooLong ?_⟩
    rw [hlength, maxCreditHeaderChars]
    omega
  · obtain ⟨header, cs, hheader, hcs⟩ := exists_header (publicCredit_eq_ok.mp hmarkup).2.2.2
    rw [hcs, Option.all_some, decide_eq_true_eq] at hless
    have hlength := length_header hheader hcs
    refine ⟨header, hheader, decode_refused hheader ?_ (by decide +kernel)⟩
    rw [hlength, maxCreditHeaderChars]
    omega

end Conjectures.Attribution
