import Mathlib.Data.List.DropRight
import Conjectures.Lib.JsonFields

/-!
# Public credit

`conjectures_subnet/attribution.py` and the rule on names of `public_names.py`: the name, and
perhaps the profile and the ORCID, under which a submission is published.  Values are checked as they
stand; nothing is trimmed or normalised.

Python's tables of Unicode and its splitting of URLs are parameters (`TextLibrary`), of which only
the category of surrogates is fixed.
-/

namespace Conjectures.Attribution

open Lib

/-- A result of `urllib.parse.urlsplit`, the parts that are looked at. -/
structure SplitUrl where
  scheme : Text
  hostname : Option Text
  username : Option Text
  password : Option Text

/-- What Python's tables of Unicode say, and how it takes a URL apart. -/
structure TextLibrary where
  /-- `unicodedata.category` -/
  category : ℕ → Text
  /-- `unicodedata.normalize("NFC", …)` -/
  nfc : Text → Text
  /-- `urlsplit`, and the port of what it gives; none is a `ValueError` -/
  urlsplit : Text → Option SplitUrl
  /-- surrogates have the category `Cs` -/
  category_surrogate : ∀ n, ¬ n.isValidChar → (category n).head? = some 67

inductive NameProblem where
  /-- `"more than 3 combining marks on one character"` -/
  | marks
  /-- `"consecutive spaces"` -/
  | spaces
  /-- `"may only contain letters, digits, single spaces and . , ' ’ - _ ( ) &; U+… is not allowed"` -/
  | character (n : ℕ)
  /-- `"must contain at least one letter or digit"` -/
  | letter
  deriving DecidableEq

inductive CreditError where
  /-- `"public credit URL and ORCID require a public credit name"` -/
  | nameless
  /-- `"public credit name must be a string"` -/
  | nameType
  /-- `"public credit name must be 1-128 characters with no outer whitespace"` -/
  | nameLength
  /-- `"public credit name must use NFC Unicode normalization"` -/
  | nameNormalization
  /-- `"public credit name must not contain control or formatting characters"` -/
  | nameControl
  /-- `"public credit name …"` -/
  | nameProblem (problem : NameProblem)
  /-- `"public credit URL must be a string"` -/
  | urlType
  /-- `"public credit URL must be 1-2048 characters with no outer whitespace"` -/
  | urlLength
  /-- `"public credit URL must not contain whitespace or control characters"` -/
  | urlControl
  /-- `"public credit URL is malformed"` -/
  | urlMalformed
  /-- `"public credit URL must be an absolute https URL"` -/
  | urlScheme
  /-- `"public credit URL must not contain credentials"` -/
  | urlCredentials
  /-- `"public credit ORCID must have the form 0000-0000-0000-000X"` -/
  | orcidForm
  /-- `"public credit ORCID checksum is invalid"` -/
  | orcidChecksum
  /-- `"public credit must be an object"` -/
  | notObject
  /-- `"unknown public credit fields: …"` -/
  | unknownFields (fields : List Text)
  /-- `"public credit name is required"` -/
  | nameRequired
  /-- `"X-Conjectures-Public-Credit must be 1-4096 base64url characters"` -/
  | headerLength
  /-- `"X-Conjectures-Public-Credit must be base64url-encoded UTF-8 JSON"`, or what a hook raises -/
  | headerMalformed
  /-- `"X-Conjectures-Public-Credit must use the canonical encoding"` -/
  | headerCanonical
  deriving DecidableEq

structure PublicCredit where
  name : Text
  url : Option Text
  orcid : Option Text
  deriving DecidableEq

def maxCreditHeaderChars : ℕ := 4096

def maxCreditNameChars : ℕ := 128

def maxCreditUrlChars : ℕ := 2048

/-! ## Text -/

/-- `str.isspace`, of one character -/
def isSpace (n : ℕ) : Bool :=
  [0x20, 0x85, 0xa0, 0x1680, 0x2028, 0x2029, 0x202f, 0x205f, 0x3000].contains n ||
    (0x09 ≤ n && n ≤ 0x0d) || (0x1c ≤ n && n ≤ 0x1f) || (0x2000 ≤ n && n ≤ 0x200a)

/-- `str.strip` -/
def strip (s : Text) : Text := (s.dropWhile isSpace).rdropWhile isSpace

variable (lib : TextLibrary)

/-- A category that starts with this letter. -/
def TextLibrary.Starts (letter : Char) (n : ℕ) : Prop :=
  (lib.category n).head? = some letter.toNat

instance (letter : Char) : DecidablePred (lib.Starts letter) :=
  fun _ ↦ inferInstanceAs (Decidable (_ = _))

/-! ## `name_problem` -/

def maxCombiningMarks : ℕ := 3

/-- `NAME_PUNCTUATION` -/
def namePunctuation : Text := text ".,'’-_()&"

/-- The variables of the loop. -/
structure NameScan where
  marks : ℕ
  spaces : ℕ
  hasLetterOrDigit : Bool

def NameScan.step (s : NameScan) (character : ℕ) : Except NameProblem NameScan :=
  if lib.Starts 'M' character then
    if s.marks + 1 > maxCombiningMarks then .error .marks else .ok { s with marks := s.marks + 1 }
  else if character = 32 then
    if s.spaces + 1 > 1 then .error .spaces
    else .ok { s with marks := 0, spaces := s.spaces + 1 }
  else if lib.Starts 'L' character ∨ lib.Starts 'N' character then
    .ok ⟨0, 0, true⟩
  else if character ∈ namePunctuation then .ok { s with marks := 0, spaces := 0 }
  else .error (.character character)

def checkName (value : Text) : Except NameProblem Unit := do
  let s ← value.foldlM (NameScan.step lib) ⟨0, 0, false⟩
  if s.hasLetterOrDigit then return () else .error .letter

/-- `name_problem` -/
def nameProblem (value : Text) : Option NameProblem :=
  match checkName lib value with
  | .ok _ => none
  | .error problem => some problem

/-! ## `public_credit` -/

/-- `_profile_url`, of a value that may be of any type -/
def profileUrl : Json → Except CreditError (Option Text)
  | .null => .ok none
  | .string value => do
    require (value = strip value ∧ 1 ≤ value.length ∧ value.length ≤ maxCreditUrlChars) .urlLength
    require (∀ n ∈ value, isSpace n = false ∧ ¬ lib.Starts 'C' n) .urlControl
    let parsed ← need (lib.urlsplit value) .urlMalformed
    require (parsed.scheme = text "https" ∧ parsed.hostname ∉ [none, some []]) .urlScheme
    require (parsed.username = none ∧ parsed.password = none) .urlCredentials
    return some value
  | _ => .error .urlType

def isDigit (n : ℕ) : Bool := 48 ≤ n && n ≤ 57

/-- `ORCID.fullmatch`: four groups of four digits, the last of them perhaps an `X`. -/
def orcidForm : Text → Bool
  | [a, b, c, d, h, e, f, g, i, h', j, k, l, m, h'', n, o, p, x] =>
    [a, b, c, d, e, f, g, i, j, k, l, m, n, o, p].all isDigit && (isDigit x || x = 88) &&
      h = 45 && h' = 45 && h'' = 45
  | _ => false

/-- The character that the digits before it ask for. -/
def orcidCheck (value : Text) : ℕ :=
  let total := ((value.filter (· ≠ 45)).dropLast.foldl (fun total n ↦ (total + (n - 48)) * 2) 0)
  let remainder := (12 - total % 11) % 11
  if remainder = 10 then 88 else 48 + remainder

/-- `_orcid` -/
def orcid : Json → Except CreditError (Option Text)
  | .null => .ok none
  | .string value => do
    require (orcidForm value = true) .orcidForm
    require (value.getLast? = some (orcidCheck value)) .orcidChecksum
    return some value
  | _ => .error .orcidForm

/-- What is checked of a name that is a string. -/
def checkCreditName (nameCharacters : Bool) (name : Text) : Except CreditError Unit := do
  require (name = strip name ∧ 1 ≤ name.length ∧ name.length ≤ maxCreditNameChars) .nameLength
  require (lib.nfc name = name) .nameNormalization
  require (∀ n ∈ name, ¬ lib.Starts 'C' n) .nameControl
  if nameCharacters then
    match nameProblem lib name with
    | some problem => .error (.nameProblem problem)
    | none => return ()
  else return ()

/-- `public_credit`, of values of any type; `null` is `None`. -/
def publicCredit (nameCharacters : Bool) (name url orcidValue : Json) :
    Except CreditError (Option PublicCredit) :=
  match name with
  | .null =>
    match url, orcidValue with
    | .null, .null => .ok none
    | _, _ => .error .nameless
  | .string name => do
    checkCreditName lib nameCharacters name
    let checkedUrl ← profileUrl lib url
    let checkedOrcid ← orcid orcidValue
    return some ⟨name, checkedUrl, checkedOrcid⟩
  | _ => .error .nameType

/-! ## What is accepted -/

/-- A field that may be missing. -/
def optional : Option Text → Json
  | none => .null
  | some s => .string s

/-- A profile that is accepted. -/
structure ProfileUrl (url : Text) : Prop where
  length : url = strip url ∧ 1 ≤ url.length ∧ url.length ≤ maxCreditUrlChars
  characters : ∀ n ∈ url, isSpace n = false ∧ ¬ lib.Starts 'C' n
  parsed : ∃ parsed, lib.urlsplit url = some parsed ∧ parsed.scheme = text "https" ∧
    parsed.hostname ∉ [none, some []] ∧ parsed.username = none ∧ parsed.password = none

/-- An ORCID that is accepted. -/
structure Orcid (value : Text) : Prop where
  form : orcidForm value = true
  checksum : value.getLast? = some (orcidCheck value)

/-- A name that is accepted. -/
structure CreditName (nameCharacters : Bool) (name : Text) : Prop where
  length : name = strip name ∧ 1 ≤ name.length ∧ name.length ≤ maxCreditNameChars
  normal : lib.nfc name = name
  characters : ∀ n ∈ name, ¬ lib.Starts 'C' n
  problem : nameCharacters = true → nameProblem lib name = none

/-- A credit that is accepted. -/
structure Credit (nameCharacters : Bool) (credit : PublicCredit) : Prop where
  name : CreditName lib nameCharacters credit.name
  url : ∀ url ∈ credit.url, ProfileUrl lib url
  orcid : ∀ value ∈ credit.orcid, Orcid value

variable {lib} {nameCharacters : Bool}

theorem checkCreditName_eq_ok {name : Text} {u : Unit} :
    checkCreditName lib nameCharacters name = .ok u ↔ CreditName lib nameCharacters name := by
  have hproblem : (if nameCharacters then
      match nameProblem lib name with
      | some problem => .error (.nameProblem problem)
      | none => return ()
      else return () : Except CreditError Unit) = .ok () ↔
        (nameCharacters = true → nameProblem lib name = none) := by
    cases nameCharacters with
    | false => simp [pure, Except.pure]
    | true => cases nameProblem lib name <;> simp [pure, Except.pure]
  simp only [checkCreditName, bind_eq_ok, require_eq_ok, exists_const, hproblem]
  constructor
  · rintro ⟨h₁, h₂, h₃, h₄⟩
    exact ⟨h₁, h₂, h₃, h₄⟩
  · rintro ⟨h₁, h₂, h₃, h₄⟩
    exact ⟨h₁, h₂, h₃, h₄⟩

theorem profileUrl_eq_ok {value : Json} {url : Option Text} :
    profileUrl lib value = .ok url ↔ value = optional url ∧ ∀ s ∈ url, ProfileUrl lib s := by
  cases value with
  | null => cases url <;> simp [profileUrl, optional]
  | string s =>
    have hok : profileUrl lib (.string s) = .ok url ↔ ProfileUrl lib s ∧ some s = url := by
      simp only [profileUrl, bind_eq_ok, require_eq_ok, need_eq_ok, exists_const, pure, Except.pure,
        Except.ok.injEq]
      constructor
      · rintro ⟨hlength, hcharacters, parsed, hparsed, ⟨hscheme, hhost⟩, ⟨huser, hpassword⟩, rfl⟩
        exact ⟨⟨hlength, hcharacters, parsed, hparsed, hscheme, hhost, huser, hpassword⟩, rfl⟩
      · rintro ⟨⟨hlength, hcharacters, parsed, hparsed, hscheme, hhost, huser, hpassword⟩, rfl⟩
        exact ⟨hlength, hcharacters, parsed, hparsed, ⟨hscheme, hhost⟩, ⟨huser, hpassword⟩, rfl⟩
    rw [hok]
    cases url with
    | none => simp [optional]
    | some url =>
      simp only [optional, Json.string.injEq, Option.mem_some_iff, Option.some.injEq]
      constructor
      · rintro ⟨h, rfl⟩
        exact ⟨rfl, fun _ hs ↦ hs ▸ h⟩
      · rintro ⟨rfl, h⟩
        exact ⟨h _ rfl, rfl⟩
  | _ => cases url <;> simp [profileUrl, optional]

theorem orcid_eq_ok {value : Json} {checked : Option Text} :
    orcid value = .ok checked ↔ value = optional checked ∧ ∀ s ∈ checked, Orcid s := by
  cases value with
  | null => cases checked <;> simp [orcid, optional]
  | string s =>
    have hok : orcid (.string s) = .ok checked ↔ Orcid s ∧ some s = checked := by
      simp only [orcid, bind_eq_ok, require_eq_ok, exists_const, pure, Except.pure,
        Except.ok.injEq]
      constructor
      · rintro ⟨h, h', heq⟩
        exact ⟨⟨h, h'⟩, heq⟩
      · rintro ⟨⟨h, h'⟩, heq⟩
        exact ⟨h, h', heq⟩
    rw [hok]
    cases checked with
    | none => simp [optional]
    | some checked =>
      simp only [optional, Json.string.injEq, Option.mem_some_iff, Option.some.injEq]
      constructor
      · rintro ⟨h, rfl⟩
        exact ⟨rfl, fun _ hs ↦ hs ▸ h⟩
      · rintro ⟨rfl, h⟩
        exact ⟨h _ rfl, rfl⟩
  | _ => cases checked <;> simp [orcid, optional]

theorem publicCredit_eq_ok {name url value : Json} {credit : PublicCredit} :
    publicCredit lib nameCharacters name url value = .ok (some credit) ↔
      name = .string credit.name ∧ url = optional credit.url ∧ value = optional credit.orcid ∧
        Credit lib nameCharacters credit := by
  obtain ⟨creditName, creditUrl, creditOrcid⟩ := credit
  cases name with
  | null =>
    simp only [publicCredit]
    split <;> simp
  | string s =>
    simp only [publicCredit, bind_eq_ok, checkCreditName_eq_ok, profileUrl_eq_ok, orcid_eq_ok,
      exists_const, pure, Except.pure, Except.ok.injEq, Option.some.injEq, PublicCredit.mk.injEq,
      Json.string.injEq]
    constructor
    · rintro ⟨hname, checkedUrl, ⟨hurl, hprofile⟩, checkedOrcid, ⟨horcid, hform⟩, rfl, rfl, rfl⟩
      exact ⟨rfl, hurl, horcid, hname, hprofile, hform⟩
    · rintro ⟨rfl, hurl, horcid, hname, hprofile, hform⟩
      exact ⟨hname, _, ⟨hurl, hprofile⟩, _, ⟨horcid, hform⟩, rfl, rfl, rfl⟩
  | _ => simp [publicCredit]

/-! ## The characters of a credit -/

theorem isValidChar_of_category {n : ℕ} (h : ¬ lib.Starts 'C' n) : n.isValidChar := by
  by_contra hn
  exact h (lib.category_surrogate n hn)

theorem Orcid.digits {value : Text} (h : Orcid value) :
    ∀ n ∈ value, isDigit n = true ∨ n = 88 ∨ n = 45 := by
  have hform := h.form
  unfold orcidForm at hform
  split at hform
  · simp only [List.all_cons, List.all_nil, Bool.and_eq_true, Bool.or_eq_true, decide_eq_true_eq,
      Bool.and_true] at hform
    simp only [List.mem_cons, List.not_mem_nil, or_false]
    rintro n (rfl | rfl | rfl | rfl | rfl | rfl | rfl | rfl | rfl | rfl | rfl | rfl | rfl | rfl |
      rfl | rfl | rfl | rfl | rfl) <;> tauto
  · cases hform

end Conjectures.Attribution
