import Conjectures.Scanner.Tokens

/-!
# The submission policy

`check_submission`: the rules on the tokens of a submission, the dependencies it may name in the
statements of its targets only, and the answer it has to give as a literal.
-/

namespace Conjectures.Scanner

/-! ## Words -/

scoped instance lawfulBEq_word : LawfulBEq (List Char) := inferInstance

def topLevelProhibited : List (List Char) :=
  ["import", "prelude", "module", "axiom", "axioms", "unsafe", "extern", "foreign", "initialize",
    "elab", "syntax", "macro", "set_option", "run_tac"].map String.toList

def anywhereProhibited : List (List Char) :=
  ["import", "prelude", "module", "axiom", "axioms", "constant", "constants", "sorry", "admit",
    "sorryAx", "initialize", "builtin_initialize", "elab", "elab_rules", "syntax", "syntax_rules",
    "declare_syntax_cat", "macro", "macro_rules", "native_decide", "set_option", "include_str",
    "include_bytes", "implemented_by", "run_tac", "run_cmd", "attribute", "deriving",
    "compile_inductive", "init_quot", "docs_to_verso", "add_decl_doc", "register_tactic_tag",
    "tactic_extension", "recommended_spelling", "gen_injective_theorems", "notation", "infix",
    "infixl", "infixr", "prefix", "postfix", "mixfix", "meta", "partial", "coinductive",
    "instance", "unsafe", "extern", "foreign"].map String.toList

/-- What may stand before the name of a declaration. -/
def declarationKeywords : List (List Char) :=
  ["def", "abbrev", "opaque", "theorem", "lemma", "instance", "inductive", "coinductive",
    "structure", "class"].map String.toList

/-- What ends the body of the answer. -/
def declarationStarts : List (List Char) :=
  ["theorem", "lemma", "def", "example", "namespace", "section", "end"].map String.toList

def theoremKeywords : List (List Char) := ["theorem", "lemma"].map String.toList

def submittedAnswer : List Char := "submittedAnswer".toList

def maxDelimiterDepth : ℕ := 4096

def maxLineLength : ℕ := 100000

def maxLiteralDigits : ℕ := 4096

/-! ## The manifest -/

/-- The values of `syntax` in an answer policy. -/
inductive AnswerSyntax where
  | natLiteral
  | intLiteral
  | boolLiteral
  | finiteConstructor
  /-- any other value that is true -/
  | other
  deriving DecidableEq

structure AnswerPolicy where
  answerSyntax : Option AnswerSyntax
  allowedConstructors : List (List Char)

/-- What `check_submission` reads of a task manifest. -/
structure TaskManifest where
  theoremNames : List (List Char)
  forbiddenDependencies : List (List Char)
  answerPolicy : AnswerPolicy

/-- The part of a Unicode category the policy asks for. -/
inductive Category where
  /-- `Cf` -/
  | format
  /-- `Cs` -/
  | surrogate
  /-- `Co` -/
  | privateUse
  /-- `Cn` -/
  | unassigned
  | other
  deriving DecidableEq

/-- What a submission is refused for, with what the message shows of it. -/
inductive Violation where
  | tokenLimit
  | nestingLimit
  | lineLimit
  | unicode (index : ℕ) (char : Char)
  | interpolatedString (line column : ℕ)
  | prohibited (name : List Char) (line column : ℕ)
  | topLevelCommand (name : List Char) (line column : ℕ)
  | attributes (line column : ℕ)
  | hashCommand (line column : ℕ)
  | dependency (name : List Char)
  /-- exactly one regular def submittedAnswer declaration is required -/
  | oneAnswer
  /-- required submittedAnswer definition was not found -/
  | noAnswer
  /-- answer definition must be named submittedAnswer -/
  | answerName
  /-- submittedAnswer must be a closed natural-number numeral -/
  | notNatural
  /-- submittedAnswer must be a closed signed integer literal -/
  | notInteger
  | digitLimit
  /-- submittedAnswer must be exactly true or false -/
  | notBoolean
  | notConstructor (allowed : List (List Char))
  deriving DecidableEq

structure StaticCheckResult where
  valid : Bool
  violations : List Violation
  submittedAnswer : Option (List Char)
  deriving DecidableEq

inductive CheckError where
  | indexError
  deriving DecidableEq

/-! ## Looking tokens up -/

/-- `tokens[index].value` -/
def valueAt (tokens : List Token) (index : ℕ) : List Char :=
  (tokens[index]?.map Token.value).getD []

/-- `next(index for index in range(start, stop) if p(index))` -/
def firstIndex (start stop : ℕ) (p : ℕ → Bool) : Option ℕ :=
  (List.range' start (stop - start)).find? p

/-- The characters `:=` from `index` on. -/
def isAssign (tokens : List Token) (index : ℕ) : Bool :=
  valueAt tokens index = [':'] && valueAt tokens (index + 1) = ['=']

/-! ## The answer -/

/-- `str.isascii() and str.isdigit()` -/
def isNumeral (value : List Char) : Bool := value ≠ [] && value.all Char.isDigit

/-- The places of the declarations of an answer, under any keyword. -/
def answerDefinitions (tokens : List Token) : List ℕ :=
  (List.range (tokens.length - 1)).filter fun index ↦
    valueAt tokens index ∈ declarationKeywords ∧
      (leanNameParts (valueAt tokens (index + 1))).getLast? = some submittedAnswer

/-- What stands from `start` on, up to the next declaration, outside of brackets. -/
def answerBody (tokens : List Token) (start : ℕ) : List (List Char) :=
  let rest := tokens.drop start
  let body := rest.takeWhile fun token ↦
    ¬ (token.depth = 0 ∧ token.lineStart = true ∧ token.value ∈ declarationStarts)
  (body.filter fun token ↦ token.depth = 0).map Token.value

/-- The checks on the body, one for each value of `syntax`. -/
def answerError (policy : AnswerPolicy) (body : List (List Char)) : Option Violation :=
  match policy.answerSyntax with
  | some .natLiteral =>
    match body with
    | [numeral] =>
      if ¬ isNumeral numeral then some .notNatural
      else if maxLiteralDigits < numeral.length then some .digitLimit
      else none
    | _ => some .notNatural
  | some .intLiteral =>
    let valid : Bool := match body with
      | [numeral] => isNumeral numeral
      | [sign, numeral] => sign = ['-'] && isNumeral numeral
      | _ => false
    if ¬ valid then some .notInteger
    else if maxLiteralDigits < (body.getLastD []).length then some .digitLimit
    else none
  | some .boolLiteral =>
    if body = ["true".toList] ∨ body = ["false".toList] then none else some .notBoolean
  | some .finiteConstructor =>
    match body with
    | [constructor] =>
      if constructor ∈ policy.allowedConstructors then none
      else some (.notConstructor policy.allowedConstructors)
    | _ => some (.notConstructor policy.allowedConstructors)
  | some .other | none => none

/-- `_literal_answer`: the answer, or what is wrong with it. -/
def literalAnswer (tokens : List Token) (policy : AnswerPolicy) :
    Option (List Char) × Option Violation :=
  if policy.answerSyntax = none then (none, none)
  else
    match answerDefinitions tokens with
    | [start] =>
      if valueAt tokens start ≠ "def".toList then (none, some .oneAnswer)
      else
        match firstIndex (start + 2) tokens.length (isAssign tokens) with
        | none => (none, some .noAnswer)
        | some assign =>
          if valueAt tokens (start + 1) ≠ submittedAnswer then (none, some .answerName)
          else
            let body := answerBody tokens (assign + 2)
            match answerError policy body with
            | some error => (none, some error)
            | none => (some body.flatten, none)
    | _ => (none, some .oneAnswer)

/-! ## The dependencies -/

/-- The token names the dependency with these parts. -/
def names (dependency : List (List Char)) (token : Token) : Bool :=
  leanNameParts token.value = dependency ||
    (dependency.getLastD []) ∈ leanNameParts token.value

/-- `target_theorem.rsplit(".", 1)[-1]` -/
def shortName (name : List Char) : List Char := name.rtakeWhile (· ≠ '.')

/-- Where the statement of a target is taken to start and to end. -/
def targetRange (tokens : List Token) (target : List Char) : Option (ℕ × ℕ) :=
  match firstIndex 0 (tokens.length - 1) fun index ↦
      valueAt tokens index ∈ theoremKeywords && valueAt tokens (index + 1) = shortName target with
  | none => none
  | some start =>
    (firstIndex start (tokens.length - 1) (isAssign tokens)).map fun assign ↦ (start, assign)

/-- The places at which the tokens name a dependency. -/
def references (tokens : List Token) (dependency : List (List Char)) : List ℕ :=
  (List.range tokens.length).filter fun index ↦ tokens[index]?.any (names dependency)

/-- One pass of the loop over the dependencies. -/
def checkDependency (tokens : List Token) (ranges : List (ℕ × ℕ)) (dependency : List Char) :
    Except CheckError (List Violation) :=
  let parts := leanNameParts dependency
  if parts = [] then .error .indexError
  else if (references tokens parts).any fun index ↦
      ¬ ranges.any fun (start, assign) ↦ start ≤ index ∧ index < assign then
    .ok [.dependency dependency]
  else .ok []

/-! ## All rules -/

/-- Python's line boundaries. -/
def isLineEnd (c : Char) : Bool :=
  (0x0a ≤ c.toNat && c.toNat ≤ 0x0d) || (0x1c ≤ c.toNat && c.toNat ≤ 0x1e) || c.toNat = 0x85 ||
    c.toNat = 0x2028 || c.toNat = 0x2029

/-- `len(line) > MAX_LINE_LENGTH` for some line of the text.  A carriage return and the line feed
after it end two lines here, of which the second one is empty. -/
def hasLongLine (text : List Char) : Bool :=
  (text.splitOnP isLineEnd).any fun line ↦ maxLineLength < line.length

/-- One pass of the loop over the tokens. -/
def tokenViolations (token : Token) (next : List Char) : List Violation :=
  if token.value = interpolatedString then [.interpolatedString token.line token.column]
  else
    (((leanNameParts token.value).find? fun name ↦ name ∈ anywhereProhibited).map fun name ↦
        .prohibited name token.line token.column).toList ++
      (if token.depth = 0 ∧ token.lineStart = true ∧ token.value ∈ topLevelProhibited then
        [.topLevelCommand token.value token.line token.column] else []) ++
      (if token.value = ['@'] ∧ next = ['['] then [.attributes token.line token.column] else []) ++
      (if token.depth = 0 ∧ token.value = ['#'] ∧ next ≠ ['['] then
        [.hashCommand token.line token.column] else [])

/-- The loop over the tokens. -/
def allTokenViolations : List Token → List Violation
  | [] => []
  | token :: rest =>
    tokenViolations token (valueAt rest 0) ++ allTokenViolations rest

/-- The first character that may not be in a submission. -/
def forbiddenUnicode (category : Char → Category) (text : List Char) : Option (ℕ × Char) :=
  (text.zipIdx.find? fun (char, _) ↦ category char ≠ .other).map fun (char, index) ↦ (index, char)

def checkSubmission (category : Char → Category) (text : List Char) (manifest : TaskManifest) :
    Except CheckError StaticCheckResult := do
  let tokens := leanTokens text
  if maxTokens < tokens.length then return ⟨false, [.tokenLimit], none⟩
  let nesting := if tokens.any fun token ↦ maxDelimiterDepth < token.depth then
    [Violation.nestingLimit] else []
  let lines := if hasLongLine text then [Violation.lineLimit] else []
  let unicode := ((forbiddenUnicode category text).map fun (index, char) ↦
    Violation.unicode index char).toList
  let ranges := manifest.theoremNames.filterMap (targetRange tokens)
  let dependencies ← manifest.forbiddenDependencies.mapM (checkDependency tokens ranges)
  let (answer, error) := literalAnswer tokens manifest.answerPolicy
  let violations := nesting ++ lines ++ unicode ++ allTokenViolations tokens ++
    dependencies.flatten ++ error.toList
  return ⟨violations.isEmpty, violations.eraseDups, answer⟩

end Conjectures.Scanner
