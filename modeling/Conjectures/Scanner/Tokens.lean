import Conjectures.Db.Instructions
import Mathlib.Data.List.TakeWhile

/-!
# Tokens

`lean_tokens`: one pass over a Lean text that drops comments, strings and character literals, and
keeps the words and the other characters with their places.

Lines and columns are counted from one, as in the source.  The scanner is not the lexer of Lean: it
knows no raw strings, so that behind an `r` a quote opens an ordinary string, and of an interpolated
string it leaves one token that stands for it.
-/

namespace Conjectures.Scanner

open Db (IsSpace)

structure Token where
  value : List Char
  line : ℕ
  column : ℕ
  depth : ℕ
  lineStart : Bool
  deriving DecidableEq, Repr

/-- `MAX_TOKENS` -/
def maxTokens : ℕ := 5000000

/-- The value of the token that stands for the start of an interpolated string. -/
def interpolatedString : List Char := "__interpolated_string__".toList

/-! ## Characters -/

/-- A word starts here. -/
def wordStart (c : Char) : Bool := c.isAlpha || c = '_' || 127 < c.toNat

/-- A word goes on here. -/
def wordRest (c : Char) : Bool :=
  c.isAlphanum || c = '_' || c = '\x27' || c = '.' || 127 < c.toNat

def isOpening (c : Char) : Bool := c = '(' || c = '[' || c = '{'

def isClosing (c : Char) : Bool := c = ')' || c = ']' || c = '}'

/-! ## The scanner -/

/-- Where the scanner is.  `previous` is `text[index - 1]`, and `rest` the text from `index` on. -/
structure Scan where
  previous : Option Char
  rest : List Char
  line : ℕ
  column : ℕ
  depth : ℕ
  lineStart : Bool
  blockDepth : ℕ

namespace Scan

def start (text : List Char) : Scan := ⟨none, text, 1, 1, 0, true, 0⟩

/-- `index` is moved to `rest`, on the same line. -/
def moved (s : Scan) (last : Char) (rest : List Char) (columns : ℕ) : Scan :=
  { s with previous := some last, rest, column := s.column + columns }

/-- `index` is moved past the end of a line. -/
def nextLine (s : Scan) (rest : List Char) : Scan :=
  { s with previous := some '\n', rest, line := s.line + 1, column := 1 }

/-- The loop that looks for the closing quote of a string or a character literal. -/
def skipLiteral (quote : Char) : List Char → Scan → Scan
  | [], s => { s with rest := [] }
  | c :: rest, s =>
    if c = '\\' then
      match rest with
      | [] => s.moved c [] 2
      | d :: rest => skipLiteral quote rest (s.moved d rest 2)
    else if c = quote then s.moved c rest 1
    else if c = '\n' then skipLiteral quote rest (s.nextLine rest)
    else skipLiteral quote rest (s.moved c rest 1)

def token (s : Scan) (value : List Char) (depth : ℕ) : Token :=
  ⟨value, s.line, s.column, depth, s.lineStart⟩

/-- One pass of the loop inside a block comment. -/
def blockStep (s : Scan) (c : Char) (rest : List Char) : Scan :=
  if (c :: rest).take 2 = ['/', '-'] then
    { s.moved '-' (rest.drop 1) 2 with blockDepth := s.blockDepth + 1 }
  else if (c :: rest).take 2 = ['-', '/'] then
    { s.moved '/' (rest.drop 1) 2 with blockDepth := s.blockDepth - 1 }
  else if c = '\n' then { s.nextLine rest with lineStart := true }
  else s.moved c rest 1

/-- One pass of the loop outside of block comments, at the character `c`. -/
def codeStep (s : Scan) (c : Char) (rest : List Char) : Option Token × Scan :=
  if (c :: rest).take 2 = ['/', '-'] then
    (none, { s.moved '-' (rest.drop 1) 2 with blockDepth := 1 })
  else if (c :: rest).take 2 = ['-', '-'] then
    (none, { s with
      previous := ('-' :: (rest.drop 1).takeWhile (· ≠ '\n')).getLast?
      rest := (rest.drop 1).dropWhile (· ≠ '\n') })
  else if c = '\x22' ∨ c = '\x27' then
    (if c = '\x22' ∧ s.previous = some '!' then some (s.token interpolatedString s.depth) else none,
      skipLiteral c rest (s.moved c rest 1))
  else if c = '\n' then (none, { s.nextLine rest with lineStart := true })
  else if IsSpace c then (none, s.moved c rest 1)
  else if wordStart c then
    let value := c :: rest.takeWhile wordRest
    (some (s.token value s.depth),
      { s.moved (value.getLastD c) (rest.dropWhile wordRest) value.length with lineStart := false })
  else if isOpening c then
    (some (s.token [c] s.depth),
      { s.moved c rest 1 with depth := s.depth + 1, lineStart := false })
  else if isClosing c ∧ s.depth ≠ 0 then
    (some (s.token [c] (s.depth - 1)),
      { s.moved c rest 1 with depth := s.depth - 1, lineStart := false })
  else (some (s.token [c] s.depth), { s.moved c rest 1 with lineStart := false })

/-- One pass of the loop. -/
def step (s : Scan) : Option Token × Scan :=
  match s.rest with
  | [] => (none, s)
  | c :: rest => if s.blockDepth ≠ 0 then (none, s.blockStep c rest) else s.codeStep c rest

/-- The loop, for at most as many passes as there are characters left.  One token more than
allowed is kept. -/
def scan : ℕ → ℕ → Scan → List Token
  | 0, _, _ => []
  | passes + 1, room, s =>
    if s.rest = [] ∨ room = 0 then []
    else
      match s.step with
      | (none, s') => scan passes room s'
      | (some token, s') => token :: scan passes (room - 1) s'

end Scan

def leanTokens (text : List Char) : List Token :=
  Scan.scan text.length (maxTokens + 1) (Scan.start text)

/-! ## Names -/

/-- `str.removeprefix` -/
def removePrefix (start text : List Char) : List Char :=
  if start.isPrefixOf text then text.drop start.length else text

/-- `str.removesuffix` -/
def removeSuffix (ending text : List Char) : List Char :=
  if ending.isSuffixOf text then text.take (text.length - ending.length) else text

/-- `re.findall(r"«[^»]*»|[^.]+", name)`, for at most as many matches as there are characters. -/
def nameSegments : ℕ → List Char → List (List Char)
  | 0, _ => []
  | _ + 1, [] => []
  | matched + 1, c :: rest =>
    if c = '«' ∧ '»' ∈ rest then
      (c :: rest.takeWhile (· ≠ '»') ++ ['»']) ::
        nameSegments matched ((rest.dropWhile (· ≠ '»')).drop 1)
    else if c = '.' then nameSegments matched rest
    else (c :: rest.takeWhile (· ≠ '.')) :: nameSegments matched (rest.dropWhile (· ≠ '.'))

/-- `_lean_name_parts` -/
def leanNameParts (value : List Char) : List (List Char) :=
  let rooted := removePrefix "_root_.".toList value
  (nameSegments rooted.length rooted).map fun part ↦ removeSuffix ['»'] (removePrefix ['«'] part)

example : leanNameParts "_root_.Kourovka.«19.25».kourovka".toList =
    ["Kourovka".toList, "19.25".toList, "kourovka".toList] := by decide

end Conjectures.Scanner
