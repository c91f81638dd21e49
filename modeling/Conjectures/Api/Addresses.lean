import Conjectures.Lib.JsonTokens
import Mathlib.Data.List.TakeWhile

/-!
# Addresses

What the middleware takes from the standard library's `ipaddress`: reading an address off a text,
writing it in its normal form, and membership in a network.

An address of version 6 may be compressed at one place, may end in one of version 4, and may carry a
scope.  A part of an address of version 4 has no leading zeros.
-/

namespace Conjectures.Api

open Lib Json

/-- An address of either version; one of the second may name the zone it is of. -/
inductive IpAddress where
  | v4 (ip : BitVec 32)
  | v6 (ip : BitVec 128) (scopeId : Option (List Char))
  deriving DecidableEq

inductive IpNetwork where
  | v4 (address netmask : BitVec 32)
  | v6 (address netmask : BitVec 128)
  deriving DecidableEq

/-- `network.__contains__`. -/
def IpNetwork.contains : IpNetwork → IpAddress → Bool
  | .v4 address netmask, .v4 ip => ip &&& netmask = address
  | .v6 address netmask, .v6 ip _ => ip &&& netmask = address
  | .v4 .., .v6 .. | .v6 .., .v4 .. => false

/-! ## Reading -/

/-- The value of digits, the most significant first. -/
def valueOf (base : ℕ) (digits : List ℕ) : ℕ := digits.foldl (base * · + ·) 0

/-- `_parse_octet`: no leading zero. -/
def parseOctet (text : List Char) : Option ℕ :=
  if text ≠ [] ∧ text.all Char.isDigit ∧ text.length ≤ 3 ∧ (text = ['0'] ∨ text.head? ≠ some '0')
  then
    let octet := valueOf 10 (text.map fun c ↦ c.toNat - 48)
    if octet ≤ 255 then some octet else none
  else none

/-- `IPv4Address._ip_int_from_string`. -/
def parseV4 (text : List Char) : Option ℕ :=
  match text.splitOn '.' with
  | [a, b, c, d] => ([a, b, c, d].mapM parseOctet).map (valueOf 256)
  | _ => none

/-- `_parse_hextet`. -/
def parseHextet (text : List Char) : Option ℕ :=
  if text ≠ [] ∧ text.length ≤ 4 then (text.mapM hexValue).map (valueOf 16) else none

/-- A value below 65536 as `%x` writes it. -/
def toHex (n : ℕ) : List Char := Nat.toDigits 16 n

/-- The parts of an address of the second version: a dotted end stands for two of them. -/
def parseParts (text : List Char) : Option (List (List Char)) :=
  let parts := text.splitOn ':'
  if parts.length < 3 then none
  else
    match parts.getLast? with
    | none => none
    | some last =>
      if '.' ∈ last then
        (parseV4 last).map fun ip ↦
          parts.dropLast ++ [toHex (ip / 65536 % 65536), toHex (ip % 65536)]
      else some parts

/-- The empty parts between the first and the last, by their positions. -/
def inner (parts : List (List Char)) : List ℕ :=
  (List.range parts.length).filter fun i ↦
    0 < i ∧ i + 1 < parts.length ∧ parts.getD i [] = []

/-- The parts before and after the skipped ones; `none` where no parts can be meant. -/
def skipped (parts : List (List Char)) : Option (List (List Char) × List (List Char)) :=
  match inner parts with
  | [] =>
    if parts.length = 8 ∧ parts.head? ≠ some [] ∧ parts.getLast? ≠ some [] then some (parts, [])
    else none
  | [skip] =>
    let high := parts.take skip
    let low := parts.drop (skip + 1)
    let high' := if high.head? = some [] then high.tail else high
    let low' := if low.getLast? = some [] then low.dropLast else low
    if (high.head? = some [] ∧ high' ≠ []) ∨ (low.getLast? = some [] ∧ low' ≠ []) then none
    else if high'.length + low'.length < 8 then some (high', low') else none
  | _ :: _ :: _ => none

/-- `IPv6Address._ip_int_from_string`. -/
def parseV6 (text : List Char) : Option ℕ := do
  let parts ← parseParts text
  if 9 < parts.length then none
  else
    let (high, low) ← skipped parts
    let high ← high.mapM parseHextet
    let low ← low.mapM parseHextet
    some (valueOf 65536 (high ++ List.replicate (8 - (high.length + low.length)) 0 ++ low))

/-- `_split_scope_id`. -/
def splitScopeId (text : List Char) : Option (List Char × Option (List Char)) :=
  match text.splitOn '%' with
  | [address] => some (address, none)
  | [address, scopeId] => if scopeId = [] then none else some (address, some scopeId)
  | _ => none

/-- `ipaddress.ip_address`. -/
def ipAddress? (text : List Char) : Option IpAddress :=
  if '/' ∈ text then none
  else
    match parseV4 text with
    | some ip => some (.v4 (BitVec.ofNat 32 ip))
    | none => do
      let (address, scopeId) ← splitScopeId text
      let ip ← parseV6 address
      some (.v6 (BitVec.ofNat 128 ip) scopeId)

/-! ## Writing -/

/-- The longest run of zeros, the first of them: where it begins and how long it is. -/
def longestZeros (hextets : List (List Char)) : ℕ × ℕ :=
  ((List.range hextets.length).map fun i ↦
    (i, ((hextets.drop i).takeWhile (· = ['0'])).length)).foldl
      (fun best r ↦ if best.2 < r.2 then r else best) (0, 0)

/-- `_compress_hextets`. -/
def compressHextets (hextets : List (List Char)) : List (List Char) :=
  let (start, length) := longestZeros hextets
  if 1 < length then
    (if start = 0 then [[]] else []) ++ hextets.take start ++ [[]] ++
      hextets.drop (start + length) ++ if start + length = hextets.length then [[]] else []
  else hextets

/-- `str`, of an address. -/
def IpAddress.str : IpAddress → List Char
  | .v4 ip =>
    ['.'].intercalate ([24, 16, 8, 0].map fun shift ↦ Nat.toDigits 10 ((ip.toNat >>> shift) % 256))
  | .v6 ip scopeId =>
    [':'].intercalate (compressHextets
      ([112, 96, 80, 64, 48, 32, 16, 0].map fun shift ↦ toHex ((ip.toNat >>> shift) % 65536))) ++
    match scopeId with
    | none => []
    | some zone => '%' :: zone

end Conjectures.Api
