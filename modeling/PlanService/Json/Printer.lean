import PlanService.Json.Basic
import PlanService.Number.Shortest

/-! # Writing JSON

`Json.compact` writes a value without blanks; `Json.pretty` puts every item and member on a
line of its own, two blanks deeper than its container.  Strings escape the quote, the
backslash and the controls below `20`, and nothing else.
-/

namespace PlanService

namespace Binary64

def decimal (n : Nat) : List Char := Nat.toDigits 10 n

/-- How the decimal `digits * 10 ^ exponent` is spelt.  Positional notation, always with a
point, serves from `0.00001` up to below `10 ^ 16`; outside, the exponent is written with
its sign, and the point only if more than one digit is left. -/
def spell (d : DecimalDigits) : List Char :=
  let digits := decimal d.digits
  let place : Int := digits.length + d.exponent
  if 0 ≤ d.exponent ∧ place ≤ 16 then
    digits ++ List.replicate d.exponent.toNat '0' ++ ['.', '0']
  else if 0 < place ∧ place ≤ 16 then
    digits.take place.toNat ++ '.' :: digits.drop place.toNat
  else if -5 < place ∧ place ≤ 0 then
    ['0', '.'] ++ List.replicate (-place).toNat '0' ++ digits
  else
    let point := if digits.length = 1 then [] else ['.']
    let sign := if 0 < place then '+' else '-'
    digits.take 1 ++ point ++ digits.drop 1 ++ 'e' :: sign :: decimal (place - 1).natAbs

def chars (x : Binary64) : List Char :=
  (if x.negative then ['-'] else []) ++
    if x.magnitude.isZero then ['0', '.', '0'] else spell x.magnitude.shortest

end Binary64

namespace Number

def intChars : Int → List Char
  | .ofNat n => Nat.toDigits 10 n
  | .negSucc n => '-' :: Nat.toDigits 10 (n + 1)

def chars : Number → List Char
  | .integer n => intChars n
  | .real x => x.chars

end Number

namespace Json

def escape (c : Char) : List Char :=
  if c = '"' then ['\\', '"']
  else if c = '\\' then ['\\', '\\']
  else if c = '\n' then ['\\', 'n']
  else if c = '\r' then ['\\', 'r']
  else if c = '\t' then ['\\', 't']
  else if c = '\x08' then ['\\', 'b']
  else if c = '\x0c' then ['\\', 'f']
  else if c.toNat < 0x20 then
    ['\\', 'u', '0', '0', (c.toNat / 16).digitChar, (c.toNat % 16).digitChar]
  else [c]

def quote (s : String) : List Char :=
  '"' :: (s.toList.flatMap escape ++ ['"'])

mutual

def chars : Json → List Char
  | .null => ['n', 'u', 'l', 'l']
  | .bool true => ['t', 'r', 'u', 'e']
  | .bool false => ['f', 'a', 'l', 's', 'e']
  | .number n => n.chars
  | .string s => quote s
  | .array [] => ['[', ']']
  | .array (v :: rest) => '[' :: (v.chars ++ itemChars rest)
  | .object [] => ['\x7b', '\x7d']
  | .object ((k, v) :: rest) => '\x7b' :: (quote k ++ ':' :: (v.chars ++ memberChars rest))

def itemChars : List Json → List Char
  | [] => [']']
  | v :: rest => ',' :: (v.chars ++ itemChars rest)

def memberChars : List (String × Json) → List Char
  | [] => ['\x7d']
  | (k, v) :: rest => ',' :: (quote k ++ ':' :: (v.chars ++ memberChars rest))

end

def compact (v : Json) : String := String.ofList v.chars

def newLine (depth : Nat) : List Char :=
  '\n' :: List.replicate (2 * depth) ' '

mutual

/-- The value over several lines, its own brackets `depth` levels deep. -/
def prettyChars (depth : Nat) : Json → List Char
  | .null => ['n', 'u', 'l', 'l']
  | .bool true => ['t', 'r', 'u', 'e']
  | .bool false => ['f', 'a', 'l', 's', 'e']
  | .number n => n.chars
  | .string s => quote s
  | .array [] => ['[', ']']
  | .array (v :: rest) =>
    '[' :: (newLine (depth + 1) ++ v.prettyChars (depth + 1) ++ prettyItems depth rest)
  | .object [] => ['\x7b', '\x7d']
  | .object ((k, v) :: rest) =>
    '\x7b' :: (newLine (depth + 1) ++ quote k ++ [':', ' '] ++ v.prettyChars (depth + 1) ++
      prettyMembers depth rest)

def prettyItems (depth : Nat) : List Json → List Char
  | [] => newLine depth ++ [']']
  | v :: rest =>
    ',' :: (newLine (depth + 1) ++ v.prettyChars (depth + 1) ++ prettyItems depth rest)

def prettyMembers (depth : Nat) : List (String × Json) → List Char
  | [] => newLine depth ++ ['\x7d']
  | (k, v) :: rest =>
    ',' :: (newLine (depth + 1) ++ quote k ++ [':', ' '] ++ v.prettyChars (depth + 1) ++
      prettyMembers depth rest)

end

def pretty (v : Json) : String := String.ofList (v.prettyChars 0)

end Json

end PlanService
