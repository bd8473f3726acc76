import PlanService.Json.Basic
import PlanService.Number.Decimal

/-! # What a JSON text says

A reader that wants a task meets the faults of a text in reading order: a number where a
name should be is met before a bracket that is missing at the end.  So a text is first read
as a `Draft`, which holds everything it says up to the first place where it is malformed,
and typed reading follows the draft.

`Draft.read` returns the draft and the text left after it; there is none left once the text
was found malformed.
-/

namespace PlanService.Json

mutual

/-- What a text says where a value is expected. -/
inductive Draft where
  | null
  | bool (value : Bool)
  -- A numeral; none when its value is too large for a double.
  | number (value : Option Number)
  -- A string; none when it escapes half of a surrogate pair.
  | string (value : Option String)
  | array (items : Draft.Items)
  | object (members : Draft.Members)
  -- No value starts here, or one starts and is malformed.
  | broken

inductive Draft.Items where
  | closed
  -- Neither a comma nor the bracket follows, or nothing follows a comma.
  | cut
  | item (value : Draft) (rest : Draft.Items)

inductive Draft.Members where
  | closed
  | cut
  -- A key that is no string is kept for the sake of readers that look at it first; its
  -- member is broken.
  | member (key value : Draft) (rest : Draft.Members)

end

deriving instance Repr for Draft, Draft.Items, Draft.Members

instance : Inhabited Draft := ⟨.broken⟩

namespace Draft

/-! ## Blanks and digits -/

def isSpace (c : Char) : Bool :=
  c == ' ' || c == '\n' || c == '\t' || c == '\r'

def skipSpace (cs : List Char) : List Char :=
  cs.dropWhile isSpace

def hexValue? (c : Char) : Option Nat :=
  if '0' ≤ c ∧ c ≤ '9' then some (c.toNat - 48)
  else if 'a' ≤ c ∧ c ≤ 'f' then some (c.toNat - 87)
  else if 'A' ≤ c ∧ c ≤ 'F' then some (c.toNat - 55)
  else none

def hexCode? (a b c d : Char) : Option Nat := do
  return (((← hexValue? a) * 16 + (← hexValue? b)) * 16 + (← hexValue? c)) * 16 + (← hexValue? d)

/-! ## Strings -/

/-- A piece of a quoted string: a character, or one half of a surrogate pair. -/
inductive Piece where
  | char (c : Char)
  | half (code : Nat)
  deriving Repr, DecidableEq

def Piece.ofCode (code : Nat) : Piece :=
  if 0xD800 ≤ code ∧ code ≤ 0xDFFF then .half code else .char (Char.ofNat code)

def escaped? : Char → Option Char
  | '"' => some '"'
  | '\\' => some '\\'
  | '/' => some '/'
  | 'b' => some '\x08'
  | 'f' => some '\x0c'
  | 'n' => some '\n'
  | 'r' => some '\r'
  | 't' => some '\t'
  | _ => none

/-- The pieces up to the closing quote, and the text after it.  None when the quote is
missing, an escape is unknown or a control character stands unescaped. -/
def pieces : List Char → Option (List Piece × List Char)
  | [] => none
  | '"' :: r => some ([], r)
  | '\\' :: 'u' :: a :: b :: c :: d :: r => do
    let code ← hexCode? a b c d
    let (rest, after) ← pieces r
    return (Piece.ofCode code :: rest, after)
  | '\\' :: c :: r => do
    let c ← escaped? c
    let (rest, after) ← pieces r
    return (.char c :: rest, after)
  | c :: r =>
    if c == '\\' || c.toNat < 0x20 then none
    else do
      let (rest, after) ← pieces r
      return (.char c :: rest, after)

/-- The text that pieces spell: a high half has to be followed at once by a low one. -/
def join : List Piece → Option (List Char)
  | [] => some []
  | .char c :: r => (join r).map (c :: ·)
  | .half high :: .half low :: r =>
    if high < 0xDC00 ∧ 0xDC00 ≤ low then
      (join r).map (Char.ofNat (0x10000 + (high - 0xD800) * 0x400 + (low - 0xDC00)) :: ·)
    else none
  | .half _ :: _ => none

def readString (cs : List Char) : Option (Option String × List Char) := do
  let (ps, after) ← pieces cs
  return ((join ps).map String.ofList, after)

/-! ## Numbers -/

def digitValue (c : Char) : Nat := c.toNat - 48

def readExponent (cs : List Char) : Option (Int × List Char) :=
  let (negative, cs) :=
    match cs with
    | '+' :: r => (false, r)
    | '-' :: r => (true, r)
    | r => (false, r)
  match cs.takeWhile Char.isDigit with
  | [] => none
  | digits =>
    let n : Int := Nat.ofDigitChars 10 digits 0
    some (if negative then -n else n, cs.dropWhile Char.isDigit)

/-- A number with a fraction or an exponent, or one beyond 64 bits, as a double. -/
def real (negative : Bool) (s : Decimal.Scaled) : Option Number :=
  s.toMagnitude.map fun m => .real ⟨negative, m⟩

/-- An integer numeral: kept as an integer within 64 bits; zero with a sign and anything
larger is a double. -/
def whole (negative : Bool) (digits : List Char) : Option Number :=
  let n := Nat.ofDigitChars 10 digits 0
  if negative then
    if n = 0 then some (.real ⟨true, .zero⟩)
    else if n ≤ Nat.pow 2 63 then some (.integer (-n))
    else real true (Decimal.wholeDigits (digits.map digitValue) 0)
  else if n < Nat.pow 2 64 then some (.integer n)
  else real false (Decimal.wholeDigits (digits.map digitValue) 0)

def readFraction (negative : Bool) (digits : List Char) (cs : List Char) :
    Option (Option Number × List Char) :=
  let start := Decimal.wholeDigits (digits.map digitValue) 0
  let finish (s : Decimal.Scaled) (cs : List Char) : Option (Option Number × List Char) :=
    match cs with
    | 'e' :: r | 'E' :: r => do
      let (e, r) ← readExponent r
      return (real negative ⟨s.significand, s.exponent + e⟩, r)
    | r => some (real negative s, r)
  match cs with
  | '.' :: r =>
    match r.takeWhile Char.isDigit with
    | [] => none
    | fraction =>
      finish (Decimal.fractionDigits (fraction.map digitValue) start) (r.dropWhile Char.isDigit)
  | 'e' :: _ | 'E' :: _ => finish start cs
  | r => some (whole negative digits, r)

def readNumber (cs : List Char) : Option (Option Number × List Char) :=
  let (negative, cs) :=
    match cs with
    | '-' :: r => (true, r)
    | r => (false, r)
  match cs.takeWhile Char.isDigit with
  | [] => none
  | '0' :: _ :: _ => none
  | digits => readFraction negative digits (cs.dropWhile Char.isDigit)

/-! ## Values -/

mutual

/-- A value.  The first argument bounds the nesting; the length of the text is enough. -/
def read : Nat → List Char → Draft × Option (List Char)
  | 0, _ => (.broken, none)
  | fuel + 1, cs =>
    match skipSpace cs with
    | 'n' :: 'u' :: 'l' :: 'l' :: r => (.null, some r)
    | 't' :: 'r' :: 'u' :: 'e' :: r => (.bool true, some r)
    | 'f' :: 'a' :: 'l' :: 's' :: 'e' :: r => (.bool false, some r)
    | '"' :: r =>
      match readString r with
      | some (s, r) => (.string s, some r)
      | none => (.broken, none)
    | '[' :: r =>
      match skipSpace r with
      | ']' :: r => (.array .closed, some r)
      | r =>
        let (items, after) := readItems fuel r
        (.array items, after)
    | '\x7b' :: r =>
      match skipSpace r with
      | '\x7d' :: r => (.object .closed, some r)
      | r =>
        let (members, after) := readMembers fuel r
        (.object members, after)
    | cs =>
      match readNumber cs with
      | some (n, r) => (.number n, some r)
      | none => (.broken, none)

def readItems : Nat → List Char → Items × Option (List Char)
  | 0, _ => (.cut, none)
  | fuel + 1, cs =>
    match read fuel cs with
    | (v, none) => (.item v .cut, none)
    | (v, some r) =>
      match skipSpace r with
      | ']' :: r => (.item v .closed, some r)
      | ',' :: r =>
        match skipSpace r with
        | ']' :: _ => (.item v .cut, none)
        | r =>
          let (rest, after) := readItems fuel r
          (.item v rest, after)
      | _ => (.item v .cut, none)

def readMembers : Nat → List Char → Members × Option (List Char)
  | 0, _ => (.cut, none)
  | fuel + 1, cs =>
    match skipSpace cs with
    | '"' :: r =>
      match readString r with
      | none => (.member .broken .broken .cut, none)
      | some (key, r) =>
        match skipSpace r with
        | ':' :: r =>
          match read fuel r with
          | (v, none) => (.member (.string key) v .cut, none)
          | (v, some r) =>
            match skipSpace r with
            | '\x7d' :: r => (.member (.string key) v .closed, some r)
            | ',' :: r =>
              match skipSpace r with
              | '\x7d' :: _ => (.member (.string key) v .cut, none)
              | r =>
                let (rest, after) := readMembers fuel r
                (.member (.string key) v rest, after)
            | _ => (.member (.string key) v .cut, none)
        | _ => (.member (.string key) .broken .cut, none)
    | r => (.member (read fuel r).1 .broken .cut, none)

end

/-- What a text says, and what is left of it after the value. -/
def ofText (text : String) : Draft × Option (List Char) :=
  read (2 * text.length + 2) text.toList

/-! ## Values that are passed over -/

mutual

/-- Whether the text of a value that nobody asks for is well formed: numbers of any size
and halves of surrogate pairs are, a value cut short is not. -/
def isWhole : Draft → Bool
  | .broken => false
  | .array items => items.areWhole
  | .object members => members.areWhole
  | _ => true

def Items.areWhole : Items → Bool
  | .closed => true
  | .cut => false
  | .item v rest => v.isWhole && rest.areWhole

def Members.areWhole : Members → Bool
  | .closed => true
  | .cut => false
  | .member (.string _) v rest => v.isWhole && rest.areWhole
  | .member _ _ _ => false

end

end Draft

end PlanService.Json
