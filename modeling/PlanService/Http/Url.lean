import PlanService.Http.PercentCoding
import PlanService.Text.Split

/-! # URLs of HTTP servers

How an address is read that names a server and what to ask it for.  Reading is lenient: it
drops blanks around the address and line breaks in it, takes `\` for `/`, resolves `.` and
`..`, and percent-encodes what may not stand in a path.  Escapes that are already there are
kept as they are, and everything from `#` on is dropped.
-/

namespace PlanService.Http

/-- An address: the server, the pieces of the path between slashes, and the query. -/
structure Url where
  host : String
  port : Nat
  pieces : List (List Char)
  query : Option (List Char)
  deriving Repr, DecidableEq

namespace Url

/-! ## Percent-encoding -/

def isPathSafe (b : UInt8) : Bool :=
  32 < b && b < 127 && !("\"#<>?`\x7b\x7d".toList.any fun c => c.toNat == b.toNat)

def isQuerySafe (b : UInt8) : Bool :=
  32 < b && b < 127 && !("\"#<>'".toList.any fun c => c.toNat == b.toNat)

def encodeText (safe : UInt8 → Bool) (cs : List Char) : List Char :=
  (PercentCoding.encode safe (Text.Utf8.encode cs)).map fun b => Char.ofNat b.toNat

/-! ## Paths -/

/-- The piece with escaped dots as dots. -/
def plainDots : List Char → List Char
  | '%' :: '2' :: 'e' :: r | '%' :: '2' :: 'E' :: r => '.' :: plainDots r
  | c :: r => c :: plainDots r
  | [] => []

inductive Step where
  -- Stay where one is.
  | here
  -- Go up one piece.
  | up
  -- Go down to this piece.
  | down (piece : List Char)
  deriving Repr, DecidableEq

def Step.ofPiece (piece : List Char) : Step :=
  if plainDots piece = ['.'] then here
  else if plainDots piece = ['.', '.'] then up
  else down (encodeText isPathSafe piece)

/-- Whether a piece looks like a drive, such as `C:`; going up does not leave it. -/
def isDrive : List Char → Bool
  | [letter, mark] => letter.isAlpha && (mark == ':' || mark == '|')
  | _ => false

def goUp (pieces : List (List Char)) : List (List Char) :=
  if pieces.getLast?.any isDrive then pieces else pieces.dropLast

/-- Follows the pieces of a path.  At the end of a path, a step that goes nowhere leaves an
empty piece. -/
def resolve (done : List (List Char)) : List (List Char) → List (List Char)
  | [] => done
  | [last] =>
    match Step.ofPiece last with
    | .here => done ++ [[]]
    | .up => goUp done ++ [[]]
    | .down piece => done ++ [piece]
  | piece :: rest =>
    match Step.ofPiece piece with
    | .here => resolve done rest
    | .up => resolve (goUp done) rest
    | .down piece => resolve (done ++ [piece]) rest

/-! ## Addresses -/

def endsAuthority (c : Char) : Bool :=
  c == '/' || c == '\\' || c == '?' || c == '#'

def isForbiddenInHost (c : Char) : Bool :=
  c.toNat ≤ 32 || c.toNat == 127 || "#/:<>?@[\\]^|%".toList.contains c

/-- The port after a colon; without digits it is the usual one. -/
def readPort (digits : List Char) : Option Nat :=
  if digits.all Char.isDigit then
    if digits.isEmpty then some 80
    else
      let n := Nat.ofDigitChars 10 digits 0
      if n ≤ 65535 then some n else none
  else none

/-- The server's name and port; a user before `@` is dropped. -/
def readAuthority (cs : List Char) : Option (String × Nat) := do
  let cs := (cs.reverse.takeWhile (· ≠ '@')).reverse
  let host := (cs.takeWhile (· ≠ ':')).map Char.toLower
  let port ← readPort ((cs.dropWhile (· ≠ ':')).drop 1)
  if host.isEmpty || host.any isForbiddenInHost then none
  else return (String.ofList host, port)

def readPath (cs : List Char) : List (List Char) :=
  let path := (cs.takeWhile fun c => c ≠ '?' ∧ c ≠ '#').map fun c => if c = '\\' then '/' else c
  resolve [] (Text.split '/' (path.drop 1))

def readQuery (cs : List Char) : Option (List Char) :=
  match cs.dropWhile fun c => c ≠ '?' ∧ c ≠ '#' with
  | '?' :: query => some (encodeText isQuerySafe (query.takeWhile (· ≠ '#')))
  | _ => none

/-- The address without blanks and controls around it and without tabs and line breaks. -/
def clean (cs : List Char) : List Char :=
  let isEdge (c : Char) : Bool := c.toNat ≤ 32
  let cs := (cs.dropWhile isEdge).reverse.dropWhile isEdge |>.reverse
  cs.filter fun c => c ≠ '\t' ∧ c ≠ '\n' ∧ c ≠ '\r'

def parse (text : String) : Option Url :=
  let cs := clean text.toList
  match (cs.take 5).map Char.toLower with
  | ['h', 't', 't', 'p', ':'] => do
    let cs := (cs.drop 5).dropWhile fun c => c = '/' ∨ c = '\\'
    let (host, port) ← readAuthority (cs.takeWhile (!endsAuthority ·))
    let rest := cs.dropWhile (!endsAuthority ·)
    return { host, port, pieces := readPath rest, query := readQuery rest }
  | _ => none

def target (url : Url) : String :=
  let query :=
    match url.query with
    | some query => '?' :: query
    | none => []
  String.ofList ('/' :: (Text.join '/' url.pieces ++ query))

end Url

end PlanService.Http
