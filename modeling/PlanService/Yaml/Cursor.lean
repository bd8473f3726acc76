/-! # Places in a YAML text

A cursor is the rest of a text with the place it stands at.  Lines and columns matter in
YAML: indentation gives structure, and a key has to stand on one line.
-/

namespace PlanService.Yaml

inductive Fault where
  -- A character that may not stand in a YAML text.
  | control (c : Char)
  -- A tab where only blanks may indent.
  | tab
  -- A character that starts nothing.
  | unexpected (c : Char)
  -- The text ends inside a scalar.
  | unclosed
  -- An escape in a quoted scalar that means nothing.
  | escape
  -- The mark of a document's start or end inside a scalar.
  | documentMark
  -- A colon in a flow collection that is followed by an indicator.
  | colon
  -- The head of a block scalar is not understood.
  | blockHead
  -- The name of an anchor or alias is not understood.
  | anchor
  -- A tag is not understood, or its handle is not declared.
  | tag
  -- A directive is not understood or stands twice.
  | directive
  -- What starts a line at the indentation of keys is no key.
  | keyWithoutValue
  -- An item, a key or a value stands where none may start.
  | misplaced
  -- The structure goes on differently than it has to.
  | shape
  -- There is more than one document.
  | documents
  -- An alias of nothing.
  | reference (name : String)
  -- Another kind of node stands here.
  | wrongType
  -- A mapping ends without this key.
  | missing (key : String)
  -- This key stands twice.
  | duplicate (key : String)
  deriving Repr, DecidableEq

/-- A place in a text. -/
structure Cursor where
  rest : List Char
  index : Nat := 0
  line : Nat := 0
  column : Nat := 0
  deriving Repr, DecidableEq

/-! ## Kinds of characters -/

def isBreak (c : Char) : Bool :=
  c == '\r' || c == '\n' || c.toNat == 0x85 || c.toNat == 0x2028 || c.toNat == 0x2029

def isBlank (c : Char) : Bool :=
  c == ' ' || c == '\t'

def isWord (c : Char) : Bool :=
  c.isAlphanum || c == '_' || c == '-'

def isAllowed (c : Char) : Bool :=
  let n := c.toNat
  n == 9 || n == 10 || n == 13 || (32 ≤ n && n ≤ 126) || n == 0x85 ||
    (0xA0 ≤ n && n ≤ 0xD7FF) || (0xE000 ≤ n && n ≤ 0xFFFD) || 0x10000 ≤ n

/-- A line end as it counts in the value of a scalar: most are line feeds. -/
def normalBreak (c : Char) : Char :=
  if c.toNat == 0x2028 || c.toNat == 0x2029 then c else '\n'

namespace Cursor

def atEnd (cursor : Cursor) : Bool := cursor.rest.isEmpty

def peek (cursor : Cursor) (n : Nat) : Option Char := cursor.rest[n]?

def at? (cursor : Cursor) (c : Char) : Bool := cursor.peek 0 == some c

/-- Whether the character `n` places further on ends a word: a blank, a line end or the end
of the text. -/
def endsWord (cursor : Cursor) (n : Nat) : Bool :=
  (cursor.peek n).all fun c => isBlank c || isBreak c

def endsLine (cursor : Cursor) : Bool := (cursor.peek 0).all isBreak

/-- Whether a line starts here with the mark of a document's start or end. -/
def atMark (cursor : Cursor) : Bool :=
  cursor.column == 0 &&
    (cursor.rest.take 3 == ['-', '-', '-'] || cursor.rest.take 3 == ['.', '.', '.']) &&
    cursor.endsWord 3

def skip (cursor : Cursor) (n : Nat) : Cursor :=
  { cursor with
    rest := cursor.rest.drop n, index := cursor.index + n, column := cursor.column + n }

def skipWhile (cursor : Cursor) (p : Char → Bool) : Cursor :=
  cursor.skip (cursor.rest.takeWhile p).length

/-- The start of the next line, if a line ends here. -/
def nextLine (cursor : Cursor) : Cursor :=
  match cursor.rest with
  | '\r' :: '\n' :: rest => { rest, index := cursor.index + 2, line := cursor.line + 1 }
  | c :: rest =>
    if isBreak c then { rest, index := cursor.index + 1, line := cursor.line + 1 } else cursor
  | [] => cursor

def lineEnd (cursor : Cursor) : List Char :=
  match cursor.rest with
  | c :: _ => if isBreak c then [normalBreak c] else []
  | [] => []

end Cursor

end PlanService.Yaml
