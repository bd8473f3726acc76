import PlanService.Text.Utf8
import PlanService.Yaml.Scalar

/-! # Tokens of a YAML text

The text is cut into tokens from left to right.  Indentation becomes the start and end of
block collections.  That a scalar is a key is only seen at the colon after it: so each place
where a key could have started is remembered, one per flow collection that is open, and the
key's token is put in front of it when the colon comes.
-/

namespace PlanService.Yaml

inductive Token where
  | version (major minor : Nat)
  | tagDirective (handle start : List Char)
  | documentStart
  | documentEnd
  | blockSequenceStart
  | blockMappingStart
  | blockEnd
  | flowSequenceStart
  | flowSequenceEnd
  | flowMappingStart
  | flowMappingEnd
  | blockEntry
  | flowEntry
  | key
  | value
  | reference (name : String)
  | anchor (name : String)
  | tag (handle rest : List Char)
  | scalar (style : ScalarStyle) (text : String)
  deriving Repr, DecidableEq

namespace Token

/-- A place where a key may have started. -/
structure KeyPlace where
  cursor : Cursor
  -- The number of tokens before it.
  position : Nat
  -- Whether something else than a key would break the block's structure.
  required : Bool
  deriving Repr

/-- The state of cutting a text. -/
structure Scan where
  cursor : Cursor
  tokens : Array Token := #[]
  -- The column of the innermost block collection, `-1` outside any.
  indent : Int := -1
  -- The columns of the block collections around it.
  outer : List Int := []
  -- The place of a possible key in each open flow collection, innermost first, and last
  -- the one outside all of them.
  places : List (Option KeyPlace) := [none]
  -- Whether a key may start here.
  keyAllowed : Bool := true

namespace Scan

def inFlow (scan : Scan) : Bool := 1 < scan.places.length

def push (scan : Scan) (token : Token) : Scan :=
  { scan with tokens := scan.tokens.push token }

def skip (scan : Scan) (n : Nat) : Scan :=
  { scan with cursor := scan.cursor.skip n }

/-! ## Possible keys -/

/-- Gives up the innermost possible key; one that is required may not be given up. -/
def dropKey (scan : Scan) : Except Fault Scan :=
  match scan.places with
  | some place :: outer =>
    if place.required then .error .keyWithoutValue else .ok { scan with places := none :: outer }
  | _ => .ok scan

/-- Gives up a possible key that did not end on its line, or not soon enough. -/
def dropStale (cursor : Cursor) : Option KeyPlace → Except Fault (Option KeyPlace)
  | none => .ok none
  | some place =>
    if place.cursor.line < cursor.line ∨ place.cursor.index + 1024 < cursor.index then
      if place.required then .error .keyWithoutValue else .ok none
    else .ok (some place)

/-- Remembers that a key may start here, if one is allowed. -/
def noteKey (scan : Scan) : Except Fault Scan :=
  if scan.keyAllowed then do
    let required := !scan.inFlow && scan.indent == scan.cursor.column
    let scan ← scan.dropKey
    return { scan with
      places := some ⟨scan.cursor, scan.tokens.size, required⟩ :: scan.places.drop 1 }
  else .ok scan

/-! ## Indentation -/

/-- Opens a block collection at a column, if that is further in than the innermost one; its
token goes to `position`. -/
def openBlock (scan : Scan) (column position : Nat) (token : Token) : Scan :=
  if !scan.inFlow && scan.indent < column then
    { scan with
      outer := scan.indent :: scan.outer
      indent := column
      tokens := scan.tokens.insertIdxIfInBounds position token }
  else scan

def closeTo (column : Int) : List Int → Scan → Scan
  | [], scan => scan
  | out :: outer, scan =>
    if column < scan.indent then
      closeTo column outer { (scan.push .blockEnd) with indent := out, outer }
    else scan

def closeBlocks (scan : Scan) (column : Int) : Scan :=
  if scan.inFlow then scan else closeTo column scan.outer scan

/-! ## Between tokens -/

/-- Skips blanks, comments and line ends.  After a line end a key may start; tabs are blanks
only where none may. -/
def skipSpace : Nat → Scan → Scan
  | 0, scan => scan
  | fuel + 1, scan =>
    let cursor := scan.cursor
    let cursor := if cursor.column = 0 ∧ cursor.at? '\uFEFF' then cursor.skip 1 else cursor
    let tabs := scan.inFlow || !scan.keyAllowed
    let cursor := cursor.skipWhile fun c => c == ' ' || (tabs && c == '\t')
    let cursor := if cursor.at? '#' then cursor.skipWhile (!isBreak ·) else cursor
    if (cursor.peek 0).any isBreak then
      skipSpace fuel
        { scan with cursor := cursor.nextLine, keyAllowed := !scan.inFlow || scan.keyAllowed }
    else { scan with cursor }

/-! ## Directives -/

def readNumber (cursor : Cursor) : Except Fault (Nat × Cursor) :=
  let digits := cursor.rest.takeWhile Char.isDigit
  if digits.isEmpty ∨ 9 < digits.length then .error .directive
  else .ok (Nat.ofDigitChars 10 digits 0, cursor.skip digits.length)

/-- The handle of a tag: an exclamation mark, or a word between two.  In a directive no other
form is allowed; elsewhere the second mark may be missing. -/
def readHandle (directive : Bool) (cursor : Cursor) : Except Fault (List Char × Cursor) :=
  if cursor.at? '!' then
    let cursor := cursor.skip 1
    let word := cursor.rest.takeWhile isWord
    let cursor := cursor.skip word.length
    if cursor.at? '!' then .ok ('!' :: (word ++ ['!']), cursor.skip 1)
    else if directive && !word.isEmpty then .error .tag
    else .ok ('!' :: word, cursor)
  else .error .tag

def escapeWidth? (byte : Nat) : Option Nat :=
  if byte < 0x80 then some 1
  else if byte / 0x20 = 6 then some 2
  else if byte / 0x10 = 14 then some 3
  else if byte / 8 = 30 then some 4
  else none

def readEscapedBytes : Nat → List Char → Option (List Nat × List Char)
  | 0, cs => some ([], cs)
  | n + 1, '%' :: a :: b :: r => do
    let byte ← hexCode? [a, b]
    let (bytes, rest) ← readEscapedBytes n r
    return (byte :: bytes, rest)
  | _ + 1, _ => none

def readEscapedChar (cs : List Char) : Option (List Nat × List Char) := do
  let (first, _) ← readEscapedBytes 1 cs
  let width ← first.head?.bind escapeWidth?
  let (bytes, rest) ← readEscapedBytes width cs
  if bytes.tail.all (· / 0x40 = 2) then return (bytes, rest) else none

/-- The characters of a tag besides letters and digits; brackets and commas only where they
cannot be meant otherwise. -/
def isTagChar (brackets : Bool) (c : Char) : Bool :=
  isWord c || ";/?:@&=+$.!~*'()".toList.contains c ||
    (brackets && ",[]".toList.contains c)

def readTagBytes (brackets : Bool) : Nat → List Char → Except Fault (List UInt8 × List Char)
  | 0, cs => .ok ([], cs)
  | _, [] => .ok ([], [])
  | fuel + 1, c :: r =>
    if c = '%' then
      match readEscapedChar (c :: r) with
      | none => .error .tag
      | some (bytes, rest) => do
        let (more, rest) ← readTagBytes brackets fuel rest
        return (bytes.map Nat.toUInt8 ++ more, rest)
    else if isTagChar brackets c then do
      let (more, rest) ← readTagBytes brackets fuel r
      return (c.toNat.toUInt8 :: more, rest)
    else .ok ([], c :: r)

/-- The text of a tag; bytes that are no text name no tag that anybody asks for. -/
def readTagText (brackets : Bool) (cursor : Cursor) : Except Fault (List Char × Cursor) := do
  let (bytes, rest) ← readTagBytes brackets cursor.rest.length cursor.rest
  return ((Text.Utf8.decode bytes).getD ['\uFFFD'],
    cursor.skip (cursor.rest.length - rest.length))

def readVersion (cursor : Cursor) : Except Fault (Token × Cursor) := do
  let (major, cursor) ← readNumber (cursor.skipWhile isBlank)
  if cursor.at? '.' then
    let (minor, cursor) ← readNumber (cursor.skip 1)
    return (.version major minor, cursor)
  else throw .directive

def readTagDirective (cursor : Cursor) : Except Fault (Token × Cursor) := do
  let (handle, cursor) ← readHandle true (cursor.skipWhile isBlank)
  if !(cursor.peek 0).any isBlank then throw .directive
  let (start, cursor) ← readTagText true (cursor.skipWhile isBlank)
  if start.isEmpty || !cursor.endsWord 0 then throw .directive
  return (.tagDirective handle start, cursor)

def readDirective (cursor : Cursor) : Except Fault (Token × Cursor) := do
  let cursor := cursor.skip 1
  let name := cursor.rest.takeWhile isWord
  let cursor := cursor.skip name.length
  if !cursor.endsWord 0 then throw .directive
  let (token, cursor) ←
    match String.ofList name with
    | "YAML" => readVersion cursor
    | "TAG" => readTagDirective cursor
    | _ => throw .directive
  let cursor := cursor.skipWhile isBlank
  let cursor := if cursor.at? '#' then cursor.skipWhile (!isBreak ·) else cursor
  if cursor.endsLine then return (token, cursor.nextLine) else throw .directive

/-! ## Anchors and tags -/

def readName (cursor : Cursor) : Except Fault (String × Cursor) :=
  let name := cursor.rest.takeWhile isWord
  let cursor := cursor.skip name.length
  let ends := cursor.endsWord 0 || (cursor.peek 0).any ("?:,]\x7d%@`".toList.contains ·)
  if name.isEmpty || !ends then .error .anchor else .ok (String.ofList name, cursor)

def readTag (inFlow : Bool) (cursor : Cursor) : Except Fault (Token × Cursor) := do
  let (token, cursor) ←
    if cursor.peek 1 == some '<' then do
      let (text, cursor) ← readTagText true (cursor.skip 2)
      if text.isEmpty || !cursor.at? '>' then throw .tag
      pure (Token.tag [] text, cursor.skip 1)
    else do
      let (handle, cursor) ← readHandle false cursor
      let (text, cursor) ← readTagText false cursor
      if 1 < handle.length && handle.getLast? == some '!' then
        if text.isEmpty then throw .tag
        pure (Token.tag handle text, cursor)
      else
        let text := handle.drop 1 ++ text
        pure (if text.isEmpty then Token.tag [] ['!'] else Token.tag ['!'] text, cursor)
  if cursor.endsWord 0 || (inFlow && cursor.at? ',') then return (token, cursor)
  else throw .tag

/-! ## Cutting -/

def pushAt (scan : Scan) (result : Token × Cursor) : Scan :=
  { scan.push result.1 with cursor := result.2 }

/-- A token at the level of documents: it closes every block. -/
def documentToken (scan : Scan) (read : Cursor → Except Fault (Token × Cursor)) :
    Except Fault Scan := do
  let scan ← (scan.closeBlocks (-1)).dropKey
  return { scan.pushAt (← read scan.cursor) with keyAllowed := false }

/-- A token that may itself be a key, or stand before one. -/
def keyToken (scan : Scan) (read : Cursor → Except Fault (Token × Cursor)) :
    Except Fault Scan := do
  let scan ← scan.noteKey
  return { scan.pushAt (← read scan.cursor) with keyAllowed := false }

def openFlow (scan : Scan) (token : Token) : Except Fault Scan := do
  let scan ← scan.noteKey
  return { (scan.push token).skip 1 with places := none :: scan.places, keyAllowed := true }

def closeFlow (scan : Scan) (token : Token) : Except Fault Scan := do
  let scan ← scan.dropKey
  let places := if scan.inFlow then scan.places.drop 1 else scan.places
  return { (scan.push token).skip 1 with places, keyAllowed := false }

/-- The sign of an item or of a key in a block collection, which opens the collection if it
is further in than the innermost one. -/
def blockSign (scan : Scan) (collection sign : Token) (keyAllowed : Bool) :
    Except Fault Scan := do
  if !scan.inFlow && !scan.keyAllowed then throw .misplaced
  let scan := scan.openBlock scan.cursor.column scan.tokens.size collection
  let scan ← scan.dropKey
  return { (scan.push sign).skip 1 with keyAllowed }

/-- The colon before a value.  A key that was noted gets its token now. -/
def valueSign (scan : Scan) : Except Fault Scan := do
  match scan.places with
  | some place :: outer =>
    let scan := { scan with tokens := scan.tokens.insertIdxIfInBounds place.position .key }
    let scan := scan.openBlock place.cursor.column place.position .blockMappingStart
    return { (scan.push .value).skip 1 with places := none :: outer, keyAllowed := false }
  | _ =>
    if !scan.inFlow && !scan.keyAllowed then throw .misplaced
    let scan := scan.openBlock scan.cursor.column scan.tokens.size .blockMappingStart
    return { (scan.push .value).skip 1 with keyAllowed := !scan.inFlow }

/-- A block scalar; after it a key may start. -/
def blockScalar (scan : Scan) (style : ScalarStyle) : Except Fault Scan := do
  let scan ← scan.dropKey
  let (text, cursor) ← readBlock (style == .folded) scan.indent (scan.cursor.skip 1)
  return { scan.pushAt (.scalar style (String.ofList text), cursor) with keyAllowed := true }

def quotedScalar (scan : Scan) (style : ScalarStyle) : Except Fault Scan :=
  scan.keyToken fun cursor => do
    let (text, cursor) ←
      readQuoted (style == .doubleQuoted) cursor.rest.length (cursor.skip 1) []
    return (.scalar style (String.ofList text), cursor)

def startsPlain (scan : Scan) : Bool :=
  match scan.cursor.peek 0 with
  | none => false
  | some c =>
    !(isBlank c || isBreak c || "-?:,[]\x7b\x7d#&*!|>\x27\"%@`".toList.contains c) ||
      (c == '-' && !(scan.cursor.peek 1).any isBlank) ||
      (!scan.inFlow && (c == '?' || c == ':') && !scan.cursor.endsWord 1)

/-- A plain scalar; if a line ended after it a key may start. -/
def plainScalar (scan : Scan) : Except Fault Scan := do
  let scan ← scan.noteKey
  let cursor := scan.cursor
  let (text, broken, cursor) ←
    readPlain scan.inFlow (scan.indent + 1) cursor.rest.length cursor [] {}
  return { scan.pushAt (.scalar .plain (String.ofList text), cursor) with keyAllowed := broken }

def finish (scan : Scan) : Except Fault Scan :=
  (scan.closeBlocks (-1)).dropKey

def token (scan : Scan) (c : Char) : Except Fault Scan :=
  let cursor := scan.cursor
  if cursor.column = 0 ∧ c = '%' then scan.documentToken readDirective
  else if cursor.atMark then
    scan.documentToken fun cursor =>
      .ok (if c = '-' then .documentStart else .documentEnd, cursor.skip 3)
  else if c = '[' then scan.openFlow .flowSequenceStart
  else if c = '\x7b' then scan.openFlow .flowMappingStart
  else if c = ']' then scan.closeFlow .flowSequenceEnd
  else if c = '\x7d' then scan.closeFlow .flowMappingEnd
  else if c = ',' then do
    let scan ← scan.dropKey
    return { (scan.push .flowEntry).skip 1 with keyAllowed := true }
  else if c = '-' ∧ cursor.endsWord 1 then scan.blockSign .blockSequenceStart .blockEntry true
  else if c = '?' ∧ (scan.inFlow ∨ cursor.endsWord 1) then
    scan.blockSign .blockMappingStart .key (!scan.inFlow)
  else if c = ':' ∧ (scan.inFlow ∨ cursor.endsWord 1) then scan.valueSign
  else if c = '*' then scan.keyToken fun cursor => do
    let (name, cursor) ← readName (cursor.skip 1)
    return (.reference name, cursor)
  else if c = '&' then scan.keyToken fun cursor => do
    let (name, cursor) ← readName (cursor.skip 1)
    return (.anchor name, cursor)
  else if c = '!' then scan.keyToken (readTag scan.inFlow)
  else if c = '|' ∧ !scan.inFlow then scan.blockScalar .literal
  else if c = '>' ∧ !scan.inFlow then scan.blockScalar .folded
  else if c = '\x27' then scan.quotedScalar .singleQuoted
  else if c = '"' then scan.quotedScalar .doubleQuoted
  else if scan.startsPlain then scan.plainScalar
  else .error (.unexpected c)

/-- Cuts the rest of the text; each token takes at least one character. -/
def run : Nat → Scan → Except Fault (Array Token)
  | 0, scan => return (← scan.finish).tokens
  | fuel + 1, scan => do
    let scan := scan.skipSpace (scan.cursor.rest.length + 1)
    let places ← scan.places.mapM (dropStale scan.cursor)
    let scan := { scan with places }.closeBlocks scan.cursor.column
    match scan.cursor.peek 0 with
    | none => return (← scan.finish).tokens
    | some c => run fuel (← scan.token c)

end Scan

/-- The tokens of a text.  A byte order mark at its start is passed over. -/
def ofText (text : String) : Except Fault (List Token) := do
  let cs :=
    match text.toList with
    | '\uFEFF' :: cs => cs
    | cs => cs
  match cs.find? (!isAllowed ·) with
  | some c => throw (.control c)
  | none => return (← Scan.run (cs.length + 1) { cursor := { rest := cs } }).toList

end Token

end PlanService.Yaml
