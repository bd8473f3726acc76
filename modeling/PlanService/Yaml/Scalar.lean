import PlanService.Yaml.Cursor

/-! # Scalars

The texts of scalars in their five styles.  Plain and quoted scalars may run over several
lines: the gap between two lines folds into one blank, or into its further line ends.  A
block scalar keeps its lines (literal) or folds them.
-/

namespace PlanService.Yaml

inductive ScalarStyle where
  | plain
  | singleQuoted
  | doubleQuoted
  | literal
  | folded
  deriving Repr, DecidableEq, Inhabited

/-! ## Gaps between words -/

/-- Blanks and line ends between two words of a scalar. -/
structure Gap where
  blanks : List Char := []
  -- The first line end.
  first : List Char := []
  -- The further line ends.
  more : List Char := []
  -- Whether a line has ended in the gap.
  broken : Bool := false
  deriving Repr, DecidableEq

/-- Line ends fold: a single line feed into one blank, several into all but the first. -/
def foldBreaks (first more : List Char) : List Char :=
  if first = ['\n'] then (if more.isEmpty then [' '] else more) else first ++ more

def Gap.fold (gap : Gap) : List Char :=
  if gap.broken then foldBreaks gap.first gap.more else gap.blanks

/-- Reads a gap.  On a new line, before column `indent`, there may be no tab. -/
def readGap (indent : Int) : Nat → Cursor → Gap → Except Fault (Gap × Cursor)
  | 0, cursor, gap => .ok (gap, cursor)
  | fuel + 1, cursor, gap =>
    match cursor.peek 0 with
    | none => .ok (gap, cursor)
    | some c =>
      if isBlank c then
        if gap.broken then
          if cursor.column < indent ∧ c = '\t' then .error .tab
          else readGap indent fuel (cursor.skip 1) gap
        else readGap indent fuel (cursor.skip 1) { gap with blanks := gap.blanks ++ [c] }
      else if isBreak c then
        if gap.broken then
          readGap indent fuel cursor.nextLine { gap with more := gap.more ++ cursor.lineEnd }
        else readGap indent fuel cursor.nextLine { first := cursor.lineEnd, broken := true }
      else .ok (gap, cursor)

/-! ## Plain scalars -/

/-- How many characters of a text belong to one word of a plain scalar: up to a blank, up to
a colon that ends a word, and in a flow collection up to a bracket or comma. -/
def plainWord (flow : Bool) : List Char → Except Fault Nat
  | [] => .ok 0
  | c :: r =>
    if isBlank c || isBreak c then .ok 0
    else if flow && c == ':' && r.head?.any (",?[]\x7b\x7d".toList.contains ·) then
      .error .colon
    else if c == ':' && r.head?.all (fun c => isBlank c || isBreak c) then .ok 0
    else if flow && ",[]\x7b\x7d".toList.contains c then .ok 0
    else (· + 1) <$> plainWord flow r

/-- A plain scalar, and whether a line ended after it.  Its lines are indented by at least
`indent`, except in a flow collection. -/
def readPlain (flow : Bool) (indent : Int) :
    Nat → Cursor → List Char → Gap → Except Fault (List Char × Bool × Cursor)
  | 0, cursor, text, gap => .ok (text, gap.broken, cursor)
  | fuel + 1, cursor, text, gap =>
    if cursor.atMark || cursor.at? '#' then .ok (text, gap.broken, cursor)
    else do
      let n ← plainWord flow cursor.rest
      let word := cursor.rest.take n
      let next := cursor.skip n
      if n = 0 then return (text, gap.broken, next)
      let text := text ++ gap.fold ++ word
      match next.peek 0 with
      | none => return (text, false, next)
      | some c =>
        if isBlank c || isBreak c then
          let (gap, after) ← readGap indent next.rest.length next {}
          if !flow && after.column < indent then return (text, gap.broken, after)
          else readPlain flow indent fuel after text gap
        else return (text, false, next)

/-! ## Quoted scalars -/

def hexValue? (c : Char) : Option Nat :=
  if '0' ≤ c ∧ c ≤ '9' then some (c.toNat - 48)
  else if 'a' ≤ c ∧ c ≤ 'f' then some (c.toNat - 87)
  else if 'A' ≤ c ∧ c ≤ 'F' then some (c.toNat - 55)
  else none

def hexCode? (digits : List Char) : Option Nat :=
  digits.foldlM (fun n c => (hexValue? c).map (n * 16 + ·)) 0

def escaped? : Char → Option Char
  | '0' => some '\x00'
  | 'a' => some '\x07'
  | 'b' => some '\x08'
  | 't' | '\t' => some '\t'
  | 'n' => some '\n'
  | 'v' => some '\x0b'
  | 'f' => some '\x0c'
  | 'r' => some '\r'
  | 'e' => some '\x1b'
  | ' ' => some ' '
  | '"' => some '"'
  | '/' => some '/'
  | '\\' => some '\\'
  | 'N' => some '\u0085'
  | '_' => some '\u00a0'
  | 'L' => some '\u2028'
  | 'P' => some '\u2029'
  | _ => none

def escapeDigits? : Char → Option Nat
  | 'x' => some 2
  | 'u' => some 4
  | 'U' => some 8
  | _ => none

def readEscape (afterBackslash : List Char) : Except Fault (Char × Nat) :=
  match afterBackslash with
  | [] => .error .unclosed
  | c :: r =>
    match escaped? c, escapeDigits? c with
    | some value, _ => .ok (value, 1)
    | none, none => .error .escape
    | none, some n =>
      if (r.take n).length < n then .error .escape
      else
        match hexCode? (r.take n) with
        | none => .error .escape
        | some code =>
          if code ≤ 0x10FFFF ∧ ¬(0xD800 ≤ code ∧ code ≤ 0xDFFF) then
            .ok (Char.ofNat code, n + 1)
          else .error .escape

inductive RunEnd where
  | quote
  -- A blank, a line end or the end of the text.
  | gap
  -- A line end after a backslash, which stands for nothing.
  | escapedBreak
  deriving Repr, DecidableEq

/-- A run of characters within quotes, how many characters write it, and how it ends. -/
def readRun (double : Bool) : Nat → List Char → Except Fault (List Char × Nat × RunEnd)
  | 0, _ => .ok ([], 0, .gap)
  | _, [] => .ok ([], 0, .gap)
  | fuel + 1, c :: r =>
    if isBlank c || isBreak c then .ok ([], 0, .gap)
    else if double then
      if c = '"' then .ok ([], 0, .quote)
      else if c = '\\' then
        if r.head?.any isBreak then .ok ([], 1, .escapedBreak)
        else do
          let (value, n) ← readEscape r
          let (text, m, stop) ← readRun double fuel (r.drop n)
          return (value :: text, n + 1 + m, stop)
      else do
        let (text, m, stop) ← readRun double fuel r
        return (c :: text, m + 1, stop)
    else if c = '\x27' then
      match r with
      | '\x27' :: r => do
        let (text, m, stop) ← readRun double fuel r
        return ('\x27' :: text, m + 2, stop)
      | _ => .ok ([], 0, .quote)
    else do
      let (text, m, stop) ← readRun double fuel r
      return (c :: text, m + 1, stop)

def readQuoted (double : Bool) : Nat → Cursor → List Char → Except Fault (List Char × Cursor)
  | 0, _, _ => .error .unclosed
  | fuel + 1, cursor, text =>
    if cursor.atMark then .error .documentMark
    else if cursor.atEnd then .error .unclosed
    else do
      let (run, n, stop) ← readRun double cursor.rest.length cursor.rest
      let text := text ++ run
      let next := cursor.skip n
      let isQuote (c : Cursor) : Bool := c.at? (if double then '"' else '\x27')
      match stop with
      | .quote => return (text, next.skip 1)
      | .gap =>
        let (gap, after) ← readGap 0 next.rest.length next {}
        readQuoted double fuel after (text ++ gap.fold)
      | .escapedBreak =>
        let next := next.nextLine
        if isQuote next then return (text, next.skip 1)
        else
          let (gap, after) ← readGap 0 next.rest.length next { broken := true }
          readQuoted double fuel after (text ++ gap.fold)

/-! ## Block scalars -/

/-- What becomes of the line ends at the end of a block scalar. -/
inductive Chomping where
  | strip
  | clip
  | keep
  deriving Repr, DecidableEq

def chomping? : Option Char → Option Chomping
  | some '+' => some .keep
  | some '-' => some .strip
  | _ => none

/-- The indentation that a digit in the head asks for; zero is none. -/
def indentation? : Option Char → Except Fault (Option Nat)
  | some c =>
    if c = '0' then .error .blockHead
    else if c.isDigit then .ok (some (c.toNat - 48))
    else .ok none
  | none => .ok none

def readBlockHead (cursor : Cursor) : Except Fault (Chomping × Option Nat × Cursor) := do
  match chomping? (cursor.peek 0) with
  | some chomping =>
    match ← indentation? (cursor.peek 1) with
    | some n => return (chomping, some n, cursor.skip 2)
    | none => return (chomping, none, cursor.skip 1)
  | none =>
    match ← indentation? (cursor.peek 0) with
    | none => return (.clip, none, cursor)
    | some n =>
      match chomping? (cursor.peek 1) with
      | some chomping => return (chomping, some n, cursor.skip 2)
      | none => return (.clip, some n, cursor.skip 1)

/-- The empty lines before a line of a block scalar, and the greatest column met in them.
While the indentation is not known (zero), any blanks may stand on them. -/
def readEmptyLines (indent : Nat) :
    Nat → Cursor → List Char → Nat → Except Fault (List Char × Nat × Cursor)
  | 0, cursor, breaks, widest => .ok (breaks, widest, cursor)
  | fuel + 1, cursor, breaks, widest =>
    let blanks := (cursor.rest.takeWhile (· = ' ')).length
    let cursor := cursor.skip (if indent = 0 then blanks else min blanks (indent - cursor.column))
    let widest := max widest cursor.column
    if (indent = 0 ∨ cursor.column < indent) ∧ cursor.at? '\t' then .error .tab
    else if (cursor.peek 0).any isBreak then
      readEmptyLines indent fuel cursor.nextLine (breaks ++ cursor.lineEnd) widest
    else .ok (breaks, widest, cursor)

/-- The lines of a block scalar from the one at the cursor.  `text` is what comes before,
`last` the line end before this line, `breaks` the empty lines after that, and `indented`
whether the line before starts with a blank.  Line ends fold between two lines that do not. -/
def readLines (folded : Bool) (indent : Nat) :
    Nat → Cursor → List Char → List Char → List Char → Bool →
      Except Fault (List Char × List Char × List Char × Cursor)
  | 0, cursor, text, last, breaks, _ => .ok (text, last, breaks, cursor)
  | fuel + 1, cursor, text, last, breaks, indented =>
    if cursor.column = indent ∧ ¬cursor.atEnd then do
      let blank := (cursor.peek 0).any isBlank
      let gap :=
        if folded && last == ['\n'] && !indented && !blank then foldBreaks last breaks
        else last ++ breaks
      let line := cursor.rest.takeWhile (!isBreak ·)
      let stop := cursor.skip line.length
      let (breaks, _, next) ←
        readEmptyLines indent (stop.nextLine.rest.length + 1) stop.nextLine [] 0
      readLines folded indent fuel next (text ++ gap ++ line) stop.lineEnd breaks blank
    else .ok (text, last, breaks, cursor)

/-- A block scalar after its indicator, inside a block indented by `parent`. -/
def readBlock (folded : Bool) (parent : Int) (cursor : Cursor) :
    Except Fault (List Char × Cursor) := do
  let (chomping, given, cursor) ← readBlockHead cursor
  let cursor := cursor.skipWhile isBlank
  let cursor := if cursor.at? '#' then cursor.skipWhile (!isBreak ·) else cursor
  if !cursor.endsLine then throw .blockHead
  let cursor := cursor.nextLine
  let fuel := cursor.rest.length + 1
  let known := (given.map fun n => (if 0 ≤ parent then parent.toNat + n else n)).getD 0
  let (breaks, widest, cursor) ← readEmptyLines known fuel cursor [] 0
  let indent := if known = 0 then max widest (max (parent + 1).toNat 1) else known
  let (text, last, breaks, cursor) ← readLines folded indent fuel cursor [] [] breaks false
  return (match chomping with
    | .strip => text
    | .clip => text ++ last
    | .keep => text ++ last ++ breaks, cursor)

end PlanService.Yaml
