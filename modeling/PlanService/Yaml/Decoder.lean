import PlanService.Yaml.Node

/-! # Reading YAML into types

A `Decoder` turns a node into a value of a type.  Scalars are read as what is asked for: any
scalar is a text, and only plain ones are numbers or nothing.  A value that is left out is an
empty record or an empty list.  Keys that nobody asks for are passed over, together with
their values.
-/

namespace PlanService.Yaml

/-- Reads a value of a type from a node of a document. -/
abbrev Decoder (α : Type) := Document → Node → Except Fault α

namespace Decoder

variable {α σ : Type}

def nullTag : String := "tag:yaml.org,2002:null"

def intTag : String := "tag:yaml.org,2002:int"

def isNullText (text : String) : Bool :=
  ["null", "Null", "NULL", "~"].contains text

/-- Whether nothing is written where a collection may stand. -/
def isLeftOut : Node → Bool
  | .scalar _ _ .plain text => text.isEmpty
  | _ => false

def text : Decoder String := fun document node =>
  match document.follow node with
  | .scalar _ _ _ text => .ok text
  | _ => .error .wrongType

/-! ## Numbers -/

def digitValue? (base : Nat) (c : Char) : Option Nat :=
  (hexValue? c).filter (· < base)

def ofDigits? (base : Nat) (digits : List Char) : Option Nat :=
  if digits.isEmpty then none
  else digits.foldlM (fun n c => (digitValue? base c).map (n * base + ·)) 0

/-- A number without a minus sign: in base ten without leading zeros, or after `0x`, `0o` or
`0b` in base sixteen, eight or two. -/
def natural? (cs : List Char) : Option Nat :=
  let cs :=
    match cs with
    | '+' :: r => r
    | r => r
  match cs with
  | '0' :: 'x' :: r => ofDigits? 16 r
  | '0' :: 'o' :: r => ofDigits? 8 r
  | '0' :: 'b' :: r => ofDigits? 2 r
  | '0' :: _ :: _ => none
  | r => ofDigits? 10 r

/-- A number from zero up to `limit`, from a plain scalar or a literal one tagged so. -/
def natural (limit : Nat) : Decoder Nat := fun document node =>
  match document.follow node with
  | .scalar _ tag style text =>
    if style == .plain || (style == .literal && tag == some intTag) then
      match (natural? text.toList).filter (· ≤ limit) with
      | some n => .ok n
      | none => .error .wrongType
    else .error .wrongType
  | _ => .error .wrongType

/-! ## Values that may be missing -/

/-- Whether a scalar stands for nothing: a plain one that is empty or spells it.  One that is
tagged as nothing has to spell it, and any other tag makes it something. -/
def isNull (tag : Option String) (style : ScalarStyle) (text : String) : Except Fault Bool :=
  if style != .plain then .ok false
  else
    match tag with
    | none => .ok (text.isEmpty || isNullText text)
    | some tag =>
      if tag != nullTag then .ok false
      else if isNullText text then .ok true
      else .error .wrongType

def option (decoder : Decoder α) : Decoder (Option α) := fun document node =>
  let node := document.follow node
  match node with
  | .scalar _ tag style text => do
    if ← isNull tag style text then return none else some <$> decoder document node
  | _ => some <$> decoder document node

/-! ## Collections -/

def list (decoder : Decoder α) : Decoder (List α) := fun document node =>
  match document.follow node with
  | .sequence _ items => items.mapM (decoder document)
  | node => if isLeftOut node then .ok [] else .error .wrongType

/-- A key of a record that is being put together as a `σ`. -/
structure Field (σ : Type) where
  key : String
  -- Whether the record is incomplete without the key.
  required : Bool
  -- Reads the value and puts it into the record.
  read : Document → Node → σ → Except Fault σ

def Field.needed (key : String) (decoder : Decoder α) (put : α → σ → σ) : Field σ :=
  ⟨key, true, fun document node s => (put · s) <$> decoder document node⟩

def Field.defaulted (key : String) (decoder : Decoder α) (put : α → σ → σ) : Field σ :=
  ⟨key, false, fun document node s => (put · s) <$> decoder document node⟩

/-- The fields of a record from the entries of a mapping; `seen` are those read so far. -/
def fieldEntries (fields : List (Field σ)) (document : Document) :
    List (Node × Node) → List String → σ → Except Fault σ
  | [], seen, s =>
    match fields.find? fun field => field.required && !seen.contains field.key with
    | some absent => .error (.missing absent.key)
    | none => .ok s
  | (key, value) :: rest, seen, s => do
    let key ← text document key
    match fields.find? (·.key == key) with
    | none => fieldEntries fields document rest seen s
    | some field =>
      if seen.contains key then throw (.duplicate key)
      fieldEntries fields document rest (key :: seen) (← field.read document value s)

/-- A record with these keys, from a mapping; `blank` has the values of those that are left
out. -/
def record (fields : List (Field σ)) (blank : σ) : Decoder σ := fun document node =>
  match document.follow node with
  | .mapping _ entries => fieldEntries fields document entries [] blank
  | node =>
    if isLeftOut node then fieldEntries fields document [] [] blank else .error .wrongType

end Decoder

/-- Reads a text that holds one document; a text without content is one that is left out. -/
def decode {α : Type} (decoder : Decoder α) (text : String) : Except Fault α := do
  let document ← Document.ofText text
  decoder document (document.root.getD .empty)

end PlanService.Yaml
