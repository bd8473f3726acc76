import PlanService.Json.Draft

/-! # Reading JSON into types

A `Decoder` turns a draft into a value of a type, or names the first fault in reading
order.  Faults come in two kinds: the text's form is wrong (`FaultKind.form`), or it is
well formed so far and says something else than was asked for (`FaultKind.content`).

Records are read from an object, whose unknown members are passed over, or from an array
with the fields in order.  Containers nest at most 127 deep; what is passed over may nest
deeper.
-/

namespace PlanService.Json

inductive Fault where
  -- The text is not JSON from here on.
  | malformed
  -- A container opens more than 127 levels deep.
  | tooDeep
  -- An array goes on after the last field of a record.
  | surplus
  -- Another kind of value stands here.
  | wrongType
  -- The container of a record closes without this field.
  | missing (field : String)
  -- This field of a record is given again.
  | duplicate (field : String)
  -- No alternative has this name.
  | unknownName (name : String)
  deriving Repr, DecidableEq

inductive FaultKind where
  | form
  | content
  deriving Repr, DecidableEq

def Fault.kind : Fault → FaultKind
  | malformed | tooDeep | surplus => .form
  | wrongType | missing _ | duplicate _ | unknownName _ => .content

/-- Reads a value of a type from a draft; the number tells how many more containers may
open. -/
abbrev Decoder (α : Type) := Nat → Draft → Except Fault α

def depthLimit : Nat := 127

namespace Decoder

variable {α σ : Type}

/-- The fault of a draft of a kind that was not asked for.  A value that cannot be read at
all is malformed, whatever was asked for. -/
def mismatch : Draft → Fault
  | .broken | .number none | .string none => .malformed
  | _ => .wrongType

def string : Decoder String
  | _, .string (some s) => .ok s
  | _, v => .error (mismatch v)

def bool : Decoder Bool
  | _, .bool b => .ok b
  | _, v => .error (mismatch v)

def option (decoder : Decoder α) : Decoder (Option α)
  | _, .null => .ok none
  | depth, v => some <$> decoder depth v

def items (decoder : Decoder α) (depth : Nat) : Draft.Items → Except Fault (List α)
  | .closed => .ok []
  | .cut => .error .malformed
  | .item v rest => do
    let a ← decoder depth v
    return a :: (← items decoder depth rest)

def list (decoder : Decoder α) : Decoder (List α)
  | 0, .array _ => .error .tooDeep
  | depth + 1, .array vs => items decoder depth vs
  | _, v => .error (mismatch v)

/-! ## Values of any kind -/

mutual

def value : Decoder Json
  | _, .null => .ok .null
  | _, .bool b => .ok (.bool b)
  | _, .number (some n) => .ok (.number n)
  | _, .string (some s) => .ok (.string s)
  | 0, .array _ => .error .tooDeep
  | depth + 1, .array vs => Json.array <$> values depth vs
  | 0, .object _ => .error .tooDeep
  | depth + 1, .object ms => Json.object <$> memberValues depth ms []
  | _, .broken | _, .number none | _, .string none => .error .malformed

def values (depth : Nat) : Draft.Items → Except Fault (List Json)
  | .closed => .ok []
  | .cut => .error .malformed
  | .item v rest => do
    let a ← value depth v
    return a :: (← values depth rest)

/-- The members of an object, added to those before; the last of a key counts. -/
def memberValues (depth : Nat) : Draft.Members → Members → Except Fault Members
  | .closed, acc => .ok acc
  | .cut, _ => .error .malformed
  | .member (.string (some key)) v rest, acc => do
    let a ← value depth v
    memberValues depth rest (acc.insert key a)
  | .member _ _ _, _ => .error .malformed

end

def members : Decoder Members
  | 0, .object _ => .error .tooDeep
  | depth + 1, .object ms => memberValues depth ms []
  | _, v => .error (mismatch v)

/-! ## Alternatives -/

/-- One of several named alternatives: its name as a string, or an object with the name as
its only key and `null` as the value. -/
def oneOf (names : List (String × α)) : Decoder α
  | _, .string (some name) =>
    match names.lookup name with
    | some a => .ok a
    | none => .error (.unknownName name)
  | 0, .object _ => .error .tooDeep
  | _ + 1, .object (.member (.string (some name)) v rest) =>
    match names.lookup name with
    | none => .error (.unknownName name)
    | some a =>
      match v, rest with
      | .null, .closed => .ok a
      | .null, _ => .error .malformed
      | v, _ => .error (mismatch v)
  | _ + 1, .object (.member key _ _) => .error (mismatch key)
  | _, _ => .error .malformed

/-! ## Records -/

/-- A field of a record that is being put together as a `σ`. -/
structure Field (σ : Type) where
  name : String
  -- Whether the record is incomplete without the field.
  required : Bool
  -- Reads the field and puts it into the record.
  read : Nat → Draft → σ → Except Fault σ

def Field.needed (name : String) (decoder : Decoder α) (put : α → σ → σ) : Field σ :=
  ⟨name, true, fun depth v s => (put · s) <$> decoder depth v⟩

def Field.defaulted (name : String) (decoder : Decoder α) (put : α → σ → σ) : Field σ :=
  ⟨name, false, fun depth v s => (put · s) <$> decoder depth v⟩

def fieldItems (depth : Nat) : List (Field σ) → Draft.Items → σ → Except Fault σ
  | _, .cut, _ => .error .malformed
  | [], .closed, s => .ok s
  | [], .item _ _, _ => .error .surplus
  | field :: fields, .item v rest, s => do
    fieldItems depth fields rest (← field.read depth v s)
  | field :: fields, .closed, s =>
    match (field :: fields).find? (·.required) with
    | some absent => .error (.missing absent.name)
    | none => .ok s

/-- The fields of a record from the members of an object; `seen` are those read so far. -/
def fieldMembers (fields : List (Field σ)) (depth : Nat) :
    Draft.Members → List String → σ → Except Fault σ
  | .cut, _, _ => .error .malformed
  | .closed, seen, s =>
    match fields.find? fun field => field.required && !seen.contains field.name with
    | some absent => .error (.missing absent.name)
    | none => .ok s
  | .member (.string (some key)) v rest, seen, s =>
    match fields.find? (·.name == key) with
    | none => if v.isWhole then fieldMembers fields depth rest seen s else .error .malformed
    | some field =>
      if seen.contains key then .error (.duplicate key)
      else do fieldMembers fields depth rest (key :: seen) (← field.read depth v s)
  | .member _ _ _, _, _ => .error .malformed

/-- A record with these fields; `blank` has the values of those that are left out. -/
def record (fields : List (Field σ)) (blank : σ) : Decoder σ
  | 0, .array _ | 0, .object _ => .error .tooDeep
  | depth + 1, .array vs => fieldItems depth fields vs blank
  | depth + 1, .object ms => fieldMembers fields depth ms [] blank
  | _, v => .error (mismatch v)

end Decoder

/-! ## Whole texts -/

/-- Reads a text that holds one value and nothing else but blanks. -/
def decode {α : Type} (decoder : Decoder α) (text : String) : Except Fault α :=
  let (draft, after) := Draft.ofText text
  match decoder depthLimit draft with
  | .error fault => .error fault
  | .ok a =>
    match after.map Draft.skipSpace with
    | some [] => .ok a
    | _ => .error .malformed

end PlanService.Json
