import PlanService.Number.Binary64

/-! # JSON values

The value type that task parameters are made of.  A number is an integer within 64 bits,
signed or unsigned, or else a double, as it was written; an object is the list of its
members, kept in ascending order of their keys by `Members.insert`.
-/

namespace PlanService

inductive Number where
  | integer (value : Int)
  | real (value : Binary64)
  deriving Repr, DecidableEq

inductive Json where
  | null
  | bool (value : Bool)
  | number (value : Number)
  | string (value : String)
  | array (items : List Json)
  | object (members : List (String × Json))
  deriving Repr, BEq, Inhabited

/-- The members of an object, or the parameters of a task: keys with their values. -/
abbrev Members := List (String × Json)

/-- Puts a member in its place by key order; a member with the same key is replaced. -/
def Members.insert (key : String) (value : Json) : Members → Members
  | [] => [(key, value)]
  | (k, v) :: rest =>
    if key < k then (key, value) :: (k, v) :: rest
    else if key == k then (key, value) :: rest
    else (k, v) :: Members.insert key value rest

def Members.get? (members : Members) (key : String) : Option Json :=
  members.lookup key

namespace Json

def ofInt (n : Int) : Json := .number (.integer n)

def ofNat (n : Nat) : Json := .number (.integer n)

def ofStrings (texts : List String) : Json := .array (texts.map .string)

def string? : Json → Option String
  | .string s => some s
  | _ => none

/-- An unsigned number of 64 bits. -/
def nat? : Json → Option Nat
  | .number (.integer (.ofNat n)) => if n < UInt64.size then some n else none
  | _ => none

def get? (value : Json) (key : String) : Option Json :=
  match value with
  | .object members => Members.get? members key
  | _ => none

end Json

end PlanService
