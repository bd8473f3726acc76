/-! # Media types

The value of a `Content-Type` field: a type, a subtype whose part after the last `+` is a
suffix, and parameters, which only have to be well formed.
-/

namespace PlanService.Http

/-- A media type in lower case, without its parameters. -/
structure MediaType where
  type : List Char
  subtype : List Char
  suffix : Option (List Char)
  deriving Repr, DecidableEq

namespace MediaType

def isToken (c : Char) : Bool :=
  c.isAlphanum || "!#$%&'*+-.^_`|~".toList.contains c

def isQuotable (c : Char) : Bool :=
  31 < c.toNat && c.toNat != 127

/-! ## Parameters -/

inductive ParamState where
  -- After a semicolon and any blanks.
  | start
  | name
  -- After the equals sign.
  | valueStart
  | value
  -- After the opening quote: another quote does not close, a quoted value is not empty.
  | quoteStart
  | quoted
  -- After the closing quote.
  | afterQuote
  deriving Repr, DecidableEq

def ParamState.next (state : ParamState) (c : Char) : Option ParamState :=
  match state with
  | start => if c = ' ' then some start else if isToken c then some name else none
  | name => if isToken c then some name else if c = '=' then some valueStart else none
  | valueStart => if c = '"' then some quoteStart else if isToken c then some value else none
  | value => if isToken c then some value else if c = ';' then some start else none
  | quoteStart => if isQuotable c then some quoted else none
  | quoted => if c = '"' then some afterQuote else if isQuotable c then some quoted else none
  | afterQuote =>
    if c = ';' then some start else if c = ' ' then some afterQuote else none

def ParamState.mayEnd : ParamState → Bool
  | start | valueStart | value | afterQuote => true
  | name | quoteStart | quoted => false

def areParams (cs : List Char) : Bool :=
  (cs.foldlM ParamState.next .start).any ParamState.mayEnd

/-! ## Types -/

/-- Cuts a subtype at its last `+`, unless that is its first character. -/
def cutSuffix (subtype : List Char) : List Char × Option (List Char) :=
  let suffix := (subtype.reverse.takeWhile (· ≠ '+')).reverse
  let front := subtype.take (subtype.length - suffix.length - 1)
  if front.isEmpty then (subtype, none) else (front, some suffix)

def parse (text : String) : Option MediaType :=
  let cs := text.toList
  if cs.all fun c => c = '\t' || (32 ≤ c.toNat && c.toNat ≤ 126) then
    let type := cs.takeWhile isToken
    match cs.dropWhile isToken with
    | '/' :: r =>
      let subtype := r.takeWhile isToken
      let parts := cutSuffix (subtype.map Char.toLower)
      let result : MediaType := ⟨type.map Char.toLower, parts.1, parts.2⟩
      if type.isEmpty then none
      else
        match r.dropWhile isToken with
        | [] => some result
        | ';' :: params => if !subtype.isEmpty && areParams params then some result else none
        | _ => none
    | _ => none
  else none

/-- Whether a body of this type is JSON: `application/json`, or any `application/…+json`. -/
def isJson (t : MediaType) : Bool :=
  t.type == "application".toList &&
    (t.subtype == "json".toList || t.suffix == some "json".toList)

def isEventStream (t : MediaType) : Bool :=
  t.type == "text".toList && t.subtype == "event-stream".toList

end MediaType

end PlanService.Http
