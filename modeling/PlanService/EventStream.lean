import PlanService.Text.Split

/-! # Event streams

The text form in which a server sends events one after another: lines `field: value`, an
empty line after each event, and comments that only keep the connection alive.
-/

namespace PlanService

structure ServerEvent where
  name : String
  data : String
  deriving Repr, DecidableEq, Inhabited

namespace ServerEvent

def line (field : String) (value : List Char) : List Char :=
  field.toList ++ ':' :: ' ' :: (value ++ ['\n'])

/-- The event as it is sent, each line of its data as a field of its own. -/
def chars (event : ServerEvent) : List Char :=
  line "event" event.name.toList ++
    (Text.split '\n' event.data.toList).flatMap (line "data") ++ ['\n']

def text (event : ServerEvent) : String := String.ofList event.chars

end ServerEvent

/-- The comment that keeps an idle stream alive. -/
def keepAliveText : String := ":\n\n"

/-! ## Reading -/

namespace EventStream

/-- The complete lines of a text.  A line ends with a line feed, a carriage return or both
in that order; what follows the last end is no line yet, and a carriage return at the very
end may still be followed by a line feed. -/
def lines : List Char → List (List Char)
  | [] => []
  | ['\r'] => []
  | '\r' :: '\n' :: r => [] :: lines r
  | '\r' :: r => [] :: lines r
  | '\n' :: r => [] :: lines r
  | c :: r =>
    match lines r with
    | [] => []
    | line :: rest => (c :: line) :: rest

inductive Line where
  | field (name value : List Char)
  | comment
  | empty
  deriving Repr, DecidableEq

/-- What a line says.  A blank after the colon does not belong to the value. -/
def Line.ofChars (cs : List Char) : Line :=
  match cs with
  | [] => empty
  | ':' :: _ => comment
  | _ =>
    let name := cs.takeWhile (· ≠ ':')
    match cs.dropWhile (· ≠ ':') with
    | ':' :: ' ' :: value => field name value
    | ':' :: value => field name value
    | _ => field name []

structure Pending where
  name : List Char := []
  data : List (List Char) := []
  deriving Repr, DecidableEq

/-- The event at its end; without data there is none, without a name it is a `message`. -/
def Pending.event? (pending : Pending) : Option ServerEvent :=
  if pending.data.isEmpty then none
  else
    some
      { name := if pending.name.isEmpty then "message" else String.ofList pending.name
        data := String.ofList (Text.join '\n' pending.data) }

def assemble (pending : Pending) : List Line → List ServerEvent
  | [] => []
  | .empty :: rest => pending.event?.toList ++ assemble {} rest
  | .comment :: rest => assemble pending rest
  | .field name value :: rest =>
    if name = "event".toList then assemble { pending with name := value } rest
    else if name = "data".toList then assemble { pending with data := pending.data ++ [value] } rest
    else assemble pending rest

/-- The complete events of a stream's text.  A byte order mark at its start is passed over,
and an event that is not finished is not there yet. -/
def events (text : String) : List ServerEvent :=
  let cs :=
    match text.toList with
    | '\uFEFF' :: r => r
    | cs => cs
  assemble {} ((lines cs).map Line.ofChars)

end EventStream

end PlanService
