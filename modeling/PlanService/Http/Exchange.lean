import PlanService.Http.Message
import PlanService.Text.Split
import PlanService.Text.Utf8

/-! # Messages on a connection

How requests and responses look as bytes, one exchange to a connection: a head of lines, an
empty line, and a body that is counted, cut into chunks, or goes on until the connection
ends.
-/

namespace PlanService.Http

def headLines (lines : List String) : List Char :=
  lines.flatMap (fun line => line.toList ++ ['\r', '\n']) ++ ['\r', '\n']

def fieldLine (name value : String) : String := s!"{name}: {value}"

def Request.bytes (request : Request) (host : String) : List UInt8 :=
  let body := Text.Utf8.encode request.body.toList
  let type := request.contentType.toList.flatMap fun t =>
    [fieldLine "content-type" t, fieldLine "content-length" (toString body.length)]
  Text.Utf8.encode
    (headLines ([request.line, fieldLine "host" host] ++ type ++
      [fieldLine "connection" "close"])) ++ body

namespace Response

def reason (response : Response) : String :=
  (([(200, "OK"), (201, "Created"), (202, "Accepted"), (400, "Bad Request"),
    (404, "Not Found"), (405, "Method Not Allowed"), (409, "Conflict"),
    (413, "Payload Too Large"), (415, "Unsupported Media Type"), (422, "Unprocessable Entity"),
    (500, "Internal Server Error")] : List (Nat × String)).lookup response.status).getD ""

def headBytes (response : Response) (more : List (String × String)) : List UInt8 :=
  let fields := response.headers ++ more ++ [("connection", "close")]
  Text.Utf8.encode
    (headLines (s!"HTTP/1.1 {response.status} {response.reason}" ::
      fields.map fun (name, value) => fieldLine name value))

def bytes (response : Response) : List UInt8 :=
  let body := Text.Utf8.encode response.body.toList
  response.headBytes [("content-length", toString body.length)] ++ body

end Response

/-! ## Reading heads -/

/-- The lines of a head and what follows it, once the empty line has come. -/
def cutHead : List UInt8 → Option (List UInt8 × List UInt8)
  | [] => none
  | 13 :: 10 :: 13 :: 10 :: rest => some ([], rest)
  | b :: rest => (cutHead rest).map fun (head, rest) => (b :: head, rest)

/-- A head: the words of its first line, and its fields under lower-case names. -/
structure Head where
  words : List String
  fields : List (String × String)
  deriving Repr, DecidableEq

namespace Head

def trim (cs : List Char) : List Char :=
  let isEdge (c : Char) : Bool := c = ' ' || c = '\t' || c = '\r'
  ((cs.dropWhile isEdge).reverse.dropWhile isEdge).reverse

def field (line : List Char) : String × String :=
  (String.ofList ((line.takeWhile (· ≠ ':')).map Char.toLower),
    String.ofList (trim ((line.dropWhile (· ≠ ':')).drop 1)))

/-- Reads a head, byte by byte as characters. -/
def ofBytes (bytes : List UInt8) : Head :=
  match Text.split '\n' (bytes.map fun b => Char.ofNat b.toNat) with
  | [] => ⟨[], []⟩
  | first :: rest =>
    { words := (Text.split ' ' (trim first)).map String.ofList
      fields := rest.map field }

def field? (head : Head) (name : String) : Option String := head.fields.lookup name

def request? (head : Head) : Option Request :=
  match head.words with
  | [method, target, _] =>
    some { method := .ofText method, target, contentType := head.field? "content-type" }
  | _ => none

def response? (head : Head) : Option Response :=
  match head.words with
  | _ :: status :: _ => status.toNat?.map fun status => { status, headers := head.fields }
  | _ => none

end Head

/-! ## Reading bodies -/

/-- Where the reading of a chunk stands. -/
inductive ChunkState where
  -- In the digits of a chunk's length.
  | length (n : Nat)
  -- In what follows the digits on their line.
  | rest (n : Nat)
  | data (left : Nat)
  -- In the line end after a chunk.
  | gap
  | finished
  deriving Repr, DecidableEq

def hexDigit? (b : UInt8) : Option Nat :=
  let n := b.toNat
  if 48 ≤ n ∧ n ≤ 57 then some (n - 48)
  else if 65 ≤ n ∧ n ≤ 70 then some (n - 55)
  else if 97 ≤ n ∧ n ≤ 102 then some (n - 87)
  else none

namespace ChunkState

/-- After the line of a chunk's length; an empty chunk is the last. -/
def begin : Nat → ChunkState
  | 0 => finished
  | n => data n

/-- One byte: what it means for the body, and where the reading stands then. -/
def next (state : ChunkState) (b : UInt8) : Option UInt8 × ChunkState :=
  match state with
  | length n =>
    match hexDigit? b with
    | some d => (none, length (16 * n + d))
    | none => (none, if b = 10 then begin n else rest n)
  | rest n => (none, if b = 10 then begin n else rest n)
  | data left => (some b, if left ≤ 1 then gap else data (left - 1))
  | gap => (none, if b = 10 then length 0 else gap)
  | finished => (none, finished)

end ChunkState

/-- How much of a body is still to come. -/
inductive Remainder where
  | counted (left : Nat)
  | chunks (state : ChunkState)
  -- All until the connection ends.
  | unbounded
  deriving Repr, DecidableEq

namespace Remainder

def ofResponse (head : Head) : Remainder :=
  if head.field? "transfer-encoding" = some "chunked" then chunks (.length 0)
  else
    match (head.field? "content-length").bind String.toNat? with
    | some n => counted n
    | none => unbounded

/-- The body of a request with this head; without a length there is none. -/
def ofRequest (head : Head) : Remainder :=
  match ofResponse head with
  | unbounded => counted 0
  | remainder => remainder

def isDone : Remainder → Bool
  | counted n => n = 0
  | chunks state => state = .finished
  | unbounded => false

def take (remainder : Remainder) (bytes : List UInt8) : List UInt8 × Remainder :=
  match remainder with
  | counted left => (bytes.take left, counted (left - bytes.length))
  | unbounded => (bytes, unbounded)
  | chunks state =>
    let (body, state) := bytes.foldl
      (fun (body, state) b =>
        let (data, state) := ChunkState.next state b
        (data.toList ++ body, state))
      ([], state)
    (body.reverse, chunks state)

end Remainder

/-! ## Bodies as text -/

/-- The character that some bytes begin with, and how many of them it takes. -/
def leadingChar? (bytes : List UInt8) : Option (Char × Nat) :=
  [1, 2, 3, 4].findSome? fun n =>
    match Text.Utf8.decode (bytes.take n) with
    | some [c] => some (c, n)
    | _ => none

/-- The text of a request's body, whose first bytes are `covered` by the character before.
A byte of no character becomes half of a surrogate pair, escaped: readers of JSON treat both
alike, passing over them in strings that nobody asks for.  The letter before it cannot be
escaped itself. -/
def bodyChars (covered : Nat) : List UInt8 → List Char
  | [] => []
  | b :: rest =>
    match covered with
    | more + 1 => bodyChars more rest
    | 0 =>
      match leadingChar? (b :: rest) with
      | some (c, length) => c :: bodyChars (length - 1) rest
      | none => "x\\udc00".toList ++ bodyChars 0 rest

def bodyText (bytes : List UInt8) : String := String.ofList (bodyChars 0 bytes)

end PlanService.Http

namespace PlanService

/-- The text of a response's body, as far as it has come to the terminal.  While it is cut within a
character, or if it is no text at all, it is empty. -/
def Terminal.toText (bytes : List UInt8) : String := (Text.Utf8.decodeString bytes).getD ""

end PlanService
