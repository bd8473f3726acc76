/-! # HTTP messages

Requests and responses as far as the service and its client look at them.
-/

namespace PlanService.Http

inductive Method where
  | get
  | head
  | post
  | put
  | other (name : String)
  deriving Repr, DecidableEq, Inhabited

namespace Method

def text : Method → String
  | get => "GET"
  | head => "HEAD"
  | post => "POST"
  | put => "PUT"
  | other name => name

def ofText (name : String) : Method :=
  match name with
  | "GET" => get
  | "HEAD" => head
  | "POST" => post
  | "PUT" => put
  | name => other name

end Method

/-- A request: what it asks for, in the form of the request line, and the body it sends. -/
structure Request where
  method : Method
  target : String
  contentType : Option String := none
  body : String := ""
  deriving Repr, DecidableEq, Inhabited

def Request.line (request : Request) : String :=
  s!"{request.method.text} {request.target} HTTP/1.1"

/-- A response: its status, its header fields under lower-case names, and its body. -/
structure Response where
  status : Nat
  headers : List (String × String) := []
  body : String := ""
  deriving Repr, DecidableEq, Inhabited

namespace Response

def header? (response : Response) (name : String) : Option String :=
  response.headers.lookup name

def withHeader (response : Response) (name value : String) : Response :=
  { response with headers := response.headers ++ [(name, value)] }

def isSuccess (response : Response) : Bool :=
  200 ≤ response.status && response.status < 300

end Response

end PlanService.Http
