import PlanService.Client.Watcher
import PlanService.Session

/-! # Networks

How a client's requests reach a server.  A network carries a request to an address and
brings back a response together with the connection on which more of it may come.  At hand
are a session that listens at an address, standing still between the requests or not, and a
list of responses prepared beforehand; either may be out of reach.
-/

namespace PlanService

open Http (Request Response Url)

/-- A network with connections of type `κ`. -/
class Network (τ : Type) (κ : outParam Type) where
  -- Sends a request; nothing comes back when the server cannot be reached or hangs up.
  send : τ → Url → Request → Option (Response × κ) × τ
  -- What has come since on a connection, and whether the server has ended it.
  receive : τ → κ → (String × Bool) × κ × τ

/-! ## Calls over a network -/

namespace Client

variable {τ κ α : Type} [Network τ κ]

def send (client : Client) (call : Call α) (network : τ) :
    Except ClientError (Response × κ) × τ :=
  match client.url? call.path with
  | none => (.error (.transport client.baseUrl), network)
  | some url =>
    match Network.send network url (call.request url) with
    | (none, network) => (.error (.transport client.baseUrl), network)
    | (some reply, network) => (.ok reply, network)

def perform (client : Client) (call : Call α) (network : τ) : Except ClientError α × τ :=
  let (reply, network) := client.send call network
  (reply.bind fun (response, _) => call.read response, network)

end Client

structure Watching (κ : Type) where
  watcher : Watcher
  connection : κ
  deriving Repr

namespace Watching

variable {τ κ : Type} [Network τ κ]

def start (client : Client) (id : TaskId) (network : τ) :
    Except ClientError (Watching κ) × τ :=
  let call := Watcher.opening id
  let (reply, network) := client.send call network
  (reply.bind fun (response, connection) => do
    call.read response
    return { watcher := ({} : Watcher).feed response.body false, connection }, network)

def pull (watching : Watching κ) (network : τ) : Watching κ × τ :=
  if watching.watcher.closed ∨ watching.watcher.ended then (watching, network)
  else
    let ((text, ended), connection, network) := Network.receive network watching.connection
    ({ watcher := watching.watcher.feed text ended, connection }, network)

def next (watching : Watching κ) (network : τ) :
    Option (Except ClientError Completion) × Watching κ × τ :=
  let (watching, network) := watching.pull network
  let (result, watcher) := watching.watcher.next
  (result, { watching with watcher }, network)

/-- The watcher of somebody who waited for `limit` in vain. -/
def giveUp (watching : Watching κ) (limit : Millis) :
    Except ClientError Completion × Watching κ :=
  let (result, watcher) := watching.watcher.giveUp limit
  (result, { watching with watcher })

end Watching

/-! ## Networks at hand -/

/-- A session that listens at an address of a network, which may be down. -/
structure Hosted (σ : Type) where
  host : String
  port : Nat
  session : Session σ
  -- Whether connections can be made.
  up : Bool := true

/-- Requests to its address reach the session; nobody listens anywhere else. -/
instance {σ : Type} [Engine σ] : Network (Hosted σ) (Option CompletionStream) where
  send hosted url request :=
    if hosted.up ∧ url.host = hosted.host ∧ url.port = hosted.port then
      let (answer, session) := hosted.session.request request
      match answer with
      | .response response => (some (response, none), { hosted with session })
      | .stream head stream => (some (head, some stream), { hosted with session })
    else (none, hosted)
  receive hosted connection :=
    match connection with
    | none => (("", true), none, hosted)
    | some stream =>
      let (text, stream) := stream.read hosted.session.worker hosted.session.clock
      ((text, stream.ended), some stream, hosted)

/-- A session that does not stand still: before a request reaches it and before a connection
is looked at, something happens to it, which may depend on how often that was so before. -/
structure Live (σ : Type) where
  hosted : Hosted σ
  meanwhile : Nat → Session σ → Session σ := fun _ => Session.settle
  turn : Nat := 0

def Live.proceed {σ : Type} (live : Live σ) : Live σ :=
  { live with
    hosted :=
      { live.hosted with session := live.meanwhile live.turn live.hosted.session }
    turn := live.turn + 1 }

instance {σ : Type} [Engine σ] : Network (Live σ) (Option CompletionStream) where
  send live url request :=
    let live := live.proceed
    let (reply, hosted) := Network.send live.hosted url request
    (reply, { live with hosted })
  receive live connection :=
    let live := live.proceed
    let (news, connection, hosted) := Network.receive live.hosted connection
    (news, connection, { live with hosted })

/-- A server that gives prepared responses in order, whatever is asked; none stands for
hanging up.  The requests it got are kept. -/
structure Prepared where
  replies : List (Option Response) := []
  requests : List Request := []
  -- Whether connections can be made.
  up : Bool := true
  deriving Repr

instance : Network Prepared Unit where
  send server _ request :=
    match server.up, server.replies with
    | true, reply :: replies =>
      (reply.map fun response => (response, ()),
        { server with replies, requests := server.requests ++ [request] })
    | _, _ => (none, server)
  receive server _ := (("", true), (), server)

end PlanService
