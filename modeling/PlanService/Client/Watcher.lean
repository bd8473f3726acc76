import PlanService.Client.Basic
import PlanService.EventStream
import PlanService.Http.MediaType

/-! # Watching for a completion

A watcher holds an open completion stream.  It hears of the task's end by the first event
named `completion`; any other event says why there will be none.
-/

namespace PlanService

/-- An open stream: the events that came and were not looked at, whether the server has
ended it, and whether the watcher has closed it. -/
structure Watcher where
  unread : List ServerEvent := []
  ended : Bool := false
  closed : Bool := false
  deriving Repr, DecidableEq, Inhabited

namespace Watcher

/-- How a header value is quoted: bytes that are not visible ASCII as `\x` and their
hexadecimal digits. -/
def quoteHeader (value : String) : String :=
  let quoteByte (b : UInt8) : List Char :=
    if b = 34 then ['\\', '"']
    else if b = 9 ∨ (32 ≤ b ∧ b < 127) then [Char.ofNat b.toNat]
    else '\\' :: 'x' :: Nat.toDigits 16 b.toNat
  String.ofList ('"' :: ((Text.Utf8.encode value.toList).flatMap quoteByte ++ ['"']))

/-- Whether a response opens a completion stream: only status 200 with the media type of
event streams does. -/
def checkOpening (head : Http.Response) : Except ClientError Unit :=
  if head.status = 404 then .error (.notFound "Item not found")
  else if head.status ≠ 200 then .error (.status head.status "completion stream refused")
  else
    let type := (head.header? "content-type").getD ""
    if (Http.MediaType.parse type).any Http.MediaType.isEventStream then .ok ()
    else .error (.stream s!"Invalid header value: {quoteHeader type}")

def opening (id : TaskId) : Client.Call Unit where
  method := .get
  path := s!"/tasks/{id}/completion"
  read := checkOpening

def feed (watcher : Watcher) (text : String) (ended : Bool) : Watcher :=
  { watcher with unread := watcher.unread ++ EventStream.events text, ended }

def close (watcher : Watcher) : Watcher :=
  { watcher with closed := true, unread := [] }

/-- What a watcher has to tell; nothing if it has to wait for more.  Having told of a
completion or of a failure, it is closed; after an event that cannot be read it is not. -/
def next (watcher : Watcher) : Option (Except ClientError Completion) × Watcher :=
  if watcher.closed then (some (.error (.stream "completion stream ended")), watcher)
  else
    match watcher.unread with
    | event :: rest =>
      if event.name = "completion" then
        match Json.decode Completion.decoder event.data with
        | .ok completion => (some (.ok completion), watcher.close)
        | .error _ => (some (.error .invalidCompletion), { watcher with unread := rest })
      else (some (.error (.stream event.data)), watcher.close)
    | [] =>
      if watcher.ended then (some (.error (.stream "Stream ended")), watcher.close)
      else (none, watcher)

def giveUp (watcher : Watcher) (limit : Millis) : Except ClientError Completion × Watcher :=
  (.error (.timeout limit), watcher.close)

end Watcher

end PlanService
