import PlanService.EventStream
import PlanService.Json.Printer
import PlanService.Wire.Bodies
import PlanService.Worker

/-! # Completion streams

The answer to somebody who wants to hear of a task's end: a stream with one event, sent when
the task is complete, or at once if it was complete when the stream was opened.  While there
is nothing to tell, a comment is sent every fifteen seconds.
-/

namespace PlanService

def Completion.event (completion : Completion) : ServerEvent :=
  ⟨"completion", completion.toJson.compact⟩

def CompletionError.event (error : CompletionError) : ServerEvent :=
  ⟨"error", error.message⟩

/-- The event that is sent for what was received, if there is anything to tell. -/
def Received.event? (id : TaskId) : Received → Option ServerEvent
  | .completion told => some told.event
  | .closed => some (CompletionError.closed id).event
  | .lagged skipped => some (CompletionError.lagged id skipped).event
  | .pending => none

/-- An open stream. -/
structure CompletionStream where
  -- Taken before the record was looked at, so that no completion falls in between.
  subscription : Subscription
  -- The completion, if the task was complete when the stream was opened.
  known : Option Completion
  -- When the next comment is due.
  keepAlive : Millis
  ended : Bool := false
  deriving Repr

namespace CompletionStream

def silence : Millis := 15000

/-- What is there to send: the last event of the stream, if the wait for it is over, and
how far the subscription was read. -/
def poll {σ : Type} (stream : CompletionStream) (worker : Worker σ) :
    Option ServerEvent × Subscription :=
  match stream.known with
  | some completion => (some completion.event, stream.subscription)
  | none =>
    let (received, subscription) := worker.await stream.subscription
    (received.event? subscription.id, subscription)

def read {σ : Type} (stream : CompletionStream) (worker : Worker σ) (now : Millis) :
    String × CompletionStream :=
  if stream.ended then ("", stream)
  else
    match stream.poll worker with
    | (some event, subscription) => (event.text, { stream with subscription, ended := true })
    | (none, subscription) =>
      if stream.keepAlive ≤ now then
        (keepAliveText, { stream with subscription, keepAlive := now + silence })
      else ("", { stream with subscription })

end CompletionStream

end PlanService
