import PlanService.Duration
import PlanService.Task

/-! # The completion bus

Completions are broadcast to everybody who subscribed before, each reader at its own pace.
The bus is one log; a subscription is a cursor into it together with the id of the task it
waits for.  Only the newest `capacity` entries can still be read: a cursor that fell behind
them is told how many it lost, once, and goes on with the oldest one kept.
-/

namespace PlanService

def TaskId.topic (id : TaskId) : String :=
  s!"task.{id}"

/-- The bus: what was published so far and whether it is closed. -/
structure Bus where
  capacity : Nat
  log : Array Completion := #[]
  closed : Bool := false
  deriving Repr

namespace Bus

def defaultCapacity : Nat := 1024

/-- An empty bus that keeps at least the given number of completions: at least one, and
rounded up to a power of two. -/
def ofCapacity (capacity : Nat) : Bus where
  capacity := (max 1 capacity).nextPowerOfTwo

def publish (bus : Bus) (completion : Completion) : Bus :=
  { bus with log := bus.log.push completion }

/-- Nothing will be announced any more; what is kept can still be read. -/
def close (bus : Bus) : Bus :=
  { bus with closed := true }

/-- The position of the oldest completion that is kept. -/
def oldest (bus : Bus) : Nat :=
  bus.log.size - bus.capacity

end Bus

/-- A reader of the bus that waits for one task: everything before `cursor` is behind it. -/
structure Subscription where
  id : TaskId
  cursor : Nat
  deriving Repr, DecidableEq, Inhabited

/-- A subscription sees what is published from now on. -/
def Bus.subscribe (bus : Bus) (id : TaskId) : Subscription :=
  ⟨id, bus.log.size⟩

inductive Received where
  | completion (completion : Completion)
  -- This many entries were dropped before they were read; the completion that is waited
  -- for may have been among them.
  | lagged (skipped : Nat)
  -- The bus is closed and everything kept has been read.
  | closed
  -- There is nothing to read now.
  | pending
  deriving Repr, DecidableEq, Inhabited

namespace Subscription

/-- Reads on to the next completion of the task, passing over those of other tasks. -/
def receive (bus : Bus) (sub : Subscription) : Received × Subscription :=
  if sub.cursor < bus.oldest then
    (.lagged (bus.oldest - sub.cursor), { sub with cursor := bus.oldest })
  else
    let unread := bus.log.toList.drop sub.cursor
    match unread.dropWhile (·.id != sub.id) with
    | c :: later => (.completion c, { sub with cursor := bus.log.size - later.length })
    | [] =>
      (if bus.closed then .closed else .pending, { sub with cursor := bus.log.size })

end Subscription

inductive CompletionError where
  | closed (id : TaskId)
  | timeout (limit : Millis)
  | lagged (id : TaskId) (skipped : Nat)
  deriving Repr, DecidableEq, Inhabited

def CompletionError.message : CompletionError → String
  | closed id => s!"Completion channel closed before task {id} finished"
  | timeout limit => s!"Timed out after {limit.text} waiting for completion"
  | lagged id skipped => s!"Subscriber for task {id} fell behind by {skipped} messages"

end PlanService
