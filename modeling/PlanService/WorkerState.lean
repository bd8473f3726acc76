import PlanService.Text.UpperCase

/-! # Worker states

The three states that a worker shows, and the changes between them that may be requested.
-/

namespace PlanService

/-- What a worker is doing, as seen from outside. -/
inductive WorkerState where
  | idle
  | running
  | paused
  deriving Repr, DecidableEq, Inhabited

namespace WorkerState

def text : WorkerState → String
  | idle => "IDLE"
  | running => "RUNNING"
  | paused => "PAUSED"

instance : ToString WorkerState := ⟨text⟩

def named : List (String × WorkerState) :=
  [idle, running, paused].map fun s => (s.text, s)

def parse (name : String) : Except String WorkerState :=
  let upper := Text.upper name
  match named.lookup upper with
  | some s => .ok s
  | none => .error s!"unknown worker state '{upper}'"

/-- The states that may be requested in this one.  Nobody can request that an idle worker
start: only beginning a task does that. -/
def allowedTargets : WorkerState → List WorkerState
  | running => [paused]
  | paused => [running]
  | idle => []

def canRequest (s target : WorkerState) : Bool :=
  s.allowedTargets.contains target

end WorkerState

/-- The answer to a requested change of state: whether it was allowed, and the state that
holds after it. -/
structure Outcome where
  accepted : Bool
  state : WorkerState
  deriving Repr, DecidableEq, Inhabited

end PlanService
