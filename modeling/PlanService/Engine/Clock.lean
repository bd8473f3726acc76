import PlanService.Engine.Recording
import PlanService.Engine.Simulated

/-! # Engines on a clock

An engine on a clock acts on its own when a deadline passes.  Somebody who waits for such an
engine moves the clock from deadline to deadline, of which there are only finitely many.
-/

namespace PlanService

/-- An engine whose progress depends on a clock. -/
class Clocked (σ : Type) where
  -- Lets time pass, meeting every deadline up to and including the new time.
  elapse : σ → Millis → σ × List EngineEvent
  -- How long it is until the next deadline.
  untilDeadline? : σ → Option Millis
  -- A bound on the deadlines to come as long as the engine is not called.
  deadlines : σ → Nat

instance : Clocked Simulated where
  elapse := Simulated.advance
  untilDeadline? engine := (engine.run.bind (·.deadline)).map (· - engine.now)
  deadlines := Simulated.stepsLeft

instance : Clocked Recording where
  elapse engine _ := (engine, [])
  untilDeadline? _ := none
  deadlines _ := 0

end PlanService
