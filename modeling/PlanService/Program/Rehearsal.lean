import PlanService.Program.Basic

/-! # Rehearsals

Running a dialogue without a world: over a network at hand, in given circumstances, noting
what is printed.
-/

namespace PlanService

/-- What the program finds around it. -/
structure Circumstances where
  -- Whether a log can be written into a directory.
  canLog : String → Bool := fun _ => true
  -- Whether the service of a configuration can be brought up.
  canListen : Config → Bool := fun _ => true
  -- Whether the user interrupts the program that waits, having printed this.
  interrupts : List Output → Bool := fun _ => false
  -- How often a program that waits looks whether something has come.
  patience : Nat := 1

structure Rehearsal (τ κ : Type) where
  network : τ
  watching : Option (Watching κ) := none
  printed : List Output := []
  said : List String := []
  -- The directory of the log.
  logDir : Option String := none
  -- The service that was brought up.
  service : Option Config := none

namespace Rehearsal

variable {τ κ : Type} [Network τ κ]

/-- Looks at the stream for something to tell, a few times at most. -/
def look (rehearsal : Rehearsal τ κ) :
    Nat → Option (Except ClientError Completion) × Rehearsal τ κ
  | 0 => (none, rehearsal)
  | times + 1 =>
    match rehearsal.watching with
    | none => (none, rehearsal)
    | some watching =>
      let (result, watching, network) := watching.next rehearsal.network
      let rehearsal := { rehearsal with network, watching := some watching }
      match result with
      | some result => (some result, rehearsal)
      | none => rehearsal.look times

/-- How waiting in vain ends: by the limit if it is none at all, else by the user, else by
the limit.  Without any of these it does not end. -/
def inVain (circumstances : Circumstances) (rehearsal : Rehearsal τ κ) (limit : Option Millis) :
    Option Awaited :=
  let interrupted := circumstances.interrupts rehearsal.printed
  match limit with
  | some limit =>
    if interrupted ∧ limit ≠ 0 then some .interrupted
    else some (.told (.error (.timeout limit)))
  | none => if interrupted then some .interrupted else none

/-- The answer to a step; none if it never comes. -/
def answer (circumstances : Circumstances) (rehearsal : Rehearsal τ κ) {α : Type} :
    Action α → Option α × Rehearsal τ κ
  | .print output => (some (), { rehearsal with printed := rehearsal.printed ++ [output] })
  | .warn line => (some (), { rehearsal with said := rehearsal.said ++ [line] })
  | .openLog dir _ =>
    if circumstances.canLog dir then (some true, { rehearsal with logDir := some dir })
    else (some false, rehearsal)
  | .ask client call =>
    let (result, network) := client.perform call rehearsal.network
    (some result, { rehearsal with network })
  | .watch client id =>
    let (result, network) := Watching.start client id rehearsal.network
    match result with
    | .ok watching => (some (.ok ()), { rehearsal with network, watching := some watching })
    | .error error => (some (.error error), { rehearsal with network })
  | .await limit =>
    match rehearsal.look circumstances.patience with
    | (some result, rehearsal) => (some (.told result), rehearsal)
    | (none, rehearsal) => (rehearsal.inVain circumstances limit, rehearsal)
  | .listen config =>
    if circumstances.canListen config then (some true, { rehearsal with service := some config })
    else (some false, rehearsal)
  | .serve => (some (), rehearsal)

/-- Runs a dialogue to its end; without a result if it waits for ever. -/
def run (circumstances : Circumstances) {α : Type} :
    Dialogue α → Rehearsal τ κ → Option α × Rehearsal τ κ
  | .done a, rehearsal => (some a, rehearsal)
  | .step action next, rehearsal =>
    match rehearsal.answer circumstances action with
    | (some b, rehearsal) => run circumstances (next b) rehearsal
    | (none, rehearsal) => (none, rehearsal)

theorem run_andThen (circumstances : Circumstances) {α β : Type} (d : Dialogue α)
    (f : α → Dialogue β) (rehearsal : Rehearsal τ κ) :
    run circumstances (d.andThen f) rehearsal =
      match run circumstances d rehearsal with
      | (some a, rehearsal) => run circumstances (f a) rehearsal
      | (none, rehearsal) => (none, rehearsal) := by
  induction d generalizing rehearsal with
  | done a => rfl
  | step action next ih =>
    simp only [Dialogue.andThen, run]
    match rehearsal.answer circumstances action with
    | (some b, rehearsal) => exact ih b rehearsal
    | (none, rehearsal) => rfl

end Rehearsal

end PlanService
