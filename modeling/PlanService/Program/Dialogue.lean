import PlanService.Client.Network
import PlanService.Config.Basic
import PlanService.Program.Invocation
import PlanService.Program.LogLevel

/-! # Dialogues

A run of the program as a value: what it does to the world, step by step, and how it goes on
after each answer.  What the steps mean is left to whoever runs the dialogue, so that the same
program can be run against real sockets or against a session at hand.
-/

namespace PlanService

inductive Output where
  | line (text : String)
  -- The help of a command.
  | help (path : String) (command : CommandLine.Command)
  deriving Repr, Inhabited

namespace Output

def text : Output → String
  | line text => text ++ "\n"
  | help path command =>
    String.join ((Invocation.grammar.help path command).map (· ++ "\n"))

end Output

inductive Awaited where
  | told (result : Except ClientError Completion)
  | interrupted
  deriving Repr

/-- A step of the program, with the type of its answer. -/
inductive Action : Type → Type 1 where
  | print (output : Output) : Action Unit
  -- Tells the user something that is no result.
  | warn (line : String) : Action Unit
  -- Writes the log into a directory from now on; `false` if that is not possible.
  | openLog (dir : String) (level : LogLevel) : Action Bool
  | ask {α : Type} (client : Client) (call : Client.Call α) : Action (Except ClientError α)
  -- Opens the completion stream of a task.
  | watch (client : Client) (id : TaskId) : Action (Except ClientError Unit)
  -- Waits on the stream that was opened last, for `limit` at most.
  | await (limit : Option Millis) : Action Awaited
  -- Brings up the service of a configuration; `false` if its address is not free.
  | listen (config : Config) : Action Bool
  -- Serves until the user interrupts.
  | serve : Action Unit

/-- What the program does and how it goes on. -/
inductive Dialogue (α : Type) : Type 1 where
  | done (a : α)
  | step {β : Type} (action : Action β) (next : β → Dialogue α)

namespace Dialogue

def andThen {α β : Type} : Dialogue α → (α → Dialogue β) → Dialogue β
  | done a, f => f a
  | step action next, f => step action fun b => (next b).andThen f

theorem andThen_done {α : Type} (d : Dialogue α) : d.andThen done = d := by
  induction d with
  | done a => rfl
  | step action next ih => exact congrArg (step action) (funext ih)

theorem andThen_assoc {α β γ : Type} (d : Dialogue α) (f : α → Dialogue β)
    (g : β → Dialogue γ) : (d.andThen f).andThen g = d.andThen fun a => (f a).andThen g := by
  induction d with
  | done a => rfl
  | step action next ih => exact congrArg (step action) (funext ih)

instance : Monad Dialogue where
  pure := done
  bind := andThen

instance : LawfulMonad Dialogue :=
  LawfulMonad.mk' Dialogue andThen_done (fun _ _ => rfl) andThen_assoc

def act {α : Type} (action : Action α) : Dialogue α := step action done

end Dialogue

/-- A part of the program that may fail, with the error in words. -/
abbrev Script := ExceptT String Dialogue

namespace Script

def act {α : Type} (action : Action α) : Script α := ExceptT.lift (Dialogue.act action)

def printLine (text : String) : Script Unit := act (.print (.line text))

def printLines (lines : List String) : Script Unit := lines.forM printLine

def ofResult {α : Type} (result : Except ClientError α) : Script α :=
  match result with
  | .ok a => pure a
  | .error error => throw error.message

def ask {α : Type} (client : Client) (call : Client.Call α) : Script α := do
  ofResult (← act (.ask client call))

end Script

end PlanService
