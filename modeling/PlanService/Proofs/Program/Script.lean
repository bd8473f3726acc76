import PlanService.Program.Rehearsal

/-! # Rehearsing a script

What a part of the program comes to that may fail, step by step: nothing after the first error is
done.  A whole script is worked out from its parts with these equations, without a look at how
dialogues are put together.
-/

namespace PlanService

namespace Rehearsal

variable {τ κ α β : Type} [Network τ κ] (circumstances : Circumstances)

/-- Runs a script; an error is a result. -/
def play (script : Script α) (rehearsal : Rehearsal τ κ) :
    Option (Except String α) × Rehearsal τ κ :=
  run circumstances script.run rehearsal

theorem play_pure (a : α) (rehearsal : Rehearsal τ κ) :
    play circumstances (pure a : Script α) rehearsal = (some (.ok a), rehearsal) := rfl

theorem play_bind (script : Script α) (next : α → Script β) (rehearsal : Rehearsal τ κ) :
    play circumstances (script >>= next) rehearsal =
      match play circumstances script rehearsal with
      | (some (.ok a), rehearsal) => play circumstances (next a) rehearsal
      | (some (.error message), rehearsal) => (some (.error message), rehearsal)
      | (none, rehearsal) => (none, rehearsal) := by
  rw [play, ExceptT.run_bind]
  refine (run_andThen circumstances script.run _ rehearsal).trans ?_
  rw [play]
  obtain ⟨_ | result, later⟩ := run circumstances script.run rehearsal
  · rfl
  · cases result <;> rfl

theorem play_bind_of_ok {script : Script α} {rehearsal later : Rehearsal τ κ} {a : α}
    (played : play circumstances script rehearsal = (some (.ok a), later)) (next : α → Script β) :
    play circumstances (script >>= next) rehearsal = play circumstances (next a) later := by
  rw [play_bind, played]

theorem play_bind_of_error {script : Script α} {rehearsal later : Rehearsal τ κ} {message : String}
    (played : play circumstances script rehearsal = (some (.error message), later)) (next : α → Script β) :
    play circumstances (script >>= next) rehearsal = (some (.error message), later) := by
  rw [play_bind, played]

theorem play_act (action : Action α) (rehearsal : Rehearsal τ κ) :
    play circumstances (Script.act action) rehearsal =
      ((rehearsal.answer circumstances action).1.map .ok, (rehearsal.answer circumstances action).2) := by
  have script : (Script.act action).run = .step action fun a => .done (Except.ok a) := rfl
  rw [play, script, run]
  obtain ⟨_ | a, later⟩ := rehearsal.answer circumstances action <;> rfl

theorem play_ofResult (result : Except ClientError α) (rehearsal : Rehearsal τ κ) :
    play circumstances (Script.ofResult result) rehearsal = (some (result.mapError (·.message)), rehearsal) := by
  cases result <;> rfl

theorem play_ask (client : Client) (call : Client.Call α) (rehearsal : Rehearsal τ κ) :
    play circumstances (Script.ask client call) rehearsal =
      (some ((client.perform call rehearsal.network).1.mapError (·.message)),
        { rehearsal with network := (client.perform call rehearsal.network).2 }) := by
  rw [Script.ask, play_bind, play_act]
  exact play_ofResult circumstances _ _

theorem play_printLine (text : String) (rehearsal : Rehearsal τ κ) :
    play circumstances (Script.printLine text) rehearsal =
      (some (.ok ()), { rehearsal with printed := rehearsal.printed ++ [.line text] }) := by
  rw [Script.printLine, play_act]
  rfl

theorem play_printLines (lines : List String) (rehearsal : Rehearsal τ κ) :
    play circumstances (Script.printLines lines) rehearsal =
      (some (.ok ()), { rehearsal with printed := rehearsal.printed ++ lines.map .line }) := by
  induction lines generalizing rehearsal with
  | nil => simp [Script.printLines, play_pure]
  | cons line lines ih =>
    have script : Script.printLines (line :: lines) =
        (Script.printLine line >>= fun _ => Script.printLines lines) := rfl
    rw [script, play_bind_of_ok circumstances (play_printLine circumstances line rehearsal), ih]
    rw [List.map_cons, List.append_assoc, List.singleton_append]

/-! ## The end -/

theorem run_conclude_of_ok {script : Script Unit} {rehearsal later : Rehearsal τ κ}
    (played : play circumstances script rehearsal = (some (.ok ()), later)) :
    run circumstances (Program.conclude script) rehearsal = (some .success, later) := by
  refine (run_andThen circumstances script.run _ rehearsal).trans ?_
  rw [play] at played
  rw [played]
  rfl

/-- An error is the last thing said. -/
theorem run_conclude_of_error {script : Script Unit} {rehearsal later : Rehearsal τ κ} {message : String}
    (played : play circumstances script rehearsal = (some (.error message), later)) :
    run circumstances (Program.conclude script) rehearsal =
      (some .failure, { later with said := later.said ++ [s!"Error: {message}"] }) := by
  refine (run_andThen circumstances script.run _ rehearsal).trans ?_
  rw [play] at played
  rw [played]
  rfl

end Rehearsal

end PlanService
