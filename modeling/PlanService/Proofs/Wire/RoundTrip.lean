import PlanService.Proofs.Json.Nesting
import PlanService.Proofs.Wire.ReadBack

/-! # Reading undoes writing

A value that crosses the wire may hold parameters, and these may be any JSON.  It is read back from
its text if the numbers in it are integers and the text nests no deeper than a reader goes; and a
value that was read from a text nests that little, so a text that is read and written once does not
change any more (`RoundTrips`).

The second half needs what a reader can return.  For a record that is what each of its fields
keeps (`record_keeps`).
-/

namespace PlanService

open Json (Decoder Fault decode depthLimit)

/-! ## What is read of a record -/

namespace Json.Decoder

variable {σ : Type} {depth : Nat} {Kept : σ → Prop}

/-- What every field keeps that is not seen yet, the members that follow keep. -/
theorem fieldMembers_keeps {fields : List (Field σ)} {said : Draft.Members} {seen : List String} {s t : σ}
    (keeps : ∀ field ∈ fields, field.name ∉ seen → ∀ v s t, field.read depth v s = .ok t → Kept s → Kept t)
    (read : fieldMembers fields depth said seen s = .ok t) (start : Kept s) : Kept t := by
  match said with
  | .closed =>
    rw [fieldMembers] at read
    split at read
    · cases read
    · cases read
      exact start
  | .cut => cases read
  | .member (.string (some key)) v rest =>
    rw [fieldMembers] at read
    split at read
    next =>
      split at read
      · exact fieldMembers_keeps keeps read start
      · cases read
    next field found =>
      split at read
      · cases read
      next unseen =>
        have named : field.name = key := by simpa using List.find?_some found
        have new : field.name ∉ seen := by simpa [named] using unseen
        obtain ⟨u, readField, read⟩ := exists_of_bind_eq_ok read
        have keptField : Kept u := keeps field (List.mem_of_find?_eq_some found) new v s u readField start
        exact fieldMembers_keeps (fun other member otherNew =>
          keeps other member fun seenBefore => otherNew (List.mem_cons_of_mem _ seenBefore)) read keptField
  | .member .null _ _ | .member (.bool _) _ _ | .member (.number _) _ _ | .member (.string none) _ _
  | .member (.array _) _ _ | .member (.object _) _ _ | .member .broken _ _ => cases read

theorem fieldItems_keeps {fields : List (Field σ)} {said : Draft.Items} {s t : σ}
    (keeps : ∀ field ∈ fields, ∀ v s t, field.read depth v s = .ok t → Kept s → Kept t)
    (read : fieldItems depth fields said s = .ok t) (start : Kept s) : Kept t := by
  induction fields generalizing said s with
  | nil =>
    cases said with
    | closed =>
      cases read
      exact start
    | cut | item => cases read
  | cons field fields ih =>
    cases said with
    | cut => cases read
    | closed =>
      rw [fieldItems] at read
      split at read
      · cases read
      · cases read
        exact start
    | item v rest =>
      rw [fieldItems] at read
      obtain ⟨u, readField, read⟩ := exists_of_bind_eq_ok read
      exact ih (fun other member => keeps other (List.mem_cons_of_mem _ member)) read
        (keeps field List.mem_cons_self v s u readField start)

/-- What every field keeps, the record has, in whatever form it is given. -/
theorem record_keeps (Kept : σ → Prop) {fields : List (Field σ)} {blank a : σ} {said : Draft}
    (keeps : ∀ field ∈ fields, ∀ v s t, field.read depth v s = .ok t → Kept s → Kept t)
    (read : record fields blank (depth + 1) said = .ok a) (start : Kept blank) : Kept a := by
  cases said with
  | array items => exact fieldItems_keeps keeps read start
  | object members => exact fieldMembers_keeps (fun field member _ => keeps field member) read start
  | null | bool | number | string | broken => cases read

end Json.Decoder

open Json.Decoder (Field needed_read defaulted_read record_of_gives record_keeps strings_draft items_draft)

/-! ## Parameters -/

theorem Json.nesting_ofStrings (texts : List String) : (Json.ofStrings texts).nesting = 1 := by
  have none : Json.nestingOfItems (texts.map .string) = 0 := by
    refine Nat.le_zero.mp (Json.nestingOfItems_le_iff.mpr fun v member => ?_)
    obtain ⟨text, -, rfl⟩ := List.mem_map.mp member
    exact Nat.le_refl 0
  rw [Json.ofStrings, Json.nesting, none]

namespace Task

/-- The parameters are maps, all the way down. -/
def Keyed (task : Task) : Prop := (Json.object task.params).Keyed

theorem nesting_toJson (task : Task) : task.toJson.nesting = (Json.object task.params).nesting + 1 := by
  simp [toJson, Json.nesting, Json.nestingOfMembers]

theorem integral_params {task : Task} (integral : task.toJson.Integral) : (Json.object task.params).Integral := by
  cases integral with
  | object each => exact each ("params", .object task.params) (by simp)

/-- Whatever is read as a task has parameters that a reader can return. -/
theorem shaped_of_decoder {depth : Nat} {said : Json.Draft} {task : Task}
    (read : Task.decoder (depth + 2) said = .ok task) : (Json.object task.params).Shaped (depth + 1) := by
  refine record_keeps (fun task => (Json.object task.params).Shaped (depth + 1)) ?_ read ?_
  · intro field member v s t readField kept
    rcases List.mem_cons.mp member with rfl | member
    · obtain ⟨name, -, rfl⟩ := exists_of_map_eq_ok readField
      exact kept
    · cases List.mem_singleton.mp member
      obtain ⟨params, readParams, rfl⟩ := exists_of_map_eq_ok readField
      exact Json.shaped_of_members readParams
  · exact .object .nil nofun

end Task

namespace TrackedTask

theorem nesting_toJson (record : TrackedTask) :
    record.toJson.nesting = max (record.task.toJson.nesting) 1 + 1 := by
  have errors : (Json.ofStrings record.errors).nesting = 1 := Json.nesting_ofStrings record.errors
  simp [toJson, TaskId.toJson, Json.nesting, Json.nestingOfMembers, errors]

theorem integral_params {record : TrackedTask} (integral : record.toJson.Integral) :
    (Json.object record.task.params).Integral := by
  cases integral with
  | object each => exact Task.integral_params (each ("task", record.task.toJson) (by simp))

theorem shaped_of_decoder {depth : Nat} {said : Json.Draft} {record : TrackedTask}
    (read : TrackedTask.decoder (depth + 3) said = .ok record) :
    (Json.object record.task.params).Shaped (depth + 1) := by
  refine record_keeps (fun record => (Json.object record.task.params).Shaped (depth + 1)) ?_ read ?_
  · intro field member v s t readField kept
    simp only [List.mem_cons, List.not_mem_nil, or_false] at member
    rcases member with rfl | rfl | rfl | rfl
    · obtain ⟨id, -, rfl⟩ := exists_of_map_eq_ok readField
      exact kept
    · obtain ⟨task, readTask, rfl⟩ := exists_of_map_eq_ok readField
      exact Task.shaped_of_decoder readTask
    · obtain ⟨isComplete, -, rfl⟩ := exists_of_map_eq_ok readField
      exact kept
    · obtain ⟨errors, -, rfl⟩ := exists_of_map_eq_ok readField
      exact kept
  · exact .object .nil nofun

end TrackedTask

/-! ## Completions, outcomes and the catalog -/

theorem CompletionStatus.decoder_draft (status : CompletionStatus) (depth : Nat) :
    CompletionStatus.decoder depth status.toJson.draft = .ok status := by
  cases status <;> rfl

namespace Completion

theorem integral_toJson (completion : Completion) : completion.toJson.Integral := by
  refine .object ?_
  simp only [List.forall_mem_cons]
  exact ⟨.string _, .string _, Json.integral_ofStrings _, nofun⟩

theorem decoder_draft (completion : Completion) (depth : Nat) :
    Completion.decoder (depth + 2) completion.toJson.draft = .ok completion :=
  record_of_gives (by decide) <|
    .given (needed_read rfl _ _ _) <|
    .given (needed_read (CompletionStatus.decoder_draft completion.status (depth + 1)) _ _ _) <|
    .given (needed_read (strings_draft completion.errors) _ _ _) .nil

theorem nesting_toJson (completion : Completion) : completion.toJson.nesting = 2 := by
  have errors := Json.nesting_ofStrings completion.errors
  simp [toJson, TaskId.toJson, CompletionStatus.toJson, Json.nesting, Json.nestingOfMembers, errors]

end Completion

theorem Outcome.decoder_draft (outcome : Outcome) (depth : Nat) :
    Outcome.decoder (depth + 1) outcome.toJson.draft = .ok outcome :=
  record_of_gives (by decide) <|
    .given (needed_read rfl _ _ _) <|
    .given (needed_read (WorkerState.decoder_draft outcome.state depth) _ _ _) .nil

theorem Plan.decoder_draft (plan : Plan) (depth : Nat) :
    Plan.decoder (depth + 1) plan.toJson.draft = .ok plan := by
  obtain ⟨name, _ | description⟩ := plan
  · exact record_of_gives (by decide) <| .given (needed_read rfl _ _ _) <| .leftOut rfl .nil
  · exact record_of_gives (by decide) <|
      .given (needed_read rfl _ _ _) <| .given (defaulted_read rfl _ _ _) .nil

theorem Plan.nesting_toJson (plan : Plan) : plan.toJson.nesting = 1 := by
  obtain ⟨name, _ | description⟩ := plan <;> simp [toJson, Json.nesting, Json.nestingOfMembers]

theorem Device.decoder_draft (device : Device) (depth : Nat) :
    Device.decoder (depth + 2) device.toJson.draft = .ok device :=
  record_of_gives (by decide) <|
    .given (needed_read rfl _ _ _) <| .given (defaulted_read (strings_draft device.protocols) _ _ _) .nil

theorem Device.nesting_toJson (device : Device) : device.toJson.nesting = 2 := by
  have protocols := Json.nesting_ofStrings device.protocols
  simp [toJson, Json.nesting, Json.nestingOfMembers, protocols]

namespace Catalog

theorem decoder_draft (catalog : Catalog) (depth : Nat) :
    Catalog.decoder (depth + 4) catalog.toJson.draft = .ok catalog := by
  have plans : Decoder.list Plan.decoder (depth + 3) (Json.array (catalog.plans.map Plan.toJson)).draft =
      .ok catalog.plans := items_draft fun plan _ => Plan.decoder_draft plan (depth + 1)
  have devices : Decoder.list Device.decoder (depth + 3) (Json.array (catalog.devices.map Device.toJson)).draft =
      .ok catalog.devices := items_draft fun device _ => Device.decoder_draft device depth
  exact record_of_gives (by decide) <|
    .given (defaulted_read plans _ _ _) <| .given (defaulted_read devices _ _ _) .nil

theorem nesting_toJson_le (catalog : Catalog) : catalog.toJson.nesting ≤ 4 := by
  refine Nat.succ_le_succ (Json.nestingOfMembers_le_iff.mpr ?_)
  simp only [List.forall_mem_cons]
  refine ⟨Nat.succ_le_succ (Json.nestingOfItems_le_iff.mpr fun v member => ?_),
    Nat.succ_le_succ (Json.nestingOfItems_le_iff.mpr fun v member => ?_), nofun⟩
  · obtain ⟨plan, -, rfl⟩ := List.mem_map.mp member
    rw [plan.nesting_toJson]
    decide
  · obtain ⟨device, -, rfl⟩ := List.mem_map.mp member
    exact Nat.le_of_eq device.nesting_toJson

end Catalog

theorem Submitted.nesting_toJson (body : Submitted) : body.toJson.nesting = 1 := by
  simp [toJson, TaskId.toJson, Json.nesting, Json.nestingOfMembers]

theorem ActiveTask.nesting_toJson (body : ActiveTask) : body.toJson.nesting = 1 := by
  obtain ⟨_ | id⟩ := body <;> simp [toJson, TaskId.toJson, Json.nesting, Json.nestingOfMembers]

theorem StateRequest.nesting_toJson (body : StateRequest) : body.toJson.nesting = 1 := by
  obtain ⟨target, _ | defer⟩ := body <;> simp [toJson, WorkerState.toJson, Json.nesting, Json.nestingOfMembers]

theorem Outcome.nesting_toJson (outcome : Outcome) : outcome.toJson.nesting = 1 := by
  simp [toJson, WorkerState.toJson, Json.nesting, Json.nestingOfMembers]

/-! ## Every type -/

section

variable {α : Type} {toJson : α → Json} {decoder : Decoder α}

/-- The text that a text becomes when it is read as a value and written again. -/
def Json.rewrite (decoder : Decoder α) (toJson : α → Json) (text : String) : Except Fault String :=
  (fun a => (toJson a).compact) <$> decode decoder text

/-- Within the bounds of what is read, a value is read back from its text; hence a text that is read
and written again stays the same from then on.  Of the lists of members in a value it is said with
`Valid` that they are maps. -/
structure RoundTrips (toJson : α → Json) (decoder : Decoder α) (Valid : α → Prop) : Prop where
  read_written {a : α} : Valid a → (toJson a).Integral → (toJson a).nesting ≤ depthLimit →
    decode decoder (toJson a).compact = .ok a
  rewrite_written {text : String} {a : α} : decode decoder text = .ok a → (toJson a).Integral →
    Json.rewrite decoder toJson (toJson a).compact = .ok (toJson a).compact

theorem exists_of_decode_eq_ok {text : String} {a : α} (read : decode decoder text = .ok a) :
    ∃ said, decoder depthLimit said = .ok a := by
  rw [decode] at read
  simp only at read
  split at read
  · cases read
  next b readDraft =>
    split at read
    · cases read
      exact ⟨_, readDraft⟩
    · cases read

/-- It is enough that the draft of a value is read, and that what is read is within the bounds. -/
theorem roundTrips_of {Valid : α → Prop}
    (back : ∀ a, Valid a → (toJson a).Integral → (toJson a).nesting ≤ depthLimit →
      decoder depthLimit (toJson a).draft = .ok a)
    (fits : ∀ said a, decoder depthLimit said = .ok a → Valid a ∧ (toJson a).nesting ≤ depthLimit) :
    RoundTrips toJson decoder Valid := by
  have readWritten {a : α} (valid : Valid a) (integral : (toJson a).Integral)
      (within : (toJson a).nesting ≤ depthLimit) : decode decoder (toJson a).compact = .ok a :=
    (Json.decode_compact decoder integral).trans (back a valid integral within)
  refine ⟨readWritten, fun {text a} read integral => ?_⟩
  obtain ⟨said, readDraft⟩ := exists_of_decode_eq_ok read
  obtain ⟨valid, within⟩ := fits said a readDraft
  rw [Json.rewrite, readWritten valid integral within]
  rfl

/-- Without parameters there are no maps, and the nesting is the same for all values of a type. -/
theorem roundTrips_of_flat (back : ∀ a, decoder depthLimit (toJson a).draft = .ok a)
    (within : ∀ a, (toJson a).nesting ≤ depthLimit) : RoundTrips toJson decoder fun _ => True :=
  roundTrips_of (fun a _ _ _ => back a) fun _ a _ => ⟨trivial, within a⟩

end

theorem Task.roundTrips : RoundTrips Task.toJson Task.decoder Task.Keyed := by
  refine roundTrips_of (fun task keyed integral within => ?_) fun said task read => ?_
  · rw [Task.nesting_toJson] at within
    exact Task.decoder_draft <|
      Json.readable_iff.mpr ⟨Task.integral_params integral, keyed, Nat.le_of_succ_le_succ within⟩
  · have shaped := Task.shaped_of_decoder read
    exact ⟨shaped.keyed, by rw [Task.nesting_toJson]; exact Nat.succ_le_succ shaped.nesting_le⟩

theorem TrackedTask.roundTrips :
    RoundTrips TrackedTask.toJson TrackedTask.decoder fun record => record.task.Keyed := by
  refine roundTrips_of (fun record keyed integral within => ?_) fun said record read => ?_
  · rw [TrackedTask.nesting_toJson, Task.nesting_toJson] at within
    exact TrackedTask.decoder_draft <|
      Json.readable_iff.mpr ⟨TrackedTask.integral_params integral, keyed, by rw [depthLimit] at within; omega⟩
  · have shaped := TrackedTask.shaped_of_decoder read
    refine ⟨shaped.keyed, ?_⟩
    have within := shaped.nesting_le
    rw [TrackedTask.nesting_toJson, Task.nesting_toJson, depthLimit]
    omega

/-- Reading undoes writing for whatever crosses the wire. -/
theorem wire_round_trips :
    RoundTrips Task.toJson Task.decoder Task.Keyed ∧
    RoundTrips TrackedTask.toJson TrackedTask.decoder (fun record => record.task.Keyed) ∧
    RoundTrips Completion.toJson Completion.decoder (fun _ => True) ∧
    RoundTrips Outcome.toJson Outcome.decoder (fun _ => True) ∧
    RoundTrips StateRequest.toJson StateRequest.decoder (fun _ => True) ∧
    RoundTrips ActiveTask.toJson ActiveTask.decoder (fun _ => True) ∧
    RoundTrips Submitted.toJson Submitted.decoder (fun _ => True) ∧
    RoundTrips Plan.toJson Plan.decoder (fun _ => True) ∧
    RoundTrips Device.toJson Device.decoder (fun _ => True) ∧
    RoundTrips Catalog.toJson Catalog.decoder (fun _ => True) := by
  refine ⟨Task.roundTrips, TrackedTask.roundTrips, ?completion, ?outcome, ?stateRequest, ?activeTask,
    ?submitted, ?plan, ?device, ?catalog⟩
  case completion =>
    exact roundTrips_of_flat (Completion.decoder_draft · 125) fun a => by rw [a.nesting_toJson]; decide
  case outcome =>
    exact roundTrips_of_flat (Outcome.decoder_draft · 126) fun a => by rw [a.nesting_toJson]; decide
  case stateRequest =>
    exact roundTrips_of_flat StateRequest.decoder_draft fun a => by rw [a.nesting_toJson]; decide
  case activeTask =>
    exact roundTrips_of_flat ActiveTask.decoder_draft fun a => by rw [a.nesting_toJson]; decide
  case submitted =>
    exact roundTrips_of_flat Submitted.decoder_draft fun a => by rw [a.nesting_toJson]; decide
  case plan =>
    exact roundTrips_of_flat (Plan.decoder_draft · 126) fun a => by rw [a.nesting_toJson]; decide
  case device =>
    exact roundTrips_of_flat (Device.decoder_draft · 125) fun a => by rw [a.nesting_toJson]; decide
  case catalog =>
    exact roundTrips_of_flat (Catalog.decoder_draft · 123) fun a => Nat.le_trans a.nesting_toJson_le (by decide)

/-- Parameters that nest, with a key that has to be escaped and the largest and least of numbers. -/
theorem nested_task_read_back :
    let task : Task := ⟨"count", [("", .array [.object [("\n\"", .number (.integer 18446744073709551615))]]),
      ("num", .number (.integer (-9223372036854775808)))]⟩
    task.Keyed ∧ task.toJson.Integral ∧ task.toJson.nesting = 4 ∧
      decode Task.decoder task.toJson.compact = .ok task := by
  intro task
  have inner : (Json.object [("\n\"", .number (.integer 18446744073709551615))]).Readable 124 :=
    .object (List.pairwise_singleton ..) (by simpa using .integer ⟨by decide, by decide⟩)
  have readable : (Json.object task.params).Readable 126 := by
    refine .object (by decide) ?_
    simp only [task, List.forall_mem_cons]
    exact ⟨.array (by simpa using inner), .integer ⟨by decide, by decide⟩, nofun⟩
  obtain ⟨integral, shaped⟩ := Json.readable_iff.mp readable
  have integralTask : task.toJson.Integral := by
    refine .object ?_
    simp only [List.forall_mem_cons]
    exact ⟨.string _, integral, nofun⟩
  exact ⟨shaped.keyed, integralTask, by decide,
    wire_round_trips.1.read_written shaped.keyed integralTask (by decide)⟩

end PlanService
