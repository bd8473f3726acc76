import Mathlib.Data.List.Nodup
import PlanService.Registry

/-! # Laws of the registry

Records are only ever looked up by id, so each operation is said by what it does to
`Registry.get?`.  Ids count submissions, which makes a new id fresh: `Numbered` holds of
every registry that was built by submitting tasks and changing records, and from it every
record is the one that its own id finds.
-/

namespace PlanService

/-! ## Ids -/

/-- The digits of an id give its number back, leading zeros or not. -/
theorem TaskId.ofNumber_injective {m n : Nat} (same : ofNumber m = ofNumber n) : m = n := by
  simp only [ofNumber, TaskId.mk.injEq, String.append_right_inj, String.ofList_inj] at same
  -- Reading the digits skips the leading zeros.
  have numbers := congrArg (Nat.ofDigitChars 10 · 0) same
  simpa [Nat.ofDigitChars_append, Nat.ofDigitChars_ten_toDigits] using numbers

/-! ## Records going on -/

namespace TrackedTask

/-- One record can be a later one of the same task: errors are only added, completeness is
only gained, and a complete record stays as it is. -/
structure Advances (earlier later : TrackedTask) : Prop where
  id : later.id = earlier.id
  task : later.task = earlier.task
  errors : earlier.errors <+: later.errors
  frozen : earlier.isComplete = true → later = earlier

theorem Advances.refl (record : TrackedTask) : record.Advances record :=
  ⟨rfl, rfl, List.prefix_rfl, fun _ => rfl⟩

theorem Advances.trans {first middle last : TrackedTask} (earlier : first.Advances middle)
    (later : middle.Advances last) : first.Advances last where
  id := later.id.trans earlier.id
  task := later.task.trans earlier.task
  errors := earlier.errors.trans later.errors
  frozen complete := by
    have same := earlier.frozen complete
    rw [later.frozen (same ▸ complete), same]

theorem advances_addError (record : TrackedTask) (message : String) :
    record.Advances (record.addError message) := by
  unfold addError
  split
  next => exact .refl record
  next incomplete => exact ⟨rfl, rfl, List.prefix_append _ _, fun complete => absurd complete incomplete⟩

theorem advances_finish (record : TrackedTask) : record.Advances record.finish :=
  ⟨rfl, rfl, List.prefix_rfl, fun complete => by simp [finish, ← complete]⟩

@[simp] theorem id_addError (record : TrackedTask) (message : String) :
    (record.addError message).id = record.id := (record.advances_addError message).id

@[simp] theorem id_finish (record : TrackedTask) : record.finish.id = record.id := rfl

@[simp] theorem isComplete_addError (record : TrackedTask) (message : String) :
    (record.addError message).isComplete = record.isComplete := by
  unfold addError
  split <;> rfl

end TrackedTask

namespace Registry

/-! ## Looking up -/

theorem id_of_get? {registry : Registry} {id : TaskId} {record : TrackedTask}
    (found : registry.get? id = some record) : record.id = id := by
  simpa using List.find?_some found

/-- Whether a task is registered and not complete. -/
def isOpen (registry : Registry) (id : TaskId) : Bool :=
  (registry.get? id).any (!·.isComplete)

theorem isOpen_iff {registry : Registry} {id : TaskId} :
    registry.isOpen id = true ↔ ∃ record, registry.get? id = some record ∧ record.isComplete = false := by
  unfold isOpen
  cases registry.get? id <;> simp

theorem get?_submit (registry : Registry) (task : Task) (id : TaskId) :
    (registry.submit task).get? id =
      (registry.get? id).or
        (if registry.nextId = id then some { id := registry.nextId, task } else none) := by
  simp only [submit, get?, List.find?_append, List.find?_singleton, beq_iff_eq]

theorem get?_submit_of_some {registry : Registry} {id : TaskId} {record : TrackedTask} (task : Task)
    (found : registry.get? id = some record) : (registry.submit task).get? id = some record := by
  rw [get?_submit, found, Option.some_or]

/-- What is found after a submission was there before, or is the new record. -/
theorem eq_of_get?_submit {registry : Registry} {task : Task} {id : TaskId} {record : TrackedTask}
    (found : (registry.submit task).get? id = some record) :
    registry.get? id = some record ∨ record = { id := registry.nextId, task } := by
  rw [get?_submit] at found
  cases before : registry.get? id with
  | some old => exact .inl (by rwa [before, Option.some_or] at found)
  | none =>
    rw [before, Option.none_or] at found
    split at found
    · exact .inr (Option.some.inj found).symm
    · cases found

/-- Looking up in a changed registry is changing what is found. -/
theorem get?_modify {registry : Registry} {id other : TaskId} {change : TrackedTask → TrackedTask}
    (keepsId : ∀ record, (change record).id = record.id) :
    (registry.modify id change).get? other =
      (registry.get? other).map fun record =>
        if record.id == id then change record else record := by
  -- A change keeps the id, so the search stops at the same place.
  have sameKey : ((fun record : TrackedTask => record.id == other) ∘
      fun record => if record.id == id then change record else record) = (·.id == other) := by
    funext record
    simp only [Function.comp_apply]
    split <;> simp [keepsId]
  rw [modify, get?, List.find?_map, sameKey, get?]

theorem get?_modify_self {registry : Registry} {id : TaskId} {change : TrackedTask → TrackedTask}
    (keepsId : ∀ record, (change record).id = record.id) :
    (registry.modify id change).get? id = (registry.get? id).map change := by
  rw [get?_modify keepsId]
  refine Option.map_congr fun record found => ?_
  rw [id_of_get? found, beq_self_eq_true, if_pos rfl]

theorem get?_modify_of_ne {registry : Registry} {id other : TaskId} {change : TrackedTask → TrackedTask}
    (keepsId : ∀ record, (change record).id = record.id) (different : other ≠ id) :
    (registry.modify id change).get? other = registry.get? other := by
  rw [get?_modify keepsId]
  cases found : registry.get? other with
  | none => rfl
  | some record => simp [id_of_get? found, different]

/-! ## Fresh ids -/

def ids (registry : Registry) : List TaskId := registry.records.map (·.id)

/-- The `n`th record has the `n`th id. -/
def Numbered (registry : Registry) : Prop :=
  registry.ids = (List.range registry.size).map fun n => .ofNumber (n + 1)

theorem numbered_empty : Numbered {} := rfl

@[simp] theorem ids_submit (registry : Registry) (task : Task) :
    (registry.submit task).ids = registry.ids ++ [registry.nextId] := by
  simp [submit, ids]

theorem ids_modify {registry : Registry} {id : TaskId} {change : TrackedTask → TrackedTask}
    (keepsId : ∀ record, (change record).id = record.id) :
    (registry.modify id change).ids = registry.ids := by
  simp only [ids, modify, List.map_map, List.map_inj_left, Function.comp_apply]
  intro record _
  split <;> simp [keepsId]

theorem size_eq_length_ids (registry : Registry) : registry.size = registry.ids.length := by
  simp [size, ids]

theorem Numbered.submit {registry : Registry} (numbered : registry.Numbered) (task : Task) :
    (registry.submit task).Numbered := by
  have grown : (registry.submit task).size = registry.size + 1 := by simp [size, Registry.submit]
  simp only [Numbered, ids_submit, grown, List.range_succ, List.map_append, List.map_singleton]
  rw [numbered, nextId]

theorem Numbered.modify {registry : Registry} (numbered : registry.Numbered) {id : TaskId}
    {change : TrackedTask → TrackedTask} (keepsId : ∀ record, (change record).id = record.id) :
    (registry.modify id change).Numbered := by
  unfold Numbered
  rw [size_eq_length_ids, ids_modify keepsId, ← size_eq_length_ids]
  exact numbered

theorem Numbered.nodup_ids {registry : Registry} (numbered : registry.Numbered) :
    registry.ids.Nodup := by
  rw [numbered]
  refine List.Nodup.map (fun m n same => ?_) List.nodup_range
  exact Nat.succ_inj.mp (TaskId.ofNumber_injective same)

/-- The id that the next task gets is not taken. -/
theorem Numbered.get?_nextId {registry : Registry} (numbered : registry.Numbered) :
    registry.get? registry.nextId = none := by
  refine List.find?_eq_none.mpr fun record member taken => ?_
  have listed : record.id ∈ registry.ids := List.mem_map_of_mem member
  -- The ids that are taken end with the number of tasks, and this one is the next.
  rw [numbered, List.mem_map] at listed
  obtain ⟨n, inRange, same⟩ := listed
  have number : n + 1 = registry.size + 1 :=
    TaskId.ofNumber_injective (same.trans (by simpa [nextId] using taken))
  have := List.mem_range.mp inRange
  omega

theorem Numbered.get?_of_mem {registry : Registry} (numbered : registry.Numbered)
    {record : TrackedTask} (member : record ∈ registry.records) :
    registry.get? record.id = some record := by
  cases found : registry.get? record.id with
  | none => exact absurd (List.find?_eq_none.mp found record member) (by simp)
  | some other =>
    have same := List.inj_on_of_nodup_map numbered.nodup_ids (List.mem_of_find?_eq_some found) member
      (id_of_get? found)
    rw [same]

end Registry

end PlanService
