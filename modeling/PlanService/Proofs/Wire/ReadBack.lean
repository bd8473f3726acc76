import PlanService.Proofs.Json.ReadBack
import PlanService.Wire.Bodies

/-! # Bodies are read back

Whatever a value is that crosses the wire, its reader makes the same value of the text of its
JSON form.  A record is written with its fields in order and read field by field
(`fieldMembers_next`); what remains for each type is that its fields are read back.
-/

namespace PlanService

/-! ## Fields -/

namespace Json.Decoder

variable {α σ : Type} {decoder : Decoder α} {depth : Nat} {v : Draft}

theorem needed_read {a : α} (read : decoder depth v = .ok a) (name : String) (put : α → σ → σ) (s : σ) :
    (Field.needed name decoder put).read depth v s = .ok (put a s) := by
  have mapped : (put · s) <$> decoder depth v = .ok (put a s) := by
    rw [read]
    rfl
  exact mapped

theorem defaulted_read {a : α} (read : decoder depth v = .ok a) (name : String) (put : α → σ → σ) (s : σ) :
    (Field.defaulted name decoder put).read depth v s = .ok (put a s) :=
  needed_read read name put s

theorem needed_error {fault : Fault} (unread : decoder depth v = .error fault) (name : String)
    (put : α → σ → σ) (s : σ) : (Field.needed name decoder put).read depth v s = .error fault := by
  have mapped : (put · s) <$> decoder depth v = .error fault := by
    rw [unread]
    rfl
  exact mapped

theorem defaulted_error {fault : Fault} (unread : decoder depth v = .error fault) (name : String)
    (put : α → σ → σ) (s : σ) : (Field.defaulted name decoder put).read depth v s = .error fault :=
  needed_error unread name put s

/-- The members give the fields in order, from `s` up to `t`; fields that may be left out may
be left out. -/
inductive Gives (depth : Nat) : List (Field σ) → List (String × Json) → σ → σ → Prop
  | nil {s : σ} : Gives depth [] [] s s
  | given {field : Field σ} {fields : List (Field σ)} {v : Json} {members : List (String × Json)} {s t u : σ}
      (read : field.read depth v.draft s = .ok t) (rest : Gives depth fields members t u) :
      Gives depth (field :: fields) ((field.name, v) :: members) s u
  | leftOut {field : Field σ} {fields : List (Field σ)} {members : List (String × Json)} {s t : σ}
      (optional : field.required = false) (rest : Gives depth fields members s t) :
      Gives depth (field :: fields) members s t

/-- What a member does that comes next: it is read by the field of its name. -/
theorem fieldMembers_next {before after : List (Field σ)} {field : Field σ} {seen : List String}
    (distinct : ((before ++ field :: after).map (·.name)).Nodup)
    (done : ∀ key ∈ seen, key ∈ before.map (·.name)) (v : Json) (members : List (String × Json)) (s : σ) :
    fieldMembers (before ++ field :: after) depth (draftMembers ((field.name, v) :: members)) seen s =
      (field.read depth v.draft s).bind
        (fieldMembers (before ++ field :: after) depth (draftMembers members) (field.name :: seen)) := by
  have new : field.name ∉ before.map (·.name) := by
    intro member
    rw [List.map_append, List.map_cons] at distinct
    exact (List.nodup_append.mp distinct).2.2 _ member _ List.mem_cons_self rfl
  have named : (before ++ field :: after).find? (·.name == field.name) = some field := by
    have passed : before.find? (·.name == field.name) = none := by
      refine List.find?_eq_none.mpr fun other member same => new ?_
      exact beq_iff_eq.mp same ▸ List.mem_map_of_mem member
    rw [List.find?_append, passed, Option.none_or, List.find?_cons, beq_self_eq_true]
  have unseen : seen.contains field.name = false := by
    simpa using fun member => new (done _ member)
  rw [draftMembers, fieldMembers, named]
  simp only [unseen, Bool.false_eq_true, if_false]
  rfl

theorem done_next {before : List (Field σ)} {field : Field σ} {seen : List String}
    (done : ∀ key ∈ seen, key ∈ before.map (·.name)) :
    ∀ key ∈ field.name :: seen, key ∈ (before ++ [field]).map (·.name) := by
  intro key member
  rw [List.map_append]
  rcases List.mem_cons.mp member with rfl | member
  · exact List.mem_append_right _ List.mem_cons_self
  · exact List.mem_append_left _ (done key member)

/-- The induction is on what is still to come; `before` are the fields that are done with, and
those of them that a record needs have been seen. -/
theorem fieldMembers_of_gives {before after : List (Field σ)} {members : List (String × Json)}
    {seen : List String} {s t : σ} (gives : Gives depth after members s t)
    (distinct : ((before ++ after).map (·.name)).Nodup)
    (done : ∀ key ∈ seen, key ∈ before.map (·.name))
    (complete : ∀ field ∈ before, field.required = true → field.name ∈ seen) :
    fieldMembers (before ++ after) depth (draftMembers members) seen s = .ok t := by
  induction gives generalizing before seen with
  | nil =>
    have nothing : before.find? (fun field => field.required && !seen.contains field.name) = none := by
      refine List.find?_eq_none.mpr fun field member absent => ?_
      simp only [Bool.and_eq_true, Bool.not_eq_true', List.contains_eq_mem, decide_eq_false_iff_not] at absent
      exact absent.2 (complete field member absent.1)
    rw [List.append_nil, draftMembers, fieldMembers, nothing]
  | @given field fields v members s t u read rest ih =>
    rw [fieldMembers_next distinct done, read]
    rw [List.append_cons] at distinct ⊢
    refine ih distinct (done_next done) fun other member required => ?_
    rcases List.mem_append.mp member with member | member
    · exact List.mem_cons_of_mem _ (complete other member required)
    · rw [List.mem_singleton.mp member]
      exact List.mem_cons_self
  | @leftOut field fields members s t optional rest ih =>
    rw [List.append_cons] at distinct ⊢
    refine ih distinct (fun key member => ?_) fun other member required => ?_
    · rw [List.map_append]
      exact List.mem_append_left _ (done key member)
    · rcases List.mem_append.mp member with member | member
      · exact complete other member required
      · rw [List.mem_singleton.mp member, optional] at required
        cases required

/-- A record is read back from members that give its fields in order. -/
theorem record_of_gives {fields : List (Field σ)} {members : List (String × Json)} {blank a : σ}
    (distinct : (fields.map (·.name)).Nodup) (gives : Gives depth fields members blank a) :
    record fields blank (depth + 1) (Json.object members).draft = .ok a := by
  have fromNone : (([] ++ fields : List (Field σ)).map (·.name)).Nodup := distinct
  exact fieldMembers_of_gives gives fromNone nofun nofun

/-- The members give the fields in order up to one that cannot be read. -/
inductive Fails (depth : Nat) : List (Field σ) → List (String × Json) → σ → Fault → Prop
  | here {field : Field σ} {fields : List (Field σ)} {v : Json} {members : List (String × Json)} {s : σ}
      {fault : Fault} (unread : field.read depth v.draft s = .error fault) :
      Fails depth (field :: fields) ((field.name, v) :: members) s fault
  | later {field : Field σ} {fields : List (Field σ)} {v : Json} {members : List (String × Json)} {s t : σ}
      {fault : Fault} (read : field.read depth v.draft s = .ok t) (rest : Fails depth fields members t fault) :
      Fails depth (field :: fields) ((field.name, v) :: members) s fault

theorem fieldMembers_of_fails {before after : List (Field σ)} {members : List (String × Json)}
    {seen : List String} {s : σ} {fault : Fault} (fails : Fails depth after members s fault)
    (distinct : ((before ++ after).map (·.name)).Nodup)
    (done : ∀ key ∈ seen, key ∈ before.map (·.name)) :
    fieldMembers (before ++ after) depth (draftMembers members) seen s = .error fault := by
  induction fails generalizing before seen with
  | here unread =>
    rw [fieldMembers_next distinct done, unread]
    rfl
  | later read _ ih =>
    rw [fieldMembers_next distinct done, read]
    rw [List.append_cons] at distinct ⊢
    exact ih distinct (done_next done)

/-- A record whose fields cannot all be read is refused with the first fault. -/
theorem record_of_fails {fields : List (Field σ)} {members : List (String × Json)} {blank : σ} {fault : Fault}
    (distinct : (fields.map (·.name)).Nodup) (fails : Fails depth fields members blank fault) :
    record fields blank (depth + 1) (Json.object members).draft = .error fault := by
  have fromNone : (([] ++ fields : List (Field σ)).map (·.name)).Nodup := distinct
  exact fieldMembers_of_fails fails fromNone nofun

theorem items_draft {toJson : α → Json} {items : List α}
    (each : ∀ a ∈ items, decoder depth (toJson a).draft = .ok a) :
    Decoder.items decoder depth (draftItems (items.map toJson)) = .ok items := by
  induction items with
  | nil => rfl
  | cons a rest ih =>
    rw [List.map_cons, draftItems, Decoder.items, each a List.mem_cons_self,
      ih fun b member => each b (List.mem_cons_of_mem _ member)]
    rfl

theorem strings_draft (texts : List String) :
    Decoder.list Decoder.string (depth + 1) (Json.ofStrings texts).draft = .ok texts :=
  items_draft fun _ _ => rfl

end Json.Decoder

namespace Json

theorem integral_ofStrings (texts : List String) : (Json.ofStrings texts).Integral := by
  refine .array fun v member => ?_
  obtain ⟨text, -, rfl⟩ := List.mem_map.mp member
  exact .string text

end Json

open Json (Decoder)
open Json.Decoder (needed_read defaulted_read record_of_gives strings_draft)

/-! ## Tasks and records -/

/-- A task that every reader of records can read: its parameters are integers where they are
numbers, they come in the order of their names, and none nests more than 124 deep. -/
def Task.Portable (task : Task) : Prop := (Json.object task.params).Readable 125

theorem Task.integral_toJson {task : Task} (portable : task.Portable) : task.toJson.Integral := by
  refine .object fun m member => ?_
  rcases List.mem_cons.mp member with rfl | member
  · exact .string task.name
  · cases List.mem_singleton.mp member
    exact portable.integral

theorem Task.decoder_draft {task : Task} {depth : Nat} (readable : (Json.object task.params).Readable depth) :
    Task.decoder (depth + 1) task.toJson.draft = .ok task :=
  record_of_gives (by decide) <|
    .given (needed_read rfl _ _ _) <| .given (defaulted_read (Json.members_draft readable) _ _ _) .nil

theorem TrackedTask.integral_toJson {record : TrackedTask} (portable : record.task.Portable) :
    record.toJson.Integral := by
  refine .object ?_
  simp only [List.forall_mem_cons]
  exact ⟨.string _, Task.integral_toJson portable, .bool _, Json.integral_ofStrings _, nofun⟩

theorem TrackedTask.decoder_draft {record : TrackedTask} (portable : record.task.Portable) :
    TrackedTask.decoder 127 record.toJson.draft = .ok record :=
  record_of_gives (by decide) <|
    .given (needed_read rfl _ _ _) <| .given (needed_read (Task.decoder_draft portable) _ _ _) <|
    .given (needed_read rfl _ _ _) <| .given (needed_read (strings_draft record.errors) _ _ _) .nil

/-! ## Bodies of requests and answers -/

theorem Submitted.integral_toJson (body : Submitted) : body.toJson.Integral := by
  refine .object ?_
  simp only [List.forall_mem_cons]
  exact ⟨.string _, nofun⟩

theorem Submitted.decoder_draft (body : Submitted) : Submitted.decoder 127 body.toJson.draft = .ok body :=
  record_of_gives (by decide) <| .given (needed_read rfl _ _ _) .nil

theorem ActiveTask.integral_toJson (body : ActiveTask) : body.toJson.Integral := by
  obtain ⟨id⟩ := body
  refine .object ?_
  simp only [List.forall_mem_cons]
  cases id with
  | none => exact ⟨.null, nofun⟩
  | some id => exact ⟨.string _, nofun⟩

theorem ActiveTask.decoder_draft (body : ActiveTask) : ActiveTask.decoder 127 body.toJson.draft = .ok body := by
  obtain ⟨_ | id⟩ := body
  · exact record_of_gives (by decide) <| .given (defaulted_read rfl _ _ _) .nil
  · exact record_of_gives (by decide) <| .given (defaulted_read rfl _ _ _) .nil

theorem WorkerState.decoder_draft (state : WorkerState) (depth : Nat) :
    WorkerState.decoder depth state.toJson.draft = .ok state := by
  cases state <;> rfl

theorem StateRequest.integral_toJson (body : StateRequest) : body.toJson.Integral := by
  obtain ⟨target, defer⟩ := body
  refine .object ?_
  cases defer with
  | none =>
    simp only [List.forall_mem_cons]
    exact ⟨.string _, nofun⟩
  | some defer =>
    simp only [List.forall_mem_cons]
    exact ⟨.string _, .bool defer, nofun⟩

theorem StateRequest.decoder_draft (body : StateRequest) :
    StateRequest.decoder 127 body.toJson.draft = .ok body := by
  obtain ⟨target, defer⟩ := body
  have state := WorkerState.decoder_draft target 126
  cases defer with
  | none => exact record_of_gives (by decide) <| .given (needed_read state _ _ _) <| .leftOut rfl .nil
  | some defer =>
    exact record_of_gives (by decide) <|
      .given (needed_read state _ _ _) <| .given (defaulted_read rfl _ _ _) .nil

end PlanService
