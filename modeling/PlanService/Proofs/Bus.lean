import PlanService.Bus

/-! # Reading the bus one entry at a time

`Subscription.receive` passes over any number of entries at once.  `readOne` takes one step of
it, so that what others publish can come in between; receiving is to read until there is
something to tell (`receive_eq_readOne`).  What there is to read for a task is `announced`,
whatever has been dropped of it since.  A bus at a later time is one that it `Grows` to.
-/

namespace PlanService

/-- What was announced for a task from a position of the log on. -/
def Bus.announced (bus : Bus) (position : Nat) (id : TaskId) : List Completion :=
  (bus.log.toList.drop position).filter (·.id == id)

namespace Bus

variable {bus : Bus} {position : Nat}

theorem announced_publish (inLog : position ≤ bus.log.size) (completion : Completion) (id : TaskId) :
    (bus.publish completion).announced position id =
      bus.announced position id ++ if completion.id = id then [completion] else [] := by
  have split : (bus.log.toList ++ [completion]).drop position =
      bus.log.toList.drop position ++ [completion] :=
    List.drop_append_of_le_length (by simpa using inLog)
  simp only [announced, publish, Array.toList_push, split, List.filter_append]
  by_cases about : completion.id = id <;> simp [about]

theorem announced_of_getElem? {completion : Completion} (entry : bus.log[position]? = some completion)
    (id : TaskId) :
    bus.announced position id =
      (if completion.id = id then [completion] else []) ++ bus.announced (position + 1) id := by
  have inLog : bus.log.toList[position]? = some completion := by simpa using entry
  rw [announced, List.drop_eq_getElem?_toList_append, inLog, Option.toList_some, List.filter_append,
    announced]
  by_cases about : completion.id = id <;> simp [about]

theorem announced_of_le {later : Nat} {id : TaskId} (le : position ≤ later)
    (nothing : bus.announced position id = []) : bus.announced later id = [] := by
  have suffix : bus.announced later id <:+ bus.announced position id :=
    (List.drop_suffix_drop_left bus.log.toList le).filter _
  rw [nothing] at suffix
  exact List.suffix_nil.mp suffix

/-- One bus can be another at a later time. -/
structure Grows (bus later : Bus) : Prop where
  capacity : later.capacity = bus.capacity
  closed : later.closed = bus.closed
  log : bus.log.toList <+: later.log.toList

namespace Grows

variable {bus later last : Bus}

theorem refl (bus : Bus) : bus.Grows bus := ⟨rfl, rfl, List.prefix_rfl⟩

theorem trans (first : bus.Grows later) (second : later.Grows last) : bus.Grows last :=
  ⟨second.capacity.trans first.capacity, second.closed.trans first.closed, first.log.trans second.log⟩

theorem publish (bus : Bus) (completion : Completion) : bus.Grows (bus.publish completion) :=
  ⟨rfl, rfl, by simp [Bus.publish]⟩

theorem size_le (grows : bus.Grows later) : bus.log.size ≤ later.log.size := by
  simpa using grows.log.length_le

theorem oldest_le (grows : bus.Grows later) : bus.oldest ≤ later.oldest := by
  have size := grows.size_le
  rw [oldest, oldest, grows.capacity]
  omega

end Grows

end Bus

namespace Subscription

/-- Reads one entry; there is nothing to tell if it is about another task. -/
def readOne (bus : Bus) (sub : Subscription) : Option Received × Subscription :=
  if sub.cursor < bus.oldest then
    (some (.lagged (bus.oldest - sub.cursor)), { sub with cursor := bus.oldest })
  else
    match bus.log[sub.cursor]? with
    | none => (some (if bus.closed then .closed else .pending), sub)
    | some completion =>
      (if completion.id = sub.id then some (.completion completion) else none,
        { sub with cursor := sub.cursor + 1 })

theorem readOne_of_lagged {bus : Bus} {sub : Subscription} (lagged : sub.cursor < bus.oldest) :
    sub.readOne bus = (some (.lagged (bus.oldest - sub.cursor)), { sub with cursor := bus.oldest }) := by
  rw [readOne, if_pos lagged]

theorem readOne_of_entry {bus : Bus} {sub : Subscription} (kept : ¬ sub.cursor < bus.oldest)
    {completion : Completion} (entry : bus.log[sub.cursor]? = some completion) :
    sub.readOne bus =
      (if completion.id = sub.id then some (.completion completion) else none,
        { sub with cursor := sub.cursor + 1 }) := by
  rw [readOne, if_neg kept, entry]

theorem readOne_at_end {bus : Bus} {sub : Subscription} (kept : ¬ sub.cursor < bus.oldest)
    (atEnd : bus.log[sub.cursor]? = none) :
    sub.readOne bus = (some (if bus.closed then .closed else .pending), sub) := by
  rw [readOne, if_neg kept, atEnd]

/-- To receive is to read one entry after another until there is something to tell. -/
theorem receive_eq_readOne {bus : Bus} {sub : Subscription} (inLog : sub.cursor ≤ bus.log.size) :
    sub.receive bus =
      match sub.readOne bus with
      | (some received, sub) => (received, sub)
      | (none, sub) => sub.receive bus := by
  by_cases lagged : sub.cursor < bus.oldest
  · rw [readOne_of_lagged lagged, receive, if_pos lagged]
  · cases entry : bus.log[sub.cursor]? with
    | none =>
      have atEnd : bus.log.size ≤ sub.cursor := by simpa using entry
      have unread : bus.log.toList.drop sub.cursor = [] := List.drop_of_length_le (by simpa using atEnd)
      have same : bus.log.size = sub.cursor := Nat.le_antisymm atEnd inLog
      rw [readOne_at_end lagged entry, receive, if_neg lagged, unread]
      simp [same]
    | some completion =>
      have inside : sub.cursor < bus.log.size := (Array.getElem?_eq_some_iff.mp entry).1
      have unread : bus.log.toList.drop sub.cursor = completion :: bus.log.toList.drop (sub.cursor + 1) := by
        have inLog : bus.log.toList[sub.cursor]? = some completion := by simpa using entry
        rw [List.drop_eq_getElem?_toList_append, inLog]
        rfl
      rw [readOne_of_entry lagged entry, receive, if_neg lagged, unread]
      by_cases own : completion.id = sub.id
      · -- The cursor is kept as the distance from the end of the log.
        have left : bus.log.size - (bus.log.size - (sub.cursor + 1)) = sub.cursor + 1 := by omega
        simp [own, left]
      · have kept : ¬ sub.cursor + 1 < bus.oldest := by omega
        simp [own, receive, kept]

theorem receive_ne_lagged {bus : Bus} {sub : Subscription} (kept : ¬ sub.cursor < bus.oldest)
    (skipped : Nat) (later : Subscription) : sub.receive bus ≠ (.lagged skipped, later) := by
  rw [receive, if_neg kept]
  dsimp only
  split
  · nofun
  · cases bus.closed <;> nofun

/-- What receiving tells: that entries were lost, or the first completion that was announced
for the task, or nothing. -/
theorem receive_eq_announced {bus : Bus} {sub : Subscription} (kept : ¬ sub.cursor < bus.oldest) :
    (sub.receive bus).1 =
      match bus.announced sub.cursor sub.id with
      | completion :: _ => .completion completion
      | [] => if bus.closed then .closed else .pending := by
  rw [receive, if_neg kept, Bus.announced]
  dsimp only
  -- The search for the task's first entry ends where the filtered log begins.
  induction bus.log.toList.drop sub.cursor with
  | nil => rfl
  | cons completion later ih =>
    by_cases own : completion.id = sub.id
    · simp [own]
    · simpa [own] using ih

end Subscription

end PlanService
