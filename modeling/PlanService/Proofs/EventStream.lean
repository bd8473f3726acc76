import PlanService.EventStream
import PlanService.Proofs.Text.Split

/-! # What is sent on an event stream is read

The framing works on lines.  A line without an end in it is read as it was written
(`lines_line`), so an event is read as it was sent if its name has no end of a line in it and its
data no carriage return (`Sendable`): line feeds in the data cut it into several fields, which are
joined again.  Comments before an event change nothing, and as long as a character of an event is
missing there is none (`events_charsAfter`, `events_take_charsAfter`).
-/

namespace PlanService

namespace EventStream

/-! ## Lines -/

/-- No end of a line is in it. -/
def Unbroken (cs : List Char) : Prop := ∀ c ∈ cs, c ≠ '\n' ∧ c ≠ '\r'

instance : DecidablePred Unbroken := fun cs =>
  decidable_of_iff (cs.all fun c => c ≠ '\n' ∧ c ≠ '\r') (by simp [Unbroken])

/-- A line that goes on with this text. -/
def extend (c : Char) : List (List Char) → List (List Char)
  | [] => []
  | line :: more => (c :: line) :: more

theorem lines_cons {c : Char} (noFeed : c ≠ '\n') (noReturn : c ≠ '\r') (rest : List Char) :
    lines (c :: rest) = extend c (lines rest) := by
  rw [lines]
  · rfl
  · exact fun same _ => noReturn same
  · exact fun _ same _ => noReturn same
  · exact fun same => noReturn same
  · exact fun same => noFeed same

theorem lines_return {c : Char} (noFeed : c ≠ '\n') (rest : List Char) :
    lines ('\r' :: c :: rest) = [] :: lines (c :: rest) := by
  rw [lines]
  · exact fun same => nomatch same
  · exact fun _ same => noFeed (List.cons.inj same).1

/-- A line is read up to its end. -/
theorem lines_line {line : List Char} (unbroken : Unbroken line) (rest : List Char) :
    lines (line ++ '\n' :: rest) = line :: lines rest := by
  induction line with
  | nil => rfl
  | cons c line ih =>
    obtain ⟨noFeed, noReturn⟩ := unbroken c List.mem_cons_self
    rw [List.cons_append, lines_cons noFeed noReturn, ih fun d member => unbroken d (List.mem_cons_of_mem _ member)]
    rfl

theorem extend_prefix {c : Char} {some all : List (List Char)} (part : some <+: all) :
    extend c some <+: extend c all := by
  cases some with
  | nil => exact List.nil_prefix
  | cons line more =>
    cases all with
    | nil => exact absurd (List.prefix_nil.mp part) (List.cons_ne_nil _ _)
    | cons other others =>
      exact List.cons_prefix_cons.mpr ⟨congrArg _ (List.cons_prefix_cons.mp part).1, (List.cons_prefix_cons.mp part).2⟩

/-- Lines that have come do not change when more comes. -/
theorem lines_prefix (part rest : List Char) : lines part <+: lines (part ++ rest) := by
  fun_induction lines part with
  | case1 => exact List.nil_prefix
  | case2 => exact List.nil_prefix
  | case3 r ih => exact List.cons_prefix_cons.mpr ⟨rfl, ih⟩
  | case4 r notLast noFeed ih =>
    cases r with
    | nil => exact absurd rfl notLast
    | cons c r =>
      have other : c ≠ '\n' := fun same => noFeed r (by rw [same])
      rw [List.cons_append, List.cons_append, lines_return other]
      exact List.cons_prefix_cons.mpr ⟨rfl, ih⟩
  | case5 r ih => exact List.cons_prefix_cons.mpr ⟨rfl, ih⟩
  | case6 => exact List.nil_prefix
  | case7 c r _ _ noReturn noFeed line more read ih =>
    rw [List.cons_append, lines_cons noFeed noReturn]
    rw [read] at ih
    exact extend_prefix ih

/-! ## Events that have come -/

theorem assemble_prefix (pending : Pending) (part rest : List Line) :
    assemble pending part <+: assemble pending (part ++ rest) := by
  induction part generalizing pending with
  | nil => exact List.nil_prefix
  | cons line part ih =>
    cases line with
    | empty => exact List.prefix_append_right_inj _ |>.mpr (ih {})
    | comment => exact ih pending
    | field name value =>
      rw [List.cons_append, assemble, assemble]
      split
      · exact ih _
      · split
        · exact ih _
        · exact ih pending

/-- The events of a text without a mark at its start. -/
def heard (cs : List Char) : List ServerEvent := assemble {} ((lines cs).map Line.ofChars)

theorem heard_prefix (part rest : List Char) : heard part <+: heard (part ++ rest) := by
  obtain ⟨more, same⟩ := lines_prefix part rest
  rw [heard, heard, ← same, List.map_append]
  exact assemble_prefix {} _ _

theorem events_ofList {c : Char} (noMark : c ≠ '\uFEFF') (rest : List Char) :
    events (String.ofList (c :: rest)) = heard (c :: rest) := by
  rw [events, String.toList_ofList]
  split
  next same => exact absurd (List.cons.inj same).1 noMark
  next => rfl

/-- An event that has come does not change when more comes. -/
theorem events_prefix (part rest : List Char) :
    events (String.ofList part) <+: events (String.ofList (part ++ rest)) := by
  cases part with
  | nil => exact List.nil_prefix
  | cons c part =>
    by_cases mark : c = '\uFEFF'
    · simp only [events, String.toList_ofList, mark, List.cons_append]
      exact heard_prefix part rest
    · rw [List.cons_append, events_ofList mark, events_ofList mark]
      exact heard_prefix (c :: part) rest

end EventStream

/-! ## Comments -/

/-- What is sent while there is nothing to tell. -/
def comments (count : Nat) : List Char := (List.replicate count keepAliveText.toList).flatten

namespace EventStream

theorem heard_comments (count : Nat) (rest : List Char) : heard (comments count ++ rest) = heard rest := by
  induction count with
  | zero => rfl
  | succ count ih =>
    rw [comments, List.replicate_succ, List.flatten_cons, List.append_assoc]
    exact ih

end EventStream

/-! ## Events -/

namespace ServerEvent

open EventStream

/-- What the framing can carry.  A line feed in the data is no harm. -/
structure Sendable (event : ServerEvent) : Prop where
  named : event.name ≠ ""
  name_unbroken : Unbroken event.name.toList
  no_return : '\r' ∉ event.data.toList

/-- The event without the empty line at its end. -/
def fields (event : ServerEvent) : List Char :=
  line "event" event.name.toList ++ (Text.split '\n' event.data.toList).flatMap (line "data")

theorem chars_eq (event : ServerEvent) : event.chars = event.fields ++ ['\n'] := rfl

theorem lines_field {value : List Char} (field : String) (plain : Unbroken field.toList)
    (unbroken : Unbroken value) (rest : List Char) :
    lines (line field value ++ rest) = (field.toList ++ ':' :: ' ' :: value) :: lines rest := by
  have whole : Unbroken (field.toList ++ ':' :: ' ' :: value) := by
    intro c member
    simp only [List.mem_append, List.mem_cons] at member
    rcases member with inName | rfl | rfl | inValue
    · exact plain c inName
    · decide
    · decide
    · exact unbroken c inValue
  have read := lines_line whole rest
  simpa [line] using read

variable {event : ServerEvent}

theorem lines_fields (sendable : event.Sendable) (rest : List Char) :
    (lines (event.fields ++ rest)).map Line.ofChars =
      .field "event".toList event.name.toList ::
        ((Text.split '\n' event.data.toList).map (.field "data".toList) ++ (lines rest).map Line.ofChars) := by
  have pieces {ps : List (List Char)} (each : ∀ piece ∈ ps, Unbroken piece) :
      (lines (ps.flatMap (line "data") ++ rest)).map Line.ofChars =
        ps.map (.field "data".toList) ++ (lines rest).map Line.ofChars := by
    induction ps with
    | nil => rfl
    | cons piece ps ih =>
      rw [List.flatMap_cons, List.append_assoc,
        lines_field "data" (by decide) (each piece List.mem_cons_self), List.map_cons,
        ih fun other member => each other (List.mem_cons_of_mem _ member)]
      rfl
  have unbroken (piece : List Char) (member : piece ∈ Text.split '\n' event.data.toList) : Unbroken piece := by
    intro c inPiece
    obtain ⟨inData, noFeed⟩ := Text.mem_of_mem_split member inPiece
    exact ⟨noFeed, fun same => sendable.no_return (same ▸ inData)⟩
  rw [fields, List.append_assoc, lines_field "event" (by decide) sendable.name_unbroken,
    List.map_cons, pieces unbroken]
  rfl

theorem assemble_data (pending : Pending) (pieces : List (List Char)) (rest : List Line) :
    assemble pending (pieces.map (.field "data".toList) ++ rest) =
      assemble { pending with data := pending.data ++ pieces } rest := by
  induction pieces generalizing pending with
  | nil => simp
  | cons piece pieces ih =>
    rw [List.map_cons, List.cons_append, assemble, if_neg (by decide), if_pos rfl, ih]
    simp

theorem heard_fields (sendable : event.Sendable) (rest : List Char) :
    heard (event.fields ++ rest) =
      assemble ⟨event.name.toList, Text.split '\n' event.data.toList⟩ ((lines rest).map Line.ofChars) := by
  rw [heard, lines_fields sendable, assemble, if_pos rfl, assemble_data]
  rfl

/-- An event that has been sent is read as it is. -/
theorem heard_chars (sendable : event.Sendable) (rest : List Char) :
    heard (event.chars ++ rest) = event :: heard rest := by
  have named : event.name.toList.isEmpty = false := by
    rw [List.isEmpty_eq_false_iff]
    exact fun none => sendable.named (String.toList_eq_nil_iff.mp none)
  have nonempty : (Text.split '\n' event.data.toList).isEmpty = false := by
    rw [List.isEmpty_eq_false_iff]
    exact Text.split_ne_nil _ _
  have whole : Pending.event? ⟨event.name.toList, Text.split '\n' event.data.toList⟩ = some event := by
    simp only [Pending.event?, named, nonempty, Text.join_split, String.ofList_toList]
    rfl
  rw [chars_eq, List.append_assoc, heard_fields sendable]
  show (Pending.event? _).toList ++ heard rest = _
  rw [whole]
  rfl

/-! ## Streams of one event -/

/-- What has been sent when the event is out, after so many comments. -/
def charsAfter (count : Nat) (event : ServerEvent) : List Char := comments count ++ event.chars

theorem events_comments_append (count : Nat) (event : ServerEvent) (rest : List Char) :
    events (String.ofList (comments count ++ (event.fields ++ rest))) = heard (event.fields ++ rest) := by
  rw [← heard_comments count]
  cases count with
  | zero => exact events_ofList (by decide) _
  | succ count => exact events_ofList (by decide) _

theorem events_charsAfter (sendable : event.Sendable) (count : Nat) :
    events (String.ofList (charsAfter count event)) = [event] := by
  rw [charsAfter, chars_eq, events_comments_append, ← chars_eq]
  simpa [heard, lines, assemble] using heard_chars sendable []

/-- There is no event as long as a character of it is missing. -/
theorem events_take_charsAfter (sendable : event.Sendable) {count k : Nat}
    (cut : k < (charsAfter count event).length) : events (String.ofList ((charsAfter count event).take k)) = [] := by
  have fieldsOnly : events (String.ofList (comments count ++ event.fields)) = [] := by
    have read := events_comments_append count event []
    rwa [List.append_nil, ← List.append_nil event.fields, heard_fields sendable, List.append_nil] at read
  have short : k ≤ (comments count ++ event.fields).length := by
    rw [charsAfter, chars_eq, ← List.append_assoc, List.length_append, List.length_singleton] at cut
    exact Nat.le_of_lt_succ cut
  have part := events_prefix ((comments count ++ event.fields).take k) ((comments count ++ event.fields).drop k)
  rw [List.take_append_drop, fieldsOnly] at part
  rw [charsAfter, chars_eq, ← List.append_assoc, List.take_append_of_le_length short]
  exact List.prefix_nil.mp part

end ServerEvent

end PlanService
