import PlanService.Client.Network
import PlanService.Http.Exchange
import PlanService.Proofs.EventStream
import PlanService.Proofs.Json.OneLine
import PlanService.Proofs.Text.Utf8
import PlanService.Proofs.Wire.RoundTrip

/-! # A completion survives its stream

The texts in a completion are the engine's and the submitter's, so they may hold anything: ends of
lines, empty lines, what looks like a field or like another event.  None of it reaches the framing,
because a completion is written on one line (`Completion.sendable_event`).  What a stream sends is
comments and then its event (`CompletionStream.sendAll_told`), and whoever watches it hears nothing
until the last byte of the event has come, and then the completion itself.
-/

namespace PlanService

theorem ServerEvent.sendable_of_freeOfControls {event : ServerEvent} (named : event.name ≠ "")
    (name : FreeOfControls event.name.toList) (data : FreeOfControls event.data.toList) : event.Sendable where
  named
  name_unbroken c member := by
    have visible := name c member
    constructor <;> rintro rfl <;> exact absurd visible (by decide)
  no_return member := absurd (data '\r' member) (by decide)

/-- A completion is one line, whatever its texts are. -/
theorem Completion.sendable_event (completion : Completion) : completion.event.Sendable := by
  have name : FreeOfControls "completion".toList := by decide
  have data : FreeOfControls completion.event.data.toList := by
    rw [event, Json.compact, String.toList_ofList]
    exact completion.toJson.freeOfControls_chars
  exact ServerEvent.sendable_of_freeOfControls (show "completion" ≠ "" by decide) name data

theorem Completion.decode_event (completion : Completion) :
    Json.decode Completion.decoder completion.event.data = .ok completion :=
  (Json.decode_compact Completion.decoder completion.integral_toJson).trans (completion.decoder_draft 125)

/-! ## What a stream sends -/

namespace CompletionStream

variable {σ : Type}

/-- All that a stream sends to a connection that is looked after at these times, with the worker as
it is then. -/
def sendAll (stream : CompletionStream) : List (Worker σ × Millis) → List Char × CompletionStream
  | [] => ([], stream)
  | (worker, now) :: later =>
    let (text, stream) := stream.read worker now
    let (texts, stream) := stream.sendAll later
    (text.toList ++ texts, stream)

theorem sendAll_ended {stream : CompletionStream} (ended : stream.ended = true)
    (times : List (Worker σ × Millis)) : stream.sendAll times = ([], stream) := by
  induction times with
  | nil => rfl
  | cons time times ih =>
    rw [sendAll, read, if_pos ended]
    simp only [ih]
    rfl

/-- A stream sends comments, and at its end the event it was opened for. -/
theorem sendAll_told (stream : CompletionStream) (running : stream.ended = false)
    (times : List (Worker σ × Millis)) :
    ∃ count, (stream.sendAll times).1 = comments count ∧ (stream.sendAll times).2.ended = false ∨
      ∃ event : ServerEvent, (stream.sendAll times).1 = event.charsAfter count ∧
        (stream.sendAll times).2.ended = true := by
  induction times generalizing stream with
  | nil => exact ⟨0, .inl ⟨rfl, running⟩⟩
  | cons time times ih =>
    obtain ⟨worker, now⟩ := time
    rw [sendAll, read, if_neg (by rw [running]; decide)]
    obtain ⟨told, subscription⟩ := stream.poll worker
    cases told with
    | some event =>
      refine ⟨0, .inr ⟨event, ?_, ?_⟩⟩
      · simp only [sendAll_ended, List.append_nil, ServerEvent.text, String.toList_ofList]
        rfl
      · simp only [sendAll_ended]
    | none =>
      simp only
      split
      next =>
        obtain ⟨count, quiet | ⟨event, sent, ended⟩⟩ :=
          ih { stream with subscription, keepAlive := now + silence } running
        · exact ⟨count + 1, .inl ⟨congrArg (keepAliveText.toList ++ ·) quiet.1, quiet.2⟩⟩
        · refine ⟨count + 1, .inr ⟨event, ?_, ended⟩⟩
          simp only [sent, ServerEvent.charsAfter, comments, List.replicate_succ, List.flatten_cons,
            List.append_assoc]
      next => exact ih { stream with subscription } running

end CompletionStream

/-! ## What a watcher hears -/

namespace Watcher

theorem next_of_completion (completion : Completion) (ended : Bool) :
    next { unread := [completion.event], ended } = (some (.ok completion), { ended, closed := true }) := by
  rw [next]
  simp only [completion.decode_event]
  rfl

theorem next_of_quiet : next {} = (none, {}) := rfl

end Watcher

/-- Whatever its texts are and however many comments come before it: as long as a byte of the event is
missing nothing is heard, and then exactly this event, which is read as the completion it was written
for. -/
theorem completion_survives_stream (completion : Completion) (count : Nat) :
    let bytes := Text.Utf8.encode (completion.event.charsAfter count)
    ∀ come,
      EventStream.events (Terminal.toText (bytes.take come)) =
        (if come < bytes.length then [] else [completion.event]) ∧
      (({} : Watcher).feed (Terminal.toText (bytes.take come)) false).next =
        if come < bytes.length then (none, {}) else (some (.ok completion), { closed := true }) := by
  intro bytes come
  have sendable := completion.sendable_event
  have heard : EventStream.events (Terminal.toText (bytes.take come)) =
      if come < bytes.length then [] else [completion.event] := by
    split
    next cut =>
      rcases Text.Utf8.decode_take_encode (completion.event.charsAfter count) come with refused | ⟨k, read, notAll⟩
      · rw [Terminal.toText, Text.Utf8.decodeString, refused]
        rfl
      · rw [Terminal.toText, Text.Utf8.decodeString, read]
        exact ServerEvent.events_take_charsAfter sendable (notAll cut)
    next all =>
      rw [List.take_of_length_le (Nat.le_of_not_lt all), Terminal.toText, Text.Utf8.decodeString,
        Text.Utf8.decode_encode]
      exact ServerEvent.events_charsAfter sendable count
  refine ⟨heard, ?_⟩
  rw [Watcher.feed, heard]
  split
  · exact Watcher.next_of_quiet
  · exact Watcher.next_of_completion completion false

end PlanService
