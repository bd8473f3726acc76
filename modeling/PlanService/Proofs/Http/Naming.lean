import Mathlib.Data.List.DropRight
import PlanService.Proofs.Http.Address

/-! # Names in addresses

What becomes of a name that is put at the end of an address as it is.  Blanks at its end and everything
from a `?` or a `#` on is lost, slashes of either kind cut it into pieces (`namePieces`), and pieces that
mean dots lead elsewhere.  Any other piece arrives encoded, and what it means is decoded there
(`decodeText_encodeText`).  A name comes through all this unchanged just if it is `Intact`
(`meaning_eq_self_iff`).
-/

namespace PlanService

namespace Http.Url

/-! ## Pieces of a name -/

/-- A text with slashes of either kind alike. -/
def slashed (cs : List Char) : List Char := cs.map fun c => if c = '\\' then '/' else c

theorem slashed_of_not_mem {cs : List Char} (free : '\\' ∉ cs) : slashed cs = cs :=
  (List.map_congr_left fun _ member => if_neg (ne_of_mem_of_not_mem member free)).trans (List.map_id _)

/-- What of a name at the end of an address is part of the path. -/
def kept (name : List Char) : List Char := (tidy name).takeWhile fun c => c ≠ '?' ∧ c ≠ '#'

/-- The pieces of a path that a name at its end is read as. -/
def namePieces (name : List Char) : List (List Char) := Text.split '/' (slashed (kept name))

/-- A name below a plain piece goes on from there. -/
theorem readPath_named {front : List Char} (plain : ∀ c ∈ front, isPlain c = true) (name : List Char) :
    readPath ('/' :: (front ++ '/' :: tidy name)) = resolve [front] (namePieces name) := by
  have plainPath : IsPlainPath (front ++ ['/']) :=
    List.forall_mem_append.mpr ⟨fun c member => .inl (plain c member), by simp⟩
  have stays : slashed ('/' :: (front ++ ['/'])) = '/' :: (front ++ ['/']) :=
    slashed_of_not_mem fun member => ne_of_isPlainPath plainPath rfl (by decide) _ member rfl
  have begins : '/' :: (front ++ '/' :: tidy name) = '/' :: (front ++ ['/']) ++ tidy name := by simp
  have path : (slashed (('/' :: (front ++ '/' :: tidy name)).takeWhile fun c => c ≠ '?' ∧ c ≠ '#')).drop 1 =
      front ++ '/' :: slashed (kept name) := by
    rw [begins, List.takeWhile_append_of_pos (not_cut plainPath), slashed, List.map_append, ← slashed, stays]
    simp [slashed, kept]
  have uncut : '/' ∉ front := fun member => Bool.noConfusion (plain '/' member)
  have down := ofPiece_of_not_dots (isDots_plain plain)
  rw [encodeText_plain plain] at down
  obtain ⟨piece, more, pieces⟩ := List.exists_cons_of_ne_nil (Text.split_ne_nil '/' (slashed (kept name)))
  have reads : readPath ('/' :: (front ++ '/' :: tidy name)) = resolve [] (front :: namePieces name) := by
    rw [namePieces, ← Text.split_append uncut, ← path]
    rfl
  rw [reads, namePieces, pieces, resolve, down]
  · rfl
  · intro single
    cases single

theorem slash_not_mem_of_mem_namePieces {name piece : List Char} (isPiece : piece ∈ namePieces name) : '/' ∉ piece :=
  fun member => (Text.mem_of_mem_split isPiece member).2 rfl

/-- Whether a name leads down from where it is put, or is a single step. -/
def Straight (name : List Char) : Prop :=
  (namePieces name).length = 1 ∨ ∀ piece ∈ namePieces name, isDots piece = false

instance : DecidablePred Straight := fun name =>
  inferInstanceAs (Decidable ((namePieces name).length = 1 ∨ ∀ piece ∈ namePieces name, isDots piece = false))

theorem isDrive_plain {front : List Char} (plain : ∀ c ∈ front, isPlain c = true) : isDrive front = false := by
  match front with
  | [] | [_] | _ :: _ :: _ :: _ => rfl
  | [letter, mark] =>
    have isPlainMark := plain mark (by simp)
    have noColon : mark ≠ ':' := ne_of_isPlain isPlainMark rfl
    have noBar : mark ≠ '|' := ne_of_isPlain isPlainMark rfl
    simp [isDrive, noColon, noBar]

/-- A single step of dots leads to no piece with a name. -/
theorem resolve_dots {front piece : List Char} (plain : ∀ c ∈ front, isPlain c = true) (dots : isDots piece = true) :
    resolve [front] [piece] = [front, []] ∨ resolve [front] [piece] = [[]] := by
  simp only [isDots, decide_eq_true_eq] at dots
  by_cases here : plainDots piece = ['.']
  · left
    rw [resolve, Step.ofPiece, if_pos here]
    rfl
  · right
    rw [resolve, Step.ofPiece, if_neg here, if_pos (dots.resolve_left here), goUp]
    simp [isDrive_plain plain]

/-! ## Meanings -/

/-- What a name in an address may mean. -/
inductive Meaning where
  -- There is no such place.
  | nowhere
  -- The bytes are no text.
  | garbled
  | name (meant : String)
  deriving Repr, DecidableEq

/-- What is meant by the piece at the end of a path. -/
def Meaning.ofPiece (piece : List Char) : Meaning :=
  if piece = [] ∨ isDots piece = true then nowhere
  else (PercentCoding.decodeText piece).elim garbled name

/-- What is meant by a name that is put at the end of an address. -/
def meaning (name : List Char) : Meaning :=
  match namePieces name with
  | [piece] => .ofPiece piece
  | _ => .nowhere

/-- Below a plain piece, a straight name is found as one encoded piece, or leads to a place where
nothing is named. -/
theorem resolve_named {front name : List Char} (plain : ∀ c ∈ front, isPlain c = true) (straight : Straight name) :
    (∃ piece, piece ≠ [] ∧ '/' ∉ piece ∧ resolve [front] (namePieces name) = [front, encodeText isPathSafe piece] ∧
      meaning name = (PercentCoding.decodeText piece).elim .garbled .name) ∨
    (meaning name = .nowhere ∧ (resolve [front] (namePieces name) = [front, []] ∨
      resolve [front] (namePieces name) = [[]] ∨
      ∃ first second more, namePieces name = first :: second :: more ∧
        resolve [front] (namePieces name) = front :: (namePieces name).map (encodeText isPathSafe))) := by
  rcases pieces : namePieces name with _ | ⟨piece, _ | ⟨second, more⟩⟩
  · exact absurd pieces (Text.split_ne_nil _ _)
  · have noSlash : '/' ∉ piece := slash_not_mem_of_mem_namePieces (pieces ▸ List.mem_singleton_self piece)
    have means : meaning name = .ofPiece piece := by rw [meaning, pieces]
    rw [Meaning.ofPiece] at means
    by_cases dots : isDots piece = true
    · rw [if_pos (.inr dots)] at means
      exact .inr ⟨means, (resolve_dots plain dots).imp_right .inl⟩
    have down : resolve [front] [piece] = [front, encodeText isPathSafe piece] :=
      resolve_straight [front] fun other member => by
        rw [List.mem_singleton.mp member, eq_false_of_ne_true dots]
    by_cases empty : piece = []
    · rw [if_pos (.inl empty)] at means
      rw [empty] at down ⊢
      exact .inr ⟨means, .inl down⟩
    · rw [if_neg (not_or.mpr ⟨empty, dots⟩)] at means
      exact .inl ⟨piece, empty, noSlash, down, means⟩
  · have means : meaning name = .nowhere := by rw [meaning, pieces]
    have down : ∀ piece ∈ namePieces name, isDots piece = false :=
      straight.resolve_left (by rw [pieces]; exact nofun)
    rw [pieces] at down
    exact .inr ⟨means, .inr (.inr ⟨piece, second, more, rfl, resolve_straight [front] down⟩)⟩

/-! ## Names that mean themselves -/

/-- Whether a name means itself at the end of an address: nothing of it is dropped, it is one piece, and there is
no escape in it. -/
structure Intact (name : List Char) : Prop where
  nonempty : name ≠ []
  whole : ∀ c ∈ name, c ∉ "/\\?#\t\n\r".toList
  ends : 32 < (name.getLast nonempty).toNat
  straight : isDots name = false
  literal : PercentCoding.decodeText name = some (String.ofList name)

theorem tidy_eq (cs : List Char) :
    tidy cs = (cs.rdropWhile fun c => c.toNat ≤ 32).filter fun c => decide (c ≠ '\t' ∧ c ≠ '\n' ∧ c ≠ '\r') := rfl

theorem tidy_sublist (cs : List Char) : (tidy cs).Sublist cs :=
  List.filter_sublist.trans (List.rdropWhile_prefix _ cs).sublist

/-- Nothing is dropped from the end of an address but tabs, line breaks and blanks at its end. -/
theorem tidy_eq_self_iff {cs : List Char} (some : cs ≠ []) :
    tidy cs = cs ↔ (∀ c ∈ cs, c ≠ '\t' ∧ c ≠ '\n' ∧ c ≠ '\r') ∧ 32 < (cs.getLast some).toNat := by
  have ends : cs.rdropWhile (fun c => c.toNat ≤ 32) = cs ↔ 32 < (cs.getLast some).toNat := by
    rw [List.rdropWhile_eq_self_iff, forall_prop_of_true some, decide_eq_true_eq, Nat.not_le]
  have inside : cs.filter (fun c => decide (c ≠ '\t' ∧ c ≠ '\n' ∧ c ≠ '\r')) = cs ↔
      ∀ c ∈ cs, c ≠ '\t' ∧ c ≠ '\n' ∧ c ≠ '\r' := by
    rw [List.filter_eq_self]
    simp only [decide_eq_true_eq]
  rw [tidy_eq]
  constructor
  · intro same
    have notShorter : cs.length ≤ (cs.rdropWhile fun c => c.toNat ≤ 32).length := by
      conv_lhs => rw [← same]
      exact List.length_filter_le ..
    have kept := (List.rdropWhile_prefix _ cs).eq_of_length_le notShorter
    rw [kept] at same
    exact ⟨inside.mp same, ends.mp kept⟩
  · rintro ⟨allowed, last⟩
    rw [ends.mpr last]
    exact inside.mpr allowed

theorem kept_sublist (name : List Char) : (kept name).Sublist name :=
  (List.takeWhile_sublist _).trans (tidy_sublist name)

theorem length_encode_slashed (cs : List Char) :
    (Text.Utf8.encode (slashed cs)).length = (Text.Utf8.encode cs).length := by
  induction cs with
  | nil => rfl
  | cons c cs ih =>
    rw [slashed, List.map_cons, ← slashed, Text.Utf8.encode_cons, Text.Utf8.encode_cons, List.length_append,
      List.length_append, ih]
    congr 1
    split
    next isBackslash =>
      rw [isBackslash]
      rfl
    next => rfl

/-- All of a name is one piece just if none of the characters in it and no blank at its end is dropped or cuts it. -/
theorem kept_whole_iff {name : List Char} (nonempty : name ≠ []) :
    (kept name = name ∧ '/' ∉ name ∧ '\\' ∉ name) ↔
      (∀ c ∈ name, c ∉ "/\\?#\t\n\r".toList) ∧ 32 < (name.getLast nonempty).toNat := by
  have isKept : kept name = name ↔ tidy name = name ∧ ∀ c ∈ name, c ≠ '?' ∧ c ≠ '#' := by
    constructor
    · intro same
      have tidied : tidy name = name := (tidy_sublist name).eq_of_length_le (by
        conv_lhs => rw [← same]
        exact (List.takeWhile_sublist _).length_le)
      rw [kept, tidied, List.takeWhile_eq_self_iff] at same
      exact ⟨tidied, by simpa only [decide_eq_true_eq] using same⟩
    · rintro ⟨tidied, uncut⟩
      rw [kept, tidied, List.takeWhile_eq_self_iff]
      simpa only [decide_eq_true_eq] using uncut
  have allowed : (∀ c ∈ name, c ∉ "/\\?#\t\n\r".toList) ↔
      (∀ c ∈ name, c ≠ '\t' ∧ c ≠ '\n' ∧ c ≠ '\r') ∧ (∀ c ∈ name, c ≠ '?' ∧ c ≠ '#') ∧ '/' ∉ name ∧ '\\' ∉ name := by
    have each (c : Char) : c ∉ "/\\?#\t\n\r".toList ↔
        (c ≠ '\t' ∧ c ≠ '\n' ∧ c ≠ '\r') ∧ (c ≠ '?' ∧ c ≠ '#') ∧ c ≠ '/' ∧ c ≠ '\\' := by
      simp
      tauto
    simp only [each, forall_and, List.forall_mem_ne']
  rw [isKept, tidy_eq_self_iff nonempty, allowed]
  tauto

theorem namePieces_whole {name : List Char} (whole : kept name = name) (noSlash : '/' ∉ name)
    (noBackslash : '\\' ∉ name) : namePieces name = [name] := by
  rw [namePieces, whole, slashed_of_not_mem noBackslash, Text.split_of_not_mem noSlash]

/-- A name that means another is one piece that is decoded to this. -/
theorem exists_of_meaning {name : List Char} {meant : String} (means : meaning name = .name meant) :
    ∃ piece, namePieces name = [piece] ∧ piece ≠ [] ∧ isDots piece = false ∧
      PercentCoding.decodeText piece = some meant := by
  rw [meaning] at means
  split at means
  next piece pieces =>
    rw [Meaning.ofPiece] at means
    split at means
    · cases means
    next named =>
      obtain ⟨nonempty, straight⟩ := not_or.mp named
      refine ⟨piece, pieces, nonempty, eq_false_of_ne_true straight, ?_⟩
      cases decoded : PercentCoding.decodeText piece with
      | none =>
        rw [decoded] at means
        cases means
      | some text =>
        rw [decoded] at means
        exact congrArg some (Meaning.name.inj means)
  next => cases means

/-- A name means itself just if it is intact. -/
theorem meaning_eq_self_iff {name : List Char} : meaning name = .name (String.ofList name) ↔ Intact name := by
  constructor
  · intro means
    obtain ⟨piece, pieces, nonempty, straight, literal⟩ := exists_of_meaning means
    have noSlash := slash_not_mem_of_mem_namePieces (pieces ▸ List.mem_singleton_self piece)
    have isPath : slashed (kept name) = piece := by
      have joined := Text.join_split '/' (slashed (kept name))
      rw [← namePieces, pieces] at joined
      exact joined.symm
    -- What is meant has no more bytes than the piece, so that nothing of the name was dropped.
    have same : kept name = name := by
      have asLong := PercentCoding.length_encode_le_of_decodeText literal
      rw [← isPath, length_encode_slashed, String.toList_ofList] at asLong
      exact Text.Utf8.eq_of_sublist_of_length_le (kept_sublist name) asLong
    rw [same] at isPath
    have noBackslash : '\\' ∉ name := fun member => noSlash (isPath ▸ List.mem_map.mpr ⟨'\\', member, rfl⟩)
    rw [slashed_of_not_mem noBackslash] at isPath
    cases isPath
    obtain ⟨whole, ends⟩ := (kept_whole_iff nonempty).mp ⟨same, noSlash, noBackslash⟩
    exact ⟨nonempty, whole, ends, straight, literal⟩
  · rintro ⟨nonempty, whole, ends, straight, literal⟩
    obtain ⟨same, noSlash, noBackslash⟩ := (kept_whole_iff nonempty).mpr ⟨whole, ends⟩
    have named : ¬ (name = [] ∨ isDots name = true) := not_or.mpr ⟨nonempty, by rw [straight]; exact nofun⟩
    have means : meaning name = .ofPiece name := by rw [meaning, namePieces_whole same noSlash noBackslash]
    rw [means, Meaning.ofPiece, if_neg named, literal]
    rfl

theorem Intact.isStraight {name : List Char} (intact : Intact name) : Straight name := by
  obtain ⟨same, noSlash, noBackslash⟩ := (kept_whole_iff intact.nonempty).mpr ⟨intact.whole, intact.ends⟩
  exact .inl (congrArg List.length (namePieces_whole same noSlash noBackslash))

end Http.Url

end PlanService
