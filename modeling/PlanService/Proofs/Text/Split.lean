import PlanService.Text.Split

/-! # The pieces of a text

Pieces that are put together with separators between them are found again, and what a text is cut
into has no separator left in it.
-/

namespace PlanService.Text

theorem split_of_not_mem {sep : Char} {cs : List Char} (uncut : sep ∉ cs) : split sep cs = [cs] := by
  induction cs with
  | nil => rfl
  | cons c cs ih =>
    have differs : c ≠ sep := fun same => uncut (same ▸ List.mem_cons_self)
    rw [split, if_neg differs, ih fun member => uncut (List.mem_cons_of_mem _ member)]

theorem split_append {sep : Char} {piece : List Char} (uncut : sep ∉ piece) (cs : List Char) :
    split sep (piece ++ sep :: cs) = piece :: split sep cs := by
  induction piece with
  | nil => rw [List.nil_append, split, if_pos rfl]
  | cons c piece ih =>
    have differs : c ≠ sep := fun same => uncut (same ▸ List.mem_cons_self)
    rw [List.cons_append, split, if_neg differs, ih fun member => uncut (List.mem_cons_of_mem _ member)]

/-- The pieces are made of what is not the separator. -/
theorem mem_of_mem_split {sep c : Char} {cs piece : List Char} (isPiece : piece ∈ split sep cs)
    (member : c ∈ piece) : c ∈ cs ∧ c ≠ sep := by
  induction cs generalizing piece with
  | nil =>
    cases List.mem_singleton.mp isPiece
    cases member
  | cons d cs ih =>
    rw [split] at isPiece
    split at isPiece
    next cut =>
      rcases List.mem_cons.mp isPiece with rfl | isPiece
      · cases member
      · obtain ⟨inRest, uncut⟩ := ih isPiece member
        exact ⟨List.mem_cons_of_mem _ inRest, uncut⟩
    next uncut =>
      obtain ⟨first, others, same⟩ := List.exists_cons_of_ne_nil (split_ne_nil sep cs)
      rw [same] at isPiece ih
      rcases List.mem_cons.mp isPiece with rfl | isPiece
      · rcases List.mem_cons.mp member with rfl | member
        · exact ⟨List.mem_cons_self, uncut⟩
        · obtain ⟨inRest, uncut⟩ := ih List.mem_cons_self member
          exact ⟨List.mem_cons_of_mem _ inRest, uncut⟩
      · obtain ⟨inRest, uncut⟩ := ih (List.mem_cons_of_mem _ isPiece) member
        exact ⟨List.mem_cons_of_mem _ inRest, uncut⟩

/-- What pieces without separators are put together to is cut into them again. -/
theorem split_join {sep : Char} {pieces : List (List Char)} (some : pieces ≠ [])
    (uncut : ∀ piece ∈ pieces, sep ∉ piece) : split sep (join sep pieces) = pieces := by
  induction pieces with
  | nil => exact absurd rfl some
  | cons piece rest ih =>
    have first := uncut piece List.mem_cons_self
    cases rest with
    | nil => exact split_of_not_mem first
    | cons next rest =>
      have below := ih (List.cons_ne_nil _ _) fun piece member => uncut piece (List.mem_cons_of_mem _ member)
      rw [join, split_append first, below]
      intro single
      cases single

theorem mem_of_mem_join {sep c : Char} {pieces : List (List Char)} (member : c ∈ join sep pieces) :
    c = sep ∨ ∃ piece ∈ pieces, c ∈ piece := by
  induction pieces with
  | nil => cases member
  | cons piece rest ih =>
    cases rest with
    | nil => exact .inr ⟨piece, List.mem_cons_self, member⟩
    | cons next rest =>
      rw [join] at member
      · rcases List.mem_append.mp member with member | member
        · exact .inr ⟨piece, List.mem_cons_self, member⟩
        · rcases List.mem_cons.mp member with rfl | member
          · exact .inl rfl
          · refine (ih member).imp_right ?_
            rintro ⟨piece, isPiece, member⟩
            exact ⟨piece, List.mem_cons_of_mem _ isPiece, member⟩
      · intro single
        cases single

end PlanService.Text
