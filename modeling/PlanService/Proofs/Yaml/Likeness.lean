import PlanService.Proofs.Yaml.Record

/-! # Documents that differ in what does not matter

A `Likeness` says of two nodes, each in its own document, whether they say the same to a reader.  There is
one for each way to build a decoder: scalars have to be written alike, sequences item by item, and mappings
under the keys that are asked for.  A decoder respects its likeness: what it reads from like nodes is the same.
-/

namespace PlanService.Yaml

/-- Whether nodes of two documents say the same. -/
abbrev Likeness := Document → Document → Node → Node → Bool

namespace Likeness

/-- The same scalar, written in the same style and with the same tag. -/
def scalar : Likeness := fun document document' node node' =>
  match document.follow node, document'.follow node' with
  | .scalar _ tag style text, .scalar _ tag' style' text' => tag == tag' && style == style' && text == text'
  | _, _ => false

/-- Sequences of like items. -/
def items (item : Likeness) : Likeness := fun document document' node node' =>
  List.all₂ (item document document') (document.items node) (document'.items node')

/-- Mappings with like values under each of these keys, in whatever order their entries stand and whatever
stands under other keys. -/
def fields (fields : List (String × Likeness)) : Likeness := fun document document' node node' =>
  fields.all fun (key, like) =>
    let values := document.under key node
    let values' := document'.under key node'
    values.all (fun value => values'.any (like document document' value)) &&
      values'.all fun value' => values.any (like document document' · value')

end Likeness

variable {α σ : Type}

/-- What the decoder reads from like nodes is the same. -/
def Decoder.Respects (decoder : Decoder α) (like : Likeness) : Prop :=
  ∀ ⦃document document' node node' a b⦄, like document document' node node' = true →
    decoder document node = .ok a → decoder document' node' = .ok b → a = b

namespace Decoder

variable {document document' : Document} {node node' : Node} {like : Likeness}

/-! ## Scalars -/

theorem exists_of_scalar (alike : Likeness.scalar document document' node node' = true) :
    ∃ anchor anchor' tag style text, document.follow node = .scalar anchor tag style text ∧
      document'.follow node' = .scalar anchor' tag style text := by
  rw [Likeness.scalar] at alike
  split at alike
  · rename_i here there
    simp only [Bool.and_eq_true, beq_iff_eq] at alike
    obtain ⟨⟨rfl, rfl⟩, rfl⟩ := alike
    exact ⟨_, _, _, _, _, here, there⟩
  · cases alike

theorem text_respects : text.Respects .scalar := by
  intro document document' node node' a b alike read read'
  obtain ⟨_, _, _, _, _, here, there⟩ := exists_of_scalar alike
  rw [text, here] at read
  rw [text, there] at read'
  exact Except.ok.inj (read.symm.trans read')

theorem natural_respects (limit : Nat) : (natural limit).Respects .scalar := by
  intro document document' node node' a b alike read read'
  obtain ⟨_, _, _, _, _, here, there⟩ := exists_of_scalar alike
  rw [natural, here] at read
  rw [natural, there] at read'
  exact Except.ok.inj (read.symm.trans read')

theorem option_respects {decoder : Decoder α} (respects : decoder.Respects .scalar) :
    (option decoder).Respects .scalar := by
  intro document document' node node' a b alike read read'
  obtain ⟨anchor, anchor', tag, style, text, here, there⟩ := exists_of_scalar alike
  simp only [option, here] at read
  simp only [option, there] at read'
  obtain ⟨nothing, isNothing, read⟩ := exists_of_bind_eq_ok read
  obtain ⟨nothing', isNothing', read'⟩ := exists_of_bind_eq_ok read'
  obtain rfl : nothing = nothing' := Except.ok.inj (isNothing.symm.trans isNothing')
  cases nothing with
  | true =>
    cases read
    cases read'
    rfl
  | false =>
    obtain ⟨_, decoded, rfl⟩ := exists_of_map_eq_ok read
    obtain ⟨_, decoded', rfl⟩ := exists_of_map_eq_ok read'
    refine congrArg some (respects ?_ decoded decoded')
    simp [Likeness.scalar, Document.follow]

/-! ## Collections -/

theorem eq_of_like_items {decoder : Decoder α} (respects : decoder.Respects like) {items items' : List Node}
    (alike : List.Forall₂ (fun item item' => like document document' item item' = true) items items')
    {values values' : List α} (read : List.Forall₂ (decoder.reading document) items values)
    (read' : List.Forall₂ (decoder.reading document') items' values') : values = values' := by
  induction alike generalizing values values' with
  | nil =>
    cases read
    cases read'
    rfl
  | cons first _ ih =>
    cases read with | cons head tail =>
    cases read' with | cons head' tail' =>
    rw [respects first head head', ih tail tail']

theorem list_respects {decoder : Decoder α} (respects : decoder.Respects like) :
    (list decoder).Respects (.items like) := by
  intro document document' node node' values values' alike read read'
  exact eq_of_like_items respects ((List.all₂_eq_true _ _).mp alike) (list_reading read) (list_reading read')

/-- The part of a record that belongs to a key is the same if what stands under the key is alike. -/
theorem Sets.agree {whole : Decoder σ} {decoder : Decoder α} {get : σ → α} {blank s t : σ} {key : String}
    (sets : Sets whole blank key decoder get) (respects : decoder.Respects like)
    {fields : List (String × Likeness)} (listed : (key, like) ∈ fields)
    (alike : Likeness.fields fields document document' node node' = true)
    (read : whole document node = .ok s) (read' : whole document' node' = .ok t) : get s = get t := by
  obtain ⟨given, otherwise⟩ := sets read
  obtain ⟨given', otherwise'⟩ := sets read'
  rw [Document.reach_singleton] at given otherwise given' otherwise'
  obtain ⟨forth, back⟩ := Bool.and_eq_true_iff.mp (List.all_eq_true.mp alike _ listed)
  cases values : document.under key node with
  | nil =>
    have values' : document'.under key node' = [] := by
      refine List.eq_nil_iff_forall_not_mem.mpr fun value' member => ?_
      have found := List.all_eq_true.mp back value' member
      rw [values] at found
      cases found
    rw [otherwise values, otherwise' values']
  | cons value more =>
    have stands : value ∈ document.under key node := values ▸ List.mem_cons_self
    obtain ⟨value', stands', alike⟩ := List.any_eq_true.mp (List.all_eq_true.mp forth value stands)
    exact respects alike (given value stands) (given' value' stands')

end Decoder

end PlanService.Yaml
