import Mathlib.Data.List.Forall2
import PlanService.Proofs.Except
import PlanService.Yaml.Decoder

/-! # What a record takes from a mapping

A record reads each of its keys from the entry with that key, wherever the entry stands, and keeps what the
blank record has for a key without an entry (`Overlay`, `record_sets`).  A key that is asked for stands at
most once, and entries with other keys are passed over.

A part of a record is given by how it is got from the record: its own field puts there what is read, and
the other fields leave it alone (`Governs`).
-/

namespace PlanService.Yaml

/-! ## Entries and items -/

namespace Document

/-- The root; of a text without content, a node that is left out. -/
def top (document : Document) : Node := document.root.getD .empty

/-- The entries of a mapping; any other node has none. -/
def entries (document : Document) (node : Node) : List (Node × Node) :=
  match document.follow node with
  | .mapping _ entries => entries
  | _ => []

/-- The items of a sequence; any other node has none. -/
def items (document : Document) (node : Node) : List Node :=
  match document.follow node with
  | .sequence _ items => items
  | _ => []

/-- The values of those entries that have a key. -/
def valuesOf (document : Document) (key : String) (entries : List (Node × Node)) : List Node :=
  entries.filterMap fun (name, value) =>
    if (Decoder.text document name).toOption = some key then some value else none

/-- What stands under a key of a mapping. -/
def under (document : Document) (key : String) (node : Node) : List Node :=
  document.valuesOf key (document.entries node)

/-- What stands at the end of a path of keys, each in the mapping that stands under those before. -/
def reach (document : Document) : List String → Node → List Node
  | [], node => [node]
  | key :: path, node => (document.under key node).flatMap (document.reach path)

variable {document : Document}

theorem valuesOf_cons {name : Node} {read : String} (named : Decoder.text document name = .ok read) (key : String)
    (value : Node) (rest : List (Node × Node)) :
    document.valuesOf key ((name, value) :: rest) =
      if read = key then value :: document.valuesOf key rest else document.valuesOf key rest := by
  simp only [valuesOf, List.filterMap_cons, named, Except.toOption, Option.some.injEq]
  by_cases same : read = key
  · rw [if_pos same, if_pos same]
  · rw [if_neg same, if_neg same]

theorem reach_singleton (key : String) (node : Node) : document.reach [key] node = document.under key node :=
  List.flatMap_singleton' _

theorem mem_reach_cons {key : String} {path : List String} {node written : Node} :
    written ∈ document.reach (key :: path) node ↔
      ∃ part ∈ document.under key node, written ∈ document.reach path part :=
  List.mem_flatMap

end Document

/-! ## Overlays -/

/-- What it means that a value is written at a node. -/
abbrev Reading (α : Type) := Document → Node → α → Prop

variable {α σ : Type}

def Decoder.reading (decoder : Decoder α) : Reading α := fun document node value =>
  decoder document node = .ok value

/-- The items of a sequence in order; what is no sequence has none. -/
def Reading.list (item : Reading α) : Reading (List α) := fun document node values =>
  List.Forall₂ (item document) (document.items node) values

/-- What is written at the end of a path of keys is the value; with nothing there it is the default. -/
structure Overlay (reading : Reading α) (document : Document) (node : Node) (path : List String)
    (default value : α) : Prop where
  given : ∀ written ∈ document.reach path node, reading document written value
  otherwise : document.reach path node = [] → value = default

namespace Overlay

variable {reading : Reading α} {document : Document} {node : Node} {key : String} {path : List String}

theorem imp {reading' : Reading α} {default value : α}
    (overlay : Overlay reading document node path default value)
    (implies : ∀ written, reading document written value → reading' document written value) :
    Overlay reading' document node path default value :=
  ⟨fun written member => implies written (overlay.given written member), overlay.otherwise⟩

/-- Over a section of its own: with the section absent the section is the default one, which has the
default. -/
theorem under {sections : Reading σ} {get : σ → α} {blank whole : σ}
    (outer : Overlay sections document node [key] blank whole)
    (inner : ∀ part, sections document part whole →
      Overlay reading document part path (get blank) (get whole)) :
    Overlay reading document node (key :: path) (get blank) (get whole) := by
  have read : ∀ part ∈ document.under key node, sections document part whole := by
    rw [← Document.reach_singleton]
    exact outer.given
  refine ⟨fun written member => ?_, fun nothing => ?_⟩
  · obtain ⟨part, stands, member⟩ := Document.mem_reach_cons.mp member
    exact (inner part (read part stands)).given written member
  · rw [Document.reach, List.flatMap_eq_nil_iff] at nothing
    cases parts : document.under key node with
    | nil =>
      rw [← Document.reach_singleton] at parts
      exact congrArg get (outer.otherwise parts)
    | cons part more =>
      have stands : part ∈ document.under key node := parts ▸ List.mem_cons_self
      exact (inner part (read part stands)).otherwise (nothing part stands)

end Overlay

namespace Decoder

variable {fields : List (Field σ)} {document : Document} {node : Node} {key : String}
  {decoder : Decoder α} {get : σ → α} {s t blank : σ}

/-! ## Fields -/

/-- The field reads a part of the record. -/
def Field.Reads (field : Field σ) (decoder : Decoder α) (get : σ → α) : Prop :=
  ∀ ⦃document node s t⦄, field.read document node s = .ok t → decoder document node = .ok (get t)

/-- The field leaves a part of the record alone. -/
def Field.Spares (field : Field σ) (get : σ → α) : Prop :=
  ∀ ⦃document node s t⦄, field.read document node s = .ok t → get t = get s

section

variable {own : Decoder α} {put : α → σ → σ}

@[simp] theorem Field.needed_key : (Field.needed key own put).key = key := rfl

@[simp] theorem Field.defaulted_key : (Field.defaulted key own put).key = key := rfl

/-- A field puts what is read into the record, whether it is needed or not. -/
theorem Field.reads_of_put {field : Field σ}
    (isPut : ∀ document node s, field.read document node s = (put · s) <$> own document node)
    (puts : ∀ a s, get (put a s) = a) : field.Reads own get := by
  intro document node s t read
  rw [isPut] at read
  obtain ⟨a, decoded, rfl⟩ := exists_of_map_eq_ok read
  rw [puts]
  exact decoded

theorem Field.spares_of_put {field : Field σ} {β : Type} {get : σ → β}
    (isPut : ∀ document node s, field.read document node s = (put · s) <$> own document node)
    (apart : ∀ a s, get (put a s) = get s) : field.Spares get := by
  intro document node s t read
  rw [isPut] at read
  obtain ⟨a, -, rfl⟩ := exists_of_map_eq_ok read
  exact apart a s

theorem Field.needed_reads (puts : ∀ a s, get (put a s) = a) : (Field.needed key own put).Reads own get :=
  Field.reads_of_put (fun _ _ _ => rfl) puts

theorem Field.defaulted_reads (puts : ∀ a s, get (put a s) = a) :
    (Field.defaulted key own put).Reads own get :=
  Field.reads_of_put (fun _ _ _ => rfl) puts

@[simp] theorem Field.needed_spares {β : Type} {get : σ → β} (apart : ∀ a s, get (put a s) = get s) :
    (Field.needed key own put).Spares get :=
  Field.spares_of_put (fun _ _ _ => rfl) apart

@[simp] theorem Field.defaulted_spares {β : Type} {get : σ → β} (apart : ∀ a s, get (put a s) = get s) :
    (Field.defaulted key own put).Spares get :=
  Field.spares_of_put (fun _ _ _ => rfl) apart

end

/-- A part of a record belongs to a key: the field of the key reads it, and the others leave it alone. -/
structure Governs (fields : List (Field σ)) (key : String) (decoder : Decoder α) (get : σ → α) : Prop where
  own : ∃ field, fields.find? (·.key == key) = some field ∧ field.Reads decoder get
  others : ∀ field ∈ fields, field.key ≠ key → field.Spares get

/-! ## Reading the entries -/

/-- What happens to the first entry: nobody asks for its key, or the field of the key reads the value, and
the key has not been seen before. -/
theorem fieldEntries_cons {name value : Node} {rest : List (Node × Node)} {seen : List String}
    (read : fieldEntries fields document ((name, value) :: rest) seen s = .ok t) :
    ∃ key, text document name = .ok key ∧
      ((fields.find? (·.key == key) = none ∧ fieldEntries fields document rest seen s = .ok t) ∨
        ∃ field s', fields.find? (·.key == key) = some field ∧ key ∉ seen ∧
          field.read document value s = .ok s' ∧
          fieldEntries fields document rest (key :: seen) s' = .ok t) := by
  rw [fieldEntries] at read
  obtain ⟨key, named, read⟩ := exists_of_bind_eq_ok read
  refine ⟨key, named, ?_⟩
  split at read
  next unknown => exact .inl ⟨unknown, read⟩
  next field found =>
    split at read
    · cases read
    next new =>
      obtain ⟨s', put, read⟩ := exists_of_bind_eq_ok read
      exact .inr ⟨field, s', found, by simpa using new, put, read⟩

/-- A key that has been seen does not stand again. -/
theorem valuesOf_of_seen {field : Field σ} (known : fields.find? (·.key == key) = some field) :
    ∀ {entries : List (Node × Node)} {seen : List String} {s : σ}, key ∈ seen →
      fieldEntries fields document entries seen s = .ok t → document.valuesOf key entries = []
  | [], _, _, _, _ => rfl
  | (name, value) :: rest, seen, s, isSeen, read => by
    obtain ⟨first, named, outcome⟩ := fieldEntries_cons read
    have different : first ≠ key := by
      rintro rfl
      rcases outcome with ⟨unknown, -⟩ | ⟨-, -, -, new, -⟩
      · rw [known] at unknown
        cases unknown
      · exact new isSeen
    rw [Document.valuesOf_cons named, if_neg different]
    rcases outcome with ⟨-, read⟩ | ⟨_, _, -, -, -, read⟩
    · exact valuesOf_of_seen known isSeen read
    · exact valuesOf_of_seen known (List.mem_cons_of_mem _ isSeen) read

/-- The induction is on the entries: the part keeps its value until the entry of its key, is read there,
and is kept from there on. -/
theorem fieldEntries_governed (governs : Governs fields key decoder get) :
    ∀ {entries : List (Node × Node)} {seen : List String} {s : σ},
      fieldEntries fields document entries seen s = .ok t →
        (∀ written ∈ document.valuesOf key entries, decoder document written = .ok (get t)) ∧
          (document.valuesOf key entries = [] → get t = get s)
  | [], seen, s, read => by
    rw [fieldEntries] at read
    split at read
    · cases read
    · exact ⟨nofun, fun _ => congrArg get (Except.ok.inj read).symm⟩
  | (name, value) :: rest, seen, s, read => by
    obtain ⟨own, known, reads⟩ := governs.own
    obtain ⟨first, named, outcome⟩ := fieldEntries_cons read
    rw [Document.valuesOf_cons named]
    rcases outcome with ⟨unknown, read⟩ | ⟨field, s', found, -, put, read⟩
    · have different : first ≠ key := by
        rintro rfl
        rw [known] at unknown
        cases unknown
      rw [if_neg different]
      exact fieldEntries_governed governs read
    · have after := fieldEntries_governed governs read
      by_cases same : first = key
      · subst same
        obtain rfl : own = field := Option.some.inj (known.symm.trans found)
        have last : document.valuesOf first rest = [] := valuesOf_of_seen known List.mem_cons_self read
        rw [if_pos rfl, last]
        refine ⟨fun written member => ?_, nofun⟩
        rw [List.mem_singleton.mp member, reads put, after.2 last]
      · have ofFirst : field.key = first := by simpa using List.find?_some found
        have kept : get s' = get s :=
          governs.others field (List.mem_of_find?_eq_some found) (ofFirst ▸ same) put
        rw [if_neg same]
        exact ⟨after.1, fun nothing => (after.2 nothing).trans kept⟩

/-- A key that a record needs has been seen or is still to come. -/
theorem fieldEntries_needed {field : Field σ} (member : field ∈ fields) (required : field.required = true) :
    ∀ {entries : List (Node × Node)} {seen : List String} {s : σ},
      fieldEntries fields document entries seen s = .ok t →
        field.key ∈ seen ∨ document.valuesOf field.key entries ≠ []
  | [], seen, s, read => by
    rw [fieldEntries] at read
    split at read
    · cases read
    · rename_i complete
      have present := List.find?_eq_none.mp complete field member
      rw [required, Bool.true_and, Bool.not_eq_true, Bool.not_eq_false', List.contains_iff_mem] at present
      exact .inl present
  | (name, value) :: rest, seen, s, read => by
    obtain ⟨first, named, outcome⟩ := fieldEntries_cons read
    rw [Document.valuesOf_cons named]
    split
    · exact .inr (List.cons_ne_nil _ _)
    · rename_i different
      rcases outcome with ⟨-, read⟩ | ⟨_, _, -, -, -, read⟩
      · exact fieldEntries_needed member required read
      · exact (fieldEntries_needed member required read).imp_left
          fun isSeen => (List.mem_cons.mp isSeen).resolve_left (Ne.symm different)

/-! ## Records -/

theorem record_entries (read : record fields blank document node = .ok s) :
    fieldEntries fields document (document.entries node) [] blank = .ok s := by
  rw [record] at read
  rw [Document.entries]
  generalize document.follow node = followed at read ⊢
  cases followed with
  | mapping _ entries => exact read
  | scalar | sequence | reference =>
    dsimp only at read ⊢
    split at read
    · exact read
    · cases read

/-- In what the record reads, a part is what is written under a key, or else that of the blank record. -/
def Sets (whole : Decoder σ) (blank : σ) (key : String) (decoder : Decoder α) (get : σ → α) : Prop :=
  ∀ ⦃document node s⦄, whole document node = .ok s →
    Overlay decoder.reading document node [key] (get blank) (get s)

theorem record_sets (governs : Governs fields key decoder get) (blank : σ) :
    Sets (record fields blank) blank key decoder get := by
  intro document node s read
  have governed := fieldEntries_governed governs (record_entries read)
  constructor <;> rw [Document.reach_singleton]
  · exact governed.1
  · exact governed.2

theorem record_needed {field : Field σ} (member : field ∈ fields) (required : field.required = true)
    (read : record fields blank document node = .ok s) : document.under field.key node ≠ [] :=
  (fieldEntries_needed member required (record_entries read)).resolve_left List.not_mem_nil

/-! ## Lists -/

theorem mapM_ok {items : List Node} {values : List α} (read : items.mapM (decoder document) = .ok values) :
    List.Forall₂ (fun item value => decoder document item = .ok value) items values := by
  induction items generalizing values with
  | nil =>
    cases read
    exact .nil
  | cons item items ih =>
    rw [List.mapM_cons] at read
    obtain ⟨value, head, read⟩ := exists_of_bind_eq_ok read
    obtain ⟨rest, tail, read⟩ := exists_of_bind_eq_ok read
    cases read
    exact .cons head (ih tail)

theorem list_reading {values : List α} (read : list decoder document node = .ok values) :
    Reading.list decoder.reading document node values := by
  rw [list] at read
  rw [Reading.list, Document.items]
  generalize document.follow node = followed at read ⊢
  cases followed with
  | sequence _ items => exact mapM_ok read
  | scalar | mapping | reference =>
    dsimp only at read ⊢
    split at read
    · cases read
      exact .nil
    · cases read

end Decoder

end PlanService.Yaml
