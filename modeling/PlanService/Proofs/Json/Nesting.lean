import PlanService.Proofs.Except
import PlanService.Proofs.Json.ReadBack

/-! # How deep a value nests

What a reader of values can return is known whatever the text was: the keys of its objects
ascend, and it nests no deeper than the reader goes (`shaped_of_value`).  Conversely a value whose
numbers are integers is read back as it is if it has this shape (`readable_iff`), and one that
nests deeper is refused as too deep, so for such values the nesting decides (`value_eq`).
-/

namespace PlanService.Json

mutual

/-- How many containers are around the innermost part of a value, its own brackets counted. -/
def nesting : Json → Nat
  | .array items => nestingOfItems items + 1
  | .object members => nestingOfMembers members + 1
  | .null | .bool _ | .number _ | .string _ => 0

def nestingOfItems : List Json → Nat
  | [] => 0
  | v :: rest => max v.nesting (nestingOfItems rest)

def nestingOfMembers : List (String × Json) → Nat
  | [] => 0
  | (_, v) :: rest => max v.nesting (nestingOfMembers rest)

end

theorem nestingOfItems_le_iff {items : List Json} {depth : Nat} :
    nestingOfItems items ≤ depth ↔ ∀ v ∈ items, v.nesting ≤ depth := by
  induction items with
  | nil => simp [nestingOfItems]
  | cons v rest ih => rw [nestingOfItems, Nat.max_le, ih, List.forall_mem_cons]

theorem nestingOfMembers_le_iff {members : List (String × Json)} {depth : Nat} :
    nestingOfMembers members ≤ depth ↔ ∀ m ∈ members, m.2.nesting ≤ depth := by
  induction members with
  | nil => simp [nestingOfMembers]
  | cons m rest ih => rw [nestingOfMembers, Nat.max_le, ih, List.forall_mem_cons]

/-- The keys of every object ascend, so that it is a map. -/
inductive Keyed : Json → Prop
  | null : Keyed .null
  | bool (value : Bool) : Keyed (.bool value)
  | number (value : Number) : Keyed (.number value)
  | string (value : String) : Keyed (.string value)
  | array {items : List Json} (each : ∀ v ∈ items, Keyed v) : Keyed (.array items)
  | object {members : List (String × Json)} (ascend : members.Pairwise (·.1 < ·.1))
      (each : ∀ m ∈ members, Keyed m.2) : Keyed (.object members)

/-- What a reader returns that goes so deep. -/
structure Shaped (depth : Nat) (v : Json) : Prop where
  keyed : v.Keyed
  nesting_le : v.nesting ≤ depth

theorem Shaped.array {depth : Nat} {items : List Json} (each : ∀ v ∈ items, v.Shaped depth) :
    (Json.array items).Shaped (depth + 1) where
  keyed := .array fun v member => (each v member).keyed
  nesting_le := Nat.succ_le_succ (nestingOfItems_le_iff.mpr fun v member => (each v member).nesting_le)

theorem Shaped.object {depth : Nat} {members : List (String × Json)} (ascend : members.Pairwise (·.1 < ·.1))
    (each : ∀ m ∈ members, m.2.Shaped depth) : (Json.object members).Shaped (depth + 1) where
  keyed := .object ascend fun m member => (each m member).keyed
  nesting_le := Nat.succ_le_succ (nestingOfMembers_le_iff.mpr fun m member => (each m member).nesting_le)

/-- The values that are read back are those made of integers whose shape fits. -/
theorem readable_iff {depth : Nat} {v : Json} : v.Readable depth ↔ v.Integral ∧ v.Shaped depth := by
  constructor
  · intro readable
    refine ⟨readable.integral, ?_⟩
    induction readable with
    | null => exact ⟨.null, Nat.zero_le _⟩
    | bool value => exact ⟨.bool value, Nat.zero_le _⟩
    | integer fits => exact ⟨.number _, Nat.zero_le _⟩
    | string value => exact ⟨.string value, Nat.zero_le _⟩
    | array _ each => exact .array each
    | object ascend _ each => exact .object ascend each
  · rintro ⟨integral, keyed, within⟩
    induction integral generalizing depth with
    | null => exact .null
    | bool value => exact .bool value
    | integer fits => exact .integer fits
    | string value => exact .string value
    | array _ each =>
      obtain _ | depth := depth
      · cases within
      cases keyed with
      | array keyed =>
        have within := nestingOfItems_le_iff.mp (Nat.le_of_succ_le_succ within)
        exact .array fun v member => each v member (keyed v member) (within v member)
    | object _ each =>
      obtain _ | depth := depth
      · cases within
      cases keyed with
      | object ascend keyed =>
        have within := nestingOfMembers_le_iff.mp (Nat.le_of_succ_le_succ within)
        exact .object ascend fun m member => each m member (keyed m member) (within m member)

/-! ## What readers return -/

theorem mem_insert {members : Members} {key : String} {v : Json} {m : String × Json}
    (member : m ∈ members.insert key v) : m = (key, v) ∨ m ∈ members := by
  induction members with
  | nil => exact .inl (List.mem_singleton.mp member)
  | cons n rest ih =>
    rw [Members.insert] at member
    split at member
    next => exact List.mem_cons.mp member
    next =>
      split at member
      next => exact (List.mem_cons.mp member).imp id fun member => List.mem_cons_of_mem _ member
      next =>
        rcases List.mem_cons.mp member with rfl | member
        · exact .inr List.mem_cons_self
        · exact (ih member).imp id fun member => List.mem_cons_of_mem _ member

/-- To put a member in its place keeps the keys ascending. -/
theorem ascend_insert {members : Members} (ascend : members.Pairwise (·.1 < ·.1)) (key : String) (v : Json) :
    (members.insert key v).Pairwise (·.1 < ·.1) := by
  induction members with
  | nil => exact List.pairwise_singleton ..
  | cons n rest ih =>
    obtain ⟨first, ascendRest⟩ := List.pairwise_cons.mp ascend
    rw [Members.insert]
    split
    next before =>
      refine List.pairwise_cons.mpr ⟨List.forall_mem_cons.mpr ⟨before, fun m member => ?_⟩, ascend⟩
      exact String.lt_trans before (first m member)
    next notBefore =>
      split
      next same =>
        rw [beq_iff_eq.mp same]
        exact List.pairwise_cons.mpr ⟨first, ascendRest⟩
      next other =>
        have after : n.1 < key :=
          Std.lt_of_le_of_ne (String.not_lt.mp notBefore) fun same => other (beq_iff_eq.mpr same.symm)
        refine List.pairwise_cons.mpr ⟨fun m member => ?_, ih ascendRest⟩
        rcases mem_insert member with rfl | member
        · exact after
        · exact first m member

mutual

/-- Whatever a text says, what is read from it has its keys in order and nests no deeper than the
reader goes. -/
theorem shaped_of_value {depth : Nat} (said : Draft) {v : Json} (read : Decoder.value depth said = .ok v) :
    v.Shaped depth := by
  match said with
  | .null =>
    cases read
    exact ⟨.null, Nat.zero_le _⟩
  | .bool value =>
    cases read
    exact ⟨.bool value, Nat.zero_le _⟩
  | .number (some n) =>
    cases read
    exact ⟨.number n, Nat.zero_le _⟩
  | .string (some s) =>
    cases read
    exact ⟨.string s, Nat.zero_le _⟩
  | .array items =>
    obtain _ | depth := depth
    · cases read
    rw [Decoder.value] at read
    obtain ⟨vs, readEach, rfl⟩ := exists_of_map_eq_ok read
    exact .array (shaped_of_values items readEach)
  | .object members =>
    obtain _ | depth := depth
    · cases read
    rw [Decoder.value] at read
    obtain ⟨ms, readEach, rfl⟩ := exists_of_map_eq_ok read
    obtain ⟨ascend, each⟩ := shaped_of_memberValues members .nil nofun readEach
    exact .object ascend each
  | .broken | .number none | .string none => cases read

theorem shaped_of_values {depth : Nat} (said : Draft.Items) {vs : List Json}
    (read : Decoder.values depth said = .ok vs) : ∀ v ∈ vs, v.Shaped depth := by
  match said with
  | .closed =>
    cases read
    exact nofun
  | .cut => cases read
  | .item first rest =>
    rw [Decoder.values] at read
    obtain ⟨v, readFirst, read⟩ := exists_of_bind_eq_ok read
    obtain ⟨later, readRest, read⟩ := exists_of_bind_eq_ok read
    cases read
    exact List.forall_mem_cons.mpr ⟨shaped_of_value first readFirst, shaped_of_values rest readRest⟩

theorem shaped_of_memberValues {depth : Nat} (said : Draft.Members) {before members : Members}
    (ascend : before.Pairwise (·.1 < ·.1)) (each : ∀ m ∈ before, m.2.Shaped depth)
    (read : Decoder.memberValues depth said before = .ok members) :
    members.Pairwise (·.1 < ·.1) ∧ ∀ m ∈ members, m.2.Shaped depth := by
  match said with
  | .closed =>
    cases read
    exact ⟨ascend, each⟩
  | .cut => cases read
  | .member (.string (some key)) v rest =>
    rw [Decoder.memberValues] at read
    obtain ⟨a, readFirst, read⟩ := exists_of_bind_eq_ok read
    refine shaped_of_memberValues rest (ascend_insert ascend key a) (fun m member => ?_) read
    rcases mem_insert member with rfl | member
    · exact shaped_of_value v readFirst
    · exact each m member
  | .member .null _ _ | .member (.bool _) _ _ | .member (.number _) _ _ | .member (.string none) _ _
  | .member (.array _) _ _ | .member (.object _) _ _ | .member .broken _ _ => cases read

end

/-! ## Values that nest too deep -/

section

variable {depth : Nat}

theorem values_of_deep {items : List Json} (deep : ¬ nestingOfItems items ≤ depth)
    (each : ∀ v ∈ items, Decoder.value depth v.draft = if v.nesting ≤ depth then .ok v else .error .tooDeep) :
    Decoder.values depth (draftItems items) = .error .tooDeep := by
  induction items with
  | nil => exact absurd (Nat.zero_le depth) deep
  | cons v rest ih =>
    rw [nestingOfItems, Nat.max_le, not_and] at deep
    rw [draftItems, Decoder.values, each v List.mem_cons_self]
    split
    next within =>
      rw [ih (deep within) fun u member => each u (List.mem_cons_of_mem _ member)]
      rfl
    next => rfl

theorem memberValues_of_deep {members : List (String × Json)} (deep : ¬ nestingOfMembers members ≤ depth)
    (each : ∀ m ∈ members,
      Decoder.value depth m.2.draft = if m.2.nesting ≤ depth then .ok m.2 else .error .tooDeep)
    (before : Members) : Decoder.memberValues depth (draftMembers members) before = .error .tooDeep := by
  induction members generalizing before with
  | nil => exact absurd (Nat.zero_le depth) deep
  | cons m rest ih =>
    rw [nestingOfMembers, Nat.max_le, not_and] at deep
    rw [draftMembers, Decoder.memberValues, each m List.mem_cons_self]
    split
    next within => exact ih (deep within) (fun n member => each n (List.mem_cons_of_mem _ member)) _
    next => rfl

/-- Of a value that is made of integers its nesting decides whether it is read back. -/
theorem value_eq {v : Json} (integral : v.Integral) (keyed : v.Keyed) :
    Decoder.value depth v.draft = if v.nesting ≤ depth then .ok v else .error .tooDeep := by
  by_cases within : v.nesting ≤ depth
  · rw [if_pos within]
    exact value_draft (readable_iff.mpr ⟨integral, keyed, within⟩)
  rw [if_neg within]
  induction integral generalizing depth with
  | null | bool | integer | string => exact absurd (Nat.zero_le depth) within
  | @array items integral ih =>
    obtain _ | depth := depth
    · rfl
    cases keyed with
    | array keyed =>
      have deep : ¬ nestingOfItems items ≤ depth := fun within' => within (Nat.succ_le_succ within')
      rw [draft, Decoder.value, values_of_deep deep fun v member => ?_]
      · rfl
      · split
        next within => exact value_draft (readable_iff.mpr ⟨integral v member, keyed v member, within⟩)
        next deep => exact ih v member (keyed v member) deep
  | @object members integral ih =>
    obtain _ | depth := depth
    · rfl
    cases keyed with
    | object _ keyed =>
      have deep : ¬ nestingOfMembers members ≤ depth := fun within' => within (Nat.succ_le_succ within')
      rw [draft, Decoder.value, memberValues_of_deep deep fun m member => ?_]
      · rfl
      · split
        next within => exact value_draft (readable_iff.mpr ⟨integral m member, keyed m member, within⟩)
        next deep => exact ih m member (keyed m member) deep

theorem members_eq {members : Members} (integral : (Json.object members).Integral)
    (keyed : (Json.object members).Keyed) :
    Decoder.members depth (Json.object members).draft =
      if (Json.object members).nesting ≤ depth then .ok members else .error .tooDeep := by
  have whole : Decoder.value depth (Json.object members).draft = _ := value_eq integral keyed
  obtain _ | depth := depth
  · rfl
  rw [draft, Decoder.value] at whole
  rw [draft, Decoder.members]
  split at whole
  next within =>
    obtain ⟨same, read, isSame⟩ := exists_of_map_eq_ok whole
    cases isSame
    exact (read.trans (if_pos within).symm :)
  next deep =>
    rw [if_neg deep]
    cases read : Decoder.memberValues depth (draftMembers members) [] with
    | ok same => rw [read] at whole; cases whole
    | error fault => rw [read] at whole; cases whole; rfl

end

/-- Whatever a text says, a map that is read from it has its keys in order and nests no deeper than
the reader goes. -/
theorem shaped_of_members {depth : Nat} {said : Draft} {members : Members}
    (read : Decoder.members depth said = .ok members) : (Json.object members).Shaped depth := by
  obtain _ | depth := depth
  · cases said <;> cases read
  cases said with
  | object rest =>
    rw [Decoder.members] at read
    obtain ⟨ascend, each⟩ := shaped_of_memberValues rest .nil nofun read
    exact .object ascend each
  | null | bool | number | string | array | broken => cases read

end PlanService.Json
