import PlanService.Json.Decoder
import PlanService.Proofs.Json.Scalar

/-! # What is written is read back

The draft of a written value is the value itself, spelt in the constructors of drafts
(`draft`), so that a typed reader of the text has nothing to do with its characters
(`decode_compact`).  A reader of values of any kind gives the value back if it nests no deeper
than the reader goes and the keys of its objects ascend (`value_draft`).
-/

namespace PlanService.Json

/-- Every number is an integer of 64 bits. -/
inductive Integral : Json → Prop
  | null : Integral .null
  | bool (value : Bool) : Integral (.bool value)
  | integer {n : Int} (fits : Is64Bit n) : Integral (.number (.integer n))
  | string (value : String) : Integral (.string value)
  | array {items : List Json} (each : ∀ v ∈ items, Integral v) : Integral (.array items)
  | object {members : List (String × Json)} (each : ∀ m ∈ members, Integral m.2) : Integral (.object members)

mutual

/-- What the text of a value says. -/
def draft : Json → Draft
  | .null => .null
  | .bool value => .bool value
  | .number n => .number (some n)
  | .string s => .string (some s)
  | .array items => .array (draftItems items)
  | .object members => .object (draftMembers members)

def draftItems : List Json → Draft.Items
  | [] => .closed
  | v :: rest => .item v.draft (draftItems rest)

def draftMembers : List (String × Json) → Draft.Members
  | [] => .closed
  | (key, v) :: rest => .member (.string (some key)) v.draft (draftMembers rest)

end

/-! ## Reading drafts -/

theorem skipSpace_of_solid {c : Char} (more : List Char) (solid : Draft.isSpace c = false) :
    Draft.skipSpace (c :: more) = c :: more := by
  simp [Draft.skipSpace, solid]

/-- How a numeral begins. -/
def startsNumeral (c : Char) : Bool := c.isDigit || c == '-'

theorem ne_of_startsNumeral {c other : Char} (starts : startsNumeral c = true)
    (noNumeral : startsNumeral other = false) : c ≠ other := by
  rintro rfl
  rw [starts] at noNumeral
  cases noNumeral

theorem solid_of_startsNumeral {c : Char} (starts : startsNumeral c = true) : Draft.isSpace c = false := by
  have ne (space : Char) (noNumeral : startsNumeral space = false) : c ≠ space :=
    ne_of_startsNumeral starts noNumeral
  simp [Draft.isSpace, ne ' ' rfl, ne '\n' rfl, ne '\t' rfl, ne '\r' rfl]

theorem exists_cons_intChars (n : Int) :
    ∃ c more, Number.intChars n = c :: more ∧ startsNumeral c = true := by
  cases n with
  | negSucc n => exact ⟨'-', _, rfl, rfl⟩
  | ofNat n =>
    cases digits : Nat.toDigits 10 n with
    | nil => exact absurd digits Nat.toDigits_ne_nil
    | cons c more =>
      have isDigit := isDigit_of_mem_toDigits c (digits ▸ List.mem_cons_self)
      exact ⟨c, more, digits, by simp [startsNumeral, isDigit]⟩

/-- No written value begins with a blank or with the end of a container. -/
theorem exists_cons_chars {v : Json} (integral : v.Integral) :
    ∃ c more, v.chars = c :: more ∧ Draft.isSpace c = false ∧ c ≠ ']' ∧ c ≠ '\x7d' := by
  cases integral with
  | null => exact ⟨_, _, rfl, by decide⟩
  | bool value => cases value <;> exact ⟨_, _, rfl, by decide⟩
  | string s => exact ⟨_, _, rfl, by decide⟩
  | @integer n fits =>
    obtain ⟨c, more, same, starts⟩ := exists_cons_intChars n
    exact ⟨c, more, same, solid_of_startsNumeral starts, ne_of_startsNumeral starts rfl,
      ne_of_startsNumeral starts rfl⟩
  | @array items each => cases items <;> exact ⟨_, _, rfl, by decide⟩
  | @object members each =>
    cases members with
    | nil => exact ⟨_, _, rfl, by decide⟩
    | cons m rest => exact ⟨_, _, rfl, by decide⟩

/-- The text of the value is read as its draft, whatever follows that may follow a value. -/
def ReadsBack (v : Json) : Prop :=
  ∀ fuel rest, v.chars.length < fuel → endsValue rest = true →
    Draft.read fuel (v.chars ++ rest) = (v.draft, some rest)

theorem read_numeral {c : Char} {more rest : List Char} {n : Option Number} (starts : startsNumeral c = true)
    (numeral : Draft.readNumber (c :: more) = some (n, rest)) (fuel : Nat) :
    Draft.read (fuel + 1) (c :: more) = (.number n, some rest) := by
  rw [Draft.read, skipSpace_of_solid more (solid_of_startsNumeral starts)]
  split
  case h_7 => rw [numeral]
  -- Nothing else begins like a numeral.
  all_goals
    next same =>
      injection same with head
      exact absurd head (ne_of_startsNumeral starts rfl)

theorem readsBack_integer {n : Int} (fits : Is64Bit n) : ReadsBack (.number (.integer n)) := by
  intro fuel rest enough ends
  obtain ⟨c, more, same, starts⟩ := exists_cons_intChars n
  have numeral := readNumber_intChars fits ends
  cases fuel with
  | zero => cases enough
  | succ fuel =>
    rw [same, List.cons_append] at numeral
    have text : (Json.number (.integer n)).chars = c :: more := same
    rw [text, List.cons_append]
    exact read_numeral starts numeral fuel

theorem read_quoted (fuel : Nat) (s : String) (rest : List Char) :
    Draft.read (fuel + 1) (quote s ++ rest) = (.string (some s), some rest) := by
  rw [quote, List.cons_append, List.append_assoc, List.singleton_append, Draft.read, skipSpace_of_solid _ rfl]
  simp only [readString_quoted]

theorem read_array (fuel : Nat) {c : Char} (more : List Char) (solid : Draft.isSpace c = false) (goesOn : c ≠ ']') :
    Draft.read (fuel + 1) ('[' :: c :: more) =
      (.array (Draft.readItems fuel (c :: more)).1, (Draft.readItems fuel (c :: more)).2) := by
  rw [Draft.read, skipSpace_of_solid _ rfl]
  simp only [skipSpace_of_solid more solid]
  split
  next same =>
    injection same with head
    exact absurd head goesOn
  next => rfl

theorem read_object (fuel : Nat) (key : String) (more : List Char) :
    Draft.read (fuel + 1) ('\x7b' :: (quote key ++ more)) =
      (.object (Draft.readMembers fuel (quote key ++ more)).1, (Draft.readMembers fuel (quote key ++ more)).2) := rfl

/-! ## Items and members -/

section

variable {fuel : Nat} {cs rest : List Char} {v : Draft}

theorem readItems_of_bracket (read : Draft.read fuel cs = (v, some (']' :: rest))) :
    Draft.readItems (fuel + 1) cs = (.item v .closed, some rest) := by
  rw [Draft.readItems, read]
  rfl

theorem readItems_of_comma {c : Char} {more : List Char}
    (read : Draft.read fuel cs = (v, some (',' :: c :: more))) (solid : Draft.isSpace c = false)
    (goesOn : c ≠ ']') :
    Draft.readItems (fuel + 1) cs =
      (.item v (Draft.readItems fuel (c :: more)).1, (Draft.readItems fuel (c :: more)).2) := by
  rw [Draft.readItems, read]
  simp only [skipSpace_of_solid _ (show Draft.isSpace ',' = false from rfl), skipSpace_of_solid more solid]
  split
  next same =>
    injection same with head
    exact absurd head goesOn
  next => rfl

theorem readMembers_of_brace {key : String} (read : Draft.read fuel cs = (v, some ('\x7d' :: rest))) :
    Draft.readMembers (fuel + 1) (quote key ++ ':' :: cs) =
      (.member (.string (some key)) v .closed, some rest) := by
  rw [Draft.readMembers, quote, List.cons_append, List.append_assoc, skipSpace_of_solid _ rfl,
    List.singleton_append]
  simp only [readString_quoted, skipSpace_of_solid _ (show Draft.isSpace ':' = false from rfl), read]
  rfl

theorem readMembers_of_comma {key next : String} {more : List Char}
    (read : Draft.read fuel cs = (v, some (',' :: (quote next ++ more)))) :
    Draft.readMembers (fuel + 1) (quote key ++ ':' :: cs) =
      (.member (.string (some key)) v (Draft.readMembers fuel (quote next ++ more)).1,
        (Draft.readMembers fuel (quote next ++ more)).2) := by
  rw [Draft.readMembers, quote, List.cons_append, List.append_assoc, skipSpace_of_solid _ rfl,
    List.singleton_append]
  simp only [readString_quoted, skipSpace_of_solid _ (show Draft.isSpace ':' = false from rfl), read]
  rfl

end

theorem readItems_chars {v : Json} {vs : List Json} (integral : ∀ u ∈ v :: vs, u.Integral)
    (back : ∀ u ∈ v :: vs, u.ReadsBack) (fuel : Nat) (rest : List Char)
    (enough : (v.chars ++ itemChars vs).length < fuel) :
    Draft.readItems fuel (v.chars ++ (itemChars vs ++ rest)) = (draftItems (v :: vs), some rest) := by
  induction vs generalizing v fuel with
  | nil =>
    obtain _ | fuel := fuel
    · cases enough
    rw [List.length_append, itemChars, List.length_singleton] at enough
    exact readItems_of_bracket (back v List.mem_cons_self fuel (']' :: rest) (by omega) rfl)
  | cons u us ih =>
    obtain _ | fuel := fuel
    · cases enough
    rw [List.length_append, itemChars, List.length_cons] at enough
    obtain ⟨c, more, same, solid, goesOn, -⟩ := exists_cons_chars (integral u (by simp))
    have read := back v List.mem_cons_self fuel (itemChars (u :: us) ++ rest) (by omega) rfl
    have next := ih (fun w member => integral w (List.mem_cons_of_mem _ member))
      (fun w member => back w (List.mem_cons_of_mem _ member)) fuel (by omega)
    rw [itemChars, List.cons_append, List.append_assoc] at read ⊢
    rw [same, List.cons_append] at read next
    rw [same, List.cons_append, readItems_of_comma read solid goesOn, next]
    rfl

theorem readMembers_chars {m : String × Json} {ms : List (String × Json)}
    (back : ∀ m' ∈ m :: ms, m'.2.ReadsBack) (fuel : Nat) (rest : List Char)
    (enough : (m.2.chars ++ memberChars ms).length < fuel) :
    Draft.readMembers fuel (quote m.1 ++ ':' :: (m.2.chars ++ (memberChars ms ++ rest))) =
      (draftMembers (m :: ms), some rest) := by
  induction ms generalizing m fuel with
  | nil =>
    obtain _ | fuel := fuel
    · cases enough
    rw [List.length_append, memberChars, List.length_singleton] at enough
    exact readMembers_of_brace (back m List.mem_cons_self fuel ('\x7d' :: rest) (by omega) rfl)
  | cons n ns ih =>
    obtain _ | fuel := fuel
    · cases enough
    rw [List.length_append, memberChars, List.length_cons, List.length_append, List.length_cons] at enough
    have read := back m List.mem_cons_self fuel (memberChars (n :: ns) ++ rest) (by omega) rfl
    have next := ih (fun m' member => back m' (List.mem_cons_of_mem _ member)) fuel (by omega)
    rw [memberChars, List.cons_append, List.append_assoc, List.cons_append, List.append_assoc] at read ⊢
    rw [readMembers_of_comma read, next]
    rfl

/-- The text of a value is read as its draft. -/
theorem readsBack {v : Json} (integral : v.Integral) : v.ReadsBack := by
  induction integral with
  | null =>
    intro fuel rest enough _
    obtain _ | fuel := fuel
    · cases enough
    rfl
  | bool value =>
    intro fuel rest enough _
    obtain _ | fuel := fuel
    · cases enough
    cases value <;> rfl
  | integer fits => exact readsBack_integer fits
  | string s =>
    intro fuel rest enough _
    obtain _ | fuel := fuel
    · cases enough
    exact read_quoted fuel s rest
  | @array items each back =>
    intro fuel rest enough _
    obtain _ | fuel := fuel
    · cases enough
    cases items with
    | nil => rfl
    | cons v vs =>
      obtain ⟨c, more, same, solid, goesOn, -⟩ := exists_cons_chars (each v List.mem_cons_self)
      rw [chars, List.length_cons] at enough
      have read := readItems_chars each back fuel rest (by omega)
      rw [same, List.cons_append] at read
      rw [chars, List.cons_append, List.append_assoc, same, List.cons_append, read_array fuel _ solid goesOn, read]
      rfl
  | @object members each back =>
    intro fuel rest enough _
    obtain _ | fuel := fuel
    · cases enough
    cases members with
    | nil => rfl
    | cons m ms =>
      rw [chars, List.length_cons, List.length_append, List.length_cons] at enough
      have read := readMembers_chars back fuel rest (by omega)
      rw [chars, List.cons_append, List.append_assoc, List.cons_append, List.append_assoc, read_object, read]
      rfl

/-- To decode the text of a value is to decode its draft. -/
theorem decode_compact {α : Type} (decoder : Decoder α) {v : Json} (integral : v.Integral) :
    decode decoder v.compact = decoder depthLimit v.draft := by
  have read := readsBack integral (2 * v.compact.length + 2) []
    (by rw [compact, String.length_ofList]; omega) rfl
  rw [List.append_nil] at read
  rw [decode, Draft.ofText, compact, String.toList_ofList, ← compact, read]
  simp only
  cases decoder depthLimit v.draft <;> rfl

/-! ## Values of any kind -/

/-- Values that are read back as they are: the keys of their objects ascend, and they nest at
most `depth` deep. -/
inductive Readable : Nat → Json → Prop
  | null {depth : Nat} : Readable depth .null
  | bool {depth : Nat} (value : Bool) : Readable depth (.bool value)
  | integer {depth : Nat} {n : Int} (fits : Is64Bit n) : Readable depth (.number (.integer n))
  | string {depth : Nat} (value : String) : Readable depth (.string value)
  | array {depth : Nat} {items : List Json} (each : ∀ v ∈ items, Readable depth v) :
      Readable (depth + 1) (.array items)
  | object {depth : Nat} {members : List (String × Json)} (ascend : members.Pairwise (·.1 < ·.1))
      (each : ∀ m ∈ members, Readable depth m.2) : Readable (depth + 1) (.object members)

theorem Readable.integral {depth : Nat} {v : Json} (readable : v.Readable depth) : v.Integral := by
  induction readable with
  | null => exact .null
  | bool value => exact .bool value
  | integer fits => exact .integer fits
  | string value => exact .string value
  | array _ each => exact .array each
  | object _ _ each => exact .object each

theorem Readable.succ {depth : Nat} {v : Json} (readable : v.Readable depth) : v.Readable (depth + 1) := by
  induction readable with
  | null => exact .null
  | bool value => exact .bool value
  | integer fits => exact .integer fits
  | string value => exact .string value
  | array _ each => exact .array each
  | object ascend _ each => exact .object ascend each

/-- A member whose key comes after all others is put at the end. -/
theorem insert_at_end {members : Members} {key : String} (last : ∀ m ∈ members, m.1 < key) (v : Json) :
    members.insert key v = members ++ [(key, v)] := by
  induction members with
  | nil => rfl
  | cons m ms ih =>
    have before := last m List.mem_cons_self
    have notBefore : ¬ key < m.1 := fun after => String.lt_irrefl _ (String.lt_trans after before)
    have notSame : ¬ (key == m.1) = true := by
      rintro same
      rw [beq_iff_eq.mp same] at before
      exact String.lt_irrefl _ before
    rw [Members.insert, if_neg notBefore, if_neg notSame,
      ih fun m' member => last m' (List.mem_cons_of_mem _ member)]
    rfl

theorem values_draft {depth : Nat} {items : List Json}
    (each : ∀ v ∈ items, Decoder.value depth v.draft = .ok v) :
    Decoder.values depth (draftItems items) = .ok items := by
  induction items with
  | nil => rfl
  | cons v vs ih =>
    rw [draftItems, Decoder.values, each v List.mem_cons_self,
      ih fun u member => each u (List.mem_cons_of_mem _ member)]
    rfl

theorem memberValues_draft {depth : Nat} {members : List (String × Json)} {before : Members}
    (ascend : (before ++ members).Pairwise (·.1 < ·.1))
    (each : ∀ m ∈ members, Decoder.value depth m.2.draft = .ok m.2) :
    Decoder.memberValues depth (draftMembers members) before = .ok (before ++ members) := by
  induction members generalizing before with
  | nil =>
    rw [List.append_nil]
    rfl
  | cons m ms ih =>
    have last (m' : String × Json) (member : m' ∈ before) : m'.1 < m.1 :=
      (List.pairwise_append.mp ascend).2.2 m' member m List.mem_cons_self
    have whole : before ++ m :: ms = (before ++ [m]) ++ ms := by simp
    rw [whole] at ascend ⊢
    rw [draftMembers, Decoder.memberValues, each m List.mem_cons_self]
    exact (congrArg _ (insert_at_end last m.2)).trans
      (ih ascend fun m' member => each m' (List.mem_cons_of_mem _ member))

/-- A value of any kind is read back from its draft. -/
theorem value_draft {depth : Nat} {v : Json} (readable : v.Readable depth) :
    Decoder.value depth v.draft = .ok v := by
  induction readable with
  | null => rfl
  | bool value => rfl
  | integer fits => rfl
  | string value => rfl
  | array _ each =>
    rw [draft, Decoder.value, values_draft each]
    rfl
  | @object _ members ascend _ each =>
    have fromNone : ([] ++ members : Members).Pairwise (·.1 < ·.1) := ascend
    rw [draft, Decoder.value, memberValues_draft fromNone each]
    rfl

theorem members_draft {depth : Nat} {members : Members} (readable : (Json.object members).Readable depth) :
    Decoder.members depth (Json.object members).draft = .ok members := by
  cases readable with
  | object ascend each =>
    have fromNone : ([] ++ members : Members).Pairwise (·.1 < ·.1) := ascend
    exact memberValues_draft fromNone fun m member => value_draft (each m member)

end PlanService.Json
