import PlanService.Json.Printer

/-! # A value takes one line

No control character is written: strings escape theirs, and nothing else has any.  So a value that is
written without blanks is one line wherever lines are counted (`freeOfControls_chars`).
-/

namespace PlanService

/-- A text without control characters. -/
def FreeOfControls (cs : List Char) : Prop := ∀ c ∈ cs, 0x20 ≤ c.toNat

instance : DecidablePred FreeOfControls := fun cs =>
  decidable_of_iff (cs.all fun c => 0x20 ≤ c.toNat) (by simp [FreeOfControls])

namespace FreeOfControls

theorem nil : FreeOfControls [] := nofun

theorem cons {c : Char} {cs : List Char} (first : 0x20 ≤ c.toNat) (rest : FreeOfControls cs) :
    FreeOfControls (c :: cs) :=
  List.forall_mem_cons.mpr ⟨first, rest⟩

theorem append {cs ds : List Char} (first : FreeOfControls cs) (second : FreeOfControls ds) :
    FreeOfControls (cs ++ ds) :=
  List.forall_mem_append.mpr ⟨first, second⟩

end FreeOfControls

open FreeOfControls (nil cons append)

theorem freeOfControls_toDigits (n : Nat) : FreeOfControls (Nat.toDigits 10 n) := by
  intro c member
  have isDigit := Nat.isDigit_of_mem_toDigits (by decide) (by decide) member
  simp only [Char.isDigit, Bool.and_eq_true, decide_eq_true_eq, ge_iff_le, UInt32.le_iff_toNat_le] at isDigit
  exact Nat.le_trans (by decide) isDigit.1

namespace Binary64

theorem freeOfControls_replicate_zero (n : Nat) : FreeOfControls (List.replicate n '0') := by
  intro c member
  rw [List.eq_of_mem_replicate member]
  decide

theorem freeOfControls_spell (d : DecimalDigits) : FreeOfControls (spell d) := by
  have digits := freeOfControls_toDigits d.digits
  have front (n : Nat) : FreeOfControls ((decimal d.digits).take n) :=
    fun c member => digits c (List.mem_of_mem_take member)
  have back (n : Nat) : FreeOfControls ((decimal d.digits).drop n) :=
    fun c member => digits c (List.mem_of_mem_drop member)
  rw [spell]
  simp only
  split
  · exact append (append digits (freeOfControls_replicate_zero _)) (by decide)
  split
  · exact append (front _) (cons (by decide) (back _))
  split
  · exact append (append (by decide) (freeOfControls_replicate_zero _)) digits
  · refine append (append (append (front 1) ?_) (back 1)) (cons (by decide) (cons ?_ (freeOfControls_toDigits _)))
    · split <;> decide
    · split <;> decide

theorem freeOfControls_chars (x : Binary64) : FreeOfControls x.chars := by
  refine append ?_ ?_
  · split <;> decide
  · split
    · decide
    · exact freeOfControls_spell _

end Binary64

theorem Number.freeOfControls_chars (n : Number) : FreeOfControls n.chars := by
  cases n with
  | integer n =>
    cases n with
    | ofNat n => exact freeOfControls_toDigits n
    | negSucc n => exact cons (by decide) (freeOfControls_toDigits (n + 1))
  | real x => exact x.freeOfControls_chars

namespace Json

theorem hexDigit_not_control : ∀ n < 16, 0x20 ≤ n.digitChar.toNat := by
  decide

theorem freeOfControls_escape (c : Char) : FreeOfControls (escape c) := by
  have pair {c d : Char} (first : 0x20 ≤ c.toNat) (second : 0x20 ≤ d.toNat) : FreeOfControls [c, d] :=
    cons first (cons second nil)
  by_cases control : c.toNat < 0x20
  · have high : 0x20 ≤ (c.toNat / 16).digitChar.toNat := hexDigit_not_control _ (by omega)
    have low : 0x20 ≤ (c.toNat % 16).digitChar.toNat := hexDigit_not_control _ (by omega)
    simp only [escape, if_pos control]
    repeat' split
    all_goals
      first
        | exact pair (by decide) (by decide)
        | exact cons (by decide) (cons (by decide) (cons (by decide) (cons (by decide) (pair high low))))
  · have visible : FreeOfControls [c] := cons (Nat.le_of_not_lt control) nil
    simp only [escape, if_neg control]
    repeat' split
    all_goals
      first
        | exact pair (by decide) (by decide)
        | exact visible

theorem freeOfControls_quote (s : String) : FreeOfControls (quote s) := by
  refine cons (by decide) (append (fun c member => ?_) (by decide))
  obtain ⟨d, -, member⟩ := List.mem_flatMap.mp member
  exact freeOfControls_escape d c member

mutual

/-- No control character is written for a value. -/
theorem freeOfControls_chars (v : Json) : FreeOfControls v.chars := by
  match v with
  | .null | .bool true | .bool false | .array [] | .object [] =>
    rw [chars]
    decide
  | .number n => exact n.freeOfControls_chars
  | .string s => exact freeOfControls_quote s
  | .array (v :: rest) => exact cons (by decide) (append (freeOfControls_chars v) (freeOfControls_itemChars rest))
  | .object ((key, v) :: rest) =>
    exact cons (by decide) (append (freeOfControls_quote key)
      (cons (by decide) (append (freeOfControls_chars v) (freeOfControls_memberChars rest))))

theorem freeOfControls_itemChars (items : List Json) : FreeOfControls (itemChars items) := by
  match items with
  | [] =>
    rw [itemChars]
    decide
  | v :: rest => exact cons (by decide) (append (freeOfControls_chars v) (freeOfControls_itemChars rest))

theorem freeOfControls_memberChars (members : List (String × Json)) : FreeOfControls (memberChars members) := by
  match members with
  | [] =>
    rw [memberChars]
    decide
  | (key, v) :: rest =>
    exact cons (by decide) (append (freeOfControls_quote key)
      (cons (by decide) (append (freeOfControls_chars v) (freeOfControls_memberChars rest))))

end

end Json

end PlanService
