import PlanService.Json.Draft
import PlanService.Json.Printer

/-! # Strings and integers are read back

A quoted string says exactly the string that was quoted, whatever characters it is made of: what
is escaped is unescaped, and nothing else looks like an escape or like the closing quote.  The
digits of an integer within 64 bits say this integer, as long as what follows is no part of a
numeral.
-/

namespace PlanService

namespace Json

/-! ## Strings -/

theorem hexValue?_digitChar : ∀ n < 16, Draft.hexValue? n.digitChar = some n := by
  decide

theorem hexCode?_digitChar {high low : Nat} (isHigh : high < 16) (isLow : low < 16) :
    Draft.hexCode? '0' '0' high.digitChar low.digitChar = some (16 * high + low) := by
  have zero : Draft.hexValue? '0' = some 0 := by decide
  simp only [Draft.hexCode?, zero, hexValue?_digitChar high isHigh, hexValue?_digitChar low isLow,
    Option.bind_eq_bind, Option.bind_some, pure, Option.some.injEq]
  omega

theorem pieces_of_code {a b c d : Char} {code : Nat} (spelt : Draft.hexCode? a b c d = some code)
    (rest : List Char) :
    Draft.pieces ('\\' :: 'u' :: a :: b :: c :: d :: rest) =
      (Draft.pieces rest).map fun (ps, after) => (Draft.Piece.ofCode code :: ps, after) := by
  rw [Draft.pieces, spelt]
  cases Draft.pieces rest <;> rfl

theorem pieces_of_name {name c : Char} (known : Draft.escaped? name = some c) (rest : List Char) :
    Draft.pieces ('\\' :: name :: rest) =
      (Draft.pieces rest).map fun (ps, after) => (.char c :: ps, after) := by
  have noCode : name ≠ 'u' := by
    rintro rfl
    cases known
  rw [Draft.pieces, known]
  · cases Draft.pieces rest <;> rfl
  · exact fun _ _ _ _ _ isCode => absurd isCode noCode

theorem pieces_of_plain {c : Char} (quote : c ≠ '"') (backslash : c ≠ '\\') (control : ¬ c.toNat < 0x20)
    (rest : List Char) :
    Draft.pieces (c :: rest) = (Draft.pieces rest).map fun (ps, after) => (.char c :: ps, after) := by
  rw [Draft.pieces, if_neg (by simp [backslash, control])]
  · cases Draft.pieces rest <;> rfl
  · exact fun same => quote same
  · exact fun _ _ _ _ _ same => absurd same backslash
  · exact fun _ _ same => absurd same backslash

/-- One character, escaped or not, is read as one piece. -/
theorem pieces_escape (c : Char) (rest : List Char) :
    Draft.pieces (escape c ++ rest) =
      (Draft.pieces rest).map fun (ps, after) => (.char c :: ps, after) := by
  by_cases quote : c = '"'
  · exact quote ▸ pieces_of_name rfl rest
  by_cases backslash : c = '\\'
  · exact backslash ▸ pieces_of_name rfl rest
  by_cases newLine : c = '\n'
  · exact newLine ▸ pieces_of_name rfl rest
  by_cases carriageReturn : c = '\r'
  · exact carriageReturn ▸ pieces_of_name rfl rest
  by_cases tab : c = '\t'
  · exact tab ▸ pieces_of_name rfl rest
  by_cases backspace : c = '\x08'
  · exact backspace ▸ pieces_of_name rfl rest
  by_cases formFeed : c = '\x0c'
  · exact formFeed ▸ pieces_of_name rfl rest
  simp only [escape, quote, backslash, newLine, carriageReturn, tab, backspace, formFeed]
  by_cases control : c.toNat < 0x20
  · have code : 16 * (c.toNat / 16) + c.toNat % 16 = c.toNat := Nat.div_add_mod c.toNat 16
    have isChar : Draft.Piece.ofCode c.toNat = .char c := by
      rw [Draft.Piece.ofCode, if_neg (by omega), Char.ofNat_toNat]
    rw [if_pos control]
    have spelt := hexCode?_digitChar (show c.toNat / 16 < 16 by omega) (Nat.mod_lt c.toNat (by decide))
    rw [code] at spelt
    exact isChar ▸ pieces_of_code spelt rest
  · rw [if_neg control]
    exact pieces_of_plain quote backslash control rest

theorem pieces_quoted (cs rest : List Char) :
    Draft.pieces (cs.flatMap escape ++ '"' :: rest) = some (cs.map .char, rest) := by
  induction cs with
  | nil => rfl
  | cons c cs ih =>
    rw [List.flatMap_cons, List.append_assoc, pieces_escape, ih]
    rfl

theorem join_chars (cs : List Char) : Draft.join (cs.map .char) = some cs := by
  induction cs with
  | nil => rfl
  | cons c cs ih =>
    rw [List.map_cons, Draft.join, ih]
    rfl

/-- A quoted string is read back, up to its closing quote. -/
theorem readString_quoted (s : String) (rest : List Char) :
    Draft.readString (s.toList.flatMap escape ++ '"' :: rest) = some (some s, rest) := by
  simp only [Draft.readString, pieces_quoted, join_chars, Option.bind_eq_bind, Option.bind_some,
    Option.map_some, String.ofList_toList]
  rfl

/-! ## Integers -/

/-- Whether a text may go on like this after a value. -/
def endsValue : List Char → Bool
  | [] => true
  | c :: _ => c == ',' || c == ']' || c == '\x7d'

theorem takeWhile_digits {digits rest : List Char} (areDigits : ∀ c ∈ digits, c.isDigit = true)
    (ends : endsValue rest = true) : (digits ++ rest).takeWhile Char.isDigit = digits := by
  rw [List.takeWhile_append_of_pos areDigits]
  cases rest with
  | nil => simp
  | cons c rest =>
    simp only [endsValue, Bool.or_eq_true, beq_iff_eq] at ends
    rcases ends with (rfl | rfl) | rfl <;> simp

theorem dropWhile_digits {digits rest : List Char} (areDigits : ∀ c ∈ digits, c.isDigit = true)
    (ends : endsValue rest = true) : (digits ++ rest).dropWhile Char.isDigit = rest := by
  rw [List.dropWhile_append_of_pos areDigits]
  cases rest with
  | nil => rfl
  | cons c rest =>
    simp only [endsValue, Bool.or_eq_true, beq_iff_eq] at ends
    rcases ends with (rfl | rfl) | rfl <;> simp

/-- A numeral that ends with its digits has no fraction. -/
theorem readFraction_of_ends (negative : Bool) (digits : List Char) {rest : List Char}
    (ends : endsValue rest = true) :
    Draft.readFraction negative digits rest = some (Draft.whole negative digits, rest) := by
  cases rest with
  | nil => rfl
  | cons c rest =>
    simp only [endsValue, Bool.or_eq_true, beq_iff_eq] at ends
    rcases ends with (rfl | rfl) | rfl <;> rfl

/-- Numbers are written without leading zeros. -/
theorem toDigits_ne_zero_cons (n : Nat) (c : Char) (more : List Char) :
    Nat.toDigits 10 n ≠ '0' :: c :: more := by
  induction n using Nat.strongRecOn generalizing c more with
  | ind n ih =>
    intro leading
    by_cases small : n < 10
    · rw [Nat.toDigits_of_lt_base small] at leading
      simp at leading
    · rw [Nat.toDigits_of_base_le (by decide) (by omega)] at leading
      cases front : Nat.toDigits 10 (n / 10) with
      | nil => exact Nat.toDigits_ne_nil front
      | cons first others =>
        rw [front, List.cons_append] at leading
        injection leading with zero _
        subst zero
        cases others with
        | nil =>
          have value : Nat.ofDigitChars 10 (Nat.toDigits 10 (n / 10)) 0 = n / 10 := Nat.ofDigitChars_ten_toDigits
          rw [front] at value
          have : Nat.ofDigitChars 10 ['0'] 0 = 0 := rfl
          omega
        | cons other others => exact ih (n / 10) (by omega) other others front

theorem isDigit_of_mem_toDigits {n : Nat} : ∀ c ∈ Nat.toDigits 10 n, c.isDigit = true :=
  fun _ member => Nat.isDigit_of_mem_toDigits (by decide) (by decide) member

/-- The integers that are kept as such. -/
def Is64Bit (n : Int) : Prop := -(Nat.pow 2 63 : Nat) ≤ n ∧ n < (Nat.pow 2 64 : Nat)

/-- Reads a numeral whose sign has been read. -/
def readDigits (negative : Bool) (cs : List Char) : Option (Option Number × List Char) :=
  match cs.takeWhile Char.isDigit with
  | [] => none
  | '0' :: _ :: _ => none
  | digits => Draft.readFraction negative digits (cs.dropWhile Char.isDigit)

theorem readNumber_minus (cs : List Char) : Draft.readNumber ('-' :: cs) = readDigits true cs := rfl

theorem readNumber_of_ne_minus {cs : List Char} (noMinus : ∀ more, cs ≠ '-' :: more) :
    Draft.readNumber cs = readDigits false cs := by
  unfold Draft.readNumber
  split
  next negative read same =>
    split at same
    next more => exact absurd rfl (noMinus more)
    next =>
      injection same with unsigned all
      subst unsigned all
      rfl

theorem readDigits_toDigits (negative : Bool) (n : Nat) {rest : List Char} (ends : endsValue rest = true) :
    readDigits negative (Nat.toDigits 10 n ++ rest) =
      some (Draft.whole negative (Nat.toDigits 10 n), rest) := by
  have areDigits := isDigit_of_mem_toDigits (n := n)
  rw [readDigits, takeWhile_digits areDigits ends, dropWhile_digits areDigits ends]
  split
  next none => exact absurd none Nat.toDigits_ne_nil
  next c more leading => exact absurd leading (toDigits_ne_zero_cons n c more)
  next => exact readFraction_of_ends negative _ ends

/-- An integer is read back, up to the end of its digits. -/
theorem readNumber_intChars {n : Int} (fits : Is64Bit n) {rest : List Char} (ends : endsValue rest = true) :
    Draft.readNumber (Number.intChars n ++ rest) = some (some (.integer n), rest) := by
  obtain ⟨lower, upper⟩ := fits
  cases n with
  | ofNat n =>
    have small : n < Nat.pow 2 64 := Int.ofNat_lt.mp upper
    have noMinus (more : List Char) : Nat.toDigits 10 n ++ rest ≠ '-' :: more := by
      intro same
      cases digits : Nat.toDigits 10 n with
      | nil => exact Nat.toDigits_ne_nil digits
      | cons c others =>
        have isDigit := isDigit_of_mem_toDigits c (digits ▸ List.mem_cons_self)
        rw [digits, List.cons_append] at same
        injection same with minus _
        rw [minus] at isDigit
        cases isDigit
    have read := readDigits_toDigits false n ends
    rw [Draft.whole, Nat.ofDigitChars_ten_toDigits, if_neg (by decide), if_pos small] at read
    exact (readNumber_of_ne_minus noMinus).trans read
  | negSucc n =>
    have small : n + 1 ≤ Nat.pow 2 63 := by
      have := Int.negSucc_eq n
      omega
    have read := readDigits_toDigits true (n + 1) ends
    rw [Draft.whole, Nat.ofDigitChars_ten_toDigits, if_pos rfl, if_neg (Nat.succ_ne_zero n), if_pos small] at read
    exact (readNumber_minus _).trans read

end Json

end PlanService
