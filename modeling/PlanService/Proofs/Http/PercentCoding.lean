import PlanService.Http.Url
import PlanService.Proofs.Text.Utf8

/-! # What an encoded text means

A text is encoded byte by byte to stand in a path; what is written there then means what the text
meant as it was (`decodeText_encodeText`).  That is not the text: escapes in it are kept, since `%` is let
through, and are decoded in the end.

The encoded text is of ASCII, without the characters that end a path, and it has a slash only if the text
has one.
-/

namespace PlanService.Http

namespace PercentCoding

/-! ## Digits -/

/-- What is decided of all numbers below a bound holds of the bytes below it. -/
theorem of_toNat_lt {P : UInt8 → Prop} {bound : Nat} (decided : ∀ n < bound, P n.toUInt8) {b : UInt8}
    (below : b.toNat < bound) : P b := by
  have holds := decided b.toNat below
  rwa [show b.toNat.toUInt8 = b from UInt8.ofNat_toNat] at holds

theorem hexValue?_hexDigit {n : UInt8} (small : n.toNat < 16) : hexValue? (hexDigit n) = some n :=
  of_toNat_lt (P := fun n => hexValue? (hexDigit n) = some n) (by decide) small

theorem hexValue?_percent : hexValue? percent = none := rfl

theorem high_low (b : UInt8) :
    (b / 16).toNat < 16 ∧ (b % 16).toNat < 16 ∧ b / 16 * 16 + b % 16 = b := by
  have below := b.toNat_lt
  have high : (b / 16).toNat = b.toNat / 16 := UInt8.toNat_div b 16
  have low : (b % 16).toNat = b.toNat % 16 := UInt8.toNat_mod b 16
  refine ⟨by omega, by omega, UInt8.toNat_inj.mp ?_⟩
  rw [UInt8.toNat_add, UInt8.toNat_mul, high, low]
  simp
  omega

/-! ## Decoding -/

theorem decode_cons_of_ne {b : UInt8} (other : b ≠ percent) (rest : List UInt8) :
    decode (b :: rest) = b :: decode rest := by
  match rest with
  | [] => rfl
  | [_] => rfl
  | h :: l :: rest => rw [decode, if_neg other]

theorem decode_percent_of_hex {h l x y : UInt8} (high : hexValue? h = some x) (low : hexValue? l = some y)
    (rest : List UInt8) : decode (percent :: h :: l :: rest) = (x * 16 + y) :: decode rest := by
  simp [decode, high, low]

theorem decode_percent_of_not_hex {rest : List UInt8}
    (notHex : ∀ h l more, rest = h :: l :: more → hexValue? h = none ∨ hexValue? l = none) :
    decode (percent :: rest) = percent :: decode rest := by
  match rest with
  | [] => rfl
  | [_] => rfl
  | h :: l :: rest =>
    rw [decode, if_pos rfl]
    rcases notHex h l rest rfl with none | none
    · simp [none]
    · cases high : hexValue? h <;> simp [none]

/-- A byte that is written as an escape is that byte. -/
theorem decode_encodeByte (b : UInt8) (rest : List UInt8) : decode (encodeByte b ++ rest) = b :: decode rest := by
  obtain ⟨high, low, whole⟩ := high_low b
  exact (decode_percent_of_hex (hexValue?_hexDigit high) (hexValue?_hexDigit low) rest).trans (by rw [whole])

/-- Without escapes there is nothing to decode. -/
theorem decode_of_not_mem {bytes : List UInt8} (free : percent ∉ bytes) : decode bytes = bytes := by
  induction bytes with
  | nil => rfl
  | cons b bytes ih =>
    have other : b ≠ percent := fun same => free (same ▸ List.mem_cons_self)
    rw [decode_cons_of_ne other, ih fun member => free (List.mem_cons_of_mem _ member)]

theorem length_decode_le (bytes : List UInt8) : (decode bytes).length ≤ bytes.length := by
  fun_induction decode bytes with
  | case1 => exact Nat.le_refl 0
  | case2 h l rest high low isLow isHigh ih =>
    simp only [List.length_cons]
    omega
  | case3 h l rest notHex ih => exact Nat.succ_le_succ ih
  | case4 b h l rest other ih => exact Nat.succ_le_succ ih
  | case5 b rest short ih => exact Nat.succ_le_succ ih

/-! ## Texts -/

/-- A text without escapes means itself. -/
theorem decodeText_of_not_mem {cs : List Char} (free : '%' ∉ cs) : decodeText cs = some (String.ofList cs) := by
  have noEscape : percent ∉ Text.Utf8.encode cs := fun member => by
    obtain ⟨c, isPart, isByte⟩ := List.mem_flatMap.mp member
    have code := Text.Utf8.toNat_of_mem_encodeChar isByte (by decide)
    rw [← Char.ofNat_toNat c, code] at isPart
    exact free isPart
  rw [decodeText, decode_of_not_mem noEscape, Text.Utf8.decodeString, Text.Utf8.decode_encode, Option.map_some]

/-- What a text means is no longer than the text. -/
theorem length_encode_le_of_decodeText {cs : List Char} {meant : String} (read : decodeText cs = some meant) :
    (Text.Utf8.encode meant.toList).length ≤ (Text.Utf8.encode cs).length := by
  obtain ⟨ds, decoded, rfl⟩ := Option.map_eq_some_iff.mp read
  rw [String.toList_ofList]
  exact Nat.le_trans (Text.Utf8.length_encode_le decoded) (length_decode_le _)

/-! ## Encoding -/

variable {safe : UInt8 → Bool}

theorem encode_cons (safe : UInt8 → Bool) (b : UInt8) (bytes : List UInt8) :
    encode safe (b :: bytes) = (if safe b then [b] else encodeByte b) ++ encode safe bytes := rfl

/-- Two digits are not made of bytes that are none. -/
theorem not_hex_encode {bytes : List UInt8}
    (notHex : ∀ h l more, bytes = h :: l :: more → hexValue? h = none ∨ hexValue? l = none) :
    ∀ h l more, encode safe bytes = h :: l :: more → hexValue? h = none ∨ hexValue? l = none := by
  intro h l more begins
  match bytes with
  | [] => cases begins
  | b :: rest =>
    rw [encode_cons] at begins
    split at begins
    · rw [List.singleton_append] at begins
      obtain ⟨rfl, goesOn⟩ := List.cons.inj begins
      match rest with
      | [] => cases goesOn
      | c :: rest =>
        rw [encode_cons] at goesOn
        split at goesOn
        · obtain ⟨rfl, -⟩ := List.cons.inj goesOn
          exact notHex b c rest rfl
        · obtain ⟨rfl, -⟩ := List.cons.inj goesOn
          exact .inr hexValue?_percent
    · obtain ⟨rfl, -⟩ := List.cons.inj begins
      exact .inl hexValue?_percent

/-- What is encoded without touching escapes means the same. -/
theorem decode_encode (hexSafe : ∀ b, hexValue? b ≠ none → safe b = true) (percentSafe : safe percent = true)
    (bytes : List UInt8) : decode (encode safe bytes) = decode bytes := by
  have single {b : UInt8} {rest : List UInt8} (other : b ≠ percent)
      (ih : decode (encode safe rest) = decode rest) : decode (encode safe (b :: rest)) = b :: decode rest := by
    rw [encode_cons]
    split
    · rw [List.singleton_append, decode_cons_of_ne other, ih]
    · rw [decode_encodeByte, ih]
  have literal {rest : List UInt8}
      (notHex : ∀ h l more, rest = h :: l :: more → hexValue? h = none ∨ hexValue? l = none)
      (ih : decode (encode safe rest) = decode rest) :
      decode (encode safe (percent :: rest)) = percent :: decode rest := by
    rw [encode_cons, if_pos percentSafe, List.singleton_append, decode_percent_of_not_hex (not_hex_encode notHex), ih]
  fun_induction decode bytes with
  | case1 => rfl
  | case2 h l rest high low isLow isHigh ih =>
    have highSafe : safe h = true := hexSafe h (by simp [isHigh])
    have lowSafe : safe l = true := hexSafe l (by simp [isLow])
    rw [encode_cons, encode_cons, encode_cons, if_pos percentSafe, if_pos highSafe, if_pos lowSafe]
    simp only [List.singleton_append]
    rw [decode_percent_of_hex isHigh isLow, ih]
  | case3 h l rest notHex ih =>
    refine literal ?_ ih
    rintro h l more ⟨⟩
    cases isHigh : hexValue? h with
    | none => exact .inl rfl
    | some high => exact .inr (Option.eq_none_iff_forall_ne_some.mpr fun low isLow => notHex high low isHigh isLow)
  | case4 b h l rest other ih => exact single other ih
  | case5 b rest short ih =>
    by_cases isPercent : b = percent
    · subst isPercent
      exact literal (fun h l more same => absurd same (short h l more)) ih
    · exact single isPercent ih

/-- What stands in an encoded text was there, or is part of an escape. -/
theorem mem_encode {b : UInt8} {bytes : List UInt8} (member : b ∈ encode safe bytes) :
    (b ∈ bytes ∧ safe b = true) ∨ b = percent ∨ ∃ n, n.toNat < 16 ∧ b = hexDigit n := by
  obtain ⟨source, isSource, made⟩ := List.mem_flatMap.mp member
  split at made
  next isSafe =>
    cases List.mem_singleton.mp made
    exact .inl ⟨isSource, isSafe⟩
  next =>
    obtain ⟨high, low, -⟩ := high_low source
    rcases List.mem_cons.mp made with rfl | made
    · exact .inr (.inl rfl)
    · simp only [List.mem_cons, List.not_mem_nil, or_false] at made
      rcases made with rfl | rfl
      · exact .inr (.inr ⟨_, high, rfl⟩)
      · exact .inr (.inr ⟨_, low, rfl⟩)

end PercentCoding

namespace Url

open PercentCoding (percent hexValue? hexDigit of_toNat_lt)

/-! ## Texts in a path -/

theorem lt_of_isPathSafe {b : UInt8} (isSafe : isPathSafe b = true) : b < 0x80 := by
  simp only [isPathSafe, Bool.and_eq_true, decide_eq_true_eq] at isSafe
  have below : b.toNat < 127 := UInt8.lt_iff_toNat_lt.mp isSafe.1.2
  exact UInt8.lt_iff_toNat_lt.mpr (Nat.lt_succ_of_lt below)

theorem isPathSafe_hex (b : UInt8) (isHex : hexValue? b ≠ none) : isPathSafe b = true := by
  have below : b.toNat < 128 := by
    refine Nat.lt_of_not_le fun high => isHex ?_
    simp only [hexValue?, Bool.and_eq_true, decide_eq_true_eq, UInt8.le_iff_toNat_le, UInt8.reduceToNat]
    rw [if_neg (by omega), if_neg (by omega), if_neg (by omega)]
  exact of_toNat_lt (P := fun b => hexValue? b ≠ none → isPathSafe b = true) (by decide) below isHex

theorem isPathSafe_of_mem_encode {b : UInt8} {bytes : List UInt8} (member : b ∈ PercentCoding.encode isPathSafe bytes) :
    isPathSafe b = true := by
  rcases PercentCoding.mem_encode member with ⟨-, isSafe⟩ | rfl | ⟨n, small, rfl⟩
  · exact isSafe
  · decide
  · exact isPathSafe_hex _ (by simp [PercentCoding.hexValue?_hexDigit small])

/-- The bytes of an encoded text are the encoded bytes. -/
theorem encode_encodeText (cs : List Char) :
    Text.Utf8.encode (encodeText isPathSafe cs) = PercentCoding.encode isPathSafe (Text.Utf8.encode cs) :=
  Text.Utf8.encode_ascii fun _ member => lt_of_isPathSafe (isPathSafe_of_mem_encode member)

/-- An encoded text means what it meant as it was. -/
theorem decodeText_encodeText (cs : List Char) :
    PercentCoding.decodeText (encodeText isPathSafe cs) = PercentCoding.decodeText cs := by
  rw [PercentCoding.decodeText, encode_encodeText, PercentCoding.decode_encode isPathSafe_hex (by decide)]
  rfl

theorem isPathSafe_of_mem_encodeText {c : Char} {cs : List Char} (member : c ∈ encodeText isPathSafe cs) :
    isPathSafe c.toNat.toUInt8 = true := by
  obtain ⟨b, isByte, rfl⟩ := List.mem_map.mp member
  have isSafe := isPathSafe_of_mem_encode isByte
  rw [Text.Utf8.toNat_ofNat_ascii (UInt8.lt_iff_toNat_lt.mp (lt_of_isPathSafe isSafe))]
  rwa [show b.toNat.toUInt8 = b from UInt8.ofNat_toNat]

/-- No slash comes in that was not there. -/
theorem slash_mem_of_encodeText {cs : List Char} (member : '/' ∈ encodeText isPathSafe cs) : '/' ∈ cs := by
  obtain ⟨b, isByte, isSlash⟩ := List.mem_map.mp member
  have ascii := lt_of_isPathSafe (isPathSafe_of_mem_encode isByte)
  have slash : b.toNat = 47 := by
    rw [← Text.Utf8.toNat_ofNat_ascii (UInt8.lt_iff_toNat_lt.mp ascii), isSlash]
    rfl
  rcases PercentCoding.mem_encode isByte with ⟨source, -⟩ | rfl | ⟨n, small, rfl⟩
  · obtain ⟨c, isPart, isByte⟩ := List.mem_flatMap.mp source
    have same := Text.Utf8.toNat_of_mem_encodeChar isByte ascii
    rw [← Char.ofNat_toNat c, same, isSlash] at isPart
    exact isPart
  · cases slash
  · exact absurd slash (of_toNat_lt (P := fun n => (hexDigit n).toNat ≠ 47) (by decide) small)

theorem encodeText_eq_nil {cs : List Char} (none : encodeText isPathSafe cs = []) : cs = [] := by
  have noBytes := List.map_eq_nil_iff.mp none
  have nothing : Text.Utf8.encode cs = [] := by
    cases bytes : Text.Utf8.encode cs with
    | nil => rfl
    | cons b rest =>
      rw [bytes, PercentCoding.encode_cons] at noBytes
      split at noBytes <;> cases noBytes
  have read := Text.Utf8.decode_encode cs
  rw [nothing] at read
  exact (Option.some.inj read).symm

end Url

end PlanService.Http
