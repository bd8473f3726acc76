import Mathlib.Data.List.Flatten
import PlanService.Text.Utf8

/-! # Texts as bytes and back

The bytes of a text are read as this text (`decode_encode`).  A beginning of them is either cut in
the middle of a character, and refused, or the bytes of a beginning of the text
(`decode_take_encode`); so a reader who looks at the bytes that have come so far never sees
anything else than a part of what was sent.  No text has more bytes than it was read from
(`length_encode_le`).
-/

namespace PlanService.Text.Utf8

theorem toNat_toUInt8 {n : Nat} (small : n < 256) : n.toUInt8.toNat = n :=
  UInt8.toNat_ofNat_of_lt' small

theorem toUInt8_lt_iff {n : Nat} (small : n < 256) (bound : UInt8) : n.toUInt8 < bound ↔ n < bound.toNat := by
  rw [UInt8.lt_iff_toNat_lt, toNat_toUInt8 small]

theorem continuation?_byte {n : Nat} (low : n < 64) : continuation? (0x80 + n).toUInt8 = some n := by
  have value := toNat_toUInt8 (show 0x80 + n < 256 by omega)
  have isContinuation : 0x80 ≤ (0x80 + n).toUInt8 ∧ (0x80 + n).toUInt8 < 0xC0 := by
    simp only [UInt8.le_iff_toNat_le, UInt8.lt_iff_toNat_lt, value, UInt8.reduceToNat]
    omega
  simp only [continuation?, isContinuation, decide_true, Bool.and_self, if_true, value,
    Nat.add_sub_cancel_left]

theorem scalar?_toNat {least : Nat} {c : Char} (notShorter : least ≤ c.toNat) :
    scalar? least c.toNat = some c := by
  have valid : c.toNat.isValidChar := c.valid
  rw [scalar?, dif_pos valid, if_pos notShorter]
  rfl

/-! ## Sequences of each length -/

section

variable {x y z w : Nat} (rest : List UInt8)

theorem decode_one (low : x < 0x80) : decode (x.toUInt8 :: rest) = (decode rest).map (Char.ofNat x :: ·) := by
  have small : x < 256 := by omega
  rw [decode.eq_def]
  simp only [toUInt8_lt_iff small, UInt8.reduceToNat, low, if_true, toNat_toUInt8 small]

theorem decode_two (lead : x < 0x20) (second : y < 64) :
    decode ((0xC0 + x).toUInt8 :: (0x80 + y).toUInt8 :: rest) =
      (scalar? 0x80 (x * 64 + y)).bind fun c => (decode rest).map (c :: ·) := by
  have small : 0xC0 + x < 256 := by omega
  rw [decode.eq_def]
  simp only [toUInt8_lt_iff small, UInt8.reduceToNat, show ¬ 0xC0 + x < 128 by omega,
    show ¬ 0xC0 + x < 192 by omega, show 0xC0 + x < 224 by omega, if_false, if_true,
    continuation?_byte second, toNat_toUInt8 small, Nat.add_sub_cancel_left]
  cases scalar? 0x80 (x * 64 + y) <;> cases decode rest <;> rfl

theorem decode_three (lead : x < 0x10) (second : y < 64) (third : z < 64) :
    decode ((0xE0 + x).toUInt8 :: (0x80 + y).toUInt8 :: (0x80 + z).toUInt8 :: rest) =
      (scalar? 0x800 (x * 4096 + y * 64 + z)).bind fun c => (decode rest).map (c :: ·) := by
  have small : 0xE0 + x < 256 := by omega
  rw [decode.eq_def]
  simp only [toUInt8_lt_iff small, UInt8.reduceToNat, show ¬ 0xE0 + x < 128 by omega,
    show ¬ 0xE0 + x < 192 by omega, show ¬ 0xE0 + x < 224 by omega, show 0xE0 + x < 240 by omega,
    if_false, if_true, continuation?_byte second, continuation?_byte third, toNat_toUInt8 small,
    Nat.add_sub_cancel_left]
  cases scalar? 0x800 (x * 4096 + y * 64 + z) <;> cases decode rest <;> rfl

theorem decode_four (lead : x < 0x08) (second : y < 64) (third : z < 64) (fourth : w < 64) :
    decode ((0xF0 + x).toUInt8 :: (0x80 + y).toUInt8 :: (0x80 + z).toUInt8 :: (0x80 + w).toUInt8 :: rest) =
      (scalar? 0x10000 (x * 262144 + y * 4096 + z * 64 + w)).bind fun c => (decode rest).map (c :: ·) := by
  have small : 0xF0 + x < 256 := by omega
  rw [decode.eq_def]
  simp only [toUInt8_lt_iff small, UInt8.reduceToNat, show ¬ 0xF0 + x < 128 by omega,
    show ¬ 0xF0 + x < 192 by omega, show ¬ 0xF0 + x < 224 by omega, show ¬ 0xF0 + x < 240 by omega,
    show 0xF0 + x < 248 by omega, if_false, if_true, continuation?_byte second, continuation?_byte third,
    continuation?_byte fourth, toNat_toUInt8 small, Nat.add_sub_cancel_left]
  cases scalar? 0x10000 (x * 262144 + y * 4096 + z * 64 + w) <;> cases decode rest <;> rfl

end

/-! ## Sequences that are cut -/

section

variable {lead y z : Nat}

theorem decode_cut_one (several : 0xC0 ≤ lead) (small : lead < 256) : decode [lead.toUInt8] = none := by
  rw [decode.eq_def]
  simp only [toUInt8_lt_iff small, UInt8.reduceToNat, show ¬ lead < 128 by omega,
    show ¬ lead < 192 by omega, if_false]

theorem decode_cut_two (several : 0xE0 ≤ lead) (small : lead < 256) (second : y < 64) :
    decode [lead.toUInt8, (0x80 + y).toUInt8] = none := by
  rw [decode.eq_def]
  simp only [toUInt8_lt_iff small, UInt8.reduceToNat, show ¬ lead < 128 by omega,
    show ¬ lead < 192 by omega, show ¬ lead < 224 by omega, if_false, continuation?_byte second]

theorem decode_cut_three (several : 0xF0 ≤ lead) (small : lead < 256) (second : y < 64) (third : z < 64) :
    decode [lead.toUInt8, (0x80 + y).toUInt8, (0x80 + z).toUInt8] = none := by
  rw [decode.eq_def]
  simp only [toUInt8_lt_iff small, UInt8.reduceToNat, show ¬ lead < 128 by omega,
    show ¬ lead < 192 by omega, show ¬ lead < 224 by omega, show ¬ lead < 240 by omega, if_false,
    continuation?_byte second, continuation?_byte third]

end

/-! ## Texts -/

theorem toNat_lt (c : Char) : c.toNat < 0x110000 := by
  have valid : c.toNat.isValidChar := c.valid
  rcases valid with low | ⟨-, high⟩ <;> omega

/-- The bytes of a character are read as this character. -/
theorem decode_encodeChar (c : Char) (rest : List UInt8) :
    decode (encodeChar c ++ rest) = (decode rest).map (c :: ·) := by
  have bounded := toNat_lt c
  simp only [encodeChar]
  split
  next one =>
    rw [List.singleton_append, decode_one rest one, Char.ofNat_toNat]
  next several =>
  split
  next two =>
    have code : c.toNat / 64 * 64 + c.toNat % 64 = c.toNat := by omega
    have read := decode_two rest (show c.toNat / 64 < 0x20 by omega) (Nat.mod_lt c.toNat (show 0 < 64 by decide))
    rw [code, scalar?_toNat (by omega)] at read
    exact read
  next more =>
  split
  next three =>
    have code : c.toNat / 4096 * 4096 + c.toNat / 64 % 64 * 64 + c.toNat % 64 = c.toNat := by omega
    have read := decode_three rest (show c.toNat / 4096 < 0x10 by omega)
      (Nat.mod_lt (c.toNat / 64) (show 0 < 64 by decide)) (Nat.mod_lt c.toNat (show 0 < 64 by decide))
    rw [code, scalar?_toNat (by omega)] at read
    exact read
  next four =>
    have code : c.toNat / 262144 * 262144 + c.toNat / 4096 % 64 * 4096 + c.toNat / 64 % 64 * 64 +
      c.toNat % 64 = c.toNat := by omega
    have read := decode_four rest (show c.toNat / 262144 < 0x08 by omega)
      (Nat.mod_lt (c.toNat / 4096) (show 0 < 64 by decide)) (Nat.mod_lt (c.toNat / 64) (show 0 < 64 by decide))
      (Nat.mod_lt c.toNat (show 0 < 64 by decide))
    rw [code, scalar?_toNat (by omega)] at read
    exact read

theorem encode_cons (c : Char) (cs : List Char) : encode (c :: cs) = encodeChar c ++ encode cs := rfl

theorem decode_encode (cs : List Char) : decode (encode cs) = some cs := by
  induction cs with
  | nil => rfl
  | cons c cs ih => rw [encode_cons, decode_encodeChar, ih, Option.map_some]

/-- The bytes of a character are refused as long as one of them is missing. -/
theorem decode_take_encodeChar (c : Char) {n : Nat} (begun : 0 < n) (cut : n < (encodeChar c).length) :
    decode ((encodeChar c).take n) = none := by
  have bounded := toNat_lt c
  have second : c.toNat / 64 % 64 < 64 := Nat.mod_lt _ (by decide)
  have third : c.toNat / 4096 % 64 < 64 := Nat.mod_lt _ (by decide)
  rw [encodeChar] at cut ⊢
  split at cut
  next one => exact absurd cut (Nat.not_lt.mpr begun)
  next several =>
  rw [if_neg several]
  split at cut
  next two =>
    rw [if_pos two]
    match n with
    | 1 => exact decode_cut_one (by omega) (by omega)
    | n + 2 => exact absurd cut (by simp)
  next more =>
  rw [if_neg more]
  split at cut
  next three =>
    rw [if_pos three]
    match n with
    | 1 => exact decode_cut_one (by omega) (by omega)
    | 2 => exact decode_cut_two (by omega) (by omega) second
    | n + 3 => exact absurd cut (by simp)
  next four =>
    rw [if_neg four]
    match n with
    | 1 => exact decode_cut_one (by omega) (by omega)
    | 2 => exact decode_cut_two (by omega) (by omega) third
    | 3 => exact decode_cut_three (by omega) (by omega) third second
    | n + 4 => exact absurd cut (by simp)

/-- What has come of the bytes of a text is refused, or it says a beginning of the text; and all of
the text only if all has come. -/
theorem decode_take_encode (cs : List Char) (n : Nat) :
    decode ((encode cs).take n) = none ∨
      ∃ k, decode ((encode cs).take n) = some (cs.take k) ∧ (n < (encode cs).length → k < cs.length) := by
  induction cs generalizing n with
  | nil => exact .inr ⟨0, by simp [encode, decode], fun before => absurd before (by simp [encode])⟩
  | cons c cs ih =>
    rw [encode_cons, List.take_append]
    by_cases cut : n < (encodeChar c).length
    · have nothing : n - (encodeChar c).length = 0 := by omega
      rw [nothing, List.take_zero, List.append_nil]
      cases n with
      | zero => exact .inr ⟨0, by simp [decode], fun _ => Nat.succ_pos _⟩
      | succ n => exact .inl (decode_take_encodeChar c (Nat.succ_pos n) cut)
    · rw [List.take_of_length_le (Nat.le_of_not_lt cut), decode_encodeChar, List.length_append, List.length_cons]
      rcases ih (n - (encodeChar c).length) with refused | ⟨k, read, notAll⟩
      · exact .inl (by rw [refused]; rfl)
      · refine .inr ⟨k + 1, by rw [read]; rfl, fun before => Nat.succ_lt_succ (notAll (by omega))⟩

/-! ## Bytes of ASCII -/

theorem toNat_ofNat_ascii {n : Nat} (ascii : n < 128) : (Char.ofNat n).toNat = n := by
  have decided : ∀ n < 128, (Char.ofNat n).toNat = n := by decide
  exact decided n ascii

/-- A byte of ASCII is part of no character but its own. -/
theorem toNat_of_mem_encodeChar {c : Char} {b : UInt8} (member : b ∈ encodeChar c) (ascii : b < 0x80) :
    c.toNat = b.toNat := by
  have bounded := toNat_lt c
  have high {n : Nat} (lead : 0x80 ≤ n) (small : n < 256) (same : b = n.toUInt8) : False := by
    rw [same, toUInt8_lt_iff small] at ascii
    exact absurd ascii (Nat.not_lt.mpr lead)
  simp only [encodeChar] at member
  split at member
  next one =>
    rw [List.mem_singleton.mp member, toNat_toUInt8 (by omega)]
  next several =>
  exfalso
  split at member
  next two =>
    simp only [List.mem_cons, List.not_mem_nil, or_false] at member
    rcases member with same | same <;> exact high (by omega) (by omega) same
  next more =>
  split at member
  next three =>
    simp only [List.mem_cons, List.not_mem_nil, or_false] at member
    rcases member with same | same | same <;> exact high (by omega) (by omega) same
  next four =>
    simp only [List.mem_cons, List.not_mem_nil, or_false] at member
    rcases member with same | same | same | same <;> exact high (by omega) (by omega) same

/-- Bytes of ASCII are those of the text of their characters. -/
theorem encode_ascii {bytes : List UInt8} (ascii : ∀ b ∈ bytes, b < 0x80) :
    encode (bytes.map fun b => Char.ofNat b.toNat) = bytes := by
  induction bytes with
  | nil => rfl
  | cons b bytes ih =>
    have below : b.toNat < 128 := UInt8.lt_iff_toNat_lt.mp (ascii b List.mem_cons_self)
    have rest := ih fun other member => ascii other (List.mem_cons_of_mem _ member)
    rw [List.map_cons, encode_cons, encodeChar, toNat_ofNat_ascii below, if_pos below, rest]
    exact congrArg (· :: bytes) UInt8.ofNat_toNat

/-! ## Sizes -/

theorem length_encodeChar_le_one {c : Char} (below : c.toNat < 0x80) : (encodeChar c).length ≤ 1 := by
  simp only [encodeChar, below, if_true]
  exact Nat.le_refl 1

theorem length_encodeChar_le_two {c : Char} (below : c.toNat < 0x800) : (encodeChar c).length ≤ 2 := by
  simp only [encodeChar, below, if_true]
  split <;> simp

theorem length_encodeChar_le_three {c : Char} (below : c.toNat < 0x10000) : (encodeChar c).length ≤ 3 := by
  simp only [encodeChar, below, if_true]
  (repeat' split) <;> simp

theorem length_encodeChar_le_four (c : Char) : (encodeChar c).length ≤ 4 := by
  simp only [encodeChar]
  (repeat' split) <;> simp

theorem toNat_of_scalar? {least code : Nat} {c : Char} (read : scalar? least code = some c) : c.toNat = code := by
  rw [scalar?] at read
  by_cases valid : code.isValidChar
  · rw [dif_pos valid] at read
    by_cases enough : least ≤ code
    · rw [if_pos enough] at read
      cases read
      rfl
    · rw [if_neg enough] at read
      cases read
  · rw [dif_neg valid] at read
    cases read

theorem lt_of_continuation? {b : UInt8} {n : Nat} (read : continuation? b = some n) : n < 64 := by
  simp only [continuation?, Bool.and_eq_true, decide_eq_true_eq, UInt8.le_iff_toNat_le, UInt8.lt_iff_toNat_lt,
    UInt8.reduceToNat] at read
  split at read
  · have value := Option.some.inj read
    omega
  · cases read

/-- A text has no more bytes than it was read from. -/
theorem length_encode_le {bytes : List UInt8} {cs : List Char} (read : decode bytes = some cs) :
    (encode cs).length ≤ bytes.length := by
  have goesOn {used : Nat} {c : Char} {rest : List UInt8} {cs : List Char} (short : (encodeChar c).length ≤ used)
      (read : (decode rest).map (c :: ·) = some cs)
      (ih : ∀ {cs}, decode rest = some cs → (encode cs).length ≤ rest.length) :
      (encode cs).length ≤ rest.length + used := by
    obtain ⟨tail, readTail, rfl⟩ := Option.map_eq_some_iff.mp read
    rw [encode_cons, List.length_append, Nat.add_comm]
    exact Nat.add_le_add (ih readTail) short
  have follows (used : Nat) {least code : Nat} {rest : List UInt8} {cs : List Char}
      (short : ∀ c : Char, c.toNat = code → (encodeChar c).length ≤ used)
      (read : ((scalar? least code).bind fun c => (decode rest).bind fun tail => some (c :: tail)) = some cs)
      (ih : ∀ {cs}, decode rest = some cs → (encode cs).length ≤ rest.length) :
      (encode cs).length ≤ rest.length + used := by
    obtain ⟨c, isScalar, read⟩ := Option.bind_eq_some_iff.mp read
    obtain ⟨tail, readTail, same⟩ := Option.bind_eq_some_iff.mp read
    exact goesOn (short c (toNat_of_scalar? isScalar)) (by rw [readTail]; exact same) ih
  fun_induction decode bytes generalizing cs with
  | case1 =>
    cases read
    exact Nat.le_refl 0
  | case2 a rest one ih =>
    have below : a.toNat < 128 := UInt8.lt_iff_toNat_lt.mp one
    exact goesOn (length_encodeChar_le_one (by rwa [toNat_ofNat_ascii below])) read ih
  | case6 a _ _ b rest y second two ih =>
    have lead : a.toNat < 224 := UInt8.lt_iff_toNat_lt.mp two
    have low := lt_of_continuation? second
    exact follows 2 (fun c code => length_encodeChar_le_two (by omega)) read ih
  | case9 a _ _ b y second _ b' rest z third three ih =>
    have lead : a.toNat < 240 := UInt8.lt_iff_toNat_lt.mp three
    have low := lt_of_continuation? second
    have low' := lt_of_continuation? third
    exact follows 3 (fun c code => length_encodeChar_le_three (by omega)) read ih
  | case12 a _ _ b y _ _ b' z _ _ b'' rest w _ _ ih =>
    exact follows 4 (fun c _ => length_encodeChar_le_four c) read ih
  | case3 | case4 | case5 | case7 | case8 | case10 | case11 | case13 => cases read

/-- A text from which something is dropped has fewer bytes. -/
theorem eq_of_sublist_of_length_le {cs ds : List Char} (part : cs.Sublist ds)
    (asLong : (encode ds).length ≤ (encode cs).length) : cs = ds := by
  have bytes : encode cs = encode ds := (part.flatMap encodeChar).eq_of_length_le asLong
  have read := congrArg decode bytes
  rw [decode_encode, decode_encode] at read
  exact Option.some.inj read

end PlanService.Text.Utf8
