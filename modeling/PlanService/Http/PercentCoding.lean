import PlanService.Text.Utf8

/-! # Percent-coding

In a path any byte can be written as `%` and two hexadecimal digits.  Decoding leaves a `%`
that is not followed by two digits as it is, so it never fails on bytes; the bytes may
still be no text.
-/

namespace PlanService.Http.PercentCoding

def hexValue? (b : UInt8) : Option UInt8 :=
  if 48 ≤ b && b ≤ 57 then some (b - 48)
  else if 65 ≤ b && b ≤ 70 then some (b - 55)
  else if 97 ≤ b && b ≤ 102 then some (b - 87)
  else none

def hexDigit (n : UInt8) : UInt8 :=
  if n < 10 then n + 48 else n + 55

def percent : UInt8 := 37

def encodeByte (b : UInt8) : List UInt8 :=
  [percent, hexDigit (b / 16), hexDigit (b % 16)]

def encode (safe : UInt8 → Bool) (bytes : List UInt8) : List UInt8 :=
  bytes.flatMap fun b => if safe b then [b] else encodeByte b

def decode : List UInt8 → List UInt8
  | [] => []
  | b :: h :: l :: rest =>
    if b = percent then
      match hexValue? h, hexValue? l with
      | some h, some l => (h * 16 + l) :: decode rest
      | _, _ => b :: decode (h :: l :: rest)
    else b :: decode (h :: l :: rest)
  | b :: rest => b :: decode rest

/-- The text that a part of a path means; none if its bytes are no UTF-8. -/
def decodeText (cs : List Char) : Option String :=
  Text.Utf8.decodeString (decode (Text.Utf8.encode cs))

end PlanService.Http.PercentCoding
