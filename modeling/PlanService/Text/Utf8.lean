/-! # UTF-8

Texts as bytes and back.  `encode` writes one to four bytes per character; `decode`
accepts the shortest form of each scalar value and refuses everything else: stray
continuation bytes, overlong forms, surrogates, values past `10FFFF` and cut sequences.
-/

namespace PlanService.Text.Utf8

def encodeChar (c : Char) : List UInt8 :=
  let code := c.toNat
  if code < 0x80 then [code.toUInt8]
  else if code < 0x800 then
    [(0xC0 + code / 64).toUInt8, (0x80 + code % 64).toUInt8]
  else if code < 0x10000 then
    [(0xE0 + code / 4096).toUInt8, (0x80 + code / 64 % 64).toUInt8, (0x80 + code % 64).toUInt8]
  else
    [(0xF0 + code / 262144).toUInt8, (0x80 + code / 4096 % 64).toUInt8,
     (0x80 + code / 64 % 64).toUInt8, (0x80 + code % 64).toUInt8]

def encode (s : List Char) : List UInt8 :=
  s.flatMap encodeChar

def continuation? (b : UInt8) : Option Nat :=
  if 0x80 ≤ b && b < 0xC0 then some (b.toNat - 0x80) else none

/-- The character with this code point, if it is a scalar value not below `least`: a
code point below the least one of its length is an overlong form. -/
def scalar? (least code : Nat) : Option Char :=
  if h : code.isValidChar then
    if least ≤ code then some (Char.ofNatAux code h) else none
  else none

/-- The text with these bytes, if they are well formed. -/
def decode : List UInt8 → Option (List Char)
  | [] => some []
  | a :: r =>
    if a < 0x80 then (decode r).map (Char.ofNat a.toNat :: ·)
    else if a < 0xC0 then none
    else
      match r with
      | [] => none
      | b :: r =>
        match continuation? b with
        | none => none
        | some y =>
          if a < 0xE0 then do
            let c ← scalar? 0x80 ((a.toNat - 0xC0) * 64 + y)
            return c :: (← decode r)
          else
            match r with
            | [] => none
            | b :: r =>
              match continuation? b with
              | none => none
              | some z =>
                if a < 0xF0 then do
                  let c ← scalar? 0x800 ((a.toNat - 0xE0) * 4096 + y * 64 + z)
                  return c :: (← decode r)
                else
                  match r with
                  | [] => none
                  | b :: r =>
                    match continuation? b with
                    | none => none
                    | some w =>
                      if a < 0xF8 then do
                        let c ← scalar? 0x10000
                          ((a.toNat - 0xF0) * 262144 + y * 4096 + z * 64 + w)
                        return c :: (← decode r)
                      else none

def decodeString (bytes : List UInt8) : Option String :=
  (decode bytes).map String.ofList

end PlanService.Text.Utf8
