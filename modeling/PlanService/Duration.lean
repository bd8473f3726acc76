/-! # Lengths of time in words

Steps, timeouts and the clock count whole milliseconds.
-/

namespace PlanService

/-- A length of time in milliseconds. -/
abbrev Millis := Nat

namespace Millis

/-- Three digits after a point, without trailing zeros; nothing when all three are zero. -/
def fraction (thousandths : Nat) : String :=
  if thousandths == 0 then ""
  else if thousandths % 100 == 0 then s!".{thousandths / 100}"
  else if thousandths % 10 == 0 then
    s!".{thousandths / 100}{thousandths / 10 % 10}"
  else s!".{thousandths / 100}{thousandths / 10 % 10}{thousandths % 10}"

/-- A length of time as messages give it: milliseconds below a second, from then on seconds
with the digits that are needed, and nothing at all as `0ns`. -/
def text (ms : Millis) : String :=
  if ms == 0 then "0ns"
  else if ms < 1000 then s!"{ms}ms"
  else s!"{ms / 1000}{fraction (ms % 1000)}s"

end Millis

end PlanService
