/-!
# Durations

A duration of whole milliseconds is shown in seconds from one second on, with the fraction's
trailing zeros left out, in milliseconds below, and as `0ns` when it is zero.
-/

namespace LikelyInvariants

/-- The digits after the point of `ms` thousandths, without trailing zeros. -/
def fractionDigits (ms : Nat) : List Char :=
  let digits := Nat.toDigits 10 ms
  let padded := List.replicate (3 - digits.length) '0' ++ digits
  (padded.reverse.dropWhile (· == '0')).reverse

/-- The text of a duration of `ms` milliseconds. -/
def durationText (ms : Nat) : String :=
  if ms = 0 then "0ns"
  else if ms < 1000 then s!"{ms}ms"
  else
    match fractionDigits (ms % 1000) with
    | [] => s!"{ms / 1000}s"
    | digits => s!"{ms / 1000}." ++ String.ofList digits ++ "s"

end LikelyInvariants
