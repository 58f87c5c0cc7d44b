/-!
# Spans of time as text

Spans are whole milliseconds. Below a second they are written in milliseconds, from a second on in
seconds with as many of the three decimals as are needed, and an empty span in nanoseconds.
-/

namespace SecureChannel.Text

/-- The decimals of a number of thousandths, without zeros at their end. -/
def decimals (thousandths : Nat) : List Char :=
  let digits := (Nat.toDigits 10 (1000 + thousandths)).drop 1
  (digits.reverse.dropWhile (· = '0')).reverse

/-- A span of so many milliseconds. -/
def duration (milliseconds : Nat) : String :=
  if milliseconds = 0 then "0ns"
  else if milliseconds < 1000 then s!"{milliseconds}ms"
  else
    match decimals (milliseconds % 1000) with
    | [] => s!"{milliseconds / 1000}s"
    | digits => s!"{milliseconds / 1000}.{String.ofList digits}s"

end SecureChannel.Text
