/-!
# Spans of time

A `Duration` is a number of nanoseconds.  Its text names the largest unit that the span reaches and
gives the rest as a decimal fraction without trailing zeros.
-/

namespace Phrasebook

/-- A span of time in nanoseconds. -/
structure Duration where
  nanoseconds : Nat
  deriving DecidableEq, Repr

namespace Duration

/-- A span of whole milliseconds. -/
def ofMilliseconds (n : Nat) : Duration := ⟨n * 1000000⟩

/-- A span of whole seconds. -/
def ofSeconds (n : Nat) : Duration := ⟨n * 1000000000⟩

/-- The whole milliseconds of a span. -/
def milliseconds (d : Duration) : Nat := d.nanoseconds / 1000000

/-- The whole seconds of a span. -/
def seconds (d : Duration) : Nat := d.nanoseconds / 1000000000

/-- The digits after the point of `rest / 10 ^ places`, without trailing zeros. -/
def fraction (places rest : Nat) : List Char :=
  let digits := Nat.toDigits 10 rest
  let padded := List.replicate (places - digits.length) '0' ++ digits
  (padded.reverse.dropWhile fun c => c = '0').reverse

/-- A span in a unit of `10 ^ places` nanoseconds. -/
def textIn (places : Nat) (unit : String) (d : Duration) : String :=
  let whole := Nat.repr (d.nanoseconds / Nat.pow 10 places)
  match fraction places (d.nanoseconds % Nat.pow 10 places) with
  | [] => whole ++ unit
  | digits => whole ++ "." ++ String.ofList digits ++ unit

/-- The text of a span, in the largest unit it reaches. -/
def text (d : Duration) : String :=
  if 1000000000 ≤ d.nanoseconds then d.textIn 9 "s"
  else if 1000000 ≤ d.nanoseconds then d.textIn 6 "ms"
  else if 1000 ≤ d.nanoseconds then d.textIn 3 "µs"
  else Nat.repr d.nanoseconds ++ "ns"

end Duration

end Phrasebook
