import Phrasebook.Number.Integer

/-!
# Binary floating-point numbers in decimal text

A number of a binary floating-point format is a whole mantissa times a power of two.  Reading rounds
a decimal text to the nearest number of the format, a tie going to the even mantissa.  Writing gives
the fewest digits that read back as the same number, and of those the nearest to it; it never uses
an exponent.

## Main definitions

- `FloatFormat` is a precision with the range of exponents; `single` and `double` are the usual two.
- `BinaryFloat` is a number of a format.
- `roundRatio` rounds a quotient of whole numbers; `read?` reads a decimal text with it.
- `ofRoundedParts` rounds digits and a power of ten before it multiplies them.
- `shortest` finds the fewest digits; `BinaryFloat.text` writes a number.

## Design notes

All arithmetic is exact, in whole numbers.  For one digit, two digits and so on, the multiples of a
power of ten on either side of the number are tried; the first digit count with a multiple that
rounds back to the number is the shortest one.
-/

namespace Phrasebook.Number

/-- A binary floating-point format.  A number is a mantissa below `2 ^ precision` times two to an
exponent between the two bounds. -/
structure FloatFormat where
  precision : Nat
  minExponent : Int
  maxExponent : Int
  deriving DecidableEq, Repr

/-- The format of 32 bits. -/
def FloatFormat.single : FloatFormat := ⟨24, -149, 104⟩

/-- The format of 64 bits. -/
def FloatFormat.double : FloatFormat := ⟨53, -1074, 971⟩

/-- A number of a binary floating-point format. -/
inductive BinaryFloat where
  | nan
  | infinite (negative : Bool)
  | finite (negative : Bool) (mantissa : Nat) (exponent : Int)
  deriving DecidableEq, Repr

/-- A quotient rounded to the nearest whole number, a tie to the even one. -/
def roundDiv (numerator denominator : Nat) : Nat :=
  let quotient := numerator / denominator
  let twice := 2 * (numerator % denominator)
  if denominator < twice ∨ (denominator = twice ∧ quotient % 2 = 1) then quotient + 1 else quotient

/-- `numerator / denominator` divided by `base ^ exponent`, as a quotient again. -/
def scaleDown (base : Nat) (exponent : Int) (numerator denominator : Nat) : Nat × Nat :=
  (numerator * Nat.pow base (-exponent).toNat, denominator * Nat.pow base exponent.toNat)

/-- The exponent of the largest power of two that is no larger than a positive quotient. -/
def floorLog2 (numerator denominator : Nat) : Int :=
  let guess : Int := (Nat.log2 numerator : Int) - (Nat.log2 denominator : Int)
  let (n, d) := scaleDown 2 guess numerator denominator
  if n < d then guess - 1 else guess

/-- The number of the format nearest to a positive quotient. -/
def roundRatio (format : FloatFormat) (negative : Bool) (numerator denominator : Nat) :
    BinaryFloat :=
  let lead := floorLog2 numerator denominator
  let exponent := max format.minExponent (lead - ((format.precision : Int) - 1))
  let (n, d) := scaleDown 2 exponent numerator denominator
  let mantissa := roundDiv n d
  let (mantissa, exponent) :=
    if mantissa = Nat.pow 2 format.precision then (mantissa / 2, exponent + 1)
    else (mantissa, exponent)
  if format.maxExponent < exponent then .infinite negative
  else .finite negative mantissa exponent

/-- The number of the format nearest to `digits * 10 ^ exponent`.  Exponents beyond every format are
answered without computing the power. -/
def ofDecimal (format : FloatFormat) (negative : Bool) (digits : Nat) (exponent : Int) :
    BinaryFloat :=
  if digits = 0 then .finite negative 0 format.minExponent
  else
    let magnitude := ((Nat.toDigits 10 digits).length : Int) + exponent
    if 400 < magnitude then .infinite negative
    else if magnitude < -400 then .finite negative 0 format.minExponent
    else
      roundRatio format negative (digits * Nat.pow 10 exponent.toNat) (Nat.pow 10 (-exponent).toNat)

/-- The number of the format nearest to the product of two magnitudes. -/
def roundProduct (format : FloatFormat) (negative : Bool) : BinaryFloat → BinaryFloat → BinaryFloat
  | .finite _ m e, .finite _ n f =>
    let (numerator, denominator) := scaleDown 2 (-(e + f)) (m * n) 1
    roundRatio format negative numerator denominator
  | _, _ => .infinite negative

/-- `digits * 10 ^ exponent`, where the digits and the power of ten are rounded to the format before
they are multiplied, and the product again.  With an exponent below zero the nearest number. -/
def ofRoundedParts (format : FloatFormat) (negative : Bool) (digits : Nat) (exponent : Int) :
    BinaryFloat :=
  if digits = 0 ∨ exponent < 0 then ofDecimal format negative digits exponent
  else if 400 < exponent then .infinite negative
  else
    roundProduct format negative (roundRatio format false digits 1)
      (roundRatio format false (Nat.pow 10 exponent.toNat) 1)

/-- The number that decimal digits write; other characters count as zero. -/
def digitsValue (digits : List Char) : Nat :=
  digits.foldl (fun value c => 10 * value + (decimalDigit? c).getD 0) 0

/-- Reads an exponent mark and what follows it; no text is no exponent. -/
def readExponent? : List Char → Option Int
  | [] => some 0
  | mark :: rest =>
    if mark = 'e' ∨ mark = 'E' then
      let (negative, digits) :=
        match rest with
        | '-' :: digits => (true, digits)
        | '+' :: digits => (false, digits)
        | digits => (false, digits)
      if digits ≠ [] ∧ digits.all Char.isDigit then
        some (if negative then - (digitsValue digits : Int) else (digitsValue digits : Int))
      else none
    else none

/-- Reads digits with an optional point among them and an optional exponent. -/
def readUnsigned? (format : FloatFormat) (negative : Bool) (text : List Char) :
    Option BinaryFloat :=
  let whole := text.takeWhile Char.isDigit
  let afterWhole := text.dropWhile Char.isDigit
  let (fraction, afterFraction) :=
    match afterWhole with
    | '.' :: rest => (rest.takeWhile Char.isDigit, rest.dropWhile Char.isDigit)
    | rest => ([], rest)
  if whole = [] ∧ fraction = [] then none
  else
    (readExponent? afterFraction).map fun exponent =>
      ofDecimal format negative (digitsValue (whole ++ fraction)) (exponent - fraction.length)

/-- Reads a sign and a number, or one of the words for infinity and for no number in any case. -/
def read? (format : FloatFormat) (text : List Char) : Option BinaryFloat :=
  let (negative, rest) :=
    match text with
    | '-' :: rest => (true, rest)
    | '+' :: rest => (false, rest)
    | rest => (false, rest)
  let word := rest.map Char.toLower
  if word = "inf".toList ∨ word = "infinity".toList then some (.infinite negative)
  else if word = "nan".toList then some .nan
  else readUnsigned? format negative rest

/-- The exponent of the largest power of ten that is no larger than a positive quotient. -/
def floorLog10 (numerator denominator : Nat) : Int :=
  let guess : Int := (floorLog2 numerator denominator * 30103) / 100000
  let atLeast (exponent : Int) : Bool :=
    let (n, d) := scaleDown 10 exponent numerator denominator
    d ≤ n
  if atLeast (guess + 1) then guess + 1 else if atLeast guess then guess else guess - 1

/-- The decimal numbers that round to a given binary number lie between two bounds.  All three are
given as multiples of the same quarter of the last place. -/
structure RoundingInterval where
  low : Nat
  center : Nat
  high : Nat
  exponent : Int
  closed : Bool

/-- The numbers that round to a positive number of a format.  Below a power of two the numbers lie
closer together.  The bounds belong to the interval when the mantissa is even. -/
def roundingInterval (format : FloatFormat) (mantissa : Nat) (exponent : Int) :
    RoundingInterval where
  low :=
    if mantissa = Nat.pow 2 (format.precision - 1) ∧ format.minExponent < exponent then
      4 * mantissa - 1
    else 4 * mantissa - 2
  center := 4 * mantissa
  high := 4 * mantissa + 2
  exponent := exponent - 2
  closed := mantissa % 2 = 0

/-- The multiple of `10 ^ grid` nearest to the center of an interval among those on either side that
lie in the interval; of two equally near ones the larger. -/
def RoundingInterval.nearest? (interval : RoundingInterval) (grid : Int) : Option Nat :=
  let scaled (n : Nat) : Nat := n * Nat.pow 2 interval.exponent.toNat * Nat.pow 10 (-grid).toNat
  let unit := Nat.pow 2 (-interval.exponent).toNat * Nat.pow 10 grid.toNat
  let low := scaled interval.low
  let center := scaled interval.center
  let high := scaled interval.high
  let inside (candidate : Nat) : Bool :=
    let point := candidate * unit
    if interval.closed then low ≤ point && point ≤ high else low < point && point < high
  let below := center / unit
  let above := below + 1
  if inside above && (!inside below || above * unit - center ≤ center - below * unit) then
    some above
  else if inside below then some below
  else none

/-- Tries grids of one digit more at a time, for at most the given number of digits. -/
def shortestFrom (interval : RoundingInterval) : Nat → Int → Nat × Int
  | 0, grid => ((interval.nearest? grid).getD 0, grid)
  | digits + 1, grid =>
    match interval.nearest? grid with
    | some candidate => (candidate, grid)
    | none => shortestFrom interval digits (grid - 1)

/-- The fewest decimal digits that round to a positive number of a format, and the exponent of ten
of the last of them.  Seventeen digits are enough for the formats above. -/
def shortest (format : FloatFormat) (mantissa : Nat) (exponent : Int) : Nat × Int :=
  let (n, d) := scaleDown 2 (-exponent) mantissa 1
  shortestFrom (roundingInterval format mantissa exponent) 17 (floorLog10 n d)

/-- Drops zeros from the end of a decimal number, at most the given number of them. -/
def dropZeros : Nat → Nat × Int → Nat × Int
  | 0, number => number
  | count + 1, (digits, exponent) =>
    if digits ≠ 0 ∧ digits % 10 = 0 then dropZeros count (digits / 10, exponent + 1)
    else (digits, exponent)

/-- Writes `digits * 10 ^ exponent` with a point and without an exponent. -/
def positional (digits : Nat) (exponent : Int) : List Char :=
  let (digits, exponent) := dropZeros 17 (digits, exponent)
  let written := Nat.toDigits 10 digits
  if 0 ≤ exponent then written ++ List.replicate exponent.toNat '0'
  else
    let places := (-exponent).toNat
    if places < written.length then
      written.take (written.length - places) ++ '.' :: written.drop (written.length - places)
    else '0' :: '.' :: List.replicate (places - written.length) '0' ++ written

/-- The text of a number of a format. -/
def BinaryFloat.text (format : FloatFormat) : BinaryFloat → String
  | .nan => "NaN"
  | .infinite negative => if negative then "-inf" else "inf"
  | .finite negative mantissa exponent =>
    let magnitude :=
      if mantissa = 0 then ['0']
      else
        let (digits, grid) := shortest format mantissa exponent
        positional digits grid
    String.ofList (if negative then '-' :: magnitude else magnitude)

end Phrasebook.Number
