/-!
# Whole numbers in text

A whole number is written with decimal digits after an optional sign.  It is read digit by digit
into a bounded range, and the first digit that cannot be taken decides why reading fails.

## Main definitions

- `IntegerFault` says why a text is no whole number of a range, with its wording.
- `readNatural` reads a number up to a largest one, `readInteger` one with a sign.
-/

namespace Phrasebook.Number

/-- Why a text is no whole number of a range. -/
inductive IntegerFault where
  | empty
  | invalidDigit
  | tooLarge
  | tooSmall
  deriving DecidableEq, Repr

/-- The wording of a fault. -/
def IntegerFault.message : IntegerFault → String
  | empty => "cannot parse integer from empty string"
  | invalidDigit => "invalid digit found in string"
  | tooLarge => "number too large to fit in target type"
  | tooSmall => "number too small to fit in target type"

/-- The value of a decimal digit. -/
def decimalDigit? (c : Char) : Option Nat :=
  if '0' ≤ c ∧ c ≤ '9' then some (c.toNat - '0'.toNat) else none

/-- Reads decimal digits after the number `value`, none of which may lead above `largest`. -/
def readDigits (largest : Nat) (overflow : IntegerFault) :
    Nat → List Char → Except IntegerFault Nat
  | value, [] => .ok value
  | value, c :: rest =>
    match decimalDigit? c with
    | none => .error .invalidDigit
    | some digit =>
      if 10 * value + digit ≤ largest then readDigits largest overflow (10 * value + digit) rest
      else .error overflow

/-- Reads the digits of a number; there has to be one. -/
def readMagnitude (largest : Nat) (overflow : IntegerFault) : List Char → Except IntegerFault Nat
  | [] => .error .invalidDigit
  | digits => readDigits largest overflow 0 digits

/-- Reads a number between zero and `largest`; a plus sign may precede it. -/
def readNatural (largest : Nat) : List Char → Except IntegerFault Nat
  | [] => .error .empty
  | '+' :: digits => readMagnitude largest .tooLarge digits
  | digits => readMagnitude largest .tooLarge digits

/-- Reads a number between `-(largest + 1)` and `largest`; a sign may precede it. -/
def readInteger (largest : Nat) : List Char → Except IntegerFault Int
  | [] => .error .empty
  | '+' :: digits => (readMagnitude largest .tooLarge digits).map Int.ofNat
  | '-' :: digits =>
    (readMagnitude (largest + 1) .tooSmall digits).map fun magnitude => - Int.ofNat magnitude
  | digits => (readMagnitude largest .tooLarge digits).map Int.ofNat

end Phrasebook.Number
