import Mathlib.Data.Nat.Digits.Defs
import Phrasebook.Number.Integer

/-!
# Reading whole numbers

A number is read digit by digit, and reading stops at the first digit with which it would be too
large.  As further digits never make a number smaller, this is the same as to read all digits and
then look at the number.

## Main statement

`readNatural_eq_ok_iff`: the texts that are read as a number up to a largest one are those that
write such a number in decimal, and it is read as the number that it writes.
-/

namespace Phrasebook.Number

/-- The value of a decimal digit by its place among all characters. -/
def digitValue (c : Char) : Nat := c.toNat - '0'.toNat

/-- Decimal digits, of which there is at least one, **write a number**. -/
def WritesDigits (digits : List Char) (n : Nat) : Prop :=
  digits ≠ [] ∧ (∀ c ∈ digits, c.isDigit) ∧ Nat.ofDigits 10 (digits.map digitValue).reverse = n

/-- A text **writes a natural number** with its digits, after a plus sign or none. -/
def WritesNatural (text : List Char) (n : Nat) : Prop :=
  ∃ digits, (text = digits ∨ text = '+' :: digits) ∧ WritesDigits digits n

theorem writesNatural_plus_iff {digits : List Char} {n : Nat} :
    WritesNatural ('+' :: digits) n ↔ WritesDigits digits n := by
  constructor
  · rintro ⟨written, rfl | same, writes⟩
    · exact absurd (writes.2.1 '+' List.mem_cons_self) (by decide)
    · obtain rfl := List.tail_eq_of_cons_eq same
      exact writes
  · exact fun writes => ⟨digits, Or.inr rfl, writes⟩

theorem writesNatural_iff_of_unsigned {text : List Char} (unsigned : ∀ digits, text ≠ '+' :: digits)
    {n : Nat} : WritesNatural text n ↔ WritesDigits text n := by
  constructor
  · rintro ⟨digits, rfl | rfl, writes⟩
    · exact writes
    · exact absurd rfl (unsigned digits)
  · exact fun writes => ⟨text, Or.inl rfl, writes⟩

theorem decimalDigit?_eq (c : Char) :
    decimalDigit? c = if c.isDigit then some (digitValue c) else none := by
  simp [decimalDigit?, Char.isDigit, digitValue, Char.le_def, UInt32.le_iff_toNat_le]

variable {largest : Nat} {overflow : IntegerFault}

/-- The number that digits write after those of another number. -/
def valueAfter (value : Nat) (digits : List Char) : Nat :=
  digits.foldl (fun value c => 10 * value + digitValue c) value

theorem valueAfter_zero (digits : List Char) :
    valueAfter 0 digits = Nat.ofDigits 10 (digits.map digitValue).reverse := by
  rw [Nat.ofDigits_eq_foldr, List.foldr_reverse, List.foldl_map]
  simp only [valueAfter, Nat.cast_id, Nat.add_comm]

theorem le_valueAfter (value : Nat) (digits : List Char) : value ≤ valueAfter value digits := by
  induction digits generalizing value with
  | nil => exact Nat.le_refl value
  | cons c rest ih => exact le_trans (by omega) (ih (10 * value + digitValue c))

theorem readDigits_eq_ok_iff {value n : Nat} {digits : List Char} (bounded : value ≤ largest) :
    readDigits largest overflow value digits = .ok n ↔
      (∀ c ∈ digits, c.isDigit) ∧ valueAfter value digits = n ∧ n ≤ largest := by
  induction digits generalizing value with
  | nil =>
    rw [readDigits, Except.ok.injEq]
    exact ⟨fun same => ⟨by simp, same, same ▸ bounded⟩, fun ⟨_, same, _⟩ => same⟩
  | cons c rest ih =>
    rw [readDigits, decimalDigit?_eq, List.forall_mem_cons]
    by_cases digit : c.isDigit
    · rw [if_pos digit]
      dsimp only
      split
      · next fits => rw [ih fits, and_iff_right digit]; rfl
      · next tooLarge =>
        -- The rest is not read, and could not make the number small again.
        refine iff_of_false (by simp) ?_
        rintro ⟨-, rfl, small⟩
        exact tooLarge ((le_valueAfter _ rest).trans small)
    · simp [digit]

theorem readMagnitude_eq_ok_iff {n : Nat} {digits : List Char} :
    readMagnitude largest overflow digits = .ok n ↔ WritesDigits digits n ∧ n ≤ largest := by
  cases digits with
  | nil => simp [readMagnitude, WritesDigits]
  | cons c rest =>
    rw [readMagnitude, readDigits_eq_ok_iff (Nat.zero_le largest), valueAfter_zero, WritesDigits]
    · simp only [ne_eq, reduceCtorEq, not_false_eq_true, true_and, and_assoc]
    · simp

/-- **Reading a number up to a largest one.** -/
theorem readNatural_eq_ok_iff {n : Nat} {text : List Char} :
    readNatural largest text = .ok n ↔ WritesNatural text n ∧ n ≤ largest := by
  fun_cases readNatural largest text with
  | case1 => simp [writesNatural_iff_of_unsigned, WritesDigits]
  | case2 digits => rw [readMagnitude_eq_ok_iff, writesNatural_plus_iff]
  | case3 _ _ unsigned =>
    rw [readMagnitude_eq_ok_iff, writesNatural_iff_of_unsigned unsigned]

end Phrasebook.Number
