import Mathlib.Tactic.SplitIfs

/-!
# Characters up to case

Two characters are the same up to case if they have the same small letter.  Only ASCII letters have
a case here.

## Main statements

- `eq_toLower_or_eq_toUpper`: what is the same up to case is the small letter or the capital.
- `eq_of_toLower_eq`: a character without case is the same only as itself.
-/

namespace Phrasebook.Text

/-- The small letter of a capital comes 32 places after it. -/
theorem toNat_toLower (c : Char) :
    c.toLower.toNat = if 65 ≤ c.toNat ∧ c.toNat ≤ 90 then c.toNat + 32 else c.toNat := by
  simp only [← Char.toNat_val]
  delta Char.toLower
  split <;> grind [UInt32.toNat_add, UInt32.le_iff_toNat_le]

/-- The capital of a small letter comes 32 places before it. -/
theorem toNat_toUpper (c : Char) :
    c.toUpper.toNat = if 97 ≤ c.toNat ∧ c.toNat ≤ 122 then c.toNat - 32 else c.toNat := by
  simp only [← Char.toNat_val]
  delta Char.toUpper
  split <;> grind [UInt32.toNat_add, UInt32.le_iff_toNat_le]

/-- What has been put in lower case stays as it is. -/
theorem toLower_toLower (c : Char) : c.toLower.toLower = c.toLower := by
  rw [← Char.toNat_inj, toNat_toLower (c.toLower), toNat_toLower c]
  split_ifs <;> omega

/-- A character that is the same as another up to case is that one in lower or in upper case. -/
theorem eq_toLower_or_eq_toUpper {c other : Char} (same : other.toLower = c.toLower) :
    other = c.toLower ∨ other = c.toUpper := by
  have places := congrArg Char.toNat same
  rw [toNat_toLower, toNat_toLower] at places
  rw [← Char.toNat_inj, ← Char.toNat_inj, toNat_toLower, toNat_toUpper]
  split_ifs at * <;> omega

/-- A character without case is the same up to case as no other. -/
theorem eq_of_toLower_eq {c other : Char} (lower : c.toLower = c) (upper : c.toUpper = c)
    (same : other.toLower = c.toLower) : other = c := by
  rcases eq_toLower_or_eq_toUpper same with eq | eq
  · rw [eq, lower]
  · rw [eq, upper]

end Phrasebook.Text
