/-!
# Occurrences of a needle in a text

A needle occurs at a position of a text when it is a prefix of what remains of the text there.
Positions count characters.

## Main definitions

- `firstOccurrence` is the position of the first occurrence of a needle, if there is one.
- `firstOccurrenceFrom` is the first one at or after a given position.
-/

namespace Phrasebook.Text

/-- The position of the first occurrence of `needle` in a text. -/
def firstOccurrence (needle : List Char) : List Char → Option Nat
  | [] => if needle = [] then some 0 else none
  | c :: rest =>
    if needle.isPrefixOf (c :: rest) then some 0
    else (firstOccurrence needle rest).map (· + 1)

/-- The position found is one at which the needle occurs. -/
theorem prefix_of_firstOccurrence {needle : List Char} :
    {text : List Char} → {i : Nat} → firstOccurrence needle text = some i →
      needle <+: text.drop i
  | [], i, found => by
    by_cases h : needle = []
    · subst h
      exact List.nil_prefix
    · simp [firstOccurrence, h] at found
  | c :: rest, i, found => by
    rw [firstOccurrence] at found
    by_cases h : needle.isPrefixOf (c :: rest) = true
    · rw [if_pos h] at found
      cases found
      exact List.isPrefixOf_iff_prefix.1 h
    · rw [if_neg h] at found
      obtain ⟨j, foundRest, rfl⟩ := Option.map_eq_some_iff.1 found
      simpa using prefix_of_firstOccurrence foundRest

/-- The needle occurs at no position before the one found. -/
theorem not_prefix_before_firstOccurrence {needle : List Char} :
    {text : List Char} → {i : Nat} → firstOccurrence needle text = some i →
      ∀ j, j < i → ¬ needle <+: text.drop j
  | [], i, found, j, before => by
    by_cases h : needle = []
    · simp [firstOccurrence, h] at found
      omega
    · simp [firstOccurrence, h] at found
  | c :: rest, i, found, j, before => by
    rw [firstOccurrence] at found
    by_cases h : needle.isPrefixOf (c :: rest) = true
    · rw [if_pos h] at found
      cases found
      omega
    · rw [if_neg h] at found
      obtain ⟨k, foundRest, rfl⟩ := Option.map_eq_some_iff.1 found
      cases j with
      | zero => exact fun isPrefix => h (List.isPrefixOf_iff_prefix.2 isPrefix)
      | succ j => exact not_prefix_before_firstOccurrence foundRest j (by omega)

/-- No position is found exactly when the needle occurs nowhere. -/
theorem firstOccurrence_eq_none {needle : List Char} :
    {text : List Char} → firstOccurrence needle text = none →
      ∀ j, ¬ needle <+: text.drop j
  | [], found, j => by
    by_cases h : needle = []
    · simp [firstOccurrence, h] at found
    · simpa using h
  | c :: rest, found, j => by
    rw [firstOccurrence] at found
    by_cases h : needle.isPrefixOf (c :: rest) = true
    · rw [if_pos h] at found
      cases found
    · rw [if_neg h, Option.map_eq_none_iff] at found
      cases j with
      | zero => exact fun isPrefix => h (List.isPrefixOf_iff_prefix.2 isPrefix)
      | succ j => exact firstOccurrence_eq_none found j

/-- The position of the first occurrence of `needle` in `text` at or after `position`. -/
def firstOccurrenceFrom (needle text : List Char) (position : Nat) : Option Nat :=
  (firstOccurrence needle (text.drop position)).map (position + ·)

theorem prefix_of_firstOccurrenceFrom {needle text : List Char} {position i : Nat}
    (found : firstOccurrenceFrom needle text position = some i) :
    position ≤ i ∧ needle <+: text.drop i := by
  obtain ⟨k, foundRest, rfl⟩ := Option.map_eq_some_iff.1 found
  refine ⟨Nat.le_add_right position k, ?_⟩
  have := prefix_of_firstOccurrence foundRest
  rwa [List.drop_drop] at this

/-- Whether `needle` occurs somewhere in `text`. -/
def occursIn (needle text : List Char) : Bool := (firstOccurrence needle text).isSome

/-- A needle occurs in a text exactly when it is a part of it. -/
theorem occursIn_iff {needle text : List Char} :
    occursIn needle text = true ↔ needle <:+: text := by
  cases found : firstOccurrence needle text with
  | none =>
    refine iff_of_false (by simp [occursIn, found]) ?_
    rintro ⟨before, after, rfl⟩
    refine firstOccurrence_eq_none found before.length ?_
    rw [List.append_assoc, List.drop_left]
    exact List.prefix_append needle after
  | some i =>
    refine iff_of_true (by simp [occursIn, found]) ?_
    exact (prefix_of_firstOccurrence found).isInfix.trans (List.drop_suffix i text).isInfix

end Phrasebook.Text
