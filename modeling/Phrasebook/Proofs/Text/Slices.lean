import Mathlib.Data.String.Basic

/-!
# Slices by bytes

Texts are lists of characters here, and places in them are counted in characters.  Offsets in bytes
are another way to say where something is in a text in UTF-8.  Not every offset is a place between
two characters, and so not every pair of offsets is that of a slice.  This module has the slices
that fail in these cases, and says when they do.

## Main definitions

- `slice?` cuts a piece out of a text, by bytes.
- `IsBoundary` are the offsets between characters, and `byteAt` finds the one of a place.

## Main statement

- `slice?_isSome_iff`: pieces are in range and between characters, and there are no others.
-/

namespace Phrasebook.Text

open String (utf8Len utf8Len_append utf8Len_cons utf8Len_eq_zero)

/-- What is before a number of bytes and what is after it.  There is no answer if the text is too
short or a character would be cut in two. -/
def splitBytes? : List Char → Nat → Option (List Char × List Char)
  | text, 0 => some ([], text)
  | [], _ + 1 => none
  | c :: rest, offset + 1 =>
    if c.utf8Size ≤ offset + 1 then
      (splitBytes? rest (offset + 1 - c.utf8Size)).map fun halves => (c :: halves.1, halves.2)
    else none

/-- The text from an offset on. -/
def fromByte? (text : List Char) (start : Nat) : Option (List Char) :=
  (splitBytes? text start).map Prod.snd

/-- The text from an offset to another. -/
def slice? (text : List Char) (start stop : Nat) : Option (List Char) :=
  if start ≤ stop then
    (fromByte? text start).bind fun rest => (splitBytes? rest (stop - start)).map Prod.fst
  else none

/-- An offset of a text is in range and cuts no character in two. -/
def IsBoundary (text : List Char) (offset : Nat) : Prop :=
  ∃ before after, text = before ++ after ∧ utf8Len before = offset

theorem utf8Len_pos {text : List Char} (nonempty : text ≠ []) : 0 < utf8Len text :=
  Nat.pos_of_ne_zero (mt utf8Len_eq_zero.1 nonempty)

/-- A text can be split where two texts are joined. -/
theorem splitBytes?_append (front back : List Char) :
    splitBytes? (front ++ back) (utf8Len front) = some (front, back) := by
  induction front with
  | nil => rw [String.utf8Len_nil, List.nil_append, splitBytes?]
  | cons c rest ih =>
    obtain ⟨k, size⟩ : ∃ k, utf8Len (c :: rest) = k + 1 :=
      Nat.exists_eq_add_one.2 (utf8Len_pos (List.cons_ne_nil c rest))
    rw [List.cons_append, size, splitBytes?, ← size, utf8Len_cons, if_pos (Nat.le_add_left _ _),
      Nat.add_sub_cancel_right, ih]
    rfl

theorem eq_append_of_splitBytes? {front back : List Char} :
    {text : List Char} → {offset : Nat} → splitBytes? text offset = some (front, back) →
      text = front ++ back ∧ utf8Len front = offset
  | text, 0, split => by
    rw [splitBytes?] at split
    cases split
    exact ⟨rfl, rfl⟩
  | [], _ + 1, split => by
    rw [splitBytes?] at split
    cases split
  | c :: rest, offset + 1, split => by
    rw [splitBytes?] at split
    split at split
    · rename_i enough
      obtain ⟨⟨front, back⟩, further, same⟩ := Option.map_eq_some_iff.1 split
      cases same
      obtain ⟨rfl, size⟩ := eq_append_of_splitBytes? further
      exact ⟨rfl, by rw [utf8Len_cons, size, Nat.sub_add_cancel enough]⟩
    · cases split

/-- **A text can be split between its characters, and nowhere else.** -/
theorem splitBytes?_eq_some_iff {text front back : List Char} {offset : Nat} :
    splitBytes? text offset = some (front, back) ↔
      text = front ++ back ∧ utf8Len front = offset := by
  refine ⟨eq_append_of_splitBytes?, ?_⟩
  rintro ⟨rfl, rfl⟩
  exact splitBytes?_append front back

variable {text : List Char} {i j : Nat}

/-- The number of bytes before a character of a text. -/
def byteAt (text : List Char) (i : Nat) : Nat := utf8Len (text.take i)

theorem byteAt_add (text : List Char) (i k : Nat) :
    byteAt text (i + k) = byteAt text i + utf8Len ((text.drop i).take k) := by
  rw [byteAt, byteAt, List.take_add, utf8Len_append]

theorem byteAt_lt_byteAt (less : i < j) (inside : j ≤ text.length) :
    byteAt text i < byteAt text j := by
  obtain ⟨k, rfl⟩ := Nat.exists_eq_add_of_lt less
  rw [Nat.add_assoc, byteAt_add]
  refine Nat.lt_add_of_pos_right (utf8Len_pos ?_)
  rw [← List.length_pos_iff, List.length_take, List.length_drop]
  omega

theorem byteAt_le_byteAt (le : i ≤ j) : byteAt text i ≤ byteAt text j := by
  obtain ⟨k, rfl⟩ := Nat.exists_eq_add_of_le le
  rw [byteAt_add]
  exact Nat.le_add_right _ _

/-- Bytes are in the order of characters. -/
theorem byteAt_lt_iff (inside : j ≤ text.length) : byteAt text i < byteAt text j ↔ i < j := by
  refine ⟨fun less => ?_, fun less => byteAt_lt_byteAt less inside⟩
  by_contra notLess
  exact absurd less (Nat.not_lt.2 (byteAt_le_byteAt (Nat.le_of_not_lt notLess)))

theorem isBoundary_byteAt (text : List Char) (i : Nat) : IsBoundary text (byteAt text i) :=
  ⟨text.take i, text.drop i, (List.take_append_drop i text).symm, rfl⟩

theorem IsBoundary.exists_byteAt {offset : Nat} (boundary : IsBoundary text offset) :
    ∃ i ≤ text.length, byteAt text i = offset := by
  obtain ⟨before, after, rfl, rfl⟩ := boundary
  exact ⟨before.length, by simp, by rw [byteAt, List.take_left]⟩

theorem splitBytes?_byteAt (text : List Char) (i : Nat) :
    splitBytes? text (byteAt text i) = some (text.take i, text.drop i) := by
  have split := splitBytes?_append (text.take i) (text.drop i)
  rwa [List.take_append_drop] at split

theorem fromByte?_byteAt (text : List Char) (i : Nat) :
    fromByte? text (byteAt text i) = some (text.drop i) := by
  rw [fromByte?, splitBytes?_byteAt]
  rfl

/-- **Slices between characters are in range.** -/
theorem slice?_byteAt (text : List Char) (le : i ≤ j) :
    slice? text (byteAt text i) (byteAt text j) = some ((text.drop i).take (j - i)) := by
  obtain ⟨k, rfl⟩ := Nat.exists_eq_add_of_le le
  have size := byteAt_add text i k
  rw [slice?, if_pos (byteAt_le_byteAt le), fromByte?_byteAt, size, Nat.add_sub_cancel_left,
    Nat.add_sub_cancel_left]
  have split := splitBytes?_byteAt (text.drop i) k
  rw [byteAt] at split
  rw [Option.bind_some, split]
  rfl

/-- **A piece is in range and between characters**, and whatever is so is a piece. -/
theorem slice?_isSome_iff {start stop : Nat} :
    (slice? text start stop).isSome ↔
      start ≤ stop ∧ IsBoundary text start ∧ IsBoundary text stop := by
  constructor
  · intro some
    rw [slice?] at some
    split at some
    · rename_i le
      obtain ⟨piece, cut⟩ := Option.isSome_iff_exists.1 some
      obtain ⟨rest, start, cut⟩ := Option.bind_eq_some_iff.1 cut
      obtain ⟨⟨front, _⟩, split, rfl⟩ := Option.map_eq_some_iff.1 start
      obtain ⟨⟨piece, back⟩, again, rfl⟩ := Option.map_eq_some_iff.1 cut
      obtain ⟨rfl, first⟩ := splitBytes?_eq_some_iff.1 split
      obtain ⟨same, second⟩ := splitBytes?_eq_some_iff.1 again
      refine ⟨le, ⟨front, _, rfl, first⟩, front ++ piece, back, ?_, ?_⟩
      · rw [List.append_assoc, ← same]
      · rw [utf8Len_append, first, second, Nat.add_sub_cancel' le]
    · cases some
  · rintro ⟨le, start, stop⟩
    obtain ⟨i, inside, rfl⟩ := start.exists_byteAt
    obtain ⟨j, -, rfl⟩ := stop.exists_byteAt
    have ordered : i ≤ j := Nat.le_of_not_lt fun less =>
      absurd ((byteAt_lt_iff inside).2 less) (Nat.not_lt.2 le)
    rw [slice?_byteAt text ordered]
    rfl

example : slice? ['a', 'ä', 'b'] 1 3 = some ['ä'] := by decide

example : slice? ['a', 'ä', 'b'] 1 2 = none := by decide

theorem byteAt_length (text : List Char) : byteAt text text.length = utf8Len text := by
  rw [byteAt, List.take_length]

/-- A text between two others is a slice of the three. -/
theorem slice?_append (front piece back : List Char) :
    slice? (front ++ (piece ++ back)) (utf8Len front) (utf8Len front + utf8Len piece) =
      some piece := by
  rw [slice?, if_pos (Nat.le_add_right _ _), fromByte?, splitBytes?_append, Option.map_some,
    Option.bind_some, Nat.add_sub_cancel_left, splitBytes?_append]
  rfl

end Phrasebook.Text
