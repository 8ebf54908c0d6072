import Phrasebook.Template.Code

/-!
# The segments of a template

A template is cut into segments from left to right.  Where a placeholder or a formatting code
begins, it is one segment; everything in between is literal text.

A placeholder is `{key}`, `{key:}` or `{key:parameter}`.  Its key is not empty and holds neither `}`
nor `:`; its parameter holds no `}`.  A formatting code is an introducer and a `Code`.

## Main definitions

- `Slot.read?` reads a placeholder, `Segment.read?` a placeholder or a formatting code.
- `segments` cuts a template; `Segment.source` gives the characters of a segment back.
-/

namespace Phrasebook.Template

/-- A placeholder as it is written: its key, and what stands after a colon, if there is one. -/
structure Slot where
  key : List Char
  suffix : Option (List Char)
  deriving DecidableEq, Repr

namespace Slot

/-- The characters that a key may hold. -/
def isKeyChar (c : Char) : Bool := c ≠ '}' && c ≠ ':'

/-- The characters that a parameter may hold. -/
def isParameterChar (c : Char) : Bool := c ≠ '}'

/-- The parameter of a placeholder; nothing after the colon is no parameter. -/
def parameter? (slot : Slot) : Option (List Char) := slot.suffix.filter fun suffix => suffix ≠ []

/-- The characters of a placeholder. -/
def source (slot : Slot) : List Char :=
  '{' :: slot.key ++
    (match slot.suffix with
    | none => []
    | some suffix => ':' :: suffix) ++ ['}']

/-- Reads what follows the key of a placeholder, up to its end, and what follows it. -/
def readSuffix? : List Char → Option (Option (List Char) × List Char)
  | [] => none
  | c :: rest =>
    if c = ':' then
      match rest.dropWhile isParameterChar with
      | [] => none
      | _ :: after => some (some (rest.takeWhile isParameterChar), after)
    else some (none, rest)

/-- Reads a placeholder at the start of a text, and what follows it. -/
def read? : List Char → Option (Slot × List Char)
  | [] => none
  | c :: rest =>
    if c = '{' ∧ rest.takeWhile isKeyChar ≠ [] then
      (readSuffix? (rest.dropWhile isKeyChar)).map fun (suffix, after) =>
        (⟨rest.takeWhile isKeyChar, suffix⟩, after)
    else none

theorem head_of_dropWhile {α : Type} {p : α → Bool} :
    {l : List α} → {a : α} → {rest : List α} → l.dropWhile p = a :: rest → p a = false
  | b :: l, a, rest, h => by
    cases hb : p b with
    | true =>
      rw [List.dropWhile_cons_of_pos hb] at h
      exact head_of_dropWhile h
    | false =>
      rw [List.dropWhile_cons_of_neg (by simp [hb])] at h
      cases h
      exact hb

/-- A placeholder that is read and what follows it make up the text. -/
theorem source_append_of_read? {text after : List Char} {slot : Slot}
    (h : read? text = some (slot, after)) : slot.source ++ after = text := by
  cases text with
  | nil => cases h
  | cons c rest =>
    simp only [read?] at h
    split at h
    · rename_i opening
      obtain ⟨⟨suffix, last⟩, suffixRead, eq⟩ := Option.map_eq_some_iff.1 h
      obtain ⟨rfl, rfl⟩ : (⟨rest.takeWhile isKeyChar, suffix⟩ : Slot) = slot ∧ last = after := by
        simpa using eq
      have split := List.takeWhile_append_dropWhile (p := isKeyChar) (l := rest)
      cases dropped : rest.dropWhile isKeyChar with
      | nil =>
        rw [dropped] at suffixRead
        cases suffixRead
      | cons d tail =>
        have notKey := head_of_dropWhile dropped
        rw [dropped] at split suffixRead
        simp only [readSuffix?] at suffixRead
        by_cases colon : d = ':'
        · rw [if_pos colon] at suffixRead
          have tailSplit := List.takeWhile_append_dropWhile (p := isParameterChar) (l := tail)
          cases tailDropped : tail.dropWhile isParameterChar with
          | nil =>
            rw [tailDropped] at suffixRead
            cases suffixRead
          | cons e ending =>
            have notParameter := head_of_dropWhile tailDropped
            rw [tailDropped] at suffixRead tailSplit
            obtain ⟨rfl, rfl⟩ : some (tail.takeWhile isParameterChar) = suffix ∧ ending = last := by
              simpa using suffixRead
            have brace : e = '}' := by simpa [isParameterChar] using notParameter
            have whole : rest.takeWhile isKeyChar ++
                ':' :: (tail.takeWhile isParameterChar ++ '}' :: ending) = rest := by
              rw [← brace, tailSplit, ← colon, split]
            simp [source, opening.1, whole]
        · rw [if_neg colon] at suffixRead
          obtain ⟨rfl, rfl⟩ : none = suffix ∧ tail = last := by
            simpa using suffixRead
          have brace : d = '}' := by
            simp only [isKeyChar, Bool.and_eq_false_iff, decide_eq_false_iff_not, ne_eq,
              Decidable.not_not] at notKey
            rcases notKey with h | h
            · exact h
            · exact absurd h colon
          have whole : rest.takeWhile isKeyChar ++ '}' :: tail = rest := by
            rw [← brace, split]
          simp [source, opening.1, whole]
    · cases h

theorem length_lt_of_read? {text after : List Char} {slot : Slot}
    (h : read? text = some (slot, after)) : after.length < text.length := by
  rw [← source_append_of_read? h]
  simp [source]
  omega

end Slot

/-- A segment of a template. -/
inductive Segment where
  | literal (text : List Char)
  | placeholder (slot : Slot)
  | style (introducer : Char) (code : Code)
  deriving DecidableEq, Repr

namespace Segment

/-- The characters of a segment. -/
def source : Segment → List Char
  | literal text => text
  | placeholder slot => slot.source
  | style introducer code => introducer :: code.source

/-- Reads a placeholder or a formatting code at the start of a text, and what follows it. -/
def read? (text : List Char) : Option (Segment × List Char) :=
  match Slot.read? text with
  | some (slot, after) => some (.placeholder slot, after)
  | none =>
    match text with
    | [] => none
    | c :: rest =>
      if isIntroducer c then (Code.read? rest).map fun (code, after) => (.style c code, after)
      else none

/-- A segment that is read and what follows it make up the text. -/
theorem source_append_of_read? {text after : List Char} {segment : Segment}
    (h : read? text = some (segment, after)) : segment.source ++ after = text := by
  simp only [read?] at h
  split at h
  · rename_i slotRead
    cases h
    exact Slot.source_append_of_read? slotRead
  · cases text with
    | nil => cases h
    | cons c rest =>
      simp only at h
      split at h
      · obtain ⟨⟨code, _⟩, codeRead, eq⟩ := Option.map_eq_some_iff.1 h
        cases eq
        rw [source, List.cons_append, Code.source_append_of_read? codeRead]
      · cases h

theorem length_lt_of_read? {text after : List Char} {segment : Segment}
    (h : read? text = some (segment, after)) : after.length < text.length := by
  simp only [read?] at h
  split at h
  · rename_i slotRead
    cases h
    exact Slot.length_lt_of_read? slotRead
  · cases text with
    | nil => cases h
    | cons c rest =>
      simp only at h
      split at h
      · obtain ⟨⟨code, _⟩, codeRead, eq⟩ := Option.map_eq_some_iff.1 h
        cases eq
        exact Nat.lt_succ_of_lt (Code.length_lt_of_read? codeRead)
      · cases h

/-- Puts a literal character before the segments of the rest of a text. -/
def consLiteral (c : Char) : List Segment → List Segment
  | literal text :: rest => literal (c :: text) :: rest
  | segments => literal [c] :: segments

@[simp]
theorem flatMap_source_consLiteral (c : Char) (segments : List Segment) :
    (consLiteral c segments).flatMap source = c :: segments.flatMap source := by
  unfold consLiteral
  split
  · simp [source]
  · simp [source]

end Segment

/-- Cuts a template into its segments. -/
def segments (text : List Char) : List Segment :=
  match text with
  | [] => []
  | c :: rest =>
    match _found : Segment.read? (c :: rest) with
    | some (segment, after) => segment :: segments after
    | none => Segment.consLiteral c (segments rest)
termination_by text.length
decreasing_by
  · exact Segment.length_lt_of_read? _found
  · simp

/-- Cutting a template loses nothing: the segments make up the template. -/
theorem flatMap_source_segments (text : List Char) :
    (segments text).flatMap Segment.source = text := by
  fun_induction segments text with
  | case1 => rfl
  | case2 c rest segment after found ih =>
    rw [List.flatMap_cons, ih]
    exact Segment.source_append_of_read? found
  | case3 c rest found ih => rw [Segment.flatMap_source_consLiteral, ih]

end Phrasebook.Template
