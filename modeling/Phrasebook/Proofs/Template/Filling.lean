import Phrasebook.Proofs.Template.Segmentation
import Phrasebook.Proofs.Text.Scan

/-!
# Filling a template by its needles

A template can be filled in two ways.  One goes by its grammar: the template is cut into segments,
and what is bound to the key of a placeholder is written in the placeholder's stead.  The other
knows no grammar: for every name there is a needle `{name}`, and a scan of the text replaces the
needles as it comes upon them.

In general the two differ.  A needle with a colon in its name is a placeholder with a parameter, a
name with a brace makes a needle that no placeholder looks like, and formatting codes are text to
the scan.  But for a proper name the needle is the placeholder of that name
(`applies_iff_read?_eq_some`): it begins a text exactly where that placeholder is read.  So if all
marks of a template are placeholders of proper names that are bound, the scan meets a needle where
the grammar meets a placeholder and nowhere else, in spite of all the braces that lie about in
literal text.

## Main statement

`scan_eq_flatMap_shownAs`: for such a template the scan writes its segments one after the other.
-/

namespace Phrasebook.Template

open Text

/-! ## Proper names -/

/-- A **proper name** is one that a placeholder can have for a key: it is not empty and holds
neither `}` nor `:`. -/
def IsName (name : List Char) : Prop := name ≠ [] ∧ ∀ c ∈ name, c ≠ '}' ∧ c ≠ ':'

/-- The placeholder of a name, without a parameter and without a colon. -/
def Slot.ofName (name : List Char) : Slot := ⟨name, none⟩

theorem Slot.source_ofName (name : List Char) :
    (Slot.ofName name).source = '{' :: name ++ ['}'] := by
  simp [Slot.source, Slot.ofName]

theorem Slot.ofName_key {slot : Slot} (bare : slot.suffix = none) :
    Slot.ofName slot.key = slot := by
  cases slot
  cases bare
  rfl

theorem IsName.wellFormed {name : List Char} (isName : IsName name) :
    (Slot.ofName name).WellFormed where
  key_ne_nil := isName.1
  key_plain := isName.2
  suffix_plain := by
    intro suffix isSuffix
    cases isSuffix

/-- **A needle is a placeholder.**  The needle of a proper name begins a text exactly where the
placeholder of that name is read. -/
theorem applies_iff_read?_eq_some {name text output : List Char} (isName : IsName name) :
    Applies ((Slot.ofName name).source, output) text ↔
      ∃ after, Segment.read? text = some (.placeholder (Slot.ofName name), after) := by
  constructor
  · rintro ⟨-, after, split⟩
    exact ⟨after, Segment.read?_eq_some_iff.2 ⟨isName.wellFormed, not_false, split⟩⟩
  · rintro ⟨after, found⟩
    have split : (Slot.ofName name).source ++ after = text := Segment.source_append_of_read? found
    refine ⟨?_, after, split⟩
    rw [Slot.source_ofName]
    exact List.cons_ne_nil _ _

/-! ## What a segment is shown as -/

/-- What a segment is shown as, if the placeholder of a key is shown as `output key`. -/
def Segment.shownAs (output : List Char → List Char) : Segment → List Char
  | literal text => text
  | placeholder slot => output slot.key
  | style _ _ => []

theorem flatMap_shownAs_consLiteral (output : List Char → List Char) (c : Char)
    (parts : List Segment) :
    (Segment.consLiteral c parts).flatMap (Segment.shownAs output) =
      c :: parts.flatMap (Segment.shownAs output) := by
  unfold Segment.consLiteral
  split
  · simp [Segment.shownAs]
  · simp [Segment.shownAs]

/-- A character of literal text adds no mark. -/
theorem mem_consLiteral_iff {c : Char} {parts : List Segment} {mark : Segment}
    (notLiteral : ¬ mark.IsLiteral) : mark ∈ Segment.consLiteral c parts ↔ mark ∈ parts := by
  have notText : ∀ text, mark ≠ .literal text := by
    rintro text rfl
    exact notLiteral trivial
  unfold Segment.consLiteral
  split <;> simp [notText]

/-! ## The scan of a template -/

variable {pairs : List (List Char × List Char)} {output : List Char → List Char}

/-- Pairs **fill by name** if each of them replaces the needle of a proper name by the output of
that name. -/
def FillsByName (output : List Char → List Char) (pairs : List (List Char × List Char)) : Prop :=
  ∀ pair ∈ pairs, ∃ name, IsName name ∧ pair = ((Slot.ofName name).source, output name)

/-- At the placeholder of a bound name, the pair of that name wins. -/
theorem FillsByName.matchAt?_eq_some (fills : FillsByName output pairs) {name : List Char}
    {text after : List Char} (bound : ((Slot.ofName name).source, output name) ∈ pairs)
    (found : Segment.read? text = some (.placeholder (Slot.ofName name), after)) :
    matchAt? text pairs = some ((Slot.ofName name).source, output name) := by
  have isName : IsName name := by
    have wellFormed : (Slot.ofName name).WellFormed := (Segment.read?_eq_some_iff.1 found).1
    exact ⟨wellFormed.key_ne_nil, wellFormed.key_plain⟩
  refine matchAt?_eq_some_of_unique bound ((applies_iff_read?_eq_some isName).2 ⟨after, found⟩) ?_
  intro other supplied applies
  obtain ⟨otherName, isOtherName, rfl⟩ := fills other supplied
  -- Only one placeholder is read at a place, so the other name is the same.
  obtain ⟨otherAfter, otherFound⟩ := (applies_iff_read?_eq_some isOtherName).1 applies
  have same := otherFound.symm.trans found
  simp only [Option.some.injEq, Prod.mk.injEq, Segment.placeholder.injEq] at same
  rw [show otherName = name from congrArg Slot.key same.1]

/-- Where nothing is read, no pair applies. -/
theorem FillsByName.matchAt?_eq_none (fills : FillsByName output pairs) {text : List Char}
    (notFound : Segment.read? text = none) : matchAt? text pairs = none := by
  refine matchAt?_eq_none_iff.2 fun pair supplied applies => ?_
  obtain ⟨name, isName, rfl⟩ := fills pair supplied
  obtain ⟨after, found⟩ := (applies_iff_read?_eq_some isName).1 applies
  rw [notFound] at found
  cases found

/-- **The scan of a template writes its segments**, if all its marks are placeholders of names that
are bound. -/
theorem scan_eq_flatMap_shownAs (fills : FillsByName output pairs) (text : List Char)
    (bound : ∀ mark ∈ segments text, ¬ mark.IsLiteral → ∃ name,
      mark = .placeholder (Slot.ofName name) ∧
        ((Slot.ofName name).source, output name) ∈ pairs) :
    scan pairs text = (segments text).flatMap (Segment.shownAs output) := by
  fun_induction segments text with
  | case1 => simp
  | case2 c rest mark after found ih =>
    obtain ⟨-, notLiteral, split⟩ := Segment.read?_eq_some_iff.1 found
    obtain ⟨name, rfl, supplied⟩ := bound mark List.mem_cons_self notLiteral
    have onward := ih fun other mem => bound other (List.mem_cons_of_mem _ mem)
    have behind : (c :: rest).drop (Slot.ofName name).source.length = after := by
      rw [← split]
      exact List.drop_left
    rw [scan_of_matchAt?_eq_some (fills.matchAt?_eq_some supplied found), behind, onward]
    rfl
  | case3 c rest notFound ih =>
    have onward := ih fun mark mem notLiteral =>
      bound mark ((mem_consLiteral_iff notLiteral).2 mem) notLiteral
    rw [scan_cons_of_matchAt?_eq_none (fills.matchAt?_eq_none notFound), onward,
      flatMap_shownAs_consLiteral]

end Phrasebook.Template
