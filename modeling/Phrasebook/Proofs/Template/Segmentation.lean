import Mathlib.Data.List.Chain
import Mathlib.Data.List.Forall2
import Phrasebook.Proofs.Template.Grammar
import Phrasebook.Template.Token

/-!
# There is one segmentation, and it is what is compiled

`IsSegmentation` says what it is to cut a template correctly, without saying how: the segments make
up the template, each is well formed, no two literal texts are neighbours, and no placeholder or
formatting code begins inside a literal text.  This module shows that `segments` finds such a cut
(`isSegmentation_segments`) and that there is no other (`segments_eq_of_isSegmentation`).

The second half is the interesting one.  A literal text could be too long, too short, or in the
place of a mark; the first is excluded because nothing begins inside it, the other two because no
literal text follows it and so a mark or the end does.  Both halves go segment by segment, by
`isSegmentation_cons_iff`.

## Main statement

`compile_segmentation`: every template has exactly one segmentation, and compiling the template
gives, in order, a literal for each literal text, a placeholder for each placeholder, and nothing
for a formatting code.
-/

namespace Phrasebook.Template

/-! ## Segmentations -/

/-- **A correct cut of a template.** -/
structure IsSegmentation (raw : List Char) (parts : List Segment) : Prop where
  /-- Nothing is lost, reordered or duplicated. -/
  source_eq : parts.flatMap Segment.source = raw
  wellFormed : ∀ part ∈ parts, part.WellFormed
  /-- No two literal texts are neighbours. -/
  separated : parts.IsChain fun part next => ¬ (part.IsLiteral ∧ next.IsLiteral)
  /-- At no character of a literal text does a placeholder or a formatting code begin. -/
  quiet : ∀ before text after, parts = before ++ .literal text :: after → ∀ i < text.length,
    ∀ mark : Segment, ¬ mark.Begins (raw.drop ((before.flatMap Segment.source).length + i))

/-- The template without segments is the empty one. -/
theorem isSegmentation_nil : IsSegmentation [] [] where
  source_eq := rfl
  wellFormed := by simp
  separated := List.isChain_nil
  quiet := by simp

/-- A cut is correct exactly when its first segment is and the rest is a correct cut of the rest. -/
theorem isSegmentation_cons_iff {raw : List Char} {part : Segment} {rest : List Segment} :
    IsSegmentation raw (part :: rest) ↔
      part.source ++ rest.flatMap Segment.source = raw ∧ part.WellFormed ∧
        (∀ next ∈ rest.head?, ¬ (part.IsLiteral ∧ next.IsLiteral)) ∧
        (∀ text, part = .literal text → ∀ i < text.length,
          ∀ mark : Segment, ¬ mark.Begins (raw.drop i)) ∧
        IsSegmentation (rest.flatMap Segment.source) rest := by
  constructor
  · intro cut
    have whole : part.source ++ rest.flatMap Segment.source = raw := by
      rw [← cut.source_eq, List.flatMap_cons]
    obtain ⟨notBoth, separated⟩ := List.isChain_cons.1 cut.separated
    refine ⟨whole, cut.wellFormed part List.mem_cons_self, notBoth, ?_, ?_⟩
    · rintro text rfl i inside mark
      simpa using cut.quiet [] text rest rfl i inside mark
    · have wellFormedRest : ∀ other ∈ rest, other.WellFormed := fun other mem =>
        cut.wellFormed other (List.mem_cons_of_mem _ mem)
      refine ⟨rfl, wellFormedRest, separated, ?_⟩
      rintro before text after split i inside mark
      have quiet := cut.quiet (part :: before) text after (by rw [split, List.cons_append]) i inside
        mark
      rw [← whole, List.flatMap_cons, List.length_append, Nat.add_assoc, ← List.drop_drop,
        List.drop_left] at quiet
      exact quiet
  · rintro ⟨whole, wellFormed, notBoth, quiet, cut⟩
    refine ⟨by rw [List.flatMap_cons, whole], ?_, List.isChain_cons.2 ⟨notBoth, cut.separated⟩, ?_⟩
    · intro other mem
      rcases List.mem_cons.1 mem with rfl | mem
      · exact wellFormed
      · exact cut.wellFormed other mem
    · intro before text after split i inside mark
      cases before with
      | nil =>
        obtain ⟨rfl, rfl⟩ := List.cons.inj split
        simpa using quiet text rfl i inside mark
      | cons first before =>
        obtain ⟨rfl, rfl⟩ := List.cons.inj split
        have quietRest := cut.quiet before text after rfl i inside mark
        rw [← whole, List.flatMap_cons, List.length_append, Nat.add_assoc, ← List.drop_drop,
          List.drop_left]
        exact quietRest

/-! ## Cutting finds a segmentation -/

theorem segments_nil : segments [] = [] := by
  rw [segments]

/-- Where a mark is read, it is the first segment. -/
theorem segments_of_read?_eq_some {text after : List Char} {mark : Segment}
    (found : Segment.read? text = some (mark, after)) :
    segments text = mark :: segments after := by
  cases text with
  | nil => simp [Segment.read?, Slot.read?] at found
  | cons c rest =>
    rw [segments]
    split
    · rename_i foundAgain
      rw [found] at foundAgain
      cases foundAgain
      rfl
    · rename_i notFound
      rw [found] at notFound
      cases notFound

/-- Where nothing is read, one character goes to a literal text. -/
theorem segments_of_read?_eq_none {c : Char} {rest : List Char}
    (notFound : Segment.read? (c :: rest) = none) :
    segments (c :: rest) = Segment.consLiteral c (segments rest) := by
  rw [segments]
  split
  · rename_i found
    rw [notFound] at found
    cases found
  · rfl

/-- A character at which nothing begins, put before a correct cut, makes a correct cut. -/
theorem IsSegmentation.consLiteral {c : Char} {rest : List Char} {parts : List Segment}
    (cut : IsSegmentation rest parts) (nothing : ∀ mark : Segment, ¬ mark.Begins (c :: rest)) :
    IsSegmentation (c :: rest) (Segment.consLiteral c parts) := by
  have source := cut.source_eq
  cases parts with
  | nil =>
    obtain rfl : rest = [] := source.symm
    refine isSegmentation_cons_iff.2 ⟨rfl, List.cons_ne_nil c [], by simp, ?_, isSegmentation_nil⟩
    rintro text ⟨⟩ i inside mark
    obtain rfl : i = 0 := by simpa using inside
    exact nothing mark
  | cons part more =>
    obtain ⟨whole, wellFormed, notBoth, quiet, cutMore⟩ := isSegmentation_cons_iff.1 cut
    by_cases literal : part.IsLiteral
    · -- The literal text at the front becomes longer by one character.
      cases part with
      | literal text =>
        refine isSegmentation_cons_iff.2
          ⟨congrArg (c :: ·) whole, List.cons_ne_nil c text, notBoth, ?_, cutMore⟩
        rintro longer ⟨⟩ i inside mark
        cases i with
        | zero => exact nothing mark
        | succ i => exact quiet text rfl i (Nat.lt_of_succ_lt_succ inside) mark
      | placeholder slot => exact absurd literal not_false
      | style introducer code => exact absurd literal not_false
    · -- A new literal text of one character stands before a mark.
      have cons : Segment.consLiteral c (part :: more) = .literal [c] :: part :: more := by
        cases part with
        | literal text => exact absurd trivial literal
        | placeholder slot => rfl
        | style introducer code => rfl
      rw [cons]
      refine isSegmentation_cons_iff.2
        ⟨congrArg (c :: ·) source, List.cons_ne_nil c [], ?_, ?_, source.symm ▸ cut⟩
      · rintro next ⟨⟩
        exact fun both => literal both.2
      · rintro text ⟨⟩ i inside mark
        obtain rfl : i = 0 := by simpa using inside
        exact nothing mark

/-- **Cutting a template gives a segmentation.** -/
theorem isSegmentation_segments (raw : List Char) : IsSegmentation raw (segments raw) := by
  fun_induction segments raw with
  | case1 => exact isSegmentation_nil
  | case2 c rest mark after found ih =>
    obtain ⟨wellFormed, notLiteral, whole⟩ := Segment.read?_eq_some_iff.1 found
    refine isSegmentation_cons_iff.2 ⟨?_, wellFormed, fun _ _ both => notLiteral both.1, ?_, ?_⟩
    · rw [ih.source_eq, whole]
    · rintro text rfl
      exact absurd trivial notLiteral
    · rw [ih.source_eq]
      exact ih
  | case3 c rest found ih => exact ih.consLiteral (Segment.read?_eq_none_iff.1 found)

/-- An introducer without a code and braces without a key are literal text. -/
example : segments "{a:}&x&c{}".toList =
    [.placeholder ⟨['a'], some []⟩, .literal ['&', 'x'], .style '&' (.color 'c'),
      .literal ['{', '}']] := by cbv

/-! ## There is no other -/

/-- A text in which nothing begins is cut into one literal text, if none follows. -/
theorem segments_literal_append {more : List Char} :
    {text : List Char} → text ≠ [] →
      (∀ i < text.length, Segment.read? ((text ++ more).drop i) = none) →
        (∀ next ∈ (segments more).head?, ¬ next.IsLiteral) →
          segments (text ++ more) = .literal text :: segments more
  | [c], _, quiet, noLiteral => by
    have here : Segment.read? (c :: more) = none := by simpa using quiet 0
    rw [List.singleton_append, segments_of_read?_eq_none here]
    cases following : segments more with
    | nil => rfl
    | cons next parts =>
      rw [following] at noLiteral
      cases next with
      | literal text => exact absurd trivial (noLiteral _ rfl)
      | placeholder slot => rfl
      | style introducer code => rfl
  | c :: d :: text, _, quiet, noLiteral => by
    have here : Segment.read? (c :: d :: (text ++ more)) = none := by simpa using quiet 0
    have later : ∀ i < (d :: text).length,
        Segment.read? (((d :: text) ++ more).drop i) = none := by
      intro i inside
      simpa using quiet (i + 1) (Nat.succ_lt_succ inside)
    have ih := segments_literal_append (List.cons_ne_nil d text) later noLiteral
    rw [List.cons_append] at ih
    rw [List.cons_append, List.cons_append, segments_of_read?_eq_none here, ih]
    rfl

/-- **A segmentation is what cutting gives.** -/
theorem segments_eq_of_isSegmentation :
    {parts : List Segment} → {raw : List Char} → IsSegmentation raw parts → segments raw = parts
  | [], raw, cut => by
    obtain rfl : raw = [] := cut.source_eq.symm
    exact segments_nil
  | part :: rest, raw, cut => by
    obtain ⟨whole, wellFormed, notBoth, quiet, cutRest⟩ := isSegmentation_cons_iff.1 cut
    have ih := segments_eq_of_isSegmentation cutRest
    by_cases literal : part.IsLiteral
    · cases part with
      | literal text =>
        -- The text ends where the next segment begins, as that one is a mark or not there at all.
        have silent : ∀ i < text.length,
            Segment.read? ((text ++ rest.flatMap Segment.source).drop i) = none := by
          intro i inside
          rw [show text ++ rest.flatMap Segment.source = raw from whole]
          exact Segment.read?_eq_none_iff.2 (quiet text rfl i inside)
        have noLiteral : ∀ next ∈ (segments (rest.flatMap Segment.source)).head?,
            ¬ next.IsLiteral := by
          rw [ih]
          exact fun next first isLiteral => notBoth next first ⟨trivial, isLiteral⟩
        rw [← whole]
        exact (segments_literal_append wellFormed silent noLiteral).trans (by rw [ih])
      | placeholder slot => exact absurd literal not_false
      | style introducer code => exact absurd literal not_false
    · have found := Segment.read?_eq_some_iff.2 ⟨wellFormed, literal, whole⟩
      rw [segments_of_read?_eq_some found, ih]

/-! ## What is compiled -/

/-- Whether a segment is a formatting code. -/
def Segment.isCode : Segment → Bool
  | style _ _ => true
  | _ => false

/-- The parameter that a placeholder hands to a formatter: none if it is missing or empty. -/
def Slot.givenParameter (slot : Slot) : Option String :=
  match slot.suffix with
  | none => none
  | some [] => none
  | some (c :: rest) => some (String.ofList (c :: rest))

/-- **A segment yields a token.**  A literal text yields a literal with exactly that text, and a
placeholder one with its key and parameter; the styles are left open. -/
inductive Segment.Yields : Segment → Token → Prop
  | literal {text : List Char} {rich : RichText} (content : rich.content = String.ofList text)
      (childless : rich.children = []) : Yields (.literal text) (.literal rich)
  | placeholder {slot : Slot} {bound : Placeholder} (key : bound.key = String.ofList slot.key)
      (parameter : bound.parameter = slot.givenParameter) :
      Yields (.placeholder slot) (.placeholder bound)

theorem Slot.map_parameter? (slot : Slot) :
    slot.parameter?.map String.ofList = slot.givenParameter := by
  obtain ⟨key, suffix⟩ := slot
  cases suffix with
  | none => rfl
  | some suffix =>
    cases suffix with
    | nil => rfl
    | cons c rest => rfl

/-- Segments are compiled one by one, whatever the pen; formatting codes leave nothing. -/
theorem yields_tokensOf (pen : Pen) (parts : List Segment) :
    List.Forall₂ Segment.Yields (parts.filter fun part => !part.isCode) (tokensOf pen parts) := by
  induction parts generalizing pen with
  | nil => exact List.Forall₂.nil
  | cons part rest ih =>
    cases part with
    | literal text => exact List.Forall₂.cons (.literal rfl rfl) (ih pen)
    | placeholder slot =>
      exact List.Forall₂.cons (.placeholder rfl slot.map_parameter?) (ih pen)
    | style introducer code => exact ih (pen.apply code)

/-- **Compiling a template compiles its one segmentation.**  For every template there is exactly one
segmentation; compiling the template gives one literal for each of its literal texts, one
placeholder for each of its placeholders and nothing for its formatting codes, in order. -/
theorem compile_segmentation (raw : String) :
    ∃ parts, IsSegmentation raw.toList parts ∧
      (∀ others, IsSegmentation raw.toList others → others = parts) ∧
        List.Forall₂ Segment.Yields (parts.filter fun part => !part.isCode) (compile raw) :=
  ⟨segments raw.toList, isSegmentation_segments raw.toList,
    fun _ cut => (segments_eq_of_isSegmentation cut).symm, yields_tokensOf {} _⟩

end Phrasebook.Template
