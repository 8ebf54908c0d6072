import Mathlib.Data.List.Forall2
import Mathlib.Data.Nat.Digits.Defs
import Phrasebook.Proofs.Template.Styling
import Phrasebook.Proofs.Text.Case

/-!
# Spellings of formatting codes

A formatting code may stand after either introducer, and its letter or its digits may be in either
case.  This module shows that the choice is free: it changes neither what the code does nor what
else there is in the template.

The second half of that is the longer one.  A template is cut from left to right, and a change
anywhere might make a mark out of literal text, or literal text out of a mark.  So the cut is
followed for two templates at once.  Two characters are *alike* when both are introducers, or they
are the same up to ASCII case.  Whether a mark begins somewhere, and how far it goes, is a question
about classes of characters that do not tell alike characters apart.  Hence templates that are alike
character by character are cut at the same places into segments of the same kinds
(`forall₂_alike_segments`), and their codes do the same to a pen.

## Main statement

`compile_respelled`: templates that differ only in the spelling of formatting codes are compiled to
the same tokens, and cut at the same places.
-/

namespace Phrasebook.Template

/-! ## Alike characters -/

/-- Two characters are **alike** when both are introducers, or they are the same up to ASCII
case. -/
def Alike (c other : Char) : Prop :=
  (isIntroducer c = true ∧ isIntroducer other = true) ∨ other.toLower = c.toLower

theorem Alike.refl (c : Char) : Alike c c := Or.inr rfl

theorem Alike.symm {c other : Char} (alike : Alike c other) : Alike other c := by
  rcases alike with ⟨here, there⟩ | same
  · exact Or.inl ⟨there, here⟩
  · exact Or.inr same.symm

theorem forall₂_alike_symm {text other : List Char} (alike : List.Forall₂ Alike text other) :
    List.Forall₂ Alike other text :=
  (alike.imp fun _ _ => Alike.symm).flip

/-- A class of characters **is blind** if it is closed under a change of case and holds no
introducer. -/
def IsBlind (listed : List Char) : Prop :=
  ∀ c ∈ listed, isIntroducer c = false ∧ c.toLower ∈ listed ∧ c.toUpper ∈ listed

instance (listed : List Char) : Decidable (IsBlind listed) :=
  List.decidableBAll _ listed

/-- A blind class does not tell alike characters apart. -/
theorem IsBlind.mem_of_alike {listed : List Char} (blind : IsBlind listed) {c other : Char}
    (mem : c ∈ listed) (alike : Alike c other) :
    other ∈ listed ∧ other.toLower = c.toLower := by
  obtain ⟨notIntroducer, lower, upper⟩ := blind c mem
  rcases alike with ⟨introducer, -⟩ | same
  · rw [notIntroducer] at introducer
    cases introducer
  · refine ⟨?_, same⟩
    rcases Text.eq_toLower_or_eq_toUpper same with rfl | rfl
    · exact lower
    · exact upper

/-- A character that has no case is alike to itself only, unless it is an introducer. -/
theorem Alike.eq_of_isBlind {mark other : Char} (alike : Alike mark other)
    (blind : IsBlind [mark]) : other = mark :=
  List.mem_singleton.1 (blind.mem_of_alike List.mem_cons_self alike).1

/-- Introducers are alike to introducers only. -/
theorem Alike.isIntroducer {c other : Char} (alike : Alike c other)
    (introducer : Template.isIntroducer c = true) : Template.isIntroducer other = true := by
  rcases alike with ⟨-, there⟩ | same
  · exact there
  · obtain rfl | rfl : c = '&' ∨ c = '§' := by simpa [Template.isIntroducer] using introducer
    · rcases Text.eq_toLower_or_eq_toUpper same with rfl | rfl <;> decide
    · rcases Text.eq_toLower_or_eq_toUpper same with rfl | rfl <;> decide

/-! ## Alike texts -/

/-- What is alike to two texts one after the other is made of two such texts. -/
theorem exists_append_of_forall₂ {first second written : List Char}
    (alike : List.Forall₂ Alike (first ++ second) written) :
    ∃ front back, written = front ++ back ∧ List.Forall₂ Alike first front ∧
      List.Forall₂ Alike second back := by
  refine ⟨written.take first.length, written.drop first.length,
    (List.take_append_drop first.length written).symm, ?_, ?_⟩
  · have taken := List.forall₂_take first.length alike
    rwa [List.take_left] at taken
  · have dropped := List.forall₂_drop first.length alike
    rwa [List.drop_left] at dropped

/-- What is alike to a mark without case before a text is that mark before an alike text. -/
theorem exists_cons_of_forall₂ {mark : Char} (blind : IsBlind [mark]) {text written : List Char}
    (alike : List.Forall₂ Alike (mark :: text) written) :
    ∃ rest, written = mark :: rest ∧ List.Forall₂ Alike text rest := by
  obtain ⟨other, rest, like, onward, rfl⟩ := List.forall₂_cons_left_iff.1 alike
  exact ⟨rest, by rw [like.eq_of_isBlind blind], onward⟩

/-- Characters that are not a mark without case are alike to such characters only. -/
theorem ne_of_forall₂ {mark : Char} (blind : IsBlind [mark]) {text written : List Char}
    (alike : List.Forall₂ Alike text written) (plain : ∀ c ∈ text, c ≠ mark) :
    ∀ c ∈ written, c ≠ mark := by
  induction alike with
  | nil => simp
  | cons like _ ih =>
    obtain ⟨plainHere, plain⟩ := List.forall_mem_cons.1 plain
    refine List.forall_mem_cons.2 ⟨?_, ih plain⟩
    rintro rfl
    exact plainHere (like.symm.eq_of_isBlind blind)

/-- Characters of a blind class are alike to such characters only. -/
theorem IsBlind.forall_mem {listed : List Char} (blind : IsBlind listed)
    {text written : List Char} (alike : List.Forall₂ Alike text written)
    (all : ∀ c ∈ text, c ∈ listed) :
    (∀ c ∈ written, c ∈ listed) ∧ written.map Char.toLower = text.map Char.toLower := by
  induction alike with
  | nil => simp
  | cons like _ ih =>
    obtain ⟨here, all⟩ := List.forall_mem_cons.1 all
    obtain ⟨mem, same⟩ := blind.mem_of_alike here like
    obtain ⟨mems, sames⟩ := ih all
    exact ⟨List.forall_mem_cons.2 ⟨mem, mems⟩, by rw [List.map_cons, List.map_cons, same, sames]⟩

/-! ## Alike codes -/

theorem Decoration.ofCode?_congr {letter other : Char} (same : other.toLower = letter.toLower) :
    Decoration.ofCode? other = Decoration.ofCode? letter := by
  rw [Decoration.ofCode?, same, Decoration.ofCode?]

theorem NamedColor.ofCode?_congr {digit other : Char} (mem : digit ∈ hexDigits)
    (otherMem : other ∈ hexDigits) (same : other.toLower = digit.toLower) :
    NamedColor.ofCode? other = NamedColor.ofCode? digit := by
  obtain ⟨color, found, spelled⟩ := exists_ofCode?_color mem
  obtain ⟨otherColor, otherFound, otherSpelled⟩ := exists_ofCode?_color otherMem
  -- Colors with the same digit are the same.
  have sameColor := congrArg NamedColor.ofCode? (otherSpelled.trans (same.trans spelled.symm))
  rw [NamedColor.ofCode?_code, NamedColor.ofCode?_code] at sameColor
  rw [found, otherFound, sameColor]

theorem hexValue?_congr {digits others : List Char} (all : ∀ digit ∈ digits, digit ∈ hexDigits)
    (othersAll : ∀ digit ∈ others, digit ∈ hexDigits)
    (same : others.map Char.toLower = digits.map Char.toLower) :
    hexValue? others = hexValue? digits := by
  have places : ∀ text : List Char, text.map hexPlace =
      (text.map Char.toLower).map fun digit => "0123456789abcdef".toList.idxOf digit := by
    intro text
    rw [List.map_map]
    rfl
  have number : hexNumber others = hexNumber digits := by
    rw [hexNumber, hexNumber, List.map_reverse, List.map_reverse, places, places, same]
  rw [hexValue?_eq_hexNumber all, hexValue?_eq_hexNumber othersAll, number]

/-- What is alike to a code is a code, which does the same to every pen. -/
theorem Code.exists_of_forall₂ {code : Code} (wellFormed : code.WellFormed) {written : List Char}
    (alike : List.Forall₂ Alike code.source written) :
    ∃ other : Code, other.WellFormed ∧ other.source = written ∧
      ∀ pen : Pen, pen.apply other = pen.apply code := by
  cases code with
  | decoration letter =>
    obtain ⟨other, rest, like, onward, rfl⟩ := List.forall₂_cons_left_iff.1 alike
    obtain rfl := List.forall₂_nil_left_iff.1 onward
    have blind : IsBlind decorationLetters := by decide
    obtain ⟨mem, same⟩ := blind.mem_of_alike wellFormed like
    refine ⟨.decoration other, mem, rfl, fun pen => ?_⟩
    rw [Pen.apply, Pen.apply, Pen.after?, Pen.after?, Decoration.ofCode?_congr same]
  | reset letter =>
    obtain ⟨other, rest, like, onward, rfl⟩ := List.forall₂_cons_left_iff.1 alike
    obtain rfl := List.forall₂_nil_left_iff.1 onward
    have blind : IsBlind ['r', 'R'] := by decide
    have letterMem : letter ∈ ['r', 'R'] := by simpa [WellFormed] using wellFormed
    have mem := (blind.mem_of_alike letterMem like).1
    exact ⟨.reset other, by simpa [WellFormed] using mem, rfl, fun pen => rfl⟩
  | color digit =>
    obtain ⟨other, rest, like, onward, rfl⟩ := List.forall₂_cons_left_iff.1 alike
    obtain rfl := List.forall₂_nil_left_iff.1 onward
    have blind : IsBlind hexDigits := by decide
    obtain ⟨mem, same⟩ := blind.mem_of_alike wellFormed like
    refine ⟨.color other, mem, rfl, fun pen => ?_⟩
    rw [Pen.apply, Pen.apply, Pen.after?, Pen.after?, NamedColor.ofCode?_congr wellFormed mem same]
  | hex digits =>
    obtain ⟨six, all⟩ := wellFormed
    obtain ⟨others, rfl, onward⟩ := exists_cons_of_forall₂ (by decide) alike
    have blind : IsBlind hexDigits := by decide
    obtain ⟨mems, sames⟩ := blind.forall_mem onward all
    refine ⟨.hex others, ⟨onward.length_eq.symm.trans six, mems⟩, rfl, fun pen => ?_⟩
    rw [Pen.apply, Pen.apply, Pen.after?, Pen.after?, hexValue?_congr all mems sames]

/-! ## Alike segments -/

/-- What is alike to a placeholder is a placeholder. -/
theorem Slot.exists_of_forall₂ {slot : Slot} (wellFormed : slot.WellFormed) {written : List Char}
    (alike : List.Forall₂ Alike slot.source written) :
    ∃ other : Slot, other.WellFormed ∧ other.source = written := by
  have opening : IsBlind ['{'] := by decide
  have closing : IsBlind ['}'] := by decide
  have colon : IsBlind [':'] := by decide
  obtain ⟨key, suffix⟩ := slot
  obtain ⟨front, back, rfl, frontAlike, backAlike⟩ := exists_append_of_forall₂ alike
  obtain ⟨last, rfl, lastAlike⟩ := exists_cons_of_forall₂ closing backAlike
  obtain rfl := List.forall₂_nil_left_iff.1 lastAlike
  obtain ⟨begun, tail, rfl, begunAlike, tailAlike⟩ := exists_append_of_forall₂ frontAlike
  obtain ⟨name, rfl, nameAlike⟩ := exists_cons_of_forall₂ opening begunAlike
  have nonempty : name ≠ [] := by
    rintro rfl
    exact wellFormed.key_ne_nil (List.forall₂_nil_right_iff.1 nameAlike)
  have plain : ∀ c ∈ name, c ≠ '}' ∧ c ≠ ':' := fun c mem =>
    ⟨ne_of_forall₂ closing nameAlike (fun d dMem => (wellFormed.key_plain d dMem).1) c mem,
      ne_of_forall₂ colon nameAlike (fun d dMem => (wellFormed.key_plain d dMem).2) c mem⟩
  cases suffix with
  | none =>
    obtain rfl := List.forall₂_nil_left_iff.1 tailAlike
    exact ⟨⟨name, none⟩, ⟨nonempty, plain, by simp⟩, rfl⟩
  | some suffix =>
    obtain ⟨parameter, rfl, parameterAlike⟩ := exists_cons_of_forall₂ colon tailAlike
    refine ⟨⟨name, some parameter⟩, ⟨nonempty, plain, ?_⟩, rfl⟩
    rintro _ ⟨⟩
    exact ne_of_forall₂ closing parameterAlike (wellFormed.suffix_plain suffix rfl)

/-- A well formed placeholder is known by its characters. -/
theorem Slot.eq_of_source_eq {slot other : Slot} (wellFormed : slot.WellFormed)
    (otherWellFormed : other.WellFormed) (same : other.source = slot.source) : other = slot := by
  have read := Slot.read?_source_append wellFormed []
  rw [← same, Slot.read?_source_append otherWellFormed []] at read
  cases read
  rfl

/-- Two segments are **alike** when they are of the same kind and alike character by character.
Placeholders are well formed, and codes do the same to every pen. -/
inductive Segment.Alike : Segment → Segment → Prop
  | literal {text other : List Char} (texts : List.Forall₂ Template.Alike text other) :
      Alike (.literal text) (.literal other)
  | placeholder {slot other : Slot} (slots : List.Forall₂ Template.Alike slot.source other.source)
      (wellFormed : slot.WellFormed) (otherWellFormed : other.WellFormed) :
      Alike (.placeholder slot) (.placeholder other)
  | style {introducer other : Char} {code otherCode : Code}
      (codes : List.Forall₂ Template.Alike (introducer :: code.source) (other :: otherCode.source))
      (effect : ∀ pen : Pen, pen.apply otherCode = pen.apply code) :
      Alike (.style introducer code) (.style other otherCode)

theorem Segment.Alike.forall₂_source {part other : Segment} (alike : part.Alike other) :
    List.Forall₂ Template.Alike part.source other.source := by
  cases alike with
  | literal texts => exact texts
  | placeholder slots _ _ => exact slots
  | style codes _ => exact codes

theorem Segment.Alike.isCode_eq {part other : Segment} (alike : part.Alike other) :
    other.isCode = part.isCode := by
  cases alike <;> rfl

/-- What is alike to a mark is a mark. -/
theorem Segment.exists_of_forall₂ {mark : Segment} (wellFormed : mark.WellFormed)
    (notLiteral : ¬ mark.IsLiteral) {written : List Char}
    (alike : List.Forall₂ Template.Alike mark.source written) :
    ∃ other : Segment, other.WellFormed ∧ ¬ other.IsLiteral ∧ other.source = written ∧
      mark.Alike other := by
  cases mark with
  | literal text => exact absurd trivial notLiteral
  | placeholder slot =>
    obtain ⟨other, otherWellFormed, rfl⟩ := Slot.exists_of_forall₂ wellFormed alike
    exact ⟨.placeholder other, otherWellFormed, not_false, rfl,
      .placeholder alike wellFormed otherWellFormed⟩
  | style introducer code =>
    obtain ⟨introduces, codeWellFormed⟩ := wellFormed
    obtain ⟨other, rest, like, codeAlike, rfl⟩ := List.forall₂_cons_left_iff.1 alike
    obtain ⟨otherCode, otherWellFormed, rfl, effect⟩ :=
      Code.exists_of_forall₂ codeWellFormed codeAlike
    have otherIntroduces : other = '&' ∨ other = '§' := by
      simpa [isIntroducer] using like.isIntroducer (by simpa [isIntroducer] using introduces)
    exact ⟨.style other otherCode, ⟨otherIntroduces, otherWellFormed⟩, not_false, rfl,
      .style alike effect⟩

/-! ## Alike templates are cut alike -/

variable {text other : List Char}

/-- Where a mark is read, an alike mark is read in an alike text. -/
theorem exists_read?_of_forall₂ (alike : List.Forall₂ Alike text other) {mark : Segment}
    {after : List Char} (found : Segment.read? text = some (mark, after)) :
    ∃ otherMark otherAfter, Segment.read? other = some (otherMark, otherAfter) ∧
      mark.Alike otherMark ∧ List.Forall₂ Alike after otherAfter := by
  obtain ⟨wellFormed, notLiteral, rfl⟩ := Segment.read?_eq_some_iff.1 found
  obtain ⟨written, otherAfter, rfl, markAlike, afterAlike⟩ := exists_append_of_forall₂ alike
  obtain ⟨otherMark, otherWellFormed, otherNotLiteral, rfl, like⟩ :=
    Segment.exists_of_forall₂ wellFormed notLiteral markAlike
  exact ⟨otherMark, otherAfter,
    Segment.read?_eq_some_iff.2 ⟨otherWellFormed, otherNotLiteral, rfl⟩, like, afterAlike⟩

theorem read?_eq_none_of_forall₂ (alike : List.Forall₂ Alike text other)
    (notFound : Segment.read? text = none) : Segment.read? other = none := by
  cases found : Segment.read? other with
  | none => rfl
  | some pair =>
    obtain ⟨_, _, foundToo, -⟩ := exists_read?_of_forall₂ (forall₂_alike_symm alike) found
    rw [notFound] at foundToo
    cases foundToo

/-- Alike characters before alike segments make alike segments. -/
theorem forall₂_alike_consLiteral {c d : Char} (like : Alike c d) {parts others : List Segment}
    (alike : List.Forall₂ Segment.Alike parts others) :
    List.Forall₂ Segment.Alike (Segment.consLiteral c parts) (Segment.consLiteral d others) := by
  have single : Segment.Alike (.literal [c]) (.literal [d]) := .literal (.cons like .nil)
  cases alike with
  | nil => exact .cons single .nil
  | cons first rest =>
    cases first with
    | literal texts => exact .cons (.literal (.cons like texts)) rest
    | placeholder slots wellFormed otherWellFormed =>
      exact .cons single (.cons (.placeholder slots wellFormed otherWellFormed) rest)
    | style codes effect => exact .cons single (.cons (.style codes effect) rest)

/-- **Alike templates are cut alike.** -/
theorem forall₂_alike_segments (alike : List.Forall₂ Alike text other) :
    List.Forall₂ Segment.Alike (segments text) (segments other) := by
  fun_induction segments text generalizing other with
  | case1 =>
    obtain rfl := List.forall₂_nil_left_iff.1 alike
    rw [segments_nil]
    exact .nil
  | case2 c rest mark after found ih =>
    obtain ⟨otherMark, otherAfter, otherFound, like, onward⟩ := exists_read?_of_forall₂ alike found
    rw [segments_of_read?_eq_some otherFound]
    exact .cons like (ih onward)
  | case3 c rest notFound ih =>
    have otherNotFound := read?_eq_none_of_forall₂ alike notFound
    obtain ⟨d, otherRest, like, onward, rfl⟩ := List.forall₂_cons_left_iff.1 alike
    rw [segments_of_read?_eq_none otherNotFound]
    exact forall₂_alike_consLiteral like (ih onward)

theorem map_isCode_eq {parts others : List Segment}
    (alike : List.Forall₂ Segment.Alike parts others) :
    others.map Segment.isCode = parts.map Segment.isCode := by
  induction alike with
  | nil => rfl
  | cons here _ ih => rw [List.map_cons, List.map_cons, here.isCode_eq, ih]

theorem map_length_eq {texts written : List (List Char)}
    (alike : List.Forall₂ (List.Forall₂ Alike) texts written) :
    written.map List.length = texts.map List.length := by
  induction alike with
  | nil => rfl
  | cons here _ ih => rw [List.map_cons, List.map_cons, here.length_eq, ih]

/-! ## Other spellings of the codes -/

/-- **Other spellings of a segment.**  A segment may stay as it is written.  A formatting code may
also have any introducer, and its letter or its digits in any case. -/
inductive Segment.Respells : Segment → List Char → Prop
  | kept {part : Segment} : Respells part part.source
  | code {introducer other : Char} {code : Code} {letters : List Char}
      (introduces : other = '&' ∨ other = '§')
      (sameLetters : letters.map Char.toLower = code.source.map Char.toLower) :
      Respells (.style introducer code) (other :: letters)

theorem forall₂_alike_of_map_toLower_eq :
    {text other : List Char} → other.map Char.toLower = text.map Char.toLower →
      List.Forall₂ Alike text other
  | [], other, same => by
    obtain rfl := List.map_eq_nil_iff.1 same
    exact .nil
  | c :: text, other, same => by
    obtain ⟨d, rest, rfl, here, onward⟩ := List.map_eq_cons_iff.1 same
    exact .cons (Or.inr here) (forall₂_alike_of_map_toLower_eq onward)

/-- Other spellings are alike character by character. -/
theorem Segment.Respells.forall₂_alike {part : Segment} {piece : List Char}
    (respells : part.Respells piece) (wellFormed : part.WellFormed) :
    List.Forall₂ Template.Alike part.source piece := by
  cases respells with
  | kept => exact List.forall₂_same.2 fun c _ => Template.Alike.refl c
  | code introduces sameLetters =>
    refine .cons (Or.inl ⟨?_, ?_⟩) (forall₂_alike_of_map_toLower_eq sameLetters)
    · simpa [isIntroducer] using wellFormed.1
    · simpa [isIntroducer] using introduces

/-- Two segments **have the same effect** on the tokens: they are the same, or they are codes that
do the same to every pen. -/
inductive Segment.SameEffect : Segment → Segment → Prop
  | refl (part : Segment) : SameEffect part part
  | code {introducer other : Char} {code otherCode : Code}
      (effect : ∀ pen : Pen, pen.apply otherCode = pen.apply code) :
      SameEffect (.style introducer code) (.style other otherCode)

/-- An alike segment that is another spelling has the same effect. -/
theorem Segment.Alike.sameEffect {part other : Segment} (alike : part.Alike other)
    (respells : part.Respells other.source) : part.SameEffect other := by
  cases alike with
  | literal texts =>
    generalize written : Segment.source (.literal _) = piece at respells
    cases respells with
    | kept =>
      obtain rfl := written
      exact .refl _
  | placeholder slots wellFormed otherWellFormed =>
    generalize written : Segment.source (.placeholder _) = piece at respells
    cases respells with
    | kept =>
      obtain rfl := Slot.eq_of_source_eq wellFormed otherWellFormed written
      exact .refl _
  | style codes effect => exact .code effect

/-- The tokens of segments do not depend on the spelling of the codes. -/
theorem tokensOf_congr {parts others : List Segment}
    (same : List.Forall₂ Segment.SameEffect parts others) (pen : Pen) :
    tokensOf pen others = tokensOf pen parts := by
  induction same generalizing pen with
  | nil => rfl
  | @cons part other _ _ here _ ih =>
    cases here with
    | refl =>
      cases part with
      | literal text => rw [tokensOf, tokensOf, ih]
      | placeholder slot => rw [tokensOf, tokensOf, ih]
      | style introducer code => rw [tokensOf, tokensOf, ih]
    | code effect => rw [tokensOf, tokensOf, effect, ih]

/-- If a text is made of pieces that are alike to the segments of another text, these pieces are its
segments. -/
theorem map_source_segments_flatten {parts : List Segment} {pieces : List (List Char)}
    (texts : List.Forall₂ (List.Forall₂ Alike) (parts.map Segment.source) pieces)
    (alike : List.Forall₂ Segment.Alike parts (segments pieces.flatten)) :
    (segments pieces.flatten).map Segment.source = pieces := by
  -- Both are cuts of the same text into pieces of the same lengths.
  refine List.eq_iff_flatten_eq.2 ⟨?_, ?_⟩
  · rw [← List.flatMap_def, flatMap_source_segments]
  · rw [map_length_eq texts]
    refine map_length_eq ?_
    rw [List.forall₂_map_left_iff, List.forall₂_map_right_iff]
    exact alike.imp fun _ _ => Segment.Alike.forall₂_source

/-- **The spelling of formatting codes does not matter.**  Take the segments of a template and write
each of them anew: as it is or, if it is a formatting code, after any introducer and with its letter
or digits in any case.  The result is compiled to the same tokens.  It is cut into just these
pieces, and those that were formatting codes are the formatting codes. -/
theorem compile_respelled {raw : String} {parts : List Segment} {pieces : List (List Char)}
    (cut : IsSegmentation raw.toList parts)
    (respelled : List.Forall₂ Segment.Respells parts pieces) :
    compile (String.ofList pieces.flatten) = compile raw ∧
      ∃ others, IsSegmentation pieces.flatten others ∧ others.map Segment.source = pieces ∧
        others.map Segment.isCode = parts.map Segment.isCode := by
  have texts : List.Forall₂ (List.Forall₂ Alike) (parts.map Segment.source) pieces := by
    rw [List.forall₂_map_left_iff]
    refine ((List.forall₂_and_left _ _).2 ⟨cut.wellFormed, respelled⟩).imp ?_
    exact fun part piece both => both.2.forall₂_alike both.1
  have whole : List.Forall₂ Alike raw.toList pieces.flatten := by
    rw [← cut.source_eq, List.flatMap_def]
    exact List.rel_flatten texts
  have alike := forall₂_alike_segments whole
  rw [segments_eq_of_isSegmentation cut] at alike
  have sources := map_source_segments_flatten texts alike
  refine ⟨?_, segments pieces.flatten, isSegmentation_segments _, sources, ?_⟩
  · rw [← sources, List.forall₂_map_right_iff] at respelled
    have same := List.Forall₂.mp (fun _ _ => Segment.Alike.sameEffect) alike respelled
    rw [compile, compile, String.toList_ofList, segments_eq_of_isSegmentation cut]
    exact tokensOf_congr same {}
  · exact map_isCode_eq alike

/-- Both codes are spelled differently.  The introducers in the literal texts and in the placeholder
are not theirs, and stay. -/
theorem compile_respelled_banner :
    IsSegmentation "&&C{&c}§#aBcDeF&#12".toList
        [.literal ['&'], .style '&' (.color 'C'), .placeholder ⟨['&', 'c'], none⟩,
          .style '§' (.hex "aBcDeF".toList), .literal "&#12".toList] ∧
      "&§c{&c}&#AbCdEf&#12".toList =
        [['&'], ['§', 'c'], "{&c}".toList, "&#AbCdEf".toList, "&#12".toList].flatten ∧
      compile "&§c{&c}&#AbCdEf&#12" = compile "&&C{&c}§#aBcDeF&#12" := by
  have parts : segments "&&C{&c}§#aBcDeF&#12".toList =
      [.literal ['&'], .style '&' (.color 'C'), .placeholder ⟨['&', 'c'], none⟩,
        .style '§' (.hex "aBcDeF".toList), .literal "&#12".toList] := by
    cbv
  have cut := parts ▸ isSegmentation_segments "&&C{&c}§#aBcDeF&#12".toList
  have respelled : List.Forall₂ Segment.Respells
      [.literal ['&'], .style '&' (.color 'C'), .placeholder ⟨['&', 'c'], none⟩,
        .style '§' (.hex "aBcDeF".toList), .literal "&#12".toList]
      [['&'], ['§', 'c'], "{&c}".toList, "&#AbCdEf".toList, "&#12".toList] :=
    .cons .kept (.cons (.code (Or.inr rfl) rfl) (.cons .kept
      (.cons (.code (Or.inl rfl) (by decide)) (.cons .kept .nil))))
  exact ⟨cut, by decide, (compile_respelled cut respelled).1⟩

end Phrasebook.Template
