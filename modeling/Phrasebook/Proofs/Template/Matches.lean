import Phrasebook.Proofs.Template.Marks
import Phrasebook.Proofs.Template.Styling

/-!
# Compiling by matches

A template can also be compiled without segments: by going through the matches of the pattern of
marks, from one to the next.  What lies between two matches is cut out of the template, by bytes,
and so are the groups of a match.  A group is then looked up in a table, as the letter of a
decoration or the digit of a color, or is read as a number.

Nothing of this can be taken for granted.  A slice may be out of range or cut a character in two; a
match may have no group that is known; the tables and the reader may lack what the classes of the
pattern let through.  Each of these is an `Impasse`, and this module shows that there is none, for
any template.

That does not depend on which matches are found.  Whatever the pattern accepts in order and apart
can be gone through (`Draft.Sound.take`), since the groups of a match are pieces of the template and
their characters are those that the tables know.  It does depend on the matches what comes out.  The
ones that are found are those of the segments, and with them a draft follows the segments to the
tokens of the template (`Draft.Follows.take`).

## Main definitions

- `compileByMatches` compiles a template by matches in it, or ends in an `Impasse`.
- `Draft` is how far it has come, and `Draft.Sound` what holds of that.

## Main statement

`compilesSafely`: there is no impasse, colors by number fit into 24 bits, and with the matches that
are found, what comes out is what `compile` gives.
-/

namespace Phrasebook.Template

open String (utf8Len utf8Len_nil utf8Len_append)
open Text (IsBoundary Match Span slice? slice?_append slice?_isSome_iff utf8Len_pos)
open Text.Pattern (areMatches_findAll)

/-! ## Going through the matches -/

/-- Where there is no way to go on. -/
inductive Impasse where
  /-- A slice is out of range, or cuts a character in two. -/
  | slice (span : Span)
  /-- A match has neither the group of a placeholder nor that of a code. -/
  | noCode (whole : List Char)
  /-- A letter has no decoration. -/
  | noDecoration (code : List Char)
  /-- A digit has no color. -/
  | noColor (code : List Char)
  /-- Digits have no number. -/
  | noNumber (code : List Char)

/-- Cuts a span out of a template. -/
def cut (raw : List Char) (span : Span) : Except Impasse (List Char) :=
  match slice? raw span.start span.stop with
  | some piece => .ok piece
  | none => .error (.slice span)

/-- The decoration of the first letter of a code. -/
def readDecoration (code : List Char) : Except Impasse Decoration :=
  match code.head?.bind Decoration.ofCode? with
  | some decoration => .ok decoration
  | none => .error (.noDecoration code)

/-- The named color of the first digit of a code. -/
def readColor (code : List Char) : Except Impasse NamedColor :=
  match code.head?.bind NamedColor.ofCode? with
  | some color => .ok color
  | none => .error (.noColor code)

/-- The number of 32 bits that is written in hexadecimal digits, of which there has to be one.  A
plus sign may stand before them. -/
def hexWord? (written : List Char) : Option UInt32 :=
  let digits := if written.head? = some '+' then written.tail else written
  if digits = [] then none
  else (hexValue? digits).bind fun number =>
    if number < UInt32.size then some number.toUInt32 else none

/-- The number of a code. -/
def readNumber (code : List Char) : Except Impasse UInt32 :=
  match hexWord? code with
  | some number => .ok number
  | none => .error (.noNumber code)

/-- Cuts a span out of a template and reads it. -/
def readSpan {α : Type} (raw : List Char) (read : List Char → Except Impasse α) (span : Span) :
    Except Impasse α :=
  (cut raw span).bind read

/-- What the match of a code does to a pen. -/
def restyle (raw : List Char) (pen : Pen) (found : Match Group) : Except Impasse Pen :=
  match found.span? .style with
  | some span =>
    (readSpan raw readDecoration span).map fun decoration =>
      { pen with decorations := pen.decorations.insert decoration }
  | none =>
    match found.span? .reset with
    | some _ => .ok { color := some .reset }
    | none =>
      match found.span? .color with
      | some span =>
        (readSpan raw readColor span).map fun color => { color := some (.named color) }
      | none =>
        match found.span? .hex with
        | some span =>
          (readSpan raw readNumber span).map fun number => { color := some (.rgb number) }
        | none => readSpan raw (fun whole => .error (.noCode whole)) found.whole

/-- How far a template is compiled: the tokens so far, the pen, and the end of the last match. -/
structure Draft where
  tokens : List Token := []
  pen : Pen := {}
  index : Nat := 0

namespace Draft

/-- The tokens, with what lies between the last match and an offset as one more literal.  There is
none if nothing lies between them. -/
def writeUpTo (raw : List Char) (draft : Draft) (stop : Nat) : Except Impasse (List Token) :=
  if stop = draft.index then pure draft.tokens
  else do
    let text ← cut raw ⟨draft.index, stop⟩
    pure (draft.tokens ++ [.literal (RichText.styled (String.ofList text) draft.pen.style)])

/-- Goes on to the next match. -/
def take (raw : List Char) (draft : Draft) (found : Match Group) : Except Impasse Draft := do
  let tokens ← draft.writeUpTo raw found.whole.start
  match found.span? .placeholder with
  | some span =>
    let parameter ← (found.span? .parameter).mapM (cut raw)
    let key ← cut raw span
    let placeholder : Placeholder :=
      { key := String.ofList key
        parameter := parameter.map String.ofList
        style := draft.pen.style }
    pure
      { draft with
        tokens := tokens ++ [.placeholder placeholder]
        index := found.whole.stop }
  | none =>
    let pen ← restyle raw draft.pen found
    pure { tokens, pen, index := found.whole.stop }

end Draft

/-- **Compiles a template by matches in it.** -/
def compileByMatches (raw : List Char) (found : List (Match Group)) :
    Except Impasse (List Token) := do
  let draft ← found.foldlM (Draft.take raw) {}
  draft.writeUpTo raw (utf8Len raw)

/-- The marks that are found in a template, one after the other. -/
def matchesOf (raw : List Char) : List (Match Group) :=
  markPattern.findAll least_markPattern_pos 0 raw

/-! ## Safety -/

/-- A color of text, if it is one by number, **fits into 24 bits**. -/
def FitsColor (color? : Option TextColor) : Prop :=
  ∀ number, color? = some (.rgb number) → number.toNat < 0x1000000

/-- **A template is compiled safely.** -/
structure CompilesSafely (raw : String) : Prop where
  /-- Whatever matches are come upon in order, there is no impasse on the way to the end. -/
  onward : ∀ found, markPattern.AreMatches raw.toList 0 found →
    ∃ tokens, compileByMatches raw.toList found = .ok tokens ∧
      ∀ token ∈ tokens, FitsColor token.style.color
  /-- The marks that are found are such matches. -/
  areMatches : markPattern.AreMatches raw.toList 0 (matchesOf raw.toList)
  /-- With them, what is compiled is the template. -/
  compiled : compileByMatches raw.toList (matchesOf raw.toList) = .ok (compile raw)
  fits : ∀ token ∈ compile raw, FitsColor token.style.color
  /-- Every code that is read has a meaning for a pen. -/
  means : ∀ code ∈ codesOf (segments raw.toList), ∀ pen : Pen,
    pen.after? code = some (pen.apply code)

/-! ## Reading the groups of a match -/

section

variable {raw before after : List Char} {offset : Nat}

/-- What lies between two texts is cut out of the three. -/
theorem cut_over {piece : List Char} (before after : List Char)
    (split : raw = before ++ (piece ++ after)) (start : utf8Len before = offset) :
    cut raw (Span.over offset piece) = .ok piece := by
  rw [cut, Span.over, split, ← start, slice?_append]

theorem readSpan_over {α : Type} {read : List Char → Except Impasse α} {piece : List Char} {a : α}
    (isRead : read piece = .ok a) (before after : List Char)
    (split : raw = before ++ (piece ++ after)) (start : utf8Len before = offset) :
    readSpan raw read (Span.over offset piece) = .ok a := by
  rw [readSpan, cut_over before after split start]
  exact isRead

/-- The digits of a well formed code are read as the number that they write. -/
theorem hexWord?_eq_some {digits : List Char} (six : digits.length = 6)
    (all : ∀ digit ∈ digits, digit ∈ hexDigits) :
    hexWord? digits = some (hexNumber digits).toUInt32 := by
  have noSign : digits.head? ≠ some '+' := fun sign =>
    absurd (all '+' (List.mem_of_mem_head? sign)) (by decide)
  have nonempty : digits ≠ [] := by
    rintro rfl
    cases six
  have fits : hexNumber digits < UInt32.size := by
    have small := hexNumber_lt all
    rw [six] at small
    exact small.trans (by decide)
  simp only [hexWord?, if_neg noSign, if_neg nonempty, hexValue?_eq_hexNumber all,
    Option.bind_some, if_pos fits]

/-- A well formed code means something to every pen. -/
theorem Pen.after?_eq_some_apply {code : Code} (wellFormed : code.WellFormed) (pen : Pen) :
    pen.after? code = some (pen.apply code) := by
  obtain ⟨next, means⟩ : ∃ next, pen.after? code = some next := by
    cases code with
    | decoration letter =>
      obtain ⟨added, found, -⟩ := exists_ofCode?_decoration wellFormed
      exact ⟨_, congrArg (Option.map _) found⟩
    | reset letter => exact ⟨_, rfl⟩
    | color digit =>
      obtain ⟨color, found, -⟩ := exists_ofCode?_color wellFormed
      exact ⟨_, congrArg (Option.map _) found⟩
    | hex digits => exact ⟨_, congrArg (Option.map _) (hexValue?_eq_hexNumber wellFormed.2)⟩
  rw [Pen.apply, means, Option.getD_some]

/-- **The match of a code does to a pen what the code does.** -/
theorem restyle_code {code : Code} {found : Match Group} (wellFormed : code.WellFormed)
    (groups : found.groups = code.groupsAt offset) (split : raw = before ++ (code.source ++ after))
    (start : utf8Len before = offset) (pen : Pen) :
    restyle raw pen found = .ok (pen.apply code) := by
  obtain ⟨whole, _⟩ := found
  obtain rfl := groups
  have means := pen.after?_eq_some_apply wellFormed
  cases code with
  | decoration letter =>
    obtain ⟨added, known, applied⟩ := Option.map_eq_some_iff.1 means
    have isRead : readDecoration [letter] = .ok added := by
      rw [readDecoration, List.head?_cons, Option.bind_some, known]
    rw [← applied]
    exact congrArg (Except.map _) (readSpan_over isRead before after split start)
  | reset letter => rfl
  | color digit =>
    obtain ⟨color, known, applied⟩ := Option.map_eq_some_iff.1 means
    have isRead : readColor [digit] = .ok color := by
      rw [readColor, List.head?_cons, Option.bind_some, known]
    rw [← applied]
    exact congrArg (Except.map _) (readSpan_over isRead before after split start)
  | hex digits =>
    obtain ⟨six, all⟩ := wellFormed
    have isRead : readNumber digits = .ok (hexNumber digits).toUInt32 := by
      rw [readNumber, hexWord?_eq_some six all]
    have split : raw = before ++ ['#'] ++ (digits ++ after) := by
      rw [split, List.append_assoc]
      rfl
    obtain ⟨number, value, applied⟩ := Option.map_eq_some_iff.1 means
    obtain rfl := Option.some.inj ((hexValue?_eq_hexNumber all).symm.trans value)
    rw [← applied]
    exact congrArg (Except.map _)
      (readSpan_over isRead _ after split (by rw [utf8Len_append, start]))

/-- A code sets a color that fits into 24 bits, or leaves the one that is set. -/
theorem Pen.fitsColor_apply {code : Code} (wellFormed : code.WellFormed) {pen : Pen}
    (fits : FitsColor pen.color) : FitsColor (pen.apply code).color := by
  by_cases adds : code.IsDecoration
  · cases code with
    | decoration letter =>
      rw [(Pen.apply_decoration wellFormed pen).1]
      exact fits
    | reset letter => exact absurd adds not_false
    | color digit => exact absurd adds not_false
    | hex digits => exact absurd adds not_false
  · obtain ⟨color, selects, applied⟩ := Pen.apply_of_not_isDecoration wellFormed adds pen
    rw [applied]
    rintro number ⟨⟩
    cases selects with
    | @rgb digits _ written =>
      have small := hexNumber_lt wellFormed.2
      rw [wellFormed.1] at small
      rwa [written]

/-- The key and the parameter of a placeholder are cut out of its match. -/
theorem cut_slot {key between : List Char} {parameter? : Option (List Char)} {found : Match Group}
    (groups : found.groups = slotGroups offset key between parameter?)
    (split : raw = before ++ '{' :: (key ++ (between ++ (parameter?.getD [] ++ after))))
    (start : utf8Len before = offset) :
    found.span? .placeholder = some (Span.over (offset + utf8Len ['{']) key) ∧
      cut raw (Span.over (offset + utf8Len ['{']) key) = .ok key ∧
        (found.span? .parameter).mapM (cut raw) = .ok parameter? := by
  obtain ⟨whole, _⟩ := found
  obtain rfl := groups
  refine ⟨rfl, ?_, ?_⟩
  · refine cut_over (before ++ ['{']) (between ++ (parameter?.getD [] ++ after)) ?_ ?_
    · rw [split, List.append_assoc]
      rfl
    · rw [utf8Len_append, start]
  · cases parameter? with
    | none => rfl
    | some parameter =>
      refine congrArg (Except.map some)
        (cut_over (before ++ ('{' :: key ++ between)) after ?_ ?_)
      · rw [split]
        simp
      · rw [utf8Len_append, start]

end

/-! ## One match -/

/-- What is written with a pen: one literal, or none if there is no text. -/
def Pen.write (pen : Pen) (text : List Char) : List Token :=
  if text = [] then [] else [.literal (RichText.styled (String.ofList text) pen.style)]

namespace Draft

variable {raw pending before after : List Char} {draft : Draft} {tokens : List Token}
  {found : Match Group}

theorem writeUpTo_eq (before after : List Char) (split : raw = before ++ (pending ++ after))
    (start : utf8Len before = draft.index) :
    draft.writeUpTo raw (draft.index + utf8Len pending) =
      .ok (draft.tokens ++ draft.pen.write pending) := by
  by_cases empty : pending = []
  · rw [empty, writeUpTo, if_pos (by simp), Pen.write, if_pos rfl, List.append_nil]
    rfl
  · have size := utf8Len_pos empty
    have piece : cut raw ⟨draft.index, draft.index + utf8Len pending⟩ = .ok pending :=
      cut_over before after split start
    rw [writeUpTo, if_neg (by omega), piece, Pen.write, if_neg empty]
    rfl

/-- **The match of a placeholder is taken.** -/
theorem take_slot {key between : List Char} {parameter? : Option (List Char)} {offset : Nat}
    (groups : found.groups = slotGroups offset key between parameter?)
    (split : raw = before ++ '{' :: (key ++ (between ++ (parameter?.getD [] ++ after))))
    (start : utf8Len before = offset)
    (written : draft.writeUpTo raw found.whole.start = .ok tokens) :
    draft.take raw found = .ok
      { draft with
        tokens := tokens ++ [.placeholder
          { key := String.ofList key
            parameter := parameter?.map String.ofList
            style := draft.pen.style }]
        index := found.whole.stop } := by
  obtain ⟨hasKey, keyCut, parameterCut⟩ := cut_slot groups split start
  simp only [take, written, hasKey, parameterCut, keyCut]
  rfl

/-- **The match of a code is taken.** -/
theorem take_code {code : Code} {offset : Nat} (wellFormed : code.WellFormed)
    (groups : found.groups = code.groupsAt offset) (split : raw = before ++ (code.source ++ after))
    (start : utf8Len before = offset)
    (written : draft.writeUpTo raw found.whole.start = .ok tokens) :
    draft.take raw found = .ok ⟨tokens, draft.pen.apply code, found.whole.stop⟩ := by
  have restyled := restyle_code wellFormed groups split start draft.pen
  have noSlot : found.span? .placeholder = none := by
    rw [Match.span?, groups]
    cases code <;> rfl
  simp only [take, written, noSlot, restyled]
  rfl

/-! ## Whatever is matched -/

/-- **How far a template is compiled is sound.** -/
structure Sound (raw : List Char) (draft : Draft) : Prop where
  /-- The last match ends between two characters. -/
  index : IsBoundary raw draft.index
  pen : FitsColor draft.pen.color
  tokens : ∀ token ∈ draft.tokens, FitsColor token.style.color

/-- What lies between the last match and a later place is written. -/
theorem Sound.writeUpTo {stop : Nat} (sound : draft.Sound raw) (le : draft.index ≤ stop)
    (boundary : IsBoundary raw stop) :
    ∃ tokens, draft.writeUpTo raw stop = .ok tokens ∧
      ∀ token ∈ tokens, FitsColor token.style.color := by
  by_cases same : stop = draft.index
  · exact ⟨draft.tokens, if_pos same, sound.tokens⟩
  · obtain ⟨piece, inRange⟩ :=
      Option.isSome_iff_exists.1 (slice?_isSome_iff.2 ⟨le, sound.index, boundary⟩)
    have isCut : cut raw ⟨draft.index, stop⟩ = .ok piece := by rw [cut, inRange]
    have written : draft.writeUpTo raw stop = .ok (draft.tokens ++
        [.literal (RichText.styled (String.ofList piece) draft.pen.style)]) := by
      rw [Draft.writeUpTo, if_neg same, isCut]
      rfl
    exact ⟨_, written,
      List.forall_mem_append.2 ⟨sound.tokens, List.forall_mem_singleton.2 sound.pen⟩⟩

/-- **Any match that comes next is taken**, and what is reached is sound. -/
theorem Sound.take (sound : draft.Sound raw) (isMatch : markPattern.IsMatch raw found)
    (ahead : draft.index ≤ found.whole.start) :
    ∃ next, draft.take raw found = .ok next ∧ next.Sound raw ∧ next.index = found.whole.stop := by
  obtain ⟨before, word, after, split, whole, accepts⟩ := isMatch
  have starts : found.whole.start = utf8Len before := congrArg Span.start whole
  have stops : found.whole.stop = utf8Len before + utf8Len word := congrArg Span.stop whole
  have first : IsBoundary raw found.whole.start := ⟨before, word ++ after, split, starts.symm⟩
  have last : IsBoundary raw found.whole.stop :=
    ⟨before ++ word, after, by rw [split, List.append_assoc], by rw [utf8Len_append, stops]⟩
  obtain ⟨tokens, written, fits⟩ := sound.writeUpTo ahead first
  rcases accepts with accepts | accepts
  · obtain ⟨key, between, parameter?, rfl, groups, -⟩ := exists_slotGroups_of_accepts accepts
    have around : raw = before ++ '{' ::
        (key ++ (between ++ (parameter?.getD [] ++ '}' :: after))) := by
      rw [split]
      simp
    refine ⟨_, take_slot groups around rfl written, ⟨last, sound.pen, ?_⟩, rfl⟩
    exact List.forall_mem_append.2 ⟨fits, List.forall_mem_singleton.2 sound.pen⟩
  · obtain ⟨introducer, code, -, wellFormed, rfl, groups⟩ := exists_code_of_accepts accepts
    have around : raw = before ++ [introducer] ++ (code.source ++ after) := by
      rw [split, List.append_assoc]
      rfl
    exact ⟨_, take_code wellFormed groups around (utf8Len_append _ _) written,
      ⟨last, Pen.fitsColor_apply wellFormed sound.pen, fits⟩, rfl⟩

/-- **There is a way through all matches**, as long as they come in order. -/
theorem Sound.run {index : Nat} {all : List (Match Group)}
    (are : markPattern.AreMatches raw index all) (here : draft.index = index)
    (sound : draft.Sound raw) :
    ∃ last, all.foldlM (Draft.take raw) draft = .ok last ∧ last.Sound raw := by
  induction are generalizing draft with
  | nil => exact ⟨draft, rfl, sound⟩
  | cons ahead isMatch further ih =>
    obtain ⟨next, taken, soundToo, there⟩ := sound.take isMatch (here ▸ ahead)
    obtain ⟨last, reached, soundLast⟩ := ih there soundToo
    exact ⟨last, by rw [List.foldlM_cons, taken]; exact reached, soundLast⟩

end Draft

/-- Whatever is matched in a template, the template can be compiled by it. -/
theorem exists_compileByMatches_eq_ok {raw : List Char} {found : List (Match Group)}
    (are : markPattern.AreMatches raw 0 found) :
    ∃ tokens, compileByMatches raw found = .ok tokens ∧
      ∀ token ∈ tokens, FitsColor token.style.color := by
  have start : ({} : Draft).Sound raw :=
    { index := ⟨[], raw, rfl, rfl⟩
      pen := by rintro number ⟨⟩
      tokens := by simp }
  obtain ⟨last, reached, sound⟩ := Draft.Sound.run are rfl start
  have le : last.index ≤ utf8Len raw := by
    obtain ⟨before, after, split, index⟩ := sound.index
    rw [split, utf8Len_append, index]
    exact Nat.le_add_right _ _
  obtain ⟨tokens, written, fits⟩ := sound.writeUpTo le ⟨raw, [], by simp, rfl⟩
  refine ⟨tokens, ?_, fits⟩
  rw [compileByMatches, reached]
  exact written

/-! ## What is found -/

namespace Draft

variable {raw pending before after : List Char} {draft : Draft} {tokens : List Token}
  {mark : Segment} {parts rest : List Segment}

/-- **A draft follows the segments of a template** on the way to its tokens.  After the last match
there is literal text that is not written yet, and then there are the segments that are left. -/
structure Follows (raw : List Char) (tokens : List Token) (draft : Draft) (pending : List Char)
    (parts : List Segment) : Prop where
  split : ∃ before, raw = before ++ (pending ++ parts.flatMap Segment.source) ∧
    utf8Len before = draft.index
  wellFormed : ∀ part ∈ parts, part.WellFormed
  separated : parts.IsChain fun part next => ¬ (part.IsLiteral ∧ next.IsLiteral)
  /-- The literal text is all there is up to the next match. -/
  pending_whole : pending ≠ [] → ∀ next ∈ parts.head?, ¬ next.IsLiteral
  tokens_eq : draft.tokens ++ (draft.pen.write pending ++ tokensOf draft.pen parts) = tokens

/-- A literal text is left for the next match to write. -/
theorem Follows.pass {text : List Char}
    (follows : draft.Follows raw tokens [] (.literal text :: rest)) :
    draft.Follows raw tokens text rest where
  split := follows.split
  wellFormed part mem := follows.wellFormed part (List.mem_cons_of_mem _ mem)
  separated := (List.isChain_cons.1 follows.separated).2
  pending_whole _ next mem isLiteral :=
    (List.isChain_cons.1 follows.separated).1 next mem ⟨trivial, isLiteral⟩
  tokens_eq := by
    have nonempty : text ≠ [] := follows.wellFormed (.literal text) List.mem_cons_self
    rw [← follows.tokens_eq, Pen.write, if_neg nonempty]
    rfl

/-- A draft follows the segments over the next mark, if its new tokens and its new pen come to the
same in the end. -/
theorem Follows.advance {written : List Token} {pen : Pen}
    (follows : draft.Follows raw tokens pending (mark :: rest))
    (same : written ++ tokensOf pen rest =
      draft.tokens ++ (draft.pen.write pending ++ tokensOf draft.pen (mark :: rest))) :
    Follows raw tokens ⟨written, pen, draft.index + utf8Len pending + utf8Len mark.source⟩ []
      rest where
  split := by
    obtain ⟨before, split, start⟩ := follows.split
    refine ⟨before ++ pending ++ mark.source, ?_, ?_⟩
    · rw [split]
      simp
    · rw [utf8Len_append, utf8Len_append, start]
  wellFormed part mem := follows.wellFormed part (List.mem_cons_of_mem _ mem)
  separated := (List.isChain_cons.1 follows.separated).2
  pending_whole nonempty := absurd rfl nonempty
  tokens_eq := same.trans follows.tokens_eq

/-- **The match of the next mark is taken**, and the draft still follows the segments. -/
theorem Follows.take (follows : draft.Follows raw tokens pending (mark :: rest))
    (notLiteral : ¬ mark.IsLiteral) :
    ∃ next, draft.take raw (mark.matchAt (draft.index + utf8Len pending)) = .ok next ∧
      next.Follows raw tokens [] rest ∧
        next.index = draft.index + utf8Len pending + utf8Len mark.source := by
  obtain ⟨before, split, start⟩ := follows.split
  have written : draft.writeUpTo raw (mark.matchAt (draft.index + utf8Len pending)).whole.start =
      .ok (draft.tokens ++ draft.pen.write pending) := writeUpTo_eq before _ split start
  have here : utf8Len (before ++ pending) = draft.index + utf8Len pending := by
    rw [utf8Len_append, start]
  have around : raw = before ++ pending ++ (mark.source ++ rest.flatMap Segment.source) := by
    rw [split, List.append_assoc]
    rfl
  cases mark with
  | literal text => exact absurd trivial notLiteral
  | placeholder slot =>
    obtain ⟨between, source, groups⟩ := slot.exists_between
    have around : raw = before ++ pending ++ '{' :: (slot.key ++ (between ++
        (slot.parameter?.getD [] ++ '}' :: rest.flatMap Segment.source))) := by
      rw [around, Segment.source, source]
      simp
    have same : draft.tokens ++ draft.pen.write pending ++
        tokensOf draft.pen [.placeholder slot] ++ tokensOf draft.pen rest =
          draft.tokens ++ (draft.pen.write pending ++
            tokensOf draft.pen (.placeholder slot :: rest)) := by
      simp [tokensOf]
    exact ⟨_, take_slot (groups _) around here written, follows.advance same, rfl⟩
  | style introducer code =>
    have wellFormed := (follows.wellFormed (.style introducer code) List.mem_cons_self).2
    have around : raw = before ++ pending ++ [introducer] ++
        (code.source ++ rest.flatMap Segment.source) := by
      rw [around, List.append_assoc _ [introducer]]
      rfl
    have inside : utf8Len (before ++ pending ++ [introducer]) =
        draft.index + utf8Len pending + utf8Len [introducer] := by
      rw [utf8Len_append, here]
    have same : draft.tokens ++ draft.pen.write pending ++ tokensOf (draft.pen.apply code) rest =
        draft.tokens ++ (draft.pen.write pending ++
          tokensOf draft.pen (.style introducer code :: rest)) := by
      rw [tokensOf, List.append_assoc]
    exact ⟨_, take_code wellFormed rfl around inside written, follows.advance same, rfl⟩

/-- **The matches of the segments lead to the tokens.** -/
theorem Follows.run (follows : draft.Follows raw tokens pending parts) :
    ∃ last, (matchesFrom (draft.index + utf8Len pending) parts).foldlM (Draft.take raw) draft =
        .ok last ∧ last.writeUpTo raw (utf8Len raw) = .ok tokens := by
  induction parts generalizing draft pending with
  | nil =>
    obtain ⟨before, split, start⟩ := follows.split
    have written := writeUpTo_eq before _ split start
    have whole : utf8Len raw = draft.index + utf8Len pending := by
      rw [split, utf8Len_append, start]
      simp
    refine ⟨draft, rfl, ?_⟩
    rw [whole, written, ← follows.tokens_eq]
    simp [tokensOf]
  | cons part rest ih =>
    by_cases isLiteral : part.IsLiteral
    · cases part with
      | literal text =>
        obtain rfl : pending = [] := by
          by_contra nonempty
          exact follows.pending_whole nonempty _ rfl isLiteral
        exact ih follows.pass
      | placeholder slot => exact absurd isLiteral not_false
      | style introducer code => exact absurd isLiteral not_false
    · obtain ⟨next, taken, further, index⟩ := follows.take isLiteral
      obtain ⟨last, reached, written⟩ := ih further
      rw [index, utf8Len_nil, Nat.add_zero] at reached
      refine ⟨last, ?_, written⟩
      rw [matchesFrom_cons isLiteral, List.foldlM_cons, taken]
      exact reached

end Draft

/-- **The matches that are found lead to what is compiled.** -/
theorem compileByMatches_matchesOf (raw : String) :
    compileByMatches raw.toList (matchesOf raw.toList) = .ok (compile raw) := by
  have segmentation := isSegmentation_segments raw.toList
  have start : ({} : Draft).Follows raw.toList (compile raw) [] (segments raw.toList) :=
    { split := ⟨[], segmentation.source_eq.symm, rfl⟩
      wellFormed := segmentation.wellFormed
      separated := segmentation.separated
      pending_whole := fun nonempty => absurd rfl nonempty
      tokens_eq := rfl }
  obtain ⟨last, reached, written⟩ := start.run
  have reached : (matchesOf raw.toList).foldlM (Draft.take raw.toList) {} = .ok last := by
    rw [matchesOf, findAll_markPattern]
    exact reached
  rw [compileByMatches, reached]
  exact written

/-- **Every template is compiled safely.** -/
theorem compilesSafely (raw : String) : CompilesSafely raw := by
  have are : markPattern.AreMatches raw.toList 0 (matchesOf raw.toList) :=
    areMatches_findAll least_markPattern_pos (List.nil_append _).symm rfl (Nat.le_refl 0)
  have compiled := compileByMatches_matchesOf raw
  refine ⟨fun found => exists_compileByMatches_eq_ok, are, compiled, ?_, ?_⟩
  · obtain ⟨tokens, same, fits⟩ := exists_compileByMatches_eq_ok are
    obtain rfl := Except.ok.inj (compiled.symm.trans same)
    exact fits
  · intro code mem pen
    have segmentation := isSegmentation_segments raw.toList
    rw [← List.append_nil (segments raw.toList)] at segmentation
    exact pen.after?_eq_some_apply (segmentation.wellFormed_codesOf code mem)

end Phrasebook.Template
