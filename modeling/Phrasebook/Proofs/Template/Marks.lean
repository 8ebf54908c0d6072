import Phrasebook.Proofs.Template.Grammar
import Phrasebook.Proofs.Text.Pattern

/-!
# Marks are matches of a pattern

The marks of a template, which are its placeholders and formatting codes, can also be written as one
pattern.  The parts of a mark are groups of the pattern, and so whoever searches for the pattern is
told the spans of the parts and not the mark.

The pattern is not the grammar.  It makes no difference between a key and a parameter where no colon
stands between them, so that one placeholder is matched in many ways.  The order of preference
decides: the key is as long as it can be.  With that, a match of the pattern tells exactly the mark
that is read at its place.

## Main definitions

- `markPattern` is the pattern, and `Group` are the names of its groups.
- `Segment.groupsAt` are the groups that the match of a mark has.
- `matchesFrom` are the matches that belong to the segments of a template.

## Main statements

- `match?_markPattern`: where a mark is read, it is matched, and nowhere else.
- `findAll_markPattern`: the matches in a template are those of its segments.
-/

namespace Phrasebook.Template

open String (utf8Len)
open Text (CharClass Match Pattern Place Span)
open Text.Pattern (prefers_one prefers_orElse_of_none ways_group_one_eq_nil)

/-! ## The pattern -/

/-- The groups of the pattern. -/
inductive Group where
  | placeholder
  | parameter
  | style
  | reset
  | color
  | hex
  deriving DecidableEq, Repr

/-- The letters of decorations. -/
def decorationClass : CharClass := { ranges := [('k', 'o'), ('K', 'O')] }

/-- The hexadecimal digits. -/
def hexClass : CharClass := { ranges := [('0', '9'), ('a', 'f'), ('A', 'F')] }

/-- The pattern of placeholders. -/
def slotPattern : Pattern Group :=
  (Pattern.one (.oneOf ['{'])).andThen <|
    ((Pattern.oneOrMore (.noneOf ['}', ':'])).group .placeholder).andThen <|
      (Pattern.one (.oneOf [':'])).maybe.andThen <|
        ((Pattern.oneOrMore (.noneOf ['}'])).group .parameter).maybe.andThen <|
          .one (.oneOf ['}'])

/-- The pattern of formatting codes. -/
def codePattern : Pattern Group :=
  (Pattern.one (.oneOf ['&', '§'])).andThen <|
    ((Pattern.one decorationClass).group .style).orElse <|
      ((Pattern.one (.oneOf ['r', 'R'])).group .reset).orElse <|
        ((Pattern.one hexClass).group .color).orElse <|
          (Pattern.one (.oneOf ['#'])).andThen <| (Pattern.times hexClass 6).group .hex

/-- **The pattern of marks.** -/
def markPattern : Pattern Group := slotPattern.orElse codePattern

theorem least_markPattern_pos : 0 < markPattern.least := by decide

/-- The groups that a formatting code has if it begins at an offset, after its introducer. -/
def Code.groupsAt (offset : Nat) : Code → List (Group × Span)
  | decoration letter => [(.style, Span.over offset [letter])]
  | reset letter => [(.reset, Span.over offset [letter])]
  | color digit => [(.color, Span.over offset [digit])]
  | hex digits => [(.hex, Span.over (offset + utf8Len ['#']) digits)]

/-- The groups of a placeholder that begins at an offset, by its key, by what stands between, and by
the parameter, if there is one. -/
def slotGroups (offset : Nat) (key between : List Char) (parameter? : Option (List Char)) :
    List (Group × Span) :=
  (.placeholder, Span.over (offset + utf8Len ['{']) key) ::
    (parameter?.map fun parameter =>
      (.parameter, Span.over (offset + utf8Len ('{' :: key ++ between)) parameter)).toList

/-- The groups that a segment has if it begins at an offset. -/
def Segment.groupsAt (offset : Nat) : Segment → List (Group × Span)
  | literal _ => []
  | placeholder slot => slotGroups offset slot.key [':'] slot.parameter?
  | style introducer code => code.groupsAt (offset + utf8Len [introducer])

/-- The match of a mark that begins at an offset. -/
def Segment.matchAt (offset : Nat) (mark : Segment) : Match Group :=
  ⟨Span.over offset mark.source, mark.groupsAt offset⟩

/-- A placeholder is a key, what stands between, and its parameter. -/
theorem Slot.exists_between (slot : Slot) :
    ∃ between, slot.source =
        '{' :: (slot.key ++ (between ++ (slot.parameter?.getD [] ++ ['}']))) ∧
      ∀ offset, slotGroups offset slot.key [':'] slot.parameter? =
        slotGroups offset slot.key between slot.parameter? := by
  obtain ⟨key, suffix⟩ := slot
  cases suffix with
  | none => exact ⟨[], List.append_assoc .., fun _ => rfl⟩
  | some suffix =>
    have given : (parameter? ⟨key, some suffix⟩).getD [] = suffix := by
      cases suffix <;> rfl
    refine ⟨[':'], ?_, fun _ => rfl⟩
    rw [given]
    simp [source]

/-! ## Classes -/

theorem accepts_decorationClass {c : Char} :
    decorationClass.accepts c = true ↔ c ∈ decorationLetters := by
  rw [← isDecorationLetter_iff]
  simp [decorationClass, CharClass.accepts, isDecorationLetter]

theorem accepts_hexClass {c : Char} : hexClass.accepts c = true ↔ c ∈ hexDigits := by
  rw [← isHexDigit_iff]
  simp [hexClass, CharClass.accepts, isHexDigit, or_assoc]

theorem eq_of_accepts_oneOf {c d : Char} (accepted : (CharClass.oneOf [c]).accepts d = true) :
    d = c :=
  List.mem_singleton.1 (CharClass.accepts_oneOf.1 accepted)

/-! ## What the pattern accepts -/

/-- Whatever stands between a key and a closing brace makes a placeholder with it. -/
theorem Slot.exists_source_eq {key tail : List Char} (nonempty : key ≠ [])
    (keyAll : ∀ c ∈ key, c ≠ '}' ∧ c ≠ ':') (tailAll : ∀ c ∈ tail, c ≠ '}') :
    ∃ slot : Slot, slot.WellFormed ∧ slot.source = '{' :: (key ++ (tail ++ ['}'])) := by
  have split := List.takeWhile_append_dropWhile (p := isKeyChar) (l := tail)
  have longer : ∀ c ∈ key ++ tail.takeWhile isKeyChar, c ≠ '}' ∧ c ≠ ':' :=
    List.forall_mem_append.2
      ⟨keyAll, fun c mem => isKeyChar_iff.1 (List.mem_takeWhile_imp mem)⟩
  have longerNonempty : key ++ tail.takeWhile isKeyChar ≠ [] :=
    List.append_ne_nil_of_left_ne_nil nonempty _
  cases dropped : tail.dropWhile isKeyChar with
  | nil =>
    rw [dropped, List.append_nil] at split
    refine ⟨⟨key ++ tail.takeWhile isKeyChar, none⟩, ⟨longerNonempty, longer, by simp⟩, ?_⟩
    simp [source, split]
  | cons c suffix =>
    -- the tail is without braces, so the key can only end at a colon
    have stop := head_of_dropWhile dropped
    rw [dropped] at split
    have inTail : ∀ d ∈ c :: suffix, d ≠ '}' := fun d mem =>
      tailAll d (split ▸ List.mem_append_right _ mem)
    obtain rfl : c = ':' := by
      by_contra notColon
      rw [isKeyChar_iff.2 ⟨inTail c List.mem_cons_self, notColon⟩] at stop
      cases stop
    refine ⟨⟨key ++ tail.takeWhile isKeyChar, some suffix⟩, ⟨longerNonempty, longer, ?_⟩, ?_⟩
    · rintro _ ⟨⟩ d mem
      exact inTail d (List.mem_cons_of_mem _ mem)
    · generalize tail.takeWhile isKeyChar = run at split
      rw [← split]
      simp [source]

/-- The parts of what is matched as a placeholder. -/
theorem exists_slotGroups_of_accepts {offset : Nat} {word : List Char}
    {groups : List (Group × Span)} (accepts : slotPattern.Accepts offset word groups) :
    ∃ (key between : List Char) (parameter? : Option (List Char)),
      word = '{' :: (key ++ (between ++ (parameter?.getD [] ++ ['}']))) ∧
        groups = slotGroups offset key between parameter? ∧
          key ≠ [] ∧ (∀ c ∈ key, c ≠ '}' ∧ c ≠ ':') ∧
            ∀ c ∈ between ++ parameter?.getD [], c ≠ '}' := by
  obtain ⟨_, _, _, _, rfl, rfl, ⟨⟨_, rfl, opening⟩, rfl⟩, key, _, _, _, rfl, rfl,
    ⟨_, rfl, ⟨nonempty, keyAll⟩, rfl⟩, between, _, inBetween, _, rfl, rfl, maybeColon, parameter, _,
    _, _, rfl, rfl, maybeParameter, ⟨_, rfl, closing⟩, rfl⟩ := accepts
  obtain rfl := eq_of_accepts_oneOf opening
  obtain rfl := eq_of_accepts_oneOf closing
  have keyPlain : ∀ c ∈ key, c ≠ '}' ∧ c ≠ ':' := fun c mem => by
    simpa using CharClass.accepts_noneOf.1 (keyAll c mem)
  obtain ⟨rfl, betweenPlain⟩ : inBetween = [] ∧ ∀ c ∈ between, c ≠ '}' := by
    rcases maybeColon with ⟨rfl, rfl⟩ | ⟨⟨_, rfl, isColon⟩, rfl⟩
    · exact ⟨rfl, by simp⟩
    · obtain rfl := eq_of_accepts_oneOf isColon
      exact ⟨rfl, by simp⟩
  rcases maybeParameter with ⟨rfl, rfl⟩ | ⟨_, rfl, ⟨-, all⟩, rfl⟩
  · refine ⟨key, between, none, rfl, rfl, nonempty, keyPlain, ?_⟩
    rwa [Option.getD_none, List.append_nil]
  · have parameterPlain : ∀ c ∈ parameter, c ≠ '}' := fun c mem => by
      simpa using CharClass.accepts_noneOf.1 (all c mem)
    refine ⟨key, between, some parameter, rfl, ?_, nonempty, keyPlain,
      List.forall_mem_append.2 ⟨betweenPlain, parameterPlain⟩⟩
    simp [slotGroups, Span.over, Nat.add_assoc, Nat.add_comm]

/-- What is matched as a formatting code is one, and has its groups. -/
theorem exists_code_of_accepts {offset : Nat} {word : List Char} {groups : List (Group × Span)}
    (accepts : codePattern.Accepts offset word groups) :
    ∃ (introducer : Char) (code : Code), (introducer = '&' ∨ introducer = '§') ∧
      code.WellFormed ∧ word = introducer :: code.source ∧
        groups = code.groupsAt (offset + utf8Len [introducer]) := by
  obtain ⟨_, rest, _, inRest, rfl, rfl, ⟨⟨introducer, rfl, introduces⟩, rfl⟩, accepts⟩ := accepts
  suffices isCode : ∃ code : Code, code.WellFormed ∧ rest = code.source ∧
      inRest = code.groupsAt (offset + utf8Len [introducer]) by
    obtain ⟨code, wellFormed, rfl, rfl⟩ := isCode
    exact ⟨introducer, code, by simpa using CharClass.accepts_oneOf.1 introduces, wellFormed, rfl,
      rfl⟩
  rcases accepts with ⟨_, rfl, ⟨letter, rfl, accepted⟩, rfl⟩ |
    ⟨_, rfl, ⟨letter, rfl, accepted⟩, rfl⟩ | ⟨_, rfl, ⟨digit, rfl, accepted⟩, rfl⟩ |
    ⟨_, digits, _, _, rfl, rfl, ⟨⟨hash, rfl, isHash⟩, rfl⟩, _, rfl, accepted⟩
  · exact ⟨.decoration letter, accepts_decorationClass.1 accepted, rfl, rfl⟩
  · have either : letter = 'r' ∨ letter = 'R' := by
      simpa using CharClass.accepts_oneOf.1 accepted
    exact ⟨.reset letter, either, rfl, rfl⟩
  · exact ⟨.color digit, accepts_hexClass.1 accepted, rfl, rfl⟩
  · obtain rfl := eq_of_accepts_oneOf isHash
    obtain ⟨⟨six, all⟩, rfl⟩ := Pattern.accepts_times accepted
    exact ⟨.hex digits, ⟨six, fun digit mem => accepts_hexClass.1 (all digit mem)⟩, rfl, rfl⟩

/-- **The pattern accepts marks only.** -/
theorem exists_mark_of_accepts {offset : Nat} {word : List Char} {groups : List (Group × Span)}
    (accepts : markPattern.Accepts offset word groups) :
    ∃ mark : Segment, mark.WellFormed ∧ ¬ mark.IsLiteral ∧ mark.source = word := by
  rcases accepts with accepts | accepts
  · obtain ⟨key, between, parameter?, rfl, -, nonempty, keyPlain, tailPlain⟩ :=
      exists_slotGroups_of_accepts accepts
    obtain ⟨slot, wellFormed, source⟩ := Slot.exists_source_eq nonempty keyPlain tailPlain
    exact ⟨.placeholder slot, wellFormed, not_false, by simpa [Segment.source] using source⟩
  · obtain ⟨introducer, code, introduces, wellFormed, rfl, -⟩ := exists_code_of_accepts accepts
    exact ⟨.style introducer code, ⟨introduces, wellFormed⟩, not_false, rfl⟩

/-! ## What the pattern prefers -/

/-- A placeholder is matched with the longest key. -/
theorem prefers_slot {slot : Slot} (wellFormed : slot.WellFormed) (offset : Nat)
    (after : List Char) :
    slotPattern.Prefers ⟨offset, slot.source ++ after⟩
      ⟨slotGroups offset slot.key [':'] slot.parameter?,
        ⟨offset + utf8Len slot.source, after⟩⟩ := by
  obtain ⟨key, suffix⟩ := slot
  have keyAll : ∀ c ∈ key, (CharClass.noneOf ['}', ':']).accepts c = true := fun c mem =>
    CharClass.accepts_noneOf.2 (by simpa using wellFormed.key_plain c mem)
  have keyThen {stop : Char} (place : Nat)
      (refused : (CharClass.noneOf ['}', ':']).accepts stop = false) (rest : List Char) :=
    (Pattern.prefers_oneOrMore place wellFormed.key_ne_nil keyAll refused rest).group
      Group.placeholder
  have opening := prefers_one (γ := Group) offset
    (show (CharClass.oneOf ['{']).accepts '{' = true by decide)
  have closing (place : Nat) := prefers_one (γ := Group) place
    (show (CharClass.oneOf ['}']).accepts '}' = true by decide) after
  cases suffix with
  | none =>
    have text : Slot.source ⟨key, none⟩ ++ after = '{' :: (key ++ '}' :: after) := by
      simp [Slot.source]
    rw [text]
    refine ((opening _).andThen <| (keyThen _ (by decide) after).andThen <|
      (Pattern.prefers_maybe_one_of_refused _ (by decide) after).andThen <|
        (Pattern.prefers_maybe_run_of_refused _ _ (by decide) after).andThen <|
          closing _).trans ?_
    simp [slotGroups, Slot.parameter?, Slot.source, Span.over, Nat.add_assoc, Nat.add_comm,
      Nat.add_left_comm]
  | some suffix =>
    have text : Slot.source ⟨key, some suffix⟩ ++ after =
        '{' :: (key ++ ':' :: (suffix ++ '}' :: after)) := by
      simp [Slot.source]
    have colon (place : Nat) := (prefers_one (γ := Group) place
      (show (CharClass.oneOf [':']).accepts ':' = true by decide)
        (suffix ++ '}' :: after)).maybe
    rw [text]
    cases suffix with
    | nil =>
      refine ((opening _).andThen <| (keyThen _ (by decide) _).andThen <| (colon _).andThen <|
        (Pattern.prefers_maybe_run_of_refused _ _ (by decide) after).andThen <|
          closing _).trans ?_
      simp [slotGroups, Slot.parameter?, Slot.source, Span.over, Nat.add_assoc, Nat.add_comm,
        Nat.add_left_comm]
    | cons c suffix =>
      have all : ∀ d ∈ c :: suffix, (CharClass.noneOf ['}']).accepts d = true := fun d mem =>
        CharClass.accepts_noneOf.2 (by simpa using wellFormed.suffix_plain _ rfl d mem)
      have parameter (place : Nat) := ((Pattern.prefers_oneOrMore place (List.cons_ne_nil c suffix)
        all (show (CharClass.noneOf ['}']).accepts '}' = false by decide) after).group
          Group.parameter).maybe
      have given : Slot.parameter? ⟨key, some (c :: suffix)⟩ = some (c :: suffix) := rfl
      refine ((opening _).andThen <| (keyThen _ (by decide) _).andThen <| (colon _).andThen <|
        (parameter _).andThen <| closing _).trans ?_
      simp [slotGroups, given, Slot.source, Span.over, Nat.add_assoc, Nat.add_comm,
        Nat.add_left_comm]

/-- A formatting code is matched by the group that is for its kind. -/
theorem prefers_code {introducer : Char} {code : Code}
    (introduces : introducer = '&' ∨ introducer = '§') (wellFormed : code.WellFormed)
    (offset : Nat) (after : List Char) :
    codePattern.Prefers ⟨offset, introducer :: code.source ++ after⟩
      ⟨code.groupsAt (offset + utf8Len [introducer]),
        ⟨offset + utf8Len (introducer :: code.source), after⟩⟩ := by
  have opening := prefers_one (γ := Group) offset
    (CharClass.accepts_oneOf.2 (by simpa using introduces) :
      (CharClass.oneOf ['&', '§']).accepts introducer = true)
  cases code with
  | decoration letter =>
    have style := (prefers_one (offset + introducer.utf8Size)
      (accepts_decorationClass.2 wellFormed) after).group Group.style
    refine ((opening _).andThen style.orElse).trans ?_
    simp [Code.groupsAt, Code.source, Span.over, Nat.add_comm, Nat.add_left_comm]
  | reset letter =>
    have notDecoration : decorationClass.accepts letter = false := by
      rcases wellFormed with rfl | rfl <;> decide
    have isReset : (CharClass.oneOf ['r', 'R']).accepts letter = true :=
      CharClass.accepts_oneOf.2 (by simpa using show letter = 'r' ∨ letter = 'R' from wellFormed)
    have reset := (prefers_one (offset + introducer.utf8Size) isReset after).group Group.reset
    refine ((opening _).andThen <| (prefers_orElse_of_none
      (ways_group_one_eq_nil _ _ notDecoration after)).2 reset.orElse).trans ?_
    simp [Code.groupsAt, Code.source, Span.over, Nat.add_comm, Nat.add_left_comm]
  | color digit =>
    have others : hexDigits.all (fun c =>
        !decorationClass.accepts c && !(CharClass.oneOf ['r', 'R']).accepts c) = true := by decide
    obtain ⟨notDecoration, notReset⟩ : decorationClass.accepts digit = false ∧
        (CharClass.oneOf ['r', 'R']).accepts digit = false := by
      simpa using List.all_eq_true.1 others digit wellFormed
    have color := (prefers_one (offset + introducer.utf8Size)
      (accepts_hexClass.2 wellFormed) after).group Group.color
    refine ((opening _).andThen <| (prefers_orElse_of_none
      (ways_group_one_eq_nil _ _ notDecoration after)).2 <| (prefers_orElse_of_none
        (ways_group_one_eq_nil _ _ notReset after)).2 color.orElse).trans ?_
    simp [Code.groupsAt, Code.source, Span.over, Nat.add_comm, Nat.add_left_comm]
  | hex digits =>
    obtain ⟨six, all⟩ := wellFormed
    have hash := prefers_one (γ := Group) (offset + introducer.utf8Size)
      (show (CharClass.oneOf ['#']).accepts '#' = true by decide) (digits ++ after)
    have hex := (Pattern.prefers_times (offset + introducer.utf8Size + '#'.utf8Size)
      (fun digit mem => accepts_hexClass.2 (all digit mem)) after).group Group.hex
    rw [six] at hex
    refine ((opening _).andThen <| (prefers_orElse_of_none
      (ways_group_one_eq_nil _ _ (by decide) _)).2 <| (prefers_orElse_of_none
        (ways_group_one_eq_nil _ _ (by decide) _)).2 <| (prefers_orElse_of_none
          (ways_group_one_eq_nil _ _ (by decide) _)).2 <| hash.andThen hex).trans ?_
    simp [Code.groupsAt, Code.source, Span.over, Nat.add_assoc, Nat.add_comm, Nat.add_left_comm]

/-- **A mark is matched as a whole**, with its own groups. -/
theorem prefers_mark {mark : Segment} (wellFormed : mark.WellFormed)
    (notLiteral : ¬ mark.IsLiteral) (offset : Nat) (after : List Char) :
    markPattern.Prefers ⟨offset, mark.source ++ after⟩
      ⟨mark.groupsAt offset, ⟨offset + utf8Len mark.source, after⟩⟩ := by
  cases mark with
  | literal text => exact absurd trivial notLiteral
  | placeholder slot => exact (prefers_slot wellFormed offset after).orElse
  | style introducer code =>
    -- the first alternative wants a brace where the introducer is
    have noSlot : slotPattern.ways ⟨offset, introducer :: code.source ++ after⟩ = [] := by
      rcases wellFormed.1 with rfl | rfl <;> rfl
    exact (prefers_orElse_of_none noSlot).2 (prefers_code wellFormed.1 wellFormed.2 offset after)

/-- **Where a mark is read it is matched, and nowhere else.** -/
theorem match?_markPattern (offset : Nat) (text : List Char) :
    markPattern.match? ⟨offset, text⟩ = (Segment.read? text).map fun (mark, after) =>
      (mark.matchAt offset, ⟨offset + utf8Len mark.source, after⟩) := by
  cases read : Segment.read? text with
  | some found =>
    obtain ⟨mark, after⟩ := found
    obtain ⟨wellFormed, notLiteral, rfl⟩ := Segment.read?_eq_some_iff.1 read
    have prefers := prefers_mark wellFormed notLiteral offset after
    rw [Pattern.match?, show List.head? _ = _ from prefers]
    rfl
  | none =>
    rw [Pattern.match?, Option.map_none, Option.map_eq_none_iff, List.head?_eq_none_iff,
      List.eq_nil_iff_forall_not_mem]
    intro way mem
    obtain ⟨word, accepts, split, -⟩ := Pattern.exists_word_of_mem_ways mem
    obtain ⟨mark, wellFormed, notLiteral, rfl⟩ := exists_mark_of_accepts accepts
    exact Segment.read?_eq_none_iff.1 read mark ⟨wellFormed, notLiteral, way.stop.rest, split.symm⟩

/-- The colon of a placeholder is in neither of its groups. -/
example :
    (markPattern.match? ⟨3, "{an:a:b}!".toList⟩).map Prod.fst =
      some ⟨⟨3, 11⟩, [(.placeholder, ⟨4, 6⟩), (.parameter, ⟨7, 10⟩)]⟩ := by
  cbv

/-! ## All matches -/

/-- The matches of segments that begin at an offset: one for each mark. -/
def matchesFrom (offset : Nat) : List Segment → List (Match Group)
  | [] => []
  | .literal text :: rest => matchesFrom (offset + utf8Len text) rest
  | mark :: rest => mark.matchAt offset :: matchesFrom (offset + utf8Len mark.source) rest

theorem matchesFrom_cons {mark : Segment} (notLiteral : ¬ mark.IsLiteral) (offset : Nat)
    (rest : List Segment) :
    matchesFrom offset (mark :: rest) =
      mark.matchAt offset :: matchesFrom (offset + utf8Len mark.source) rest := by
  cases mark with
  | literal text => exact absurd trivial notLiteral
  | placeholder slot => rfl
  | style introducer code => rfl

/-- A literal character moves the matches after it. -/
theorem matchesFrom_consLiteral (offset : Nat) (c : Char) (parts : List Segment) :
    matchesFrom offset (Segment.consLiteral c parts) = matchesFrom (offset + c.utf8Size) parts := by
  cases parts with
  | nil => rfl
  | cons part rest =>
    cases part with
    | literal text =>
      simp [Segment.consLiteral, matchesFrom, Nat.add_assoc, Nat.add_comm]
    | placeholder slot => simp [Segment.consLiteral, matchesFrom]
    | style introducer code => simp [Segment.consLiteral, matchesFrom]

/-- **The matches in a template are those of its segments.** -/
theorem findAll_markPattern (offset : Nat) (text : List Char) :
    markPattern.findAll least_markPattern_pos offset text = matchesFrom offset (segments text) := by
  fun_induction segments text generalizing offset with
  | case1 => exact Pattern.findAll_nil _ offset
  | case2 c rest mark after found ih =>
    have notLiteral := (Segment.read?_eq_some_iff.1 found).2.1
    have matched := match?_markPattern offset (c :: rest)
    rw [found, Option.map_some] at matched
    rw [Pattern.findAll_of_match?_eq_some _ matched, matchesFrom_cons notLiteral, ih]
  | case3 c rest notFound ih =>
    have unmatched := match?_markPattern offset (c :: rest)
    rw [notFound, Option.map_none] at unmatched
    rw [Pattern.findAll_of_match?_eq_none _ unmatched, matchesFrom_consLiteral, ih]

end Phrasebook.Template
