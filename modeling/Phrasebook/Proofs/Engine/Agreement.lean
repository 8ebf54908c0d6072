import Phrasebook.Engine.Render
import Phrasebook.Proofs.Template.Filling
import Phrasebook.Proofs.Text.Needles

/-!
# The plain text of a rich message

An engine of compiled entries shows a message in two ways: as plain text, by replacing needles in
the raw message, and as rich text, by filling the compiled template.  For messages of a simple form
the two say the same: without its styles the rich text is the plain one.

What makes a message simple is collected in `IsSimple`.  It concerns the marks of the raw message,
the names of the arguments, and what formatters put in the place of values.  It says nothing about
literal text, which may hold any braces, nor about what the arguments are.

Both ways are led back to the segments of the raw message, written one after the other
(`Segment.shownAs`).  For the plain text this is `Template.scan_eq_flatMap_shownAs`, for the rich
text it goes token by token (`charsOfAll_shown`).  What is left is a single placeholder
(`chars_fill`).

## Main statement

`plainText_rich`: for simple messages the plain text of the rich text is the plain text.
-/

namespace Phrasebook

open Template

/-! ## Simple messages -/

/-- Whether a raw message has no marks: all of it is literal text. -/
def IsUnmarked (raw : String) : Prop := ∀ part ∈ segments raw.toList, part.IsLiteral

namespace Engine

/-- Whether a key has a message, and that one has no marks. -/
def HoldsUnmarked (engine : Engine CompiledEntry) (key : String) (language : Language) : Prop :=
  ∃ entry, engine.entry key language = some entry ∧ IsUnmarked entry.raw

/-- **What makes a raw message simple**, shown in a language with these arguments. -/
structure IsSimple (engine : Engine CompiledEntry) (language : Language) (arguments : Arguments)
    (raw : String) : Prop where
  /-- It has no formatting codes. -/
  uncoded : ∀ introducer code, Segment.style introducer code ∉ segments raw.toList
  /-- Its placeholders are written without a colon. -/
  bare : ∀ slot, Segment.placeholder slot ∈ segments raw.toList → slot.suffix = none
  /-- The names of its placeholders are bound. -/
  bound : ∀ slot, Segment.placeholder slot ∈ segments raw.toList →
    String.ofList slot.key ∈ arguments.keys
  /-- No name is empty or holds a closing brace or a colon. -/
  named : ∀ name ∈ arguments.keys, name ≠ "" ∧ ∀ c ∈ name.toList, c ≠ '}' ∧ c ≠ ':'
  /-- A value at a placeholder that has a formatter is shown as a message without marks. -/
  redirected : ∀ slot, Segment.placeholder slot ∈ segments raw.toList → ∀ value target,
    arguments.get? (String.ofList slot.key) = some (.value value) →
      engine.formatters.redirect? value none = some target → engine.HoldsUnmarked target language

variable {engine : Engine CompiledEntry} {language : Language} {arguments : Arguments}
  {key : String} {entry : CompiledEntry}

/-! ## Rich text, token by token -/

/-- Placeholders are **filled as** `output` says of their keys, in whatever style they are. -/
def FillsAs (fill : Placeholder → RichText) (output : List Char → List Char)
    (parts : List Segment) : Prop :=
  ∀ slot, Segment.placeholder slot ∈ parts → ∀ style,
    (fill ⟨String.ofList slot.key, slot.parameter?.map String.ofList, style⟩).chars =
      output slot.key

variable {fill : Placeholder → RichText} {output : List Char → List Char}

/-- The texts of tokens are those of their segments, whatever the pen. -/
theorem charsOfAll_shown {parts : List Segment} (filled : FillsAs fill output parts) (pen : Pen) :
    RichText.charsOfAll ((tokensOf pen parts).map fun
      | .literal text => text
      | .placeholder placeholder => fill placeholder) =
      parts.flatMap (Segment.shownAs output) := by
  -- The pen may be any, since a formatting code changes it for the segments that follow.
  induction parts generalizing pen with
  | nil => simp [tokensOf]
  | cons part rest ih =>
    have onward := ih fun slot mem => filled slot (List.mem_cons_of_mem part mem)
    cases part with
    | literal text => simp [tokensOf, Segment.shownAs, onward pen]
    | placeholder slot =>
      have here := filled slot List.mem_cons_self pen.style
      simp [tokensOf, Segment.shownAs, onward pen, here]
    | style introducer code =>
      simpa [tokensOf, Segment.shownAs] using onward (pen.apply code)

/-- A message as rich text has the texts of the segments of its raw message. -/
theorem chars_richWith (joined : engine.joiner = RichText.join)
    (resolved : engine.entry key language = some entry)
    (filled : FillsAs fill output (segments entry.raw.toList)) :
    (engine.richWith fill key language).chars =
      (segments entry.raw.toList).flatMap (Segment.shownAs output) := by
  rw [richWith, resolved, joined, RichText.chars_join, entry.tokens_eq, compile]
  exact charsOfAll_shown filled {}

/-- A message without marks is shown as it is, as rich text too. -/
theorem chars_bareRich (joined : engine.joiner = RichText.join)
    (held : engine.HoldsUnmarked key language) :
    (engine.bareRich key language).chars = (engine.barePlain key language).toList := by
  obtain ⟨entry, resolved, unmarked⟩ := held
  have shown : (engine.bareRich key language).chars =
      (segments entry.raw.toList).flatMap (Segment.shownAs fun _ => unbound.chars) :=
    chars_richWith joined resolved fun _ _ _ => rfl
  have literal : (segments entry.raw.toList).flatMap (Segment.shownAs fun _ => unbound.chars) =
      (segments entry.raw.toList).flatMap Segment.source := by
    refine List.flatMap_congr fun part mem => ?_
    cases part with
    | literal text => rfl
    | placeholder slot => exact absurd (unmarked _ mem) not_false
    | style introducer code => exact absurd (unmarked _ mem) not_false
  rw [shown, literal, flatMap_source_segments, barePlain, resolved]
  rfl

/-! ## One placeholder -/

/-- What is written for a name: the plain text of what is bound to it. -/
def written (engine : Engine CompiledEntry) (language : Language) (arguments : Arguments)
    (name : List Char) : List Char :=
  match arguments.get? (String.ofList name) with
  | none => []
  | some argument => (engine.argumentPlain language argument).toList

/-- **A placeholder is filled with the plain text of its argument**, in some style. -/
theorem chars_fill (joined : engine.joiner = RichText.join) {argument : Argument}
    (bound : arguments.get? key = some argument)
    (redirected : ∀ value target, argument = .value value →
      engine.formatters.redirect? value none = some target → engine.HoldsUnmarked target language)
    (style : Style) :
    (engine.fill language arguments ⟨key, none, style⟩).chars =
      (engine.argumentPlain language argument).toList := by
  cases argument with
  | null =>
    simp [Engine.fill, bound, argumentPlain, Argument.plainText, unbound, RichText.text,
      RichText.chars_eq]
  | rich text =>
    -- The style of the text is replaced; its characters stay.
    simp [Engine.fill, bound, argumentPlain, Argument.plainText, RichText.plainText,
      RichText.withStyle, RichText.chars_eq]
  | value value =>
    cases found : engine.formatters.redirect? value none with
    | none => simp [Engine.fill, bound, argumentPlain, found]
    | some target =>
      simp only [Engine.fill, bound, argumentPlain, found]
      exact chars_bareRich joined (redirected value target rfl found)

/-! ## A whole message -/

/-- The characters of a simple message as rich text. -/
theorem IsSimple.chars_rich (simple : engine.IsSimple language arguments entry.raw)
    (joined : engine.joiner = RichText.join) (resolved : engine.entry key language = some entry) :
    (engine.rich key language arguments).chars =
      (segments entry.raw.toList).flatMap
        (Segment.shownAs (engine.written language arguments)) := by
  refine chars_richWith joined resolved fun slot mem style => ?_
  have parameterless : slot.parameter? = none := by
    rw [Slot.parameter?, simple.bare slot mem]
    rfl
  obtain ⟨argument, bound⟩ : ∃ argument, arguments.get? (String.ofList slot.key) = some argument :=
    Option.isSome_iff_exists.1 ((arguments.contains_iff_mem_keys _).2 (simple.bound slot mem))
  rw [parameterless, written, bound]
  refine chars_fill joined bound ?_ style
  rintro value target rfl
  exact simple.redirected slot mem value target bound

/-- What the plain text replaces: the needle of every name by the text of its argument. -/
def replacements (engine : Engine CompiledEntry) (language : Language) (arguments : Arguments) :
    List (List Char × List Char) :=
  arguments.entries.map fun binding =>
    ((needle binding.1).toList, (engine.argumentPlain language binding.2).toList)

/-- The plain text of a message is a scan of its raw message. -/
theorem toList_plain_eq_scan (resolved : engine.entry key language = some entry) :
    (engine.plain key language arguments).toList =
      Text.scan (engine.replacements language arguments) entry.raw.toList := by
  rw [plain_eq_replaceAll resolved, Text.toList_replaceAll_needle, Text.needlePairs, List.map_map]
  rfl

/-- A bound name is replaced by what is written for it. -/
theorem mem_replacements_iff {pair : List Char × List Char} :
    pair ∈ engine.replacements language arguments ↔ ∃ name ∈ arguments.keys,
      pair = ((Slot.ofName name.toList).source, engine.written language arguments name.toList) := by
  have replaced : ∀ name argument, (name, argument) ∈ arguments.entries →
      ((needle name).toList, (engine.argumentPlain language argument).toList) =
        ((Slot.ofName name.toList).source, engine.written language arguments name.toList) := by
    intro name argument mem
    have bound : arguments.get? name = some argument := Dict.get?_of_mem_entries mem
    rw [written, String.ofList_toList, bound, Slot.source_ofName]
    simp [needle]
  constructor
  · intro supplied
    obtain ⟨⟨name, argument⟩, mem, rfl⟩ := List.mem_map.1 supplied
    exact ⟨name, List.mem_map_of_mem mem, replaced name argument mem⟩
  · rintro ⟨name, mem, rfl⟩
    obtain ⟨⟨name, argument⟩, memEntries, rfl⟩ := List.mem_map.1 mem
    exact List.mem_map.2 ⟨(name, argument), memEntries, replaced name argument memEntries⟩

/-- The characters of a simple message as plain text. -/
theorem IsSimple.toList_plain (simple : engine.IsSimple language arguments entry.raw)
    (resolved : engine.entry key language = some entry) :
    (engine.plain key language arguments).toList =
      (segments entry.raw.toList).flatMap
        (Segment.shownAs (engine.written language arguments)) := by
  rw [toList_plain_eq_scan resolved]
  refine scan_eq_flatMap_shownAs ?_ entry.raw.toList ?_
  · intro pair supplied
    obtain ⟨name, mem, rfl⟩ := mem_replacements_iff.1 supplied
    obtain ⟨nonempty, proper⟩ := simple.named name mem
    exact ⟨name.toList, ⟨by simpa using nonempty, proper⟩, rfl⟩
  · intro mark mem notLiteral
    cases mark with
    | literal text => exact absurd trivial notLiteral
    | style introducer code => exact absurd mem (simple.uncoded introducer code)
    | placeholder slot =>
      refine ⟨slot.key, by rw [Slot.ofName_key (simple.bare slot mem)], ?_⟩
      exact mem_replacements_iff.2
        ⟨String.ofList slot.key, simple.bound slot mem, by rw [String.toList_ofList]⟩

/-- **The two ways of showing a message agree.**  With the usual way of joining parts, the rich text
of a simple message has the plain text of the message for its own plain text. -/
theorem plainText_rich (joined : engine.joiner = RichText.join)
    (resolved : engine.entry key language = some entry)
    (simple : engine.IsSimple language arguments entry.raw) :
    (engine.rich key language arguments).plainText = engine.plain key language arguments := by
  rw [RichText.plainText, simple.chars_rich joined resolved, ← simple.toList_plain resolved,
    String.ofList_toList]

/-- The language of the messages of `announcing`. -/
def english : Language := { identifier := "en", name := "English" }

/-- The raw message of an announcement.  The first placeholder has a name that begins with a brace,
and the last brace is literal text. -/
def announcement : String :=
  Text.openBrace ++ "{name} is {rank}, {since} " ++ Text.openBrace

/-- An engine with an announcement and a formatter for the ranks in it. -/
def announcing : Engine CompiledEntry where
  registry := LanguageRegistry.ofLanguages LocaleTable.empty [english]
  store := Store.empty.replaceBundle "ranks"
    (Dict.ofList
      [("en", Dict.ofList [("announcement", announcement), ("rank.short.#3", "captain")])])
  formatters := Formatters.empty.register .rank (Formatter.composed .rank "rank" "short")

/-- A rich text, a value with a formatter and nothing. -/
def announced : Arguments :=
  Dict.ofList
    [(Text.openBrace ++ "name", .rich (RichText.colored "Ada" .gold)), ("rank", .value ⟨.rank, 3⟩),
      ("since", .null)]

theorem plainText_rich_announcement :
    announcing.IsSimple english announced announcement ∧
      (announcing.rich "announcement" english announced).plainText =
        announcing.plain "announcement" english announced ∧
      announcing.plain "announcement" english announced =
        "Ada is captain, null " ++ Text.openBrace := by
  have cut : segments announcement.toList =
      [.placeholder ⟨(Text.openBrace ++ "name").toList, none⟩, .literal " is ".toList,
        .placeholder ⟨"rank".toList, none⟩, .literal ", ".toList,
        .placeholder ⟨"since".toList, none⟩, .literal (" " ++ Text.openBrace).toList] := by cbv
  have slots : ∀ slot, .placeholder slot ∈ segments announcement.toList →
      slot = ⟨(Text.openBrace ++ "name").toList, none⟩ ∨ slot = ⟨"rank".toList, none⟩ ∨
        slot = ⟨"since".toList, none⟩ := by
    intro slot mem
    simpa [cut] using mem
  have simple : announcing.IsSimple english announced announcement := {
    uncoded := by simp [cut]
    bare := by
      intro slot mem
      rcases slots slot mem with rfl | rfl | rfl <;> rfl
    bound := by
      intro slot mem
      rcases slots slot mem with rfl | rfl | rfl <;> decide
    named := by
      have names : announced.keys = [Text.openBrace ++ "name", "rank", "since"] := rfl
      simp [names]
    redirected := by
      intro slot mem value target bound found
      rcases slots slot mem with rfl | rfl | rfl
      · cases bound
      · -- The rank is the only value, and its formatter names a message that is a word.
        obtain rfl : (⟨.rank, 3⟩ : Value) = value := by
          injection bound with bound
          injection bound
        have names : announcing.formatters.redirect? ⟨.rank, 3⟩ none = some "rank.short.#3" := by
          decide +kernel
        obtain rfl := Option.some.inj (names.symm.trans found)
        have word : segments "captain".toList = [.literal "captain".toList] := by cbv
        have unmarked : IsUnmarked "captain" := by
          intro part mem
          rw [word] at mem
          obtain rfl := List.mem_singleton.1 mem
          trivial
        exact ⟨MessageEntry.compile "captain", rfl, unmarked⟩
      · cases bound }
  have resolved : announcing.entry "announcement" english =
      some (MessageEntry.compile announcement) := rfl
  exact ⟨simple, plainText_rich rfl resolved simple, by decide +kernel⟩

end Engine

end Phrasebook
