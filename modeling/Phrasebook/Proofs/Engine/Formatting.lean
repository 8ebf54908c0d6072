import Phrasebook.Engine.Render
import Phrasebook.Proofs.Formatter.History
import Phrasebook.Proofs.Text.Needles

/-!
# What formatters reach in a message

A message asks the formatters about the values that are put into it, and about nothing else.  As
plain text these are the values whose names are written in the raw message, as rich text those that
are bound at its placeholders.  Whatever a formatter names is shown without arguments, so no other
formatter has a say there.

Registries that answer alike for these values are therefore as good as each other
(`plain_formatters_congr`, `rich_formatters_congr`).  A change of the formatter of one kind is seen
by values of exactly this kind, so it does not reach a message into which no such value is put.
Rich texts and null are no values, and no formatter reaches them, not even one for values that hold
a rich text.

## Main statement

`formatters_by_kind`: a registry answers by the current formatter of exactly the kind of a value,
and changes of formatters of other kinds are not seen in any message.
-/

namespace Phrasebook.Engine

open Template

variable {ε : Type} {key : String} {language : Language} {arguments : Arguments}

/-! ## Plain text -/

section Plain

variable [MessageEntry ε]

/-- A value is **put into a plain message**: its name is written in the raw message. -/
def PutsPlain (engine : Engine ε) (key : String) (language : Language) (arguments : Arguments)
    (value : Value) : Prop :=
  ∃ entry name, engine.entry key language = some entry ∧
    (needle name).toList <:+: (MessageEntry.raw entry).toList ∧
      arguments.get? name = some (.value value)

variable {engine : Engine ε} {formatters : Formatters}

/-- The plain text of an argument asks the formatters about its value. -/
theorem argumentPlain_formatters_congr {argument : Argument}
    (alike : ∀ value, argument = .value value →
      formatters.redirect? value none = engine.formatters.redirect? value none) :
    ({ engine with formatters } : Engine ε).argumentPlain language argument =
      engine.argumentPlain language argument := by
  cases argument with
  | null => rfl
  | rich text => rfl
  | value value =>
    rw [argumentPlain, argumentPlain, alike value rfl]
    rfl

/-- **Plain text asks the formatters about the values that are put into it.** -/
theorem plain_formatters_congr
    (alike : ∀ value, engine.PutsPlain key language arguments value →
      formatters.redirect? value none = engine.formatters.redirect? value none) :
    ({ engine with formatters } : Engine ε).plain key language arguments =
      engine.plain key language arguments := by
  cases resolved : engine.entry key language with
  | none =>
    have missing : ({ engine with formatters } : Engine ε).entry key language = none := resolved
    rw [plain, plain, resolved, missing]
  | some entry =>
    have found : ({ engine with formatters } : Engine ε).entry key language = some entry := resolved
    rw [plain_eq_replaceAll resolved, plain_eq_replaceAll found, ← String.toList_inj,
      Text.toList_replaceAll_needle, Text.toList_replaceAll_needle, Text.needlePairs,
      Text.needlePairs, List.map_map, List.map_map]
    refine Text.scan_map_congr fun binding supplied occurs => congrArg String.toList ?_
    refine argumentPlain_formatters_congr fun value isValue => alike value ?_
    exact ⟨entry, binding.1, resolved, occurs, Dict.get?_of_mem_entries (isValue ▸ supplied)⟩

end Plain

/-! ## Rich text -/

section Rich

variable {engine : Engine CompiledEntry} {formatters : Formatters}

/-- A value is **put into a rich message**: it is bound at a placeholder of the message. -/
def PutsRich (engine : Engine CompiledEntry) (key : String) (language : Language)
    (arguments : Arguments) (value : Value) : Prop :=
  ∃ entry placeholder, engine.entry key language = some entry ∧
    Token.placeholder placeholder ∈ entry.tokens ∧
      arguments.get? placeholder.key = some (.value value)

/-- A placeholder asks the formatters about the value that is bound at it. -/
theorem fill_formatters_congr {placeholder : Placeholder}
    (alike : ∀ value, arguments.get? placeholder.key = some (.value value) →
      formatters.redirect? value placeholder.parameter =
        engine.formatters.redirect? value placeholder.parameter) :
    ({ engine with formatters } : Engine CompiledEntry).fill language arguments placeholder =
      engine.fill language arguments placeholder := by
  unfold fill
  cases bound : arguments.get? placeholder.key with
  | none => rfl
  | some argument =>
    cases argument with
    | null => rfl
    | rich text => rfl
    | value value =>
      simp only [alike value bound]
      rfl

/-- **Rich text asks the formatters about the values that are put into it.** -/
theorem rich_formatters_congr
    (alike : ∀ value, engine.PutsRich key language arguments value → ∀ parameter,
      formatters.redirect? value parameter = engine.formatters.redirect? value parameter) :
    ({ engine with formatters } : Engine CompiledEntry).rich key language arguments =
      engine.rich key language arguments := by
  have sameEntry : ({ engine with formatters } : Engine CompiledEntry).entry key language =
      engine.entry key language := rfl
  rw [rich, rich, richWith, richWith, sameEntry]
  cases resolved : engine.entry key language with
  | none => rfl
  | some entry =>
    refine congrArg engine.joiner (List.map_congr_left fun token mem => ?_)
    cases token with
    | literal text => rfl
    | placeholder placeholder =>
      refine fill_formatters_congr fun value bound => alike value ?_ placeholder.parameter
      exact ⟨entry, placeholder, resolved, mem, bound⟩

end Rich

/-! ## Changes of formatters -/

/-- An engine after changes of its formatters. -/
def reformat (engine : Engine ε) (edits : List FormatterEdit) : Engine ε :=
  { engine with formatters := edits.foldl FormatterEdit.apply engine.formatters }

end Phrasebook.Engine

namespace Phrasebook

/-- Changes of formatters of other kinds do not redirect a value anew. -/
theorem Formatters.redirect?_foldl_apply {value : Value} {edits : List FormatterEdit}
    (others : ∀ edit ∈ edits, value.kind ≠ edit.kind) (formatters : Formatters)
    (parameter : Option String) :
    (edits.foldl FormatterEdit.apply formatters).redirect? value parameter =
      formatters.redirect? value parameter := by
  induction edits generalizing formatters with
  | nil => rfl
  | cons edit rest ih =>
    obtain ⟨other, others⟩ := List.forall_mem_cons.1 others
    rw [List.foldl_cons, ih others, redirect?_apply_of_ne formatters edit other]

namespace Engine

open Template

variable {ε : Type}

/-- **Changes of formatters reach only values of their kinds**, in plain text. -/
structure SparesPlain [MessageEntry ε] (engine : Engine ε) (edits : List FormatterEdit) : Prop where
  /-- Any other argument has the plain text that it had; a rich text or null always has. -/
  argument : ∀ language argument,
    (∀ value, argument = .value value → ∀ edit ∈ edits, value.kind ≠ edit.kind) →
      (engine.reformat edits).argumentPlain language argument =
        engine.argumentPlain language argument
  /-- A message into which no such value is put is the same message. -/
  message : ∀ key language arguments,
    (∀ value, engine.PutsPlain key language arguments value →
      ∀ edit ∈ edits, value.kind ≠ edit.kind) →
      (engine.reformat edits).plain key language arguments = engine.plain key language arguments

/-- **Changes of formatters reach only values of their kinds**, in rich text. -/
structure SparesRich (engine : Engine CompiledEntry) (edits : List FormatterEdit) : Prop where
  /-- A placeholder at which anything else is bound is filled as it was. -/
  placeholder : ∀ language (arguments : Arguments) (placeholder : Placeholder),
    (∀ value, arguments.get? placeholder.key = some (.value value) →
      ∀ edit ∈ edits, value.kind ≠ edit.kind) →
      (engine.reformat edits).fill language arguments placeholder =
        engine.fill language arguments placeholder
  /-- A message into which no such value is put is the same message. -/
  message : ∀ key language arguments,
    (∀ value, engine.PutsRich key language arguments value →
      ∀ edit ∈ edits, value.kind ≠ edit.kind) →
      (engine.reformat edits).rich key language arguments = engine.rich key language arguments

theorem sparesPlain [MessageEntry ε] (engine : Engine ε) (edits : List FormatterEdit) :
    engine.SparesPlain edits where
  argument _ _ others := argumentPlain_formatters_congr fun value isValue =>
    Formatters.redirect?_foldl_apply (others value isValue) engine.formatters none
  message _ _ _ others := plain_formatters_congr fun value puts =>
    Formatters.redirect?_foldl_apply (others value puts) engine.formatters none

theorem sparesRich (engine : Engine CompiledEntry) (edits : List FormatterEdit) :
    engine.SparesRich edits where
  placeholder _ _ placeholder others := fill_formatters_congr fun value bound =>
    Formatters.redirect?_foldl_apply (others value bound) engine.formatters placeholder.parameter
  message _ _ _ others := rich_formatters_congr fun value puts parameter =>
    Formatters.redirect?_foldl_apply (others value puts) engine.formatters parameter

/-- **Formatters go by the exact kind of a value.**  After any registrations, replacements and
removals a registry answers for each kind by its current formatter, whether it is asked for the
formatter or for a redirect.  And changes of formatters of some kinds are not seen in any message,
plain or rich, into which no value of just these kinds is put. -/
theorem formatters_by_kind (history : List FormatterEdit) :
    Formatters.AnswersByKind history (Formatters.ofHistory history) ∧
      (∀ (ε : Type) [MessageEntry ε] (engine : Engine ε) (edits : List FormatterEdit),
        engine.SparesPlain edits) ∧
      ∀ (engine : Engine CompiledEntry) (edits : List FormatterEdit), engine.SparesRich edits :=
  ⟨Formatters.answersByKind_ofHistory history, fun _ _ => sparesPlain, sparesRich⟩

/-- A formatter for ranks took the place of another, and one for rich texts was removed. -/
def seating : List FormatterEdit :=
  [.register .rank (Formatter.fixed .rank "somewhere"),
    .register .rich (Formatter.fixed .rich "note"),
    .register .rank (Formatter.composed .rank "seat" "short"), .unregister .rich]

/-- The language of the messages of `banquet`. -/
def latin : Language := { identifier := "la", name := "Latina" }

/-- The raw message for a seat. -/
def seat : String := "{guest}: {rank}"

/-- An engine with a message for a seat. -/
def banquet : Engine CompiledEntry where
  registry := LanguageRegistry.ofLanguages LocaleTable.empty [latin]
  store := Store.empty.replaceBundle "banquet"
    (Dict.ofList [("la", Dict.ofList [("seat", seat), ("seat.short.#7", "window")])])
  formatters := Formatters.ofHistory seating

/-- A rich text, a rank, and a text that the message does not use. -/
def seated : Arguments :=
  Dict.ofList
    [("guest", .rich (RichText.colored "Ada" .gold)), ("rank", .value ⟨.rank, ⟨7, by decide⟩⟩),
      ("host", .value ⟨.text, "Bo"⟩)]

/-- The rank is the only value that the message uses, so formatters for rich texts and for texts
come unseen. -/
theorem formatters_by_kind_seated :
    IsCurrent seating (Formatter.composed .rank "seat" "short") ∧
      (∀ formatter : Formatter .rich, ¬ IsCurrent seating formatter) ∧
      banquet.plain "seat" latin seated = "Ada: window" ∧
      ∀ (notes : Formatter .rich) (names : Formatter .text),
        (banquet.reformat [.register .rich notes, .register .text names]).plain
            "seat" latin seated = "Ada: window" ∧
          (banquet.reformat [.register .rich notes, .register .text names]).rich
            "seat" latin seated = banquet.rich "seat" latin seated := by
  obtain ⟨answers, plainSpared, richSpared⟩ := formatters_by_kind seating
  have shown : banquet.plain "seat" latin seated = "Ada: window" := by decide +kernel
  have resolved : banquet.entry "seat" latin = some (MessageEntry.compile seat) := rfl
  have values : ∀ name value, seated.get? name = some (.value value) →
      value.kind = .rank ∨ name = "host" := by
    intro name value bound
    have listed : (name, Argument.value value) ∈
        [("guest", .rich (RichText.colored "Ada" .gold)), ("rank", .value ⟨.rank, ⟨7, by decide⟩⟩),
          ("host", .value ⟨.text, "Bo"⟩)] := Dict.mem_entries_iff.2 bound
    simp only [List.mem_cons, Prod.mk.injEq, List.not_mem_nil, or_false, reduceCtorEq, and_false,
      false_or, Argument.value.injEq] at listed
    rcases listed with ⟨-, rfl⟩ | ⟨isHost, -⟩
    · exact Or.inl rfl
    · exact Or.inr isHost
  have plainly : ∀ value, banquet.PutsPlain "seat" latin seated value → value.kind = .rank := by
    rintro value ⟨entry, name, found, occurs, bound⟩
    obtain rfl := Option.some.inj (resolved.symm.trans found)
    rcases values name value bound with isRank | rfl
    · exact isRank
    · exact absurd (Text.occursIn_iff.2 occurs) (by decide +kernel)
  have cut : segments seat.toList =
      [.placeholder ⟨"guest".toList, none⟩, .literal ": ".toList,
        .placeholder ⟨"rank".toList, none⟩] := by cbv
  have richly : ∀ value, banquet.PutsRich "seat" latin seated value → value.kind = .rank := by
    rintro value ⟨entry, placeholder, found, mem, bound⟩
    obtain rfl := Option.some.inj (resolved.symm.trans found)
    rcases values placeholder.key value bound with isRank | isHost
    · exact isRank
    · have tokens : (MessageEntry.compile seat : CompiledEntry).tokens = compile seat := rfl
      rw [tokens, compile, cut] at mem
      simp only [tokensOf, List.mem_cons, List.not_mem_nil, or_false, reduceCtorEq, false_or,
        Token.placeholder.injEq] at mem
      rcases mem with rfl | rfl
      · exact absurd isHost (by decide)
      · exact absurd isHost (by decide)
  refine ⟨(answers.shows .rank _).1 rfl, (answers.leaves ⟨.rich, RichText.text ""⟩ none).1 rfl,
    shown, fun notes names => ?_⟩
  have spared : ∀ value : Value, value.kind = .rank →
      ∀ edit ∈ [FormatterEdit.register .rich notes, .register .text names],
        value.kind ≠ edit.kind := by
    intro value isRank
    simp [isRank, FormatterEdit.kind]
  constructor
  · rw [(plainSpared _ banquet _).message _ _ _ fun value puts => spared value (plainly value puts),
      shown]
  · exact (richSpared banquet _).message _ _ _ fun value puts => spared value (richly value puts)

end Engine

end Phrasebook
