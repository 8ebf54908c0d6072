import Phrasebook.Engine.Render
import Phrasebook.Proofs.Text.Needles

/-!
# Redirects nest once

Showing a message may show another: a formatter sends a value to the message that is put in its
place, and that message is shown in turn.  Nothing keeps a formatter from naming the very message
that is being shown, so nothing about the formatters says that this comes to an end.  It does since
the message that a formatter names is shown without arguments: no value is bound there for a
formatter to be called with.

`Engine.plainVia` and `Engine.richVia` are one step of showing a message.  They leave open how
messages are shown in turn, and record what formatters are called with.  A step followed to a
`depth` fails when messages are shown inside one another deeper than that.

## Main definitions

- `Showing` is a way of showing messages, and `Showing.nested` follows a step to a depth.
- `NestsOnce` says what a step may make of the way of showing messages in turn that it is given.

## Main statement

`Engine.redirects_nest_once`: both steps nest once, and following them deep enough for one redirect
shows what `plain` and `rich` show.
-/

namespace Phrasebook

/-! ## Actions that end -/

/-- What a formatter is called with. -/
structure Formatting where
  value : Value
  parameter : Option String

/-- An action **comes to** a result: it ends whatever formatters were called with before, and it
calls them only with what `own` allows. -/
def ComesTo {α : Type} (own : Formatting → Prop) (action : Loading (List Formatting) α)
    (result : α) : Prop :=
  ∀ called, ∃ more, action called = (some result, called ++ more) ∧ ∀ call ∈ more, own call

namespace ComesTo

variable {α β : Type} {own : Formatting → Prop}

theorem pure (result : α) : ComesTo own (pure result) result := fun called =>
  ⟨[], by rw [List.append_nil]; rfl, by simp⟩

theorem bind {first : Loading (List Formatting) α} {next : α → Loading (List Formatting) β}
    {result : α} {last : β} (ends : ComesTo own first result)
    (onward : ComesTo own (next result) last) : ComesTo own (first >>= next) last := by
  intro called
  obtain ⟨more, ran, allowed⟩ := ends called
  obtain ⟨others, ranOn, allowedOn⟩ := onward (called ++ more)
  refine ⟨more ++ others, ?_, List.forall_mem_append.2 ⟨allowed, allowedOn⟩⟩
  rw [Loading.bind_apply, ran]
  simp only [ranOn, List.append_assoc]

/-- Actions in turn come to the list of their results. -/
theorem mapM {action : α → Loading (List Formatting) β} {result : α → β} :
    {values : List α} → (∀ value ∈ values, ComesTo own (action value) (result value)) →
      ComesTo own (values.mapM action) (values.map result)
  | [], _ => pure []
  | value :: rest, ends => by
    rw [List.mapM_cons]
    have others := mapM fun other mem => ends other (List.mem_cons_of_mem value mem)
    exact (ends value List.mem_cons_self).bind (others.bind (pure _))

/-- Substitution comes to the text in which every argument is replaced by what rendering it comes
to. -/
theorem substituteM {render : α → Loading (List Formatting) (List Char)}
    {output : α → List Char} {text : List Char} {pairs : List (List Char × α)}
    (ends : ∀ pair ∈ pairs, ComesTo own (render pair.2) (output pair.2)) :
    ComesTo own (Text.substituteM render text pairs) (Text.substitute output text pairs) := by
  have rendered : ∀ seen ∈ Text.sightings text pairs, ComesTo own
      (do let written ← render seen.2; Pure.pure (seen.1, written)) (seen.1, output seen.2) := by
    intro seen mem
    obtain ⟨pair, supplied, sighted⟩ := List.mem_filterMap.1 mem
    obtain ⟨s, -, rfl⟩ := Option.map_eq_some_iff.1 sighted
    exact (ends pair supplied).bind (pure _)
  rw [Text.substitute_eq_scan, ← Text.drain_sightings]
  exact (mapM rendered).bind (pure _)

end ComesTo

/-! ## One step of showing a message -/

/-- A way of showing messages that records what formatters are called with. -/
abbrev Showing (ρ : Type) := String → Language → Arguments → Loading (List Formatting) ρ

/-- Follows a step until `depth` messages are being shown inside one another, and gives up when one
more is to be shown. -/
def Showing.nested {ρ : Type} (step : Showing ρ → Showing ρ) : Nat → Showing ρ
  | 0 => fun _ _ _ => failure
  | depth + 1 => step (Showing.nested step depth)

/-- Calls the formatter of the kind of a value, if there is one. -/
def Formatters.call (formatters : Formatters) (value : Value) (parameter : Option String) :
    Loading (List Formatting) (Option String) := do
  match formatters.redirect? value parameter with
  | none => pure none
  | some key => do
    modify (· ++ [⟨value, parameter⟩])
    pure (some key)

namespace Engine

variable {ε : Type}

/-- The plain text of an argument, with messages shown in turn by `again`. -/
def argumentVia (engine : Engine ε) (again : Showing String) (language : Language) :
    Argument → Loading (List Formatting) String
  | .value value => do
    match ← engine.formatters.call value none with
    | some key => again key language Dict.empty
    | none => pure value.text
  | other => pure other.plainText

/-- A message as plain text, with messages shown in turn by `again`. -/
def plainVia [MessageEntry ε] (engine : Engine ε) (again : Showing String) : Showing String :=
  fun key language arguments =>
    match engine.entry key language with
    | none => pure (missingPlain key language)
    | some entry => do
      let render argument := do
        let written ← engine.argumentVia again language argument
        pure written.toList
      let shown ← Text.substituteM render (MessageEntry.raw entry).toList
        (arguments.entries.map fun binding => ((needle binding.1).toList, binding.2))
      pure (String.ofList shown)

/-- The rich text of a placeholder, with messages shown in turn by `again`. -/
def fillVia (engine : Engine ε) (again : Showing RichText) (language : Language)
    (arguments : Arguments) (placeholder : Template.Placeholder) :
    Loading (List Formatting) RichText :=
  match arguments.get? placeholder.key with
  | none => pure unbound
  | some .null => pure unbound
  | some (.rich text) =>
    pure <| text.withStyle
      { placeholder.style with hover := text.style.hover, click := text.style.click }
  | some (.value value) => do
    match ← engine.formatters.call value placeholder.parameter with
    | some key => again key language Dict.empty
    | none => pure (RichText.styled value.text placeholder.style)

/-- A message as rich text, with messages shown in turn by `again`. -/
def richVia (engine : Engine CompiledEntry) (again : Showing RichText) : Showing RichText :=
  fun key language arguments =>
    match engine.entry key language with
    | none => pure (missingRich key language)
    | some entry => do
      let parts ← entry.tokens.mapM fun
        | .literal text => pure text
        | .placeholder placeholder => engine.fillVia again language arguments placeholder
      pure (engine.joiner parts)

end Engine

/-! ## What a step makes of showing messages in turn -/

/-- A formatter is called with **a value of these arguments**. -/
def Arguments.Holds (arguments : Arguments) (call : Formatting) : Prop :=
  ∃ name, arguments.get? name = some (.value call.value)

/-- **A step nests once**, on an engine with whatever formatters. -/
structure NestsOnce {ε ρ : Type} (engine : Engine ε) (step : Engine ε → Showing ρ → Showing ρ)
    (shown : Engine ε → String → Language → Arguments → ρ) : Prop where
  /-- All messages that are shown in turn are shown without arguments and in the same language. -/
  bare : ∀ {again other : Showing ρ} {language : Language},
    (∀ key, again key language Dict.empty = other key language Dict.empty) →
      ∀ key arguments,
        step engine again key language arguments = step engine other key language arguments
  /-- A message without arguments shows no other in turn and calls no formatter. -/
  still : ∀ again key language,
    step engine again key language Dict.empty = pure (shown engine key language Dict.empty)
  /-- It is shown the same with any other formatters. -/
  unformatted : ∀ formatters key language,
    shown { engine with formatters } key language Dict.empty = shown engine key language Dict.empty
  /-- Depth for one redirect is enough, and formatters are called with values of the caller only. -/
  ends : ∀ depth key language arguments,
    ComesTo arguments.Holds (Showing.nested (step engine) (depth + 2) key language arguments)
      (shown engine key language arguments)

namespace Engine

variable {ε : Type}

/-- Calling a formatter records a call if there is one to be called. -/
theorem comesTo_call {own : Formatting → Prop} (formatters : Formatters) {value : Value}
    {parameter : Option String} (allowed : own ⟨value, parameter⟩) :
    ComesTo own (formatters.call value parameter) (formatters.redirect? value parameter) := by
  unfold Formatters.call
  cases formatters.redirect? value parameter with
  | none => exact ComesTo.pure none
  | some key => exact fun called => ⟨[⟨value, parameter⟩], rfl, by simpa using allowed⟩

/-! ## Plain text -/

section Plain

variable [MessageEntry ε] (engine : Engine ε) {language : Language}

theorem plain_empty (key : String) (language : Language) :
    engine.plain key language Dict.empty = engine.barePlain key language := by
  unfold plain barePlain
  cases engine.entry key language with
  | none => rfl
  | some entry =>
    show Text.replaceAll (MessageEntry.raw entry) [] = MessageEntry.raw entry
    rw [Text.replaceAll, Text.substitute_eq_scan, Text.scan_eq_self fun i => rfl]
    exact String.ofList_toList

/-- A value is shown as the message that its formatter names, without arguments. -/
theorem argumentPlain_of_redirect {value : Value} {target : String}
    (redirected : engine.formatters.redirect? value none = some target) :
    engine.argumentPlain language (.value value) = engine.plain target language Dict.empty := by
  simp only [argumentPlain, redirected, plain_empty]

/-- A message without arguments has nothing to be replaced. -/
theorem plainVia_empty (again : Showing String) (key : String) (language : Language) :
    engine.plainVia again key language Dict.empty =
      pure (engine.plain key language Dict.empty) := by
  rw [plain_empty]
  unfold plainVia barePlain
  cases engine.entry key language with
  | none => rfl
  | some entry =>
    simp only [Dict.empty, List.map_nil, Text.substituteM_nil, pure_bind, String.ofList_toList]

/-- Messages shown in turn matter only as they are shown without arguments. -/
theorem plainVia_congr {again other : Showing String}
    (same : ∀ key, again key language Dict.empty = other key language Dict.empty) (key : String)
    (arguments : Arguments) :
    engine.plainVia again key language arguments =
      engine.plainVia other key language arguments := by
  have sameArgument : engine.argumentVia again language = engine.argumentVia other language := by
    funext argument
    cases argument with
    | null => rfl
    | rich text => rfl
    | value value => simp only [argumentVia, same]
  unfold plainVia
  rw [sameArgument]

variable {again : Showing String} {own : Formatting → Prop}

/-- The text of an argument, if messages are shown in turn as they are shown without arguments. -/
theorem comesTo_argumentVia (showsBare : ∀ key, again key language Dict.empty =
      pure (engine.plain key language Dict.empty)) {argument : Argument}
    (allowed : ∀ value, argument = .value value → own ⟨value, none⟩) :
    ComesTo own (engine.argumentVia again language argument)
      (engine.argumentPlain language argument) := by
  cases argument with
  | null => exact ComesTo.pure _
  | rich text => exact ComesTo.pure _
  | value value =>
    refine (comesTo_call engine.formatters (allowed value rfl)).bind ?_
    cases redirected : engine.formatters.redirect? value none with
    | none =>
      simp only [argumentPlain, redirected]
      exact ComesTo.pure _
    | some target =>
      simp only [argumentPlain_of_redirect engine redirected, showsBare]
      exact ComesTo.pure _

/-- Substituting the texts of the arguments makes the plain text. -/
theorem plain_of_entry {key : String} {entry : ε} (arguments : Arguments)
    (resolved : engine.entry key language = some entry) :
    engine.plain key language arguments = String.ofList
      (Text.substitute (fun argument => (engine.argumentPlain language argument).toList)
        (MessageEntry.raw entry).toList
        (arguments.entries.map fun binding => ((needle binding.1).toList, binding.2))) := by
  rw [← String.toList_inj, plain_eq_replaceAll resolved, Text.toList_replaceAll_needle,
    String.toList_ofList, Text.substitute_eq_scan, Text.needlePairs, List.map_map, List.map_map]
  rfl

/-- A message as plain text, if messages are shown in turn as they are shown without arguments. -/
theorem comesTo_plainVia (showsBare : ∀ key, again key language Dict.empty =
      pure (engine.plain key language Dict.empty)) (key : String) (arguments : Arguments) :
    ComesTo arguments.Holds (engine.plainVia again key language arguments)
      (engine.plain key language arguments) := by
  unfold plainVia
  cases resolved : engine.entry key language with
  | none =>
    rw [plain, resolved]
    exact ComesTo.pure _
  | some entry =>
    rw [plain_of_entry engine arguments resolved]
    refine (ComesTo.substituteM fun pair supplied => ?_).bind (ComesTo.pure _)
    obtain ⟨⟨name, argument⟩, mem, rfl⟩ := List.mem_map.1 supplied
    refine (comesTo_argumentVia engine showsBare ?_).bind (ComesTo.pure _)
    rintro value rfl
    exact ⟨name, Dict.get?_of_mem_entries mem⟩

theorem nestsOnce_plain : NestsOnce engine plainVia plain where
  bare := plainVia_congr engine
  still := plainVia_empty engine
  unformatted := by
    intro formatters key language
    rw [plain_empty, plain_empty]
    rfl
  ends := fun _ key language arguments =>
    comesTo_plainVia engine (fun target => plainVia_empty engine _ target language) key arguments

end Plain

/-! ## Rich text -/

section Rich

variable (engine : Engine CompiledEntry) {language : Language} {arguments : Arguments}
  {placeholder : Template.Placeholder}

theorem rich_empty (key : String) (language : Language) :
    engine.rich key language Dict.empty = engine.bareRich key language := rfl

/-- A value is shown as the message that its formatter names, without arguments. -/
theorem fill_of_redirect {value : Value} {target : String}
    (bound : arguments.get? placeholder.key = some (.value value))
    (redirected : engine.formatters.redirect? value placeholder.parameter = some target) :
    engine.fill language arguments placeholder = engine.rich target language Dict.empty := by
  simp only [fill, bound, redirected, rich_empty]

variable {again : Showing RichText} {own : Formatting → Prop}

/-- Messages shown in turn matter only as they are shown without arguments. -/
theorem richVia_congr {other : Showing RichText}
    (same : ∀ key, again key language Dict.empty = other key language Dict.empty) (key : String)
    (arguments : Arguments) :
    engine.richVia again key language arguments = engine.richVia other key language arguments := by
  have sameFill : engine.fillVia again language arguments =
      engine.fillVia other language arguments := by
    funext placeholder
    unfold fillVia
    simp only [same]
  unfold richVia
  rw [sameFill]

/-- The text of a placeholder, if messages are shown in turn as they are shown without arguments. -/
theorem comesTo_fillVia (showsBare : ∀ key, again key language Dict.empty =
      pure (engine.rich key language Dict.empty)) :
    ComesTo arguments.Holds (engine.fillVia again language arguments placeholder)
      (engine.fill language arguments placeholder) := by
  unfold fillVia
  cases bound : arguments.get? placeholder.key with
  | none =>
    simp only [fill, bound]
    exact ComesTo.pure _
  | some argument =>
    cases argument with
    | value value =>
      refine (comesTo_call engine.formatters ⟨placeholder.key, bound⟩).bind ?_
      cases redirected : engine.formatters.redirect? value placeholder.parameter with
      | none =>
        simp only [fill, bound, redirected]
        exact ComesTo.pure _
      | some target =>
        simp only [fill_of_redirect engine bound redirected, showsBare]
        exact ComesTo.pure _
    | _ =>
      simp only [fill, bound]
      exact ComesTo.pure _

/-- A message as rich text, if messages are shown in turn as they are shown without arguments. -/
theorem comesTo_richVia (showsBare : ∀ key, again key language Dict.empty =
      pure (engine.rich key language Dict.empty)) (key : String) (arguments : Arguments) :
    ComesTo arguments.Holds (engine.richVia again key language arguments)
      (engine.rich key language arguments) := by
  unfold richVia rich richWith
  cases engine.entry key language with
  | none => exact ComesTo.pure _
  | some entry =>
    refine (ComesTo.mapM fun token _ => ?_).bind (ComesTo.pure _)
    cases token with
    | literal text => exact ComesTo.pure _
    | placeholder placeholder => exact comesTo_fillVia engine showsBare

/-- A message without arguments shows none in turn. -/
theorem richVia_empty (again : Showing RichText) (key : String) (language : Language) :
    engine.richVia again key language Dict.empty =
      pure (engine.rich key language Dict.empty) := by
  unfold richVia rich richWith
  cases engine.entry key language with
  | none => rfl
  | some entry =>
    have unfilled : (fun token : Template.Token => match token with
        | .literal text => pure text
        | .placeholder placeholder => engine.fillVia again language Dict.empty placeholder) =
        fun token => pure (f := Loading (List Formatting)) (match token with
          | .literal text => text
          | .placeholder placeholder => engine.fill language Dict.empty placeholder) := by
      funext token
      cases token <;> rfl
    have parts := congrArg entry.tokens.mapM unfilled
    exact congrArg (· >>= fun parts => pure (engine.joiner parts)) (parts.trans List.mapM_pure)

theorem nestsOnce_rich : NestsOnce engine richVia rich where
  bare := richVia_congr engine
  still := richVia_empty engine
  unformatted := fun _ _ _ => rfl
  ends := fun _ key language arguments =>
    comesTo_richVia engine (fun target => richVia_empty engine _ target language) key arguments

end Rich

/-! ## The bound -/

/-- **Redirects nest once**, whatever the formatters are: they may name the message that is being
shown, one another's messages, or messages that are missing.  Showing a message comes to an end with
one redirect inside the message, and formatters are called with the values of the caller only.
A value is put in as the message that its formatter names, shown without arguments: plain, that is
the raw message as it is; rich, it is the message with all placeholders unbound; and it is the
text that stands for a missing message if there is none. -/
theorem redirects_nest_once [MessageEntry ε] (engine : Engine ε)
    (templates : Engine CompiledEntry) :
    (NestsOnce engine plainVia plain ∧
      (∀ language value target, engine.formatters.redirect? value none = some target →
        engine.argumentPlain language (.value value) = engine.plain target language Dict.empty) ∧
      ∀ key language, engine.plain key language Dict.empty =
        match engine.entry key language with
        | none => missingPlain key language
        | some entry => MessageEntry.raw entry) ∧
    NestsOnce templates richVia rich ∧
      (∀ language arguments placeholder value target,
        arguments.get? placeholder.key = some (.value value) →
          templates.formatters.redirect? value placeholder.parameter = some target →
            templates.fill language arguments placeholder =
              templates.rich target language Dict.empty) ∧
      ∀ key language, templates.rich key language Dict.empty =
        match templates.entry key language with
        | none => missingRich key language
        | some entry =>
          templates.joiner (entry.tokens.map fun
            | .literal text => text
            | .placeholder _ => unbound) :=
  ⟨⟨nestsOnce_plain engine, fun _ _ _ => argumentPlain_of_redirect engine, plain_empty engine⟩,
    nestsOnce_rich templates, fun _ _ _ _ _ => fill_of_redirect templates, rich_empty templates⟩

/-- The language of the message of `echoing`. -/
def dutch : Language := { identifier := "nl", name := "Nederlands" }

/-- An engine with one message, and a formatter that sends ranks to that very message. -/
def echoing : Engine CompiledEntry where
  registry := LanguageRegistry.ofLanguages LocaleTable.empty [dutch]
  store := Store.empty.replaceBundle "echoes"
    (Dict.ofList [("nl", Dict.ofList [("echo", "<{rank}>")])])
  formatters := Formatters.empty.register .rank (Formatter.fixed .rank "echo")

/-- A rank to be shown. -/
def third : Value := ⟨.rank, ⟨3, by decide⟩⟩

/-- The arguments of the message: the rank that is redirected to it. -/
def ranked : Arguments := Dict.ofList [("rank", .value third)]

theorem redirects_nest_once_echo :
    echoing.formatters.redirect? third none = some "echo" ∧
      echoing.argumentPlain dutch (.value third) = "<{rank}>" ∧
      echoing.plain "echo" dutch ranked = "<<{rank}>>" ∧
      echoing.fill dutch ranked ⟨"rank", none, {}⟩ = echoing.rich "echo" dutch Dict.empty := by
  have itself : echoing.formatters.redirect? third none = some "echo" := by decide +kernel
  have nest := redirects_nest_once echoing echoing
  refine ⟨itself, ?_, by decide +kernel, ?_⟩
  · rw [nest.1.2.1 dutch third "echo" itself]
    decide +kernel
  · exact nest.2.2.1 dutch ranked ⟨"rank", none, {}⟩ third "echo" rfl itself

end Engine

end Phrasebook
