import Phrasebook.Engine.Render
import Phrasebook.Proofs.Engine.Publication
import Phrasebook.Proofs.Store.Recompiled

/-!
# Engines of different kinds of entries keep in step

An operation of an engine is a program for any kind of entries.  It never asks what an entry holds:
what it does next depends on the names of bundles and on the answers of its surroundings.  So the
programs for two kinds of entries ask for the same things, one after the other, except that the
stores that they are shown and that they publish hold other entries (`EngineProgram.InStep`).  Told
the same answers they come to the same end, and what one publishes is what the other publishes,
recompiled.

Nothing is assumed about the surroundings.  They may answer anything, fail at any call, or never
come back, as long as they treat both engines alike.

## Main definitions

- `EngineProgram.InStep` relates programs that ask for the same things.
- `Store.ReadAlike` is what a store of raw and a store of compiled entries have in common for those
  who read them, and `Turn.InStep` what two turns on such stores have in common.

## Main statements

- `Surroundings.performAll_recompiled`: a run for other entries is the same run, recompiled.
- `Surroundings.engines_in_step`: a plain and a rich engine that go through the same operations do
  the same in every turn, and readers find the same in them before and after it.
-/

namespace Phrasebook

variable {ε α β τ : Type} (δ : Type) [MessageEntry ε] [MessageEntry δ]

/-! ## Programs in step -/

namespace EngineRequest

/-- The same request for other entries. -/
def recompiled : EngineRequest ε → EngineRequest δ
  | enter => enter
  | leave => leave
  | languages => languages
  | reloadLanguages => reloadLanguages
  | load bundle wanted => load bundle wanted
  | snapshot => snapshot
  | publish store => publish (store.recompiled δ)

/-- The same answer for other entries. -/
def recompiledReply : (request : EngineRequest ε) → request.Reply → (request.recompiled δ).Reply
  | enter, told => told
  | leave, told => told
  | languages, known => known
  | reloadLanguages, answer => answer
  | load _ _, answer => answer
  | snapshot, store => store.recompiled δ
  | publish _, told => told

end EngineRequest

namespace EngineProgram

variable {δ}

/-- **Programs that ask for the same things**, as long as they are told the same, and come to the
same result. -/
inductive InStep : EngineProgram ε α → EngineProgram δ α → Prop
  | done (result : α) : InStep (Interaction.done result) (Interaction.done result)
  | ask (request : EngineRequest ε) {next : request.Reply → EngineProgram ε α}
      {other : (request.recompiled δ).Reply → EngineProgram δ α}
      (onward : ∀ answer, InStep (next answer) (other (request.recompiledReply δ answer))) :
      InStep (Interaction.ask request next) (Interaction.ask (request.recompiled δ) other)

namespace InStep

/-- What comes next is in step if it is for every result. -/
theorem bind {program : EngineProgram ε α} {other : EngineProgram δ α}
    {next : α → EngineProgram ε β} {nextOther : α → EngineProgram δ β}
    (inStep : InStep program other) (onward : ∀ result, InStep (next result) (nextOther result)) :
    InStep (program >>= next) (other >>= nextOther) := by
  induction inStep with
  | done result => exact onward result
  | ask request _ ih => exact .ask request ih

theorem alone {body : EngineProgram ε α} {other : EngineProgram δ α} (inStep : InStep body other) :
    InStep (EngineProgram.alone body) (EngineProgram.alone other) :=
  .ask .enter fun _ => inStep.bind fun result => .ask .leave fun _ => .done result

/-- Both ask the same of the bundles that are held. -/
theorem ifHeld (store : Store ε) (name : String) {held absent : EngineProgram ε α}
    {heldOther absentOther : EngineProgram δ α} (onHeld : InStep held heldOther)
    (onAbsent : InStep absent absentOther) :
    InStep (if store.containsBundle name then held else absent)
      (if (store.recompiled δ).containsBundle name then heldOther else absentOther) := by
  rw [Store.containsBundle_recompiled]
  split
  · exact onHeld
  · exact onAbsent

end InStep

theorem inStep_loadOne (name : String) :
    InStep (loadOne name : EngineProgram ε _) (loadOne name : EngineProgram δ _) := by
  refine .ask .languages fun languages => .ask (.load name languages) fun answer => ?_
  cases answer with
  | error error => exact .done _
  | ok messages =>
    refine .ask .snapshot fun store => ?_
    show InStep _ (EngineProgram.ask (.publish ((store.recompiled δ).replaceBundle name messages))
      >>= _)
    rw [← Store.recompiled_replaceBundle]
    exact .ask (.publish (store.replaceBundle name messages)) fun _ => .done _

theorem inStep_addBundle (name : String) :
    InStep (addBundle name : EngineProgram ε _) (addBundle name : EngineProgram δ _) := by
  refine .alone (.ask .snapshot fun store => ?_)
  exact .ifHeld store name (.done _) (inStep_loadOne name)

theorem inStep_reloadBundle (name : String) :
    InStep (reloadBundle name : EngineProgram ε _) (reloadBundle name : EngineProgram δ _) := by
  refine .alone (.ask .snapshot fun store => ?_)
  exact .ifHeld store name (inStep_loadOne name) (.done _)

theorem inStep_removeBundle (name : String) :
    InStep (removeBundle name : EngineProgram ε _) (removeBundle name : EngineProgram δ _) := by
  refine .alone (.ask .snapshot fun store => .ifHeld store name ?_ (.done _))
  show InStep _ (EngineProgram.ask (.publish ((store.recompiled δ).removeBundle name).2) >>= _)
  rw [← Store.recompiled_removeBundle]
  exact .ask (.publish (store.removeBundle name).2) fun _ => .done _

theorem inStep_knownLanguages :
    InStep (knownLanguages : EngineProgram ε _) (knownLanguages : EngineProgram δ _) := by
  refine .ask .languages fun languages => ?_
  cases languages with
  | cons language others => exact .done _
  | nil =>
    refine .ask .reloadLanguages fun answer => ?_
    cases answer with
    | error error => exact .done _
    | ok told => exact .ask .languages fun languages => .done _

/-- The load loop: the stores that it fills stay the same but for the kind of entries. -/
theorem inStep_loadAll (languages : List Language) (names : List String) (store : Store ε)
    {next : Except LoadError (Store ε) → EngineProgram ε α}
    {nextOther : Except LoadError (Store δ) → EngineProgram δ α}
    (onward : ∀ result : Except LoadError (Store ε),
      InStep (next result) (nextOther (result.map (Store.recompiled δ)))) :
    InStep (loadAll languages names store >>= next)
      (loadAll languages names (store.recompiled δ) >>= nextOther) := by
  induction names generalizing store with
  | nil => exact onward (.ok store)
  | cons name rest ih =>
    refine .ask (.load name languages) fun answer => ?_
    cases answer with
    | error error => exact onward (.error error)
    | ok messages =>
      show InStep (loadAll languages rest (store.replaceBundle name messages) >>= next)
        (loadAll languages rest ((store.recompiled δ).replaceBundle name messages) >>= nextOther)
      rw [← Store.recompiled_replaceBundle]
      exact ih (store.replaceBundle name messages)

theorem inStep_reloadAll :
    InStep (reloadAll : EngineProgram ε _) (reloadAll : EngineProgram δ _) := by
  refine .alone (inStep_knownLanguages.bind fun languages => ?_)
  cases languages with
  | error error => exact .done _
  | ok languages =>
    refine .ask .snapshot fun store =>
      inStep_loadAll languages store.bundleNames store.cleared fun loaded => ?_
    cases loaded with
    | error error => exact .done _
    | ok loaded => exact .ask (.publish loaded) fun _ => .done _

end EngineProgram

/-- **Every operation of an engine is in step with itself** for other entries. -/
theorem EngineOperation.inStep_program (operation : EngineOperation) :
    EngineProgram.InStep (operation.program : EngineProgram ε _)
      (operation.program : EngineProgram δ _) := by
  cases operation with
  | add name => exact EngineProgram.inStep_addBundle name
  | remove name => exact (EngineProgram.inStep_removeBundle name).bind fun _ => .done _
  | reload name => exact EngineProgram.inStep_reloadBundle name
  | reloadAll => exact EngineProgram.inStep_reloadAll.bind fun _ => .done _

/-! ## Runs in step -/

/-- The same world, where the published store holds other entries. -/
def World.recompiled (world : World ε τ) : World δ τ :=
  ⟨world.store.recompiled δ, world.outside, world.calls⟩

/-- The same turn, where the stores hold other entries. -/
def Turn.recompiled (turn : Turn ε) : Turn δ :=
  ⟨turn.operation, turn.before.recompiled δ, turn.calls, turn.answer, turn.after.recompiled δ⟩

namespace Surroundings

variable (surroundings : Surroundings τ)

/-- The surroundings reply to both alike, and record the same calls. -/
theorem reply_recompiled (request : EngineRequest ε) (world : World ε τ) :
    surroundings.reply (request.recompiled δ) (world.recompiled δ) =
      ((surroundings.reply request world).1.map (request.recompiledReply δ),
        (surroundings.reply request world).2.recompiled δ) := by
  cases request with
  | load bundle languages =>
    simp only [reply, EngineRequest.recompiled, World.recompiled]
    cases (surroundings.load bundle languages world.outside).1 <;> rfl
  | _ => rfl

variable {δ}

/-- **Programs in step run in step.**  By induction on how they are. -/
theorem run_of_inStep {program : EngineProgram ε α} {other : EngineProgram δ α}
    (inStep : EngineProgram.InStep program other) (world : World ε τ) :
    surroundings.run other (world.recompiled δ) =
      ((surroundings.run program world).1, (surroundings.run program world).2.recompiled δ) := by
  induction inStep generalizing world with
  | done result => rfl
  | ask request onward ih =>
    rw [run_ask, run_ask, reply_recompiled]
    rcases surroundings.reply request world with ⟨_ | answer, changed⟩
    · rfl
    · exact ih answer changed

variable (δ)

/-- **A turn for other entries** is the same turn. -/
theorem perform_recompiled (operation : EngineOperation) (store : Store ε) (outside : τ) :
    surroundings.perform operation (store.recompiled δ) outside =
      ((surroundings.perform operation store outside).1.recompiled δ,
        (surroundings.perform operation store outside).2) := by
  have ran := surroundings.run_of_inStep (operation.inStep_program δ) ⟨store, outside, []⟩
  simp only [World.recompiled] at ran
  rw [perform, ran]
  rfl

/-- **A run for other entries** is the same run. -/
theorem performAll_recompiled (operations : List EngineOperation) (store : Store ε)
    (outside : τ) :
    surroundings.performAll operations (store.recompiled δ) outside =
      (surroundings.performAll operations store outside).map (Turn.recompiled δ) := by
  induction operations generalizing store outside with
  | nil => rfl
  | cons operation rest ih =>
    rw [performAll, perform_recompiled]
    exact congrArg (_ :: ·) (ih _ _)

end Surroundings

/-! ## What readers find -/

namespace Engine

variable {δ} {engine : Engine ε} {other : Engine δ}

/-- With the same languages, and the same store but for the kind of entries, an engine finds the
same entry but for its kind. -/
theorem entry_recompiled (registry : other.registry = engine.registry)
    (store : other.store = engine.store.recompiled δ) (key : String) (language : Language) :
    other.entry key language = (engine.entry key language).map (recompile δ) := by
  rw [entry, entry, registry, store]
  induction engine.registry.chain language with
  | nil => rfl
  | cons identifier rest ih =>
    rw [List.findSome?_cons, List.findSome?_cons, Store.lookup_recompiled, ih]
    cases engine.store.lookup key identifier <;> rfl

theorem hasMessage_recompiled (registry : other.registry = engine.registry)
    (store : other.store = engine.store.recompiled δ) (key : String) (language : Language) :
    other.hasMessage key language = engine.hasMessage key language := by
  rw [hasMessage, hasMessage, entry_recompiled registry store, Option.isSome_map]

theorem barePlain_recompiled (registry : other.registry = engine.registry)
    (store : other.store = engine.store.recompiled δ) (key : String) (language : Language) :
    other.barePlain key language = engine.barePlain key language := by
  rw [barePlain, barePlain, entry_recompiled registry store]
  cases engine.entry key language with
  | none => rfl
  | some entry => exact raw_recompile entry

/-- A formatter may redirect to another message, which is the same plain text in both engines. -/
theorem argumentPlain_recompiled (registry : other.registry = engine.registry)
    (store : other.store = engine.store.recompiled δ)
    (formatters : other.formatters = engine.formatters) (language : Language)
    (argument : Argument) :
    other.argumentPlain language argument = engine.argumentPlain language argument := by
  cases argument with
  | null => rfl
  | rich text => rfl
  | value value =>
    rw [argumentPlain, argumentPlain, formatters]
    cases engine.formatters.redirect? value none with
    | none => rfl
    | some key => exact barePlain_recompiled registry store key language

/-- **Plain text is made from raw messages**, so both engines show the same. -/
theorem plain_recompiled (registry : other.registry = engine.registry)
    (store : other.store = engine.store.recompiled δ)
    (formatters : other.formatters = engine.formatters) (key : String) (language : Language)
    (arguments : Arguments) :
    other.plain key language arguments = engine.plain key language arguments := by
  rw [plain, plain, entry_recompiled registry store,
    funext (argumentPlain_recompiled registry store formatters language)]
  cases engine.entry key language with
  | none => rfl
  | some entry => exact congrArg (Text.replaceAll · _) (raw_recompile entry)

end Engine

/-- **What a plain and a rich store have in common** for those who read them. -/
structure Store.ReadAlike (plain : Store RawEntry) (rich : Store CompiledEntry) : Prop where
  bundleNames : rich.bundleNames = plain.bundleNames
  bundleKeys : ∀ name, rich.bundleKeys name = plain.bundleKeys name
  /-- The entries are of the same raw messages, and each rich one has the tokens of its message. -/
  entries : ∀ key language,
    (rich.lookup key language).map (fun entry => (entry.raw, entry.tokens)) =
      (plain.lookup key language).map fun entry => (entry.raw, Template.compile entry.raw)
  /-- With the same languages, the same keys have messages. -/
  hasMessage : ∀ registry formatters others joiner other key language,
    (⟨registry, rich, others, other⟩ : Engine CompiledEntry).hasMessage key language =
      (⟨registry, plain, formatters, joiner⟩ : Engine RawEntry).hasMessage key language
  /-- With the same languages and formatters, all messages are the same plain text. -/
  shown : ∀ registry formatters joiner other key language arguments,
    (⟨registry, rich, formatters, other⟩ : Engine CompiledEntry).plain key language arguments =
      (⟨registry, plain, formatters, joiner⟩ : Engine RawEntry).plain key language arguments

theorem Store.readAlike_recompiled (plain : Store RawEntry) :
    plain.ReadAlike (plain.recompiled CompiledEntry) where
  bundleNames := bundleNames_recompiled _ plain
  bundleKeys name := bundleKeys_recompiled _ plain name
  entries key language := by
    rw [lookup_recompiled, Option.map_map]
    rfl
  hasMessage _ _ _ _ _ := Engine.hasMessage_recompiled rfl rfl
  shown _ _ _ _ := Engine.plain_recompiled rfl rfl rfl

/-- **Two turns in step**: the same operation makes the same calls and comes to the same answer, and
before and after it the stores are read alike. -/
structure Turn.InStep (plain : Turn RawEntry) (rich : Turn CompiledEntry) : Prop where
  operation : rich.operation = plain.operation
  calls : rich.calls = plain.calls
  answer : rich.answer = plain.answer
  before : plain.before.ReadAlike rich.before
  after : plain.after.ReadAlike rich.after

theorem Turn.inStep_recompiled (plain : Turn RawEntry) :
    plain.InStep (plain.recompiled CompiledEntry) where
  operation := rfl
  calls := rfl
  answer := rfl
  before := plain.before.readAlike_recompiled
  after := plain.after.readAlike_recompiled

/-- **A plain and a rich engine keep in step.**  They begin without bundles and go through the same
operations in the same surroundings, whatever these answer.  Then they do the same in every turn:
they ask the same of the languages and of the source, and succeed and fail alike.  Before and after
every turn they have the same bundles and keys, the same messages, the rich ones compiled, and show
the same plain texts. -/
theorem Surroundings.engines_in_step (surroundings : Surroundings τ)
    (operations : List EngineOperation) (outside : τ) :
    List.Forall₂ Turn.InStep
      (surroundings.performAll operations (Store.empty : Store RawEntry) outside)
      (surroundings.performAll operations (Store.empty : Store CompiledEntry) outside) := by
  have recompiled := surroundings.performAll_recompiled CompiledEntry operations
    (Store.empty : Store RawEntry) outside
  have start : (Store.empty : Store RawEntry).recompiled CompiledEntry = Store.empty := rfl
  rw [start] at recompiled
  rw [recompiled, List.forall₂_map_right_iff, List.forall₂_same]
  exact fun turn _ => turn.inStep_recompiled

end Phrasebook
