import Mathlib.Data.List.Basic
import Phrasebook.Proofs.Engine.Surroundings
import Phrasebook.Proofs.Store.History

/-!
# The calls of an operation

An operation of an engine is known from outside by its calls and its result.  Two things are said of
them here, neither of which mentions a program:

* `Ending`: the calls go on as long as they succeed, and the last one decides the result;
* `InOrder`: the source is asked for bundles in order, always for the same languages.

Both are closed under calls that come before, which is how operations are put together.

`exists_filterMap_loaded?` reads the changes of a store off the calls: if all of them have succeeded
there is one replacement for each bundle that was asked for.
-/

namespace Phrasebook

namespace Call

/-- A call that did what it was for. -/
def Succeeded : Call → Prop
  | languages _ => True
  | reloadLanguages answer => answer = .ok ()
  | load _ _ answer => ∃ messages, answer = some (.ok messages)

/-- A call that failed. -/
def FailsWith (error : LoadError) : Call → Prop
  | languages _ => False
  | reloadLanguages answer => answer = .error error
  | load _ _ answer => answer = some (.error error)

/-- A call that never came back. -/
def Hangs : Call → Prop
  | load _ _ answer => answer = none
  | _ => False

/-- What the source was asked for, if the call was to it. -/
def asked? : Call → Option (String × List Language)
  | load bundle wanted _ => some (bundle, wanted)
  | _ => none

/-- The change of the store that a successful load stands for. -/
def loaded? : Call → Option StoreOperation
  | load bundle _ (some (.ok messages)) => some (.replace bundle messages)
  | _ => none

/-- What did not go to the source has loaded nothing. -/
theorem loaded?_eq_none {call : Call} (elsewhere : call.asked? = none) : call.loaded? = none := by
  cases call with
  | languages known => rfl
  | reloadLanguages answer => rfl
  | load bundle languages answer => cases elsewhere

/-- Successful calls replace what was asked for, bundle by bundle.  By induction on the calls; those
that do not go to the source count for neither side. -/
theorem exists_filterMap_loaded? : (calls : List Call) → (∀ call ∈ calls, call.Succeeded) →
    ∃ loaded : List Messages, loaded.length = (calls.filterMap asked?).length ∧
      calls.filterMap loaded? =
        List.zipWith StoreOperation.replace ((calls.filterMap asked?).map Prod.fst) loaded
  | [], _ => ⟨[], rfl, rfl⟩
  | call :: rest, succeeded => by
    obtain ⟨loaded, length, eq⟩ :=
      exists_filterMap_loaded? rest fun call mem => succeeded call (List.mem_cons_of_mem _ mem)
    have headSucceeded := succeeded call List.mem_cons_self
    cases call with
    | languages known => exact ⟨loaded, length, eq⟩
    | reloadLanguages answer => exact ⟨loaded, length, eq⟩
    | load bundle languages answer =>
      obtain ⟨messages, rfl⟩ := headSucceeded
      refine ⟨messages :: loaded, ?_, ?_⟩
      · simp [asked?, length]
      · simp [asked?, loaded?, eq]

/-- Later calls that do not load the languages anew leave open neither whether this was done nor
what the first call was. -/
theorem reloads_append {first later : List Call} (nonempty : first ≠ [])
    (noReload : ∀ answer, .reloadLanguages answer ∉ later)
    (reloads : (∃ answer, .reloadLanguages answer ∈ first) ↔ first.head? = some (.languages [])) :
    (∃ answer, .reloadLanguages answer ∈ first ++ later) ↔
      (first ++ later).head? = some (.languages []) := by
  rw [List.head?_append_of_ne_nil first nonempty, ← reloads]
  constructor
  · rintro ⟨answer, mem⟩
    rcases List.mem_append.1 mem with mem | mem
    · exact ⟨answer, mem⟩
    · exact absurd mem (noReload answer)
  · rintro ⟨answer, mem⟩
    exact ⟨answer, List.mem_append_left later mem⟩

end Call

/-- **The calls go on as long as they succeed, and the last one decides the result.** -/
inductive Ending {α : Type} : List Call → Option (Except LoadError α) → Prop
  | finished {calls : List Call} (succeeded : ∀ call ∈ calls, call.Succeeded) (result : α) :
      Ending calls (some (.ok result))
  | failed {calls : List Call} {last : Call} {error : LoadError}
      (succeeded : ∀ call ∈ calls, call.Succeeded) (fails : last.FailsWith error) :
      Ending (calls ++ [last]) (some (.error error))
  | abandoned {calls : List Call} {last : Call} (succeeded : ∀ call ∈ calls, call.Succeeded)
      (hangs : last.Hangs) : Ending (calls ++ [last]) none

namespace Ending

variable {α β : Type} {calls : List Call} {result : Option (Except LoadError α)}

/-- A first call that fails is the only one. -/
theorem failed_at_once {call : Call} {error : LoadError} (fails : call.FailsWith error) :
    Ending [call] (some (.error error) : Option (Except LoadError α)) := by
  rw [← List.nil_append [call]]
  exact failed (by simp) fails

/-- A first call that never comes back is the only one. -/
theorem abandoned_at_once {call : Call} (hangs : call.Hangs) :
    Ending [call] (none : Option (Except LoadError α)) := by
  rw [← List.nil_append [call]]
  exact abandoned (by simp) hangs

/-- Successful calls may come before. -/
theorem append_left {first : List Call} (ending : Ending calls result)
    (succeeded : ∀ call ∈ first, call.Succeeded) : Ending (first ++ calls) result := by
  have both {others : List Call} (others_succeeded : ∀ call ∈ others, call.Succeeded) :
      ∀ call ∈ first ++ others, call.Succeeded := by
    intro call mem
    rcases List.mem_append.1 mem with mem | mem
    · exact succeeded call mem
    · exact others_succeeded call mem
  cases ending with
  | finished rest value => exact finished (both rest) value
  | failed rest fails =>
    rw [← List.append_assoc]
    exact failed (both rest) fails
  | abandoned rest hangs =>
    rw [← List.append_assoc]
    exact abandoned (both rest) hangs

/-- With a result, all calls have succeeded. -/
theorem succeeded {value : α} (ending : Ending calls (some (.ok value))) :
    ∀ call ∈ calls, call.Succeeded := by
  cases ending with
  | finished succeeded _ => exact succeeded

/-- What a finished operation makes of its result does not matter. -/
theorem map (ending : Ending calls result) (f : α → β) :
    Ending calls (result.map (Except.map f)) := by
  cases ending with
  | finished succeeded value => exact finished succeeded (f value)
  | failed succeeded fails => exact failed succeeded fails
  | abandoned succeeded hangs => exact abandoned succeeded hangs

end Ending

/-- **Calls to the source, bundle by bundle.**  They ask for the planned bundles in order, always
for the same languages, and for all of them if they come to a good end. -/
structure InOrder {α : Type} (languages : List Language) (bundles : List String)
    (calls : List Call) (result : Option (Except LoadError α)) : Prop where
  asked : ∃ first, first <+: bundles ∧
    calls.filterMap Call.asked? = first.map fun bundle => (bundle, languages)
  complete : ∀ value, result = some (.ok value) →
    calls.filterMap Call.asked? = bundles.map fun bundle => (bundle, languages)

namespace InOrder

variable {α β : Type} {languages : List Language} {bundles : List String} {calls : List Call}
  {result : Option (Except LoadError α)}

/-- Calls that do not go to the source may come before. -/
theorem append_left {first : List Call}
    (inOrder : InOrder languages bundles calls result)
    (elsewhere : ∀ call ∈ first, call.asked? = none) :
    InOrder languages bundles (first ++ calls) result := by
  have same : (first ++ calls).filterMap Call.asked? = calls.filterMap Call.asked? := by
    rw [List.filterMap_append, List.filterMap_eq_nil_iff.2 elsewhere, List.nil_append]
  exact ⟨same ▸ inOrder.asked, same ▸ inOrder.complete⟩

/-- The first bundle may be asked for before. -/
theorem cons {bundle : String} {answer : Option (Except LoadError Messages)}
    (inOrder : InOrder languages bundles calls result) :
    InOrder languages (bundle :: bundles) (.load bundle languages answer :: calls) result where
  asked := by
    obtain ⟨first, isPrefix, asked⟩ := inOrder.asked
    refine ⟨bundle :: first, (List.prefix_cons_inj bundle).2 isPrefix, ?_⟩
    rw [List.map_cons, ← asked]
    rfl
  complete := by
    intro value good
    rw [List.map_cons, ← inOrder.complete value good]
    rfl

/-- After the first bundle nothing more may come if that is the end. -/
theorem of_load {bundle : String} {answer : Option (Except LoadError Messages)}
    (bad : ∀ value, result ≠ some (.ok value)) :
    InOrder languages (bundle :: bundles) [.load bundle languages answer] result where
  asked := ⟨[bundle], ⟨bundles, rfl⟩, rfl⟩
  complete := fun value good => absurd good (bad value)

/-- What a finished operation makes of its result does not matter. -/
theorem map (inOrder : InOrder languages bundles calls result) (f : α → β) :
    InOrder languages bundles calls (result.map (Except.map f)) where
  asked := inOrder.asked
  complete := by
    rintro value good
    rcases result with _ | error | value
    · cases good
    · cases good
    · exact inOrder.complete value rfl

/-- All loads are for the same languages. -/
theorem languages_eq (inOrder : InOrder languages bundles calls result) {bundle : String}
    {wanted : List Language} {answer : Option (Except LoadError Messages)}
    (mem : .load bundle wanted answer ∈ calls) : wanted = languages := by
  obtain ⟨first, -, asked⟩ := inOrder.asked
  have pair : (bundle, wanted) ∈ calls.filterMap Call.asked? := List.mem_filterMap.2 ⟨_, mem, rfl⟩
  rw [asked] at pair
  obtain ⟨other, -, eq⟩ := List.mem_map.1 pair
  exact (Prod.mk.inj eq).2.symm

/-- If the languages have been answered before, then every load is for languages that have been. -/
theorem told_append {first : List Call} (inOrder : InOrder languages bundles calls result)
    (elsewhere : ∀ call ∈ first, call.asked? = none) (known : .languages languages ∈ first) :
    ∀ bundle wanted answer, .load bundle wanted answer ∈ first ++ calls →
      .languages wanted ∈ first ++ calls := by
  intro bundle wanted answer mem
  rcases List.mem_append.1 mem with mem | mem
  · cases elsewhere _ mem
  · rw [inOrder.languages_eq mem]
    exact List.mem_append_left calls known

/-- Calls that do not go to the source ask for none of the bundles. -/
theorem of_elsewhere (elsewhere : ∀ call ∈ calls, call.asked? = none)
    (bad : ∀ value, result ≠ some (.ok value)) : InOrder languages bundles calls result where
  asked := ⟨[], List.nil_prefix, List.filterMap_eq_nil_iff.2 elsewhere⟩
  complete := fun value good => absurd good (bad value)

end InOrder

end Phrasebook
