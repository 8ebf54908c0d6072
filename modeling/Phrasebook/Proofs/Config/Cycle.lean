import Mathlib.Logic.Relation
import Phrasebook.Config.Validation
import Phrasebook.Proofs.Language.Registry
import Phrasebook.Proofs.Language.Route

/-!
# The search for cycles of fallbacks

`fallbackCycle?` follows the fallbacks of one language and reports a cycle as soon as an identifier
comes back.  Here it is held against the relation between identifiers that a registry's fallbacks
make (`Leads`): a search that reports nothing has shown that nothing endless begins at its language,
and one that reports something has come from an identifier back to that same identifier.

The two directions need different things to be carried along the search.

* *Nothing is overlooked.*  Where the search ends without a report, the identifier it has started
  from is accessible: every way along fallbacks ends (`acc_of_cycleAfter?_eq_none`).  This needs no
  invariant, as a language has only one fallback to follow.
* *Nothing is made up.*  The visited identifiers all lead to the current one
  (`exists_loop_of_cycleAfter?_eq_some`), so one that comes back leads to itself.

## Main statement

`fallbackCycle?_eq_none_iff`: the searches from all languages of a registry report nothing exactly
when no identifier leads to itself.
-/

namespace Phrasebook

open Relation

/-- What is accessible does not come back to itself. -/
theorem not_transGen_self_of_acc {α : Type} {r : α → α → Prop} {a : α} (acc : Acc r a) :
    ¬ TransGen r a a := by
  induction acc with
  | intro a _ ih =>
    intro loop
    obtain ⟨b, way, last⟩ := TransGen.tail'_iff.1 loop
    exact ih b last (TransGen.head' last way)

namespace LanguageRegistry

variable {registry : LanguageRegistry}

/-- An identifier **leads** to another: the language registered under the first one falls back to a
language with the second one. -/
def Leads (registry : LanguageRegistry) (identifier fallback : String) : Prop :=
  ∃ here next, registry.language? identifier = some here ∧ registry.FallsBackTo here next ∧
    next.identifier = fallback

/-- In a keyed registry a language leads where its own fallback leads. -/
theorem IsKeyed.leads_iff (keyed : registry.IsKeyed) {language : Language}
    (mem : language ∈ registry.known.values) {fallback : String} :
    registry.Leads language.identifier fallback ↔
      ∃ next, registry.FallsBackTo language next ∧ next.identifier = fallback := by
  have own := keyed.mem_values_iff.1 mem
  constructor
  · rintro ⟨here, next, held, step, same⟩
    obtain rfl := Option.some.inj (held.symm.trans own)
    exact ⟨next, step, same⟩
  · rintro ⟨next, step, same⟩
    exact ⟨language, next, own, step, same⟩

end LanguageRegistry

open LanguageRegistry

variable {registry : LanguageRegistry} {visited : List String}
  {language : { l : Language // l ∈ registry.known.values }}

/-- A search without a report has followed all there is to follow. -/
theorem acc_of_cycleAfter?_eq_none (keyed : registry.IsKeyed)
    (silent : cycleAfter? registry visited language = none) :
    Acc (fun fallback identifier => registry.Leads identifier fallback)
      language.val.identifier := by
  induction visited, language using cycleAfter?.induct registry with
  | case1 visited language identifier old =>
    rw [cycleAfter?, dif_pos old] at silent
    cases silent
  | case2 visited language identifier new ends =>
    refine Acc.intro _ fun fallback leads => ?_
    obtain ⟨next, step, -⟩ := (keyed.leads_iff language.property).1 leads
    exact absurd step (not_fallsBackTo_of_fallback?_eq_none ends)
  | case3 visited language identifier new next found ih =>
    rw [cycleAfter?, dif_neg new, found] at silent
    refine Acc.intro _ fun fallback leads => ?_
    obtain ⟨other, step, rfl⟩ := (keyed.leads_iff language.property).1 leads
    rw [step.unique (fallsBackTo_of_fallback?_eq_some found)]
    exact ih silent

/-- A search with a report has come back to where it was. -/
theorem exists_loop_of_cycleAfter?_eq_some (keyed : registry.IsKeyed) {cycle : List String}
    (reached : ∀ earlier ∈ visited, TransGen registry.Leads earlier language.val.identifier)
    (reported : cycleAfter? registry visited language = some cycle) :
    ∃ identifier, TransGen registry.Leads identifier identifier := by
  induction visited, language using cycleAfter?.induct registry with
  | case1 visited language identifier old => exact ⟨_, reached _ old⟩
  | case2 visited language identifier new ends =>
    rw [cycleAfter?, dif_neg new, ends] at reported
    cases reported
  | case3 visited language identifier new next found ih =>
    rw [cycleAfter?, dif_neg new, found] at reported
    have leads : registry.Leads identifier next.val.identifier :=
      (keyed.leads_iff language.property).2
        ⟨next.val, fallsBackTo_of_fallback?_eq_some found, rfl⟩
    refine ih (fun earlier mem => ?_) reported
    rcases List.mem_cons.1 mem with rfl | mem
    · exact TransGen.single leads
    · exact (reached earlier mem).tail leads

/-- From a registered language, the search begins with nothing visited. -/
theorem fallbackCycle?_of_mem {start : Language} (mem : start ∈ registry.known.values) :
    fallbackCycle? registry start = cycleAfter? registry [] ⟨start, mem⟩ := by
  rw [cycleAfter?, dif_neg List.not_mem_nil]
  rfl

/-- **The search finds cycles, all of them and nothing else.**  From no language of a keyed registry
a cycle is reported exactly when no identifier leads to itself. -/
theorem fallbackCycle?_eq_none_iff (keyed : registry.IsKeyed) :
    (∀ start ∈ registry.known.values, fallbackCycle? registry start = none) ↔
      ∀ identifier, ¬ TransGen registry.Leads identifier identifier := by
  constructor
  · intro silent identifier loop
    obtain ⟨second, ⟨start, -, held, -⟩, -⟩ := TransGen.head'_iff.1 loop
    obtain rfl := keyed identifier start held
    have mem := keyed.mem_values_iff.2 held
    have acc := acc_of_cycleAfter?_eq_none keyed ((fallbackCycle?_of_mem mem).symm.trans
      (silent start mem))
    exact not_transGen_self_of_acc acc (transGen_swap.2 loop)
  · intro loopless start mem
    rw [fallbackCycle?_of_mem mem]
    cases reported : cycleAfter? registry [] ⟨start, mem⟩ with
    | none => rfl
    | some cycle =>
      obtain ⟨identifier, loop⟩ :=
        exists_loop_of_cycleAfter?_eq_some keyed (by simp) reported
      exact absurd loop (loopless identifier)

end Phrasebook
