import Mathlib.Data.List.Cycle
import Mathlib.Data.List.Forall2
import Mathlib.Logic.Relation
import Phrasebook.Proofs.Config.Acceptance
import Phrasebook.Proofs.Config.Lasso
import Phrasebook.Proofs.History
import Phrasebook.Proofs.Text.ByteOrder

/-!
# Each cycle of fallbacks is reported once

Validation searches for a cycle from every language, in the order of the configuration.  Many of
these searches end in the same cycle, which they find at different places and therefore write in
different ways.  Validation sorts the members of what it finds and reports a cycle if no cycle with
the same members has been found before.

That this tells cycles apart is not obvious, as two cycles could have the same members in another
order.  But different identifiers have one fallback each, and then cycles do not touch each other.
So the members, a single one of them even, determine the cycle (`membersOf_eq_iff`).  And a search
that starts anywhere in front of a cycle finds it, also if other fallbacks are not configured: the
members of a cycle all are, since they have fallbacks (`exists_fallbackCycle?_of_reaches`).

## Main statement

`reportsCycles`: the reported paths are those of the cycles, one for each, and each path begins
where the first language that reaches its cycle enters it.
-/

namespace Phrasebook

open Relation

/-- The path of a cycle that is reported by a fault. -/
def ConfigFault.path? : ConfigFault → Option (List String)
  | fallbackCycle identifiers => some identifiers
  | _ => none

namespace Config

variable {config : Config} {registry : LanguageRegistry} {languages : List Language}
  {reported : List (List String)} {path : List String}

/-! ## What validation reports -/

/-- The paths of the cycles that validation reports, in order. -/
def reportedCycles (config : Config) : List (List String) :=
  match config.validate with
  | .error (.invalid faults) => faults.filterMap ConfigFault.path?
  | _ => []

/-- The paths that the search for cycles reports, after the cycles with the given members. -/
def cyclePaths (registry : LanguageRegistry) (reported : List (List String))
    (languages : List Language) : List (List String) :=
  (cycleFaults registry reported languages).filterMap ConfigFault.path?

theorem reportedCycles_eq_filterMap_faults (config : Config) :
    config.reportedCycles = config.faults.filterMap ConfigFault.path? := by
  rw [reportedCycles, validate]
  cases config.faults with
  | nil => rfl
  | cons fault faults => rfl

theorem filterMap_path?_languageFaults (defaultLanguage : String) (seen : List String)
    (languages : List Language) :
    (languageFaults defaultLanguage seen languages).filterMap ConfigFault.path? = [] := by
  induction languages generalizing seen with
  | nil => rfl
  | cons language rest ih =>
    rw [languageFaults, List.filterMap_append, ih, List.append_nil, List.filterMap_append]
    split_ifs <;> rfl

theorem filterMap_path?_bundleFaults (seen names : List String) :
    (bundleFaults seen names).filterMap ConfigFault.path? = [] := by
  induction names generalizing seen with
  | nil => rfl
  | cons name rest ih =>
    rw [bundleFaults, List.filterMap_append, ih, List.append_nil, List.filterMap_append]
    split_ifs <;> rfl

theorem path?_eq_none_of_fallbackFault? {language : Language} {fault : ConfigFault}
    (isFault : fallbackFault? registry language = some fault) : fault.path? = none := by
  unfold fallbackFault? at isFault
  split at isFault
  · cases isFault
  · split at isFault
    · cases isFault
    · cases isFault
      rfl

/-- No other check of the languages reports a cycle. -/
theorem filterMap_path?_allLanguageFaults (config : Config) :
    config.allLanguageFaults.filterMap ConfigFault.path? =
      cyclePaths config.candidates [] config.languages := by
  have fallbacks : (config.languages.filterMap (fallbackFault? config.candidates)).filterMap
      ConfigFault.path? = [] := by
    rw [List.filterMap_eq_nil_iff]
    intro fault mem
    obtain ⟨language, -, isFault⟩ := List.mem_filterMap.1 mem
    exact path?_eq_none_of_fallbackFault? isFault
  rw [allLanguageFaults]
  split
  · rename_i empty
    rw [empty]
    rfl
  · rw [List.filterMap_append, List.filterMap_append, List.filterMap_append, fallbacks,
      filterMap_path?_languageFaults]
    split_ifs <;> rfl

/-- No other check reports a cycle. -/
theorem reportedCycles_eq (config : Config) :
    config.reportedCycles = cyclePaths config.candidates [] config.languages := by
  have locales : (localeFaults config.locales).filterMap ConfigFault.path? = [] := by
    simp [localeFaults, ConfigFault.path?]
  have cache : (cacheFaults config.cache).filterMap ConfigFault.path? = [] := by
    rw [cacheFaults, List.filterMap_append, List.filterMap_append]
    split_ifs <;> simp [ConfigFault.path?]
  have level : (if Text.isBlankText config.log.level then [ConfigFault.blankLevel]
      else []).filterMap ConfigFault.path? = [] := by
    split <;> rfl
  rw [reportedCycles_eq_filterMap_faults, faults, List.filterMap_append, List.filterMap_append,
    List.filterMap_append, List.filterMap_append, filterMap_path?_allLanguageFaults,
    filterMap_path?_bundleFaults, locales, cache, level]
  simp

/-! ## The members of a path -/

/-- Two paths have the same members if they list the same identifiers, in whatever order. -/
theorem membersOf_eq_iff_perm {path other : List String} :
    membersOf path = membersOf other ↔ path.dropLast.Perm other.dropLast := by
  have sorted (cycle : List String) : (membersOf cycle).Perm cycle.dropLast :=
    List.mergeSort_perm _ _
  exact ⟨fun same => (sorted path).symm.trans (same ▸ sorted other), Text.mergeSort_eq_of_perm⟩

/-! ## The first of each cycle -/

theorem cyclePaths_cons_of_none {language : Language} {rest : List Language}
    (silent : fallbackCycle? registry language = none) :
    cyclePaths registry reported (language :: rest) = cyclePaths registry reported rest := by
  rw [cyclePaths, cycleFaults, silent]
  rfl

theorem cyclePaths_cons_of_old {language : Language} {rest : List Language}
    (found : fallbackCycle? registry language = some path) (old : membersOf path ∈ reported) :
    cyclePaths registry reported (language :: rest) = cyclePaths registry reported rest := by
  rw [cyclePaths, cycleFaults, found]
  dsimp only
  rw [if_pos old]
  rfl

theorem cyclePaths_cons_of_new {language : Language} {rest : List Language}
    (found : fallbackCycle? registry language = some path) (new : membersOf path ∉ reported) :
    cyclePaths registry reported (language :: rest) =
      path :: cyclePaths registry (membersOf path :: reported) rest := by
  rw [cyclePaths, cycleFaults, found]
  dsimp only
  rw [if_neg new]
  rfl

/-- A path is **first found** when the search from some language finds it and no search before has
found a path with the same members. -/
def FirstFound (registry : LanguageRegistry) (languages : List Language) (path : List String) :
    Prop :=
  ∃ before language after, languages = before ++ language :: after ∧
    fallbackCycle? registry language = some path ∧
      ∀ earlier ∈ before, ∀ other, fallbackCycle? registry earlier = some other →
        membersOf other ≠ membersOf path

theorem firstFound_cons_iff {language : Language} {rest : List Language} :
    FirstFound registry (language :: rest) path ↔
      fallbackCycle? registry language = some path ∨
        (∀ other, fallbackCycle? registry language = some other →
          membersOf other ≠ membersOf path) ∧ FirstFound registry rest path :=
  exists_first_cons_iff

/-- **The reported paths are those that are found first.** -/
theorem mem_cyclePaths_iff :
    path ∈ cyclePaths registry reported languages ↔
      membersOf path ∉ reported ∧ FirstFound registry languages path := by
  induction languages generalizing reported with
  | nil => simp [cyclePaths, cycleFaults, FirstFound]
  | cons language rest ih =>
    rw [firstFound_cons_iff]
    cases found : fallbackCycle? registry language with
    | none => simp [cyclePaths_cons_of_none found, ih]
    | some here =>
      by_cases old : membersOf here ∈ reported
      · rw [cyclePaths_cons_of_old found old, ih]
        grind
      · rw [cyclePaths_cons_of_new found old, List.mem_cons, ih]
        grind

/-- No two reported paths have the same members. -/
theorem nodup_map_membersOf_cyclePaths (registry : LanguageRegistry)
    (reported : List (List String)) (languages : List Language) :
    ((cyclePaths registry reported languages).map membersOf).Nodup := by
  induction languages generalizing reported with
  | nil => exact List.nodup_nil
  | cons language rest ih =>
    cases found : fallbackCycle? registry language with
    | none =>
      rw [cyclePaths_cons_of_none found]
      exact ih reported
    | some here =>
      by_cases old : membersOf here ∈ reported
      · rw [cyclePaths_cons_of_old found old]
        exact ih reported
      · rw [cyclePaths_cons_of_new found old, List.map_cons, List.nodup_cons]
        refine ⟨fun mem => ?_, ih _⟩
        obtain ⟨path, memPath, same⟩ := List.mem_map.1 mem
        exact (mem_cyclePaths_iff.1 memPath).1 (same ▸ List.mem_cons_self)

/-! ## The cycles of a configuration -/

/-- The search from a language finds a path, and no earlier language reaches its cycle. -/
def FoundFrom (config : Config) (before : List Language) (language : Language)
    (after : List Language) (path : List String) : Prop :=
  config.languages = before ++ language :: after ∧
    fallbackCycle? config.candidates language = some path ∧
      ∀ earlier ∈ before, ¬ Reaches config.FallsBack earlier.identifier (loopOf path)

theorem FoundFrom.mem {before after : List Language} {language : Language}
    (foundFrom : config.FoundFrom before language after path) : language ∈ config.languages := by
  rw [foundFrom.1]
  exact List.mem_append_right before List.mem_cons_self

section

variable (distinct : (config.languages.map Language.identifier).Nodup)
  (named : ∀ language ∈ config.languages, ∃ c ∈ language.identifier.toList,
    Text.isBlank c = false)

include named in
/-- The search goes through the registry of all configured languages. -/
theorem candidates_eq :
    config.candidates = LanguageRegistry.ofLanguages LocaleTable.empty config.languages :=
  candidates_eq_ofLanguages fun language mem => Text.isBlankText_eq_false_iff.2 (named language mem)

include distinct

/-- Different identifiers have one fallback each. -/
theorem rightUnique_fallsBack : Relator.RightUnique config.FallsBack := by
  rintro identifier fallback other ⟨language, mem, rfl, names⟩ ⟨same, memSame, isSame, namesOther⟩
  obtain rfl := List.inj_on_of_nodup_map distinct memSame mem isSame
  exact Option.some.inj (names.symm.trans namesOther)

/-- A fallback that is not configured is the end of a way, as is one that is configured and has no
fallback. -/
theorem acc_fallsBack_of_acc_leads {locales : LocaleTable} {identifier : String}
    (acc : Acc (fun fallback identifier =>
      (LanguageRegistry.ofLanguages locales config.languages).Leads identifier fallback)
      identifier) :
    Acc (fun fallback identifier => config.FallsBack identifier fallback) identifier := by
  induction acc with
  | intro identifier _ ih =>
    refine Acc.intro _ fun fallback falls => ?_
    by_cases known : fallback ∈ config.languages.map Language.identifier
    · exact ih fallback ((leads_ofLanguages_iff distinct).2 ⟨falls, known⟩)
    · refine Acc.intro _ fun next fallsOn => absurd ?_ known
      obtain ⟨language, mem, same, -⟩ := fallsOn
      exact same ▸ List.mem_map_of_mem mem

include named

/-- **What is found is the cycle of a lasso.** -/
theorem exists_isLasso {language : Language} (mem : language ∈ config.languages)
    (found : fallbackCycle? config.candidates language = some path) :
    ∃ tail, IsLasso config.FallsBack language.identifier tail path := by
  rw [candidates_eq named] at found
  obtain ⟨tail, lasso⟩ := exists_isLasso_of_fallbackCycle?_eq_some
    (LanguageRegistry.isKeyed_ofLanguages _ _)
    ((LanguageRegistry.mem_values_ofLanguages_iff distinct).2 mem) found
  exact ⟨tail, lasso.imp fun _ _ leads => ((leads_ofLanguages_iff distinct).1 leads).1⟩

/-- **A cycle is found from every language that reaches it.** -/
theorem exists_fallbackCycle?_of_reaches {language : Language} (mem : language ∈ config.languages)
    {cycle : Cycle String} (round : IsRound config.FallsBack cycle)
    (reaches : Reaches config.FallsBack language.identifier cycle) :
    ∃ path, fallbackCycle? config.candidates language = some path ∧ loopOf path = cycle := by
  cases found : fallbackCycle? config.candidates language with
  | some path =>
    obtain ⟨tail, lasso⟩ := exists_isLasso distinct named mem found
    exact ⟨path, rfl, lasso.reaches.eq_of_reaches (rightUnique_fallsBack distinct) lasso.isRound
      round reaches⟩
  | none =>
    rw [candidates_eq named,
      fallbackCycle?_of_mem ((LanguageRegistry.mem_values_ofLanguages_iff distinct).2 mem)] at found
    have acc := acc_fallsBack_of_acc_leads distinct
      (acc_of_cycleAfter?_eq_none (LanguageRegistry.isKeyed_ofLanguages _ _) found)
    exact absurd acc (reaches.not_acc round)

/-- **The members determine the cycle.** -/
theorem membersOf_eq_iff {language other : Language} (mem : language ∈ config.languages)
    (memOther : other ∈ config.languages) {otherPath : List String}
    (found : fallbackCycle? config.candidates language = some path)
    (foundOther : fallbackCycle? config.candidates other = some otherPath) :
    membersOf path = membersOf otherPath ↔ loopOf path = loopOf otherPath := by
  obtain ⟨tail, lasso⟩ := exists_isLasso distinct named mem found
  obtain ⟨otherTail, otherLasso⟩ := exists_isLasso distinct named memOther foundOther
  rw [membersOf_eq_iff_perm]
  constructor
  · intro perm
    obtain ⟨member, memLoop⟩ := lasso.isRound.exists_mem
    exact lasso.isRound.eq_of_mem (rightUnique_fallsBack distinct) otherLasso.isRound memLoop
      (perm.mem_iff.1 memLoop)
  · intro same
    exact (Cycle.coe_eq_coe.1 same).perm

/-- **A path is reported when the language that it is found from is the first one that reaches its
cycle.** -/
theorem mem_reportedCycles_iff :
    path ∈ config.reportedCycles ↔
      ∃ before language after, config.FoundFrom before language after path := by
  rw [reportedCycles_eq, mem_cyclePaths_iff, and_iff_right List.not_mem_nil]
  refine exists_congr fun before => exists_congr fun language => exists_congr fun after =>
    and_congr_right fun split => and_congr_right fun found => forall₂_congr fun earlier before => ?_
  have mem : language ∈ config.languages := by simp [split]
  have memEarlier : earlier ∈ config.languages := by simp [split, before]
  obtain ⟨tail, lasso⟩ := exists_isLasso distinct named mem found
  constructor
  · intro new reaches
    obtain ⟨other, foundOther, same⟩ :=
      exists_fallbackCycle?_of_reaches distinct named memEarlier lasso.isRound reaches
    exact new other foundOther
      ((membersOf_eq_iff distinct named memEarlier mem foundOther found).2 same)
  · intro notReached other foundOther same
    obtain ⟨otherTail, otherLasso⟩ := exists_isLasso distinct named memEarlier foundOther
    have sameLoop := (membersOf_eq_iff distinct named memEarlier mem foundOther found).1 same
    exact notReached (sameLoop ▸ otherLasso.reaches)

/-! ## The reports -/

/-- No two reported paths are of the same cycle. -/
theorem nodup_map_loopOf_reportedCycles : (config.reportedCycles.map loopOf).Nodup := by
  have once : (config.reportedCycles.map membersOf).Nodup := by
    rw [reportedCycles_eq]
    exact nodup_map_membersOf_cyclePaths config.candidates [] config.languages
  refine List.pairwise_map.2 ((List.pairwise_map.1 once).imp_of_mem ?_)
  intro path other mem memOther apart same
  obtain ⟨before, language, after, foundFrom⟩ := (mem_reportedCycles_iff distinct named).1 mem
  obtain ⟨otherBefore, otherLanguage, otherAfter, otherFoundFrom⟩ :=
    (mem_reportedCycles_iff distinct named).1 memOther
  exact apart ((membersOf_eq_iff distinct named foundFrom.mem otherFoundFrom.mem foundFrom.2.1
    otherFoundFrom.2.1).2 same)

/-- The reported cycles are all that there are. -/
theorem mem_map_loopOf_reportedCycles_iff {cycle : Cycle String} :
    cycle ∈ config.reportedCycles.map loopOf ↔ IsRound config.FallsBack cycle := by
  rw [List.mem_map]
  constructor
  · rintro ⟨path, mem, rfl⟩
    obtain ⟨before, language, after, foundFrom⟩ := (mem_reportedCycles_iff distinct named).1 mem
    obtain ⟨tail, lasso⟩ := exists_isLasso distinct named foundFrom.mem foundFrom.2.1
    exact lasso.isRound
  · intro round
    obtain ⟨member, memCycle⟩ := round.exists_mem
    -- A member has a fallback, so it is the identifier of a language, which reaches the cycle.
    obtain ⟨next, ⟨language, mem, same, -⟩, -⟩ :=
      TransGen.head'_iff.1 (round.transGen memCycle memCycle)
    have reaches : Reaches config.FallsBack language.identifier cycle :=
      ⟨member, memCycle, same ▸ ReflTransGen.refl⟩
    obtain ⟨before, first, after, split, firstReaches, notBefore⟩ :=
      exists_first_of_mem (fun other : Language =>
        Reaches config.FallsBack other.identifier cycle) mem reaches
    obtain ⟨path, found, rfl⟩ :=
      exists_fallbackCycle?_of_reaches distinct named (by simp [split]) round firstReaches
    exact ⟨path, (mem_reportedCycles_iff distinct named).2
      ⟨before, first, after, split, found, notBefore⟩, rfl⟩

end

/-- **A path reports a cycle of fallbacks.** -/
structure IsReportOf (config : Config) (cycle : Cycle String) (path : List String) : Prop where
  /-- The members are listed once each, and after the last one the first one again. -/
  round : ∃ entry rest, path = entry :: (rest ++ [entry]) ∧ cycle = ↑(entry :: rest)
  /-- Each member is followed by its fallback. -/
  follows : path.IsChain config.FallsBack
  /-- Whatever is listed comes back to itself. -/
  listed : ∀ identifier ∈ path, TransGen config.FallsBack identifier identifier
  /-- The first member is the one at which the cycle is entered from the first language that
  reaches it. -/
  entered : ∃ before language after, config.languages = before ++ language :: after ∧
    (∀ earlier ∈ before, ¬ Reaches config.FallsBack earlier.identifier cycle) ∧
      ∃ entry ∈ path.head?, EntersAt config.FallsBack language.identifier cycle entry

/-- The path that is found along a lasso reports its cycle. -/
theorem isReportOf_loopOf {before after : List Language} {language : Language} {tail : List String}
    (foundFrom : config.FoundFrom before language after path)
    (lasso : IsLasso config.FallsBack language.identifier tail path) :
    config.IsReportOf (loopOf path) path where
  round := by
    obtain ⟨entry, rest, rfl⟩ := lasso.returns
    exact ⟨entry, rest, rfl, loopOf_cons_concat entry rest⟩
  follows := lasso.follows.right_of_append
  listed := by
    intro identifier mem
    have member : identifier ∈ loopOf path := lasso.mem_loopOf_iff.2 mem
    exact lasso.isRound.transGen member member
  entered := ⟨before, language, after, foundFrom.1, foundFrom.2.2, lasso.exists_entersAt⟩

/-- **Each cycle of fallbacks is reported once**, and nothing else is reported as a cycle.  The
identifiers are different and not blank; the fallbacks may be any. -/
theorem reportsCycles (config : Config)
    (distinct : (config.languages.map Language.identifier).Nodup)
    (named : ∀ language ∈ config.languages, ∃ c ∈ language.identifier.toList,
      Text.isBlank c = false) :
    ∃ cycles : List (Cycle String), cycles.Nodup ∧
      (∀ cycle, cycle ∈ cycles ↔ IsRound config.FallsBack cycle) ∧
        List.Forall₂ config.IsReportOf cycles config.reportedCycles := by
  refine ⟨config.reportedCycles.map loopOf, nodup_map_loopOf_reportedCycles distinct named,
    fun cycle => mem_map_loopOf_reportedCycles_iff distinct named, ?_⟩
  rw [List.forall₂_map_left_iff, List.forall₂_same]
  intro path mem
  obtain ⟨before, language, after, foundFrom⟩ := (mem_reportedCycles_iff distinct named).1 mem
  obtain ⟨tail, lasso⟩ := exists_isLasso distinct named foundFrom.mem foundFrom.2.1
  exact isReportOf_loopOf foundFrom lasso

/-- Two cycles and a loop.  The first cycle is entered from the side, and one fallback is not
configured. -/
def entangled : Config where
  languages :=
    [{ identifier := "pt", name := "Português", fallback := some "es" },
      { identifier := "ca", name := "Català", fallback := some "es" },
      { identifier := "es", name := "Español", fallback := some "ca" },
      { identifier := "en", name := "English", fallback := some "la", isDefault := true },
      { identifier := "eo", name := "Esperanto", fallback := some "eo" },
      { identifier := "nn", name := "Nynorsk", fallback := some "nb" },
      { identifier := "nb", name := "Bokmål", fallback := some "nn" }]

theorem reportsCycles_entangled :
    (entangled.languages.map Language.identifier).Nodup ∧
      (∀ language ∈ entangled.languages, ∃ c ∈ language.identifier.toList,
        Text.isBlank c = false) ∧
      (∃ cycles : List (Cycle String), cycles.Nodup ∧
        (∀ cycle, cycle ∈ cycles ↔ IsRound entangled.FallsBack cycle) ∧
          List.Forall₂ entangled.IsReportOf cycles entangled.reportedCycles) ∧
      entangled.reportedCycles = [["es", "ca", "es"], ["eo", "eo"], ["nn", "nb", "nn"]] := by
  have distinct : (entangled.languages.map Language.identifier).Nodup := by decide
  have notBlank : ∀ language ∈ entangled.languages,
      Text.isBlankText language.identifier = false := by decide
  have named := fun language mem => Text.isBlankText_eq_false_iff.1 (notBlank language mem)
  have reports : entangled.reportedCycles =
      [["es", "ca", "es"], ["eo", "eo"], ["nn", "nb", "nn"]] := by
    -- Sorting does not compute here, so the members of two paths are compared by permutation.
    rw [reportedCycles_eq]
    refine (cyclePaths_cons_of_new (by decide +kernel) List.not_mem_nil).trans (congrArg _ ?_)
    refine (cyclePaths_cons_of_old (show _ = some ["ca", "es", "ca"] by decide +kernel) ?_).trans ?_
    · simp only [List.mem_cons, membersOf_eq_iff_perm]
      decide
    refine (cyclePaths_cons_of_old (show _ = some ["es", "ca", "es"] by decide +kernel)
      List.mem_cons_self).trans ?_
    refine (cyclePaths_cons_of_none (by decide +kernel)).trans ?_
    refine (cyclePaths_cons_of_new (by decide +kernel) ?_).trans (congrArg _ ?_)
    · simp only [List.mem_cons, membersOf_eq_iff_perm]
      decide
    refine (cyclePaths_cons_of_new (by decide +kernel) ?_).trans (congrArg _ ?_)
    · simp only [List.mem_cons, membersOf_eq_iff_perm]
      decide
    refine (cyclePaths_cons_of_old (show _ = some ["nb", "nn", "nb"] by decide +kernel)
      ?_).trans rfl
    · simp only [List.mem_cons, membersOf_eq_iff_perm]
      decide
  exact ⟨distinct, named, reportsCycles entangled distinct named, reports⟩

end Config

end Phrasebook
