import Phrasebook.Proofs.Config.Roots
import Phrasebook.Proofs.Engine.Additions
import Phrasebook.Proofs.Text.ByteOrder

/-!
# What is built from an accepted configuration

Between a configuration and an engine stand the registry, the cache with its keys and locks, the
files, and the store into which the bundles go one after the other.  Each of these could get in the
way: a cache could answer one bundle for another, a bundle that is added could take the keys of an
earlier one away, a chain could break off too early.  This module puts together that they do not,
and says what is built by the files alone.

The first part names what files say of a configuration: which fault comes first (`FirstFault`) and
which message counts for a key in a language (`HasMessage`).  The order of the languages in a load
is that of the registry, which is a list of values in some order that is sorted afterwards; so it
is the order of the identifiers (`IsHeldBy.map_identifier_languages`).  Names of bundles of an
accepted configuration are distinct.  So the source is asked for each of them once, and a cache in
front of it never has an answer (`IsAcceptable.serves`); and each of them is new to the store,
which is then a stack of what was loaded (`loadedEngine`).  What remains is to read this stack from
the top, and to know that chains stay among configured languages.

## Main statement

`buildsFromFiles_of_validate`: building from an accepted configuration ends, fails with the first
fault of a file if there is one, otherwise answers an engine that shows what the files hold, and
does the same with any cache.
-/

namespace Phrasebook

/-- The first answer over lists one after the other. -/
theorem findSome?_flatMap {α β γ : Type} (lists : α → List β) (f : β → Option γ)
    (items : List α) :
    (items.flatMap lists).findSome? f = items.findSome? fun item => (lists item).findSome? f := by
  induction items with
  | nil => rfl
  | cons item rest ih =>
    rw [List.flatMap_cons, List.findSome?_append, ih, List.findSome?_cons]
    cases (lists item).findSome? f <;> rfl

/-- The last answer of a list is followed by none. -/
theorem findSome?_reverse_eq_some_iff {α β : Type} {f : α → Option β} {items : List α}
    {answer : β} :
    items.reverse.findSome? f = some answer ↔
      ∃ before item after, items = before ++ item :: after ∧ f item = some answer ∧
        ∀ later ∈ after, f later = none := by
  rw [List.findSome?_eq_some_iff]
  constructor
  · rintro ⟨after, item, before, split, found, nothing⟩
    refine ⟨before.reverse, item, after.reverse, ?_, found, ?_⟩
    · rw [← List.reverse_reverse items, split]
      simp
    · exact fun later mem => nothing later (List.mem_reverse.1 mem)
  · rintro ⟨before, item, after, rfl, found, nothing⟩
    refine ⟨after.reverse, item, before.reverse, by simp, found, ?_⟩
    exact fun later mem => nothing later (List.mem_reverse.1 mem)

namespace Config

variable {config : Config} {registry : LanguageRegistry} {ε : Type} [MessageEntry ε]
  {tree : FileTree} {working : List String} {source : DirectorySource}

/-! ## The files of a configuration -/

/-- The message directory of a configuration, with the files around it. -/
def directorySource (config : Config) (tree : FileTree) (working : List String) :
    DirectorySource :=
  ⟨⟨config.directory⟩, tree, working⟩

/-- The identifiers of the languages in their order. -/
def identifiers (config : Config) : List String :=
  (config.languages.map Language.identifier).mergeSort fun first second => first ≤ second

/-- The bundle files of a configuration: bundle by bundle in the order of the configuration, and for
each of them in the order of the identifiers. -/
def files (config : Config) : List (String × String) :=
  config.bundles.flatMap fun bundle => config.identifiers.map fun identifier => (bundle, identifier)

/-- **The first file with a fault has this one.** -/
def FirstFault (config : Config) (source : DirectorySource) (error : LoadError) : Prop :=
  ∃ before bundle identifier after, config.files = before ++ (bundle, identifier) :: after ∧
    source.HasFault bundle identifier error ∧
      ∀ earlier ∈ before, ∀ other, ¬ source.HasFault earlier.1 earlier.2 other

/-- **The message of a key in a language**: that of the last bundle whose file holds the key. -/
def HasMessage (config : Config) (source : DirectorySource) (identifier key raw : String) : Prop :=
  ∃ before bundle after, config.bundles = before ++ bundle :: after ∧
    source.Holds bundle identifier key raw ∧
      ∀ later ∈ after, ∀ other, ¬ source.Holds later identifier key other

/-- No file of a language holds a key. -/
def LacksMessage (config : Config) (source : DirectorySource) (identifier key : String) : Prop :=
  ∀ bundle ∈ config.bundles, ∀ raw, ¬ source.Holds bundle identifier key raw

/-- The fault of the first file that has one. -/
def firstFault? (config : Config) (source : DirectorySource) : Option LoadError :=
  config.files.findSome? fun file => source.fault? file.1 file.2

theorem firstFault?_eq_some_iff {error : LoadError} :
    config.firstFault? source = some error ↔ config.FirstFault source error := by
  rw [firstFault?, List.findSome?_eq_some_iff, FirstFault]
  constructor
  · rintro ⟨before, ⟨bundle, identifier⟩, after, split, fault, sound⟩
    refine ⟨before, bundle, identifier, after, split,
      DirectorySource.fault?_eq_some_iff.1 fault, ?_⟩
    intro earlier mem other hasFault
    rw [← DirectorySource.fault?_eq_some_iff, sound earlier mem] at hasFault
    cases hasFault
  · rintro ⟨before, bundle, identifier, after, split, fault, sound⟩
    refine ⟨before, (bundle, identifier), after, split,
      DirectorySource.fault?_eq_some_iff.2 fault, ?_⟩
    intro earlier mem
    rw [Option.eq_none_iff_forall_ne_some]
    intro other hasFault
    exact sound earlier mem other (DirectorySource.fault?_eq_some_iff.1 hasFault)

/-- There is a first fault as soon as there is one. -/
theorem exists_firstFault_iff :
    (∃ error, config.FirstFault source error) ↔
      ∃ bundle ∈ config.bundles, ∃ language ∈ config.languages, ∃ error,
        source.HasFault bundle language.identifier error := by
  simp only [← firstFault?_eq_some_iff, ← Option.isSome_iff_exists, firstFault?,
    List.findSome?_isSome_iff, ← DirectorySource.fault?_eq_some_iff]
  simp [files, identifiers]

/-! ## Languages -/

/-- The registry lists the configured identifiers in their order. -/
theorem IsHeldBy.map_identifier_languages (held : config.IsHeldBy registry)
    (distinct : (config.languages.map Language.identifier).Nodup) :
    registry.languages.map Language.identifier = config.identifiers := by
  have keyed : registry.IsKeyed := by
    intro identifier other found
    exact ((held identifier other).1 found).2
  -- The registry lists its languages in an order of its own, before they are sorted.
  have same : (registry.known.values.map Language.identifier).Perm
      (config.languages.map Language.identifier) := by
    rw [keyed.map_identifier_values, List.perm_ext_iff_of_nodup registry.known.nodup_keys distinct]
    intro identifier
    rw [← map_identifier_resolvedLanguages, ← keyed.map_identifier_values, List.mem_map,
      List.mem_map]
    refine exists_congr fun language => and_congr_left fun _ => ?_
    rw [← held.mem_languages_iff, LanguageRegistry.languages, List.mem_mergeSort]
  have sorted : registry.languages.map Language.identifier =
      (registry.known.values.map Language.identifier).mergeSort fun a b => a ≤ b :=
    List.map_mergeSort fun _ _ _ _ => rfl
  rw [sorted, identifiers]
  exact Text.mergeSort_eq_of_perm same

/-! ## The engine -/

/-- The engine with what the files of a configuration hold. -/
def loadedEngine (config : Config) (registry : LanguageRegistry) (source : DirectorySource) :
    Engine ε where
  registry
  store := Store.empty.loadInTurn (fun bundle => source.held bundle registry.languages)
    config.bundles

/-- The source of an acceptable configuration serves its bundles from the files, whatever the cache
is. -/
theorem IsAcceptable.serves (acceptable : config.IsAcceptable) (tree : FileTree)
    (working : List String) (languages : List Language) :
    Serves languages
      (fun bundle => (config.directorySource tree working).messages bundle languages)
      config.bundles (config.messageSource tree working) := by
  have files := (config.directorySource tree working).serves languages config.bundles
  rw [messageSource]
  split
  · refine FrontedSource.serves_cached ?_
    exact CachedSource.serves acceptable.bundlePlace acceptable.distinctBundles rfl
      (fun _ _ => rfl) files
  · exact FrontedSource.serves_direct files

/-- The first file with a fault is in the first bundle that cannot be loaded. -/
theorem IsHeldBy.firstFault?_eq (held : config.IsHeldBy registry)
    (distinct : (config.languages.map Language.identifier).Nodup) (source : DirectorySource) :
    config.firstFault? source = config.bundles.findSome? fun bundle =>
      failure? (source.messages bundle registry.languages) := by
  rw [firstFault?, files, findSome?_flatMap]
  refine congrArg (config.bundles.findSome? ·) (funext fun bundle => ?_)
  rw [List.findSome?_map, DirectorySource.failure?_messages,
    ← held.map_identifier_languages distinct, List.findSome?_map]
  rfl

/-- **What building comes to.**  Nothing of it depends on the cache. -/
theorem IsAcceptable.build_eq (acceptable : config.IsAcceptable)
    (made : config.languageRegistry = .ok registry) (held : config.IsHeldBy registry)
    (tree : FileTree) (working : List String) :
    (config.build ε tree working).map (Except.map Prod.fst) =
      some (match config.firstFault? (config.directorySource tree working) with
        | some error => .error (.load error)
        | none => .ok (config.loadedEngine registry (config.directorySource tree working))) := by
  have serves := acceptable.serves tree working registry.languages
  have distinct : ((Store.empty : Store ε).bundleNames ++ config.bundles).Nodup :=
    acceptable.distinctBundles
  rw [build, made, held.firstFault?_eq acceptable.distinct]
  dsimp only
  cases first : config.bundles.findSome? fun bundle =>
      failure? ((config.directorySource tree working).messages bundle registry.languages) with
  | some error =>
    obtain ⟨state, added⟩ := Engine.addBundles_of_failure { registry } distinct serves first
    have ran : (Engine.addBundles config.bundles : Loading _ _).run
        (({ registry } : Engine ε), config.messageSource tree working) = _ := added
    rw [ran]
    rfl
  | none =>
    obtain ⟨changed, added⟩ := Engine.addBundles_of_messages { registry } distinct serves
      fun bundle mem =>
        DirectorySource.messages_eq_held (List.findSome?_eq_none_iff.1 first bundle mem)
    have ran : (Engine.addBundles config.bundles : Loading _ _).run
        (({ registry } : Engine ε), config.messageSource tree working) = _ := added
    rw [ran]
    rfl

/-! ## Its messages -/

/-- What a load answers of a configured bundle in a configured language. -/
theorem IsHeldBy.heldIn_held_iff (held : config.IsHeldBy registry)
    (distinct : (config.languages.map Language.identifier).Nodup)
    (sound : config.firstFault? source = none) {bundle identifier key raw : String}
    (mem : bundle ∈ config.bundles) (known : identifier ∈ config.identifiers) :
    heldIn (source.held bundle registry.languages) key identifier = some raw ↔
      source.Holds bundle identifier key raw := by
  rw [held.firstFault?_eq distinct, List.findSome?_eq_none_iff] at sound
  rw [DirectorySource.heldIn_held (sound bundle mem), held.map_identifier_languages distinct]
  exact and_iff_right known

/-- **The store answers the message of the last bundle whose file holds the key.** -/
theorem lookup_loadedEngine_eq_some_iff (acceptable : config.IsAcceptable)
    (held : config.IsHeldBy registry) (sound : config.firstFault? source = none)
    {identifier key : String} (known : identifier ∈ config.identifiers) {entry : ε} :
    (config.loadedEngine registry source : Engine ε).store.lookup key identifier = some entry ↔
      ∃ raw, config.HasMessage source identifier key raw ∧ MessageEntry.compile raw = entry := by
  have distinct : ((Store.empty : Store ε).bundleNames ++ config.bundles).Nodup :=
    acceptable.distinctBundles
  have holds {bundle raw : String} (mem : bundle ∈ config.bundles) :
      heldIn (source.held bundle registry.languages) key identifier = some raw ↔
        source.Holds bundle identifier key raw :=
    held.heldIn_held_iff acceptable.distinct sound mem known
  -- The store begins empty, so a message can only come from one of the bundles.
  have nothing : (Store.empty : Store ε).lookup key identifier = none := rfl
  rw [loadedEngine, Store.lookup_loadInTurn distinct, nothing, Option.or_none,
    Option.map_eq_some_iff]
  refine exists_congr fun raw => and_congr_left fun _ => ?_
  rw [findSome?_reverse_eq_some_iff, HasMessage]
  refine exists_congr fun before => exists_congr fun bundle => exists_congr fun after =>
    and_congr_right fun split => ?_
  rw [holds (by simp [split])]
  refine and_congr_right fun _ => forall₂_congr fun later mem => ?_
  rw [Option.eq_none_iff_forall_ne_some]
  exact forall_congr' fun other => not_congr (holds (by simp [split, mem]))

theorem lookup_loadedEngine_eq_none_iff (acceptable : config.IsAcceptable)
    (held : config.IsHeldBy registry) (sound : config.firstFault? source = none)
    {identifier key : String} (known : identifier ∈ config.identifiers) :
    (config.loadedEngine registry source : Engine ε).store.lookup key identifier = none ↔
      config.LacksMessage source identifier key := by
  have distinct : ((Store.empty : Store ε).bundleNames ++ config.bundles).Nodup :=
    acceptable.distinctBundles
  have nothing : (Store.empty : Store ε).lookup key identifier = none := rfl
  rw [loadedEngine, Store.lookup_loadInTurn distinct, nothing, Option.or_none,
    Option.map_eq_none_iff, List.findSome?_eq_none_iff, LacksMessage]
  simp only [List.mem_reverse]
  refine forall₂_congr fun bundle mem => ?_
  rw [Option.eq_none_iff_forall_ne_some]
  exact forall_congr' fun raw =>
    not_congr (held.heldIn_held_iff acceptable.distinct sound mem known)

/-- The languages that a registered one falls back to are configured. -/
theorem IsHeldBy.mem_identifiers_of_mem_chain (held : config.IsHeldBy registry)
    {language : Language} (registered : language ∈ registry.languages) {identifier : String}
    (mem : identifier ∈ registry.chain language) : identifier ∈ config.identifiers := by
  obtain ⟨route, isRoute, chain⟩ := registry.exists_isRoute_chain language
  rw [chain] at mem
  obtain ⟨visited, memRoute, rfl⟩ := List.mem_map.1 mem
  have configured := held.mem_of_mem_route (held.mem_languages_iff.1 registered) isRoute visited
    memRoute
  rw [identifiers, List.mem_mergeSort, ← map_identifier_resolvedLanguages]
  exact List.mem_map_of_mem configured

/-! ## The statement -/

/-- **An engine is as the files of a configuration say.** -/
structure Presents (config : Config) (source : DirectorySource) (engine : Engine ε) : Prop where
  /-- It has the configured languages. -/
  registry : config.languageRegistry = .ok engine.registry
  /-- It has the configured bundles in their order. -/
  bundles : engine.store.bundleNames = config.bundles
  /-- A key leads to the message of the nearest language on the way along the fallbacks for which
  the file of some bundle holds the key; of those bundles, the last one counts. -/
  entry_eq_some_iff : ∀ {language}, language ∈ engine.registry.languages → ∀ {key entry},
    engine.entry key language = some entry ↔
      ∃ before identifier after raw,
        engine.registry.chain language = before ++ identifier :: after ∧
          config.HasMessage source identifier key raw ∧ MessageEntry.compile raw = entry ∧
            ∀ nearer ∈ before, config.LacksMessage source nearer key
  /-- There is no entry exactly if none of these files holds the key. -/
  entry_eq_none_iff : ∀ {language}, language ∈ engine.registry.languages → ∀ {key},
    engine.entry key language = none ↔
      ∀ identifier ∈ engine.registry.chain language, config.LacksMessage source identifier key

/-- **What is built from a configuration.** -/
structure BuildsFromFiles (ε : Type) [MessageEntry ε] (config : Config) (tree : FileTree)
    (working : List String) : Prop where
  /-- Building comes to an end. -/
  ends : config.build ε tree working ≠ none
  /-- It fails exactly if a file has a fault. -/
  fails_iff : (∃ error, config.build ε tree working = some (.error error)) ↔
    ∃ bundle ∈ config.bundles, ∃ language ∈ config.languages, ∃ fault,
      (config.directorySource tree working).HasFault bundle language.identifier fault
  /-- It fails with the fault of the first such file. -/
  error_iff : ∀ {error}, config.build ε tree working = some (.error error) ↔
    ∃ fault, config.FirstFault (config.directorySource tree working) fault ∧ error = .load fault
  /-- Otherwise the engine is as the files say. -/
  presents : ∀ {engine fronted}, config.build ε tree working = some (.ok (engine, fronted)) →
    config.Presents (config.directorySource tree working) engine
  /-- The cache makes no difference. -/
  alike : ∀ cache : CacheSettings,
    ({ config with cache } : Config).validate = .ok { config with cache } →
      (({ config with cache } : Config).build ε tree working).map (Except.map Prod.fst) =
        (config.build ε tree working).map (Except.map Prod.fst)

theorem presents_loadedEngine (acceptable : config.IsAcceptable)
    (made : config.languageRegistry = .ok registry) (held : config.IsHeldBy registry)
    (sound : config.firstFault? source = none) :
    config.Presents source (config.loadedEngine registry source : Engine ε) where
  registry := made
  bundles := Store.bundleNames_loadInTurn (by exact acceptable.distinctBundles)
  entry_eq_some_iff := by
    intro language registered key entry
    have known {identifier : String} (mem : identifier ∈ registry.chain language) :
        identifier ∈ config.identifiers := held.mem_identifiers_of_mem_chain registered mem
    rw [Engine.entry, List.findSome?_eq_some_iff]
    constructor
    · rintro ⟨before, identifier, after, split, found, nothing⟩
      have split : registry.chain language = before ++ identifier :: after := split
      obtain ⟨raw, message, rfl⟩ := (lookup_loadedEngine_eq_some_iff acceptable held sound
        (known (by simp [split]))).1 found
      refine ⟨before, identifier, after, raw, split, message, rfl, fun nearer mem => ?_⟩
      exact (lookup_loadedEngine_eq_none_iff acceptable held sound
        (known (by simp [split, mem]))).1 (nothing nearer mem)
    · rintro ⟨before, identifier, after, raw, split, message, compiled, lacking⟩
      have split : registry.chain language = before ++ identifier :: after := split
      refine ⟨before, identifier, after, split, ?_, fun nearer mem => ?_⟩
      · exact (lookup_loadedEngine_eq_some_iff acceptable held sound
          (known (by simp [split]))).2 ⟨raw, message, compiled⟩
      · exact (lookup_loadedEngine_eq_none_iff acceptable held sound
          (known (by simp [split, mem]))).2 (lacking nearer mem)
  entry_eq_none_iff := by
    intro language registered key
    rw [Engine.entry, List.findSome?_eq_none_iff]
    exact forall₂_congr fun identifier mem => lookup_loadedEngine_eq_none_iff acceptable held sound
      (held.mem_identifiers_of_mem_chain registered mem)

/-- Building fails with the first fault. -/
theorem IsAcceptable.build_eq_error_iff (acceptable : config.IsAcceptable)
    (made : config.languageRegistry = .ok registry) (held : config.IsHeldBy registry)
    {error : ConfigError} :
    config.build ε tree working = some (.error error) ↔
      ∃ fault, config.FirstFault (config.directorySource tree working) fault ∧
        error = .load fault := by
  have built := acceptable.build_eq made held tree working (ε := ε)
  simp only [← firstFault?_eq_some_iff]
  constructor
  · intro failed
    rw [failed] at built
    cases first : config.firstFault? (config.directorySource tree working) with
    | some fault =>
      rw [first] at built
      cases built
      exact ⟨fault, rfl, rfl⟩
    | none =>
      rw [first] at built
      cases built
  · rintro ⟨fault, first, rfl⟩
    rw [first] at built
    cases outcome : config.build ε tree working with
    | none =>
      rw [outcome] at built
      cases built
    | some result =>
      rw [outcome] at built
      cases result with
      | error error =>
        cases built
        rfl
      | ok state => cases built

/-- What is built is as the files say. -/
theorem IsAcceptable.presents_of_build (acceptable : config.IsAcceptable)
    (made : config.languageRegistry = .ok registry) (held : config.IsHeldBy registry)
    {engine : Engine ε} {fronted : FrontedSource DirectorySource MemoryCache}
    (done : config.build ε tree working = some (.ok (engine, fronted))) :
    config.Presents (config.directorySource tree working) engine := by
  have built := acceptable.build_eq made held tree working (ε := ε)
  rw [done] at built
  cases first : config.firstFault? (config.directorySource tree working) with
  | some error =>
    rw [first] at built
    cases built
  | none =>
    rw [first] at built
    cases built
    exact presents_loadedEngine acceptable made held first

/-- **An accepted configuration builds what its files hold.**  Whatever the files are, building
ends; it fails with the first fault in them; an engine that it answers shows for each key what the
last bundle holds in the nearest language; and none of this depends on the cache. -/
theorem buildsFromFiles_of_validate (accepted : config.validate = .ok config) (tree : FileTree)
    (working : List String) : config.BuildsFromFiles ε tree working := by
  have acceptable : config.IsAcceptable :=
    faults_eq_nil_iff.1 (validate_eq_ok_iff_faults.1 accepted).2
  obtain ⟨registry, made, held⟩ := acceptable.exists_languageRegistry
  have built := acceptable.build_eq made held tree working (ε := ε)
  exact {
    ends := by
      intro hangs
      rw [hangs] at built
      cases built
    fails_iff := by
      rw [← exists_firstFault_iff]
      simp only [acceptable.build_eq_error_iff made held]
      constructor
      · rintro ⟨error, fault, first, -⟩
        exact ⟨fault, first⟩
      · rintro ⟨fault, first⟩
        exact ⟨.load fault, fault, first, rfl⟩
    error_iff := acceptable.build_eq_error_iff made held
    presents := acceptable.presents_of_build made held
    alike := by
      intro cache acceptedToo
      have acceptableToo : ({ config with cache } : Config).IsAcceptable :=
        faults_eq_nil_iff.1 (validate_eq_ok_iff_faults.1 acceptedToo).2
      rw [built]
      exact acceptableToo.build_eq made held tree working }

/-- A shop with two bundles in three languages. -/
def shop : Config :=
  { regional with bundles := ["shop", "extra"] }

/-- A few of its files: the greeting is overridden in one language, and missing in another one. -/
def shopFiles : FileTree :=
  let greeting (text : String) := (Text.braced ("\"greeting\": " ++ Text.quoted text)).toUTF8
  ((FileTree.empty.write "locales/en/shop.json" (greeting "Hello")).write
    "locales/es/shop.json" (greeting "Hola")).write
    "locales/es/extra.json" (greeting "Buenos días")

theorem buildsFromFiles_shop :
    shop.validate = .ok shop ∧ shop.BuildsFromFiles RawEntry shopFiles [] := by
  have accepted : shop.validate = .ok shop :=
    validate_eq_ok_iff_faults.2 ⟨rfl, by decide +kernel⟩
  exact ⟨accepted, buildsFromFiles_of_validate accepted shopFiles []⟩

end Config

end Phrasebook
