import Phrasebook.Config.Load
import Phrasebook.Proofs.Config.Acceptance
import Phrasebook.Proofs.Number.Natural
import Phrasebook.Proofs.Text.Trimming

/-!
# What loading a configuration comes to

Loading goes through three stages, each of which can fail: a text is read, settings are overridden
from the environment, and the whole is validated.  What loading comes to is told from the text and
the environment alone (`LoadsTo`), and the first stage that fails decides.

Only the overridden configuration is validated.  So an environment can repair a file that is not
acceptable by itself, and it can spoil one that is.

Without a file there is nothing to read, and loading starts from the standard configuration.  This
is what an empty file is read as, since every field of it may be left out.

## Main statement

`loads`: what loading comes to, from a file and without one.
-/

namespace Phrasebook

namespace Config

/-! ## The stages -/

/-- A text **writes seconds** if, apart from white space around it, it is a natural number of 64
bits. -/
def WritesSeconds (text : String) (seconds : UInt64) : Prop :=
  ∃ core, Text.ComesDownTo text.toList core ∧ Number.WritesNatural core seconds.toNat

/-- A text is a **text of a configuration** if it is a TOML document that can be read as one. -/
def IsTextOf (text : String) (config : Config) : Prop :=
  ∃ document, Document.ofToml? text = some document ∧ ofDocument? .toml document = some config

/-- A configuration with other settings in the four places that have a variable. -/
def withSettings (read : Config) (defaultLanguage directory level : String) (lifetime : UInt64) :
    Config :=
  { read with
    defaultLanguage
    directory
    cache := { read.cache with lifetime }
    log := { read.log with level } }

/-- **Overriding.**  A setting that has a variable is as the environment says, or as it was read if
the variable is not set.  Everything else is as it was read. -/
structure IsOverridden (environment : Environment) (read config : Config) : Prop where
  /-- The default language has a variable. -/
  defaultLanguage :
    config.defaultLanguage = (environment languageVariable).getD read.defaultLanguage
  /-- The directory of the message files has one. -/
  directory : config.directory = (environment directoryVariable).getD read.directory
  /-- The level of the log has one. -/
  level : config.log.level = (environment levelVariable).getD read.log.level
  /-- The variable of the lifetime is set to a number of seconds. -/
  lifetime : ∀ written, environment lifetimeVariable = some written →
    WritesSeconds written config.cache.lifetime
  /-- Or it is not set. -/
  lifetimeKept : environment lifetimeVariable = none →
    config.cache.lifetime = read.cache.lifetime
  /-- No other setting has a variable. -/
  others : config =
    read.withSettings config.defaultLanguage config.directory config.log.level config.cache.lifetime

/-- **What loading a text in an environment comes to.**  The text is no configuration; or it is one,
but the variable of the lifetime is set and writes no seconds; or it can be overridden, and the
result has faults or none. -/
inductive LoadsTo (text : String) (environment : Environment) : Except ConfigError Config → Prop
  | unreadable (no : ∀ read, ¬ IsTextOf text read) : LoadsTo text environment (.error .parse)
  | noSeconds {read : Config} {written : String} {fault : Number.IntegerFault}
    (isText : IsTextOf text read) (set : environment lifetimeVariable = some written)
    (no : ∀ seconds, ¬ WritesSeconds written seconds)
    (because : readLifetime written = .error (.environment lifetimeVariable fault)) :
    LoadsTo text environment (.error (.environment lifetimeVariable fault))
  | faulty {read config : Config} (isText : IsTextOf text read)
    (overridden : IsOverridden environment read config) (faulty : config.faults ≠ []) :
    LoadsTo text environment (.error (.invalid config.faults))
  | loaded {read config : Config} (isText : IsTextOf text read)
    (overridden : IsOverridden environment read config) (faultless : config.faults = []) :
    LoadsTo text environment (.ok config)

section

variable {text written : String} {environment : Environment} {read config : Config}
  {error : ConfigError} {seconds : UInt64}

/-! ### Reading -/

theorem ofToml_eq_ok_iff : ofToml text = .ok config ↔ IsTextOf text config := by
  rw [IsTextOf, ← Option.bind_eq_some_iff, ofToml]
  cases (Document.ofToml? text).bind (ofDocument? .toml) <;> simp

theorem ofToml_eq_error_iff :
    ofToml text = .error error ↔ error = .parse ∧ ∀ read, ¬ IsTextOf text read := by
  simp only [← ofToml_eq_ok_iff]
  rw [ofToml]
  cases (Document.ofToml? text).bind (ofDocument? .toml) <;> simp [eq_comm]

/-! ### Overriding -/

theorem readLifetime_eq_ok_iff :
    readLifetime written = .ok seconds ↔ WritesSeconds written seconds := by
  have reads : WritesSeconds written seconds ↔
      Number.readNatural 0xFFFFFFFFFFFFFFFF (Text.strip written.toList) = .ok seconds.toNat := by
    rw [Number.readNatural_eq_ok_iff, and_iff_left (Nat.le_of_lt_succ seconds.toNat_lt)]
    simp only [WritesSeconds, ← Text.strip_eq_iff, exists_eq_left']
  rw [reads, readLifetime]
  cases number : Number.readNatural 0xFFFFFFFFFFFFFFFF (Text.strip written.toList) with
  | error fault => simp
  | ok n =>
    have small : n < UInt64.size := Nat.lt_succ_of_le (Number.readNatural_eq_ok_iff.1 number).2
    simp only [Except.ok.injEq]
    rw [← UInt64.toNat_inj, UInt64.toNat_ofNat_of_lt' small]

theorem exists_fault_of_readLifetime (failed : readLifetime written = .error error) :
    ∃ fault, error = .environment lifetimeVariable fault := by
  unfold readLifetime at failed
  split at failed
  · cases failed
  · exact ⟨_, (Except.error.inj failed).symm⟩

theorem lifetimeOf_eq_ok_iff {asked : Option UInt64} :
    lifetimeOf environment = .ok asked ↔
      environment lifetimeVariable = none ∧ asked = none ∨
        ∃ written seconds, environment lifetimeVariable = some written ∧
          WritesSeconds written seconds ∧ asked = some seconds := by
  unfold lifetimeOf
  cases environment lifetimeVariable with
  | none => simp [eq_comm]
  | some written =>
    simp only [← readLifetime_eq_ok_iff]
    cases read : readLifetime written with
    | error error => simp [Except.map, read]
    | ok seconds => simp [Except.map, read, eq_comm]

/-- A configuration as an environment has it, which may ask for a lifetime. -/
def overriddenBy (read : Config) (environment : Environment) (asked : Option UInt64) : Config :=
  read.withSettings ((environment languageVariable).getD read.defaultLanguage)
    ((environment directoryVariable).getD read.directory)
    ((environment levelVariable).getD read.log.level) (asked.getD read.cache.lifetime)

theorem isOverridden_iff : IsOverridden environment read config ↔
    ∃ asked, lifetimeOf environment = .ok asked ∧ read.overriddenBy environment asked = config := by
  constructor
  · intro overridden
    simp only [overriddenBy, ← overridden.defaultLanguage, ← overridden.directory,
      ← overridden.level]
    cases set : environment lifetimeVariable with
    | none =>
      refine ⟨none, lifetimeOf_eq_ok_iff.2 (Or.inl ⟨set, rfl⟩), ?_⟩
      rw [Option.getD_none, ← overridden.lifetimeKept set, ← overridden.others]
    | some written =>
      exact ⟨some config.cache.lifetime, lifetimeOf_eq_ok_iff.2
        (Or.inr ⟨written, _, set, overridden.lifetime written set, rfl⟩), overridden.others.symm⟩
  · rintro ⟨asked, answered, rfl⟩
    rcases lifetimeOf_eq_ok_iff.1 answered with ⟨unset, rfl⟩ | ⟨written, seconds, set, writes, rfl⟩
    · exact
        { defaultLanguage := rfl
          directory := rfl
          level := rfl
          lifetime := fun _ set => by cases unset.symm.trans set
          lifetimeKept := fun _ => rfl
          others := rfl }
    · exact
        { defaultLanguage := rfl
          directory := rfl
          level := rfl
          lifetime := fun other also => Option.some.inj (set.symm.trans also) ▸ writes
          lifetimeKept := fun unset => by cases unset.symm.trans set
          others := rfl }

theorem override_eq_map (read : Config) (environment : Environment) :
    read.override environment =
      (lifetimeOf environment).map (read.overriddenBy environment) := by
  rw [override]
  cases lifetimeOf environment <;> rfl

theorem override_eq_ok_iff :
    read.override environment = .ok config ↔ IsOverridden environment read config := by
  rw [isOverridden_iff, override_eq_map]
  cases lifetimeOf environment <;> simp [Except.map]

theorem override_eq_error_iff :
    read.override environment = .error error ↔
      ∃ written, environment lifetimeVariable = some written ∧
        readLifetime written = .error error := by
  rw [override_eq_map, lifetimeOf]
  cases environment lifetimeVariable with
  | none => simp [Except.map]
  | some written => cases seconds : readLifetime written <;> simp [Except.map, seconds]

/-! ### All stages -/

theorem validate_eq_error_iff :
    config.validate = .error error ↔ error = .invalid config.faults ∧ config.faults ≠ [] := by
  unfold validate
  cases config.faults <;> simp [eq_comm]

theorem loadText_eq_bind (text : String) (environment : Environment) :
    loadText text environment =
      (ofToml text).bind fun read => (read.override environment).bind validate :=
  rfl

theorem loadsTo_loadText (text : String) (environment : Environment) :
    LoadsTo text environment (loadText text environment) := by
  rw [loadText_eq_bind]
  cases reading : ofToml text with
  | error error =>
    obtain ⟨rfl, no⟩ := ofToml_eq_error_iff.1 reading
    exact .unreadable no
  | ok read =>
    have isText := ofToml_eq_ok_iff.1 reading
    rw [Except.bind]
    cases overriding : read.override environment with
    | error error =>
      obtain ⟨written, set, failed⟩ := override_eq_error_iff.1 overriding
      obtain ⟨fault, rfl⟩ := exists_fault_of_readLifetime failed
      refine .noSeconds isText set (fun seconds writes => ?_) failed
      cases failed.symm.trans (readLifetime_eq_ok_iff.2 writes)
    | ok config =>
      have overridden := override_eq_ok_iff.1 overriding
      rw [Except.bind]
      cases validating : config.validate with
      | error error =>
        obtain ⟨rfl, faulty⟩ := validate_eq_error_iff.1 validating
        exact .faulty isText overridden faulty
      | ok answer =>
        obtain ⟨rfl, faultless⟩ := validate_eq_ok_iff_faults.1 validating
        exact .loaded isText overridden faultless

/-- **Loading a text** comes to what the text and the environment tell. -/
theorem loadText_eq_iff {outcome : Except ConfigError Config} :
    loadText text environment = outcome ↔ LoadsTo text environment outcome := by
  refine ⟨fun same => same ▸ loadsTo_loadText text environment, fun loads => ?_⟩
  rw [loadText_eq_bind]
  cases loads with
  | unreadable no => rw [ofToml_eq_error_iff.2 ⟨rfl, no⟩, Except.bind]
  | noSeconds isText set no because =>
    rw [ofToml_eq_ok_iff.2 isText, Except.bind, override_eq_error_iff.2 ⟨_, set, because⟩,
      Except.bind]
  | faulty isText overridden faulty =>
    rw [ofToml_eq_ok_iff.2 isText, Except.bind, override_eq_ok_iff.2 overridden, Except.bind,
      validate_eq_error_iff.2 ⟨rfl, faulty⟩]
  | loaded isText overridden faultless =>
    rw [ofToml_eq_ok_iff.2 isText, Except.bind, override_eq_ok_iff.2 overridden, Except.bind,
      validate_eq_ok_iff_faults.2 ⟨rfl, faultless⟩]

end

/-! ## Files, and none -/

/-- The environment in which no variable is set. -/
def nothingSet : Environment := fun _ => none

/-- The environment in which one variable is set. -/
def onlySet (name value : String) : Environment := fun other =>
  if other = name then some value else none

/-- A text is an **empty document** if no field stands in it. -/
def IsEmptyDocument (text : String) : Prop := Document.ofToml? text = some (.table [])

theorem loadFile_eq_loadText {tree : FileTree} {working : List String} {path text : String}
    (held : tree.readText working path = .ok text) (environment : Environment) :
    loadFile tree working path environment = loadText text environment := by
  rw [loadFile, held]

/-- What an empty document leaves out is standard. -/
theorem ofToml_of_isEmptyDocument {text : String} (empty : IsEmptyDocument text) :
    ofToml text = .ok standard :=
  ofToml_eq_ok_iff.2 ⟨.table [], empty, rfl⟩

/-- Loading starts from the standard configuration if there is no file. -/
theorem load_eq_of_noFile {tree : FileTree} {working : List String} {environment : Environment}
    {fault : FileFault} (unnamed : environment pathVariable = none)
    (missing : tree.resolve working defaultFile = .error fault) :
    load tree working environment = (standard.override environment).bind validate := by
  rw [load, unnamed, missing]
  rfl

/-- **What loading comes to.**  From a file, it is what the text of the file and the environment
tell.  So environments can repair files, and they can spoil them.  Without a file, loading is the
same as from an empty one. -/
theorem loads :
    (∀ (tree : FileTree) (working : List String) (path text : String) (environment : Environment),
      tree.readText working path = .ok text → ∀ outcome,
        loadFile tree working path environment = outcome ↔ LoadsTo text environment outcome) ∧
    (∃ text environment faults config, LoadsTo text nothingSet (.error (.invalid faults)) ∧
      LoadsTo text environment (.ok config)) ∧
    (∃ text environment faults config, LoadsTo text nothingSet (.ok config) ∧
      LoadsTo text environment (.error (.invalid faults))) ∧
    IsEmptyDocument "" ∧
    ∀ (tree other : FileTree) (working elsewhere : List String) (path text : String)
      (environment : Environment) (fault : FileFault), environment pathVariable = none →
        tree.resolve working defaultFile = .error fault →
          other.readText elsewhere path = .ok text → IsEmptyDocument text →
            load tree working environment = loadFile other elsewhere path environment := by
  refine ⟨?_, ?_, ?_, rfl, ?_⟩
  · intro tree working path text environment held outcome
    rw [loadFile_eq_loadText held, loadText_eq_iff]
  · exact ⟨"logging.level=\"\"", onlySet levelVariable "info", [.blankLevel], standard,
      loadText_eq_iff.1 (by decide +kernel), loadText_eq_iff.1 (by decide +kernel)⟩
  · exact ⟨"", onlySet languageVariable "xx",
      [.contradictingDefault "en" "xx", .unknownDefault "xx"], standard,
      loadText_eq_iff.1 (by decide +kernel), loadText_eq_iff.1 (by decide +kernel)⟩
  · intro tree other working elsewhere path text environment fault unnamed missing held empty
    rw [load_eq_of_noFile unnamed missing, loadFile_eq_loadText held, loadText_eq_bind,
      ofToml_of_isEmptyDocument empty, Except.bind]

/-- A directory with a single file. -/
def singleFile (text : String) : FileTree := FileTree.empty.write "app.toml" text.toUTF8

/-- A text of a configuration whose default language is not configured and whose messages are kept
for no time. -/
def signpostText : String :=
  "default_language = 'en'\nbundles = ['signs']\n\n" ++
    "[[languages]]\nidentifier = 'de'\nname = 'Deutsch'\n\n" ++
    "[cache]\nttl_secs = 0\n\n[logging]\nformat = 'json'\n"

/-- The same configuration with another default language and with time. -/
def signpost : Config where
  defaultLanguage := "de"
  languages := [{ identifier := "de", name := "Deutsch" }]
  bundles := ["signs"]
  cache := { lifetime := 90 }
  log := { format := .json }

/-- The environment that repairs the text. -/
def repairing : Environment := fun name =>
  if name = lifetimeVariable then some " +90\n" else onlySet languageVariable "de" name

theorem loads_signpost :
    LoadsTo signpostText nothingSet
        (.error (.invalid [.unknownDefault "en", .zeroLifetime])) ∧
      LoadsTo signpostText repairing (.ok signpost) ∧
      load FileTree.empty [] (onlySet levelVariable " ") =
        loadFile (singleFile "") [] "app.toml" (onlySet levelVariable " ") := by
  have held : (singleFile signpostText).readText [] "app.toml" = .ok signpostText := by
    decide +kernel
  refine ⟨(loads.1 _ _ _ _ nothingSet held _).1 ?_, (loads.1 _ _ _ _ repairing held _).1 ?_, ?_⟩
  · decide +kernel
  · decide +kernel
  · exact loads.2.2.2.2 FileTree.empty (singleFile "") [] [] "app.toml" "" _ .notFound (by decide)
      (by decide) (by decide +kernel) rfl

end Config

end Phrasebook
