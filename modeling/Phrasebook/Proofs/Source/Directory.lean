import Mathlib.Data.List.Basic
import Phrasebook.Proofs.Store.Views
import Phrasebook.Source.Directory

/-!
# What the files of a bundle hold

A bundle is loaded file by file, one for each language.  Two things can be said of a file without
speaking of a load: it has a fault (`DirectorySource.HasFault`), or it holds a message for a key
(`DirectorySource.Holds`).  A load says the same of all files together: it fails with the first
fault, and otherwise answers what the files hold.

## Main statements

- `DirectorySource.failure?_messages`: when a load fails, and how.
- `DirectorySource.heldIn_held`: what it answers otherwise.
-/

namespace Phrasebook

namespace DirectorySource

variable {source : DirectorySource} {bundle identifier key raw : String}

/-- The text of the file of a bundle in a language. -/
def text (source : DirectorySource) (bundle identifier : String) : Except FileFault String :=
  source.tree.readText source.working (source.directory.bundlePath bundle identifier)

/-- **The file of a bundle in a language has a fault**: it is there but cannot be read, or what is
read is no JSON text. -/
inductive HasFault (source : DirectorySource) (bundle identifier : String) : LoadError → Prop
  | unreadable {fault : FileFault} (read : source.text bundle identifier = .error fault)
      (there : fault ≠ .notFound) : HasFault source bundle identifier (.file fault)
  | malformed {text : String} (read : source.text bundle identifier = .ok text)
      (unparsed : Document.ofJsonFully? text = none) :
      HasFault source bundle identifier (.json (source.directory.bundlePath bundle identifier))

/-- **The file of a bundle in a language holds a message for a key**, when it is flattened. -/
def Holds (source : DirectorySource) (bundle identifier key raw : String) : Prop :=
  ∃ text document, source.text bundle identifier = .ok text ∧
    Document.ofJsonFully? text = some document ∧ document.messages.get? key = some raw

/-- The messages of a file, if it is there. -/
def file (source : DirectorySource) (bundle identifier : String) :
    Except LoadError (Option (Dict String String)) :=
  source.directory.loadFile source.tree source.working bundle identifier

/-- The messages of a bundle in languages. -/
def messages (source : DirectorySource) (bundle : String) (languages : List Language) :
    Except LoadError Messages :=
  source.directory.load source.tree source.working bundle languages

theorem file_of_unreadable {fault : FileFault}
    (read : source.text bundle identifier = .error fault) :
    source.file bundle identifier =
      if fault = .notFound then .ok none else .error (.file fault) := by
  unfold text at read
  unfold file MessageDirectory.loadFile
  dsimp only
  rw [read]
  cases fault <;> rfl

theorem file_of_malformed {text : String} (read : source.text bundle identifier = .ok text)
    (unparsed : Document.ofJsonFully? text = none) :
    source.file bundle identifier =
      .error (.json (source.directory.bundlePath bundle identifier)) := by
  unfold DirectorySource.text at read
  unfold file MessageDirectory.loadFile
  dsimp only
  rw [read]
  dsimp only
  rw [unparsed]

theorem file_of_document {text : String} {document : Document}
    (read : source.text bundle identifier = .ok text)
    (parsed : Document.ofJsonFully? text = some document) :
    source.file bundle identifier = .ok (some document.messages) := by
  unfold DirectorySource.text at read
  unfold file MessageDirectory.loadFile
  dsimp only
  rw [read]
  dsimp only
  rw [parsed]

/-- The fault of a file, if it has one. -/
def fault? (source : DirectorySource) (bundle identifier : String) : Option LoadError :=
  failure? (source.file bundle identifier)

theorem fault?_eq_some_iff {error : LoadError} :
    source.fault? bundle identifier = some error ↔ source.HasFault bundle identifier error := by
  rw [fault?]
  cases read : source.text bundle identifier with
  | error fault =>
    rw [file_of_unreadable read]
    by_cases missing : fault = .notFound
    · rw [if_pos missing]
      refine iff_of_false nofun ?_
      rintro (⟨readToo, there⟩ | ⟨readToo, -⟩)
      · cases read.symm.trans readToo
        exact there missing
      · cases read.symm.trans readToo
    · rw [if_neg missing]
      constructor
      · rintro ⟨⟩
        exact .unreadable read missing
      · rintro (⟨readToo, -⟩ | ⟨readToo, -⟩)
        · cases read.symm.trans readToo
          rfl
        · cases read.symm.trans readToo
  | ok text =>
    cases parsed : Document.ofJsonFully? text with
    | none =>
      rw [file_of_malformed read parsed]
      constructor
      · rintro ⟨⟩
        exact .malformed read parsed
      · rintro (⟨readToo, -⟩ | -)
        · cases read.symm.trans readToo
        · rfl
    | some document =>
      rw [file_of_document read parsed]
      refine iff_of_false nofun ?_
      rintro (⟨readToo, -⟩ | ⟨readToo, unparsed⟩)
      · cases read.symm.trans readToo
      · cases read.symm.trans readToo
        cases parsed.symm.trans unparsed

theorem exists_file_of_fault?_eq_none (sound : source.fault? bundle identifier = none) :
    ∃ found, source.file bundle identifier = .ok found := by
  rw [fault?] at sound
  cases answered : source.file bundle identifier with
  | error error =>
    rw [answered] at sound
    cases sound
  | ok found => exact ⟨found, rfl⟩

/-- A file without a fault answers what it holds. -/
theorem holds_iff_of_file {found : Option (Dict String String)}
    (answered : source.file bundle identifier = .ok found) :
    source.Holds bundle identifier key raw ↔ found.bind (Dict.get? · key) = some raw := by
  cases read : source.text bundle identifier with
  | error fault =>
    rw [file_of_unreadable read] at answered
    split at answered
    · cases answered
      simp [Holds, read]
    · cases answered
  | ok text =>
    cases parsed : Document.ofJsonFully? text with
    | none =>
      rw [file_of_malformed read parsed] at answered
      cases answered
    | some document =>
      rw [file_of_document read parsed] at answered
      cases answered
      simp [Holds, read, parsed]

/-! ## All files of a bundle -/

/-- The messages of a bundle in languages, after messages that are loaded already. -/
def messagesAfter (source : DirectorySource) (bundle : String) (loaded : Messages)
    (languages : List Language) : Except LoadError Messages :=
  source.directory.loadAfter source.tree source.working bundle loaded languages

theorem messagesAfter_cons (loaded : Messages) (language : Language) (rest : List Language) :
    source.messagesAfter bundle loaded (language :: rest) =
      match source.file bundle language.identifier with
      | .error error => .error error
      | .ok none => source.messagesAfter bundle loaded rest
      | .ok (some messages) =>
        source.messagesAfter bundle (loaded.insert language.identifier messages) rest := by
  conv_lhs => unfold messagesAfter MessageDirectory.loadAfter
  rfl

/-- **A load fails with the first fault**, in the order of the languages. -/
theorem messagesAfter_of_fault {languages : List Language} {error : LoadError}
    (first : (languages.findSome? fun language => source.fault? bundle language.identifier) =
      some error) (loaded : Messages) :
    source.messagesAfter bundle loaded languages = .error error := by
  induction languages generalizing loaded with
  | nil => cases first
  | cons language rest ih =>
    rw [List.findSome?_cons] at first
    rw [messagesAfter_cons]
    cases answered : source.file bundle language.identifier with
    | error fault =>
      simp only [fault?, answered, failure?] at first
      rw [Option.some.inj first]
    | ok found =>
      simp only [fault?, answered, failure?] at first
      cases found with
      | none => exact ih first loaded
      | some messages => exact ih first _

/-- **A load without a fault answers what the files hold**, besides what is loaded already, if that
is from the same files. -/
theorem exists_messagesAfter {languages : List Language}
    (sound : (languages.findSome? fun language => source.fault? bundle language.identifier) =
      none) (loaded : Messages)
    (faithful : ∀ key identifier raw, heldIn loaded key identifier = some raw →
      source.Holds bundle identifier key raw) :
    ∃ messages, source.messagesAfter bundle loaded languages = .ok messages ∧
      ∀ key identifier raw, heldIn messages key identifier = some raw ↔
        heldIn loaded key identifier = some raw ∨
          identifier ∈ languages.map Language.identifier ∧
            source.Holds bundle identifier key raw := by
  induction languages generalizing loaded with
  | nil => exact ⟨loaded, rfl, by simp⟩
  | cons language rest ih =>
    have soundHere := List.findSome?_eq_none_iff.1 sound language List.mem_cons_self
    have soundRest := List.findSome?_eq_none_iff.2 fun other mem =>
      List.findSome?_eq_none_iff.1 sound other (List.mem_cons_of_mem _ mem)
    obtain ⟨found, answered⟩ := exists_file_of_fault?_eq_none soundHere
    rw [messagesAfter_cons, answered]
    cases found with
    | none =>
      -- The file is missing, so it holds nothing, and what is loaded stays as it is.
      obtain ⟨messages, loadedRest, held⟩ := ih soundRest loaded faithful
      refine ⟨messages, loadedRest, fun key identifier raw => ?_⟩
      have nothing : ¬ (identifier = language.identifier ∧
          source.Holds bundle identifier key raw) := by
        rintro ⟨rfl, holds⟩
        cases (holds_iff_of_file answered).1 holds
      rw [held, List.map_cons, List.mem_cons, or_and_right, or_iff_right nothing]
    | some strings =>
      have inserted (key identifier raw : String) :
          heldIn (loaded.insert language.identifier strings) key identifier = some raw ↔
            heldIn loaded key identifier = some raw ∨
              identifier = language.identifier ∧ source.Holds bundle identifier key raw := by
        by_cases same : identifier = language.identifier
        · -- If the language was loaded before, then it was from the same file.
          subst same
          have here : heldIn (loaded.insert language.identifier strings) key language.identifier =
              strings.get? key := by
            rw [heldIn, Dict.get?_insert_self]
            rfl
          rw [here, holds_iff_of_file answered]
          have before := faithful key language.identifier raw
          rw [holds_iff_of_file answered] at before
          simpa using before
        · rw [heldIn, Dict.get?_insert, if_neg same]
          simp [same, heldIn]
      obtain ⟨messages, loadedRest, held⟩ := ih soundRest
        (loaded.insert language.identifier strings) fun key identifier raw found =>
          ((inserted key identifier raw).1 found).elim (faithful key identifier raw) And.right
      refine ⟨messages, loadedRest, fun key identifier raw => ?_⟩
      rw [held, inserted, List.map_cons, List.mem_cons, or_and_right, or_assoc]

/-- A load fails as the first of its files that has a fault. -/
theorem failure?_messages (source : DirectorySource) (bundle : String)
    (languages : List Language) :
    failure? (source.messages bundle languages) =
      languages.findSome? fun language => source.fault? bundle language.identifier := by
  cases first : languages.findSome? fun language => source.fault? bundle language.identifier with
  | some error =>
    rw [show source.messages bundle languages = _ from messagesAfter_of_fault first Dict.empty]
    rfl
  | none =>
    obtain ⟨messages, loaded, -⟩ := exists_messagesAfter first Dict.empty nofun
    rw [show source.messages bundle languages = _ from loaded]
    rfl

/-- The messages that a load answers; none if it fails. -/
def held (source : DirectorySource) (bundle : String) (languages : List Language) : Messages :=
  (source.messages bundle languages).toOption.getD Dict.empty

/-- **A load that does not fail answers what the files hold.** -/
theorem messages_eq_held {languages : List Language}
    (sound : failure? (source.messages bundle languages) = none) :
    source.messages bundle languages = .ok (source.held bundle languages) := by
  rw [held]
  cases loaded : source.messages bundle languages with
  | error error =>
    rw [loaded] at sound
    cases sound
  | ok messages => rfl

theorem heldIn_held {languages : List Language}
    (sound : failure? (source.messages bundle languages) = none) :
    heldIn (source.held bundle languages) key identifier = some raw ↔
      identifier ∈ languages.map Language.identifier ∧
        source.Holds bundle identifier key raw := by
  have first := (source.failure?_messages bundle languages).symm.trans sound
  obtain ⟨messages, loaded, found⟩ := exists_messagesAfter first Dict.empty nofun
  have answered : source.messages bundle languages = .ok messages := loaded
  have same : source.held bundle languages = messages := by
    rw [held, answered]
    rfl
  rw [same, found]
  exact or_iff_right nofun

end DirectorySource

end Phrasebook
