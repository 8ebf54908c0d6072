import Phrasebook.Proofs.Config.Acceptance
import Phrasebook.Source.Directory

/-!
# Where bundle files are

The file of a bundle is named by joining the directory of the messages, the identifier of a language
and the name of the bundle.  Joining takes a part as it is: an absolute one replaces what is before
it, points lead nowhere or upwards, and slashes lead further down.  So the file is where it should
be, two names below the directory, only if both parts are ordinary names (`Path.IsOrdinary`).

Validation sees to that for bundles, whose names are known to become names of files, and leaves the
identifiers of languages alone as long as they are not blank.  In an accepted configuration the
identifier alone decides.

## Main statements

- `Path.Extends.join`: an ordinary part leads one name down and leaves the base as it is.
- `Config.bundlePath_extends_iff`: which bundle files of an accepted configuration are two names
  below its directory.
- `Config.bundlePath_astray`: an accepted configuration can have others.
-/

namespace Phrasebook

namespace Path

/-! ## Names on a path -/

/-- An **ordinary** name leads one directory down: it is not empty, not a point or a double point,
and holds no slash. -/
structure IsOrdinary (name : String) : Prop where
  ne_empty : name ≠ ""
  ne_here : name ≠ "."
  ne_parent : name ≠ ".."
  unseparated : '/' ∉ name.toList

/-- **A path is a base followed by exactly these ordinary names.** -/
structure Extends (path base : String) (names : List String) : Prop where
  ordinary : ∀ name ∈ names, IsOrdinary name
  /-- The base has not been replaced. -/
  begins : base.toList <+: path.toList
  isAbsolute_eq : isAbsolute path.toList = isAbsolute base.toList
  landmarks_eq : landmarks path = landmarks base ++ names

theorem IsOrdinary.not_isIdle {name : String} (ordinary : IsOrdinary name) :
    isIdle name = false := by
  simp [isIdle, ordinary.ne_empty, ordinary.ne_here]

theorem IsOrdinary.not_isAbsolute {name : String} (ordinary : IsOrdinary name) :
    isAbsolute name.toList = false := by
  have unseparated := ordinary.unseparated
  generalize name.toList = chars at unseparated
  cases chars with
  | nil => rfl
  | cons first rest =>
    rw [isAbsolute]
    rintro _ ⟨⟩
    exact unseparated List.mem_cons_self

/-! ## Cutting a path at its slashes -/

section

variable {isSeparator : Char → Bool}

theorem splitAt_ne_nil (text : List Char) : splitAt isSeparator text ≠ [] := by
  cases text with
  | nil => simp [splitAt]
  | cons c rest =>
    rw [splitAt]
    split
    · simp
    · split <;> simp

/-- A separator ends the pieces before it. -/
theorem splitAt_append_cons {separator : Char} (separates : isSeparator separator = true)
    (front back : List Char) :
    splitAt isSeparator (front ++ separator :: back) =
      splitAt isSeparator front ++ splitAt isSeparator back := by
  induction front with
  | nil => simp [splitAt, separates]
  | cons c rest ih =>
    rw [List.cons_append, splitAt, splitAt, ih]
    split
    · rfl
    · cases pieces : splitAt isSeparator rest with
      | nil => exact absurd pieces (splitAt_ne_nil rest)
      | cons piece more => rfl

theorem splitAt_eq_singleton {text : List Char} (whole : ∀ c ∈ text, isSeparator c = false) :
    splitAt isSeparator text = [text] := by
  induction text with
  | nil => rfl
  | cons c rest ih =>
    obtain ⟨here, later⟩ := List.forall_mem_cons.1 whole
    rw [splitAt, ih later, here]
    rfl

end

theorem components_ofList_append_slash (front back : List Char) :
    components (String.ofList (front ++ '/' :: back)) =
      components (String.ofList front) ++ components (String.ofList back) := by
  simp only [components, String.toList_ofList]
  rw [splitAt_append_cons (by decide), List.map_append]

theorem IsOrdinary.components_eq {name : String} (ordinary : IsOrdinary name) :
    components name = [name] := by
  have whole : ∀ c ∈ name.toList, decide (c = '/') = false := by
    rintro c mem
    simpa using ne_of_mem_of_not_mem mem ordinary.unseparated
  rw [components, splitAt_eq_singleton whole, List.map_singleton, String.ofList_toList]

/-! ## Landmarks -/

/-- The names among others that a path is compared by. -/
def significant : List String → List String
  | [] => []
  | first :: rest =>
    if first = "." then first :: rest.filter fun name => !isIdle name
    else (first :: rest).filter fun name => !isIdle name

theorem landmarks_eq_significant (path : String) : landmarks path = significant (components path) :=
  rfl

theorem significant_concat {name : String} (names : List String) (notIdle : isIdle name = false) :
    significant (names ++ [name]) = significant names ++ [name] := by
  have notHere : name ≠ "." := by
    rintro rfl
    exact absurd notIdle (by decide)
  cases names with
  | nil => simp [significant, notIdle, notHere]
  | cons first rest =>
    by_cases here : first = "."
    · simp [significant, here, notIdle]
    · rw [List.cons_append, significant, significant, if_neg here, if_neg here, ← List.cons_append,
        List.filter_append]
      simp [notIdle]

/-- A slash at the end adds no landmark. -/
theorem significant_concat_empty (names : List String) :
    significant (names ++ [""]) = significant names := by
  have idle : isIdle "" = true := rfl
  cases names with
  | nil => rfl
  | cons first rest =>
    by_cases here : first = "."
    · simp [significant, here, idle]
    · rw [List.cons_append, significant, significant, if_neg here, if_neg here, ← List.cons_append,
        List.filter_append]
      simp [idle]

/-! ## Joining an ordinary part -/

variable {base part : String}

/-- How an ordinary part is put after a base: after a slash, unless the base is empty or ends in
one. -/
theorem toList_join (ordinary : IsOrdinary part) :
    (join base part).toList =
      if base.toList = [] ∨ base.toList.getLast? = some '/' then base.toList ++ part.toList
      else base.toList ++ '/' :: part.toList := by
  rw [join, String.toList_ofList, joinChars, if_neg (by simp [ordinary.not_isAbsolute])]

/-- **An ordinary part is one more landmark.** -/
theorem landmarks_join (base : String) (ordinary : IsOrdinary part) :
    landmarks (join base part) = landmarks base ++ [part] := by
  have written : join base part = String.ofList (join base part).toList :=
    String.ofList_toList.symm
  have last : components (String.ofList part.toList) = [part] := by
    rw [String.ofList_toList, ordinary.components_eq]
  rw [written, toList_join ordinary]
  by_cases open_ : base.toList = [] ∨ base.toList.getLast? = some '/'
  · rw [if_pos open_]
    rcases open_ with empty | slash
    · have nothing : base = "" := String.toList_eq_nil_iff.1 empty
      rw [empty, List.nil_append, landmarks_eq_significant, last, nothing]
      exact significant_concat [] ordinary.not_isIdle
    · -- The base ends in a slash, behind which there is an empty name.
      obtain ⟨front, split⟩ := List.getLast?_eq_some_iff.1 slash
      have ended : components base = components (String.ofList front) ++ [""] := by
        rw [← String.ofList_toList (s := base), split, components_ofList_append_slash]
        rfl
      rw [split, List.append_assoc, List.singleton_append, landmarks_eq_significant,
        components_ofList_append_slash, last, significant_concat _ ordinary.not_isIdle,
        landmarks_eq_significant, ended, significant_concat_empty]
  · rw [if_neg open_, landmarks_eq_significant, components_ofList_append_slash, last,
      significant_concat _ ordinary.not_isIdle, String.ofList_toList]
    rfl

theorem isAbsolute_append {front : List Char} (nonempty : front ≠ []) (back : List Char) :
    isAbsolute (front ++ back) = isAbsolute front := by
  cases front with
  | nil => exact absurd rfl nonempty
  | cons first rest =>
    by_cases slash : first = '/'
    · rw [slash]
      rfl
    · rw [List.cons_append, isAbsolute, isAbsolute]
      · rintro _ ⟨⟩
        exact slash rfl
      · rintro _ ⟨⟩
        exact slash rfl

theorem isAbsolute_join (base : String) (ordinary : IsOrdinary part) :
    isAbsolute (join base part).toList = isAbsolute base.toList := by
  rw [toList_join ordinary]
  by_cases empty : base.toList = []
  · rw [if_pos (Or.inl empty), empty, List.nil_append, ordinary.not_isAbsolute]
    rfl
  · split <;> exact isAbsolute_append empty _

theorem prefix_join (base : String) (ordinary : IsOrdinary part) :
    base.toList <+: (join base part).toList := by
  rw [toList_join ordinary]
  split <;> exact List.prefix_append _ _

theorem extends_self (base : String) : Extends base base [] where
  ordinary := by simp
  begins := List.prefix_refl _
  isAbsolute_eq := rfl
  landmarks_eq := (List.append_nil _).symm

/-- **An ordinary part leads one name further down.** -/
theorem Extends.join {path name : String} {names : List String} (below : Extends path base names)
    (ordinary : IsOrdinary name) : Extends (join path name) base (names ++ [name]) where
  ordinary := by
    intro other mem
    rcases List.mem_append.1 mem with mem | mem
    · exact below.ordinary other mem
    · rwa [List.mem_singleton.1 mem]
  begins := below.begins.trans (prefix_join path ordinary)
  isAbsolute_eq := (isAbsolute_join path ordinary).trans below.isAbsolute_eq
  landmarks_eq := by rw [landmarks_join path ordinary, below.landmarks_eq, List.append_assoc]

end Path

/-! ## Names of bundle files -/

theorem IsWordChar.ne_slash {c : Char} (word : IsWordChar c) : c ≠ '/' := by
  rintro rfl
  revert word
  unfold IsWordChar
  decide

/-- **The name of a bundle's file is ordinary.** -/
theorem IsBundleName.isOrdinary_append {name : String} (named : IsBundleName name) :
    Path.IsOrdinary (name ++ ".json") := by
  obtain ⟨first, rest, split, word, others⟩ := named
  have written : (name ++ ".json").toList = first :: (rest ++ ".json".toList) := by
    rw [String.toList_append, split, List.cons_append]
  have longer : 5 < (name ++ ".json").toList.length := by
    rw [written]
    simp
  refine ⟨?_, ?_, ?_, ?_⟩
  · intro eq
    rw [eq] at longer
    exact absurd longer (by decide)
  · intro eq
    rw [eq] at longer
    exact absurd longer (by decide)
  · intro eq
    rw [eq] at longer
    exact absurd longer (by decide)
  · rw [written, List.mem_cons, List.mem_append, not_or, not_or]
    refine ⟨word.ne_slash.symm, fun mem => ?_, by decide⟩
    rcases others _ mem with slash | slash | slash
    · exact slash.ne_slash rfl
    · exact absurd slash (by decide)
    · exact absurd slash (by decide)

namespace Config

/-- An identifier that is not blank is not empty. -/
theorem HasSoundLanguages.identifier_ne_empty {config : Config} (sound : config.HasSoundLanguages)
    {language : Language} (configured : language ∈ config.languages) :
    language.identifier ≠ "" := by
  obtain ⟨c, mem, -⟩ := sound.named language configured
  intro empty
  rw [empty] at mem
  cases mem

/-- **Where the bundle files of an accepted configuration are.**  Validation makes sure that the
name of a bundle becomes one ordinary name below the directory of the language.  That directory is
itself one ordinary name below the directory of the messages exactly if the identifier of the
language is neither a point nor a double point and holds no slash. -/
theorem bundlePath_extends_iff {config : Config} (accepted : config.validate = .ok config)
    {language : Language} (configured : language ∈ config.languages) {bundle : String}
    (listed : bundle ∈ config.bundles) :
    Path.Extends (MessageDirectory.bundlePath ⟨config.directory⟩ bundle language.identifier)
        (Path.join config.directory language.identifier) [bundle ++ ".json"] ∧
      (Path.Extends (MessageDirectory.bundlePath ⟨config.directory⟩ bundle language.identifier)
          config.directory [language.identifier, bundle ++ ".json"] ↔
        language.identifier ≠ "." ∧ language.identifier ≠ ".." ∧
          '/' ∉ language.identifier.toList) := by
  obtain ⟨-, acceptable⟩ := (validate_eq_ok_iff config config).1 accepted
  have file : Path.IsOrdinary (bundle ++ ".json") :=
    (acceptable.bundleNames bundle listed).isOrdinary_append
  have ne_empty := acceptable.identifier_ne_empty configured
  refine ⟨(Path.extends_self _).join file, fun below => ?_, fun ⟨here, parent, unseparated⟩ => ?_⟩
  · have ordinary := below.ordinary language.identifier List.mem_cons_self
    exact ⟨ordinary.ne_here, ordinary.ne_parent, ordinary.unseparated⟩
  · exact ((Path.extends_self config.directory).join
      ⟨ne_empty, here, parent, unseparated⟩).join file

/-- Languages whose identifiers are points, beside one with an ordinary identifier. -/
def astray : Config where
  defaultLanguage := "."
  languages :=
    [{ identifier := ".", name := "Here", isDefault := true },
      { identifier := "..", name := "Above" },
      { identifier := "en", name := "English" }]
  bundles := ["common"]

theorem bundlePath_extends_english :
    astray.validate = .ok astray ∧
      Path.Extends "locales/en/common.json" "locales" ["en", "common.json"] := by
  have accepted : astray.validate = .ok astray :=
    validate_eq_ok_iff_faults.2 ⟨rfl, by decide +kernel⟩
  have configured : ({ identifier := "en", name := "English" } : Language) ∈ astray.languages := by
    decide
  have listed : "common" ∈ astray.bundles := List.mem_singleton.2 rfl
  have inside := bundlePath_extends_iff accepted configured listed
  exact ⟨accepted, inside.2.2 (by decide)⟩

/-- **Not every accepted configuration keeps its bundle files two names below its directory**: the
file of a bundle is in the directory of the messages itself for one language, and beside that
directory for another. -/
theorem bundlePath_astray :
    astray.validate = .ok astray ∧
      MessageDirectory.bundlePath ⟨astray.directory⟩ "common" "." = "locales/./common.json" ∧
      MessageDirectory.bundlePath ⟨astray.directory⟩ "common" ".." = "locales/../common.json" ∧
      ∀ identifier ∈ [".", ".."], ∀ names : List String, names.length = 2 →
        ¬ Path.Extends (MessageDirectory.bundlePath ⟨astray.directory⟩ "common" identifier)
          astray.directory names := by
  refine ⟨validate_eq_ok_iff_faults.2 ⟨rfl, by decide +kernel⟩, by decide +kernel,
    by decide +kernel, fun identifier mem names two below => ?_⟩
  have landmarks := below.landmarks_eq
  have base : Path.landmarks astray.directory = ["locales"] := by decide +kernel
  rw [base, List.singleton_append] at landmarks
  rcases List.mem_pair.1 mem with rfl | rfl
  · -- The point leads nowhere, so that there is one name only.
    have path : Path.landmarks (MessageDirectory.bundlePath ⟨astray.directory⟩ "common" ".") =
        ["locales", "common.json"] := by decide +kernel
    rw [path] at landmarks
    rw [← (List.cons.inj landmarks).2] at two
    cases two
  · have path : Path.landmarks (MessageDirectory.bundlePath ⟨astray.directory⟩ "common" "..") =
        ["locales", "..", "common.json"] := by decide +kernel
    rw [path] at landmarks
    have upward := below.ordinary ".." (by rw [← (List.cons.inj landmarks).2]; simp)
    exact upward.ne_parent rfl

end Config

end Phrasebook
