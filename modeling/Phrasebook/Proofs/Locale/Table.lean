import Mathlib.Data.List.Forall2
import Mathlib.Data.List.Induction
import Phrasebook.Locale.Table
import Phrasebook.Proofs.History
import Phrasebook.Proofs.Text.Case

/-!
# What a locale table answers

A table is made from a list of tags.  Its locales are entered under the language of the tag that was
read, in its canonical spelling, or under `und` if the tag leaves the language open.  They are
looked up by a text that nobody has read.  The two meet in what stands before the first hyphen or
underscore: in a tag that can be read this is its language as it was spelled (`primary_of_parse?`).

So the answers are told from the list of tags.  A text that begins with the language of some tag, in
whatever case, is answered by the last of these tags, and any other text by nothing.

## Main statement

`answersTags_ofTags`: making a table fails at the first tag that cannot be read, and otherwise the
table answers every text by the last tag of its language.
-/

namespace Phrasebook

open Text

/-! ## Fronts -/

/-- A **separator** of subtags is a hyphen or an underscore. -/
def IsSeparator (c : Char) : Prop := c = '-' ∨ c = '_'

instance (c : Char) : Decidable (IsSeparator c) := inferInstanceAs (Decidable (_ ∨ _))

/-- The **front** of a text is what stands before its first separator. -/
def front (text : String) : List Char := text.toList.takeWhile fun c => ¬ IsSeparator c

/-- Two names are the **same name** if they differ at most in ASCII case. -/
def IsSameName (name other : List Char) : Prop := name.map Char.toLower = other.map Char.toLower

instance (name other : List Char) : Decidable (IsSameName name other) :=
  inferInstanceAs (Decidable (_ = _))

/-- A text **respells** another: character by character the two are the same up to ASCII case, or
both are separators. -/
def Respells (text other : String) : Prop :=
  List.Forall₂ (fun c d => c.toLower = d.toLower ∨ IsSeparator c ∧ IsSeparator d)
    text.toList other.toList

/-- A character that is a separator up to case is one. -/
theorem isSeparator_of_toLower_eq {c d : Char} (same : c.toLower = d.toLower)
    (separates : IsSeparator d) : IsSeparator c := by
  rcases separates with rfl | rfl
  · exact Or.inl (eq_of_toLower_eq (by decide) (by decide) same)
  · exact Or.inr (eq_of_toLower_eq (by decide) (by decide) same)

theorem isSameName_takeWhile {text other : List Char}
    (respelled : List.Forall₂ (fun c d => c.toLower = d.toLower ∨ IsSeparator c ∧ IsSeparator d)
      text other) :
    IsSameName (text.takeWhile fun c => ¬ IsSeparator c)
      (other.takeWhile fun c => ¬ IsSeparator c) := by
  induction respelled with
  | nil => rfl
  | @cons c d rest others alike _ ih =>
    by_cases separates : IsSeparator c
    · have also : IsSeparator d :=
        alike.elim (fun same => isSeparator_of_toLower_eq same.symm separates) And.right
      rw [List.takeWhile_cons_of_neg (by simpa using separates),
        List.takeWhile_cons_of_neg (by simpa using also)]
      rfl
    · have same : c.toLower = d.toLower := alike.resolve_right fun both => separates both.1
      have neither : ¬ IsSeparator d := fun also => separates (isSeparator_of_toLower_eq same also)
      rw [List.takeWhile_cons_of_pos (by simpa using separates),
        List.takeWhile_cons_of_pos (by simpa using neither)]
      exact congrArg₂ List.cons same ih

/-- Spellings of one text have the same front. -/
theorem Respells.isSameName_front {text other : String} (respelled : Respells text other) :
    IsSameName (front text) (front other) :=
  isSameName_takeWhile respelled

/-! ## Tags -/

theorem Path.exists_splitAt_eq_cons (isSeparator : Char → Bool) (text : List Char) :
    ∃ pieces, Path.splitAt isSeparator text =
      (text.takeWhile fun c => !isSeparator c) :: pieces := by
  induction text with
  | nil => exact ⟨[], rfl⟩
  | cons c rest ih =>
    obtain ⟨pieces, cut⟩ := ih
    cases separates : isSeparator c with
    | true => exact ⟨Path.splitAt isSeparator rest, by simp [Path.splitAt, separates]⟩
    | false => exact ⟨pieces, by simp [Path.splitAt, separates, cut]⟩

namespace LanguageTag

theorem exists_subtags_eq_cons (tag : String) : ∃ rest, subtags tag = front tag :: rest := by
  obtain ⟨rest, cut⟩ := Path.exists_splitAt_eq_cons (fun c => c = '-' || c = '_') tag.toList
  refine ⟨rest, cut.trans ?_⟩
  simp [front, IsSeparator]

theorem getD_of_readLanguage? {subtag : List Char} {language : Option (List Char)}
    (read : readLanguage? subtag = some language) :
    language.getD undetermined = subtag.map Char.toLower := by
  unfold readLanguage? at read
  split at read
  · obtain rfl := Option.some.inj read
    split
    · next open_ => exact open_.symm
    · rfl
  · cases read

/-- **The language of a tag is its front** in lower case; the language is left open by the front
`und`, under which such tags are kept. -/
theorem primary_of_parse? {tag : String} {locale : LanguageTag} (read : parse? tag = some locale) :
    locale.primary = (front tag).map Char.toLower := by
  obtain ⟨rest, cut⟩ := exists_subtags_eq_cons tag
  simp only [parse?, cut, Option.bind_eq_bind, Option.bind_eq_some_iff] at read
  obtain ⟨language, readLanguage, variants, -, made⟩ := read
  obtain rfl := Option.some.inj made
  exact getD_of_readLanguage? readLanguage

/-- A tag **reads as** a locale of a language, whose name may be spelled in any case. -/
def ReadsAs (tag : String) (language : List Char) (locale : LanguageTag) : Prop :=
  parse? tag = some locale ∧ IsSameName locale.primary language

/-- Languages of tags are in lower case. -/
theorem isSameName_primary_iff {tag : String} {locale : LanguageTag}
    (read : parse? tag = some locale) (language : List Char) :
    IsSameName locale.primary language ↔ locale.primary = language.map Char.toLower := by
  rw [IsSameName, primary_of_parse? read, List.map_map]
  simp only [Function.comp_def, toLower_toLower]

theorem readsAs_iff_of_parse? {tag : String} {parsed locale : LanguageTag}
    (read : parse? tag = some parsed) (language : List Char) :
    ReadsAs tag language locale ↔ parsed = locale ∧ IsSameName parsed.primary language := by
  rw [ReadsAs, read, Option.some_inj]
  exact and_congr_right fun same => by rw [same]

theorem readsAs_congr {tag : String} {language other : List Char} (same : IsSameName language other)
    (locale : LanguageTag) : ReadsAs tag language locale ↔ ReadsAs tag other locale := by
  rw [ReadsAs, ReadsAs, IsSameName, same, IsSameName]

end LanguageTag

/-- The **last locale of a language** in a list of tags: it is what some tag reads as, and no tag
after that is one of the language. -/
def IsLastLocale (tags : List String) (language : List Char) (locale : LanguageTag) : Prop :=
  ∃ before tag after, tags = before ++ tag :: after ∧ LanguageTag.ReadsAs tag language locale ∧
    ∀ later ∈ after, ∀ other, ¬ LanguageTag.ReadsAs later language other

theorem isLastLocale_concat_iff {tags : List String} {last : String} {language : List Char}
    {locale : LanguageTag} :
    IsLastLocale (tags ++ [last]) language locale ↔
      LanguageTag.ReadsAs last language locale ∨
        (∀ other, ¬ LanguageTag.ReadsAs last language other) ∧ IsLastLocale tags language locale :=
  exists_last_concat_iff

theorem isLastLocale_congr {language other : List Char} (same : IsSameName language other)
    (tags : List String) (locale : LanguageTag) :
    IsLastLocale tags language locale ↔ IsLastLocale tags other locale := by
  simp only [IsLastLocale, LanguageTag.readsAs_congr same]

/-- A language has a last locale if some tag is one of it. -/
theorem exists_isLastLocale_iff {tags : List String} {language : List Char} :
    (∃ locale, IsLastLocale tags language locale) ↔
      ∃ tag ∈ tags, ∃ locale, LanguageTag.ReadsAs tag language locale := by
  constructor
  · rintro ⟨locale, before, tag, after, rfl, reads, -⟩
    exact ⟨tag, by simp, locale, reads⟩
  · rintro ⟨tag, mem, reads⟩
    obtain ⟨before, last, after, split, ⟨locale, readsLast⟩, none⟩ :=
      exists_last_of_mem (fun tag => ∃ locale, LanguageTag.ReadsAs tag language locale) mem reads
    exact ⟨locale, before, last, after, split, readsLast, fun later mem other reads =>
      none later mem ⟨other, reads⟩⟩

/-- The **first failure** of a list of tags is about the first one that cannot be read. -/
def IsFirstFailure (tags : List String) (error : LoadError) : Prop :=
  ∃ before tag after, tags = before ++ tag :: after ∧
    (LanguageTag.parse? tag = none ∧ error = .invalidLanguage tag) ∧
      ∀ earlier ∈ before, ∃ locale, LanguageTag.parse? earlier = some locale

theorem exists_isFirstFailure_iff {tags : List String} :
    (∃ error, IsFirstFailure tags error) ↔ ∃ tag ∈ tags, LanguageTag.parse? tag = none := by
  constructor
  · rintro ⟨error, before, tag, after, rfl, ⟨unreadable, -⟩, -⟩
    exact ⟨tag, by simp, unreadable⟩
  · rintro ⟨tag, mem, unreadable⟩
    obtain ⟨before, first, after, split, unreadable, readable⟩ :=
      exists_first_of_mem (LanguageTag.parse? · = none) mem unreadable
    exact ⟨.invalidLanguage first, before, first, after, split, ⟨unreadable, rfl⟩,
      fun earlier mem => Option.ne_none_iff_exists'.1 (readable earlier mem)⟩

namespace LocaleTable

variable {table filled : LocaleTable} {tags : List String} {error : LoadError}

/-! ## Making a table -/

theorem insertTags_eq_error_iff :
    table.insertTags tags = .error error ↔ IsFirstFailure tags error := by
  induction tags generalizing table with
  | nil => simp [insertTags, IsFirstFailure]
  | cons tag rest ih =>
    rw [IsFirstFailure, exists_first_cons_iff, ← IsFirstFailure, insertTags]
    cases read : LanguageTag.parse? tag with
    | none => simp [eq_comm]
    | some parsed => simp [ih]

/-- Tags that can all be read make a table. -/
theorem exists_insertTags_eq_ok
    (readable : ∀ tag ∈ tags, ∃ locale, LanguageTag.parse? tag = some locale) :
    ∃ filled, table.insertTags tags = .ok filled := by
  cases made : table.insertTags tags with
  | ok filled => exact ⟨filled, rfl⟩
  | error error =>
    obtain ⟨before, tag, after, rfl, ⟨unreadable, -⟩, -⟩ := insertTags_eq_error_iff.1 made
    obtain ⟨locale, read⟩ := readable tag (by simp)
    cases unreadable.symm.trans read

theorem exists_ofTags_eq_error_iff :
    (∃ error, ofTags tags = .error error) ↔ ∃ tag ∈ tags, LanguageTag.parse? tag = none := by
  rw [← exists_isFirstFailure_iff]
  exact exists_congr fun _ => insertTags_eq_error_iff

theorem insertTags_append (table : LocaleTable) (tags more : List String) :
    table.insertTags (tags ++ more) = (table.insertTags tags).bind (insertTags · more) := by
  induction tags generalizing table with
  | nil => rfl
  | cons tag rest ih =>
    rw [List.cons_append, insertTags, insertTags]
    cases LanguageTag.parse? tag with
    | none => rfl
    | some parsed => exact ih (table.insert parsed)

/-- A list of tags makes a table if those before its last one do, and this can be read. -/
theorem insertTags_concat_eq_ok_iff {last : String} :
    table.insertTags (tags ++ [last]) = .ok filled ↔
      ∃ sofar locale, table.insertTags tags = .ok sofar ∧ LanguageTag.parse? last = some locale ∧
        sofar.insert locale = filled := by
  rw [insertTags_append]
  cases table.insertTags tags with
  | error error => simp [Except.bind]
  | ok sofar =>
    cases read : LanguageTag.parse? last with
    | none => simp [Except.bind, insertTags, read]
    | some locale => simp [Except.bind, insertTags, read]

/-! ## Looking up -/

theorem primaryOf_eq (text : String) : primaryOf text = (front text).map Char.toLower := by
  simp [primaryOf, front, IsSeparator]

/-- One more tag answers the texts of its language, and leaves the others alone. -/
theorem get?_insert_of_parse? {tag : String} {locale : LanguageTag}
    (read : LanguageTag.parse? tag = some locale) (table : LocaleTable) (text : String) :
    (table.insert locale).get? text =
      if IsSameName locale.primary (front text) then some locale else table.get? text := by
  rw [get?, insert, Dict.get?_insert, primaryOf_eq, get?, primaryOf_eq]
  refine if_congr ?_ rfl rfl
  rw [LanguageTag.isSameName_primary_iff read, eq_comm]

/-- **A table answers by the last tag.** -/
theorem get?_ofTags_eq_some_iff (made : ofTags tags = .ok table) (text : String)
    (locale : LanguageTag) :
    table.get? text = some locale ↔ IsLastLocale tags (front text) locale := by
  induction tags using List.reverseRecOn generalizing table with
  | nil =>
    obtain rfl := Except.ok.inj made
    simp [IsLastLocale, empty, get?]
  | append_singleton tags last ih =>
    -- Later tags of a language replace earlier ones, so the end of the list is what tells.
    obtain ⟨sofar, parsed, before, read, rfl⟩ := insertTags_concat_eq_ok_iff.1 made
    rw [get?_insert_of_parse? read, isLastLocale_concat_iff, ← ih before]
    simp only [LanguageTag.readsAs_iff_of_parse? read]
    split
    · next same => simp [same]
    · next different => simp [different]

theorem get?_ofTags_eq_none_iff (made : ofTags tags = .ok table) (text : String) :
    table.get? text = none ↔
      ∀ tag ∈ tags, ∀ locale, ¬ LanguageTag.ReadsAs tag (front text) locale := by
  calc table.get? text = none
      ↔ ¬ ∃ locale, IsLastLocale tags (front text) locale := by
        simp only [Option.eq_none_iff_forall_ne_some, ne_eq, get?_ofTags_eq_some_iff made,
          not_exists]
    _ ↔ ∀ tag ∈ tags, ∀ locale, ¬ LanguageTag.ReadsAs tag (front text) locale := by
        simp only [exists_isLastLocale_iff, not_exists, not_and]

/-- However a tag is spelled, it is looked up by the language that it is read as. -/
theorem get?_ofTags_of_respells (made : ofTags tags = .ok table) {tag text : String}
    {locale : LanguageTag} (read : LanguageTag.parse? tag = some locale)
    (respelled : Respells text tag) (found : LanguageTag) :
    table.get? text = some found ↔ IsLastLocale tags locale.primary found := by
  have ofTag : IsSameName locale.primary (front tag) :=
    (LanguageTag.isSameName_primary_iff read _).2 (LanguageTag.primary_of_parse? read)
  have ofText : IsSameName (front text) locale.primary :=
    respelled.isSameName_front.trans ofTag.symm
  rw [get?_ofTags_eq_some_iff made, isLastLocale_congr ofText]

/-- **A table answers the tags of a list.** -/
structure AnswersTags (table : LocaleTable) (tags : List String) : Prop where
  /-- A text is answered by the last locale of the language that it begins with. -/
  answered : ∀ text locale,
    table.get? text = some locale ↔ IsLastLocale tags (front text) locale
  /-- It is not answered if no tag is one of this language. -/
  unanswered : ∀ text, table.get? text = none ↔
    ∀ tag ∈ tags, ∀ locale, ¬ LanguageTag.ReadsAs tag (front text) locale
  /-- A tag that can be read is answered by the last locale of the language that it was read as,
  however it is spelled. -/
  tagAnswered : ∀ tag locale, LanguageTag.parse? tag = some locale → ∀ text, Respells text tag →
    ∀ found, table.get? text = some found ↔ IsLastLocale tags locale.primary found
  /-- A tag of the list can be read, and is answered. -/
  listedAnswered : ∀ tag ∈ tags, ∃ locale, LanguageTag.parse? tag = some locale ∧
    ∀ text, Respells text tag → ∃ found, table.get? text = some found ∧
      IsLastLocale tags locale.primary found

/-- **Locale tables.**  Making a table fails if some tag cannot be read, and then about the first
such tag.  Otherwise the table answers the tags of the list. -/
theorem answersTags_ofTags (tags : List String) :
    ((∃ error, ofTags tags = .error error) ↔ ∃ tag ∈ tags, LanguageTag.parse? tag = none) ∧
      (∀ error, ofTags tags = .error error ↔ IsFirstFailure tags error) ∧
        ∀ table, ofTags tags = .ok table → table.AnswersTags tags := by
  refine ⟨exists_ofTags_eq_error_iff, fun _ => insertTags_eq_error_iff, fun table made =>
    ⟨get?_ofTags_eq_some_iff made, get?_ofTags_eq_none_iff made,
      fun tag locale read text respelled => get?_ofTags_of_respells made read respelled,
      fun tag mem => ?_⟩⟩
  have readable : LanguageTag.parse? tag ≠ none := by
    intro unreadable
    obtain ⟨error, failed⟩ := exists_ofTags_eq_error_iff.2 ⟨tag, mem, unreadable⟩
    cases failed.symm.trans made
  obtain ⟨locale, read⟩ := Option.ne_none_iff_exists'.1 readable
  obtain ⟨found, last⟩ := exists_isLastLocale_iff.2 ⟨tag, mem, locale, read, rfl⟩
  exact ⟨locale, read, fun text respelled =>
    ⟨found, (get?_ofTags_of_respells made read respelled found).2 last, last⟩⟩

theorem answersTags_ofTags_mixed :
    ∃ table, ofTags ["EN_us", "und-Latn", "en-GB"] = .ok table ∧
      table.AnswersTags ["EN_us", "und-Latn", "en-GB"] ∧
      table.get? "En_us" = LanguageTag.parse? "en-GB" ∧
      table.get? "UND_" = LanguageTag.parse? "und-Latn" :=
  ⟨_, rfl, (answersTags_ofTags _).2.2 _ rfl, rfl, rfl⟩

end LocaleTable

end Phrasebook
