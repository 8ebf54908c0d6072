import Mathlib.Data.List.Induction
import Phrasebook.Formatter
import Phrasebook.Proofs.History

/-!
# What a registry of formatters answers after any history

A history is a list of changes: formatters were registered, perhaps in the place of others, and
removed.  The formatter of a kind is told from the history alone: it is the one that was registered
last for exactly this kind, if none was removed since (`IsCurrent`).

A registry keeps two forms of each formatter, and nothing in its type says that they belong
together.  A registry could redirect values by one formatter and show another one to whoever asks.
No history leads there (`IsCoherent`), and that is what ties redirects to current formatters.

## Main statement

`answersByKind_ofHistory`: a registry answers for every kind by its current formatter, in both
forms.
-/

namespace Phrasebook

/-- A change of a registry of formatters. -/
inductive FormatterEdit where
  | register (kind : Kind) (formatter : Formatter kind)
  | unregister (kind : Kind)

namespace FormatterEdit

/-- The kind whose formatter is changed. -/
def kind : FormatterEdit → Kind
  | register kind _ => kind
  | unregister kind => kind

/-- What a change does to a registry. -/
def apply (formatters : Formatters) : FormatterEdit → Formatters
  | register kind formatter => formatters.register kind formatter
  | unregister kind => (formatters.unregister kind).2

end FormatterEdit

/-- The registry after a history, from one without formatters. -/
def Formatters.ofHistory (history : List FormatterEdit) : Formatters :=
  history.foldl FormatterEdit.apply Formatters.empty

/-- **The current formatter of a kind** after a history: it was registered for the kind, and no
change after that was about the kind. -/
def IsCurrent (history : List FormatterEdit) {kind : Kind} (formatter : Formatter kind) : Prop :=
  ∃ before edit after, history = before ++ edit :: after ∧ edit = .register kind formatter ∧
    ∀ later ∈ after, later.kind ≠ kind

theorem isCurrent_concat_iff {history : List FormatterEdit} {last : FormatterEdit} {kind : Kind}
    {formatter : Formatter kind} :
    IsCurrent (history ++ [last]) formatter ↔
      last = .register kind formatter ∨ last.kind ≠ kind ∧ IsCurrent history formatter :=
  exists_last_concat_iff

namespace Formatters

/-! ## One change -/

section

variable (formatters : Formatters) (edit : FormatterEdit)

/-- A change leaves the registrations of all other kinds alone. -/
theorem registrations_apply_of_ne {kind : Kind} (other : edit.kind ≠ kind) :
    (edit.apply formatters).registrations.get? kind = formatters.registrations.get? kind := by
  cases edit with
  | register changed formatter =>
    exact (Dict.get?_insert _ _ _ _).trans (if_neg (Ne.symm other))
  | unregister changed => exact (Dict.get?_erase _ _ _).trans (if_neg (Ne.symm other))

/-- After a change, a kind is registered for the new formatter, or it is as before and the change
was about another kind. -/
theorem registrations_apply_eq_some_iff {kind : Kind} {registration : Registration} :
    (edit.apply formatters).registrations.get? kind = some registration ↔
      (∃ formatter : Formatter kind, edit = .register kind formatter ∧
        registration = Registration.ofFormatter formatter) ∨
        edit.kind ≠ kind ∧ formatters.registrations.get? kind = some registration := by
  by_cases other : edit.kind ≠ kind
  · rw [registrations_apply_of_ne formatters edit other]
    refine ⟨fun held => Or.inr ⟨other, held⟩, ?_⟩
    rintro (⟨formatter, rfl, -⟩ | ⟨-, held⟩)
    · exact absurd rfl other
    · exact held
  · obtain rfl := not_not.1 other
    cases edit with
    | register changed formatter =>
      have held : ((FormatterEdit.register changed formatter).apply formatters).registrations.get?
          changed = some (Registration.ofFormatter formatter) := Dict.get?_insert_self _ _ _
      rw [FormatterEdit.kind, held]
      constructor
      · rintro ⟨⟩
        exact Or.inl ⟨formatter, rfl, rfl⟩
      · rintro (⟨_, ⟨⟩, rfl⟩ | ⟨different, -⟩)
        · rfl
        · exact absurd rfl different
    | unregister changed =>
      have missing : ((FormatterEdit.unregister changed).apply formatters).registrations.get?
          changed = none := (Dict.get?_erase _ _ _).trans (if_pos rfl)
      rw [FormatterEdit.kind, missing]
      refine iff_of_false (by simp) ?_
      rintro (⟨_, ⟨⟩, -⟩ | ⟨different, -⟩)
      exact different rfl

/-- A change does not redirect values of other kinds anew. -/
theorem redirect?_apply_of_ne {value : Value} (other : value.kind ≠ edit.kind)
    (parameter : Option String) :
    (edit.apply formatters).redirect? value parameter = formatters.redirect? value parameter := by
  rw [redirect?, redirect?, registrations_apply_of_ne formatters edit (Ne.symm other)]

end

/-! ## Both forms of a formatter -/

/-- A registry is **coherent** if it keeps, under every kind, both forms of one formatter of this
kind. -/
def IsCoherent (formatters : Formatters) : Prop :=
  ∀ kind registration, formatters.registrations.get? kind = some registration →
    ∃ formatter : Formatter kind, registration = Registration.ofFormatter formatter

variable {formatters : Formatters}

theorem isCoherent_empty : IsCoherent empty := by
  intro kind registration held
  cases held

theorem IsCoherent.apply (coherent : formatters.IsCoherent) (edit : FormatterEdit) :
    (edit.apply formatters).IsCoherent := by
  intro kind registration held
  rcases (registrations_apply_eq_some_iff formatters edit).1 held with
    ⟨formatter, -, rfl⟩ | ⟨-, held⟩
  · exact ⟨formatter, rfl⟩
  · exact coherent kind registration held

/-- Whoever asks a coherent registry for a formatter gets the one that is registered. -/
theorem IsCoherent.get?_eq_some_iff (coherent : formatters.IsCoherent) {kind : Kind}
    {formatter : Formatter kind} :
    formatters.get? kind = some formatter ↔
      formatters.registrations.get? kind = some (Registration.ofFormatter formatter) := by
  rw [get?, Option.bind_eq_some_iff]
  constructor
  · rintro ⟨registration, held, shown⟩
    obtain ⟨kept, rfl⟩ := coherent kind registration held
    rw [Registration.formatter?_ofFormatter] at shown
    cases shown
    exact held
  · intro held
    exact ⟨_, held, Registration.formatter?_ofFormatter formatter⟩

/-- A coherent registry redirects a value by the formatter that it shows for the kind. -/
theorem IsCoherent.redirect?_eq (coherent : formatters.IsCoherent) (value : Value)
    (parameter : Option String) :
    formatters.redirect? value parameter =
      (formatters.get? value.kind).map fun formatter => formatter value.datum parameter := by
  rw [redirect?, get?]
  cases held : formatters.registrations.get? value.kind with
  | none => rfl
  | some registration =>
    obtain ⟨formatter, rfl⟩ := coherent value.kind registration held
    simp [Formatter.redirect]

/-! ## Any history -/

theorem ofHistory_concat (history : List FormatterEdit) (last : FormatterEdit) :
    ofHistory (history ++ [last]) = last.apply (ofHistory history) := by
  rw [ofHistory, List.foldl_append]
  rfl

theorem isCoherent_ofHistory (history : List FormatterEdit) : (ofHistory history).IsCoherent := by
  induction history using List.reverseRecOn with
  | nil => exact isCoherent_empty
  | append_singleton history last ih =>
    rw [ofHistory_concat]
    exact ih.apply last

/-- What is registered after any history: under each kind, its current formatter. -/
theorem registrations_ofHistory_eq_some_iff (history : List FormatterEdit) {kind : Kind}
    {formatter : Formatter kind} :
    (ofHistory history).registrations.get? kind = some (Registration.ofFormatter formatter) ↔
      IsCurrent history formatter := by
  induction history using List.reverseRecOn with
  | nil =>
    refine iff_of_false (by simp [ofHistory, empty]) ?_
    rintro ⟨before, edit, after, split, -⟩
    simp at split
  | append_singleton history last ih =>
    rw [ofHistory_concat, registrations_apply_eq_some_iff, isCurrent_concat_iff, ih]
    refine or_congr_left ⟨?_, fun registers => ⟨formatter, registers, rfl⟩⟩
    rintro ⟨other, registers, same⟩
    have shown := congrArg (fun registration => registration.formatter? kind) same
    simp only [Registration.formatter?_ofFormatter, Option.some.injEq] at shown
    rw [registers, shown]

/-- **What a registry answers**, in terms of its history. -/
structure AnswersByKind (history : List FormatterEdit) (formatters : Formatters) : Prop where
  /-- Asked for the formatter of a kind, it answers the current one. -/
  shows : ∀ kind (formatter : Formatter kind),
    formatters.get? kind = some formatter ↔ IsCurrent history formatter
  /-- A value is redirected as the current formatter of exactly its kind says. -/
  redirects : ∀ value parameter key, formatters.redirect? value parameter = some key ↔
    ∃ formatter : Formatter value.kind, IsCurrent history formatter ∧
      formatter value.datum parameter = key
  /-- It is not redirected only if its kind has no current formatter. -/
  leaves : ∀ value parameter, formatters.redirect? value parameter = none ↔
    ∀ formatter : Formatter value.kind, ¬ IsCurrent history formatter
  /-- The formatter that is shown says the same as the redirect. -/
  agrees : ∀ value parameter, formatters.redirect? value parameter =
    (formatters.get? value.kind).map fun formatter => formatter value.datum parameter

/-- **A registry answers by kind**, after any registrations, replacements and removals. -/
theorem answersByKind_ofHistory (history : List FormatterEdit) :
    AnswersByKind history (ofHistory history) := by
  have coherent := isCoherent_ofHistory history
  have shows : ∀ kind (formatter : Formatter kind),
      (ofHistory history).get? kind = some formatter ↔ IsCurrent history formatter :=
    fun _ _ => coherent.get?_eq_some_iff.trans (registrations_ofHistory_eq_some_iff history)
  exact {
    shows
    redirects := by
      intro value parameter key
      rw [coherent.redirect?_eq, Option.map_eq_some_iff]
      simp only [shows]
    leaves := by
      intro value parameter
      rw [coherent.redirect?_eq, Option.map_eq_none_iff, Option.eq_none_iff_forall_ne_some]
      simp only [ne_eq, shows]
    agrees := coherent.redirect?_eq }

end Formatters

end Phrasebook
