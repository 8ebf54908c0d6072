import Mathlib.Data.List.Induction

/-!
# Histories

A history is the list of what has happened, in order.  What a thing is after its history is told by
where operations stand in it among the others.  The last operation of a sort is found by induction
on the end of the history, the first one by induction on its beginning: this module says what one
more operation changes on either side.

## Main statements

- `exists_last_concat_iff`: the last operation of a sort that none after it has undone is the new
  one, or it is the same as before, unless the new one undoes it.
- `exists_first_cons_iff`: the first operation of a sort with only skipped ones before it is the one
  in front, or it is the first of the others, if the one in front is skipped.
-/

namespace Phrasebook

variable {α : Type} {history before after : List α} {first last operation : α}

/-- An operation of a longer history is its last one, or one of the history before. -/
theorem concat_eq_append_cons_iff :
    history ++ [last] = before ++ operation :: after ↔
      (after = [] ∧ before = history ∧ operation = last) ∨
        ∃ shorter, after = shorter ++ [last] ∧ history = before ++ operation :: shorter := by
  constructor
  · intro split
    rcases List.eq_nil_or_concat after with rfl | ⟨shorter, end_, rfl⟩
    · obtain ⟨rfl, eq⟩ := List.append_inj' split rfl
      exact Or.inl ⟨rfl, rfl, (List.singleton_inj.1 eq).symm⟩
    · rw [List.concat_eq_append, ← List.cons_append, ← List.append_assoc] at split
      obtain ⟨rfl, eq⟩ := List.append_inj' split rfl
      obtain rfl := List.singleton_inj.1 eq
      exact Or.inr ⟨shorter, List.concat_eq_append, rfl⟩
  · rintro (⟨rfl, rfl, rfl⟩ | ⟨shorter, rfl, rfl⟩)
    · rfl
    · rw [List.append_assoc, List.cons_append]

/-- **The last operation of a sort.**  Some operation is `made`, and all after it have `kept` it. -/
theorem exists_last_concat_iff {made kept : α → Prop} :
    (∃ before operation after, history ++ [last] = before ++ operation :: after ∧
        made operation ∧ ∀ later ∈ after, kept later) ↔
      made last ∨ kept last ∧
        ∃ before operation after, history = before ++ operation :: after ∧
          made operation ∧ ∀ later ∈ after, kept later := by
  constructor
  · rintro ⟨before, operation, after, split, isMade, allKept⟩
    rcases concat_eq_append_cons_iff.1 split with ⟨rfl, rfl, rfl⟩ | ⟨shorter, rfl, rfl⟩
    · exact Or.inl isMade
    · obtain ⟨keptSoFar, keptLast⟩ := List.forall_mem_append.1 allKept
      exact Or.inr ⟨keptLast last List.mem_cons_self, before, operation, shorter, rfl, isMade,
        keptSoFar⟩
  · rintro (isMade | ⟨keptLast, before, operation, after, rfl, isMade, allKept⟩)
    · exact ⟨history, last, [], rfl, isMade, by simp⟩
    · refine ⟨before, operation, after ++ [last], by simp, isMade, ?_⟩
      exact List.forall_mem_append.2 ⟨allKept, List.forall_mem_singleton.2 keptLast⟩

/-- Of the operations of a sort there is a last one. -/
theorem exists_last_of_mem (made : α → Prop) (mem : operation ∈ history)
    (isMade : made operation) :
    ∃ before last after, history = before ++ last :: after ∧ made last ∧
      ∀ later ∈ after, ¬ made later := by
  induction history using List.reverseRecOn with
  | nil => cases mem
  | append_singleton history last ih =>
    refine exists_last_concat_iff.2 ?_
    by_cases here : made last
    · exact Or.inl here
    · rcases List.mem_append.1 mem with mem | mem
      · exact Or.inr ⟨here, ih mem⟩
      · exact absurd (List.mem_singleton.1 mem ▸ isMade) here

/-- **The first operation of a sort.**  Some operation is `made`, and all before it are
`skipped`. -/
theorem exists_first_cons_iff {made skipped : α → Prop} :
    (∃ before operation after, first :: history = before ++ operation :: after ∧
        made operation ∧ ∀ earlier ∈ before, skipped earlier) ↔
      made first ∨ skipped first ∧
        ∃ before operation after, history = before ++ operation :: after ∧
          made operation ∧ ∀ earlier ∈ before, skipped earlier := by
  constructor
  · rintro ⟨before, operation, after, split, isMade, allSkipped⟩
    rcases List.cons_eq_append_iff.1 split with ⟨rfl, same⟩ | ⟨others, rfl, rfl⟩
    · obtain ⟨rfl, -⟩ := List.cons.inj same
      exact Or.inl isMade
    · obtain ⟨here, onward⟩ := List.forall_mem_cons.1 allSkipped
      exact Or.inr ⟨here, others, operation, after, rfl, isMade, onward⟩
  · rintro (isMade | ⟨here, before, operation, after, rfl, isMade, onward⟩)
    · exact ⟨[], first, history, rfl, isMade, by simp⟩
    · exact ⟨first :: before, operation, after, rfl, isMade, List.forall_mem_cons.2 ⟨here, onward⟩⟩

/-- Of the operations of a sort there is a first one. -/
theorem exists_first_of_mem (made : α → Prop) (mem : operation ∈ history)
    (isMade : made operation) :
    ∃ before first after, history = before ++ first :: after ∧ made first ∧
      ∀ earlier ∈ before, ¬ made earlier := by
  induction history with
  | nil => cases mem
  | cons first rest ih =>
    refine exists_first_cons_iff.2 ?_
    by_cases here : made first
    · exact Or.inl here
    · have ne : operation ≠ first := fun same => here (same ▸ isMade)
      exact Or.inr ⟨here, ih (List.mem_of_ne_of_mem ne mem)⟩

end Phrasebook
