import Mathlib.Data.List.DropRight
import Phrasebook.Text.Blank

/-!
# Texts without white space at their ends

## Main statement

`strip_eq_iff`: what is left of a text is the part of it that neither begins nor ends with white
space and has nothing but white space around it.
-/

namespace Phrasebook.Text

/-- A text **comes down to its core** if there is nothing but white space around the core, which
does not begin or end with white space itself. -/
structure ComesDownTo (text core : List Char) : Prop where
  surrounded : ∃ before after, text = before ++ (core ++ after) ∧
    (∀ c ∈ before, isBlank c) ∧ ∀ c ∈ after, isBlank c
  head : ∀ c ∈ core.head?, isBlank c = false
  last : ∀ c ∈ core.getLast?, isBlank c = false

/-- Of a blank beginning and a text that does not begin with a blank, the beginning is dropped. -/
theorem dropWhile_append {before text : List Char} (blank : ∀ c ∈ before, isBlank c)
    (head : ∀ c ∈ text.head?, isBlank c = false) : (before ++ text).dropWhile isBlank = text := by
  rw [List.dropWhile_append_of_pos blank]
  cases text with
  | nil => rfl
  | cons c rest => exact List.dropWhile_cons_of_neg (by simp [head c rfl])

theorem head?_dropWhile (text : List Char) :
    ∀ c ∈ (text.dropWhile isBlank).head?, isBlank c = false := by
  intro c mem
  have notBlank := List.head?_dropWhile_not isBlank text
  rw [Option.mem_def.1 mem] at notBlank
  exact notBlank

theorem comesDownTo_strip (text : List Char) : ComesDownTo text (strip text) := by
  have back : text.dropWhile isBlank =
      strip text ++ (text.dropWhile isBlank).rtakeWhile isBlank :=
    List.rdropWhile_append_rtakeWhile.symm
  refine ⟨⟨text.takeWhile isBlank, (text.dropWhile isBlank).rtakeWhile isBlank, ?_,
    fun c mem => List.mem_takeWhile_imp mem, fun c mem => List.mem_rtakeWhile_imp mem⟩, ?_, ?_⟩
  · rw [← back, List.takeWhile_append_dropWhile]
  · intro c mem
    refine head?_dropWhile text c ?_
    rw [back, List.head?_append, Option.mem_def.1 mem]
    rfl
  · rw [strip, List.getLast?_reverse]
    exact head?_dropWhile _

/-- **What is left of a text** is the core that it comes down to. -/
theorem strip_eq_iff {text core : List Char} : strip text = core ↔ ComesDownTo text core := by
  refine ⟨fun same => same ▸ comesDownTo_strip text, ?_⟩
  rintro ⟨⟨before, after, rfl, blankBefore, blankAfter⟩, head, last⟩
  cases core with
  | nil =>
    have blank : ∀ c ∈ before ++ after, isBlank c :=
      List.forall_mem_append.2 ⟨blankBefore, blankAfter⟩
    rw [strip, List.nil_append, ← List.append_nil (before ++ after),
      dropWhile_append blank (by simp)]
    rfl
  | cons first rest =>
    have back : ∀ c ∈ (first :: rest).reverse.head?, isBlank c = false := fun c mem =>
      last c (List.head?_reverse ▸ mem)
    rw [strip, dropWhile_append blankBefore (by simpa using head), List.reverse_append,
      dropWhile_append (by simpa using blankAfter) back, List.reverse_reverse]

end Phrasebook.Text
