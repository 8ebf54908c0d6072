import Mathlib.Data.List.Basic
import Phrasebook.Document.Record

/-!
# Records that were written

A writer puts the fields of a record into a table, in order, and leaves out those that are nothing.
A reader gets them back by name.  This module says what the reader finds, for the ways in which
fields are written.

## Main definitions

- `Undoes`: a reader gives back every value that was written.

## Main statements

- `record?_of_eq_table`: in a table of different fields of a record, all of them are found.
- `optional_eq_some` and `optional_eq_of_fieldOf`: a field that was written is read back, and so is
  nothing, where leaving a field out means nothing.
-/

namespace Phrasebook.Document

variable {α : Type}

/-- A reader **undoes** a writer if it gives back whatever was written. -/
def Undoes (read : Document → Option α) (write : α → Document) : Prop :=
  ∀ value, read (write value) = some value

/-! ## Values -/

theorem undoes_text : Undoes asText? .text := fun _ => rfl

theorem undoes_boolean : Undoes asBoolean? .boolean := fun _ => rfl

/-- Every number of 64 bits is read back, large ones included. -/
theorem undoes_word : Undoes asWord? fun word => .integer (Int.ofNat word.toNat) := by
  intro word
  have small : (Int.ofNat word.toNat) < 0x10000000000000000 :=
    Int.ofNat_lt.2 word.toNat_lt
  rw [asWord?, if_pos ⟨Int.natCast_nonneg _, small⟩]
  simp

theorem Undoes.list {read : Document → Option α} {write : α → Document}
    (undoes : Undoes read write) : Undoes (asList? read) fun items => .list (items.map write) := by
  intro items
  induction items with
  | nil => rfl
  | cons item rest ih =>
    rw [asList?] at ih ⊢
    rw [List.map_cons, List.mapM_cons, undoes item, ih]
    rfl

/-- A choice is read back by its name. -/
theorem undoes_choice {ofName? : String → Option α} {name : α → String}
    (named : ∀ choice, ofName? (name choice) = some choice) (dialect : Dialect) :
    Undoes (fun document => (document.choice? dialect).bind ofName?) fun choice =>
      .text (name choice) :=
  named

/-! ## Fields -/

variable {name : String} {fields : List (String × Document)} {record : Dict String Document}
  {read : Document → Option α} {write : α → Document}

/-- The fields of a record are found in a table of them. -/
theorem record?_of_eq_table {names : List String} {document : Document} (dialect : Dialect)
    (written : document = .table fields) (known : (fields.map Prod.fst).Sublist names)
    (distinct : names.Nodup) :
    ∃ record, document.record? dialect names = some record ∧
      ∀ name, record.get? name = Dict.lookup name fields := by
  subst written
  have apart : (fields.map Prod.fst).Nodup := distinct.sublist known
  have all : fields.filter (fun field => decide (field.1 ∈ names)) = fields :=
    List.filter_eq_self.2 fun field mem =>
      decide_eq_true (known.subset (List.mem_map_of_mem mem))
  refine ⟨Dict.ofList fields, ?_, fun name => ?_⟩
  · simp only [record?, all, if_pos apart]
  · rw [Dict.get?_ofList, ← Dict.lookup_eq_of_perm fields.reverse_perm.symm apart]

theorem lookup_fieldOf (other name : String) (write : α → Document) (value : Option α) :
    Dict.lookup other (fieldOf name write value) =
      if name = other then value.map write else none := by
  cases value <;> simp [fieldOf, Dict.lookup]

theorem map_fst_fieldOf_sublist (name : String) (write : α → Document) (value : Option α) :
    ((fieldOf name write value).map Prod.fst).Sublist [name] := by
  cases value with
  | none => exact List.nil_sublist _
  | some value => exact List.Sublist.refl _

theorem optional_eq_some (undoes : Undoes read write) {standard value : α}
    (written : record.get? name = some (write value)) :
    optional record name standard read = some value := by
  rw [optional, written]
  exact undoes value

theorem required_eq_some (undoes : Undoes read write) {value : α}
    (written : record.get? name = some (write value)) :
    required record name read = some value := by
  rw [required, written]
  exact undoes value

/-- Where leaving a field out means nothing, nothing is read back as well. -/
theorem optional_eq_of_fieldOf (undoes : Undoes read write)
    (something : ∀ value, write value ≠ .null) {value : Option α}
    (written : record.get? name = value.map write) :
    optional record name none (asOptional? read) = some value := by
  rw [optional, written]
  cases value with
  | none => rfl
  | some value =>
    show asOptional? read (write value) = some (some value)
    rw [asOptional?, undoes value]
    · rfl
    · exact something value

end Phrasebook.Document
