/-!
# Sets of keys

A `KeySet` is a finite set of strings, kept as a strictly increasing list.  So two sets with the
same members are equal, and listing a set lists it in order.  Strings are ordered by their
characters, which is also the order of their UTF-8 bytes.

## Main definitions

- `KeySet.insert`, `KeySet.union` and `KeySet.ofList`.
- Membership is that of the list `KeySet.toList`.
-/

namespace Phrasebook

/-- Puts a key into its place in an increasing list, if it is not there. -/
def KeySet.insertIn (key : String) : List String → List String
  | [] => [key]
  | first :: rest =>
    if key < first then key :: first :: rest
    else if first < key then first :: KeySet.insertIn key rest
    else first :: rest

theorem KeySet.mem_insertIn (key k : String) :
    (keys : List String) → (k ∈ KeySet.insertIn key keys ↔ k = key ∨ k ∈ keys)
  | [] => by simp [KeySet.insertIn]
  | first :: rest => by
    have ih := KeySet.mem_insertIn key k rest
    by_cases below : key < first
    · simp [KeySet.insertIn, below]
    · by_cases above : first < key
      · rw [KeySet.insertIn, if_neg below, if_pos above, List.mem_cons, List.mem_cons, ih]
        constructor
        · rintro (h | h | h)
          · exact Or.inr (Or.inl h)
          · exact Or.inl h
          · exact Or.inr (Or.inr h)
        · rintro (h | h | h)
          · exact Or.inr (Or.inl h)
          · exact Or.inl h
          · exact Or.inr (Or.inr h)
      · have eq : key = first :=
          String.le_antisymm (String.not_lt.1 above) (String.not_lt.1 below)
        rw [KeySet.insertIn, if_neg below, if_neg above, List.mem_cons, eq]
        constructor
        · exact Or.inr
        · rintro (h | h)
          · exact Or.inl h
          · exact h

theorem KeySet.pairwise_insertIn (key : String) :
    (keys : List String) → keys.Pairwise (· < ·) → (KeySet.insertIn key keys).Pairwise (· < ·)
  | [], _ => by simp [KeySet.insertIn]
  | first :: rest, sorted => by
    rw [List.pairwise_cons] at sorted
    by_cases below : key < first
    · rw [KeySet.insertIn, if_pos below, List.pairwise_cons, List.pairwise_cons]
      refine ⟨fun k mem => ?_, sorted⟩
      rcases List.mem_cons.1 mem with eq | mem
      · exact eq ▸ below
      · exact String.lt_trans below (sorted.1 k mem)
    · by_cases above : first < key
      · rw [KeySet.insertIn, if_neg below, if_pos above, List.pairwise_cons]
        refine ⟨fun k mem => ?_, KeySet.pairwise_insertIn key rest sorted.2⟩
        rcases (KeySet.mem_insertIn key k rest).1 mem with eq | mem
        · exact eq ▸ above
        · exact sorted.1 k mem
      · rw [KeySet.insertIn, if_neg below, if_neg above, List.pairwise_cons]
        exact sorted

/-- A finite set of strings. -/
structure KeySet where
  toList : List String
  sorted : toList.Pairwise (· < ·)

namespace KeySet

instance : Membership String KeySet := ⟨fun set key => key ∈ set.toList⟩

instance (key : String) (set : KeySet) : Decidable (key ∈ set) :=
  inferInstanceAs (Decidable (key ∈ set.toList))

/-- The set without members. -/
def empty : KeySet := ⟨[], List.Pairwise.nil⟩

instance : Inhabited KeySet := ⟨empty⟩

/-- Adds a key. -/
def insert (set : KeySet) (key : String) : KeySet :=
  ⟨insertIn key set.toList, pairwise_insertIn key set.toList set.sorted⟩

/-- Adds the keys of a list. -/
def insertAll (set : KeySet) (keys : List String) : KeySet := keys.foldl insert set

/-- The set of the keys of a list. -/
def ofList (keys : List String) : KeySet := empty.insertAll keys

@[simp]
theorem not_mem_empty (key : String) : ¬ key ∈ empty := List.not_mem_nil

@[simp]
theorem mem_insert {set : KeySet} {key k : String} : k ∈ set.insert key ↔ k = key ∨ k ∈ set :=
  mem_insertIn key k set.toList

@[simp]
theorem mem_insertAll {set : KeySet} {keys : List String} {k : String} :
    k ∈ set.insertAll keys ↔ k ∈ keys ∨ k ∈ set := by
  induction keys generalizing set with
  | nil => simp [insertAll]
  | cons key rest ih =>
    have step : set.insertAll (key :: rest) = (set.insert key).insertAll rest := rfl
    rw [step, ih, mem_insert, List.mem_cons]
    constructor
    · rintro (h | h | h)
      · exact Or.inl (Or.inr h)
      · exact Or.inl (Or.inl h)
      · exact Or.inr h
    · rintro ((h | h) | h)
      · exact Or.inr (Or.inl h)
      · exact Or.inl h
      · exact Or.inr (Or.inr h)

@[simp]
theorem mem_ofList {keys : List String} {k : String} : k ∈ ofList keys ↔ k ∈ keys := by
  simp [ofList]

end KeySet

end Phrasebook
