/-!
# Finite dictionaries

A `Dict` binds finitely many keys to values and remembers the order in which the keys were first
bound.  Rebinding a key keeps its place.  That no key is bound twice is part of the type, so every
operation below proves it once and no user of a dictionary has to.

## Main definitions

- `Dict.get?` is the view through which a dictionary is read.
- `Dict.insert` binds a key, `Dict.erase` and `Dict.eraseAll` unbind keys, `Dict.mapValues` changes
  the values in place.
- `Dict.ofList` binds the pairs of a list in turn, so the last pair of a key wins.

Each operation has one equation that says what it does to `get?`.
-/

namespace Phrasebook

/-- The value bound to `key` in a list of bindings: that of the first binding of `key`. -/
def Dict.lookup {κ ν : Type} [DecidableEq κ] (key : κ) : List (κ × ν) → Option ν
  | [] => none
  | (bound, value) :: rest => if bound = key then some value else Dict.lookup key rest

/-- Replaces the value of `key` where it is bound, or appends a binding. -/
def Dict.bindIn {κ ν : Type} [DecidableEq κ] (key : κ) (value : ν) : List (κ × ν) → List (κ × ν)
  | [] => [(key, value)]
  | (bound, old) :: rest =>
    if bound = key then (bound, value) :: rest else (bound, old) :: Dict.bindIn key value rest

theorem Dict.mem_keys_bindIn {κ ν : Type} [DecidableEq κ] (key : κ) (value : ν) (k : κ) :
    (entries : List (κ × ν)) →
      (k ∈ (Dict.bindIn key value entries).map Prod.fst ↔ k = key ∨ k ∈ entries.map Prod.fst)
  | [] => by simp [Dict.bindIn]
  | (bound, old) :: rest => by
    by_cases h : bound = key
    · subst h
      simp [Dict.bindIn]
    · have ih := Dict.mem_keys_bindIn key value k rest
      rw [Dict.bindIn, if_neg h, List.map_cons, List.map_cons, List.mem_cons, List.mem_cons, ih]
      constructor
      · rintro (h | h | h)
        · exact Or.inr (Or.inl h)
        · exact Or.inl h
        · exact Or.inr (Or.inr h)
      · rintro (h | h | h)
        · exact Or.inr (Or.inl h)
        · exact Or.inl h
        · exact Or.inr (Or.inr h)

theorem Dict.nodup_keys_bindIn {κ ν : Type} [DecidableEq κ] (key : κ) (value : ν) :
    (entries : List (κ × ν)) → (entries.map Prod.fst).Nodup →
      ((Dict.bindIn key value entries).map Prod.fst).Nodup
  | [], _ => by simp [Dict.bindIn]
  | (bound, old) :: rest, nodup => by
    rw [List.map_cons, List.nodup_cons] at nodup
    by_cases h : bound = key
    · rw [Dict.bindIn, if_pos h, List.map_cons, List.nodup_cons]
      exact nodup
    · rw [Dict.bindIn, if_neg h, List.map_cons, List.nodup_cons]
      refine ⟨fun mem => ?_, Dict.nodup_keys_bindIn key value rest nodup.2⟩
      rcases (Dict.mem_keys_bindIn key value bound rest).1 mem with eq | mem
      · exact h eq
      · exact nodup.1 mem

theorem Dict.keys_bindIn {κ ν : Type} [DecidableEq κ] (key : κ) (value : ν) :
    (entries : List (κ × ν)) → (Dict.bindIn key value entries).map Prod.fst =
      if key ∈ entries.map Prod.fst then entries.map Prod.fst
      else entries.map Prod.fst ++ [key]
  | [] => rfl
  | (bound, old) :: rest => by
    have ih := Dict.keys_bindIn key value rest
    by_cases here : bound = key
    · simp [Dict.bindIn, here]
    · rw [Dict.bindIn, if_neg here, List.map_cons, List.map_cons, ih]
      by_cases later : key ∈ rest.map Prod.fst
      · rw [if_pos later, if_pos (List.mem_cons_of_mem _ later)]
      · have absent : key ∉ bound :: rest.map Prod.fst := by
          rw [List.mem_cons]
          rintro (same | mem)
          · exact here same.symm
          · exact later mem
        rw [if_neg later, if_neg absent, List.cons_append]

theorem Dict.lookup_bindIn {κ ν : Type} [DecidableEq κ] (key : κ) (value : ν) (k : κ) :
    (entries : List (κ × ν)) →
      Dict.lookup k (Dict.bindIn key value entries) =
        if k = key then some value else Dict.lookup k entries
  | [] => by
    by_cases h : k = key
    · simp [Dict.bindIn, Dict.lookup, h]
    · simp [Dict.bindIn, Dict.lookup, h, Ne.symm h]
  | (bound, old) :: rest => by
    have ih := Dict.lookup_bindIn key value k rest
    by_cases h : bound = key
    · subst h
      by_cases hk : k = bound
      · simp [Dict.bindIn, Dict.lookup, hk]
      · simp [Dict.bindIn, Dict.lookup, hk, Ne.symm hk]
    · by_cases hb : bound = k
      · subst hb
        simp [Dict.bindIn, Dict.lookup, h]
      · simp [Dict.bindIn, Dict.lookup, h, hb, ih]

theorem Dict.lookup_eq_none_iff {κ ν : Type} [DecidableEq κ] (k : κ) :
    (entries : List (κ × ν)) → (Dict.lookup k entries = none ↔ k ∉ entries.map Prod.fst)
  | [] => by simp [Dict.lookup]
  | (bound, value) :: rest => by
    have ih := Dict.lookup_eq_none_iff k rest
    by_cases h : bound = k
    · simp [Dict.lookup, h]
    · rw [Dict.lookup, if_neg h, List.map_cons, List.mem_cons, ih]
      constructor
      · rintro notMem (eq | mem)
        · exact h eq.symm
        · exact notMem mem
      · exact fun notMem mem => notMem (Or.inr mem)

theorem Dict.lookup_filter {κ ν : Type} [DecidableEq κ] (keep : κ → Bool) (k : κ) :
    (entries : List (κ × ν)) →
      Dict.lookup k (entries.filter (fun entry => keep entry.1)) =
        if keep k then Dict.lookup k entries else none
  | [] => by simp [Dict.lookup]
  | (bound, value) :: rest => by
    have ih := Dict.lookup_filter keep k rest
    by_cases hb : bound = k
    · subst hb
      cases hk : keep bound
      · rw [List.filter_cons_of_neg (by simp [hk]), ih]
        simp [hk]
      · rw [List.filter_cons_of_pos (by simp [hk])]
        simp [Dict.lookup]
    · cases hk : keep bound
      · rw [List.filter_cons_of_neg (by simp [hk]), ih, Dict.lookup, if_neg hb]
      · rw [List.filter_cons_of_pos (by simp [hk]), Dict.lookup, if_neg hb, ih, Dict.lookup,
          if_neg hb]

theorem Dict.lookup_map {κ ν μ : Type} [DecidableEq κ] (f : ν → μ) (k : κ) :
    (entries : List (κ × ν)) →
      Dict.lookup k (entries.map (fun entry => (entry.1, f entry.2))) =
        (Dict.lookup k entries).map f
  | [] => rfl
  | (bound, value) :: rest => by
    have ih := Dict.lookup_map f k rest
    by_cases h : bound = k
    · simp [Dict.lookup, h]
    · rw [List.map_cons, Dict.lookup, if_neg h, ih, Dict.lookup, if_neg h]

theorem Dict.lookup_append {κ ν : Type} [DecidableEq κ] (k : κ) (later : List (κ × ν)) :
    (entries : List (κ × ν)) →
      Dict.lookup k (entries ++ later) = (Dict.lookup k entries).or (Dict.lookup k later)
  | [] => rfl
  | (bound, value) :: rest => by
    have ih := Dict.lookup_append k later rest
    by_cases h : bound = k
    · simp [Dict.lookup, h]
    · rw [List.cons_append, Dict.lookup, if_neg h, ih, Dict.lookup, if_neg h]

theorem Dict.mem_of_lookup {κ ν : Type} [DecidableEq κ] {key : κ} {value : ν} :
    {entries : List (κ × ν)} → Dict.lookup key entries = some value → (key, value) ∈ entries
  | (bound, first) :: rest, found => by
    rw [Dict.lookup] at found
    split at found
    · rename_i same
      cases found
      rw [← same]
      exact List.mem_cons_self
    · exact List.mem_cons_of_mem _ (Dict.mem_of_lookup found)

theorem Dict.mem_values_of_lookup {κ ν : Type} [DecidableEq κ] {key : κ} {value : ν}
    {entries : List (κ × ν)} (found : Dict.lookup key entries = some value) :
    value ∈ entries.map Prod.snd :=
  List.mem_map_of_mem (Dict.mem_of_lookup found)

/-- Binding a key commutes with a change of the values that keeps the keys. -/
theorem Dict.bindIn_map {κ ν μ : Type} [DecidableEq κ] (f : κ → ν → μ) (key : κ) (value : ν) :
    (entries : List (κ × ν)) →
      Dict.bindIn key (f key value) (entries.map fun entry => (entry.1, f entry.1 entry.2)) =
        (Dict.bindIn key value entries).map fun entry => (entry.1, f entry.1 entry.2)
  | [] => rfl
  | (bound, old) :: rest => by
    have ih := Dict.bindIn_map f key value rest
    by_cases h : bound = key
    · simp [Dict.bindIn, h]
    · rw [List.map_cons, Dict.bindIn, if_neg h, ih, Dict.bindIn, if_neg h, List.map_cons]

theorem Dict.lookup_of_mem {κ ν : Type} [DecidableEq κ] {key : κ} {value : ν} :
    {entries : List (κ × ν)} → (entries.map Prod.fst).Nodup → (key, value) ∈ entries →
      Dict.lookup key entries = some value
  | (bound, first) :: rest, nodup, mem => by
    rw [List.map_cons, List.nodup_cons] at nodup
    rcases List.mem_cons.1 mem with eq | mem
    · cases eq
      rw [Dict.lookup, if_pos rfl]
    · have other : bound ≠ key := fun eq =>
        nodup.1 (eq ▸ List.mem_map.2 ⟨(key, value), mem, rfl⟩)
      rw [Dict.lookup, if_neg other, Dict.lookup_of_mem nodup.2 mem]

/-- Where no key is bound twice, the order of the bindings does not matter. -/
theorem Dict.lookup_eq_of_perm {κ ν : Type} [DecidableEq κ] {entries others : List (κ × ν)}
    (perm : entries.Perm others) (nodup : (entries.map Prod.fst).Nodup) (key : κ) :
    Dict.lookup key entries = Dict.lookup key others := by
  have sameKeys := perm.map Prod.fst
  cases found : Dict.lookup key entries with
  | none =>
    refine ((Dict.lookup_eq_none_iff key others).2 fun mem => ?_).symm
    exact (Dict.lookup_eq_none_iff key entries).1 found (sameKeys.mem_iff.2 mem)
  | some value =>
    exact (Dict.lookup_of_mem (sameKeys.nodup_iff.1 nodup)
      (perm.mem_iff.1 (Dict.mem_of_lookup found))).symm

/-- Finitely many bindings of keys to values, in the order in which the keys were first bound. -/
structure Dict (κ ν : Type) where
  entries : List (κ × ν)
  nodup : (entries.map Prod.fst).Nodup

namespace Dict

variable {κ ν μ : Type}

/-- Two dictionaries with the same bindings in the same order are equal. -/
theorem eq_of_entries {d e : Dict κ ν} (h : d.entries = e.entries) : d = e := by
  cases d
  cases e
  cases h
  rfl

instance [DecidableEq κ] [DecidableEq ν] : DecidableEq (Dict κ ν) := fun d e =>
  if h : d.entries = e.entries then isTrue (eq_of_entries h) else isFalse (fun eq => h (eq ▸ rfl))

/-- The dictionary that binds nothing. -/
def empty : Dict κ ν := ⟨[], List.nodup_nil⟩

instance : Inhabited (Dict κ ν) := ⟨empty⟩

/-- The keys, in the order in which they were first bound. -/
def keys (d : Dict κ ν) : List κ := d.entries.map Prod.fst

/-- The values, in the order of their keys. -/
def values (d : Dict κ ν) : List ν := d.entries.map Prod.snd

/-- The number of keys. -/
def size (d : Dict κ ν) : Nat := d.entries.length

/-- Whether nothing is bound. -/
def isEmpty (d : Dict κ ν) : Bool := d.entries.isEmpty

theorem nodup_keys (d : Dict κ ν) : d.keys.Nodup := d.nodup

theorem length_keys (d : Dict κ ν) : d.keys.length = d.size := List.length_map _

/-- The same keys in the same order, with `f` applied to every value. -/
def mapValues (f : ν → μ) (d : Dict κ ν) : Dict κ μ where
  entries := d.entries.map (fun entry => (entry.1, f entry.2))
  nodup := by
    rw [List.map_map]
    exact d.nodup

/-- Keeps the bindings whose key passes the test. -/
def filterKeys (keep : κ → Bool) (d : Dict κ ν) : Dict κ ν where
  entries := d.entries.filter (fun entry => keep entry.1)
  nodup := (List.filter_sublist.map Prod.fst).nodup d.nodup

variable [DecidableEq κ]

/-- The value bound to a key. -/
def get? (d : Dict κ ν) (key : κ) : Option ν := lookup key d.entries

/-- Whether a key is bound. -/
def contains (d : Dict κ ν) (key : κ) : Bool := (d.get? key).isSome

/-- Binds `key` to `value`.  A key that was bound keeps its place. -/
def insert (d : Dict κ ν) (key : κ) (value : ν) : Dict κ ν where
  entries := bindIn key value d.entries
  nodup := nodup_keys_bindIn key value d.entries d.nodup

/-- Unbinds a key. -/
def erase (d : Dict κ ν) (key : κ) : Dict κ ν := d.filterKeys (fun k => decide (k ≠ key))

/-- Unbinds every key of a list. -/
def eraseAll (d : Dict κ ν) (keys : List κ) : Dict κ ν :=
  d.filterKeys (fun k => decide (k ∉ keys))

/-- Binds the pairs of a list in turn. -/
def insertAll (d : Dict κ ν) (pairs : List (κ × ν)) : Dict κ ν :=
  pairs.foldl (fun d pair => d.insert pair.1 pair.2) d

/-- The dictionary that binds the pairs of a list in turn: the last pair of a key wins, and its
first pair gives it its place. -/
def ofList (pairs : List (κ × ν)) : Dict κ ν := empty.insertAll pairs

@[simp]
theorem get?_empty (k : κ) : (empty : Dict κ ν).get? k = none := rfl

theorem get?_insert (d : Dict κ ν) (key : κ) (value : ν) (k : κ) :
    (d.insert key value).get? k = if k = key then some value else d.get? k :=
  lookup_bindIn key value k d.entries

/-- A key that is bound keeps its place, and any other comes last. -/
theorem keys_insert (d : Dict κ ν) (key : κ) (value : ν) :
    (d.insert key value).keys = if key ∈ d.keys then d.keys else d.keys ++ [key] :=
  keys_bindIn key value d.entries

@[simp]
theorem get?_insert_self (d : Dict κ ν) (key : κ) (value : ν) :
    (d.insert key value).get? key = some value := by
  rw [get?_insert, if_pos rfl]

theorem get?_filterKeys (d : Dict κ ν) (keep : κ → Bool) (k : κ) :
    (d.filterKeys keep).get? k = if keep k then d.get? k else none :=
  lookup_filter keep k d.entries

theorem get?_erase (d : Dict κ ν) (key k : κ) :
    (d.erase key).get? k = if k = key then none else d.get? k := by
  rw [erase, get?_filterKeys]
  by_cases h : k = key <;> simp [h]

theorem get?_eraseAll (d : Dict κ ν) (keys : List κ) (k : κ) :
    (d.eraseAll keys).get? k = if k ∈ keys then none else d.get? k := by
  rw [eraseAll, get?_filterKeys]
  by_cases h : k ∈ keys <;> simp [h]

/-- Binding pairs with different keys in turn: what they bind wins over what was bound. -/
theorem get?_insertAll (k : κ) :
    (pairs : List (κ × ν)) → (pairs.map Prod.fst).Nodup → (d : Dict κ ν) →
      (d.insertAll pairs).get? k = (lookup k pairs).or (d.get? k)
  | [], _, d => by simp [insertAll, lookup]
  | (bound, value) :: rest, nodup, d => by
    rw [List.map_cons, List.nodup_cons] at nodup
    have step : d.insertAll ((bound, value) :: rest) = (d.insert bound value).insertAll rest := rfl
    rw [step, get?_insertAll k rest nodup.2, get?_insert, lookup]
    by_cases h : k = bound
    · subst h
      have unbound : lookup k rest = none := (lookup_eq_none_iff k rest).2 nodup.1
      simp [unbound]
    · simp [h, Ne.symm h]

theorem get?_insertAll_entries (d e : Dict κ ν) (k : κ) :
    (d.insertAll e.entries).get? k = (e.get? k).or (d.get? k) :=
  get?_insertAll k e.entries e.nodup d

theorem get?_mapValues (f : ν → μ) (d : Dict κ ν) (k : κ) :
    (d.mapValues f).get? k = (d.get? k).map f :=
  lookup_map f k d.entries

theorem mapValues_insert (f : ν → μ) (d : Dict κ ν) (key : κ) (value : ν) :
    (d.insert key value).mapValues f = (d.mapValues f).insert key (f value) :=
  eq_of_entries (bindIn_map (fun _ => f) key value d.entries).symm

theorem mapValues_insertAll (f : ν → μ) (d : Dict κ ν) (pairs : List (κ × ν)) :
    (d.insertAll pairs).mapValues f =
      (d.mapValues f).insertAll (pairs.map fun pair => (pair.1, f pair.2)) := by
  induction pairs generalizing d with
  | nil => rfl
  | cons pair rest ih =>
    refine (ih (d.insert pair.1 pair.2)).trans ?_
    rw [mapValues_insert]
    rfl

/-- Unbinding the only key leaves nothing. -/
@[simp]
theorem erase_insert_empty (key : κ) (value : ν) :
    ((empty : Dict κ ν).insert key value).erase key = empty :=
  eq_of_entries (by simp [erase, filterKeys, insert, bindIn, empty])

theorem mapValues_eraseAll (f : ν → μ) (d : Dict κ ν) (keys : List κ) :
    (d.eraseAll keys).mapValues f = (d.mapValues f).eraseAll keys :=
  eq_of_entries (by simp [eraseAll, filterKeys, mapValues, List.filter_map, Function.comp_def])

theorem get?_eq_none_iff (d : Dict κ ν) (k : κ) : d.get? k = none ↔ k ∉ d.keys :=
  lookup_eq_none_iff k d.entries

theorem get?_of_mem_entries {d : Dict κ ν} {k : κ} {v : ν} (mem : (k, v) ∈ d.entries) :
    d.get? k = some v :=
  lookup_of_mem d.nodup mem

theorem mem_entries_iff {d : Dict κ ν} {k : κ} {v : ν} : (k, v) ∈ d.entries ↔ d.get? k = some v :=
  ⟨get?_of_mem_entries, mem_of_lookup⟩

theorem mem_values_of_get? {d : Dict κ ν} {k : κ} {v : ν} (found : d.get? k = some v) :
    v ∈ d.values :=
  mem_values_of_lookup found

theorem exists_get?_of_mem_values {d : Dict κ ν} {v : ν} (mem : v ∈ d.values) :
    ∃ k, d.get? k = some v := by
  obtain ⟨⟨k, _⟩, entry, rfl⟩ := List.mem_map.1 mem
  exact ⟨k, get?_of_mem_entries entry⟩

theorem contains_iff_mem_keys (d : Dict κ ν) (k : κ) : d.contains k = true ↔ k ∈ d.keys := by
  rw [contains, Option.isSome_iff_ne_none, ne_eq, get?_eq_none_iff, Decidable.not_not]

/-- A dictionary of size zero binds nothing. -/
theorem size_eq_zero_iff (d : Dict κ ν) : d.size = 0 ↔ ∀ k, d.get? k = none := by
  rw [← length_keys, List.length_eq_zero_iff, List.eq_nil_iff_forall_not_mem]
  exact forall_congr' fun k => (d.get?_eq_none_iff k).symm

/-- Binding the pairs of a list in turn, with keys that may repeat: the last pair of a key wins. -/
theorem get?_insertAll_reverse (k : κ) :
    (pairs : List (κ × ν)) → (d : Dict κ ν) →
      (d.insertAll pairs).get? k = (lookup k pairs.reverse).or (d.get? k)
  | [], d => rfl
  | (bound, value) :: rest, d => by
    have step : d.insertAll ((bound, value) :: rest) = (d.insert bound value).insertAll rest := rfl
    rw [step, get?_insertAll_reverse k rest, get?_insert, List.reverse_cons, lookup_append,
      Option.or_assoc]
    by_cases h : k = bound
    · simp [lookup, h]
    · simp [lookup, h, Ne.symm h]

theorem get?_ofList (pairs : List (κ × ν)) (k : κ) :
    (ofList pairs).get? k = lookup k pairs.reverse := by
  rw [ofList, get?_insertAll_reverse, get?_empty, Option.or_none]

theorem lookup_reverse_eq_some_iff (k : κ) (v : ν) :
    (pairs : List (κ × ν)) → (lookup k pairs.reverse = some v ↔
      ∃ before after, pairs = before ++ (k, v) :: after ∧ k ∉ after.map Prod.fst)
  | [] => by simp [lookup]
  | (bound, value) :: rest => by
    have ih := lookup_reverse_eq_some_iff k v rest
    rw [List.reverse_cons, lookup_append, Option.or_eq_some_iff, ih, lookup_eq_none_iff]
    constructor
    · rintro (⟨before, after, rfl, last⟩ | ⟨last, found⟩)
      · exact ⟨(bound, value) :: before, after, rfl, last⟩
      · obtain ⟨rfl, rfl⟩ : bound = k ∧ value = v := by simpa [lookup] using found
        exact ⟨[], rest, rfl, by simpa using last⟩
    · rintro ⟨before, after, split, last⟩
      cases before with
      | nil =>
        cases split
        exact Or.inr ⟨by simpa using last, by simp [lookup]⟩
      | cons first before =>
        cases split
        exact Or.inl ⟨before, after, rfl, last⟩

/-- Of the pairs that a dictionary is made of, the last one of a key is found. -/
theorem get?_ofList_eq_some_iff {pairs : List (κ × ν)} {k : κ} {v : ν} :
    (ofList pairs).get? k = some v ↔
      ∃ before after, pairs = before ++ (k, v) :: after ∧ k ∉ after.map Prod.fst := by
  rw [get?_ofList, lookup_reverse_eq_some_iff]

theorem mem_keys_ofList {pairs : List (κ × ν)} {k : κ} :
    k ∈ (ofList pairs).keys ↔ k ∈ pairs.map Prod.fst := by
  rw [← Decidable.not_iff_not, ← get?_eq_none_iff, get?_ofList, lookup_eq_none_iff,
    List.map_reverse, List.mem_reverse]

/-- Changing the values of pairs, each by its key, changes the values of what they bind. -/
theorem entries_ofList_map (f : κ → ν → μ) (pairs : List (κ × ν)) :
    (ofList (pairs.map fun pair => (pair.1, f pair.1 pair.2))).entries =
      (ofList pairs).entries.map fun entry => (entry.1, f entry.1 entry.2) := by
  suffices all : ∀ (before : Dict κ ν) (after : Dict κ μ),
      after.entries = (before.entries.map fun entry => (entry.1, f entry.1 entry.2)) →
        (after.insertAll (pairs.map fun pair => (pair.1, f pair.1 pair.2))).entries =
          (before.insertAll pairs).entries.map fun entry => (entry.1, f entry.1 entry.2) from
    all empty empty rfl
  induction pairs with
  | nil => exact fun _ _ same => same
  | cons pair rest ih =>
    intro before after same
    refine ih (before.insert pair.1 pair.2) (after.insert pair.1 (f pair.1 pair.2)) ?_
    show bindIn _ _ after.entries = _
    rw [same]
    exact bindIn_map f pair.1 pair.2 before.entries

end Dict

end Phrasebook
