import Mathlib.Data.List.Basic
import Phrasebook.Text.Substitution

/-!
# The naive scan, position by position

`scan` goes through a text from left to right.  Where a supplied needle begins it writes the output
of the first such pair and goes on after the needle; elsewhere it copies one character.  This module
says what a single position of the scan does (`matchAt?`) and how a scan is put together from its
positions:

* `matchAt?_eq_some_iff` names the pair that wins at a position, by its rank;
* `scan_eq_take_append` copies a stretch in which nothing begins;
* `scan_filter` drops pairs that take effect nowhere, and `scan_map_congr` changes their outputs.

The scan is the specification of the queue of `Phrasebook.Text.drain`, so nothing here speaks of
queues.
-/

namespace Phrasebook.Text

variable {text : List Char} {pairs : List (List Char × List Char)}

/-- A pair **applies** at the start of a text: its needle is not empty and begins the text. -/
def Applies (pair : List Char × List Char) (text : List Char) : Prop :=
  pair.1 ≠ [] ∧ pair.1 <+: text

instance (pair : List Char × List Char) (text : List Char) : Decidable (Applies pair text) :=
  inferInstanceAs (Decidable (pair.1 ≠ [] ∧ pair.1 <+: text))

/-! ## One position -/

/-- The pair that wins at a position is the first one that applies there. -/
theorem matchAt?_eq_find? (text : List Char) :
    (pairs : List (List Char × List Char)) →
      matchAt? text pairs = pairs.find? fun pair => decide (Applies pair text)
  | [] => rfl
  | (needle, output) :: rest => by
    have ih := matchAt?_eq_find? text rest
    by_cases applies : Applies (needle, output) text
    · have begins : needle ≠ [] ∧ needle.isPrefixOf text = true :=
        ⟨applies.1, List.isPrefixOf_iff_prefix.2 applies.2⟩
      rw [matchAt?, if_pos begins, List.find?_cons_of_pos (by simpa using applies)]
    · have notBegins : ¬ (needle ≠ [] ∧ needle.isPrefixOf text = true) := fun begins =>
        applies ⟨begins.1, List.isPrefixOf_iff_prefix.1 begins.2⟩
      rw [matchAt?, if_neg notBegins, ih, List.find?_cons_of_neg (by simpa using applies)]

theorem matchAt?_eq_none_iff :
    matchAt? text pairs = none ↔ ∀ pair ∈ pairs, ¬ Applies pair text := by
  rw [matchAt?_eq_find?, List.find?_eq_none]
  simp

/-- A pair wins at a position exactly when it applies there and none of lower rank does. -/
theorem matchAt?_eq_some_iff {pair : List Char × List Char} :
    matchAt? text pairs = some pair ↔
      Applies pair text ∧ ∃ rank : Nat, pairs[rank]? = some pair ∧
        ∀ earlier < rank, ∀ other, pairs[earlier]? = some other → ¬ Applies other text := by
  rw [matchAt?_eq_find?, List.find?_eq_some_iff_getElem]
  refine and_congr (by simp) ⟨?_, ?_⟩
  · rintro ⟨rank, inside, here, before⟩
    refine ⟨rank, by rw [List.getElem?_eq_getElem inside, here], ?_⟩
    intro earlier lower other there
    obtain ⟨_, rfl⟩ := List.getElem?_eq_some_iff.1 there
    simpa using before earlier lower
  · rintro ⟨rank, here, before⟩
    obtain ⟨inside, here⟩ := List.getElem?_eq_some_iff.1 here
    refine ⟨rank, inside, here, fun earlier lower => ?_⟩
    simpa using before earlier lower _ (List.getElem?_eq_getElem (by omega))

/-- Where some pair applies and any other that applies is the same, that pair wins. -/
theorem matchAt?_eq_some_of_unique {pair : List Char × List Char}
    (supplied : pair ∈ pairs) (applies : Applies pair text)
    (unique : ∀ other ∈ pairs, Applies other text → other = pair) :
    matchAt? text pairs = some pair := by
  cases found : matchAt? text pairs with
  | none => exact absurd applies (matchAt?_eq_none_iff.1 found pair supplied)
  | some other =>
    obtain ⟨otherApplies, rank, given, -⟩ := matchAt?_eq_some_iff.1 found
    rw [unique other (List.mem_of_getElem? given) otherApplies]

/-- Pairs that do not apply at a position may be left out there. -/
theorem matchAt?_filter {keep : List Char × List Char → Bool}
    (kept : ∀ pair ∈ pairs, Applies pair text → keep pair = true) :
    matchAt? text (pairs.filter keep) = matchAt? text pairs := by
  rw [matchAt?_eq_find?, matchAt?_eq_find?]
  induction pairs with
  | nil => rfl
  | cons pair rest ih =>
    have keptRest := ih fun other supplied => kept other (List.mem_cons_of_mem _ supplied)
    by_cases applies : Applies pair text
    · have keptPair := kept pair List.mem_cons_self applies
      rw [List.filter_cons_of_pos keptPair, List.find?_cons_of_pos (by simpa using applies),
        List.find?_cons_of_pos (by simpa using applies)]
    · rw [List.find?_cons_of_neg (by simpa using applies), ← keptRest, List.filter_cons]
      split
      · rw [List.find?_cons_of_neg (by simpa using applies)]
      · rfl

/-! ## A whole scan -/

@[simp]
theorem scan_nil (pairs : List (List Char × List Char)) : scan pairs [] = [] := by
  rw [scan]

/-- Where a pair wins, its output is written and the scan goes on after the needle. -/
theorem scan_of_matchAt?_eq_some {needle output : List Char}
    (found : matchAt? text pairs = some (needle, output)) :
    scan pairs text = output ++ scan pairs (text.drop needle.length) := by
  have applies := (matchAt?_eq_some_iff.1 found).1
  cases text with
  | nil => exact absurd (List.prefix_nil.1 applies.2) applies.1
  | cons c rest =>
    rw [scan]
    split
    · rename_i other _ foundOther
      rw [found] at foundOther
      cases foundOther
      rfl
    · rename_i notFound
      rw [found] at notFound
      cases notFound

/-- Where no pair applies, one character is copied. -/
theorem scan_cons_of_matchAt?_eq_none {c : Char} {rest : List Char}
    (notFound : matchAt? (c :: rest) pairs = none) :
    scan pairs (c :: rest) = c :: scan pairs rest := by
  rw [scan]
  split
  · rename_i found
    rw [notFound] at found
    cases found
  · rfl

/-- A stretch in which no pair applies is copied. -/
theorem scan_eq_take_append :
    {count : Nat} → {text : List Char} →
      (∀ i < count, matchAt? (text.drop i) pairs = none) →
        scan pairs text = text.take count ++ scan pairs (text.drop count)
  | 0, text, _ => by simp
  | count + 1, [], _ => by simp
  | count + 1, c :: rest, quiet => by
    have here : matchAt? (c :: rest) pairs = none := by simpa using quiet 0 (by omega)
    have later : ∀ i < count, matchAt? (rest.drop i) pairs = none := fun i below => by
      simpa using quiet (i + 1) (by omega)
    rw [scan_cons_of_matchAt?_eq_none here, scan_eq_take_append later]
    simp

/-- A text in which no pair applies anywhere is left as it is. -/
theorem scan_eq_self (quiet : ∀ i, matchAt? (text.drop i) pairs = none) :
    scan pairs text = text := by
  have quietBefore : ∀ i < text.length, matchAt? (text.drop i) pairs = none := fun i _ => quiet i
  rw [scan_eq_take_append quietBefore]
  simp

/-- Two lists of pairs with the same winner at every position give the same scan. -/
theorem scan_congr {others : List (List Char × List Char)} :
    (text : List Char) →
      (∀ i, matchAt? (text.drop i) pairs = matchAt? (text.drop i) others) →
        scan pairs text = scan others text
  | [], _ => by simp
  | c :: rest, same => by
    have sameAfter (count : Nat) : ∀ i, matchAt? (((c :: rest).drop count).drop i) pairs =
        matchAt? (((c :: rest).drop count).drop i) others := by
      intro i
      rw [List.drop_drop]
      exact same (count + i)
    have here : matchAt? (c :: rest) pairs = matchAt? (c :: rest) others := by
      simpa using same 0
    -- Both scans take the same step, and what is left of the text is shorter.
    cases found : matchAt? (c :: rest) pairs with
    | none =>
      have foundOther : matchAt? (c :: rest) others = none := here.symm.trans found
      rw [scan_cons_of_matchAt?_eq_none found, scan_cons_of_matchAt?_eq_none foundOther]
      exact congrArg (c :: ·) (scan_congr rest (sameAfter 1))
    | some pair =>
      obtain ⟨needle, output⟩ := pair
      have foundOther : matchAt? (c :: rest) others = some (needle, output) :=
        here.symm.trans found
      have positive : 0 < needle.length :=
        List.length_pos_iff.2 (matchAt?_eq_some_iff.1 found).1.1
      rw [scan_of_matchAt?_eq_some found, scan_of_matchAt?_eq_some foundOther]
      exact congrArg (output ++ ·)
        (scan_congr ((c :: rest).drop needle.length) (sameAfter needle.length))
termination_by text => text.length
decreasing_by
  · simp
  · simp only [List.length_drop, List.length_cons]
    omega

/-- Pairs that apply nowhere in a text may be left out. -/
theorem scan_filter {keep : List Char × List Char → Bool}
    (kept : ∀ i, ∀ pair ∈ pairs, Applies pair (text.drop i) → keep pair = true) :
    scan (pairs.filter keep) text = scan pairs text :=
  scan_congr text fun i => matchAt?_filter (kept i)

/-- Two outputs for needles that occur nowhere may differ. -/
theorem scan_map_congr {α : Type} {bindings : List α} {needle output other : α → List Char}
    (same : ∀ binding ∈ bindings, needle binding <:+: text → output binding = other binding) :
    scan (bindings.map fun binding => (needle binding, output binding)) text =
      scan (bindings.map fun binding => (needle binding, other binding)) text := by
  have occurs : ∀ i, ∀ pair : List Char × List Char, Applies pair (text.drop i) →
      occursIn pair.1 text = true := fun i pair applies =>
    occursIn_iff.2 (applies.2.isInfix.trans (List.drop_suffix i text).isInfix)
  have keep : ∀ pairs, scan (pairs.filter fun pair => occursIn pair.1 text) text =
      scan pairs text := fun pairs => scan_filter fun i pair _ applies => occurs i pair applies
  rw [← keep, ← keep (bindings.map fun binding => (needle binding, other binding)),
    List.filter_map, List.filter_map]
  refine congrArg (scan · text) (List.map_congr_left fun binding mem => ?_)
  obtain ⟨supplied, found⟩ := List.mem_filter.1 mem
  rw [same binding supplied (occursIn_iff.1 found)]

end Phrasebook.Text
