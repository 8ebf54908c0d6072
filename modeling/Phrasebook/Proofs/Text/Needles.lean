import Mathlib.Data.List.Nodup
import Phrasebook.Engine.Render
import Phrasebook.Proofs.Text.Drain

/-!
# Needles of names

What stands for an argument in a raw message is its needle, the name between braces.  Names may hold
any characters, so needles may begin with one another and may be found inside one another.  But a
name without a closing brace ends at the first closing brace of its needle, so at most one such
needle begins a text (`eq_of_needle_begins`).

Then there is nothing for the order of pairs to decide.  The order matters to a scan only where two
pairs apply at the same position, and pairs of which no two do so may be supplied in any order
(`scan_eq_of_perm`).

## Main statements

- `replaceAll_eq_of_perm`: replacing needles of names without closing braces is the same in any
  order of the names.
- `Engine.plain_eq_replaceAll`: the plain text of a message is such a replacement.
-/

namespace Phrasebook.Text

open Engine

/-! ## At most one needle -/

@[simp]
theorem toList_needle (name : String) :
    (needle name).toList = '{' :: name.toList ++ ['}'] := by
  simp [needle]

/-- A name without a closing brace is what stands between the first character and the first closing
brace of a text that its needle begins. -/
theorem toList_eq_takeWhile_of_needle_begins {name : String} {text : List Char}
    (closed : '}' ∉ name.toList) (begins : (needle name).toList <+: text) :
    name.toList = text.tail.takeWhile fun c => c ≠ '}' := by
  obtain ⟨after, rfl⟩ := begins
  have inside : ∀ c ∈ name.toList, decide (c ≠ '}') = true := by
    intro c mem
    exact decide_eq_true fun isBrace => closed (isBrace ▸ mem)
  rw [toList_needle, List.cons_append, List.cons_append, List.tail_cons, List.append_assoc,
    List.takeWhile_append_of_pos inside]
  simp

/-- **At most one needle begins a text**, of names without closing braces. -/
theorem eq_of_needle_begins {name other : String} {text : List Char}
    (closed : '}' ∉ name.toList) (otherClosed : '}' ∉ other.toList)
    (begins : (needle name).toList <+: text) (otherBegins : (needle other).toList <+: text) :
    name = other := by
  have same := (toList_eq_takeWhile_of_needle_begins closed begins).trans
    (toList_eq_takeWhile_of_needle_begins otherClosed otherBegins).symm
  exact String.toList_inj.1 same

/-! ## The order of pairs -/

/-- Pairs of which no two apply at the same position may be supplied in any order. -/
theorem scan_eq_of_perm {pairs others : List (List Char × List Char)} (perm : pairs.Perm others)
    {text : List Char}
    (apart : ∀ i, ∀ pair ∈ pairs, ∀ other ∈ pairs, Applies pair (text.drop i) →
      Applies other (text.drop i) → other = pair) :
    scan pairs text = scan others text := by
  refine scan_congr text fun i => ?_
  cases found : matchAt? (text.drop i) pairs with
  | none =>
    refine (matchAt?_eq_none_iff.2 fun other supplied => ?_).symm
    exact matchAt?_eq_none_iff.1 found other (perm.mem_iff.2 supplied)
  | some pair =>
    obtain ⟨applies, rank, given, -⟩ := matchAt?_eq_some_iff.1 found
    have supplied := List.mem_of_getElem? given
    refine (matchAt?_eq_some_of_unique (perm.mem_iff.1 supplied) applies ?_).symm
    intro other otherSupplied otherApplies
    exact apart i pair supplied other (perm.mem_iff.2 otherSupplied) applies otherApplies

/-- The pairs that replace the needles of names. -/
def needlePairs (bindings : List (String × String)) : List (List Char × List Char) :=
  bindings.map fun binding => ((needle binding.1).toList, binding.2.toList)

/-- Replacing the needles of names writes the scan of their pairs. -/
theorem toList_replaceAll_needle (text : String) (bindings : List (String × String)) :
    (replaceAll text (bindings.map fun binding => (needle binding.1, binding.2))).toList =
      scan (needlePairs bindings) text.toList := by
  rw [replaceAll, String.toList_ofList, substitute_eq_scan, List.map_map, List.map_map]
  rfl

/-- **The order of names does not matter** to a replacement of their needles, if no name is given
twice and none holds a closing brace. -/
theorem replaceAll_eq_of_perm {bindings others : List (String × String)}
    (perm : bindings.Perm others) (distinct : (bindings.map Prod.fst).Nodup)
    (closed : ∀ binding ∈ bindings, '}' ∉ binding.1.toList) (text : String) :
    replaceAll text (bindings.map fun binding => (needle binding.1, binding.2)) =
      replaceAll text (others.map fun binding => (needle binding.1, binding.2)) := by
  rw [← String.toList_inj, toList_replaceAll_needle, toList_replaceAll_needle]
  refine scan_eq_of_perm (perm.map _) ?_
  intro i pair supplied other otherSupplied applies otherApplies
  obtain ⟨binding, mem, rfl⟩ := List.mem_map.1 supplied
  obtain ⟨another, anotherMem, rfl⟩ := List.mem_map.1 otherSupplied
  have sameName : another.1 = binding.1 :=
    eq_of_needle_begins (closed another anotherMem) (closed binding mem) otherApplies.2 applies.2
  rw [List.inj_on_of_nodup_map distinct anotherMem mem sameName]

/-- A name with a closing brace may begin with the needle of another, and then the order decides. -/
example :
    let text := "{a}b" ++ closeBrace
    let name := "a" ++ closeBrace ++ "b"
    replaceAll text [(needle "a", "1"), (needle name, "2")] = "1b" ++ closeBrace ∧
      replaceAll text [(needle name, "2"), (needle "a", "1")] = "2" := by
  decide +kernel

end Phrasebook.Text

namespace Phrasebook.Engine

/-- The plain text of a message replaces the needles of the names by the texts of the arguments. -/
theorem plain_eq_replaceAll {ε : Type} [MessageEntry ε] {engine : Engine ε} {key : String}
    {language : Language} {entry : ε} (resolved : engine.entry key language = some entry)
    (arguments : Arguments) :
    engine.plain key language arguments =
      Text.replaceAll (MessageEntry.raw entry)
        ((arguments.entries.map fun binding =>
          (binding.1, engine.argumentPlain language binding.2)).map
            fun binding => (needle binding.1, binding.2)) := by
  rw [plain, resolved, List.map_map]
  rfl

end Phrasebook.Engine
