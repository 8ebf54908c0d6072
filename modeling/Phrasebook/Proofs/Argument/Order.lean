import Mathlib.Algebra.Ring.Parity
import Mathlib.Data.List.Basic
import Phrasebook.Argument.Basic
import Phrasebook.Proofs.Text.ByteOrder

/-!
# The order of arguments

Arguments come to be in several ways: from nothing, from names and arguments in turn, from bindings
in an order or without one, and by binding one more name.  Behind each of them is a history, the
list of all bindings in the order in which they are made.  A name may be bound many times in it.
The last time decides what the name is bound to, and the first time decides where it stands.

## Main definitions

- `Construction` is a way to come to arguments, and `Construction.history` the bindings on it.
- `LastBinds` says what a history binds a name to in the end.
- `Records` says what arguments are after a history.

## Main statements

- `Records.bind`: one more binding is recorded.
- `isOrderedDictionary`: arguments record their history, however they come to be.
-/

namespace Phrasebook.Arguments

/-! ## Histories of bindings -/

/-- The names that are bound, one after the other. -/
def namesOf (history : List (String × Argument)) : List String := history.map Prod.fst

/-- A history **last binds** a name to an argument: the name is not bound again after that. -/
def LastBinds (history : List (String × Argument)) (name : String) (argument : Argument) : Prop :=
  ∃ before after, history = before ++ (name, argument) :: after ∧ name ∉ namesOf after

/-- **Arguments record a history of bindings.** -/
structure Records (arguments : Arguments) (history : List (String × Argument)) : Prop where
  /-- No name is there twice. -/
  distinct : arguments.keys.Nodup
  mem_keys_iff : ∀ name, name ∈ arguments.keys ↔ name ∈ namesOf history
  /-- The names are in the order in which they are first bound. -/
  first : arguments.keys.Pairwise fun name other =>
    (namesOf history).idxOf name < (namesOf history).idxOf other
  get?_eq_some_iff : ∀ name argument,
    arguments.get? name = some argument ↔ LastBinds history name argument
  /-- A name stands together with what it is bound to. -/
  mem_entries_iff : ∀ name argument,
    (name, argument) ∈ arguments.entries ↔ LastBinds history name argument

/-- **Arguments take one more binding.** -/
structure Rebinds (arguments : Arguments) (history : List (String × Argument)) : Prop where
  /-- The answer is what the name was bound to, if anything. -/
  answer : ∀ name argument previous,
    (arguments.bind name argument).1 = some previous ↔ LastBinds history name previous
  /-- A name that is bound keeps its place. -/
  keeps : ∀ name argument, name ∈ namesOf history →
    (arguments.bind name argument).2.keys = arguments.keys
  /-- Any other name comes last. -/
  appends : ∀ name argument, name ∉ namesOf history →
    (arguments.bind name argument).2.keys = arguments.keys ++ [name]

/-! ## Ways to come to arguments -/

/-- The bindings of names and arguments in turn: each name is the text at an even place, and what it
is bound to comes next.  A last name is bound to nothing. -/
def inTurn (pairs : List Argument) : List (String × Argument) :=
  List.ofFn fun i : Fin ((pairs.length + 1) / 2) =>
    ((pairs.get ⟨2 * i.val, by omega⟩).plainText, pairs[2 * i.val + 1]?.getD .null)

/-- Bindings without an order, by the bytes of their names. -/
def byBytes (bindings : Dict String Argument) : List (String × Argument) :=
  bindings.entries.mergeSort fun binding other =>
    Text.utf8Bytes binding.1 ≤ Text.utf8Bytes other.1

/-- **A way to come to arguments.** -/
inductive Construction where
  | empty
  | ofPairs (pairs : List Argument)
  | ofList (bindings : List (String × Argument))
  | ofUnordered (bindings : Dict String Argument)
  | bind (before : Construction) (name : String) (argument : Argument)

namespace Construction

/-- The arguments that are come to. -/
def arguments : Construction → Arguments
  | empty => Dict.empty
  | ofPairs pairs => Arguments.ofPairs pairs
  | ofList bindings => Dict.ofList bindings
  | ofUnordered bindings => Arguments.ofUnordered bindings
  | bind before name argument => (before.arguments.bind name argument).2

/-- The bindings that are made, one after the other. -/
def history : Construction → List (String × Argument)
  | empty => []
  | ofPairs pairs => inTurn pairs
  | ofList bindings => bindings
  | ofUnordered bindings => byBytes bindings
  | bind before name argument => before.history ++ [(name, argument)]

end Construction

/-! ## One binding -/

variable {arguments : Arguments} {history : List (String × Argument)}

theorem lastBinds_iff_lookup {name : String} {argument : Argument} :
    LastBinds history name argument ↔ Dict.lookup name history.reverse = some argument :=
  (Dict.lookup_reverse_eq_some_iff name argument history).symm

theorem namesOf_concat (bound : String) (last : Argument) :
    namesOf (history ++ [(bound, last)]) = namesOf history ++ [bound] :=
  List.map_append

/-- Of a longer history the last binding decides, if it is of that name. -/
theorem lastBinds_concat_iff {bound name : String} {last argument : Argument} :
    LastBinds (history ++ [(bound, last)]) name argument ↔
      if name = bound then last = argument else LastBinds history name argument := by
  rw [lastBinds_iff_lookup, lastBinds_iff_lookup, List.reverse_concat, Dict.lookup]
  by_cases same : name = bound
  · rw [if_pos same, if_pos same.symm, Option.some_inj]
  · rw [if_neg same, if_neg (Ne.symm same)]

/-- Arguments with the right order and the right bindings record a history. -/
theorem Records.of_get? (mem : ∀ name, name ∈ arguments.keys ↔ name ∈ namesOf history)
    (first : arguments.keys.Pairwise fun name other =>
      (namesOf history).idxOf name < (namesOf history).idxOf other)
    (last : ∀ name argument,
      arguments.get? name = some argument ↔ LastBinds history name argument) :
    arguments.Records history where
  distinct := first.imp fun {name other} less same => by
    rw [same] at less
    exact Nat.lt_irrefl _ less
  mem_keys_iff := mem
  first := first
  get?_eq_some_iff := last
  mem_entries_iff name argument := Dict.mem_entries_iff.trans (last name argument)

/-- Names that are bound already are first bound at the same places of a longer history. -/
theorem Records.first_concat (records : arguments.Records history) (name : String) :
    arguments.keys.Pairwise fun one other =>
      (namesOf history ++ [name]).idxOf one < (namesOf history ++ [name]).idxOf other := by
  refine records.first.imp_of_mem fun {one other} mem memToo less => ?_
  rwa [List.idxOf_append_of_mem ((records.mem_keys_iff one).1 mem),
    List.idxOf_append_of_mem ((records.mem_keys_iff other).1 memToo)]

/-- **One more binding is recorded.** -/
theorem Records.bind (records : arguments.Records history) (name : String) (argument : Argument) :
    (arguments.bind name argument).2.Records (history ++ [(name, argument)]) := by
  have keys : (arguments.bind name argument).2.keys = _ := arguments.keys_insert name argument
  refine .of_get? (fun other => ?_) ?_ fun other bound => ?_
  · rw [keys, namesOf_concat, List.mem_append, List.mem_singleton, ← records.mem_keys_iff]
    split
    · rename_i mem
      exact ⟨Or.inl, fun either => either.elim id fun same => same ▸ mem⟩
    · rw [List.mem_append, List.mem_singleton]
  · have before := records.first_concat name
    rw [keys, namesOf_concat]
    split
    · exact before
    · rename_i notMem
      refine List.pairwise_append.2 ⟨before, List.pairwise_singleton _ _, ?_⟩
      intro one mem other isLast
      obtain rfl := List.mem_singleton.1 isLast
      have bound := (records.mem_keys_iff one).1 mem
      rw [List.idxOf_append_of_mem bound,
        List.idxOf_append_of_notMem (mt (records.mem_keys_iff other).2 notMem)]
      exact (List.idxOf_lt_length_iff.2 bound).trans_le (Nat.le_add_right _ _)
  · rw [Arguments.bind, Dict.get?_insert, lastBinds_concat_iff]
    split
    · exact Option.some_inj
    · exact records.get?_eq_some_iff other bound

/-- What the next binding answers and where it is put. -/
theorem Records.rebinds (records : arguments.Records history) : arguments.Rebinds history where
  answer name _ previous := records.get?_eq_some_iff name previous
  keeps name argument mem := by
    rw [Arguments.bind, Dict.keys_insert, if_pos ((records.mem_keys_iff name).2 mem)]
  appends name argument notMem := by
    rw [Arguments.bind, Dict.keys_insert, if_neg (mt (records.mem_keys_iff name).1 notMem)]

/-! ## Many bindings -/

theorem records_empty : Arguments.Records Dict.empty [] :=
  .of_get? (fun _ => Iff.rfl) .nil fun _ _ => by simp [LastBinds]

/-- **Bindings that are made in turn are recorded.** -/
theorem Records.insertAll (records : arguments.Records history)
    (bindings : List (String × Argument)) :
    Records (arguments.insertAll bindings) (history ++ bindings) := by
  induction bindings generalizing arguments history with
  | nil => rwa [List.append_nil]
  | cons binding rest ih =>
    have further := ih (records.bind binding.1 binding.2)
    rwa [List.append_assoc] at further

theorem records_ofList (bindings : List (String × Argument)) :
    Records (Dict.ofList bindings) bindings :=
  records_empty.insertAll bindings

/-- Arguments record their own bindings. -/
theorem records_entries (arguments : Arguments) : arguments.Records arguments.entries := by
  refine .of_get? (fun _ => Iff.rfl) ?_ fun name argument => ?_
  · refine List.pairwise_iff_getElem.2 fun i j inside insideToo less => ?_
    rwa [show namesOf arguments.entries = arguments.keys from rfl,
      arguments.nodup_keys.idxOf_getElem i inside, arguments.nodup_keys.idxOf_getElem j insideToo]
  · rw [← Dict.mem_entries_iff]
    refine ⟨fun mem => ?_, ?_⟩
    · obtain ⟨before, after, split⟩ := List.append_of_mem mem
      have distinct := arguments.nodup
      rw [split, List.map_append, List.map_cons, List.nodup_append] at distinct
      exact ⟨before, after, split, (List.nodup_cons.1 distinct.2.1).1⟩
    · rintro ⟨before, after, split, -⟩
      rw [split]
      exact List.mem_append_right _ List.mem_cons_self

/-! ## Names and arguments in turn -/

theorem inTurn_singleton (name : Argument) : inTurn [name] = [(name.plainText, .null)] := by
  simp [inTurn]

theorem inTurn_cons_cons (name argument : Argument) (rest : List Argument) :
    inTurn (name :: argument :: rest) = (name.plainText, argument) :: inTurn rest := by
  refine List.ext_getElem (by simp [inTurn]; omega) fun i _ _ => ?_
  cases i with
  | zero => simp [inTurn]
  | succ i => simp [inTurn, Nat.mul_succ]

theorem bindPairs_eq_insertAll (arguments : Arguments) (pairs : List Argument) :
    arguments.bindPairs pairs = arguments.insertAll (inTurn pairs) := by
  fun_induction bindPairs arguments pairs with
  | case1 arguments => rfl
  | case2 arguments name =>
    rw [inTurn_singleton]
    rfl
  | case3 arguments name argument rest ih =>
    rw [ih, inTurn_cons_cons]
    rfl

/-- After pairs, one more name is bound to nothing. -/
theorem inTurn_concat (name : Argument) :
    (pairs : List Argument) → Even pairs.length →
      inTurn (pairs ++ [name]) = inTurn pairs ++ [(name.plainText, .null)]
  | [], _ => inTurn_singleton name
  | [_], even => absurd even Nat.not_even_one
  | first :: second :: rest, even => by
    have even : Even (rest.length + 2) := even
    have evenRest : Even rest.length := (Nat.even_add.1 even).2 even_two
    rw [List.cons_append, List.cons_append, inTurn_cons_cons, inTurn_cons_cons, List.cons_append,
      inTurn_concat name rest evenRest]

theorem records_ofPairs (pairs : List Argument) : (ofPairs pairs).Records (inTurn pairs) := by
  rw [ofPairs, bindPairs_eq_insertAll]
  exact records_ofList (inTurn pairs)

/-! ## Bindings without an order -/

/-- Names are ordered by their bytes when they are sorted. -/
theorem entries_ofUnordered (bindings : Dict String Argument) :
    (ofUnordered bindings).entries = byBytes bindings := by
  have same : nameLe = fun binding other =>
      decide (Text.utf8Bytes binding.1 ≤ Text.utf8Bytes other.1) := by
    funext binding other
    refine decide_eq_decide.2 ?_
    rw [← String.not_lt, ← Text.precedes_iff_lt]
    exact List.not_lt
  exact congrArg (bindings.entries.mergeSort ·) same

theorem pairwise_precedes_ofUnordered (bindings : Dict String Argument) :
    (ofUnordered bindings).keys.Pairwise Text.Precedes := by
  have trans (a b c : String × Argument) (le : nameLe a b = true) (leToo : nameLe b c = true) :
      nameLe a c = true :=
    decide_eq_true (String.le_trans (of_decide_eq_true le) (of_decide_eq_true leToo))
  have total (a b : String × Argument) : (nameLe a b || nameLe b a) = true := by
    simpa [nameLe] using String.le_total a.1 b.1
  have sorted : (ofUnordered bindings).entries.Pairwise fun one other => nameLe one other = true :=
    List.pairwise_mergeSort trans total bindings.entries
  have distinct := List.pairwise_map.1 (ofUnordered bindings).nodup
  refine List.pairwise_map.2 ((sorted.and distinct).imp fun {one other} both => ?_)
  refine Text.precedes_iff_lt.2 ?_
  by_contra notLess
  exact both.2 (String.le_antisymm (of_decide_eq_true both.1) (String.not_lt.1 notLess))

theorem get?_ofUnordered (bindings : Dict String Argument) (name : String) :
    (ofUnordered bindings).get? name = bindings.get? name :=
  Dict.lookup_eq_of_perm (List.mergeSort_perm bindings.entries nameLe)
    (ofUnordered bindings).nodup name

theorem records_ofUnordered (bindings : Dict String Argument) :
    (ofUnordered bindings).Records (byBytes bindings) := by
  rw [← entries_ofUnordered]
  exact records_entries (ofUnordered bindings)

/-! ## All ways -/

/-- **However arguments come to be, they record their history.** -/
theorem Construction.records :
    (construction : Construction) → construction.arguments.Records construction.history
  | empty => records_empty
  | ofPairs pairs => records_ofPairs pairs
  | ofList bindings => records_ofList bindings
  | ofUnordered bindings => records_ofUnordered bindings
  | bind before name argument => before.records.bind name argument

/-- **Arguments are a dictionary in the order of first binding**, however they come to be.  Names
and arguments in turn are bound in turn, and a last name is bound to nothing, whatever it was bound
to before.  Bindings without an order are ordered by the bytes of their names. -/
theorem isOrderedDictionary :
    (∀ construction : Construction, construction.arguments.Records construction.history ∧
      construction.arguments.Rebinds construction.history) ∧
    (∀ pairs, ofPairs pairs = (inTurn pairs).foldl
      (fun arguments binding => (Arguments.bind arguments binding.1 binding.2).2) Dict.empty) ∧
    (∀ pairs (name : Argument), Even pairs.length →
      (ofPairs (pairs ++ [name])).get? name.plainText = some .null) ∧
    ∀ bindings : Dict String Argument, (ofUnordered bindings).keys.Pairwise Text.Precedes ∧
      ∀ name, (ofUnordered bindings).get? name = bindings.get? name := by
  refine ⟨fun construction => ⟨construction.records, construction.records.rebinds⟩,
    bindPairs_eq_insertAll Dict.empty, fun pairs name even => ?_,
    fun bindings => ⟨pairwise_precedes_ofUnordered bindings, get?_ofUnordered bindings⟩⟩
  rw [(records_ofPairs _).get?_eq_some_iff, inTurn_concat name pairs even, lastBinds_concat_iff,
    if_pos rfl]

/-- A name that is left over is bound to nothing in the place that it has. -/
example :
    (ofPairs [.value ⟨.text, "a"⟩, .value ⟨.text, "b"⟩, .value ⟨.text, "c"⟩, .null,
      .value ⟨.text, "a"⟩]).entries = [("a", .null), ("c", .null)] := by
  rfl

end Phrasebook.Arguments
