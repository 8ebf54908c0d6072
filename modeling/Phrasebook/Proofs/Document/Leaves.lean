import Mathlib.Data.List.Pairwise
import Mathlib.Data.List.Permutation
import Phrasebook.Document.Basic

/-!
# The messages of a document are its leaves

A document is a tree of tables, and its messages are found by walking it depth first.  A message is
named by the keys on the way to it with dots in between, and the names may be ambiguous: a key may
be empty, it may have dots of its own, and so a text may have the name of another one in a different
table.  Then the one that the walk meets last is the message.

The walk is not mentioned in the statement.  `TextAt` says where the texts of a document are, one
rule for a text and one for a table, and `ComesBefore` says in which order two paths are walked:
where they part, the lesser key comes first.  The proof goes by the list of all texts of a document
in this order (`IsWalk`), which is put together from those of its members.

## Main statement

- `messages_leaves`: the messages are the leaves by their names, the last leaf under each name; when
  no two leaves share a name, each of them is the message under its own.
-/

namespace Phrasebook

namespace Document

/-! ## Texts and their order -/

/-- **A text stands in a document at a path of keys.**  A path goes through tables only; of several
fields with one key a table has the last one. -/
inductive TextAt : Document → List String → String → Prop
  | text (value : String) : TextAt (.text value) [] value
  | member {fields : List (String × Document)} {key value : String} {child : Document}
      {path : List String} (mem : (Dict.ofList fields).get? key = some child)
      (found : TextAt child path value) : TextAt (.table fields) (key :: path) value

/-- **A leaf** of a document is a text below its root. -/
def IsLeaf (document : Document) (path : List String) (value : String) : Prop :=
  path ≠ [] ∧ document.TextAt path value

/-- The name of a path: its keys with dots in between. -/
def dotted (path : List String) : String := ".".intercalate path

/-- **One path comes before another** in a depth-first walk that takes the members of a table in the
order of their keys.  The paths go together for a while, and where they part, the first goes by the
lesser key. -/
inductive ComesBefore : List String → List String → Prop
  | part {key other : String} {rest otherRest : List String} (less : key < other) :
      ComesBefore (key :: rest) (other :: otherRest)
  | along {key : String} {rest otherRest : List String} (before : ComesBefore rest otherRest) :
      ComesBefore (key :: rest) (key :: otherRest)

theorem ComesBefore.asymm {one other : List String} (before : ComesBefore one other) :
    ¬ ComesBefore other one := by
  induction before with
  | part less =>
    rintro (later | -)
    · exact String.lt_asymm less later
    · exact String.lt_irrefl _ less
  | along _ ih =>
    rintro (later | later)
    · exact String.lt_irrefl _ later
    · exact ih later

theorem ComesBefore.irrefl (path : List String) : ¬ ComesBefore path path :=
  fun before => before.asymm before

/-! ## The members of a table -/

/-- The members of a table in order: each has a greater key than the one before. -/
theorem pairwise_arrange (fields : List (String × Document)) :
    (arrange fields).Pairwise fun one other => one.1 < other.1 := by
  have sorted : (arrange fields).Pairwise fun one other => nameLe one other = true := by
    refine List.pairwise_mergeSort ?_ ?_ _
    · simpa [nameLe] using fun a b c => String.le_trans
    · simpa [nameLe] using fun a b => String.le_total a b
  have distinct : ((arrange fields).map Prod.fst).Nodup :=
    ((List.mergeSort_perm _ _).map Prod.fst).nodup_iff.2 (Dict.ofList fields).nodup
  refine (sorted.and (List.pairwise_map.1 distinct)).imp ?_
  rintro one other ⟨le, ne⟩
  by_contra notLess
  exact ne (String.le_antisymm (by simpa [nameLe] using le) (String.not_lt.1 notLess))

theorem mem_arrange_iff {fields : List (String × Document)} {key : String} {child : Document} :
    (key, child) ∈ arrange fields ↔ (Dict.ofList fields).get? key = some child := by
  rw [arrange, List.mem_mergeSort, Dict.mem_entries_iff]

/-- A member of a table is one of the fields that are written. -/
theorem mem_of_mem_arrange {fields : List (String × Document)} {member : String × Document}
    (mem : member ∈ arrange fields) : member ∈ fields := by
  rw [mem_arrange_iff, Dict.get?_ofList] at mem
  exact List.mem_reverse.1 (Dict.mem_of_lookup mem)

theorem leavesOfFields_eq_map (path : Option String) (fields : List (String × Document)) :
    leavesOfFields path fields =
      fields.map fun field => (field.1, leaves (some (pathBelow path field.1)) field.2) := by
  induction fields with
  | nil => rfl
  | cons field rest ih =>
    obtain ⟨key, child⟩ := field
    rw [leavesOfFields, ih, leavesOfField]
    rfl

/-- The texts of a table are those of its members, one after the other. -/
theorem leaves_table (path : Option String) (fields : List (String × Document)) :
    leaves path (.table fields) =
      (arrange fields).flatMap fun member =>
        leaves (some (pathBelow path member.1)) member.2 := by
  have arranged : arrange (leavesOfFields path fields) = (arrange fields).map fun member =>
      (member.1, leaves (some (pathBelow path member.1)) member.2) := by
    rw [arrange, arrange, leavesOfFields_eq_map, Dict.entries_ofList_map fun key child =>
      leaves (some (pathBelow path key)) child, List.map_mergeSort]
    exact fun _ _ _ _ => rfl
  rw [leaves, arranged, List.flatMap_map]

/-! ## The walk -/

/-- The name of a path of keys below the path that led to a document. -/
def nameBelow (above : Option String) (path : List String) : Option String :=
  path.foldl (fun above key => some (pathBelow above key)) above

theorem nameBelow_some (above : String) (path : List String) :
    nameBelow (some above) path = some (dotted (above :: path)) := by
  induction path generalizing above with
  | nil => simp [nameBelow, dotted]
  | cons key rest ih =>
    show nameBelow (some (above ++ "." ++ key)) rest = _
    rw [ih]
    cases rest with
    | nil => simp [dotted, String.intercalate_cons_cons]
    | cons next rest => simp [dotted, String.intercalate_cons_cons, String.append_assoc]

/-- From the root the name of a path is the path with dots, and the root itself has no name. -/
theorem nameBelow_none (path : List String) :
    nameBelow none path = if path = [] then none else some (dotted path) := by
  cases path with
  | nil => rfl
  | cons key rest => exact nameBelow_some key rest

/-- A text as a message under the name of its path, if it has one. -/
def named (above : Option String) (visit : List String × String) : Option (String × String) :=
  (nameBelow above visit.1).map fun name => (name, visit.2)

/-- **A walk** of a document: all its texts with their paths, in order, and what is found in the
document, below any path, is found in the walk. -/
structure IsWalk (document : Document) (visits : List (List String × String)) : Prop where
  mem_iff : ∀ {path value}, (path, value) ∈ visits ↔ document.TextAt path value
  inOrder : visits.Pairwise fun one other => ComesBefore one.1 other.1
  leaves_eq : ∀ above, document.leaves above = visits.filterMap (named above)

theorem isWalk_text (value : String) : (Document.text value).IsWalk [([], value)] where
  mem_iff := by
    intro path text
    rw [List.mem_singleton, Prod.mk.injEq]
    constructor
    · rintro ⟨rfl, rfl⟩
      exact .text _
    · rintro (_ | _)
      exact ⟨rfl, rfl⟩
  inOrder := List.pairwise_singleton _ _
  leaves_eq above := by cases above <;> rfl

/-- What is neither a text nor a table is passed over. -/
theorem isWalk_nil {document : Document} (notText : ∀ value, document ≠ .text value)
    (notTable : ∀ fields, document ≠ .table fields) : document.IsWalk [] where
  mem_iff := by
    intro path value
    refine iff_of_false List.not_mem_nil ?_
    rintro (_ | _)
    · exact notText value rfl
    · exact notTable _ rfl
  inOrder := List.Pairwise.nil
  leaves_eq above := by
    cases document with
    | text value => exact absurd rfl (notText value)
    | table fields => exact absurd rfl (notTable fields)
    | _ => rfl

/-- The walks of members with increasing keys, one after the other.  Within a member the paths go
along its key, and from one member to the next they part. -/
theorem exists_walk_members {members : List (String × Document)}
    (increasing : members.Pairwise fun one other => one.1 < other.1)
    (each : ∀ member ∈ members, ∃ visits, member.2.IsWalk visits) :
    ∃ visits : List (List String × String),
      (∀ {path value}, (path, value) ∈ visits ↔
        ∃ key child rest, (key, child) ∈ members ∧ path = key :: rest ∧ TextAt child rest value) ∧
      visits.Pairwise (fun one other => ComesBefore one.1 other.1) ∧
      ∀ above, (members.flatMap fun member => leaves (some (pathBelow above member.1)) member.2) =
        visits.filterMap (named above) := by
  induction members with
  | nil => exact ⟨[], by simp, List.Pairwise.nil, fun _ => rfl⟩
  | cons member rest ih =>
    obtain ⟨key, child⟩ := member
    obtain ⟨less, increasingRest⟩ := List.pairwise_cons.1 increasing
    obtain ⟨inside, walk⟩ := each (key, child) List.mem_cons_self
    obtain ⟨later, memLater, laterInOrder, laterLeaves⟩ :=
      ih increasingRest fun other mem => each other (List.mem_cons_of_mem _ mem)
    refine ⟨(inside.map fun visit => (key :: visit.1, visit.2)) ++ later, ?_, ?_, fun above => ?_⟩
    · intro path value
      rw [List.mem_append, memLater, List.mem_map]
      constructor
      · rintro (⟨⟨path, value⟩, mem, eq⟩ | ⟨otherKey, other, path, mem, rfl, found⟩)
        · cases eq
          exact ⟨key, child, path, List.mem_cons_self, rfl, walk.mem_iff.1 mem⟩
        · exact ⟨otherKey, other, path, List.mem_cons_of_mem _ mem, rfl, found⟩
      · rintro ⟨otherKey, other, path, mem, rfl, found⟩
        rcases List.mem_cons.1 mem with eq | mem
        · cases eq
          exact Or.inl ⟨(path, value), walk.mem_iff.2 found, rfl⟩
        · exact Or.inr ⟨otherKey, other, path, mem, rfl, found⟩
    · refine List.pairwise_append.2 ⟨?_, laterInOrder, ?_⟩
      · exact List.pairwise_map.2 (walk.inOrder.imp .along)
      · intro one mem other memOther
        obtain ⟨visit, -, rfl⟩ := List.mem_map.1 mem
        obtain ⟨otherKey, _, path, memRest, eq, -⟩ := memLater.1 memOther
        rw [eq]
        exact .part (less _ memRest)
    · rw [List.flatMap_cons, laterLeaves, walk.leaves_eq, List.filterMap_append,
        List.filterMap_map]
      rfl

/-- **Every document has a walk.**  By induction on the document. -/
theorem exists_isWalk (document : Document) : ∃ visits, document.IsWalk visits := by
  match document with
  | .text value => exact ⟨_, isWalk_text value⟩
  | .table fields =>
    have each : ∀ member ∈ arrange fields, ∃ visits, member.2.IsWalk visits := by
      intro member mem
      have smaller := List.sizeOf_lt_of_mem (mem_of_mem_arrange mem)
      exact exists_isWalk member.2
    obtain ⟨visits, memVisits, inOrder, leaves_eq⟩ :=
      exists_walk_members (pairwise_arrange fields) each
    refine ⟨visits, ?_, inOrder, fun above => ?_⟩
    · intro path value
      rw [memVisits]
      constructor
      · rintro ⟨key, child, path, mem, rfl, found⟩
        exact .member (mem_arrange_iff.1 mem) found
      · rintro (_ | ⟨mem, found⟩)
        exact ⟨_, _, _, mem_arrange_iff.2 mem, rfl, found⟩
    · rw [leaves_table, leaves_eq]
  | .null => exact ⟨[], isWalk_nil (by simp) (by simp)⟩
  | .boolean _ => exact ⟨[], isWalk_nil (by simp) (by simp)⟩
  | .integer _ => exact ⟨[], isWalk_nil (by simp) (by simp)⟩
  | .float _ => exact ⟨[], isWalk_nil (by simp) (by simp)⟩
  | .moment => exact ⟨[], isWalk_nil (by simp) (by simp)⟩
  | .list _ => exact ⟨[], isWalk_nil (by simp) (by simp)⟩
  | .unreadable => exact ⟨[], isWalk_nil (by simp) (by simp)⟩
termination_by document
decreasing_by
  obtain ⟨key, child⟩ := member
  simp only [Prod.mk.sizeOf_spec, Document.table.sizeOf_spec] at smaller ⊢
  omega

/-! ## The messages -/

theorem named_none_eq_some_iff {path : List String} {text key value : String} :
    named none (path, text) = some (key, value) ↔
      (path ≠ [] ∧ dotted path = key) ∧ text = value := by
  by_cases root : path = []
  · simp [named, nameBelow_none, root]
  · simp [named, nameBelow_none, root]

variable {document : Document} {visits : List (List String × String)} {key value : String}

/-- The messages that a walk meets are the leaves by their names. -/
theorem IsWalk.mem_filterMap_iff (walk : document.IsWalk visits) :
    (key, value) ∈ visits.filterMap (named none) ↔
      ∃ path, document.IsLeaf path value ∧ dotted path = key := by
  rw [List.mem_filterMap]
  constructor
  · rintro ⟨⟨path, text⟩, mem, name⟩
    obtain ⟨⟨notRoot, dots⟩, rfl⟩ := named_none_eq_some_iff.1 name
    exact ⟨path, ⟨notRoot, walk.mem_iff.1 mem⟩, dots⟩
  · rintro ⟨path, ⟨notRoot, found⟩, dots⟩
    exact ⟨(path, value), walk.mem_iff.2 found, named_none_eq_some_iff.2 ⟨⟨notRoot, dots⟩, rfl⟩⟩

/-- What a walk meets no later than a text comes before it, the text itself apart. -/
theorem IsWalk.not_mem_late_iff {early late : List (List String × String)}
    {path other : List String} {text : String}
    (walk : document.IsWalk (early ++ (path, value) :: late)) (found : document.TextAt other text) :
    (other, text) ∉ late ↔ other = path ∨ ComesBefore other path := by
  obtain ⟨-, inOrderLate, inOrderEarly⟩ := List.pairwise_append.1 walk.inOrder
  constructor
  · intro notLate
    rcases List.mem_append.1 (walk.mem_iff.2 found) with mem | mem
    · exact Or.inr (inOrderEarly _ mem _ List.mem_cons_self)
    · rcases List.mem_cons.1 mem with eq | mem
      · cases eq
        exact Or.inl rfl
      · exact absurd mem notLate
  · intro first mem
    have later : ComesBefore path other := (List.pairwise_cons.1 inOrderLate).1 _ mem
    rcases first with rfl | first
    · exact ComesBefore.irrefl _ later
    · exact later.asymm first

theorem not_mem_names_iff :
    key ∉ (visits.filterMap (named none)).map Prod.fst ↔
      ∀ path text, path ≠ [] → dotted path = key → (path, text) ∉ visits := by
  constructor
  · intro notMem path text notRoot dots mem
    have name : named none (path, text) = some (key, text) :=
      named_none_eq_some_iff.2 ⟨⟨notRoot, dots⟩, rfl⟩
    exact notMem (List.mem_map_of_mem (List.mem_filterMap.2 ⟨_, mem, name⟩))
  · intro none memNames
    obtain ⟨⟨_, value⟩, memNamed, rfl⟩ := List.mem_map.1 memNames
    obtain ⟨⟨path, text⟩, mem, name⟩ := List.mem_filterMap.1 memNamed
    obtain ⟨⟨notRoot, dots⟩, -⟩ := named_none_eq_some_iff.1 name
    exact none path text notRoot dots mem

/-- **The message of a name is the last leaf with this name.** -/
theorem IsWalk.get?_messages_eq_some_iff (walk : document.IsWalk visits) :
    document.messages.get? key = some value ↔
      ∃ path, document.IsLeaf path value ∧ dotted path = key ∧
        ∀ other text, document.IsLeaf other text → dotted other = key →
          other = path ∨ ComesBefore other path := by
  rw [messages, walk.leaves_eq, Dict.get?_ofList_eq_some_iff]
  constructor
  · rintro ⟨before, after, split, last⟩
    obtain ⟨early, rest, rfl, -, split⟩ := List.filterMap_eq_append_iff.1 split
    obtain ⟨between, ⟨path, text⟩, late, rfl, -, name, rfl⟩ := List.filterMap_eq_cons_iff.1 split
    obtain ⟨⟨notRoot, dots⟩, rfl⟩ := named_none_eq_some_iff.1 name
    refine ⟨path, ⟨notRoot, walk.mem_iff.1 (by simp)⟩, dots, ?_⟩
    rw [← List.append_assoc] at walk
    intro other otherText otherLeaf otherDots
    rw [← walk.not_mem_late_iff otherLeaf.2]
    exact not_mem_names_iff.1 last other otherText otherLeaf.1 otherDots
  · rintro ⟨path, ⟨notRoot, found⟩, dots, last⟩
    obtain ⟨early, late, rfl⟩ := List.append_of_mem (walk.mem_iff.2 found)
    have name : named none (path, value) = some (key, value) :=
      named_none_eq_some_iff.2 ⟨⟨notRoot, dots⟩, rfl⟩
    refine ⟨early.filterMap (named none), late.filterMap (named none), ?_, ?_⟩
    · rw [List.filterMap_append, List.filterMap_cons_some name]
    · refine not_mem_names_iff.2 fun other text otherNotRoot otherDots mem => ?_
      have otherFound : document.TextAt other text := walk.mem_iff.1 (by simp [mem])
      exact (walk.not_mem_late_iff otherFound).2
        (last other text ⟨otherNotRoot, otherFound⟩ otherDots) mem

/-- The leaves of a document have different names. -/
def LeavesApart (document : Document) : Prop :=
  ∀ one other value text, document.IsLeaf one value → document.IsLeaf other text →
    dotted one = dotted other → one = other

/-- The leaves have different names exactly if no name is found twice. -/
theorem leavesApart_iff_nodup :
    document.LeavesApart ↔ ((document.leaves none).map Prod.fst).Nodup := by
  obtain ⟨visits, walk⟩ := exists_isWalk document
  rw [walk.leaves_eq, List.Nodup, List.pairwise_map, List.pairwise_filterMap]
  constructor
  · intro apart
    refine walk.inOrder.imp_of_mem ?_
    rintro ⟨one, value⟩ ⟨other, text⟩ mem memOther before ⟨key, _⟩ name ⟨otherKey, _⟩ otherName same
    obtain ⟨⟨notRoot, dots⟩, -⟩ := named_none_eq_some_iff.1 name
    obtain ⟨⟨otherNotRoot, otherDots⟩, -⟩ := named_none_eq_some_iff.1 otherName
    obtain rfl := apart one other value text ⟨notRoot, walk.mem_iff.1 mem⟩
      ⟨otherNotRoot, walk.mem_iff.1 memOther⟩ (dots.trans (same.trans otherDots.symm))
    exact before.irrefl _
  · rintro distinct one other value text ⟨notRoot, found⟩ ⟨otherNotRoot, otherFound⟩ same
    by_contra different
    have name : named none (one, value) = some (dotted one, value) :=
      named_none_eq_some_iff.2 ⟨⟨notRoot, rfl⟩, rfl⟩
    have otherName : named none (other, text) = some (dotted other, text) :=
      named_none_eq_some_iff.2 ⟨⟨otherNotRoot, rfl⟩, rfl⟩
    have : Std.Symm fun first second : List String × String =>
        ∀ b, named none first = some b → ∀ c, named none second = some c → b.1 ≠ c.1 :=
      ⟨fun _ _ apart b nameB c nameC => (apart c nameC b nameB).symm⟩
    exact distinct.forall (walk.mem_iff.2 found) (walk.mem_iff.2 otherFound)
      (fun eq => different (congrArg Prod.fst eq)) _ name _ otherName same

/-- **The messages of a document are its leaves.**  They have the names of leaves and no others;
under a name is the text of the last leaf that has it, in the order of a depth-first walk; and if
the leaves have different names, each leaf is the message under its name, and each message is that
of one leaf. -/
theorem messages_leaves (document : Document) :
    (∀ key, key ∈ document.messages.keys ↔
        ∃ path value, document.IsLeaf path value ∧ dotted path = key) ∧
      (∀ key value, document.messages.get? key = some value ↔
        ∃ path, document.IsLeaf path value ∧ dotted path = key ∧
          ∀ other text, document.IsLeaf other text → dotted other = key →
            other = path ∨ ComesBefore other path) ∧
      (document.LeavesApart →
        (∀ path value, document.IsLeaf path value →
          document.messages.get? (dotted path) = some value) ∧
        ∀ key value, document.messages.get? key = some value →
          ∃! path, document.IsLeaf path value ∧ dotted path = key) := by
  obtain ⟨visits, walk⟩ := exists_isWalk document
  refine ⟨fun key => ?_, fun key value => walk.get?_messages_eq_some_iff, fun apart => ⟨?_, ?_⟩⟩
  · rw [messages, walk.leaves_eq, Dict.mem_keys_ofList, List.mem_map]
    constructor
    · rintro ⟨⟨key, value⟩, mem, rfl⟩
      obtain ⟨path, leaf, dots⟩ := walk.mem_filterMap_iff.1 mem
      exact ⟨path, value, leaf, dots⟩
    · rintro ⟨path, value, leaf, dots⟩
      exact ⟨(key, value), walk.mem_filterMap_iff.2 ⟨path, leaf, dots⟩, rfl⟩
  · intro path value leaf
    refine walk.get?_messages_eq_some_iff.2 ⟨path, leaf, rfl, fun other text otherLeaf dots => ?_⟩
    exact Or.inl (apart other path text value otherLeaf leaf dots)
  · intro key value found
    obtain ⟨path, leaf, dots, -⟩ := walk.get?_messages_eq_some_iff.1 found
    refine ⟨path, ⟨leaf, dots⟩, ?_⟩
    rintro other ⟨otherLeaf, otherDots⟩
    exact apart other path value value otherLeaf leaf (otherDots.trans dots.symm)

/-- Two leaves with one name: the walk enters the table first, as its key is the lesser one. -/
example :
    (Document.table [("a.b", .text "last"), ("a", .table [("b", .text "first")])]).messages.get?
      "a.b" = some "last" := by cbv

/-- Keys that are empty or have dots, and what is passed over. -/
def oddKeys : Document :=
  .table [("", .table [("", .text "1")]), ("a.b", .text "2"),
    ("a", .table [("c", .text "3"), ("d", .list [.text "4"])])]

theorem messages_leaves_oddKeys :
    oddKeys.LeavesApart ∧ oddKeys.IsLeaf ["", ""] "1" ∧
      oddKeys.messages.get? (dotted ["", ""]) = some "1" ∧
      ∃! path, oddKeys.IsLeaf path "2" ∧ dotted path = "a.b" := by
  have found : oddKeys.leaves none = [(".", "1"), ("a.c", "3"), ("a.b", "2")] := by cbv
  have apart : oddKeys.LeavesApart := by
    rw [leavesApart_iff_nodup, found]
    decide
  have isLeaf : oddKeys.IsLeaf ["", ""] "1" := by
    have inner : TextAt (.table [("", .text "1")]) [""] "1" :=
      .member (by simp [Dict.get?_ofList, Dict.lookup]) (.text "1")
    exact ⟨by decide, .member (by simp [Dict.get?_ofList, Dict.lookup]) inner⟩
  obtain ⟨-, -, ofApart⟩ := messages_leaves oddKeys
  refine ⟨apart, isLeaf, (ofApart apart).1 ["", ""] "1" isLeaf, (ofApart apart).2 "a.b" "2" ?_⟩
  rw [messages, found]
  decide +kernel

end Document

end Phrasebook
