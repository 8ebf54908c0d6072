import Mathlib.Data.List.Infix
import Phrasebook.Proofs.Text.Scan

/-!
# The queue of next occurrences makes the naive scan

`drain` keeps, for every needle, one pending replacement in a queue ordered by position and rank.
Its positions go stale: once the cursor has passed one, the needle is looked up again only when the
entry reaches the head of the queue.  This module shows that what is written is nevertheless what
`scan` writes, position by position.

The argument rests on one invariant, `Tracks`.  It never says that an entry is the *next* occurrence
of its needle, which stale entries are not.  It says that no occurrence at or after the cursor has
been lost: for each of them the queue still holds an entry of the same rank **at or before** it.
Popping the head keeps this (`Tracks.advance`), and at a head that is not stale it gives both halves
of a step of the scan:

* before the head nothing applies (`Tracks.matchAt?_before_head`), so the text up to it is copied;
* at the head its own pair wins (`Tracks.matchAt?_head`), because a pair of lower rank that applied
  there would have an entry before the head.

## Main statements

- `drain_eq_scan`: a queue that tracks its pairs writes the scan.
- `substituteM_eq_scan`: substitution writes the scan of all pairs, and calls `render` once for each
  pair whose needle is not empty and occurs in the text, in the order of the pairs.
-/

namespace Phrasebook.Text

variable {text : List Char} {pairs : List (List Char × List Char)}

/-! ## Sightings are first occurrences -/

/-- If a needle occurs at or after a position, the first such occurrence is found. -/
theorem exists_firstOccurrenceFrom {needle : List Char} {position i : Nat} (after : position ≤ i)
    (occurs : needle <+: text.drop i) :
    ∃ first, firstOccurrenceFrom needle text position = some first ∧ first ≤ i := by
  have occursRest : needle <+: (text.drop position).drop (i - position) := by
    rw [List.drop_drop, show position + (i - position) = i by omega]
    exact occurs
  cases found : firstOccurrence needle (text.drop position) with
  | none => exact absurd occursRest (firstOccurrence_eq_none found (i - position))
  | some k =>
    refine ⟨position + k, by simp [firstOccurrenceFrom, found], ?_⟩
    by_contra later
    exact not_prefix_before_firstOccurrence found (i - position) (by omega) occursRest

/-- A non-empty needle that occurs at or after a position is sighted no later than there. -/
theorem exists_sight? {needle : List Char} {position i : Nat} (nonempty : needle ≠ [])
    (after : position ≤ i) (occurs : needle <+: text.drop i) :
    ∃ s, sight? text needle position = some s ∧ s.start ≤ i := by
  obtain ⟨first, found, early⟩ := exists_firstOccurrenceFrom after occurs
  unfold sight?
  rw [dif_pos nonempty]
  split
  · rename_i j foundAt
    have same : j = first := Option.some.inj (foundAt.symm.trans found)
    exact ⟨_, rfl, same ▸ early⟩
  · rename_i notFound
    rw [found] at notFound
    cases notFound

/-! ## The order of the queue -/

namespace Pending

theorem before_iff {p q : Pending text} :
    p.before q = true ↔ p.sighting.start < q.sighting.start ∨
      p.sighting.start = q.sighting.start ∧ p.rank ≤ q.rank := by
  simp [before]

theorem before_trans {p q r : Pending text} (pq : p.before q = true) (qr : q.before r = true) :
    p.before r = true := by
  rw [before_iff] at *
  omega

theorem before_of_not_before {p q : Pending text} (notBefore : ¬ p.before q = true) :
    q.before p = true := by
  rw [before_iff] at *
  omega

end Pending

theorem mem_enqueue {p q : Pending text} :
    {queue : List (Pending text)} → (q ∈ enqueue p queue ↔ q = p ∨ q ∈ queue)
  | [] => by simp [enqueue]
  | r :: rest => by
    by_cases ahead : p.before r
    · simp [enqueue, ahead]
    · rw [enqueue, if_neg ahead, List.mem_cons, mem_enqueue, List.mem_cons]
      exact or_left_comm

/-- A queue that is ordered stays so when a pending replacement is put into it. -/
theorem pairwise_enqueue {p : Pending text} :
    {queue : List (Pending text)} → queue.Pairwise (fun q r => q.before r = true) →
      (enqueue p queue).Pairwise fun q r => q.before r = true
  | [], _ => by simp [enqueue]
  | first :: rest, ordered => by
    obtain ⟨firstBefore, orderedRest⟩ := List.pairwise_cons.1 ordered
    by_cases ahead : p.before first
    · rw [enqueue, if_pos ahead, List.pairwise_cons]
      refine ⟨fun q mem => ?_, ordered⟩
      rcases List.mem_cons.1 mem with rfl | mem
      · exact ahead
      · exact Pending.before_trans ahead (firstBefore q mem)
    · rw [enqueue, if_neg ahead, List.pairwise_cons]
      refine ⟨fun q mem => ?_, pairwise_enqueue orderedRest⟩
      rcases mem_enqueue.1 mem with rfl | mem
      · exact Pending.before_of_not_before ahead
      · exact firstBefore q mem

theorem mem_enqueue? {p? : Option (Pending text)} {q : Pending text}
    {queue : List (Pending text)} : q ∈ enqueue? p? queue ↔ p? = some q ∨ q ∈ queue := by
  cases p? with
  | none => simp [enqueue?]
  | some p => simp [enqueue?, mem_enqueue, eq_comm]

/-! ## The invariant -/

/-- **The queue tracks the pairs from a cursor on.**  Its entries are in order, they belong to
supplied pairs, and no occurrence at or after the cursor is lost: the queue holds an entry of that
rank at or before it.  Entries behind the cursor are allowed. -/
structure Tracks (pairs : List (List Char × List Char)) (position : Nat)
    (queue : List (Pending text)) : Prop where
  ordered : queue.Pairwise fun p q => p.before q = true
  supplied : ∀ p ∈ queue, pairs[p.rank]? = some (p.sighting.needle, p.output)
  covers : ∀ (rank : Nat) (pair : List Char × List Char) (i : Nat), pairs[rank]? = some pair →
    position ≤ i → Applies pair (text.drop i) → ∃ p ∈ queue, p.rank = rank ∧ p.sighting.start ≤ i

namespace Tracks

variable {position : Nat} {p : Pending text} {rest : List (Pending text)}

/-- Popping the head, looking its needle up from a later cursor and putting it back loses no
occurrence from that cursor on. -/
theorem advance (tracks : Tracks pairs position (p :: rest)) {next : Nat}
    (further : position ≤ next) : Tracks pairs next (enqueue? (p.advance? next) rest) where
  ordered := by
    have orderedRest := (List.pairwise_cons.1 tracks.ordered).2
    cases p.advance? next with
    | none => exact orderedRest
    | some q => exact pairwise_enqueue orderedRest
  supplied := by
    intro q mem
    rcases mem_enqueue?.1 mem with advanced | mem
    · obtain ⟨s, seen, rfl⟩ := Option.map_eq_some_iff.1 advanced
      have own := tracks.supplied p List.mem_cons_self
      rw [← needle_of_sight? seen] at own
      exact own
    · exact tracks.supplied q (List.mem_cons_of_mem _ mem)
  covers := by
    intro rank pair i given after applies
    obtain ⟨q, mem, rfl, early⟩ := tracks.covers rank pair i given (by omega) applies
    rcases List.mem_cons.1 mem with rfl | mem
    · -- The entry that stood for this occurrence is the head: look where its needle is now.
      have own := tracks.supplied q List.mem_cons_self
      obtain rfl := Option.some.inj (given.symm.trans own)
      obtain ⟨s, seen, earlyAgain⟩ := exists_sight? applies.1 after applies.2
      refine ⟨{ q with sighting := s }, mem_enqueue?.2 (Or.inl ?_), rfl, earlyAgain⟩
      simp [Pending.advance?, seen]
    · exact ⟨q, mem_enqueue?.2 (Or.inr mem), rfl, early⟩

/-- An entry of the queue that stands at or before a place which the head has not passed stands at
the head's own position, and has no lower rank. -/
theorem head_le (tracks : Tracks pairs position (p :: rest)) {q : Pending text}
    (mem : q ∈ p :: rest) : p.sighting.start < q.sighting.start ∨
      p.sighting.start = q.sighting.start ∧ p.rank ≤ q.rank := by
  rcases List.mem_cons.1 mem with rfl | mem
  · exact Or.inr ⟨rfl, Nat.le_refl _⟩
  · exact Pending.before_iff.1 ((List.pairwise_cons.1 tracks.ordered).1 q mem)

/-- Between the cursor and the head of the queue no pair applies. -/
theorem matchAt?_before_head (tracks : Tracks pairs position (p :: rest)) {i : Nat}
    (after : position ≤ i) (before : i < p.sighting.start) :
    matchAt? (text.drop i) pairs = none := by
  refine matchAt?_eq_none_iff.2 fun pair supplied applies => ?_
  obtain ⟨rank, given⟩ := List.getElem?_of_mem supplied
  obtain ⟨q, mem, -, early⟩ := tracks.covers rank pair i given after applies
  have := tracks.head_le mem
  omega

/-- At the head of the queue the pair of the head wins. -/
theorem matchAt?_head (tracks : Tracks pairs position (p :: rest))
    (fresh : position ≤ p.sighting.start) :
    matchAt? (text.drop p.sighting.start) pairs = some (p.sighting.needle, p.output) := by
  refine matchAt?_eq_some_iff.2
    ⟨⟨p.sighting.needle_ne_nil, p.sighting.isPrefix⟩, p.rank,
      tracks.supplied p List.mem_cons_self, ?_⟩
  intro earlier lower other given applies
  obtain ⟨q, mem, rfl, early⟩ :=
    tracks.covers earlier other p.sighting.start given fresh applies
  have := tracks.head_le mem
  omega

/-- When the queue is empty no pair applies any more. -/
theorem matchAt?_nil (tracks : Tracks pairs position ([] : List (Pending text))) {i : Nat}
    (after : position ≤ i) : matchAt? (text.drop i) pairs = none := by
  refine matchAt?_eq_none_iff.2 fun pair supplied applies => ?_
  obtain ⟨rank, given⟩ := List.getElem?_of_mem supplied
  obtain ⟨q, mem, -⟩ := tracks.covers rank pair i given after applies
  cases mem

end Tracks

/-! ## The queue writes the scan -/

/-- **A queue that tracks its pairs writes what the scan writes from the cursor on.**  The induction
is that of `drain`: a stale head is looked up again without a step of the scan, and a head that is
not stale is one copied stretch and one replacement. -/
theorem drain_eq_scan {position : Nat} {queue : List (Pending text)}
    (tracks : Tracks pairs position queue) :
    drain text position queue = scan pairs (text.drop position) := by
  fun_induction drain text position queue with
  | case1 position =>
    refine (scan_eq_self fun i => ?_).symm
    rw [List.drop_drop]
    exact tracks.matchAt?_nil (Nat.le_add_right position i)
  | case2 position p rest passed ih =>
    -- The head is stale: the queue changes, the cursor and what the scan writes do not.
    exact ih (tracks.advance (Nat.le_refl position))
  | case3 position p rest passed ih =>
    have fresh : position ≤ p.sighting.start := Nat.le_of_not_lt passed
    have quiet : ∀ i < p.sighting.start - position,
        matchAt? ((text.drop position).drop i) pairs = none := by
      intro i below
      rw [List.drop_drop]
      exact tracks.matchAt?_before_head (Nat.le_add_right position i) (by omega)
    have atHead : (text.drop position).drop (p.sighting.start - position) =
        text.drop p.sighting.start := by
      rw [List.drop_drop, show position + (p.sighting.start - position) = p.sighting.start by omega]
    have onward : position ≤ p.sighting.stop :=
      Nat.le_trans fresh (Nat.le_of_lt p.sighting.start_lt_stop)
    rw [scan_eq_take_append quiet, atHead, scan_of_matchAt?_eq_some (tracks.matchAt?_head fresh),
      List.drop_drop, ← Sighting.stop, ih (tracks.advance onward), List.append_assoc]

/-! ## The queue at the start -/

/-- The entries of the first queue, with the ranks of the sightings they stand for. -/
theorem mem_queueOf {p : Pending text} :
    {first : Nat} → {rendered : List (Sighting text × List Char)} →
      (p ∈ queueOf first rendered ↔
        ∃ j, rendered[j]? = some (p.sighting, p.output) ∧ p.rank = first + j)
  | first, [] => by simp [queueOf]
  | first, (s, output) :: rest => by
    rw [queueOf, mem_enqueue, mem_queueOf]
    constructor
    · rintro (rfl | ⟨j, given, rank⟩)
      · exact ⟨0, rfl, rfl⟩
      · exact ⟨j + 1, given, by omega⟩
    · rintro ⟨j, given, rank⟩
      cases j with
      | zero =>
        obtain ⟨rfl, rfl⟩ := Prod.mk.inj (Option.some.inj given)
        exact Or.inl (by cases p; simp_all)
      | succ j => exact Or.inr ⟨j, given, by omega⟩

theorem pairwise_queueOf :
    {first : Nat} → {rendered : List (Sighting text × List Char)} →
      (queueOf first rendered).Pairwise fun p q => p.before q = true
  | _, [] => List.Pairwise.nil
  | _, _ :: _ => pairwise_enqueue pairwise_queueOf

/-- Sightings from the start of the text make a queue that tracks their pairs from the start. -/
theorem tracks_queueOf {rendered : List (Sighting text × List Char)}
    (first : ∀ pair ∈ rendered, sight? text pair.1.needle 0 = some pair.1) :
    Tracks (rendered.map fun pair => (pair.1.needle, pair.2)) 0 (queueOf 0 rendered) where
  ordered := pairwise_queueOf
  supplied := by
    intro p mem
    obtain ⟨j, given, rank⟩ := mem_queueOf.1 mem
    rw [rank, Nat.zero_add, List.getElem?_map, given]
    rfl
  covers := by
    intro rank pair i given _ applies
    rw [List.getElem?_map, Option.map_eq_some_iff] at given
    obtain ⟨⟨s, output⟩, given, rfl⟩ := given
    obtain ⟨t, seen, early⟩ := exists_sight? applies.1 (Nat.zero_le i) applies.2
    -- The entry of that rank is the first occurrence of all, so it is early enough for any other.
    obtain rfl := Option.some.inj ((first _ (List.mem_of_getElem? given)).symm.trans seen)
    exact ⟨⟨s, rank, output⟩, mem_queueOf.2 ⟨rank, given, (Nat.zero_add rank).symm⟩, rfl, early⟩

/-! ## What is rendered -/

/-- A needle is seen from the start of a text exactly when it is not empty and occurs there. -/
theorem isSome_sight?_iff {needle : List Char} :
    (sight? text needle 0).isSome = true ↔ needle ≠ [] ∧ needle <:+: text := by
  constructor
  · intro isSome
    obtain ⟨s, seen⟩ := Option.isSome_iff_exists.1 isSome
    rw [← needle_of_sight? seen]
    exact ⟨s.needle_ne_nil, s.isPrefix.isInfix.trans (List.drop_suffix s.start text).isInfix⟩
  · rintro ⟨nonempty, before, after, split⟩
    have occurs : needle <+: text.drop before.length := by
      rw [← split, List.append_assoc, List.drop_left]
      exact List.prefix_append needle after
    obtain ⟨s, seen, -⟩ := exists_sight? nonempty (Nat.zero_le _) occurs
    exact Option.isSome_iff_exists.2 ⟨s, seen⟩

/-- The pairs that are seen are those whose needle is not empty and occurs in the text. -/
theorem map_needle_sightings {α : Type} (text : List Char) (pairs : List (List Char × α)) :
    ((sightings text pairs).map fun seen => (seen.1.needle, seen.2)) =
      pairs.filter fun pair => decide (pair.1 ≠ [] ∧ pair.1 <:+: text) := by
  induction pairs with
  | nil => rfl
  | cons pair rest ih =>
    cases seen : sight? text pair.1 0 with
    | none =>
      have absent : ¬ (pair.1 ≠ [] ∧ pair.1 <:+: text) := by
        rw [← isSome_sight?_iff, seen]
        simp
      rw [List.filter_cons_of_neg (by simpa using absent), ← ih]
      simp [sightings, seen]
    | some s =>
      have present : pair.1 ≠ [] ∧ pair.1 <:+: text := isSome_sight?_iff.1 (by simp [seen])
      rw [List.filter_cons_of_pos (by simpa using present), ← ih]
      simp [sightings, seen, needle_of_sight? seen]

/-- What is seen of a pair is its first occurrence. -/
theorem sight?_of_mem_sightings {α : Type} {pairs : List (List Char × α)}
    {seen : Sighting text × α} (mem : seen ∈ sightings text pairs) :
    sight? text seen.1.needle 0 = some seen.1 := by
  obtain ⟨pair, -, found⟩ := List.mem_filterMap.1 mem
  obtain ⟨s, sighted, rfl⟩ := Option.map_eq_some_iff.1 found
  rw [needle_of_sight? sighted]
  exact sighted

/-- The queue of the rendered sightings writes the scan of all pairs: a pair that is not seen
applies nowhere. -/
theorem drain_sightings {α : Type} (render : α → List Char) (text : List Char)
    (pairs : List (List Char × α)) :
    drain text 0 (queueOf 0 ((sightings text pairs).map fun seen => (seen.1, render seen.2))) =
      scan (pairs.map fun pair => (pair.1, render pair.2)) text := by
  have first : ∀ pair ∈ (sightings text pairs).map fun seen => (seen.1, render seen.2),
      sight? text pair.1.needle 0 = some pair.1 := by
    intro pair mem
    obtain ⟨seen, given, rfl⟩ := List.mem_map.1 mem
    show sight? text seen.1.needle 0 = some seen.1
    exact sight?_of_mem_sightings given
  have tracked : ((sightings text pairs).map fun seen => (seen.1, render seen.2)).map
      (fun pair => (pair.1.needle, pair.2)) =
      (pairs.map fun pair => (pair.1, render pair.2)).filter
        fun pair => decide (pair.1 ≠ [] ∧ pair.1 <:+: text) := by
    rw [List.filter_map, List.map_map]
    have seen := congrArg (List.map fun pair => (pair.1, render pair.2))
      (map_needle_sightings text pairs)
    rw [List.map_map] at seen
    exact seen
  rw [drain_eq_scan (tracks_queueOf first), tracked, List.drop_zero]
  refine scan_filter fun i pair _ applies => ?_
  have inside : pair.1 <:+: text := applies.2.isInfix.trans (List.drop_suffix i text).isInfix
  simpa using ⟨applies.1, inside⟩

/-- Substitution with a pure `render` writes the scan of all pairs. -/
theorem substitute_eq_scan {α : Type} (render : α → List Char) (text : List Char)
    (pairs : List (List Char × α)) :
    substitute render text pairs = scan (pairs.map fun pair => (pair.1, render pair.2)) text := by
  rw [← drain_sightings]
  exact congrArg (fun rendered => drain text 0 (queueOf 0 rendered)) List.idRun_mapM

/-- Where nothing is to be replaced the text is left as it is. -/
theorem substituteM_nil {m : Type → Type} [Monad m] [LawfulMonad m] {α : Type}
    (render : α → m (List Char)) (text : List Char) : substituteM render text [] = pure text := by
  have quiet : drain text 0 [] = text := by rw [drain, List.drop_zero]
  show (([] : List (Sighting text × α)).mapM _ >>= fun rendered =>
    pure (drain text 0 (queueOf 0 rendered))) = _
  rw [List.mapM_nil, pure_bind]
  exact congrArg pure quiet

/-- A pure `render` that keeps a record of what it is called with. -/
def recording {α : Type} (render : α → List Char) (value : α) : StateM (List α) (List Char) := do
  modify (· ++ [value])
  pure (render value)

/-- Rendering what is seen calls `render` once for each, in order. -/
theorem run_mapM_recording {α : Type} (render : α → List Char) :
    (seen : List (Sighting text × α)) → (record : List α) →
      (seen.mapM (m := StateM (List α)) fun ((s, value) : Sighting text × α) => do
        let output ← recording render value
        pure (s, output)).run record =
        (seen.map fun pair => (pair.1, render pair.2), record ++ seen.map Prod.snd)
  | [], record => by
    rw [List.map_nil, List.map_nil, List.append_nil]
    rfl
  | pair :: rest, record => by
    have ih := run_mapM_recording render rest (record ++ [pair.2])
    rw [List.append_assoc] at ih
    rw [List.mapM_cons, StateT.run_bind]
    exact congrArg (fun result => ((pair.1, render pair.2) :: result.1, result.2)) ih

/-- **Substitution is the naive scan.**  For every text and every list of pairs it writes what going
through the text position by position writes.  `render` is called exactly once, in the order of
the pairs, for each pair whose needle is not empty and occurs in the text, and for no other. -/
theorem substituteM_eq_scan {α : Type} (render : α → List Char) (text : List Char)
    (pairs : List (List Char × α)) :
    substitute render text pairs = scan (pairs.map fun pair => (pair.1, render pair.2)) text ∧
      (substituteM (recording render) text pairs).run [] =
        (scan (pairs.map fun pair => (pair.1, render pair.2)) text,
          (pairs.filter fun pair => decide (pair.1 ≠ [] ∧ pair.1 <:+: text)).map Prod.snd) := by
  constructor
  · have pureRender : ((sightings text pairs).mapM fun seen =>
        (pure (seen.1, render seen.2) : Id (Sighting text × List Char))) =
        pure ((sightings text pairs).map fun seen => (seen.1, render seen.2)) :=
      List.mapM_pure
    rw [← drain_sightings]
    exact congrArg (fun rendered : Id (List (Sighting text × List Char)) =>
      drain text 0 (queueOf 0 rendered.run)) pureRender
  · have rendered : ((sightings text pairs).map Prod.snd) =
        (pairs.filter fun pair => decide (pair.1 ≠ [] ∧ pair.1 <:+: text)).map Prod.snd := by
      rw [← map_needle_sightings, List.map_map]
      rfl
    rw [substituteM, StateT.run_bind, run_mapM_recording, ← rendered, ← drain_sightings]
    rfl

/-- At equal places the first supplied pair wins, and an occurrence that overlaps is skipped. -/
example : substitute String.toList "abcab".toList
    [("bc".toList, "1"), ("ab".toList, "2"), ("ab".toList, "3")] = "2c2".toList := by cbv

end Phrasebook.Text
