import Phrasebook.Proofs.Text.Drain
import Phrasebook.Proofs.Text.Slices

/-!
# The loop over bytes

Substitution counts characters and keeps the next occurrence of every needle in its queue.  A loop
over a text in UTF-8 does the same with bytes: it keeps the next occurrence in a slot for each
needle, has a heap of these offsets with the numbers of the slots, and cuts pieces out of the text
at a cursor.  A piece that is out of range or cuts a character in two stops such a loop, and so does
a slot that is missing.  This module shows that neither happens, and that the loop ends.

The heap goes stale: when the cursor has passed an offset, the needle is looked up again only when
the slot is popped.  So nothing about the slots themselves says that a piece from the cursor to one
of them is in range.  The argument is that the loop follows the queue of `drain`
(`Sweep.Follows`): its heap has the entries of the queue in the same order, its cursor is at a
character, and a slot is written only after it has been compared with the cursor.  A turn of the
loop is then a step of the queue (`Sweep.Follows.turn`).

## Main definitions

- `Sweep.turn?` is one turn of the loop, which has no answer where the loop would stop.
- `Sweep.Sound` and `Sweep.Advances` are what holds at every turn and what every turn does.

## Main statement

- `Sweep.isSafe`: the loop over bytes is safe, ends, and writes the substitution.
-/

namespace Phrasebook.Text

open String (utf8Len)

variable {text : List Char} {i j : Nat}

/-! ## The loop -/

/-- The number of bytes before the first occurrence of a needle. -/
def find? (needle text : List Char) : Option Nat :=
  (firstOccurrence needle text).map fun i => utf8Len (text.take i)

/-- A needle with what is written for it, and the offset at which it occurs next. -/
structure Slot where
  needle : List Char
  output : List Char
  next : Nat

/-- Where the loop is: the slots, the heap of their offsets with their numbers, in the order in
which they are popped, what has been written, and the cursor. -/
structure Sweep where
  slots : List Slot
  heap : List (Nat × Nat)
  output : List Char
  position : Nat

/-- An offset with a slot is popped before another one. -/
def popsBefore (entry other : Nat × Nat) : Bool :=
  entry.1 < other.1 || (entry.1 == other.1 && entry.2 ≤ other.2)

/-- Puts an offset with a slot onto a heap. -/
def push (entry : Nat × Nat) : List (Nat × Nat) → List (Nat × Nat)
  | [] => [entry]
  | other :: rest =>
    if popsBefore entry other then entry :: other :: rest else other :: push entry rest

namespace Sweep

/-- One more pair: a needle that is empty or does not occur gets no slot. -/
def supply (text : List Char) (sweep : Sweep) (pair : List Char × List Char) : Sweep :=
  if pair.1 = [] then sweep
  else
    match find? pair.1 text with
    | none => sweep
    | some next =>
      { sweep with
        slots := sweep.slots ++ [⟨pair.1, pair.2, next⟩]
        heap := push (next, sweep.slots.length) sweep.heap }

/-- The beginning of the loop. -/
def start (text : List Char) (pairs : List (List Char × List Char)) : Sweep :=
  pairs.foldl (supply text) ⟨[], [], [], 0⟩

/-- A slot whose needle occurs at a distance from the cursor goes back onto the heap.  If it does
not occur again, the slot is done with. -/
def putBack (sweep : Sweep) (number : Nat) (slot : Slot) : Option Nat → Sweep
  | none => sweep
  | some distance =>
    { sweep with
      slots := sweep.slots.set number { slot with next := sweep.position + distance }
      heap := push (sweep.position + distance, number) sweep.heap }

/-- Looks the needle of a slot up from the cursor on.  There is no answer if the cursor is not in
the text or cuts a character in two. -/
def seek? (text : List Char) (sweep : Sweep) (number : Nat) (slot : Slot) : Option Sweep :=
  (fromByte? text sweep.position).map fun rest =>
    sweep.putBack number slot (find? slot.needle rest)

/-- Writes the text up to the place of a slot and what is written for its needle.  The cursor is
after the needle then. -/
def write? (text : List Char) (sweep : Sweep) (slot : Slot) : Option Sweep :=
  (slice? text sweep.position slot.next).map fun copied =>
    { sweep with
      output := sweep.output ++ copied ++ slot.output
      position := slot.next + utf8Len slot.needle }

/-- One turn of the loop, as long as the heap is not empty.  A slot that the cursor has passed is
only looked up again.  There is no answer if a slot is missing or a slice is out of range. -/
def turn? (text : List Char) (sweep : Sweep) : Option Sweep :=
  match sweep.heap with
  | [] => none
  | (_, number) :: heap =>
    sweep.slots[number]?.bind fun slot =>
      if slot.next < sweep.position then seek? text { sweep with heap } number slot
      else
        (write? text { sweep with heap } slot).bind fun written => seek? text written number slot

/-- The end of the loop: the rest of the text is written. -/
def finish? (text : List Char) (sweep : Sweep) : Option (List Char) :=
  (fromByte? text sweep.position).map fun rest => sweep.output ++ rest

/-- What the loop can come to. -/
inductive Reached (text : List Char) (pairs : List (List Char × List Char)) : Sweep → Prop
  | start : Reached text pairs (start text pairs)
  | turn {sweep after : Sweep} (before : Reached text pairs sweep)
      (turned : turn? text sweep = some after) : Reached text pairs after

/-- **A state of the loop is sound.** -/
structure Sound (text : List Char) (sweep : Sweep) : Prop where
  /-- Every offset in the heap is that of its slot. -/
  keys : ∀ entry ∈ sweep.heap, ∃ slot, sweep.slots[entry.2]? = some slot ∧ slot.next = entry.1
  /-- Every slot is in the heap once at most. -/
  once : (sweep.heap.map Prod.snd).Nodup
  cursor : IsBoundary text sweep.position
  /-- The needle of every slot occurs where the slot says. -/
  next : ∀ slot ∈ sweep.slots, ∃ before after,
    text = before ++ slot.needle ++ after ∧ utf8Len before = slot.next

/-- What bounds the turns that a heap still takes: for each of its offsets, the bytes that follow
it. -/
def weight (size : Nat) : List (Nat × Nat) → Nat
  | [] => 0
  | entry :: rest => size - entry.1 + weight size rest

/-- **What one turn of the loop does.**  The slot that is popped is done with, or goes back onto the
heap further on. -/
structure Advances (text : List Char) (sweep after : Sweep) : Prop where
  cursor : sweep.position ≤ after.position
  popped : ∃ offset number heap, sweep.heap = (offset, number) :: heap ∧
    (after.heap = heap ∨ ∃ next, offset < next ∧ next ≤ utf8Len text ∧
      after.heap = push (next, number) heap)
  weight : weight (utf8Len text) after.heap < weight (utf8Len text) sweep.heap

/-- A state of the loop comes to another one in any number of turns. -/
def ComesTo (text : List Char) : Sweep → Sweep → Prop :=
  Relation.ReflTransGen fun sweep after => turn? text sweep = some after

/-- **The loop is safe**, whatever it comes to. -/
structure IsSafe (text : List Char) (pairs : List (List Char × List Char)) : Prop where
  sound : ∀ {sweep}, Reached text pairs sweep → sweep.Sound text
  /-- As long as the heap is not empty, there is a next turn: no slot is missing and no slice is out
  of range. -/
  onward : ∀ {sweep}, Reached text pairs sweep → sweep.heap ≠ [] →
    ∃ after, turn? text sweep = some after
  advances : ∀ {sweep after}, Reached text pairs sweep → turn? text sweep = some after →
    sweep.Advances text after
  /-- A slot that is not in the heap is done with for good. -/
  retired : ∀ {sweep later number}, Reached text pairs sweep → ComesTo text sweep later →
    number ∉ sweep.heap.map Prod.snd → number ∉ later.heap.map Prod.snd
  /-- When the heap is empty, the rest of the text can be written, and this is the substitution. -/
  finished : ∀ {sweep}, Reached text pairs sweep → sweep.heap = [] →
    finish? text sweep = some (substitute id text pairs)
  ends : ∃ sweep, ComesTo text (start text pairs) sweep ∧ sweep.heap = []

end Sweep

/-! ## The heap and the queue -/

theorem popsBefore_iff {entry other : Nat × Nat} :
    popsBefore entry other = true ↔
      entry.1 < other.1 ∨ entry.1 = other.1 ∧ entry.2 ≤ other.2 := by
  simp [popsBefore]

theorem push_perm (entry : Nat × Nat) :
    (heap : List (Nat × Nat)) → (push entry heap).Perm (entry :: heap)
  | [] => List.Perm.refl _
  | other :: rest => by
    rw [push]
    split
    · exact List.Perm.refl _
    · exact ((push_perm entry rest).cons other).trans (List.Perm.swap _ _ _)

theorem enqueue_perm (p : Pending text) :
    (queue : List (Pending text)) → (enqueue p queue).Perm (p :: queue)
  | [] => List.Perm.refl _
  | q :: rest => by
    rw [enqueue]
    split
    · exact List.Perm.refl _
    · exact ((enqueue_perm p rest).cons q).trans (List.Perm.swap _ _ _)

namespace Pending

/-- What the heap has of a pending replacement. -/
def key (p : Pending text) : Nat × Nat := (byteAt text p.sighting.start, p.rank)

/-- The slot of a pending replacement. -/
def slot (p : Pending text) : Slot :=
  ⟨p.sighting.needle, p.output, byteAt text p.sighting.start⟩

/-- The heap is in the order of the queue. -/
theorem popsBefore_key (p q : Pending text) : popsBefore p.key q.key = p.before q := by
  have less := byteAt_lt_iff (i := p.sighting.start) (Nat.le_of_lt q.sighting.start_lt_length)
  have greater := byteAt_lt_iff (i := q.sighting.start) (Nat.le_of_lt p.sighting.start_lt_length)
  rw [Bool.eq_iff_iff, popsBefore_iff, before_iff]
  simp only [key]
  omega

end Pending

theorem map_key_enqueue (p : Pending text) :
    (queue : List (Pending text)) →
      (enqueue p queue).map Pending.key = push p.key (queue.map Pending.key)
  | [] => rfl
  | q :: rest => by
    rw [enqueue, List.map_cons, push, Pending.popsBefore_key]
    split
    · rfl
    · rw [List.map_cons, map_key_enqueue p rest]

/-! ## Looking up again -/

theorem sight?_eq_none {needle : List Char} {position : Nat}
    (absent : firstOccurrence needle (text.drop position) = none) :
    sight? text needle position = none := by
  unfold sight?
  split
  · split
    · rename_i found
      simp [firstOccurrenceFrom, absent] at found
    · rfl
  · rfl

theorem exists_sight?_eq_some {needle : List Char} {position k : Nat} (nonempty : needle ≠ [])
    (found : firstOccurrence needle (text.drop position) = some k) :
    ∃ s, sight? text needle position = some s ∧ s.needle = needle ∧ s.start = position + k := by
  unfold sight?
  rw [dif_pos nonempty]
  split
  · rename_i i foundAt
    have place : position + k = i := by simpa [firstOccurrenceFrom, found] using foundAt
    exact ⟨_, rfl, rfl, place.symm⟩
  · rename_i absent
    simp [firstOccurrenceFrom, found] at absent

namespace Sweep

variable {sweep : Sweep} {cursor : Nat} {p : Pending text} {queue rest : List (Pending text)}

/-- **The loop follows a queue**: its heap has the offsets of the queue, in the same order, and the
slots in the heap have what is pending.  All slots are at occurrences of their needles. -/
structure Follows (text : List Char) (sweep : Sweep) (cursor : Nat)
    (queue : List (Pending text)) : Prop where
  inside : cursor ≤ text.length
  position : sweep.position = byteAt text cursor
  heap : sweep.heap = queue.map Pending.key
  slots : ∀ p ∈ queue, sweep.slots[p.rank]? = some p.slot
  ranks : (queue.map Pending.rank).Nodup
  occurs : ∀ slot ∈ sweep.slots, ∃ s : Sighting text,
    s.needle = slot.needle ∧ byteAt text s.start = slot.next

/-- The queue without its head. -/
theorem Follows.pop (follows : sweep.Follows text cursor (p :: rest)) :
    Follows text { sweep with heap := rest.map Pending.key } cursor rest ∧
      sweep.slots[p.rank]? = some p.slot ∧ p.rank ∉ rest.map Pending.rank := by
  obtain ⟨notMem, ranks⟩ := List.nodup_cons.1 (List.map_cons ▸ follows.ranks)
  exact ⟨{ follows with
    heap := rfl
    slots := fun q mem => follows.slots q (List.mem_cons_of_mem _ mem)
    ranks := ranks }, follows.slots p List.mem_cons_self, notMem⟩

/-- A slot goes back onto the heap with a later occurrence of its needle. -/
theorem Follows.enqueue (follows : sweep.Follows text cursor rest)
    (own : sweep.slots[p.rank]? = some p.slot) (notMem : p.rank ∉ rest.map Pending.rank)
    {s : Sighting text} (needle : s.needle = p.sighting.needle) {distance : Nat}
    (next : sweep.position + distance = byteAt text s.start) :
    (sweep.putBack p.rank p.slot (some distance)).Follows text cursor
      (enqueue { p with sighting := s } rest) where
  inside := follows.inside
  position := follows.position
  heap := by
    rw [map_key_enqueue, putBack, next, follows.heap]
    rfl
  slots q mem := by
    obtain ⟨inRange, -⟩ := List.getElem?_eq_some_iff.1 own
    rcases mem_enqueue.1 mem with rfl | mem
    · rw [putBack, next, List.getElem?_set_self inRange, Pending.slot, Pending.slot, needle]
    · have other : p.rank ≠ q.rank := fun same => notMem (same ▸ List.mem_map_of_mem mem)
      rw [putBack, List.getElem?_set_ne other]
      exact follows.slots q mem
  ranks := by
    have ranks := (enqueue_perm { p with sighting := s } rest).map Pending.rank
    exact ranks.nodup_iff.2 (List.nodup_cons.2 ⟨notMem, follows.ranks⟩)
  occurs slot mem := by
    rcases List.mem_or_eq_of_mem_set mem with mem | rfl
    · exact follows.occurs slot mem
    · exact ⟨s, needle, next.symm⟩

/-- **A slot that is looked up again follows the queue.** -/
theorem Follows.seek (follows : sweep.Follows text cursor rest)
    (own : sweep.slots[p.rank]? = some p.slot) (notMem : p.rank ∉ rest.map Pending.rank) :
    ∃ after, seek? text sweep p.rank p.slot = some after ∧
      after.Follows text cursor (enqueue? (p.advance? cursor) rest) ∧
        after.position = sweep.position ∧ after.output = sweep.output := by
  have sought : seek? text sweep p.rank p.slot =
      some (sweep.putBack p.rank p.slot (find? p.sighting.needle (text.drop cursor))) := by
    rw [seek?, follows.position, fromByte?_byteAt]
    rfl
  refine ⟨_, sought, ?_⟩
  cases found : firstOccurrence p.sighting.needle (text.drop cursor) with
  | none =>
    rw [find?, found, Pending.advance?, sight?_eq_none found]
    exact ⟨follows, rfl, rfl⟩
  | some k =>
    obtain ⟨s, seen, needle, place⟩ := exists_sight?_eq_some p.sighting.needle_ne_nil found
    have next : sweep.position + utf8Len ((text.drop cursor).take k) = byteAt text s.start := by
      rw [place, byteAt_add, follows.position]
    rw [find?, found, Pending.advance?, seen]
    exact ⟨follows.enqueue own notMem needle next, rfl, rfl⟩

/-- **A slot that is not passed is written.** -/
theorem Follows.write (follows : sweep.Follows text cursor rest)
    (fresh : cursor ≤ p.sighting.start) :
    ∃ written, write? text sweep p.slot = some written ∧ written.Follows text p.sighting.stop rest ∧
      written.slots = sweep.slots ∧ written.output =
        sweep.output ++ (text.drop cursor).take (p.sighting.start - cursor) ++ p.output := by
  have stop : byteAt text p.sighting.start + utf8Len p.sighting.needle =
      byteAt text p.sighting.stop := by
    rw [Sighting.stop, byteAt_add, ← List.prefix_iff_eq_take.1 p.sighting.isPrefix]
  have copied : slice? text sweep.position p.slot.next =
      some ((text.drop cursor).take (p.sighting.start - cursor)) := by
    rw [follows.position]
    exact slice?_byteAt text fresh
  refine ⟨_, congrArg (Option.map _) copied, ?_, rfl, rfl⟩
  exact { follows with inside := p.sighting.stop_le_length, position := stop }

/-- **One turn of the loop is one step of the queue.** -/
theorem Follows.turn (follows : sweep.Follows text cursor (p :: rest)) :
    ∃ after further, turn? text sweep = some after ∧ cursor ≤ further ∧
      p.sighting.start < further ∧
        after.Follows text further (enqueue? (p.advance? further) rest) ∧
          after.output ++ drain text further (enqueue? (p.advance? further) rest) =
            sweep.output ++ drain text cursor (p :: rest) := by
  obtain ⟨popped, own, notMem⟩ := follows.pop
  have turned : turn? text sweep =
      if p.slot.next < sweep.position then
        seek? text { sweep with heap := rest.map Pending.key } p.rank p.slot
      else
        (write? text { sweep with heap := rest.map Pending.key } p.slot).bind fun written =>
          seek? text written p.rank p.slot := by
    rw [turn?, follows.heap]
    simp only [List.map_cons, Pending.key, own, Option.bind_some]
  have passed_iff : p.slot.next < sweep.position ↔ p.sighting.start < cursor := by
    rw [follows.position]
    exact byteAt_lt_iff follows.inside
  by_cases passed : p.sighting.start < cursor
  · -- the slot is stale: nothing is cut out of the text before the cursor
    obtain ⟨after, sought, onward, -, output⟩ := popped.seek own notMem
    rw [if_pos (passed_iff.2 passed)] at turned
    refine ⟨after, cursor, turned.trans sought, Nat.le_refl _, passed, onward, ?_⟩
    rw [output, drain.eq_def text cursor (p :: rest)]
    simp only [passed, dif_pos]
  · have fresh := Nat.le_of_not_lt passed
    obtain ⟨written, wrote, onward, slots, output⟩ := popped.write fresh
    obtain ⟨after, sought, onward, -, same⟩ := onward.seek (slots ▸ own) notMem
    rw [if_neg (mt passed_iff.1 passed), wrote, Option.bind_some] at turned
    refine ⟨after, p.sighting.stop, turned.trans sought, ?_, p.sighting.start_lt_stop, onward, ?_⟩
    · exact Nat.le_trans fresh (Nat.le_of_lt p.sighting.start_lt_stop)
    · rw [same, output, drain.eq_def text cursor (p :: rest)]
      simp only [passed, not_false_eq_true, dif_neg, List.append_assoc]

/-! ## The beginning -/

/-- What is pending at first, in the order in which it is supplied. -/
def pendings (seen : List (Sighting text × List Char)) : List (Pending text) :=
  seen.mapIdx fun rank pair => ⟨pair.1, rank, pair.2⟩

theorem queueOf_perm :
    (first : Nat) → (seen : List (Sighting text × List Char)) →
      (queueOf first seen).Perm (seen.mapIdx fun i pair => ⟨pair.1, first + i, pair.2⟩)
  | _, [] => List.Perm.refl _
  | first, (s, output) :: rest => by
    rw [queueOf, List.mapIdx_cons]
    refine (enqueue_perm _ _).trans (List.Perm.cons _ ?_)
    simpa only [Nat.add_assoc, Nat.add_comm 1] using queueOf_perm (first + 1) rest

theorem queueOf_perm_pendings (seen : List (Sighting text × List Char)) :
    (queueOf 0 seen).Perm (pendings seen) := by
  have perm := queueOf_perm 0 seen
  simp only [Nat.zero_add] at perm
  exact perm

/-- There is only one order for what is pending at first. -/
theorem eq_queueOf {seen : List (Sighting text × List Char)}
    (ordered : queue.Pairwise fun p q => p.before q = true)
    (perm : queue.Perm (queueOf 0 seen)) : queue = queueOf 0 seen := by
  refine List.Perm.eq_of_pairwise ?_ ordered pairwise_queueOf perm
  intro p q mem memToo before after
  rw [Pending.before_iff] at before after
  have sameRank : p.rank = q.rank := by omega
  obtain ⟨i, given, rank⟩ := mem_queueOf.1 (perm.mem_iff.1 mem)
  obtain ⟨j, givenToo, rankToo⟩ := mem_queueOf.1 memToo
  obtain rfl : i = j := by omega
  obtain ⟨sameSighting, sameOutput⟩ := Prod.mk.inj (Option.some.inj (given.symm.trans givenToo))
  cases p
  cases q
  cases sameSighting
  cases sameRank
  cases sameOutput
  rfl

/-- One more sighting is enqueued after all others. -/
theorem enqueue_queueOf (seen : List (Sighting text × List Char)) (s : Sighting text)
    (output : List Char) :
    enqueue ⟨s, seen.length, output⟩ (queueOf 0 seen) = queueOf 0 (seen ++ [(s, output)]) := by
  refine eq_queueOf (pairwise_enqueue pairwise_queueOf) ?_
  refine (enqueue_perm _ _).trans (List.Perm.trans ?_ (queueOf_perm_pendings _).symm)
  rw [pendings, List.mapIdx_concat]
  exact ((queueOf_perm_pendings seen).cons _).trans (List.perm_append_singleton _ _).symm

/-- The first state of the loop, pair by pair. -/
structure Supplied (text : List Char) (sweep : Sweep)
    (seen : List (Sighting text × List Char)) : Prop where
  slots : sweep.slots = (pendings seen).map Pending.slot
  heap : sweep.heap = (queueOf 0 seen).map Pending.key
  position : sweep.position = 0
  output : sweep.output = []

theorem Supplied.supply {seen : List (Sighting text × List Char)}
    (supplied : sweep.Supplied text seen) (pair : List Char × List Char) :
    (sweep.supply text pair).Supplied text (seen ++ sightings text [pair]) := by
  obtain ⟨needle, output⟩ := pair
  have unseen (gone : sight? text needle 0 = none) : sightings text [(needle, output)] = [] := by
    simp [sightings, gone]
  rw [Sweep.supply]
  by_cases empty : needle = []
  · rw [if_pos empty, unseen (by simp [sight?, empty]), List.append_nil]
    exact supplied
  rw [if_neg empty, find?]
  cases found : firstOccurrence needle text with
  | none =>
    rw [unseen (sight?_eq_none found), List.append_nil]
    exact supplied
  | some k =>
    have foundFirst : firstOccurrence needle (text.drop 0) = some k := found
    obtain ⟨s, seenHere, rfl, place⟩ := exists_sight?_eq_some empty foundFirst
    rw [Nat.zero_add] at place
    have last : sightings text [(s.needle, output)] = [(s, output)] := by
      simp [sightings, seenHere]
    have count : sweep.slots.length = seen.length := by
      rw [supplied.slots, List.length_map, pendings, List.length_mapIdx]
    rw [last]
    exact {
      slots := by
        rw [pendings, List.mapIdx_concat, List.map_append, ← pendings, ← supplied.slots, ← place]
        rfl
      heap := by
        rw [← enqueue_queueOf, map_key_enqueue, ← supplied.heap, ← count, ← place]
        rfl
      position := supplied.position
      output := supplied.output }

theorem supplied_start (text : List Char) (pairs : List (List Char × List Char)) :
    (start text pairs).Supplied text (sightings text pairs) := by
  induction pairs using List.reverseRecOn with
  | nil => exact ⟨rfl, rfl, rfl, rfl⟩
  | append_singleton pairs pair ih =>
    rw [start, List.foldl_append, sightings, List.filterMap_append]
    exact ih.supply pair

/-- **At first the loop follows the queue of all sightings.** -/
theorem follows_start (text : List Char) (pairs : List (List Char × List Char)) :
    (start text pairs).Follows text 0 (queueOf 0 (sightings text pairs)) := by
  have supplied := supplied_start text pairs
  constructor
  case inside => exact Nat.zero_le _
  case position => exact supplied.position
  case heap => exact supplied.heap
  case slots =>
    intro p mem
    obtain ⟨j, given, rank⟩ := mem_queueOf.1 mem
    rw [Nat.zero_add] at rank
    rw [supplied.slots, rank, pendings, List.getElem?_map, List.getElem?_mapIdx, given]
    rfl
  case ranks =>
    have ranks : (pendings (sightings text pairs)).map Pending.rank =
        List.range (sightings text pairs).length :=
      List.ext_getElem (by simp [pendings]) (by simp [pendings])
    rw [((queueOf_perm_pendings _).map Pending.rank).nodup_iff, ranks]
    exact List.nodup_range
  case occurs =>
    intro slot mem
    rw [supplied.slots] at mem
    obtain ⟨p, -, rfl⟩ := List.mem_map.1 mem
    exact ⟨p.sighting, rfl, rfl⟩

/-! ## Safety -/

/-- **What follows a queue is sound.** -/
theorem Follows.sound (follows : sweep.Follows text cursor queue) : sweep.Sound text where
  keys entry mem := by
    rw [follows.heap] at mem
    obtain ⟨p, inQueue, rfl⟩ := List.mem_map.1 mem
    exact ⟨p.slot, follows.slots p inQueue, rfl⟩
  once := by
    rw [follows.heap, List.map_map]
    exact follows.ranks
  cursor := follows.position ▸ isBoundary_byteAt text cursor
  next slot mem := by
    obtain ⟨s, needle, next⟩ := follows.occurs slot mem
    obtain ⟨after, rest⟩ := s.isPrefix
    refine ⟨text.take s.start, after, ?_, next⟩
    rw [← needle, List.append_assoc, rest, List.take_append_drop]

theorem weight_push (size : Nat) (entry : Nat × Nat) :
    (heap : List (Nat × Nat)) → weight size (push entry heap) = weight size (entry :: heap)
  | [] => rfl
  | other :: rest => by
    rw [push]
    split
    · rfl
    · rw [weight, weight_push size entry rest, weight, weight, weight, Nat.add_left_comm]

/-- **A turn advances.** -/
theorem Follows.advances {after : Sweep} {further : Nat}
    (follows : sweep.Follows text cursor (p :: rest))
    (onward : after.Follows text further (enqueue? (p.advance? further) rest))
    (le : cursor ≤ further) (passed : p.sighting.start < further) :
    sweep.Advances text after := by
  have inText : p.key.1 < utf8Len text := by
    rw [← byteAt_length]
    exact byteAt_lt_byteAt p.sighting.start_lt_length (Nat.le_refl _)
  have popped : after.heap = rest.map Pending.key ∨ ∃ next, p.key.1 < next ∧
      next ≤ utf8Len text ∧ after.heap = push (next, p.rank) (rest.map Pending.key) := by
    rw [onward.heap]
    cases advanced : p.advance? further with
    | none => exact Or.inl rfl
    | some q =>
      obtain ⟨s, seen, rfl⟩ := Option.map_eq_some_iff.1 advanced
      -- it is looked up from a cursor that has passed the place where it was
      have later : p.sighting.start < s.start :=
        Nat.lt_of_lt_of_le passed (le_start_of_sight? seen)
      refine Or.inr ⟨_, byteAt_lt_byteAt later (Nat.le_of_lt s.start_lt_length), ?_,
        map_key_enqueue _ rest⟩
      rw [← byteAt_length]
      exact byteAt_le_byteAt (Nat.le_of_lt s.start_lt_length)
  refine ⟨?_, ⟨_, _, _, follows.heap, popped⟩, ?_⟩
  · rw [follows.position, onward.position]
    exact byteAt_le_byteAt le
  · rw [follows.heap, List.map_cons, weight]
    rcases popped with retired | ⟨next, later, inRange, again⟩
    · rw [retired]
      omega
    · rw [again, weight_push, weight]
      omega

section
variable {pairs : List (List Char × List Char)} {after later : Sweep} {number : Nat}

/-- What the loop comes to follows a queue that writes the substitution. -/
theorem Reached.follows (reached : Reached text pairs sweep) :
    ∃ cursor queue, sweep.Follows text cursor queue ∧
      sweep.output ++ drain text cursor queue = substitute id text pairs := by
  induction reached with
  | start =>
    have same : (sightings text pairs).map (fun seen => (seen.1, id seen.2)) =
        sightings text pairs := List.map_id _
    have queue := drain_sightings id text pairs
    rw [← substitute_eq_scan, same] at queue
    refine ⟨0, _, follows_start text pairs, ?_⟩
    rw [(supplied_start text pairs).output]
    exact queue
  | turn before turned ih =>
    obtain ⟨cursor, queue, follows, written⟩ := ih
    cases queue with
    | nil =>
      rw [turn?, follows.heap] at turned
      cases turned
    | cons p rest =>
      obtain ⟨other, further, turnedToo, -, -, onward, same⟩ := follows.turn
      cases turned.symm.trans turnedToo
      exact ⟨further, _, onward, same.trans written⟩

/-- As long as the heap is not empty, there is a next turn, and it advances. -/
theorem Reached.onward (reached : Reached text pairs sweep) (busy : sweep.heap ≠ []) :
    ∃ after, turn? text sweep = some after ∧ sweep.Advances text after := by
  obtain ⟨cursor, queue, follows, -⟩ := reached.follows
  cases queue with
  | nil => exact absurd follows.heap busy
  | cons p rest =>
    obtain ⟨after, further, turned, le, passed, onward, -⟩ := follows.turn
    exact ⟨after, turned, follows.advances onward le passed⟩

theorem Reached.advances (reached : Reached text pairs sweep)
    (turned : turn? text sweep = some after) : sweep.Advances text after := by
  have busy : sweep.heap ≠ [] := by
    intro empty
    rw [turn?, empty] at turned
    cases turned
  obtain ⟨other, turnedToo, advances⟩ := reached.onward busy
  cases turned.symm.trans turnedToo
  exact advances

/-- No turn puts another slot onto the heap than the one that it pops. -/
theorem Advances.mem_numbers (advances : sweep.Advances text after)
    (mem : number ∈ after.heap.map Prod.snd) : number ∈ sweep.heap.map Prod.snd := by
  obtain ⟨offset, popped, heap, same, retired | ⟨next, -, -, again⟩⟩ := advances.popped
  · rw [retired] at mem
    rw [same]
    exact List.mem_cons_of_mem _ mem
  · rw [again, ((push_perm _ _).map Prod.snd).mem_iff] at mem
    rw [same]
    exact mem

theorem Reached.comesTo (reached : Reached text pairs sweep) (turns : ComesTo text sweep later) :
    Reached text pairs later := by
  induction turns with
  | refl => exact reached
  | tail _ turned ih => exact ih.turn turned

/-- What is in the heap later has been there before. -/
theorem Reached.mem_numbers (reached : Reached text pairs sweep)
    (turns : ComesTo text sweep later) (mem : number ∈ later.heap.map Prod.snd) :
    number ∈ sweep.heap.map Prod.snd := by
  induction turns with
  | refl => exact mem
  | tail turns turned ih =>
    exact ih (((reached.comesTo turns).advances turned).mem_numbers mem)

/-- **The loop comes to its end**: every turn leaves it less to do. -/
theorem Reached.ends {sweep : Sweep} (reached : Reached text pairs sweep) :
    ∃ last, ComesTo text sweep last ∧ last.heap = [] := by
  by_cases empty : sweep.heap = []
  · exact ⟨sweep, Relation.ReflTransGen.refl, empty⟩
  obtain ⟨after, turned, advances⟩ := reached.onward empty
  have lighter := advances.weight
  obtain ⟨last, turns, emptied⟩ := (reached.turn turned).ends
  exact ⟨last, turns.head turned, emptied⟩
termination_by weight (utf8Len text) sweep.heap

/-- **The loop over bytes is safe.**  Whatever it comes to, every offset in the heap is that of its
slot, every slot is in the heap once at most, the cursor and the offsets of all slots are in the
text and cut no character in two.  As long as the heap is not empty, the next turn has all its slots
and slices.  It does not move the cursor back, and either is done with the slot that it pops, for
good, or puts it back further on, but not after the end of the text.  So the heap is empty in the
end.  Then the rest of the text can be written, and what is written is the substitution. -/
theorem isSafe (text : List Char) (pairs : List (List Char × List Char)) : IsSafe text pairs where
  sound reached := by
    obtain ⟨cursor, queue, follows, -⟩ := reached.follows
    exact follows.sound
  onward reached busy := by
    obtain ⟨after, turned, -⟩ := reached.onward busy
    exact ⟨after, turned⟩
  advances reached turned := reached.advances turned
  retired reached turns gone mem := gone (reached.mem_numbers turns mem)
  finished {sweep} reached empty := by
    obtain ⟨cursor, queue, follows, written⟩ := reached.follows
    obtain rfl : queue = [] := List.map_eq_nil_iff.1 (follows.heap.symm.trans empty)
    rw [finish?, follows.position, fromByte?_byteAt, ← written, drain]
    rfl
  ends := Reached.start.ends

end

end Sweep

end Phrasebook.Text
