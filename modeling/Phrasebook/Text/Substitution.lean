import Phrasebook.Text.Occurrence

/-!
# Replacing many needles in one pass

`substituteM` replaces every occurrence of every needle of a list of pairs, in one scan from left
to right.  Occurrences are taken in order of position; of two needles that begin at the same
position the one supplied first is taken; an occurrence that begins inside text already taken is
skipped; what was written is never scanned again.  Empty needles are ignored.

## Main definitions

- `Sighting` is a needle together with a position of the text at which it occurs.
- `Pending` adds what to write there and the rank of the needle among those supplied.
- `drain` takes the pending replacements from a queue ordered by position and rank.  A sighting
  that the cursor has passed is looked up again only when it reaches the head of the queue.
- `scan` states the same replacement position by position, without a queue.

## Design notes

A sighting carries the proof that its needle occurs where it says.  So every slice that `drain`
takes is in range, and each step either drops a pending replacement for good or moves it to the
right, which is why `drain` ends.
-/

namespace Phrasebook.Text

/-- A non-empty needle and a position of `text` at which it occurs. -/
structure Sighting (text : List Char) where
  needle : List Char
  start : Nat
  needle_ne_nil : needle ≠ []
  isPrefix : needle <+: text.drop start

namespace Sighting

variable {text : List Char}

/-- The position just after the occurrence. -/
def stop (s : Sighting text) : Nat := s.start + s.needle.length

theorem needle_length_pos (s : Sighting text) : 0 < s.needle.length :=
  List.length_pos_iff.2 s.needle_ne_nil

theorem start_lt_stop (s : Sighting text) : s.start < s.stop :=
  Nat.lt_add_of_pos_right s.needle_length_pos

/-- An occurrence lies inside the text. -/
theorem stop_le_length (s : Sighting text) : s.stop ≤ text.length := by
  have := s.isPrefix.length_le
  have := s.needle_length_pos
  rw [List.length_drop] at *
  unfold stop
  omega

theorem start_lt_length (s : Sighting text) : s.start < text.length :=
  Nat.lt_of_lt_of_le s.start_lt_stop s.stop_le_length

end Sighting

/-- The first sighting of a non-empty needle at or after `position`. -/
def sight? (text needle : List Char) (position : Nat) : Option (Sighting text) :=
  if nonempty : needle ≠ [] then
    match found : firstOccurrenceFrom needle text position with
    | some i => some ⟨needle, i, nonempty, (prefix_of_firstOccurrenceFrom found).2⟩
    | none => none
  else none

theorem le_start_of_sight? {text needle : List Char} {position : Nat} {s : Sighting text}
    (seen : sight? text needle position = some s) : position ≤ s.start := by
  unfold sight? at seen
  split at seen
  · split at seen
    · rename_i found
      cases seen
      exact (prefix_of_firstOccurrenceFrom found).1
    · cases seen
  · cases seen

theorem needle_of_sight? {text needle : List Char} {position : Nat} {s : Sighting text}
    (seen : sight? text needle position = some s) : s.needle = needle := by
  unfold sight? at seen
  split at seen
  · split at seen
    · cases seen
      rfl
    · cases seen
  · cases seen

/-- A replacement still to be made: where its needle occurs next, its rank among the needles
supplied, and what to write. -/
structure Pending (text : List Char) where
  sighting : Sighting text
  rank : Nat
  output : List Char

namespace Pending

variable {text : List Char}

/-- The queue's order: by position, then by rank. -/
def before (p q : Pending text) : Bool :=
  p.sighting.start < q.sighting.start ||
    (p.sighting.start == q.sighting.start && p.rank ≤ q.rank)

/-- The distance from the occurrence to the end of the text. -/
def remaining (p : Pending text) : Nat := text.length - p.sighting.start

theorem remaining_pos (p : Pending text) : 0 < p.remaining :=
  Nat.sub_pos_of_lt p.sighting.start_lt_length

/-- The same replacement at the needle's first occurrence at or after `position`. -/
def advance? (p : Pending text) (position : Nat) : Option (Pending text) :=
  (sight? text p.sighting.needle position).map fun s => { p with sighting := s }

/-- Advancing past the current occurrence brings the replacement closer to the end. -/
theorem remaining_lt_of_advance? {p q : Pending text} {position : Nat}
    (later : p.sighting.start < position) (advanced : p.advance? position = some q) :
    q.remaining < p.remaining := by
  obtain ⟨s, seen, rfl⟩ := Option.map_eq_some_iff.1 advanced
  have := le_start_of_sight? seen
  have := s.start_lt_length
  unfold remaining
  simp only
  omega

end Pending

variable {text : List Char}

/-- Puts a pending replacement into its place in an ordered queue. -/
def enqueue (p : Pending text) : List (Pending text) → List (Pending text)
  | [] => [p]
  | q :: rest => if p.before q then p :: q :: rest else q :: enqueue p rest

/-- Puts a pending replacement, if there still is one, into an ordered queue. -/
def enqueue? (p? : Option (Pending text)) (queue : List (Pending text)) : List (Pending text) :=
  match p? with
  | some p => enqueue p queue
  | none => queue

/-- What bounds the steps that a queue still takes. -/
def remainingIn : List (Pending text) → Nat
  | [] => 0
  | p :: rest => p.remaining + remainingIn rest

@[simp]
theorem remainingIn_cons (p : Pending text) (queue : List (Pending text)) :
    remainingIn (p :: queue) = p.remaining + remainingIn queue := rfl

@[simp]
theorem remainingIn_enqueue (p : Pending text) :
    (queue : List (Pending text)) → remainingIn (enqueue p queue) = remainingIn (p :: queue)
  | [] => rfl
  | q :: rest => by
    by_cases h : p.before q
    · simp [enqueue, h]
    · simp only [enqueue, h, Bool.false_eq_true, if_false, remainingIn_cons,
        remainingIn_enqueue p rest]
      omega

/-- A step that advances the head of the queue, or drops it, leaves less to do. -/
theorem remainingIn_enqueue?_advance? (p : Pending text) (queue : List (Pending text))
    {position : Nat} (later : p.sighting.start < position) :
    remainingIn (enqueue? (p.advance? position) queue) < remainingIn (p :: queue) := by
  cases advanced : p.advance? position with
  | none =>
    have := p.remaining_pos
    simp only [enqueue?, remainingIn_cons]
    omega
  | some q =>
    have := Pending.remaining_lt_of_advance? later advanced
    simp only [enqueue?, remainingIn_enqueue, remainingIn_cons]
    omega

/-- Writes the text from `position` on, with the pending replacements of an ordered queue made. -/
def drain (text : List Char) (position : Nat) (queue : List (Pending text)) : List Char :=
  match queue with
  | [] => text.drop position
  | p :: rest =>
    if _passed : p.sighting.start < position then
      drain text position (enqueue? (p.advance? position) rest)
    else
      (text.drop position).take (p.sighting.start - position) ++ p.output ++
        drain text p.sighting.stop (enqueue? (p.advance? p.sighting.stop) rest)
termination_by remainingIn queue
decreasing_by
  · exact remainingIn_enqueue?_advance? p rest _passed
  · exact remainingIn_enqueue?_advance? p rest p.sighting.start_lt_stop

/-- The queue of the rendered sightings, ranked in the order in which they are given. -/
def queueOf : Nat → List (Sighting text × List Char) → List (Pending text)
  | _, [] => []
  | rank, (s, output) :: rest => enqueue ⟨s, rank, output⟩ (queueOf (rank + 1) rest)

/-- The pairs whose needle is not empty and occurs in the text, with its first sighting. -/
def sightings {α : Type} (text : List Char) (pairs : List (List Char × α)) :
    List (Sighting text × α) :=
  pairs.filterMap fun pair => (sight? text pair.1 0).map fun s => (s, pair.2)

/-- Replaces every occurrence of every needle of `pairs` in `text`, in one scan from left to right.
`render` is run once for each pair whose needle is not empty and occurs in the text, in the order
of the pairs, and for no other. -/
def substituteM {m : Type → Type} [Monad m] {α : Type} (render : α → m (List Char))
    (text : List Char) (pairs : List (List Char × α)) : m (List Char) := do
  let rendered ← (sightings text pairs).mapM fun (s, value) => do
    let output ← render value
    pure (s, output)
  pure (drain text 0 (queueOf 0 rendered))

/-- `substituteM` with a pure `render`. -/
def substitute {α : Type} (render : α → List Char) (text : List Char)
    (pairs : List (List Char × α)) : List Char :=
  Id.run (substituteM (fun value => pure (render value)) text pairs)

/-- The first pair whose needle is not empty and begins `text`. -/
def matchAt? (text : List Char) : List (List Char × List Char) → Option (List Char × List Char)
  | [] => none
  | (needle, output) :: rest =>
    if needle ≠ [] ∧ needle.isPrefixOf text then some (needle, output) else matchAt? text rest

theorem needle_ne_nil_of_matchAt? {text needle output : List Char} :
    {pairs : List (List Char × List Char)} → matchAt? text pairs = some (needle, output) →
      needle ≠ []
  | (n, o) :: rest, found => by
    rw [matchAt?] at found
    split at found
    · rename_i h
      cases found
      exact h.1
    · exact needle_ne_nil_of_matchAt? found

/-- The same replacement, said position by position: where a needle begins, the output of the first
supplied one is written and the scan goes on after the needle; elsewhere one character is copied. -/
def scan (pairs : List (List Char × List Char)) (text : List Char) : List Char :=
  match text with
  | [] => []
  | c :: rest =>
    match _found : matchAt? (c :: rest) pairs with
    | some (needle, output) => output ++ scan pairs ((c :: rest).drop needle.length)
    | none => c :: scan pairs rest
termination_by text.length
decreasing_by
  · have := List.length_pos_iff.2 (needle_ne_nil_of_matchAt? _found)
    simp only [List.length_drop, List.length_cons]
    omega
  · simp

/-- `substitute` on strings. -/
def replaceAll (text : String) (pairs : List (String × String)) : String :=
  String.ofList <| substitute String.toList text.toList
    (pairs.map fun pair => (pair.1.toList, pair.2))

end Phrasebook.Text
