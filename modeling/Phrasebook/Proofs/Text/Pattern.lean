import Phrasebook.Dict
import Phrasebook.Proofs.Text.Slices

/-!
# Patterns with named groups

A pattern says which texts match it.  It also says how: groups inside of it have names, and a match
tells the span of each group that took part in it, in bytes.  One text may match in many ways.  The
ways have an order of preference: of two alternatives the first one is preferred, what may be there
is preferred to its absence, and a longer run is preferred to a shorter one.  A search takes the
first place at which there is a match, and there the way that is preferred to all others.

## Main definitions

- `Pattern` is a pattern, and `Pattern.Accepts` says which texts match it, with which groups.
- `Pattern.AreMatches` are matches in a text, in order and apart.
- `Pattern.ways` are the ways to match at a place, in order of preference, and `Pattern.Prefers` is
  about the first of them.
- `Pattern.findAll` are the matches that are found in a text, one after the other.

## Main statements

- `Pattern.exists_word_of_mem_ways`: a way to match goes over a text that the pattern accepts.
- `Pattern.areMatches_findAll`: what is found are matches in order and apart.
- `Pattern.Prefers.andThen` and others put preferred ways together.
-/

namespace Phrasebook.Text

open String (utf8Len utf8Len_append)

/-! ## Places and classes -/

/-- A part of a text, from one byte to another. -/
structure Span where
  start : Nat
  stop : Nat
  deriving DecidableEq, Repr

/-- The span of a piece of text that is at an offset. -/
def Span.over (offset : Nat) (piece : List Char) : Span := ⟨offset, offset + utf8Len piece⟩

/-- A place in a text: the number of bytes before it, and the characters after it. -/
structure Place where
  offset : Nat
  rest : List Char

/-- The place after some of the characters. -/
def Place.after (place : Place) (word rest : List Char) : Place :=
  ⟨place.offset + utf8Len word, rest⟩

/-- A class of characters, by the ranges that are in it or, if it is negated, that are not. -/
structure CharClass where
  ranges : List (Char × Char)
  negated : Bool := false

namespace CharClass

/-- Whether a character is in a class. -/
def accepts (among : CharClass) (c : Char) : Bool :=
  (among.ranges.any fun range => range.1 ≤ c && c ≤ range.2) != among.negated

/-- The class of the characters of a list. -/
def oneOf (chars : List Char) : CharClass := { ranges := chars.map fun c => (c, c) }

/-- The class of all other characters. -/
def noneOf (chars : List Char) : CharClass := { oneOf chars with negated := true }

theorem accepts_oneOf {chars : List Char} {c : Char} :
    (oneOf chars).accepts c = true ↔ c ∈ chars := by
  simp [accepts, oneOf, ← le_antisymm_iff]

theorem accepts_noneOf {chars : List Char} {c : Char} :
    (noneOf chars).accepts c = true ↔ c ∉ chars := by
  rw [← accepts_oneOf, Bool.not_eq_true]
  simp [accepts, oneOf, noneOf]

end CharClass

/-! ## Patterns -/

/-- A pattern, with names for its groups. -/
inductive Pattern (γ : Type) where
  | empty
  | one (among : CharClass)
  | oneOrMore (among : CharClass)
  | maybe (part : Pattern γ)
  | andThen (first second : Pattern γ)
  | orElse (first second : Pattern γ)
  | group (name : γ) (part : Pattern γ)

/-- A way to match a pattern: the spans of its groups, and where the match stops. -/
structure Way (γ : Type) where
  groups : List (γ × Span)
  stop : Place

/-- A match in a text: its span, and those of its groups. -/
structure Match (γ : Type) where
  whole : Span
  groups : List (γ × Span)

/-- The span of a group, if it took part in a match. -/
def Match.span? {γ : Type} [DecidableEq γ] (found : Match γ) (name : γ) : Option Span :=
  Dict.lookup name found.groups

namespace Pattern

variable {γ : Type}

/-- A number of characters of a class. -/
def times (among : CharClass) : Nat → Pattern γ
  | 0 => empty
  | n + 1 => andThen (one among) (times among n)

/-- **The texts that match a pattern** at an offset, with the spans that the groups then have. -/
def Accepts : Pattern γ → Nat → List Char → List (γ × Span) → Prop
  | empty, _, word, groups => word = [] ∧ groups = []
  | one among, _, word, groups => (∃ c, word = [c] ∧ among.accepts c = true) ∧ groups = []
  | oneOrMore among, _, word, groups =>
    (word ≠ [] ∧ ∀ c ∈ word, among.accepts c = true) ∧ groups = []
  | maybe part, offset, word, groups =>
    (word = [] ∧ groups = []) ∨ part.Accepts offset word groups
  | andThen first second, offset, word, groups =>
    ∃ front back inFront inBack, word = front ++ back ∧ groups = inFront ++ inBack ∧
      first.Accepts offset front inFront ∧ second.Accepts (offset + utf8Len front) back inBack
  | orElse first second, offset, word, groups =>
    first.Accepts offset word groups ∨ second.Accepts offset word groups
  | group name part, offset, word, groups =>
    ∃ inside, groups = (name, Span.over offset word) :: inside ∧ part.Accepts offset word inside

/-- The fewest characters of a match. -/
def least : Pattern γ → Nat
  | empty => 0
  | one _ => 1
  | oneOrMore _ => 1
  | maybe _ => 0
  | andThen first second => first.least + second.least
  | orElse first second => min first.least second.least
  | group _ part => part.least

/-- The places after the runs of a class, the longest run first.  A run is not empty. -/
def runs (among : CharClass) : Nat → List Char → List Place
  | _, [] => []
  | offset, c :: rest =>
    if among.accepts c then
      runs among (offset + c.utf8Size) rest ++ [⟨offset + c.utf8Size, rest⟩]
    else []

/-- **The ways to match a pattern at a place**, in order of preference. -/
def ways : Pattern γ → Place → List (Way γ)
  | empty, place => [⟨[], place⟩]
  | one _, ⟨_, []⟩ => []
  | one among, ⟨offset, c :: rest⟩ =>
    if among.accepts c then [⟨[], ⟨offset + c.utf8Size, rest⟩⟩] else []
  | oneOrMore among, place => (runs among place.offset place.rest).map fun stop => ⟨[], stop⟩
  | maybe part, place => part.ways place ++ [⟨[], place⟩]
  | andThen first second, place =>
    (first.ways place).flatMap fun way =>
      (second.ways way.stop).map fun further => ⟨way.groups ++ further.groups, further.stop⟩
  | orElse first second, place => first.ways place ++ second.ways place
  | group name part, place =>
    (part.ways place).map fun way =>
      ⟨(name, ⟨place.offset, way.stop.offset⟩) :: way.groups, way.stop⟩

/-- The match that begins at a place, and the place after it. -/
def match? (pattern : Pattern γ) (place : Place) : Option (Match γ × Place) :=
  (pattern.ways place).head?.map fun way =>
    (⟨⟨place.offset, way.stop.offset⟩, way.groups⟩, way.stop)

/-- The match that begins first, from a place on. -/
def find? (pattern : Pattern γ) : Nat → List Char → Option (Match γ × Place)
  | offset, [] => pattern.match? ⟨offset, []⟩
  | offset, c :: rest =>
    (pattern.match? ⟨offset, c :: rest⟩).or (pattern.find? (offset + c.utf8Size) rest)

/-! ## Ways go over accepted texts -/

theorem exists_word_of_mem_runs {among : CharClass} {stop : Place} :
    {offset : Nat} → {text : List Char} → stop ∈ runs among offset text →
      ∃ word, (word ≠ [] ∧ ∀ c ∈ word, among.accepts c = true) ∧ text = word ++ stop.rest ∧
        stop = Place.after ⟨offset, text⟩ word stop.rest
  | offset, [], mem => by cases mem
  | offset, c :: rest, mem => by
    rw [runs] at mem
    split at mem
    · rename_i accepted
      rcases List.mem_append.1 mem with mem | mem
      · obtain ⟨word, ⟨-, all⟩, same, place⟩ := exists_word_of_mem_runs mem
        refine ⟨c :: word, ⟨List.cons_ne_nil c word, List.forall_mem_cons.2 ⟨accepted, all⟩⟩,
          congrArg (c :: ·) same, place.trans ?_⟩
        simp [Place.after, Nat.add_assoc, Nat.add_comm (utf8Len word)]
      · obtain rfl := List.mem_singleton.1 mem
        exact ⟨[c], ⟨by simp, by simpa using accepted⟩, rfl, by simp [Place.after]⟩
    · cases mem

/-- **A way to match goes over a text that the pattern accepts**, and so do its groups. -/
theorem exists_word_of_mem_ways {pattern : Pattern γ} {place : Place} {way : Way γ}
    (mem : way ∈ pattern.ways place) :
    ∃ word, pattern.Accepts place.offset word way.groups ∧ place.rest = word ++ way.stop.rest ∧
      way.stop = place.after word way.stop.rest := by
  induction pattern generalizing place way with
  | empty =>
    obtain rfl := List.mem_singleton.1 mem
    exact ⟨[], ⟨rfl, rfl⟩, rfl, by simp [Place.after]⟩
  | one among =>
    obtain ⟨offset, text⟩ := place
    cases text with
    | nil => cases mem
    | cons c rest =>
      rw [ways] at mem
      split at mem
      · rename_i accepted
        obtain rfl := List.mem_singleton.1 mem
        exact ⟨[c], ⟨⟨c, rfl, accepted⟩, rfl⟩, rfl, by simp [Place.after]⟩
      · cases mem
  | oneOrMore among =>
    obtain ⟨stop, isStop, rfl⟩ := List.mem_map.1 mem
    obtain ⟨word, isRun, ends⟩ := exists_word_of_mem_runs isStop
    exact ⟨word, ⟨isRun, rfl⟩, ends⟩
  | maybe part ih =>
    rcases List.mem_append.1 mem with mem | mem
    · obtain ⟨word, accepts, ends⟩ := ih mem
      exact ⟨word, Or.inr accepts, ends⟩
    · obtain rfl := List.mem_singleton.1 mem
      exact ⟨[], Or.inl ⟨rfl, rfl⟩, rfl, by simp [Place.after]⟩
  | andThen first second ihFirst ihSecond =>
    obtain ⟨middle, isWay, onward⟩ := List.mem_flatMap.1 mem
    obtain ⟨further, isWayToo, rfl⟩ := List.mem_map.1 onward
    obtain ⟨front, accepts, text, stop⟩ := ihFirst isWay
    obtain ⟨back, acceptsToo, textToo, stopToo⟩ := ihSecond isWayToo
    have offset : middle.stop.offset = place.offset + utf8Len front := congrArg Place.offset stop
    rw [offset] at acceptsToo
    refine ⟨front ++ back, ⟨front, back, _, _, rfl, rfl, accepts, acceptsToo⟩, ?_, ?_⟩
    · rw [text, textToo, List.append_assoc]
    · refine stopToo.trans ?_
      rw [stop, Place.after, Place.after, Place.after, utf8Len_append, Nat.add_assoc]
  | orElse first second ihFirst ihSecond =>
    rcases List.mem_append.1 mem with mem | mem
    · obtain ⟨word, accepts, ends⟩ := ihFirst mem
      exact ⟨word, Or.inl accepts, ends⟩
    · obtain ⟨word, accepts, ends⟩ := ihSecond mem
      exact ⟨word, Or.inr accepts, ends⟩
  | group name part ih =>
    obtain ⟨inner, isWay, rfl⟩ := List.mem_map.1 mem
    obtain ⟨word, accepts, text, stop⟩ := ih isWay
    have span : (⟨place.offset, inner.stop.offset⟩ : Span) = Span.over place.offset word :=
      congrArg (Span.mk place.offset) (congrArg Place.offset stop)
    rw [span]
    exact ⟨word, ⟨inner.groups, rfl, accepts⟩, text, stop⟩

theorem Accepts.least_le {pattern : Pattern γ} {offset : Nat} {word : List Char}
    {groups : List (γ × Span)} (accepts : pattern.Accepts offset word groups) :
    pattern.least ≤ word.length := by
  induction pattern generalizing offset word groups with
  | empty => exact Nat.zero_le _
  | one among =>
    obtain ⟨⟨c, rfl, -⟩, -⟩ := accepts
    exact Nat.le_refl 1
  | oneOrMore among => exact List.length_pos_iff.2 accepts.1.1
  | maybe part => exact Nat.zero_le _
  | andThen first second ihFirst ihSecond =>
    obtain ⟨front, back, _, _, rfl, -, accepts, acceptsToo⟩ := accepts
    rw [least, List.length_append]
    exact Nat.add_le_add (ihFirst accepts) (ihSecond acceptsToo)
  | orElse first second ihFirst ihSecond =>
    rcases accepts with accepts | accepts
    · exact (Nat.min_le_left _ _).trans (ihFirst accepts)
    · exact (Nat.min_le_right _ _).trans (ihSecond accepts)
  | group name part ih =>
    obtain ⟨inside, -, accepts⟩ := accepts
    exact ih accepts

/-- A match of a pattern that does not match the empty text leaves less of the text. -/
theorem length_lt_of_match? {pattern : Pattern γ} (consuming : 0 < pattern.least) {place : Place}
    {found : Match γ × Place} (matched : pattern.match? place = some found) :
    found.2.rest.length < place.rest.length := by
  obtain ⟨way, first, rfl⟩ := Option.map_eq_some_iff.1 matched
  obtain ⟨word, accepts, text, -⟩ := exists_word_of_mem_ways (List.mem_of_mem_head? first)
  have nonempty := accepts.least_le
  rw [text, List.length_append]
  show way.stop.rest.length < _
  omega

theorem length_lt_of_find? {pattern : Pattern γ} (consuming : 0 < pattern.least)
    {found : Match γ × Place} :
    {offset : Nat} → {text : List Char} → pattern.find? offset text = some found →
      found.2.rest.length < text.length
  | offset, [], isFound => length_lt_of_match? consuming isFound
  | offset, c :: rest, isFound => by
    rw [find?, Option.or_eq_some_iff] at isFound
    rcases isFound with here | ⟨-, later⟩
    · exact length_lt_of_match? consuming here
    · exact Nat.lt_succ_of_lt (length_lt_of_find? consuming later)

/-- **The matches in a text, one after the other**: each begins first after the end of the one
before. -/
def findAll (pattern : Pattern γ) (consuming : 0 < pattern.least) (offset : Nat)
    (text : List Char) : List (Match γ) :=
  match _found : pattern.find? offset text with
  | none => []
  | some (found, next) => found :: findAll pattern consuming next.offset next.rest
termination_by text.length
decreasing_by exact length_lt_of_find? consuming _found

theorem findAll_eq (pattern : Pattern γ) (consuming : 0 < pattern.least) (offset : Nat)
    (text : List Char) :
    pattern.findAll consuming offset text =
      match pattern.find? offset text with
      | none => []
      | some (found, next) => found :: pattern.findAll consuming next.offset next.rest := by
  rw [findAll]
  split
  · rename_i none
    rw [none]
  · rename_i found
    rw [found]

/-- A match at the beginning of a text is the first one. -/
theorem findAll_of_match?_eq_some {pattern : Pattern γ} (consuming : 0 < pattern.least)
    {offset : Nat} {text : List Char} {found : Match γ} {next : Place}
    (matched : pattern.match? ⟨offset, text⟩ = some (found, next)) :
    pattern.findAll consuming offset text =
      found :: pattern.findAll consuming next.offset next.rest := by
  have first : pattern.find? offset text = some (found, next) := by
    cases text with
    | nil => exact matched
    | cons c rest => rw [find?, matched, Option.some_or]
  rw [findAll_eq, first]

/-- Where no match begins, the matches are those after the next character. -/
theorem findAll_of_match?_eq_none {pattern : Pattern γ} (consuming : 0 < pattern.least)
    {offset : Nat} {c : Char} {rest : List Char}
    (none : pattern.match? ⟨offset, c :: rest⟩ = none) :
    pattern.findAll consuming offset (c :: rest) =
      pattern.findAll consuming (offset + c.utf8Size) rest := by
  rw [findAll_eq, find?, none, Option.none_or, ← findAll_eq]

theorem findAll_nil {pattern : Pattern γ} (consuming : 0 < pattern.least) (offset : Nat) :
    pattern.findAll consuming offset [] = [] := by
  rw [findAll_eq]
  cases found : pattern.find? offset [] with
  | none => rfl
  | some _ => exact absurd (length_lt_of_find? consuming found) (Nat.not_lt_zero _)

/-! ## Matches in order -/

/-- Something that a pattern accepts, somewhere in a text. -/
def IsMatch (pattern : Pattern γ) (text : List Char) (found : Match γ) : Prop :=
  ∃ before word rest, text = before ++ (word ++ rest) ∧
    found.whole = Span.over (utf8Len before) word ∧
      pattern.Accepts (utf8Len before) word found.groups

/-- **Matches in a text, in order and apart**, from an offset on. -/
inductive AreMatches (pattern : Pattern γ) (text : List Char) : Nat → List (Match γ) → Prop
  | nil {index : Nat} : AreMatches pattern text index []
  | cons {index : Nat} {found : Match γ} {others : List (Match γ)}
      (ahead : index ≤ found.whole.start) (isMatch : pattern.IsMatch text found)
      (further : AreMatches pattern text found.whole.stop others) :
      AreMatches pattern text index (found :: others)

theorem isMatch_of_match? {pattern : Pattern γ} {text before : List Char} {place next : Place}
    {found : Match γ} (split : text = before ++ place.rest) (start : utf8Len before = place.offset)
    (matched : pattern.match? place = some (found, next)) :
    pattern.IsMatch text found ∧ found.whole = ⟨place.offset, next.offset⟩ ∧
      ∃ word, text = before ++ word ++ next.rest ∧ utf8Len (before ++ word) = next.offset := by
  obtain ⟨way, first, same⟩ := Option.map_eq_some_iff.1 matched
  obtain ⟨rfl, rfl⟩ := Prod.mk.inj same
  obtain ⟨word, accepts, rest, stop⟩ := exists_word_of_mem_ways (List.mem_of_mem_head? first)
  have ends : way.stop.offset = place.offset + utf8Len word := congrArg Place.offset stop
  rw [rest] at split
  rw [← start] at accepts
  refine ⟨⟨before, word, way.stop.rest, split, ?_, accepts⟩, rfl, word, ?_, ?_⟩
  · rw [start]
    exact congrArg (Span.mk place.offset) ends
  · rw [split, List.append_assoc]
  · rw [utf8Len_append, start, ends]

/-- **What is found one after the other are matches in order and apart.** -/
theorem areMatches_findAll {pattern : Pattern γ} (consuming : 0 < pattern.least)
    {text before rest : List Char} {index offset : Nat} (split : text = before ++ rest)
    (start : utf8Len before = offset) (le : index ≤ offset) :
    pattern.AreMatches text index (pattern.findAll consuming offset rest) := by
  cases matched : pattern.match? ⟨offset, rest⟩ with
  | some first =>
    obtain ⟨found, next⟩ := first
    obtain ⟨isMatch, whole, word, further, stop⟩ := isMatch_of_match? split start matched
    have shorter := length_lt_of_match? consuming matched
    rw [findAll_of_match?_eq_some consuming matched]
    refine .cons (by rw [whole]; exact le) isMatch ?_
    rw [whole]
    exact areMatches_findAll consuming further stop (Nat.le_refl _)
  | none =>
    cases rest with
    | nil =>
      rw [findAll_nil]
      exact .nil
    | cons c rest =>
      rw [findAll_of_match?_eq_none consuming matched]
      have further : text = (before ++ [c]) ++ rest := by rw [split, List.append_cons]
      refine areMatches_findAll consuming further ?_ (le.trans (Nat.le_add_right _ _))
      rw [utf8Len_append, start, String.utf8Len_cons, String.utf8Len_nil, Nat.zero_add]
termination_by rest.length

/-! ## Preferred ways -/

/-- **The way that is preferred** to all others at a place. -/
def Prefers (pattern : Pattern γ) (place : Place) (way : Way γ) : Prop :=
  (pattern.ways place).head? = some way

variable {pattern first second : Pattern γ} {place : Place} {way further : Way γ}

theorem Prefers.andThen (prefers : first.Prefers place way)
    (prefersToo : second.Prefers way.stop further) :
    (first.andThen second).Prefers place ⟨way.groups ++ further.groups, further.stop⟩ := by
  obtain ⟨others, isCons⟩ := List.head?_eq_some_iff.1 prefers
  obtain ⟨othersToo, isConsToo⟩ := List.head?_eq_some_iff.1 prefersToo
  rw [Prefers, ways, isCons, List.flatMap_cons, isConsToo]
  rfl

theorem Prefers.maybe (prefers : pattern.Prefers place way) :
    pattern.maybe.Prefers place way := by
  rw [Prefers, ways, List.head?_append, show (pattern.ways place).head? = some way from prefers]
  rfl

theorem Prefers.group (prefers : pattern.Prefers place way) (name : γ) :
    (pattern.group name).Prefers place
      ⟨(name, ⟨place.offset, way.stop.offset⟩) :: way.groups, way.stop⟩ := by
  rw [Prefers, ways, List.head?_map, show (pattern.ways place).head? = some way from prefers]
  rfl

theorem Prefers.orElse (prefers : first.Prefers place way) :
    (first.orElse second).Prefers place way := by
  rw [Prefers, ways, List.head?_append, show (first.ways place).head? = some way from prefers]
  rfl

theorem prefers_orElse_of_none (none : first.ways place = []) :
    (first.orElse second).Prefers place way ↔ second.Prefers place way := by
  rw [Prefers, ways, none]
  rfl

variable {among : CharClass}

theorem prefers_one {c : Char} (offset : Nat) (accepted : among.accepts c = true)
    (rest : List Char) :
    (one among : Pattern γ).Prefers ⟨offset, c :: rest⟩ ⟨[], ⟨offset + c.utf8Size, rest⟩⟩ := by
  rw [Prefers, ways, if_pos accepted]
  rfl

/-- A group of one character does not match where there is a character of another class. -/
theorem ways_group_one_eq_nil {c : Char} (name : γ) (offset : Nat)
    (refused : among.accepts c = false) (rest : List Char) :
    ((one among).group name).ways ⟨offset, c :: rest⟩ = [] := by
  rw [ways, ways, if_neg (by simp [refused]), List.map_nil]

/-- What may be there is left out where another character is. -/
theorem prefers_maybe_one_of_refused {c : Char} (offset : Nat)
    (refused : among.accepts c = false) (rest : List Char) :
    (one among : Pattern γ).maybe.Prefers ⟨offset, c :: rest⟩ ⟨[], ⟨offset, c :: rest⟩⟩ := by
  rw [Prefers, ways, ways, if_neg (by simp [refused])]
  rfl

/-- A run that may be there is left out where another character is. -/
theorem prefers_maybe_run_of_refused {c : Char} (name : γ) (offset : Nat)
    (refused : among.accepts c = false) (rest : List Char) :
    ((oneOrMore among).group name).maybe.Prefers ⟨offset, c :: rest⟩
      ⟨[], ⟨offset, c :: rest⟩⟩ := by
  rw [Prefers, ways, ways, ways, runs, if_neg (by simp [refused])]
  rfl

/-- Where a run of a class ends, the whole of it is preferred. -/
theorem prefers_oneOrMore {run : List Char} {stop : Char} (offset : Nat) (nonempty : run ≠ [])
    (all : ∀ c ∈ run, among.accepts c = true) (refused : among.accepts stop = false)
    (rest : List Char) :
    (oneOrMore among : Pattern γ).Prefers ⟨offset, run ++ stop :: rest⟩
      ⟨[], ⟨offset + utf8Len run, stop :: rest⟩⟩ := by
  rw [Prefers, ways, List.head?_map]
  suffices longest : (runs among offset (run ++ stop :: rest)).head? =
      some ⟨offset + utf8Len run, stop :: rest⟩ by
    rw [longest]
    rfl
  induction run generalizing offset with
  | nil => exact absurd rfl nonempty
  | cons c run ih =>
    obtain ⟨accepted, all⟩ := List.forall_mem_cons.1 all
    rw [List.cons_append, runs, if_pos accepted, List.head?_append]
    cases run with
    | nil => simp [runs, refused]
    | cons d run =>
      rw [ih (offset + c.utf8Size) (List.cons_ne_nil d run) all]
      simp [Nat.add_assoc, Nat.add_comm, Nat.add_left_comm]

/-- A number of characters of a class is matched where they are. -/
theorem prefers_times {run : List Char} (offset : Nat) (all : ∀ c ∈ run, among.accepts c = true)
    (rest : List Char) :
    (times among run.length : Pattern γ).Prefers ⟨offset, run ++ rest⟩
      ⟨[], ⟨offset + utf8Len run, rest⟩⟩ := by
  induction run generalizing offset with
  | nil => rfl
  | cons c run ih =>
    obtain ⟨accepted, all⟩ := List.forall_mem_cons.1 all
    refine ((prefers_one offset accepted _).andThen (ih _ all)).trans ?_
    simp [Nat.add_assoc, Nat.add_comm]

theorem accepts_times {count offset : Nat} {word : List Char} {groups : List (γ × Span)}
    (accepts : (times among count : Pattern γ).Accepts offset word groups) :
    (word.length = count ∧ ∀ c ∈ word, among.accepts c = true) ∧ groups = [] := by
  induction count generalizing offset word groups with
  | zero =>
    obtain ⟨rfl, rfl⟩ : word = [] ∧ groups = [] := accepts
    exact ⟨⟨rfl, by simp⟩, rfl⟩
  | succ count ih =>
    obtain ⟨_, rest, _, inRest, rfl, rfl, ⟨⟨c, rfl, accepted⟩, rfl⟩, acceptsRest⟩ := accepts
    obtain ⟨⟨length, all⟩, rfl⟩ := ih acceptsRest
    exact ⟨⟨congrArg (· + 1) length, List.forall_mem_cons.2 ⟨accepted, all⟩⟩, rfl⟩

end Pattern

end Phrasebook.Text
