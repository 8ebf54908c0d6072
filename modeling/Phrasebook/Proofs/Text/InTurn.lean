import Phrasebook.Proofs.Text.Needles

/-!
# Replacing needles one after the other

`replaceAll` makes all replacements in one pass, so what it writes is never looked at again.
Replacing the needles one after the other, each by a pass of its own, is another thing: a later pass
goes over what the earlier ones have written, and over places where written text meets text that was
there before.

The two agree where no pass can make a needle or break one.  That is so for a text put together from
`Piece`s, texts without braces and needles of names without braces, if what is written has no braces
either: a pass then turns the pieces with its name into text and leaves the others alone, so the
text is still one of pieces afterwards (`scan_textOf`).

A pass is the `String.replace` of the standard library, which is a search of its own.  It is brought
to the same ground as the one pass for all by `toList_replace`: it writes the scan of a single pair.

## Main statement

`replaceAll_eq_foldl_replace`: for a text of pieces the one pass writes what the passes in turn
write, in whatever order they are made.
-/

namespace Phrasebook.Text

open String.Slice.Pattern String.Slice.Pattern.Model Engine

/-! ## One pass for one needle -/

section OnePass

variable {text : String.Slice} {wanted output : String}

/-- What a step of a search adds to what has been written: the replacement for a match, and
otherwise what was passed over. -/
def writeStep (output written : String) : SearchStep text → String
  | .matched _ _ => written ++ output
  | .rejected start stop => written ++ text.slice! start stop

/-- Where a search passes over a stretch of text, the needle begins nowhere in the stretch. -/
theorem matchAt?_passed {start stop : text.Pos} {before passed after : String}
    (unmatched : ∀ pos, start ≤ pos → pos < stop → ¬ MatchesAt wanted pos)
    (atStart : start.Splits before (passed ++ after))
    (atStop : stop.Splits (before ++ passed) after) :
    ∀ i < passed.toList.length,
      matchAt? ((passed ++ after).toList.drop i) [(wanted.toList, output.toList)] = none := by
  intro i inside
  refine matchAt?_eq_none_iff.2 fun pair supplied applies => ?_
  obtain rfl := List.mem_singleton.1 supplied
  obtain ⟨following, begins⟩ : wanted.toList <+: (passed ++ after).toList.drop i := applies.2
  obtain ⟨front, back, rfl, rfl⟩ :
      ∃ front back, passed = front ++ back ∧ front.toList.length = i := by
    refine ⟨.ofList (passed.toList.take i), .ofList (passed.toList.drop i), ?_, ?_⟩
    · rw [← String.ofList_append, List.take_append_drop, String.ofList_toList]
    · rw [String.toList_ofList, List.length_take_of_le inside.le]
  have backNonempty : back ≠ "" := by
    rintro rfl
    simp at inside
  have rest : back ++ after = wanted ++ String.ofList following := by
    rw [String.append_assoc, String.toList_append, List.drop_left] at begins
    rw [← String.toList_inj, ← begins, String.toList_append, String.toList_ofList]
  -- The place of the needle is a position of the text, before the end of the stretch.
  have whole : text.copy = (before ++ front) ++ (back ++ after) := by
    rw [atStart.eq_append]
    simp only [String.append_assoc]
  have here := String.Slice.Pos.splits_ofEqAppend whole
  refine unmatched (.ofEqAppend whole) ?_ ?_ ?_
  · exact (atStart.le_iff_exists_eq_append here).2 ⟨front, rfl, String.append_assoc⟩
  · exact (here.lt_iff_exists_eq_append atStop).2
      ⟨back, backNonempty, String.append_assoc.symm, rfl⟩
  · exact ForwardStringSearcher.matchesAt_iff_splits.2
      ⟨before ++ front, String.ofList following, rest ▸ here⟩

/-- The steps of a search write the scan of what is left of the text. -/
theorem toList_foldl_writeStep (nonempty : wanted ≠ "") {position : text.Pos}
    {steps : List (SearchStep text)} (search : IsValidSearchFrom wanted position steps)
    (written : String) {before after : String} (split : position.Splits before after) :
    (steps.foldl (writeStep output) written).toList =
      written.toList ++ scan [(wanted.toList, output.toList)] after.toList := by
  induction search generalizing written before after with
  | endPos =>
    obtain rfl : after = "" := split.eq_endPos_iff.1 rfl
    simp
  | @matched steps start stop isMatch _ ih =>
    obtain ⟨front, following, atStart, atStop⟩ :=
      ForwardStringSearcher.isLongestMatchAt_iff_splits.1 isMatch
    obtain rfl : after = wanted ++ following := split.eq_right atStart
    have found : matchAt? (wanted ++ following).toList [(wanted.toList, output.toList)] =
        some (wanted.toList, output.toList) := by
      refine matchAt?_eq_some_of_unique List.mem_cons_self ⟨by simpa using nonempty, ?_⟩ ?_
      · rw [String.toList_append]
        exact List.prefix_append _ _
      · exact fun other supplied _ => List.mem_singleton.1 supplied
    rw [List.foldl_cons, ih _ atStop, scan_of_matchAt?_eq_some found, writeStep,
      String.toList_append, String.toList_append, List.drop_left, List.append_assoc]
  | @mismatched steps start stop forward unmatched _ ih =>
    have atStop := stop.splits
    generalize (text.sliceTo stop).copy = upTo, (text.sliceFrom stop).copy = onward at atStop
    obtain ⟨passed, -, rfl, rfl⟩ := (split.lt_iff_exists_eq_append atStop).1 forward
    have slice : (text.slice! start stop).copy = passed := by
      obtain ⟨ordered, copied⟩ :=
        String.Slice.copy_slice_eq_iff_splits.2 ⟨before, onward, split, atStop⟩
      have safe : text.slice start stop ordered = text.slice! start stop :=
        String.Slice.slice_eq_slice!
      rw [← safe, copied]
    have quiet : ∀ i < passed.toList.length,
        matchAt? ((passed ++ onward).toList.drop i) [(wanted.toList, output.toList)] = none :=
      matchAt?_passed unmatched split atStop
    rw [List.foldl_cons, ih _ atStop, scan_eq_take_append quiet, writeStep, String.appendSlice_eq,
      slice, String.toList_append, String.toList_append, List.take_left, List.drop_left,
      List.append_assoc]

/-- **A pass for one needle writes the scan of one pair.** -/
theorem toList_replace (nonempty : wanted ≠ "") (text output : String) :
    (text.replace wanted output).toList =
      scan [(wanted.toList, output.toList)] text.toList := by
  have search := (ForwardStringSearcher.lawfulToForwardSearcherModel
    nonempty).isValidSearchFrom_toList text.toSlice
  have written : text.replace wanted output =
      (ToForwardSearcher.toSearcher wanted text.toSlice).toList.foldl (writeStep output) "" := by
    rw [String.replace, String.Slice.replace, ← Std.Iter.foldl_toList]
    congr 1
    funext written step
    cases step with
    | matched start stop =>
      show written ++ output.toSlice = written ++ output
      rw [String.appendSlice_eq, String.copy_toSlice]
    | rejected start stop => rfl
  rw [written, toList_foldl_writeStep nonempty search "" text.toSlice.splits_startPos]
  simp

end OnePass

/-! ## Texts of pieces -/

/-- A text without braces. -/
abbrev Unbraced := { text : String // ∀ c ∈ text.toList, c ≠ '{' ∧ c ≠ '}' }

/-- A piece of a text: literal text, or the needle of a name, neither with further braces. -/
inductive Piece where
  | literal (text : Unbraced)
  | slot (name : Unbraced)

namespace Piece

/-- The characters of a piece. -/
def source : Piece → String
  | literal text => text
  | slot name => needle name

/-- What becomes of a piece when names are replaced: the needle of a name becomes the text that
replaces it. -/
def fill (bindings : List (Unbraced × Unbraced)) : Piece → Piece
  | literal text => literal text
  | slot name => ((Dict.lookup name bindings).map literal).getD (slot name)

end Piece

/-- The text that pieces make up. -/
def textOf (pieces : List Piece) : String := String.join (pieces.map Piece.source)

@[simp]
theorem toList_textOf_nil : (textOf []).toList = [] := by simp [textOf]

@[simp]
theorem toList_textOf_cons (piece : Piece) (rest : List Piece) :
    (textOf (piece :: rest)).toList = piece.source.toList ++ (textOf rest).toList := by
  simp [textOf]

/-! ## A scan of pieces -/

variable (bindings : List (Unbraced × Unbraced))

/-- The pairs that replace the needles of names. -/
def fillings : List (List Char × List Char) :=
  needlePairs (bindings.map fun binding => (binding.1.val, binding.2.val))

theorem mem_fillings_iff {pair : List Char × List Char} :
    pair ∈ fillings bindings ↔
      ∃ binding ∈ bindings, ((needle binding.1).toList, binding.2.val.toList) = pair := by
  simp [fillings, needlePairs]

/-- Within a stretch without opening braces no needle begins. -/
theorem matchAt?_unopened {stretch : List Char} (unopened : ∀ c ∈ stretch, c ≠ '{')
    (after : List Char) :
    ∀ i < stretch.length, matchAt? ((stretch ++ after).drop i) (fillings bindings) = none := by
  intro i inside
  refine matchAt?_eq_none_iff.2 fun pair supplied applies => ?_
  obtain ⟨binding, -, rfl⟩ := (mem_fillings_iff bindings).1 supplied
  have begins : (needle binding.1).toList <+: (stretch ++ after).drop i := applies.2
  rw [toList_needle, List.drop_append_of_le_length inside.le, List.drop_eq_getElem_cons inside,
    List.cons_append, List.cons_append, List.cons_prefix_cons] at begins
  exact unopened _ (List.getElem_mem inside) begins.1.symm

/-- At the needle of a name, the first pair of this name wins. -/
theorem matchAt?_needle (name : Unbraced) (after : List Char) :
    matchAt? ((needle name).toList ++ after) (fillings bindings) =
      (Dict.lookup name bindings).map fun output => ((needle name).toList, output.val.toList) := by
  have closed : ∀ text : Unbraced, '}' ∉ text.val.toList := fun text mem =>
    (text.property _ mem).2 rfl
  induction bindings with
  | nil => rfl
  | cons binding rest ih =>
    obtain ⟨bound, output⟩ := binding
    rw [matchAt?_eq_find?] at ih ⊢
    show (((needle bound).toList, output.val.toList) :: fillings rest).find? _ = _
    by_cases same : bound = name
    · subst same
      have applies : Applies ((needle bound).toList, output.val.toList)
          ((needle bound).toList ++ after) := ⟨by simp, List.prefix_append _ _⟩
      rw [List.find?_cons_of_pos (by simpa using applies), Dict.lookup, if_pos rfl]
      rfl
    · have misses : ¬ Applies ((needle bound).toList, output.val.toList)
          ((needle name).toList ++ after) := fun applies => same <| Subtype.ext <|
        eq_of_needle_begins (closed bound) (closed name) applies.2 (List.prefix_append _ _)
      rw [List.find?_cons_of_neg (by simpa using misses), ih, Dict.lookup, if_neg same]

/-- The needle of a name that is not replaced is copied. -/
theorem scan_needle_append {name : Unbraced} (unbound : Dict.lookup name bindings = none)
    (after : List Char) :
    scan (fillings bindings) ((needle name).toList ++ after) =
      (needle name).toList ++ scan (fillings bindings) after := by
  have here := matchAt?_needle bindings name after
  have unopened : ∀ c ∈ name.val.toList ++ ['}'], c ≠ '{' := by
    intro c mem
    rcases List.mem_append.1 mem with mem | mem
    · exact (name.property c mem).1
    · obtain rfl := List.mem_singleton.1 mem
      decide
  have onward := matchAt?_unopened bindings unopened after
  rw [unbound, toList_needle, List.cons_append, List.cons_append] at here
  rw [toList_needle, List.cons_append, List.cons_append, scan_cons_of_matchAt?_eq_none here,
    scan_eq_take_append onward, List.take_left, List.drop_left, List.cons_append]

/-- **A scan fills the pieces of a text**, and what it writes is a text of pieces again. -/
theorem scan_textOf (pieces : List Piece) :
    scan (fillings bindings) (textOf pieces).toList =
      (textOf (pieces.map (Piece.fill bindings))).toList := by
  induction pieces with
  | nil => simp
  | cons piece rest ih =>
    rw [List.map_cons, toList_textOf_cons, toList_textOf_cons]
    cases piece with
    | literal text =>
      have unopened : ∀ c ∈ text.val.toList, c ≠ '{' := fun c mem => (text.property c mem).1
      rw [Piece.source, scan_eq_take_append (matchAt?_unopened bindings unopened _),
        List.take_left, List.drop_left, ih]
      rfl
    | slot name =>
      have here := matchAt?_needle bindings name (textOf rest).toList
      cases bound : Dict.lookup name bindings with
      | none =>
        rw [Piece.source, scan_needle_append bindings bound, ih, Piece.fill, bound]
        rfl
      | some output =>
        rw [bound] at here
        rw [Piece.source, scan_of_matchAt?_eq_some here, List.drop_left, ih, Piece.fill, bound]
        rfl

/-! ## One pass for all, and one after the other -/

/-- One pass for all names fills the pieces of a text. -/
theorem replaceAll_textOf (pieces : List Piece) :
    replaceAll (textOf pieces)
        (bindings.map fun binding => (needle binding.1, binding.2.val)) =
      textOf (pieces.map (Piece.fill bindings)) := by
  have pairs : (bindings.map fun binding => (needle binding.1, binding.2.val)) =
      (bindings.map fun binding => (binding.1.val, binding.2.val)).map
        fun binding => (needle binding.1, binding.2) := by
    rw [List.map_map]
    rfl
  rw [← String.toList_inj, pairs, toList_replaceAll_needle]
  exact scan_textOf bindings pieces

/-- One pass for one name fills the pieces with this name. -/
theorem replace_textOf (name output : Unbraced) (pieces : List Piece) :
    (textOf pieces).replace (needle name) output.val =
      textOf (pieces.map (Piece.fill [(name, output)])) := by
  have nonempty : needle name ≠ "" := by
    rw [ne_eq, ← String.toList_inj, toList_needle]
    simp
  rw [← String.toList_inj, toList_replace nonempty]
  exact scan_textOf [(name, output)] pieces

/-- Filling a piece for the first name and then for the others is filling it for all. -/
theorem Piece.fill_cons (binding : Unbraced × Unbraced) (piece : Piece) :
    (piece.fill [binding]).fill bindings = piece.fill (binding :: bindings) := by
  obtain ⟨bound, output⟩ := binding
  cases piece with
  | literal text => rfl
  | slot name =>
    by_cases same : bound = name
    · simp [Piece.fill, Dict.lookup, same]
    · simp [Piece.fill, Dict.lookup, same]

/-- The passes in turn fill the pieces of a text. -/
theorem foldl_replace_textOf (pieces : List Piece) :
    bindings.foldl (fun text binding => text.replace (needle binding.1) binding.2.val)
        (textOf pieces) =
      textOf (pieces.map (Piece.fill bindings)) := by
  -- Each pass leaves other pieces behind, so the induction is for all of them.
  induction bindings generalizing pieces with
  | nil =>
    have unfilled : Piece.fill [] = id := by
      funext piece
      cases piece <;> rfl
    rw [List.foldl_nil, unfilled, List.map_id]
  | cons binding rest ih =>
    have filled : Piece.fill rest ∘ Piece.fill [binding] = Piece.fill (binding :: rest) :=
      funext (Piece.fill_cons rest binding)
    rw [List.foldl_cons, replace_textOf, ih, List.map_map, filled]

/-- **One pass for all is as good as the passes in turn.**  A text is made of texts without braces
and of needles of names without braces, whether these are replaced or not.  Replacing the needles of
different names by texts without braces in one pass then gives the same as replacing one needle
everywhere, then the next in what has come of that, and so on, in whatever order the names are
taken. -/
theorem replaceAll_eq_foldl_replace (pieces : List Piece)
    {bindings order : List (Unbraced × Unbraced)} (distinct : (bindings.map Prod.fst).Nodup)
    (perm : order.Perm bindings) :
    replaceAll (textOf pieces) (bindings.map fun binding => (needle binding.1, binding.2.val)) =
      order.foldl (fun text binding => text.replace (needle binding.1) binding.2.val)
        (textOf pieces) := by
  have sameFill : Piece.fill bindings = Piece.fill order := by
    funext piece
    cases piece with
    | literal text => rfl
    | slot name => rw [Piece.fill, Piece.fill, Dict.lookup_eq_of_perm perm.symm distinct name]
  rw [replaceAll_textOf, foldl_replace_textOf, sameFill]

/-- A name that is replaced by the other one. -/
def leftName : Unbraced := ⟨"left", by simp⟩

@[inherit_doc leftName]
def rightName : Unbraced := ⟨"right", by simp⟩

/-- Each of two names is replaced by the other. -/
def crossing : List (Unbraced × Unbraced) := [(leftName, rightName), (rightName, leftName)]

/-- Pieces whose needles stand next to one another and to text.  The empty name is not replaced. -/
def crossed : List Piece :=
  [.slot leftName, .slot rightName, .literal rightName, .slot ⟨"", by simp⟩, .slot leftName]

theorem replaceAll_eq_foldl_replace_crossing :
    (crossing.map Prod.fst).Nodup ∧ crossing.reverse.Perm crossing ∧
      replaceAll (textOf crossed)
          (crossing.map fun binding => (needle binding.1, binding.2.val)) =
        crossing.reverse.foldl (fun text binding => text.replace (needle binding.1) binding.2.val)
          (textOf crossed) ∧
      textOf crossed = "{left}{right}right{}{left}" ∧
      textOf (crossed.map (Piece.fill crossing)) = "rightleftright{}right" := by
  have distinct : (crossing.map Prod.fst).Nodup := by decide +kernel
  have perm : crossing.reverse.Perm crossing := List.reverse_perm crossing
  exact ⟨distinct, perm, replaceAll_eq_foldl_replace crossed distinct perm, by decide +kernel,
    by decide +kernel⟩

end Phrasebook.Text
