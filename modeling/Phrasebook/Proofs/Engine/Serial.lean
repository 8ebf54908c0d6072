import Phrasebook.Proofs.Engine.Script

/-!
# Operations are served in turn

An operation is inside from entering to leaving, and nobody else is.  So while it is inside nothing
is published but by itself, and what it reads is what the operation before it has left.  That it may
wait for the source all that time, with lookups and other operations going on, makes no difference.

An operation counts as *served* from the moment that others can see what has become of it: when it
publishes, or when it leaves without having published.  At that moment its turn is known, and the
turn is the one that the operation takes when it is run by itself from the store that was published,
and told the answers of its calls again.

The invariant is `InTurn`.  It says of each operation where it stands (`Place`).  For the one that
is inside and not served, that is an equation between two runs: with the answers so far, the
operation comes to where it is.  An act changes the place of whoever acts and of nobody else
(`InTurn.advance`), so what is left is one lemma for each kind of act.

## Main statements

- `InTurn.onward`: every act leaves the operations served in turn.
- `Crowd.Run.exists_inTurn`: so they are after any run, and lookups have read what turns have left.
-/

namespace Phrasebook

open Surroundings (scripted)

/-- The stores that a turn publishes: one if it answers `true`, and none otherwise. -/
def Turn.published {ε : Type} (turn : Turn ε) : List (Store ε) :=
  match turn.answer with
  | some (.ok true) => [turn.after]
  | _ => []

variable {ε ι κ : Type}

/-! ## Turns one after the other -/

section Served

variable [MessageEntry ε] {operation : ι → EngineOperation} {store : Store ε}
  {served : List (ι × Turn ε)}

/-- **Each turn is what its operation does** from the store that the turn before has left, when it
is told the answers of its calls again. -/
def ServedFrom (operation : ι → EngineOperation) : Store ε → List (ι × Turn ε) → Prop
  | _, [] => True
  | store, (i, turn) :: rest =>
    (∀ more, scripted.perform (operation i) store (turn.calls ++ more) = (turn, more)) ∧
      ServedFrom operation turn.after rest

/-- One more turn begins with the store that is published after the others. -/
theorem servedFrom_concat_iff {i : ι} {turn : Turn ε} :
    ServedFrom operation store (served ++ [(i, turn)]) ↔
      ServedFrom operation store served ∧
        ∀ more, scripted.perform (operation i) (publishedAfter store (served.map Prod.snd))
          (turn.calls ++ more) = (turn, more) := by
  induction served generalizing store with
  | nil => simp [ServedFrom, publishedAfter]
  | cons first rest ih => simp [ServedFrom, ih, publishedAfter, and_assoc]

/-- The turns are those of a run of the operations. -/
theorem ServedFrom.performAll_eq (turns : ServedFrom operation store served) :
    scripted.performAll (served.map fun s => operation s.1) store
      (served.flatMap fun s => s.2.calls) = served.map Prod.snd := by
  induction served generalizing store with
  | nil => rfl
  | cons first rest ih =>
    obtain ⟨performed, onward⟩ := turns
    rw [List.map_cons, List.flatMap_cons, Surroundings.performAll, performed]
    exact congrArg (first.2 :: ·) (ih onward)

/-- A turn is one of the operation it is of. -/
theorem ServedFrom.operation_eq (turns : ServedFrom operation store served) {i : ι} {turn : Turn ε}
    (mem : (i, turn) ∈ served) : turn.operation = operation i := by
  induction served generalizing store with
  | nil => cases mem
  | cons first rest ih =>
    rcases List.mem_cons.1 mem with rfl | mem
    · exact (congrArg (fun performed => performed.1.operation) (turns.1 [])).symm
    · exact ih turns.2 mem

end Served

/-! ## Where an operation stands -/

/-- Whoever is inside is the only one. -/
theorem alone_of_inside {hall : Hall ε ι} {i : ι} (inside : hall.inside = some i) :
    ∀ j ≠ i, hall.inside ≠ some j :=
  fun _ other eq => other (Option.some.inj (eq.symm.trans inside))

section Pending

variable [DecidableEq ι] {hall : Hall ε ι} {served : List (ι × Turn ε)} {i : ι}

/-- Who is inside and has not been served yet. -/
def pending (hall : Hall ε ι) (served : List (ι × Turn ε)) : Option ι :=
  hall.inside.filter fun i => decide (i ∉ served.map Prod.fst)

theorem pending_of_unserved (inside : hall.inside = some i) (unserved : i ∉ served.map Prod.fst) :
    pending hall served = some i := by
  simp [pending, inside, Option.filter, unserved]

theorem pending_of_served (inside : hall.inside = some i) (isServed : i ∈ served.map Prod.fst) :
    pending hall served = none := by
  simp [pending, inside, Option.filter, isServed]

theorem pending_of_empty (empty : hall.inside = none) : pending hall served = none := by
  simp [pending, empty]

end Pending

section Places

variable [MessageEntry ε] [DecidableEq ι]

/-- **Where an operation stands.**  It counts as served from the moment it publishes, or leaves
without having published, since that is when others can see what has become of it. -/
inductive Place (errands : Errands ι κ) (acts : List (Act ε ι)) (hall : Hall ε ι)
    (served : List (ι × Turn ε)) (i : ι) : EngineProgram ε (Except LoadError Bool) → Prop
  | waiting (outside : hall.inside ≠ some i) (idle : actsOf acts i = [])
      (unserved : i ∉ served.map Prod.fst) :
      Place errands acts hall served i (errands.operation i).program
  /-- With its calls answered again, it comes to where it is. -/
  | working {rest : EngineProgram ε (Except LoadError Bool)} (inside : hall.inside = some i)
      (unserved : i ∉ served.map Prod.fst) (works : Working rest)
      (ran : ∀ more,
        scripted.run (errands.operation i).program ⟨hall.published, callsOf acts i ++ more, []⟩ =
          scripted.run rest ⟨hall.published, more, callsOf acts i⟩) :
      Place errands acts hall served i rest
  | leaving {turn : Turn ε} {earlier : List (ι × Turn ε)} (inside : hall.inside = some i)
      (last : served = earlier ++ [(i, turn)]) (answer : turn.answer = some (.ok true)) :
      Place errands acts hall served i (EngineProgram.leaveWith (.ok true))
  | left {turn : Turn ε} {result : Except LoadError Bool} (outside : hall.inside ≠ some i)
      (mem : (i, turn) ∈ served) (answer : turn.answer = some result) :
      Place errands acts hall served i (Interaction.done result)

/-- **The operations have been served in turn.** -/
structure InTurn (errands : Errands ι κ) (store : Store ε) (acts : List (Act ε ι))
    (crowd : Crowd ε ι κ) (served : List (ι × Turn ε)) : Prop where
  standing : ∀ i, Place errands acts crowd.hall served i (crowd.rest i)
  distinct : (served.map Prod.fst).Nodup
  turns : ServedFrom errands.operation store served
  calls : ∀ s ∈ served, s.2.calls = callsOf acts s.1
  published : crowd.hall.published = publishedAfter store (served.map Prod.snd)
  publications : publications acts = (served.map Prod.snd).flatMap Turn.published
  ordered : entered acts = served.map Prod.fst ++ (pending crowd.hall served).toList
  together : acts = (entered acts).flatMap (actsOf acts)

variable {errands : Errands ι κ} {store : Store ε} {acts : List (Act ε ι)} {crowd : Crowd ε ι κ}
  {served more : List (ι × Turn ε)} {hall changed : Hall ε ι} {i : ι}
  {rest : EngineProgram ε (Except LoadError Bool)}

/-- Who is outside before and after the act of another stands where they stood. -/
theorem Place.of_outside (standing : Place errands acts hall served i rest) {act : Act ε ι}
    (other : act.who ≠ i) (outside : hall.inside ≠ some i) (outsideAfter : changed.inside ≠ some i)
    (others : ∀ s ∈ more, s.1 ≠ i) :
    Place errands (acts ++ [act]) changed (served ++ more) i rest := by
  cases standing with
  | waiting _ idle unserved =>
    refine .waiting outsideAfter ((actsOf_concat_of_ne acts other).trans idle) ?_
    rw [List.map_append, List.mem_append]
    rintro (mem | mem)
    · exact unserved mem
    · obtain ⟨s, memMore, rfl⟩ := List.mem_map.1 mem
      exact others s memMore rfl
  | working inside => exact absurd inside outside
  | leaving inside => exact absurd inside outside
  | left _ mem answer => exact .left outsideAfter (List.mem_append_left more mem) answer

namespace InTurn

variable {act : Act ε ι}

/-- **An act changes where its own operation stands, and no other.**  What is left to show is what
the act means for whoever acts, and for the turns. -/
theorem advance (inTurn : InTurn errands store acts crowd served)
    (alone : ∀ j ≠ act.who, crowd.hall.inside ≠ some j ∧ changed.inside ≠ some j)
    (owned : ∀ s ∈ more, s.1 = act.who)
    (stands : Place errands (acts ++ [act]) changed (served ++ more) act.who rest)
    (distinct : ((served ++ more).map Prod.fst).Nodup)
    (turns : ServedFrom errands.operation store (served ++ more))
    (calls : ∀ s ∈ served ++ more, s.1 = act.who → s.2.calls = callsOf (acts ++ [act]) act.who)
    (published : changed.published = publishedAfter store ((served ++ more).map Prod.snd))
    (publishes : act.published?.toList = (more.map Prod.snd).flatMap Turn.published)
    (enters : (pending crowd.hall served).toList ++ act.enters?.toList =
      more.map Prod.fst ++ (pending changed (served ++ more)).toList)
    (together : acts ++ [act] = (entered (acts ++ [act])).flatMap (actsOf (acts ++ [act]))) :
    InTurn errands store (acts ++ [act])
      { crowd with rest := Function.update crowd.rest act.who rest, hall := changed }
      (served ++ more) where
  standing := by
    intro j
    by_cases same : j = act.who
    · subst same
      simpa using stands
    · have others : ∀ s ∈ more, s.1 ≠ j := fun s mem eq => same (eq.symm.trans (owned s mem))
      simp only [Function.update_of_ne same]
      exact (inTurn.standing j).of_outside (Ne.symm same) (alone j same).1 (alone j same).2 others
  distinct := distinct
  turns := turns
  calls := by
    intro s mem
    by_cases same : s.1 = act.who
    · rw [same]
      exact calls s mem same
    · rw [callsOf_concat_of_ne acts (Ne.symm same)]
      rcases List.mem_append.1 mem with mem | mem
      · exact inTurn.calls s mem
      · exact absurd (owned s mem) same
  published := published
  publications := by
    rw [publications_concat, inTurn.publications, publishes, List.map_append, List.flatMap_append]
  ordered := by
    rw [entered_concat, inTurn.ordered, List.append_assoc, enters, List.map_append,
      List.append_assoc]
  together := together

/-- Whoever has entered last and does not enter acts on. -/
theorem together_concat (inTurn : InTurn errands store acts crowd served) {earlier : List ι}
    (last : entered acts = earlier ++ [act.who]) (new : act.who ∉ earlier)
    (enters : act.enters? = none) :
    acts ++ [act] = (entered (acts ++ [act])).flatMap (actsOf (acts ++ [act])) := by
  have together := inTurn.together
  rw [last, List.flatMap_append, List.flatMap_singleton] at together
  rw [entered_concat, enters, Option.toList_none, List.append_nil, last]
  exact eq_flatMap_actsOf_concat together new

/-- Whoever is inside and has not been served has entered last. -/
theorem entered_of_unserved (inTurn : InTurn errands store acts crowd served)
    (inside : crowd.hall.inside = some i) (unserved : i ∉ served.map Prod.fst) :
    entered acts = served.map Prod.fst ++ [i] := by
  rw [inTurn.ordered, pending_of_unserved inside unserved]
  rfl

/-- An act by which nobody is served. -/
theorem keep (inTurn : InTurn errands store acts crowd served)
    (alone : ∀ j ≠ act.who, crowd.hall.inside ≠ some j ∧ changed.inside ≠ some j)
    (stands : Place errands (acts ++ [act]) changed served act.who rest)
    (silent : act.who ∈ served.map Prod.fst → act.call? = none)
    (published : changed.published = crowd.hall.published) (publishes : act.published? = none)
    (enters : (pending crowd.hall served).toList ++ act.enters?.toList =
      (pending changed served).toList)
    (together : acts ++ [act] = (entered (acts ++ [act])).flatMap (actsOf (acts ++ [act]))) :
    InTurn errands store (acts ++ [act])
      { crowd with rest := Function.update crowd.rest act.who rest, hall := changed } served := by
  have calls : ∀ s ∈ served, s.1 = act.who → s.2.calls = callsOf (acts ++ [act]) act.who := by
    intro s mem same
    rw [callsOf_concat_self, silent (List.mem_map.2 ⟨s, mem, same⟩), ← same, inTurn.calls s mem]
    simp
  rw [← List.append_nil served] at stands calls ⊢
  refine inTurn.advance alone (by simp) stands ?_ ?_ calls ?_ ?_ ?_ together
  · rw [List.append_nil]
    exact inTurn.distinct
  · rw [List.append_nil]
    exact inTurn.turns
  · rw [List.append_nil, published]
    exact inTurn.published
  · simp [publishes]
  · rw [List.append_nil, enters]
    rfl

/-- An act by which whoever is inside is served. -/
theorem serve (inTurn : InTurn errands store acts crowd served) {turn : Turn ε}
    (inside : crowd.hall.inside = some act.who) (unserved : act.who ∉ served.map Prod.fst)
    (stays : ∀ j ≠ act.who, changed.inside ≠ some j)
    (stands : Place errands (acts ++ [act]) changed (served ++ [(act.who, turn)]) act.who rest)
    (performed : ∀ more, scripted.perform (errands.operation act.who) crowd.hall.published
      (callsOf acts act.who ++ more) = (turn, more))
    (calls : turn.calls = callsOf acts act.who) (silent : act.call? = none)
    (published : changed.published = turn.after)
    (publishes : act.published?.toList = turn.published) (enters : act.enters? = none) :
    InTurn errands store (acts ++ [act])
      { crowd with rest := Function.update crowd.rest act.who rest, hall := changed }
      (served ++ [(act.who, turn)]) := by
  have alone : ∀ j ≠ act.who, crowd.hall.inside ≠ some j ∧ changed.inside ≠ some j := by
    intro j other
    refine ⟨fun eq => other ?_, stays j other⟩
    exact Option.some.inj (eq.symm.trans inside)
  have last := inTurn.entered_of_unserved inside unserved
  refine inTurn.advance alone (by simp) stands ?_ ?_ ?_ ?_ ?_ ?_
    (inTurn.together_concat last unserved enters)
  · rw [List.map_append]
    refine List.nodup_append.2 ⟨inTurn.distinct, List.nodup_singleton _, ?_⟩
    intro j mem k memLast eq
    obtain rfl := List.mem_singleton.1 memLast
    rw [eq] at mem
    exact unserved mem
  · refine servedFrom_concat_iff.2 ⟨inTurn.turns, ?_⟩
    rw [← inTurn.published, calls]
    exact performed
  · intro s mem same
    rw [callsOf_concat_self, silent]
    rcases List.mem_append.1 mem with mem | mem
    · exact absurd (List.mem_map.2 ⟨s, mem, same⟩) unserved
    · obtain rfl := List.mem_singleton.1 mem
      simpa using calls
  · rw [published]
    simp [publishedAfter]
  · rw [publishes]
    simp
  · rw [pending_of_unserved inside unserved, enters]
    cases now : changed.inside with
    | none =>
      rw [pending_of_empty now]
      rfl
    | some j =>
      have same : j = act.who := by
        by_contra other
        exact stays j other now
      rw [pending_of_served now (by simp [same])]
      rfl

/-! ### What whoever acts can be at -/

variable {request : EngineRequest ε} {answer : request.Reply}
  {next : request.Reply → EngineProgram ε (Except LoadError Bool)}

/-- Somebody enters, as nobody is inside. -/
theorem enter (inTurn : InTurn errands store acts crowd served) (idle : actsOf acts i = [])
    (unserved : i ∉ served.map Prod.fst)
    (program : (errands.operation i).program = Interaction.ask .enter fun _ => rest)
    (works : Working rest) (empty : crowd.hall.inside = none) :
    InTurn errands store (acts ++ [⟨i, ⟨.enter, ()⟩⟩])
      { crowd with
        rest := Function.update crowd.rest i rest
        hall := { crowd.hall with inside := some i } } served := by
  have calls : callsOf (acts ++ [⟨i, ⟨.enter, ()⟩⟩]) i = callsOf acts i ++ [] :=
    callsOf_concat_self acts ⟨i, ⟨.enter, ()⟩⟩
  have uncalled : callsOf acts i = [] := by
    rw [callsOf, idle]
    rfl
  have allServed : entered acts = served.map Prod.fst := by
    rw [inTurn.ordered, pending_of_empty empty]
    exact List.append_nil _
  refine inTurn.keep ?_ ?_ (fun isServed => absurd isServed unserved) rfl rfl ?_ ?_
  · exact fun j other => ⟨by simp [empty], alone_of_inside rfl j other⟩
  · refine .working rfl unserved works fun more => ?_
    rw [calls, uncalled, program]
    exact Surroundings.run_ask scripted _ .enter _
  · rw [pending_of_empty empty, pending_of_unserved rfl unserved]
    rfl
  · have together := inTurn.together
    rw [allServed] at together
    rw [entered_concat, allServed]
    refine eq_flatMap_actsOf_concat ?_ unserved
    rw [idle, List.append_nil]
    exact together

/-- Whoever is inside asks quietly. -/
theorem ask (inTurn : InTurn errands store acts crowd served)
    (inside : crowd.hall.inside = some i) (unserved : i ∉ served.map Prod.fst)
    (quiet : request.IsQuiet) (works : ∀ answer, Working (next answer))
    (ran : ∀ more, scripted.run (errands.operation i).program
        ⟨crowd.hall.published, callsOf acts i ++ more, []⟩ =
      scripted.run (Interaction.ask request next) ⟨crowd.hall.published, more, callsOf acts i⟩)
    (replied : crowd.hall.Replies i request answer changed) :
    InTurn errands store (acts ++ [⟨i, ⟨request, answer⟩⟩])
      { crowd with rest := Function.update crowd.rest i (next answer), hall := changed }
      served := by
  have calls : callsOf (acts ++ [⟨i, ⟨request, answer⟩⟩]) i =
      callsOf acts i ++ (request.call? answer).toList :=
    callsOf_concat_self acts ⟨i, ⟨request, answer⟩⟩
  have answered := Surroundings.run_scripted quiet replied next
  obtain rfl := (answered [] []).1
  have hidden := Act.hidden_of_isQuiet ⟨i, ⟨request, answer⟩⟩ quiet
  have last := inTurn.entered_of_unserved inside unserved
  refine inTurn.keep ?_ ?_ (fun isServed => absurd isServed unserved) rfl hidden.1 ?_
    (inTurn.together_concat last unserved hidden.2)
  · exact fun j other => ⟨alone_of_inside inside j other, alone_of_inside inside j other⟩
  · refine .working inside unserved (works answer) fun more => ?_
    rw [calls, List.append_assoc, ran]
    exact (answered more (callsOf acts i)).2
  · rw [hidden.2]
    simp

/-- What an operation has done when it has come to its end, with its calls answered again. -/
theorem performed_of_run {operation : EngineOperation} {calls : List Call}
    {answer : Except LoadError Bool} {published after : Store ε}
    (ran : ∀ more, scripted.run operation.program ⟨published, calls ++ more, []⟩ =
      (some answer, ⟨after, more, calls⟩)) (more : List Call) :
    scripted.perform operation published (calls ++ more) =
      (⟨operation, published, calls, some answer, after⟩, more) := by
  rw [Surroundings.perform, ran]

/-- Whoever is inside publishes. -/
theorem publish (inTurn : InTurn errands store acts crowd served) {after : Store ε}
    (inside : crowd.hall.inside = some i) (unserved : i ∉ served.map Prod.fst)
    (ran : ∀ more, scripted.run (errands.operation i).program
        ⟨crowd.hall.published, callsOf acts i ++ more, []⟩ =
      scripted.run (Interaction.ask (.publish after) fun _ => EngineProgram.leaveWith (.ok true))
        ⟨crowd.hall.published, more, callsOf acts i⟩) :
    InTurn errands store (acts ++ [⟨i, ⟨.publish after, ()⟩⟩])
      { crowd with
        rest := Function.update crowd.rest i (EngineProgram.leaveWith (.ok true))
        hall := { crowd.hall with published := after } }
      (served ++ [(i, ⟨errands.operation i, crowd.hall.published, callsOf acts i,
        some (.ok true), after⟩)]) := by
  refine inTurn.serve inside unserved (alone_of_inside inside) ?_ ?_ rfl rfl rfl rfl rfl
  · exact .leaving inside rfl rfl
  · exact performed_of_run ran

/-- Whoever is inside leaves without having published. -/
theorem leave (inTurn : InTurn errands store acts crowd served) {result : Except LoadError Bool}
    (inside : crowd.hall.inside = some i) (unserved : i ∉ served.map Prod.fst)
    (unpublished : result ≠ .ok true)
    (ran : ∀ more, scripted.run (errands.operation i).program
        ⟨crowd.hall.published, callsOf acts i ++ more, []⟩ =
      scripted.run (EngineProgram.leaveWith result)
        ⟨crowd.hall.published, more, callsOf acts i⟩) :
    InTurn errands store (acts ++ [⟨i, ⟨.leave, ()⟩⟩])
      { crowd with
        rest := Function.update crowd.rest i (Interaction.done result)
        hall := { crowd.hall with inside := none } }
      (served ++ [(i, ⟨errands.operation i, crowd.hall.published, callsOf acts i,
        some result, crowd.hall.published⟩)]) := by
  refine inTurn.serve inside unserved (fun j _ => by simp) ?_ ?_ rfl rfl rfl ?_ rfl
  · exact .left (by simp) (List.mem_append_right served List.mem_cons_self) rfl
  · exact performed_of_run ran
  · rcases result with error | _ | _
    · rfl
    · rfl
    · exact absurd rfl unpublished

/-- Whoever has published leaves. -/
theorem quit (inTurn : InTurn errands store acts crowd served) {turn : Turn ε}
    {earlier : List (ι × Turn ε)} (inside : crowd.hall.inside = some i)
    (last : served = earlier ++ [(i, turn)]) (answer : turn.answer = some (.ok true)) :
    InTurn errands store (acts ++ [⟨i, ⟨.leave, ()⟩⟩])
      { crowd with
        rest := Function.update crowd.rest i (Interaction.done (.ok true))
        hall := { crowd.hall with inside := none } } served := by
  have mem : (i, turn) ∈ served := by simp [last]
  have nobody := pending_of_served inside (List.mem_map_of_mem mem)
  refine inTurn.keep ?_ ?_ (fun _ => rfl) rfl rfl ?_ ?_
  · exact fun j other => ⟨alone_of_inside inside j other, by simp⟩
  · exact .left (by simp) mem answer
  · rw [nobody, pending_of_empty rfl]
    rfl
  · have distinct := inTurn.distinct
    rw [last, List.map_append] at distinct
    have entering : entered acts = earlier.map Prod.fst ++ [i] := by
      rw [inTurn.ordered, nobody, last]
      simp
    exact inTurn.together_concat entering
      (fun mem => List.disjoint_of_nodup_append distinct mem List.mem_cons_self) rfl

/-- **Every act leaves the operations served in turn**, and serves one more at most. -/
theorem onward (inTurn : InTurn errands store acts crowd served)
    (here : crowd.rest i = Interaction.ask request next)
    (replied : crowd.hall.Replies i request answer changed) :
    ∃ more, InTurn errands store (acts ++ [⟨i, ⟨request, answer⟩⟩])
      { crowd with rest := Function.update crowd.rest i (next answer), hall := changed }
      (served ++ more) := by
  have standing := inTurn.standing i
  generalize stands : crowd.rest i = rest at standing
  cases standing with
  | waiting outside idle unserved =>
    obtain ⟨body, program, works⟩ := (errands.operation i).exists_program_eq (ε := ε)
    cases here.symm.trans (stands.trans program)
    obtain ⟨empty, rfl⟩ := replied
    exact ⟨[], by simpa using inTurn.enter idle unserved program works empty⟩
  | working inside unserved works ran =>
    cases works with
    | asks quiet onward =>
      cases here.symm.trans stands
      exact ⟨[], by simpa using inTurn.ask inside unserved quiet onward ran replied⟩
    | publishes after =>
      cases here.symm.trans stands
      cases replied
      exact ⟨_, inTurn.publish inside unserved ran⟩
    | leaves unpublished =>
      cases here.symm.trans stands
      cases replied
      exact ⟨_, inTurn.leave inside unserved unpublished ran⟩
  | leaving inside last answered =>
    cases here.symm.trans stands
    cases replied
    exact ⟨[], by simpa using inTurn.quit inside last answered⟩
  | left => cases here.symm.trans stands

end InTurn

/-! ## Whole runs -/

theorem inTurn_start (errands : Errands ι κ) (store : Store ε) :
    InTurn errands store [] (Crowd.start errands store) [] where
  standing _ := .waiting (by simp [Crowd.start]) rfl (by simp)
  distinct := List.nodup_nil
  turns := trivial
  calls := by simp
  published := rfl
  publications := rfl
  ordered := rfl
  together := rfl

/-- The store that a lookup has read, if any, is one that was published after some of the turns. -/
def Lookup.ReadsAfter (store : Store ε) (served : List (ι × Turn ε)) (lookup : Lookup ε) : Prop :=
  ∀ snapshot, lookup.snapshot? = some snapshot → ∃ earlier later,
    served = earlier ++ later ∧ snapshot = publishedAfter store (earlier.map Prod.snd)

omit [MessageEntry ε] [DecidableEq ι] in
theorem Lookup.ReadsAfter.append {lookup : Lookup ε} (reads : lookup.ReadsAfter store served)
    (more : List (ι × Turn ε)) : lookup.ReadsAfter store (served ++ more) := by
  intro snapshot read
  obtain ⟨earlier, later, rfl, eq⟩ := reads snapshot read
  exact ⟨earlier, later ++ more, List.append_assoc _ _ _, eq⟩

omit [MessageEntry ε] [DecidableEq ι] in
/-- A lookup reads what is published now, or has read already. -/
theorem Lookup.Step.readsAfter {resolves : Resolving} {key : String} {language : Language}
    {before after : Lookup ε} {published : Store ε}
    (step : Lookup.Step resolves key language published before after)
    (now : published = publishedAfter store (served.map Prod.snd))
    (reads : before.ReadsAfter store served) : after.ReadsAfter store served := by
  intro snapshot read
  rw [step.snapshot?_eq] at read
  cases before_read : before.snapshot? with
  | none =>
    rw [before_read] at read
    obtain rfl := Option.some.inj read
    exact ⟨served, [], (List.append_nil served).symm, now⟩
  | some earlierRead =>
    rw [before_read] at read
    obtain rfl := Option.some.inj read
    exact reads earlierRead before_read

/-- **However the steps are interleaved, the operations are served in turn**, and every lookup reads
what some of the turns have left.  By induction on what has happened. -/
theorem Crowd.Run.exists_inTurn [DecidableEq κ] {resolves : Resolving}
    (run : Crowd.Run errands resolves store acts crowd) :
    ∃ served, InTurn errands store acts crowd served ∧ ∀ k,
      (crowd.lookups k).Sound resolves (errands.key k) (errands.language k) ∧
        (crowd.lookups k).ReadsAfter store served := by
  induction run with
  | start =>
    refine ⟨[], inTurn_start errands store, fun k => ⟨trivial, ?_⟩⟩
    rintro snapshot ⟨⟩
  | step before step ih =>
    obtain ⟨served, inTurn, lookups⟩ := ih
    cases step with
    | act here replied =>
      obtain ⟨more, after⟩ := inTurn.onward here replied
      exact ⟨served ++ more, after, fun k => ⟨(lookups k).1, (lookups k).2.append more⟩⟩
    | @look k after step =>
      refine ⟨served, ?_, fun other => ?_⟩
      · rw [Option.toList_none, List.append_nil]
        exact { inTurn with }
      · by_cases same : other = k
        · subst same
          simp only [Function.update_self]
          exact ⟨step.sound (lookups other).1, step.readsAfter inTurn.published (lookups other).2⟩
        · simp only [Function.update_of_ne same]
          exact lookups other

end Places

end Phrasebook
