import Mathlib.Data.List.Cycle
import Phrasebook.Proofs.Config.Cycle

/-!
# The shape of what the search for cycles finds

Whoever follows a relation in which everything has at most one successor walks along a *lasso*: a
tail, which may be empty, and a cycle into which the tail runs.  The search for a cycle of fallbacks
walks like that.  It stops when an identifier comes back and cuts the tail off, by which it throws
away just what came before that identifier (`exists_isLasso_of_cycleAfter?_eq_some`).

A cycle is a list up to rotation, as it has no first element by itself (`Cycle`).  If successors are
unique, cycles do not touch each other: they are equal as soon as they have an element in common
(`IsRound.eq_of_mem`), or as soon as something leads to both of them (`Reaches.eq_of_reaches`).

## Main statements

- `IsRound.eq_of_mem` and `Reaches.eq_of_reaches`.
- `exists_isLasso_of_fallbackCycle?_eq_some`: what is reported is the cycle of a lasso.
-/

namespace Phrasebook

open Relation

/-! ## Cycles of a relation -/

section Cycles

variable {α : Type} {r : α → α → Prop} {cycle other : Cycle α} {a b start : α}

/-- A cycle **goes round** along a relation, passing each of its elements once. -/
structure IsRound (r : α → α → Prop) (cycle : Cycle α) : Prop where
  inhabited : cycle ≠ Cycle.nil
  follows : cycle.Chain r
  once : cycle.Nodup

theorem isRound_coe_cons_iff {rest : List α} :
    IsRound r ↑(a :: rest) ↔ (a :: (rest ++ [a])).IsChain r ∧ (a :: rest).Nodup := by
  constructor
  · intro round
    exact ⟨(Cycle.chain_coe_cons r a rest).1 round.follows, Cycle.nodup_coe_iff.1 round.once⟩
  · rintro ⟨follows, once⟩
    refine ⟨?_, (Cycle.chain_coe_cons r a rest).2 follows, Cycle.nodup_coe_iff.2 once⟩
    rw [Ne, Cycle.coe_eq_nil]
    exact List.cons_ne_nil a rest

/-- A cycle can be written from any of its elements on. -/
theorem exists_coe_cons_eq_of_mem (mem : a ∈ cycle) : ∃ rest : List α, cycle = ↑(a :: rest) := by
  obtain ⟨elements, rfl⟩ := Quot.exists_rep cycle
  obtain ⟨before, after, rfl⟩ := List.append_of_mem (Cycle.mem_coe_iff.1 mem)
  exact ⟨after ++ before, Cycle.coe_eq_coe.2 List.isRotated_append⟩

theorem IsRound.exists_mem (round : IsRound r cycle) : ∃ a, a ∈ cycle := by
  obtain ⟨elements, rfl⟩ := Quot.exists_rep cycle
  have inhabited : elements ≠ [] := fun empty => round.inhabited (congrArg _ empty)
  exact List.exists_mem_of_ne_nil elements inhabited

/-- From every element, a cycle leads to every other and back to itself. -/
theorem IsRound.transGen (round : IsRound r cycle) (mem : a ∈ cycle) (memOther : b ∈ cycle) :
    TransGen r a b := by
  obtain ⟨rest, rfl⟩ := exists_coe_cons_eq_of_mem mem
  have follows : (a :: (rest ++ [a])).IsChain (TransGen r) :=
    (isRound_coe_cons_iff.1 round).1.imp fun _ _ => TransGen.single
  refine follows.rel_cons ?_
  rcases List.mem_cons.1 (Cycle.mem_coe_iff.1 memOther) with rfl | memRest
  · exact List.mem_append_right rest (List.mem_singleton_self b)
  · exact List.mem_append_left [a] memRest

/-- With unique successors there is one way at most to an element that is not passed before. -/
theorem eq_of_isChain_of_rightUnique (unique : Relator.RightUnique r) {last : α}
    {first second : List α} (follows : (start :: (first ++ [last])).IsChain r)
    (followsToo : (start :: (second ++ [last])).IsChain r) (new : last ∉ first)
    (newToo : last ∉ second) : first = second := by
  induction first generalizing start second with
  | nil =>
    cases second with
    | nil => rfl
    | cons next rest =>
      have step : r start last := (List.isChain_cons_cons.1 follows).1
      have stepToo : r start next := (List.isChain_cons_cons.1 followsToo).1
      exact absurd (unique step stepToo ▸ List.mem_cons_self) newToo
  | cons next rest ih =>
    obtain ⟨step, onward⟩ := List.isChain_cons_cons.1 follows
    cases second with
    | nil =>
      have stepToo : r start last := (List.isChain_cons_cons.1 followsToo).1
      exact absurd (unique stepToo step ▸ List.mem_cons_self) new
    | cons other others =>
      obtain ⟨stepToo, onwardToo⟩ := List.isChain_cons_cons.1 followsToo
      obtain rfl := unique step stepToo
      rw [ih onward onwardToo (fun mem => new (List.mem_cons_of_mem next mem))
        fun mem => newToo (List.mem_cons_of_mem next mem)]

/-- **Cycles with a common element are equal**, if successors are unique. -/
theorem IsRound.eq_of_mem (unique : Relator.RightUnique r) (round : IsRound r cycle)
    (roundToo : IsRound r other) (mem : a ∈ cycle) (memToo : a ∈ other) : cycle = other := by
  obtain ⟨rest, rfl⟩ := exists_coe_cons_eq_of_mem mem
  obtain ⟨others, rfl⟩ := exists_coe_cons_eq_of_mem memToo
  obtain ⟨follows, once⟩ := isRound_coe_cons_iff.1 round
  obtain ⟨followsToo, onceToo⟩ := isRound_coe_cons_iff.1 roundToo
  rw [eq_of_isChain_of_rightUnique unique follows followsToo (List.nodup_cons.1 once).1
    (List.nodup_cons.1 onceToo).1]

/-- Nothing leads out of a cycle, if successors are unique. -/
theorem IsRound.mem_of_reflTransGen (unique : Relator.RightUnique r) (round : IsRound r cycle)
    (mem : a ∈ cycle) (way : ReflTransGen r a b) : b ∈ cycle := by
  induction way with
  | refl => exact mem
  | @tail c d _ step ih =>
    obtain ⟨rest, rfl⟩ := exists_coe_cons_eq_of_mem ih
    have follows := (isRound_coe_cons_iff.1 round).1
    cases rest with
    | nil =>
      rw [unique step (List.isChain_cons_cons.1 follows).1]
      exact ih
    | cons next rest =>
      rw [unique step (List.isChain_cons_cons.1 follows).1]
      exact Cycle.mem_coe_iff.2 (List.mem_cons_of_mem c List.mem_cons_self)

/-- An element **reaches** a cycle when it leads to a member of it, or is one. -/
def Reaches (r : α → α → Prop) (start : α) (cycle : Cycle α) : Prop :=
  ∃ member ∈ cycle, ReflTransGen r start member

/-- **Only one cycle is reached from an element**, if successors are unique. -/
theorem Reaches.eq_of_reaches (unique : Relator.RightUnique r) (round : IsRound r cycle)
    (roundToo : IsRound r other) (reaches : Reaches r start cycle)
    (reachesToo : Reaches r start other) : cycle = other := by
  obtain ⟨member, mem, way⟩ := reaches
  obtain ⟨memberToo, memToo, wayToo⟩ := reachesToo
  rcases way.total_of_right_unique unique wayToo with onward | onward
  · exact round.eq_of_mem unique roundToo (round.mem_of_reflTransGen unique mem onward) memToo
  · exact round.eq_of_mem unique roundToo mem (roundToo.mem_of_reflTransGen unique memToo onward)

/-- What reaches a cycle is not accessible: there is an endless way from it. -/
theorem Reaches.not_acc (round : IsRound r cycle) (reaches : Reaches r start cycle) :
    ¬ Acc (fun b a => r a b) start := by
  intro acc
  obtain ⟨member, mem, way⟩ := reaches
  have accMember : Acc (fun b a => r a b) member := by
    clear mem
    induction way with
    | refl => exact acc
    | tail _ step ih => exact ih.inv step
  exact not_transGen_self_of_acc accMember (transGen_swap.2 (round.transGen mem mem))

/-- A cycle is **entered at** an element, which is the first of its members on the way from the
start. -/
def EntersAt (r : α → α → Prop) (start : α) (cycle : Cycle α) (entry : α) : Prop :=
  entry ∈ cycle ∧ ∃ tail, (tail ++ [entry]).head? = some start ∧ (tail ++ [entry]).IsChain r ∧
    ∀ passed ∈ tail, passed ∉ cycle

theorem EntersAt.reaches {entry : α} (entered : EntersAt r start cycle entry) :
    Reaches r start cycle := by
  obtain ⟨member, tail, begins, follows, -⟩ := entered
  obtain ⟨others, split⟩ := List.head?_eq_some_iff.1 begins
  have last : (start :: others).getLast (List.cons_ne_nil start others) = entry := by
    simp [← split]
  exact ⟨entry, member,
    List.relationReflTransGen_of_exists_isChain_cons others (split ▸ follows) last⟩

/-! ## Lassos -/

/-- The cycle of a path that ends where it has begun. -/
def loopOf (path : List α) : Cycle α := ↑path.dropLast

/-- **A lasso**: a tail leads from the start to a path, which ends where it has begun.  Nothing
comes twice before that end. -/
structure IsLasso (r : α → α → Prop) (start : α) (tail path : List α) : Prop where
  begins : (tail ++ path).head? = some start
  follows : (tail ++ path).IsChain r
  returns : ∃ entry rest, path = entry :: (rest ++ [entry])
  once : (tail ++ path.dropLast).Nodup

theorem loopOf_cons_concat (entry : α) (rest : List α) :
    loopOf (entry :: (rest ++ [entry])) = ↑(entry :: rest) := by
  rw [loopOf, ← List.cons_append, List.dropLast_concat]

variable {tail path : List α}

theorem IsLasso.imp {s : α → α → Prop} (lasso : IsLasso r start tail path)
    (weaker : ∀ a b, r a b → s a b) : IsLasso s start tail path :=
  ⟨lasso.begins, lasso.follows.imp weaker, lasso.returns, lasso.once⟩

/-- The path of a lasso is a cycle. -/
theorem IsLasso.isRound (lasso : IsLasso r start tail path) : IsRound r (loopOf path) := by
  obtain ⟨entry, rest, rfl⟩ := lasso.returns
  rw [loopOf_cons_concat, isRound_coe_cons_iff]
  refine ⟨lasso.follows.right_of_append, ?_⟩
  have once := lasso.once
  rw [← List.cons_append, List.dropLast_concat] at once
  exact once.of_append_right

/-- The end of a path adds no member to its cycle. -/
theorem IsLasso.mem_loopOf_iff (lasso : IsLasso r start tail path) :
    a ∈ loopOf path ↔ a ∈ path := by
  obtain ⟨entry, rest, rfl⟩ := lasso.returns
  rw [loopOf_cons_concat, Cycle.mem_coe_iff]
  simp only [List.mem_cons, List.mem_append]
  grind

/-- **The cycle of a lasso is entered where its path begins.** -/
theorem IsLasso.exists_entersAt (lasso : IsLasso r start tail path) :
    ∃ entry ∈ path.head?, EntersAt r start (loopOf path) entry := by
  obtain ⟨entry, rest, rfl⟩ := lasso.returns
  refine ⟨entry, rfl, ?_, tail, ?_, ?_, fun passed mem member => ?_⟩
  · rw [loopOf_cons_concat]
    exact Cycle.mem_coe_iff.2 List.mem_cons_self
  · cases tail with
    | nil => exact lasso.begins
    | cons first others => exact lasso.begins
  · exact lasso.follows.prefix ⟨rest ++ [entry], by simp⟩
  · exact (List.nodup_append.1 lasso.once).2.2 passed mem passed (Cycle.mem_coe_iff.1 member) rfl

theorem IsLasso.reaches (lasso : IsLasso r start tail path) : Reaches r start (loopOf path) := by
  obtain ⟨entry, -, entered⟩ := lasso.exists_entersAt
  exact entered.reaches

end Cycles

/-! ## The search walks along a lasso -/

open LanguageRegistry

variable {registry : LanguageRegistry} {visited path : List String}

/-- The visited identifiers are the beginning of a lasso, whatever is reported in the end. -/
theorem exists_isLasso_of_cycleAfter?_eq_some (keyed : registry.IsKeyed)
    {language : { l : Language // l ∈ registry.known.values }}
    (follows : (visited.reverse ++ [language.val.identifier]).IsChain registry.Leads)
    (once : visited.Nodup) (reported : cycleAfter? registry visited language = some path) :
    ∃ tail, visited.reverse ++ [language.val.identifier] <+: tail ++ path ∧
      (tail ++ path).IsChain registry.Leads ∧ (∃ entry rest, path = entry :: (rest ++ [entry])) ∧
        (tail ++ path.dropLast).Nodup := by
  induction visited, language using cycleAfter?.induct registry with
  | case1 visited language identifier old =>
    rw [cycleAfter?, dif_pos old] at reported
    obtain ⟨after, before, rfl, notAfter⟩ := List.eq_append_cons_of_mem old
    have loop : (after ++ identifier :: before).takeWhile (fun other => other ≠ identifier) =
        after := by
      rw [List.takeWhile_append_of_pos, List.takeWhile_cons_of_neg (by simp), List.append_nil]
      exact fun other mem => decide_eq_true fun same => notAfter (same ▸ mem)
    obtain rfl : identifier :: after.reverse ++ [identifier] = path := by
      rw [← loop]
      exact Option.some.inj reported
    -- What came before the identifier is the tail.
    have turned : (after ++ identifier :: before).reverse ++ [identifier] =
        before.reverse ++ (identifier :: after.reverse ++ [identifier]) := by
      simp
    refine ⟨before.reverse, ?_, turned ▸ follows, ⟨identifier, after.reverse, rfl⟩, ?_⟩
    · rw [turned]
    · rw [List.dropLast_concat]
      simpa using List.nodup_reverse.2 once
  | case2 visited language identifier new ends =>
    rw [cycleAfter?, dif_neg new, ends] at reported
    cases reported
  | case3 visited language identifier new next found ih =>
    rw [cycleAfter?, dif_neg new, found] at reported
    have leads : registry.Leads identifier next.val.identifier :=
      (keyed.leads_iff language.property).2
        ⟨next.val, fallsBackTo_of_fallback?_eq_some found, rfl⟩
    have seen : (identifier :: visited).reverse = visited.reverse ++ [identifier] :=
      List.reverse_cons
    have onward : ((identifier :: visited).reverse ++ [next.val.identifier]).IsChain
        registry.Leads := by
      rw [seen]
      exact List.IsChain.append_overlap follows (List.isChain_pair.2 leads) (List.cons_ne_nil _ _)
    obtain ⟨tail, begins, rest⟩ := ih onward (List.nodup_cons.2 ⟨new, once⟩) reported
    refine ⟨tail, List.IsPrefix.trans ?_ begins, rest⟩
    rw [seen]
    exact List.prefix_append _ _

/-- **What is reported is the cycle of a lasso** from the language on. -/
theorem exists_isLasso_of_fallbackCycle?_eq_some (keyed : registry.IsKeyed) {start : Language}
    (mem : start ∈ registry.known.values) (reported : fallbackCycle? registry start = some path) :
    ∃ tail, IsLasso registry.Leads start.identifier tail path := by
  rw [fallbackCycle?_of_mem mem] at reported
  obtain ⟨tail, ⟨rest, begins⟩, follows, returns, once⟩ :=
    exists_isLasso_of_cycleAfter?_eq_some keyed (List.isChain_singleton _) List.nodup_nil reported
  exact ⟨tail, by rw [← begins]; rfl, follows, returns, once⟩

end Phrasebook
