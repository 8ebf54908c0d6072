import Phrasebook.Proofs.Cache.Consistent

/-!
# Single flight

Operations at the same time, of sources that share nothing but the backend and the form of keys, do
not get in each other's way: nobody is between acquiring and releasing the lock of a bundle at the
same time as somebody else, the source is asked for a bundle by one at a time, and it is asked
again after it has answered only if the entry was deleted in between.  So in the time between two
deletions everybody who is answered messages is answered the same.  What was fetched before a
deletion is not stored after it.

All of this is read off the consistency of the run (`Traffic.Run.consistent`).

## Main statement

- `Traffic.Run.singleFlight`: every run is a `SingleFlight`.
-/

namespace Phrasebook

open CacheExchange (tried released)

variable {ι : Type} {form : String} {log : List (Moment ι)} {traffic : Traffic ι}

/-- An operation has acquired the lock of a bundle and not released it. -/
def HoldsLock (form bundle : String) (log : List (Moment ι)) (i : ι) : Prop :=
  (∃ moment ∈ log, moment.flight = i ∧ moment.exchange.Acquires form bundle) ∧
    ∀ moment ∈ log, moment.flight = i → ¬ moment.exchange.Releases form bundle

/-- An operation is a load of a bundle and has come to its end with a result. -/
def Flight.HasLoaded (options : CacheOptions) (bundle : String)
    (result : Except LoadError Messages) (flight : Flight) : Prop :=
  ∃ languages mutex, flight = ⟨options, .load bundle languages, Interaction.done result, mutex⟩

/-- **What a load answers.**  Either the lock was not free in time.  Or the load acquired the lock
and released it, and nobody deleted the entry in between; then it answers what somebody had fetched
since the last deletion, or the error of its own call of the source. -/
inductive Answered (form : String) (options : CacheOptions) (bundle : String)
    (log : List (Moment ι)) (i : ι) : Except LoadError Messages → Prop
  | timedOut :
      Answered form options bundle log i
        (.error (.lockTimeout (options.key bundle .lock) options.locking.wait))
  | fetched {before within after earlier later : List (Moment ι)} {fetch : Moment ι}
      {messages : Messages}
      (split : log = before ++ ⟨i, tried options bundle (.ok true)⟩ ::
        (within ++ ⟨i, released options bundle (.ok ())⟩ :: after))
      (kept : ∀ moment ∈ within, ¬ moment.exchange.Deletes form bundle)
      (fetching : before ++ ⟨i, tried options bundle (.ok true)⟩ :: within =
        earlier ++ fetch :: later)
      (fetches : fetch.exchange.Fetches bundle messages)
      (since : ∀ moment ∈ later, ¬ moment.exchange.Deletes form bundle) :
      Answered form options bundle log i (.ok messages)
  | failed {before within after : List (Moment ι)} {languages : List Language}
      {held : Option String} {error : LoadError}
      (split : log = before ++ ⟨i, tried options bundle (.ok true)⟩ ::
        (within ++ ⟨i, released options bundle (.ok ())⟩ :: after))
      (kept : ∀ moment ∈ within, ¬ moment.exchange.Deletes form bundle)
      (own : ⟨i, ⟨⟨.load bundle languages, held⟩, .error error⟩⟩ ∈ within) :
      Answered form options bundle log i (.error error)

/-- **Single flight.** -/
structure SingleFlight (form : String) (log : List (Moment ι)) (traffic : Traffic ι) : Prop where
  /-- At most one operation is between acquiring and releasing the lock of a bundle. -/
  exclusive : ∀ {bundle i j}, HoldsLock form bundle log i → HoldsLock form bundle log j → i = j
  /-- Loads of the same bundle from the source do not overlap. -/
  alone : ∀ {bundle i j}, (traffic.flights i).IsLoading bundle →
    (traffic.flights j).IsLoading bundle → i = j
  /-- Between two loads of the same bundle from the source that succeed, its entry is deleted. -/
  once : ∀ {bundle earlier first between second later messages others},
    log = earlier ++ first :: (between ++ second :: later) →
      first.exchange.Fetches bundle messages → second.exchange.Fetches bundle others →
        ∃ moment ∈ between, moment.exchange.Deletes form bundle
  /-- A load answers what was fetched in its time, the error of its own call of the source, or that
  the lock was not free in time. -/
  answered : ∀ {i options bundle result}, (traffic.flights i).HasLoaded options bundle result →
    Answered form options bundle log i result
  /-- A load that answers messages answers what is fetched in its time: there is no deletion of the
  entry, and all that the load does is done then. -/
  agreed : ∀ {i options bundle messages earlier period later fetch fetched},
    (traffic.flights i).HasLoaded options bundle (.ok messages) →
      log = earlier ++ period ++ later → (∀ moment ∈ earlier, moment.flight ≠ i) →
        (∀ moment ∈ later, moment.flight ≠ i) →
          (∀ moment ∈ period, ¬ moment.exchange.Deletes form bundle) → fetch ∈ period →
            fetch.exchange.Fetches bundle fetched → messages = fetched
  /-- Whoever stores messages has fetched them itself, and the entry was not deleted since. -/
  stored : ∀ {bundle before store after messages}, log = before ++ store :: after →
    store.exchange.Stores form bundle messages →
      ∃ earlier fetch later, before = earlier ++ fetch :: later ∧ fetch.flight = store.flight ∧
        fetch.exchange.Fetches bundle messages ∧
          ∀ moment ∈ later, ¬ moment.exchange.Deletes form bundle

namespace Consistent

/-- A lock that is acquired and not released is held. -/
theorem holds_of_holdsLock (consistent : Consistent form log traffic) {bundle : String} {i : ι}
    (holding : HoldsLock form bundle log i) :
    (traffic.flights i).holds = some (keyOf form bundle .lock) := by
  obtain ⟨⟨moment, mem, rfl, acquires⟩, unreleased⟩ := holding
  obtain rfl := acquires.bundle_eq consistent.place (consistent.aboutLog moment mem)
  have guarded := consistent.guarded moment.flight
  have standing := consistent.standing moment.flight
  cases standing with
  | waiting rest_eq untouched => exact absurd rfl (untouched moment mem)
  | counting idle rest_eq unlocked => exact absurd acquires (unlocked moment mem rfl)
  | refused idle rest_eq unlocked => exact absurd acquires (unlocked moment mem rfl)
  | inside inside => exact inside.holds.trans (congrArg some (Flight.lock_eq guarded))
  | left idle hold before within after result rest_eq mayEnd split sec =>
    have released := unreleased ⟨moment.flight, released (traffic.flights moment.flight).options
      (traffic.flights moment.flight).operation.bundle (.ok ())⟩ (by rw [split]; simp) rfl
    exact absurd (congrArg CacheRequest.unlock (guarded.key_eq _ _)) released

/-- Whoever is loading a bundle from the source holds its lock. -/
theorem holds_of_isLoading (consistent : Consistent form log traffic) {bundle : String} {i : ι}
    (loading : (traffic.flights i).IsLoading bundle) :
    (traffic.flights i).holds = some (keyOf form bundle .lock) := by
  obtain ⟨languages, held, at_load⟩ := loading
  cases here : (traffic.flights i).rest with
  | done result => simp [Flight.step?, here] at at_load
  | ask step next =>
    obtain rfl : step = _ := by simpa [Flight.step?, here] using at_load
    obtain rfl : bundle = _ := (consistent.about_ask here).1
    have standing := consistent.standing i
    cases standing with
    | waiting rest_eq untouched =>
      rw [here, CacheOperation.program_eq_ask (consistent.guarded i)] at rest_eq
      cases rest_eq
    | counting idle rest_eq unlocked => cases here.symm.trans rest_eq
    | refused idle rest_eq unlocked => cases here.symm.trans rest_eq
    | inside inside =>
      exact inside.holds.trans (congrArg some (Flight.lock_eq (consistent.guarded i)))
    | left idle hold before within after result rest_eq mayEnd split sec =>
      cases here.symm.trans rest_eq

/-- A load that has come to its end stands there without its lock, or with it behind it. -/
theorem ended_cases (consistent : Consistent form log traffic) {i : ι} {options : CacheOptions}
    {bundle : String} {result : Except LoadError Messages}
    (ended : (traffic.flights i).HasLoaded options bundle result) :
    result = .error (.lockTimeout (options.key bundle .lock) options.locking.wait) ∨
      ∃ languages hold before within after,
        CacheOperation.MayEnd hold (.load bundle languages) result ∧
          Section form i options (.load bundle languages) hold before within ∧
            log = before ++ ⟨i, tried options bundle (.ok true)⟩ ::
              (within ++ ⟨i, released options bundle (.ok ())⟩ :: after) := by
  obtain ⟨languages, mutex, eq⟩ := ended
  have guarded := consistent.guarded i
  have standing := consistent.standing i
  rw [eq] at guarded standing
  cases standing with
  | waiting rest_eq untouched => cases rest_eq.trans (CacheOperation.program_eq_ask guarded _)
  | counting idle rest_eq unlocked => cases rest_eq
  | refused idle rest_eq unlocked => exact Or.inl (Interaction.done.inj rest_eq)
  | inside inside => exact inside.secure.elim
  | left idle hold before within after _ rest_eq mayEnd split sec =>
    cases rest_eq
    exact Or.inr ⟨languages, hold, before, within, after, mayEnd, sec, split⟩

/-- What a load answers, by where it stands at its end. -/
theorem answered (consistent : Consistent form log traffic) {i : ι} {options : CacheOptions}
    {bundle : String} {result : Except LoadError Messages}
    (ended : (traffic.flights i).HasLoaded options bundle result) :
    Answered form options bundle log i result := by
  rcases consistent.ended_cases ended with
    rfl | ⟨languages, hold, before, within, after, mayEnd, sec, split⟩
  · exact .timedOut
  · have kept : ∀ moment ∈ within, ¬ moment.exchange.Deletes form bundle := by
      intro moment mem deletes
      obtain ⟨dropped, other⟩ := sec.deletes moment mem deletes
      cases other
    cases result with
    | ok messages =>
      obtain ⟨earlier, fetch, later, fetching, fetches, since⟩ :=
        exists_fetches_of_latest_eq_some (sec.latest_eq.trans mayEnd)
      exact .fetched split kept fetching fetches since
    | error error =>
      obtain ⟨loaded, others, held, same, own⟩ := sec.told mayEnd
      cases same
      exact .failed split kept own

/-- What was fetched last stays so until the entry is deleted. -/
theorem latest_append (consistent : Consistent form log traffic) {bundle : String}
    {messages : Messages} {earlier later rest : List (Moment ι)}
    (split : log = earlier ++ later ++ rest)
    (found : latest form bundle earlier = some messages)
    (undeleted : ∀ moment ∈ later, ¬ moment.exchange.Deletes form bundle) :
    latest form bundle (earlier ++ later) = some messages := by
  induction later using List.reverseRecOn generalizing rest with
  | nil => rwa [List.append_nil]
  | append_singleton later last ih =>
    rw [← List.append_assoc, List.append_assoc _ [last], List.singleton_append] at split
    have before := ih split fun moment mem => undeleted moment (List.mem_append_left _ mem)
    have undeletedHere := undeleted last (List.mem_append_right _ List.mem_cons_self)
    rw [← List.append_assoc, latest_concat,
      CacheExchange.latestAfter_of_neither undeletedHere fun others fetches => ?_, before]
    have nothing := (consistent.orderly split).fetches fetches
    rw [before] at nothing
    cases nothing

/-- Between two deletions, whoever is answered messages is answered those that are fetched then.
The fetch comes before the release of the lock, or after it; in the second case messages would be
fetched though some count as fetched already. -/
theorem agreed (consistent : Consistent form log traffic) {i : ι} {options : CacheOptions}
    {bundle : String} {messages fetched : Messages} {earlier period later : List (Moment ι)}
    {fetch : Moment ι} (ended : (traffic.flights i).HasLoaded options bundle (.ok messages))
    (split : log = earlier ++ period ++ later)
    (notBefore : ∀ moment ∈ earlier, moment.flight ≠ i)
    (notAfter : ∀ moment ∈ later, moment.flight ≠ i)
    (undeleted : ∀ moment ∈ period, ¬ moment.exchange.Deletes form bundle)
    (mem : fetch ∈ period) (fetches : fetch.exchange.Fetches bundle fetched) :
    messages = fetched := by
  obtain timedOut | ⟨languages, hold, before, within, after, mayEnd, sec, course⟩ :=
    consistent.ended_cases ended
  · cases timedOut
  have answer : latest form bundle (before ++ ⟨i, tried options bundle (.ok true)⟩ :: within) =
      some messages := sec.latest_eq.trans mayEnd
  rw [← List.cons_append, ← List.append_assoc] at course
  obtain ⟨first, last, rfl⟩ := List.append_of_mem mem
  have places : log = earlier ++ first ++ fetch :: (last ++ later) := by simpa using split
  rcases List.append_eq_append_iff.1 (course.symm.trans places) with
    ⟨between, upTo, rest⟩ | ⟨since, upTo, rest⟩
  · -- The lock was released before the fetch.
    rcases List.append_eq_append_iff.1 upTo with ⟨own, -, rfl⟩ | ⟨own, eq, -⟩
    · have kept := consistent.latest_append (by rw [← upTo, places]) answer fun moment mem =>
        undeleted moment (List.mem_append_left _ (List.mem_append_right own mem))
      have nothing := (consistent.orderly places).fetches fetches
      rw [upTo, kept] at nothing
      cases nothing
    · exact absurd rfl (notBefore ⟨i, tried options bundle (.ok true)⟩ (by simp [eq]))
  · -- The fetch came before the release.
    cases since with
    | nil =>
      obtain ⟨rfl, -⟩ := List.cons.inj rest
      exact absurd fetches (CacheExchange.not_fetches nofun)
    | cons head since =>
      obtain ⟨rfl, onward⟩ := List.cons.inj rest
      rw [List.append_cons (earlier ++ first)] at upTo
      rcases List.append_eq_append_iff.1 onward with ⟨own, -, eq⟩ | ⟨own, rfl, -⟩
      · exact absurd rfl (notAfter ⟨i, released options bundle (.ok ())⟩ (by simp [eq]))
      · have kept := consistent.latest_append (by rw [course, upTo])
          ((latest_concat _ _).trans (CacheExchange.latestAfter_of_fetches fetches))
          fun moment mem => undeleted moment (by simp [mem])
        rw [← upTo, answer] at kept
        exact Option.some.inj kept

end Consistent

/-! ## Operations that wait for the same lock -/

namespace LockTable

/-- Nobody holds the lock of a name, and some wait for it. -/
def queue (name : String) (waiting : Nat) : LockTable :=
  ⟨Dict.empty.insert name 0, Dict.empty, List.replicate waiting 0, 1⟩

/-- Somebody holds the lock of a name, and others wait for it. -/
def contended (name : String) (waiting : Nat) : LockTable :=
  { taken name 0 with waiting := List.replicate waiting 0 }

variable (name : String) (waiting : Nat)

theorem obtain_queue : (queue name waiting).obtain name = (0, queue name (waiting + 1)) := by
  simp [obtain, queue, List.replicate_succ]

theorem acquire?_queue :
    (queue name (waiting + 1)).acquire? name 0 = some (contended name waiting) := by
  simp [acquire?, queue, contended, taken, Dict.values, Dict.empty, List.replicate_succ]

theorem giveUp_contended :
    (contended name (waiting + 1)).giveUp name 0 = contended name waiting := by
  have dropped : (contended name (waiting + 1)).drop 0 = contended name waiting := by
    simp [drop, contended, List.replicate_succ]
  have held : 0 ∈ (Dict.empty.insert name 0).values := List.mem_singleton.2 rfl
  rw [giveUp, dropped]
  simp [forgetIfIdle, contended, taken, held]

theorem release_contended :
    (contended name (waiting + 1)).release name = queue name (waiting + 1) := by
  have held : (contended name (waiting + 1)).isLocked name = true := by
    simp [isLocked, contended, taken, Dict.contains]
  rw [release, if_pos held]
  simp [forgetIfIdle, contended, taken, queue]

end LockTable

namespace MemoryCache

variable {cache : MemoryCache} {name : String} (waiting : Nat)

theorem obtain_of_queue (queued : cache.locks = .queue name waiting) (wait : Duration) :
    (CacheBackend.obtain name wait : StateM MemoryCache _) cache =
      (.ok 0, cache.setLocks (.queue name (waiting + 1))) := by
  show (Except.ok (cache.locks.obtain name).1, cache.setLocks (cache.locks.obtain name).2) = _
  rw [queued, LockTable.obtain_queue]

theorem acquire_of_queue (queued : cache.locks = .queue name (waiting + 1)) :
    (CacheBackend.acquire name 0 : StateM MemoryCache Bool) cache =
      (true, cache.setLocks (.contended name waiting)) := by
  have acquired := queued ▸ LockTable.acquire?_queue name waiting
  simp only [CacheBackend.acquire, acquired]

theorem giveUp_of_contended (held : cache.locks = .contended name (waiting + 1)) :
    (CacheBackend.giveUp name 0 : StateM MemoryCache Unit) cache =
      ((), cache.setLocks (.contended name waiting)) := by
  show ((), cache.setLocks (cache.locks.giveUp name 0)) = _
  rw [held, LockTable.giveUp_contended]

theorem unlock_of_contended (held : cache.locks = .contended name (waiting + 1)) :
    (CacheBackend.unlock name : StateM MemoryCache _) cache =
      (.ok (), cache.setLocks (.queue name (waiting + 1))) := by
  show (Except.ok (), cache.setLocks (cache.locks.release name)) = _
  rw [held, LockTable.release_contended]

theorem get_of_get?_kept {key : String} (missing : cache.kept.get? key = none) :
    (CacheBackend.get key : StateM MemoryCache _) cache = (.ok none, cache) := by
  show (Except.ok (cache.lookup key), cache) = _
  rw [lookup, missing]
  rfl

end MemoryCache

/-! ## Single flight -/

/-- **Operations at the same time are a single flight**, in whatever order they take their steps. -/
theorem Traffic.Run.singleFlight [DecidableEq ι] (run : Traffic.Run form log traffic) :
    SingleFlight form log traffic := by
  have consistent := run.consistent
  exact {
    exclusive := fun holding holdingToo => consistent.locked.exclusive
      (consistent.holds_of_holdsLock holding) (consistent.holds_of_holdsLock holdingToo)
    alone := fun loading loadingToo => consistent.locked.exclusive
      (consistent.holds_of_isLoading loading) (consistent.holds_of_isLoading loadingToo)
    once := by
      intro bundle earlier first between second later messages others split fetches fetchesToo
      rw [← List.cons_append, ← List.append_assoc] at split
      exact exists_deletes_of_latest_eq_none ((consistent.orderly split).fetches fetchesToo) fetches
    answered := consistent.answered
    agreed := consistent.agreed
    stored := fun split stores => (consistent.orderly split).stores stores }

open MemoryCache

/-- Three loads of a bundle and a drop, at the same time. -/
def rush : Fin 4 → CacheOperation
  | 3 => .drop "app"
  | _ => .load "app" []

/-- Messages with one greeting. -/
def hello (text : String) : Messages := Dict.ofList [("en", Dict.ofList [("hello", text)])]

/-- The first load is done, the second one has not waited long enough for it.  The third one has
waited until after the drop and fetches again. -/
theorem singleFlight_rush :
    let options : CacheOptions := {}
    ∃ (log : List (Moment (Fin 4))) (traffic : Traffic (Fin 4)),
      Traffic.Run options.keyFormat log traffic ∧
        log.map Moment.flight = [0, 0, 0, 1, 1, 0, 0, 0, 3, 3, 3, 2, 2, 2, 2] ∧
        (traffic.flights 0).HasLoaded options "app" (.ok (hello "Hello")) ∧
        (traffic.flights 1).HasLoaded options "app"
          (.error (.lockTimeout (options.key "app" .lock) options.locking.wait)) ∧
        (∃ moment ∈ log, moment.exchange.Deletes options.keyFormat "app") ∧
        (∃ moment ∈ log, moment.flight = 2 ∧ moment.exchange.Fetches "app" (hello "Hi")) ∧
        HoldsLock options.keyFormat "app" log 2 ∧ SingleFlight options.keyFormat log traffic := by
  intro options
  have begun := @Traffic.Run.start (Fin 4) _ options.keyFormat (fun i => (options, rush i)) 1
    (by decide +kernel) (fun _ => ⟨rfl, rfl, rfl⟩) (by decide)
  have empty {locks : LockTable} : AllFresh ⟨1, locks, Dict.empty, ⟨0⟩⟩ := by
    intro key found mem
    cases mem
  -- The first load acquires the lock and finds nothing, and the second one gives up.
  have asked := ((begun.step (.obtain (i := 0) rfl rfl rfl) empty).step
    (.obtain (i := 1) rfl rfl (obtain_of_queue 1 rfl _)) empty).step
    (.obtain (i := 2) rfl rfl (obtain_of_queue 2 rfl _)) empty
  have held := asked.step (.acquire (i := 0) rfl rfl (acquire_of_queue 2 rfl)) empty
  have missed := (held.step (.reply (i := 0) rfl rfl) empty).step
    (@Traffic.Step.reply _ _ _ 0 ⟨.count .misses, _⟩ _ () _ rfl rfl) empty
  have refused := (missed.step (.giveUp (i := 1) rfl rfl (giveUp_of_contended 1 rfl)) empty).step
    (@Traffic.Step.reply _ _ _ 1 ⟨.count .lockTimeouts, _⟩ _ () _ rfl rfl) empty
  -- The first load asks the source and stores what it is told.
  have fetched := refused.step (@Traffic.Step.reply _ _ _ 0 ⟨.load "app" [], _⟩ _
    (.ok (hello "Hello")) _ rfl rfl) empty
  have kept {locks : LockTable} {key : String} {messages : Messages} :
      (keep ⟨1, locks, Dict.empty, ⟨0⟩⟩ key messages options.lifetime).AllFresh :=
    empty.keep (by decide) key messages
  have done := (fetched.step (.reply (i := 0) rfl rfl) kept).step
    (.reply (i := 0) rfl (unlock_of_contended 0 (locks_keep ..))) kept
  -- The drop comes next.
  have entered := (done.step (.obtain (i := 3) rfl rfl (obtain_of_queue 1 rfl _)) kept).step
    (.acquire (i := 3) rfl rfl (acquire_of_queue 1 rfl)) kept
  have gone {locks : LockTable} {key other : String} {messages : Messages} :
      ((keep ⟨1, locks, Dict.empty, ⟨0⟩⟩ key messages options.lifetime).remove other).AllFresh :=
    kept.remove other
  have dropped := (entered.step (.reply (i := 3) rfl rfl) gone).step
    (.reply (i := 3) rfl (unlock_of_contended 0 rfl)) gone
  -- The third load has waited all the time, and finds nothing again.
  have next := dropped.step (.acquire (i := 2) rfl rfl (acquire_of_queue 0 rfl)) gone
  have again := (next.step (.reply (i := 2) rfl
    (get_of_get?_kept ((Dict.get?_erase ..).trans (if_pos rfl)))) gone).step
    (@Traffic.Step.reply _ _ _ 2 ⟨.count .misses, _⟩ _ () _ rfl rfl) gone
  have other := again.step (@Traffic.Step.reply _ _ _ 2 ⟨.load "app" [], _⟩ _
    (.ok (hello "Hi")) _ rfl rfl) gone
  have last {log : List (Moment (Fin 4))} {moment : Moment (Fin 4)} :
      moment ∈ log ++ (some moment).toList := List.mem_append_right _ List.mem_cons_self
  have before {log later : List (Moment (Fin 4))} {moment : Moment (Fin 4)} (mem : moment ∈ log) :
      moment ∈ log ++ later := List.mem_append_left _ mem
  refine ⟨_, _, other, by decide +kernel, ⟨[], none, rfl⟩, ⟨[], none, rfl⟩,
    ⟨_, before (before (before (before (before last)))), rfl⟩, ⟨_, last, rfl, _, _, rfl⟩,
    ⟨⟨_, before (before (before last)), rfl, rfl⟩, ?_⟩, other.singleFlight⟩
  intro moment mem own releases
  simp only [Option.toList_none, Option.toList_some, List.append_nil, List.nil_append,
    List.cons_append, List.mem_cons, List.not_mem_nil, or_false] at mem
  rcases mem with rfl | rfl | rfl | rfl | rfl | rfl | rfl | rfl | rfl | rfl | rfl | rfl | rfl |
    rfl | rfl
  all_goals first | exact absurd own (by decide) | cases releases

end Phrasebook
