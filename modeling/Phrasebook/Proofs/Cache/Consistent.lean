import Phrasebook.Proofs.Cache.Exclusion
import Phrasebook.Proofs.Cache.Standing
import Phrasebook.Proofs.Store.History

/-!
# What every run keeps up

`Consistent` says that all that has happened agrees with where the operations stand, what the locks
are and what the cache keeps.  The heart of it is `Consistent.free`: as long as nobody holds the
lock of a bundle, the cache keeps what was fetched last of it since the entry was deleted.  Whoever
acquires the lock can count on that, and has to see to it again before releasing the lock.

In one step, one operation comes further.  `Consistent.advance` says once what has to be known of
that operation for the others to be undisturbed; the cases are `obtain`, `acquire` and `giveUp` for
the lock, and `count`, `work` and `leave` for replies, by where the operation stands.

## Main statement

- `Traffic.Run.consistent`: every run is consistent.
-/

namespace Phrasebook

open CacheExchange (released)

variable {ι : Type} [DecidableEq ι] {form : String} {log : List (Moment ι)} {traffic : Traffic ι}

/-- **All that has happened is consistent with where the operations stand.** -/
structure Consistent (form : String) (log : List (Moment ι)) (traffic : Traffic ι) : Prop where
  place : CacheOptions.bundlePlace.toList <:+: form.toList
  guarded : ∀ i, (traffic.flights i).options.IsGuarded form
  about : ∀ i, (traffic.flights i).rest.Asks fun step =>
    step.request.IsAbout form (traffic.flights i).operation.bundle
  aboutLog : ∀ moment ∈ log, moment.exchange.request.IsAbout form
    (traffic.flights moment.flight).operation.bundle
  room : traffic.cache.capacity ≠ 0
  fresh : traffic.cache.AllFresh
  locked : traffic.Locked
  standing : ∀ i, Standing form log traffic.cache i (traffic.flights i)
  free : ∀ bundle, (∀ i, (traffic.flights i).holds ≠ some (keyOf form bundle .lock)) →
    traffic.cache.lookup (keyOf form bundle .messages) = latest form bundle log
  orderly : ∀ {before moment after}, log = before ++ moment :: after → moment.Fits form before

theorem Flight.lock_eq {flight : Flight} (guarded : flight.options.IsGuarded form) :
    flight.lock = keyOf form flight.operation.bundle .lock :=
  guarded.key_eq _ _

omit [DecidableEq ι] in
/-- An operation holds its own lock or none. -/
theorem Standing.holds_cases {cache : MemoryCache} {i : ι} {flight : Flight}
    (guarded : flight.options.IsGuarded form) (standing : Standing form log cache i flight) :
    flight.holds = none ∨ flight.holds = some flight.lock := by
  cases standing with
  | waiting rest_eq untouched =>
    rw [CacheOperation.program_eq_ask guarded] at rest_eq
    exact Or.inl (Flight.holds_of_ask _ rest_eq)
  | counting idle rest_eq unlocked => exact Or.inl (Flight.holds_of_ask _ rest_eq)
  | refused idle rest_eq unlocked => exact Or.inl (Flight.holds_of_done _ rest_eq)
  | inside inside => exact Or.inr inside.holds
  | left idle hold before within after result rest_eq mayEnd split sec =>
    exact Or.inl (Flight.holds_of_done _ rest_eq)

omit [DecidableEq ι] in
/-- What neither deletes nor fetches changes nothing. -/
theorem latest_append_of_neither {bundle : String} {moment : Option (Moment ι)}
    (neither : ∀ m ∈ moment, ¬ m.exchange.Deletes form bundle ∧
      ∀ messages, ¬ m.exchange.Fetches bundle messages) :
    latest form bundle (log ++ moment.toList) = latest form bundle log := by
  cases moment with
  | none => rw [Option.toList_none, List.append_nil]
  | some m =>
    rw [Option.toList_some, latest_concat,
      CacheExchange.latestAfter_of_neither (neither m rfl).1 (neither m rfl).2]

namespace Consistent

/-- **One operation comes further.**  The others stand where they stood, and the entries of their
bundles are what they were. -/
theorem advance (consistent : Consistent form log traffic) {i : ι} {flight : Flight}
    {cache : MemoryCache} {moment : Option (Moment ι)}
    (options_eq : flight.options = (traffic.flights i).options)
    (operation_eq : flight.operation = (traffic.flights i).operation)
    (mine : ∀ m ∈ moment, m.flight = i ∧ m.exchange.request.IsAbout form flight.operation.bundle)
    (about : flight.rest.Asks fun step => step.request.IsAbout form flight.operation.bundle)
    (room : cache.capacity ≠ 0) (fresh : cache.AllFresh)
    (locked : (traffic.advance i flight cache).Locked)
    (lookup_eq : ∀ bundle, bundle ≠ flight.operation.bundle ∨ (traffic.flights i).holds = none →
      cache.lookup (keyOf form bundle .messages) =
        traffic.cache.lookup (keyOf form bundle .messages))
    (neutral : (traffic.flights i).holds = none → ∀ m ∈ moment,
      ¬ m.exchange.Deletes form flight.operation.bundle ∧
        ∀ messages, ¬ m.exchange.Fetches flight.operation.bundle messages)
    (standing : Standing form (log ++ moment.toList) cache i flight)
    (free : (traffic.flights i).holds ≠ none → flight.holds = none →
      cache.lookup (keyOf form flight.operation.bundle .messages) =
        latest form flight.operation.bundle (log ++ moment.toList))
    (fits : ∀ m ∈ moment, m.Fits form log) :
    Consistent form (log ++ moment.toList) (traffic.advance i flight cache) := by
  have guardedHere : flight.options.IsGuarded form := options_eq ▸ consistent.guarded i
  have lock_eq : flight.lock = (traffic.flights i).lock := by
    rw [Flight.lock, options_eq, operation_eq, Flight.lock]
  have operations_eq (j : ι) : ((traffic.advance i flight cache).flights j).operation =
      (traffic.flights j).operation := by
    by_cases same : j = i
    · rw [same, Traffic.flights_advance_self, operation_eq]
    · rw [Traffic.flights_advance_of_ne same]
  have neither (bundle : String)
      (apart : bundle ≠ flight.operation.bundle ∨ (traffic.flights i).holds = none) :
      ∀ m ∈ moment, ¬ m.exchange.Deletes form bundle ∧
        ∀ messages, ¬ m.exchange.Fetches bundle messages := by
    intro m mem
    by_cases same : bundle = flight.operation.bundle
    · subst same
      exact neutral (apart.resolve_left fun different => different rfl) m mem
    · exact ⟨CacheExchange.not_deletes_of_isAbout consistent.place (mine m mem).2 same,
        fun _ => CacheExchange.not_fetches_of_isAbout (mine m mem).2 same⟩
  -- Whoever else holds a lock works on another bundle, or nobody works on this one.
  have apart {j : ι} (other : j ≠ i)
      (holds : (traffic.flights j).holds = some (traffic.flights j).lock) :
      (traffic.flights j).operation.bundle ≠ flight.operation.bundle ∨
        (traffic.flights i).holds = none := by
    rcases (consistent.standing i).holds_cases (consistent.guarded i) with idle | holding
    · exact Or.inr idle
    · refine Or.inl fun same => other (consistent.locked.exclusive holds ?_)
      rw [holding, ← lock_eq, Flight.lock_eq guardedHere, Flight.lock_eq (consistent.guarded j),
        same]
  exact {
    place := consistent.place
    guarded := fun j => by
      by_cases same : j = i
      · rw [same, Traffic.flights_advance_self]
        exact guardedHere
      · rw [Traffic.flights_advance_of_ne same]
        exact consistent.guarded j
    about := fun j => by
      by_cases same : j = i
      · subst same
        rw [Traffic.flights_advance_self]
        exact about
      · rw [Traffic.flights_advance_of_ne same]
        exact consistent.about j
    aboutLog := List.forall_mem_append.2
      ⟨fun m mem => by
        rw [operations_eq]
        exact consistent.aboutLog m mem,
      fun m mem => by
        obtain ⟨rfl, about⟩ := mine m (Option.mem_toList.1 mem)
        rwa [operations_eq, ← operation_eq]⟩
    room
    fresh
    locked
    standing := fun j => by
      by_cases same : j = i
      · subst same
        rw [Traffic.flights_advance_self]
        exact standing
      · rw [Traffic.flights_advance_of_ne same]
        refine (consistent.standing j).frame (fun m mem eq => same (eq.symm.trans (mine m mem).1))
          fun holds => ?_
        have different := apart same holds
        exact ⟨lookup_eq _ different, neither _ different⟩
    free := fun bundle nobody => by
      by_cases unheld : bundle ≠ flight.operation.bundle ∨ (traffic.flights i).holds = none
      · rw [latest_append_of_neither (neither bundle unheld)]
        refine (lookup_eq bundle unheld).trans (consistent.free bundle fun j holds => ?_)
        by_cases same : j = i
        · rw [same] at holds
          rcases unheld with different | idle
          · rcases (consistent.standing i).holds_cases (consistent.guarded i) with idle | holding
            · rw [idle] at holds
              cases holds
            · rw [holding, ← lock_eq, Flight.lock_eq guardedHere] at holds
              exact different (eq_of_keyOf_eq consistent.place (Option.some.inj holds)).symm
          · rw [idle] at holds
            cases holds
        · exact nobody j (by rwa [Traffic.flights_advance_of_ne same])
      · obtain ⟨own, held⟩ := not_or.1 unheld
        obtain rfl := not_not.1 own
        refine free held ((standing.holds_cases guardedHere).resolve_right fun holds => ?_)
        refine nobody i ?_
        rw [Traffic.flights_advance_self, holds, Flight.lock_eq guardedHere]
    orderly := by
      intro before last after split
      cases moment with
      | none => exact consistent.orderly (by simpa using split)
      | some m =>
        rcases concat_eq_append_cons_iff.1 split with ⟨rfl, rfl, rfl⟩ | ⟨shorter, rfl, rfl⟩
        · exact fits _ rfl
        · exact consistent.orderly rfl }

omit [DecidableEq ι] in
/-- Nothing has happened yet. -/
theorem start {begun : ι → CacheOptions × CacheOperation} {capacity : UInt64}
    (place : CacheOptions.bundlePlace.toList <:+: form.toList)
    (guarded : ∀ i, (begun i).1.IsGuarded form) (room : capacity ≠ 0) :
    Consistent form []
      (⟨fun i => Flight.start (begun i).1 (begun i).2, MemoryCache.ofCapacity capacity⟩ :
        Traffic ι) := by
  have idle (i : ι) : (Flight.start (begun i).1 (begun i).2).holds = none :=
    Flight.holds_of_ask (Flight.start _ _) (CacheOperation.program_eq_ask (guarded i) (begun i).2)
  exact {
    place
    guarded
    about := fun i => CacheOperation.asks_program (guarded i) (begun i).2
    aboutLog := nofun
    room
    fresh := nofun
    locked := {
      sound := ⟨[], List.nodup_nil, fun i => by simp [Flight.start], LockTable.sound_empty⟩
      held := fun {i _} holds => by
        rw [idle i] at holds
        cases holds
      exclusive := fun {i _ _} holds => by
        rw [idle i] at holds
        cases holds }
    standing := fun i => .waiting rfl nofun
    free := fun bundle _ => rfl
    orderly := by simp }

omit [DecidableEq ι] in
/-- Everything that an operation still asks for is about its bundle. -/
theorem about_ask (consistent : Consistent form log traffic) {i : ι} {step : CacheStep}
    {next : step.Reply → CacheProgram (Except LoadError (traffic.flights i).operation.Answer)}
    (here : (traffic.flights i).rest = Interaction.ask step next) :
    step.request.IsAbout form (traffic.flights i).operation.bundle ∧
      ∀ answer, (next answer).Asks fun step =>
        step.request.IsAbout form (traffic.flights i).operation.bundle := by
  have about := consistent.about i
  rw [here] at about
  exact about

/-- **An operation without a lock comes further.**  Only the locks change. -/
theorem advance_unheld (consistent : Consistent form log traffic) {i : ι}
    {rest : CacheProgram (Except LoadError (traffic.flights i).operation.Answer)}
    {mutex : Option Mutex} {locks : LockTable} {moment : Option (Moment ι)}
    (unheld : (traffic.flights i).holds = none)
    (mine : ∀ m ∈ moment, m.flight = i ∧
      m.exchange.request.IsAbout form (traffic.flights i).operation.bundle)
    (idle : ∀ m ∈ moment, ¬ m.exchange.request.IsWork)
    (about : rest.Asks fun step => step.request.IsAbout form (traffic.flights i).operation.bundle)
    (locked : (traffic.advance i { traffic.flights i with rest, mutex }
      (traffic.cache.setLocks locks)).Locked)
    (standing : Standing form (log ++ moment.toList) (traffic.cache.setLocks locks) i
      { traffic.flights i with rest, mutex }) :
    Consistent form (log ++ moment.toList)
      (traffic.advance i { traffic.flights i with rest, mutex } (traffic.cache.setLocks locks)) :=
  consistent.advance rfl rfl mine about consistent.room consistent.fresh locked (fun _ _ => rfl)
    (fun _ m mem => ⟨CacheExchange.not_deletes_of_idle (idle m mem),
      fun _ => CacheExchange.not_fetches_of_idle (idle m mem)⟩)
    standing (fun held => absurd unheld held)
    (fun m mem => Moment.fits_of_neither
      (fun _ _ => CacheExchange.not_fetches_of_idle (idle m mem))
      (fun _ _ => CacheExchange.not_stores_of_idle (idle m mem)))

section Lock

variable {i : ι} {name : String} {wait : Duration} {held : Option String}
  {next : Except LoadError Bool →
    CacheProgram (Except LoadError (traffic.flights i).operation.Answer)}
  {mutex : Mutex} {cache : MemoryCache}

omit [DecidableEq ι] in
/-- Whoever asks for a lock has not done anything yet, and asks for its own. -/
theorem waiting_of_tryLock (consistent : Consistent form log traffic)
    (here : (traffic.flights i).rest = Interaction.ask ⟨.tryLock name wait, held⟩ next) :
    (name = (traffic.flights i).lock ∧ wait = (traffic.flights i).options.locking.wait ∧
      held = none ∧
        next = (traffic.flights i).operation.afterLock (traffic.flights i).options) ∧
      (traffic.flights i).holds = none ∧ ∀ moment ∈ log, moment.flight ≠ i := by
  have standing := consistent.standing i
  cases standing with
  | waiting rest_eq untouched =>
    rw [here, CacheOperation.program_eq_ask (consistent.guarded i)] at rest_eq
    cases rest_eq
    exact ⟨⟨rfl, rfl, rfl, rfl⟩, Flight.holds_of_ask _ here, untouched⟩
  | counting idle rest_eq unlocked => cases here.symm.trans rest_eq
  | refused idle rest_eq unlocked => cases here.symm.trans rest_eq
  | inside inside =>
    have secure := inside.secure
    rw [here] at secure
    exact secure.elim
  | left idle hold before within after result rest_eq mayEnd split sec =>
    cases here.symm.trans rest_eq

/-- The mutex of a lock is obtained. -/
theorem obtain (consistent : Consistent form log traffic)
    (here : (traffic.flights i).rest = Interaction.ask ⟨.tryLock name wait, held⟩ next)
    (idle : (traffic.flights i).mutex = none)
    (obtained : (CacheBackend.obtain name wait : StateM MemoryCache _) traffic.cache =
      (.ok mutex, cache)) :
    Consistent form (log ++ (none : Option (Moment ι)).toList)
      (traffic.advance i { traffic.flights i with mutex := some mutex } cache) := by
  obtain ⟨⟨rfl, rfl, rfl, rfl⟩, unheld, untouched⟩ := consistent.waiting_of_tryLock here
  obtain ⟨rfl, rfl⟩ := MemoryCache.eq_of_obtain obtained
  have unheldStill : ({ traffic.flights i with
      mutex := some (traffic.cache.locks.obtain (traffic.flights i).lock).1 } : Flight).holds =
        none :=
    Flight.holds_of_ask { traffic.flights i with mutex := some _ } here
  refine consistent.advance_unheld unheld nofun nofun (consistent.about i)
    (consistent.locked.obtain idle rfl unheldStill rfl) (.waiting ?_ ?_)
  · exact here.trans (CacheOperation.program_eq_ask (consistent.guarded i) _).symm
  · simpa using untouched

/-- The lock is acquired.  Nobody holds it, so the cache keeps what was fetched last. -/
theorem acquire (consistent : Consistent form log traffic)
    (here : (traffic.flights i).rest = Interaction.ask ⟨.tryLock name wait, held⟩ next)
    (waits : (traffic.flights i).mutex = some mutex)
    (took : (CacheBackend.acquire name mutex : StateM MemoryCache Bool) traffic.cache =
      (true, cache)) :
    Consistent form (log ++
        (some ⟨i, ⟨⟨.tryLock name wait, held⟩, .ok true⟩⟩ : Option (Moment ι)).toList)
      (traffic.advance i { traffic.flights i with rest := next (.ok true), mutex := none }
        cache) := by
  have about := consistent.about_ask here
  obtain ⟨⟨rfl, rfl, rfl, rfl⟩, unheld, untouched⟩ := consistent.waiting_of_tryLock here
  obtain ⟨locks, taken, rfl⟩ := MemoryCache.exists_acquire?_of_acquire took
  have kept := consistent.free (traffic.flights i).operation.bundle fun j => by
    rw [← Flight.lock_eq (consistent.guarded i)]
    exact consistent.locked.holds_ne_of_acquire? waits taken j
  have inside : Inside form
      (log ++ [acquired i (traffic.flights i).options (traffic.flights i).operation])
      (traffic.cache.setLocks locks) i
      { traffic.flights i with
        rest := (traffic.flights i).operation.afterLock (traffic.flights i).options (.ok true)
        mutex := none }
      ⟨_, _, none⟩ log [] := {
    idle := rfl
    owns := CacheOperation.asks_afterLock _ _
    secure := CacheOperation.secure_afterLock _ _ _
    kept
    split := rfl
    sec := {
      latest_eq := latest_concat _ _
      deletes := nofun
      told := nofun } }
  exact consistent.advance_unheld unheld (forall_mem_some_iff.2 ⟨rfl, about.1⟩)
    (forall_mem_some_iff.2 id) (about.2 _)
    (consistent.locked.acquire waits rfl inside.holds taken) (.inside inside)

/-- The mutex of a lock is given up. -/
theorem giveUp (consistent : Consistent form log traffic)
    (here : (traffic.flights i).rest = Interaction.ask ⟨.tryLock name wait, held⟩ next)
    (waits : (traffic.flights i).mutex = some mutex)
    (gaveUp : (CacheBackend.giveUp name mutex : StateM MemoryCache Unit) traffic.cache =
      ((), cache)) :
    Consistent form (log ++
        (some ⟨i, ⟨⟨.tryLock name wait, held⟩, .ok false⟩⟩ : Option (Moment ι)).toList)
      (traffic.advance i { traffic.flights i with rest := next (.ok false), mutex := none }
        cache) := by
  have about := consistent.about_ask here
  obtain ⟨⟨rfl, rfl, rfl, rfl⟩, unheld, untouched⟩ := consistent.waiting_of_tryLock here
  cases gaveUp
  refine consistent.advance_unheld unheld (forall_mem_some_iff.2 ⟨rfl, about.1⟩)
    (forall_mem_some_iff.2 id) (about.2 _) (consistent.locked.giveUp waits rfl rfl rfl)
    (.counting rfl rfl (List.forall_mem_append.2 ⟨?_, List.forall_mem_singleton.2 fun _ => id⟩))
  intro m mem mine
  exact absurd mine (untouched m mem)

end Lock

section Reply

variable {i : ι} {step : CacheStep}
  {next : step.Reply → CacheProgram (Except LoadError (traffic.flights i).operation.Answer)}
  {answer : step.Reply} {cache : MemoryCache}

/-- That an operation has waited too long is counted. -/
theorem count (consistent : Consistent form log traffic)
    (here : (traffic.flights i).rest = Interaction.ask step next)
    (replied : traffic.cache.Replies step answer cache)
    (idle : (traffic.flights i).mutex = none)
    (rest_eq : (traffic.flights i).rest =
      (traffic.flights i).operation.afterLock (traffic.flights i).options (.ok false))
    (unlocked : ∀ moment ∈ log, moment.flight = i →
      ¬ moment.exchange.Acquires form (traffic.flights i).operation.bundle) :
    Consistent form (log ++ (some ⟨i, ⟨step, answer⟩⟩ : Option (Moment ι)).toList)
      (traffic.advance i { traffic.flights i with rest := next answer } cache) := by
  have about := consistent.about_ask here
  have unheld : (traffic.flights i).holds = none := Flight.holds_of_ask _ rest_eq
  cases here.symm.trans rest_eq
  obtain rfl : cache = traffic.cache := replied
  exact consistent.advance_unheld unheld (forall_mem_some_iff.2 ⟨rfl, about.1⟩)
    (forall_mem_some_iff.2 id) (about.2 answer)
    (consistent.locked.stay idle idle unheld.symm rfl)
    (.refused idle rfl (List.forall_mem_append.2
      ⟨unlocked, List.forall_mem_singleton.2 fun _ => id⟩))

/-- An operation with its lock gets a reply. -/
theorem work (consistent : Consistent form log traffic)
    (here : (traffic.flights i).rest = Interaction.ask step next)
    (replied : traffic.cache.Replies step answer cache) (fresh : cache.AllFresh)
    {hold : Hold} {before within : List (Moment ι)}
    (inside : Inside form log traffic.cache i (traffic.flights i) hold before within)
    (unreleased : ¬ step.request.ReleasesLock) :
    Consistent form (log ++ (some ⟨i, ⟨step, answer⟩⟩ : Option (Moment ι)).toList)
      (traffic.advance i { traffic.flights i with rest := next answer } cache) := by
  have about := consistent.about_ask here
  have holds := inside.holds
  obtain ⟨idle, owns, secure, kept, split, sec⟩ := inside
  rw [here] at owns secure
  obtain ⟨after, onward, keptAfter, secAfter, fits⟩ :=
    secure_reply consistent.place secure about.1 unreleased replied kept consistent.room
      consistent.fresh fresh sec
  have insideStill : Inside form (log ++ [⟨i, ⟨step, answer⟩⟩]) cache i
      { traffic.flights i with rest := next answer } after before
      (within ++ [⟨i, ⟨step, answer⟩⟩]) := {
    idle
    owns := owns.2 answer
    secure := onward
    kept := keptAfter
    split := by
      rw [split, List.append_assoc, List.cons_append]
    sec := secAfter }
  have room : cache.capacity ≠ 0 := by
    rw [replied.capacity_eq]
    exact consistent.room
  rw [← split] at fits
  refine consistent.advance rfl rfl (forall_mem_some_iff.2 ⟨rfl, about.1⟩) (about.2 answer) room
    fresh
    (consistent.locked.stay idle idle (insideStill.holds.trans holds.symm)
      (replied.locks_eq unreleased))
    (fun bundle apart => replied.lookup_eq consistent.place consistent.room fresh about.1
      (apart.resolve_right (by simp [holds])))
    (fun unheld => ?_) (.inside insideStill) (fun _ unheld => ?_) (forall_mem_some_iff.2 fits)
  -- The operation held its lock before the step, and holds it after the step.
  · cases holds.symm.trans unheld
  · cases insideStill.holds.symm.trans unheld

/-- An operation with its lock releases it.  The cache keeps what was fetched last. -/
theorem leave (consistent : Consistent form log traffic) {name : String} {held : Option String}
    {next : Except LoadError Unit →
      CacheProgram (Except LoadError (traffic.flights i).operation.Answer)}
    {answer : Except LoadError Unit}
    (here : (traffic.flights i).rest = Interaction.ask ⟨.unlock name, held⟩ next)
    (replied : traffic.cache.Replies ⟨.unlock name, held⟩ answer cache)
    {hold : Hold} {before within : List (Moment ι)}
    (inside : Inside form log traffic.cache i (traffic.flights i) hold before within) :
    Consistent form
      (log ++ (some ⟨i, ⟨⟨.unlock name, held⟩, answer⟩⟩ : Option (Moment ι)).toList)
      (traffic.advance i { traffic.flights i with rest := next answer } cache) := by
  have about := consistent.about_ask here
  have holds := inside.holds
  obtain ⟨idle, owns, secure, kept, split, sec⟩ := inside
  rw [here] at owns secure
  obtain ⟨settled, result, ended, mayEnd⟩ := secure
  obtain rfl : name = (traffic.flights i).lock :=
    about.1.trans (Flight.lock_eq (consistent.guarded i)).symm
  obtain rfl : held = some (traffic.flights i).lock := owns.1
  cases replied
  have unheld : ({ traffic.flights i with rest := next (.ok ()) } : Flight).holds = none :=
    Flight.holds_of_done { traffic.flights i with rest := next (.ok ()) } ended
  have neither : ∀ m ∈ (some ⟨i, ⟨⟨.unlock (traffic.flights i).lock,
      some (traffic.flights i).lock⟩, .ok ()⟩⟩ : Option (Moment ι)),
        ¬ m.exchange.request.IsWork := forall_mem_some_iff.2 id
  refine consistent.advance rfl rfl (forall_mem_some_iff.2 ⟨rfl, about.1⟩) (about.2 _)
    consistent.room consistent.fresh
    (consistent.locked.release idle idle holds unheld rfl) (fun _ _ => rfl)
    (fun unheld => ?_) (.left idle hold before within [] result ended mayEnd ?_ sec)
    (fun _ _ => ?_) (fun m mem => ?_)
  · cases holds.symm.trans unheld
  · rw [split, List.append_assoc, List.cons_append]
    rfl
  · rw [latest_append_of_neither fun m mem => ⟨CacheExchange.not_deletes_of_idle (neither m mem),
      fun _ => CacheExchange.not_fetches_of_idle (neither m mem)⟩]
    refine (kept.trans settled).trans ?_
    rw [split, sec.latest_eq]
  · exact Moment.fits_of_neither (fun _ _ => CacheExchange.not_fetches_of_idle (neither m mem))
      (fun _ _ => CacheExchange.not_stores_of_idle (neither m mem))

/-- **Any reply.**  The cases are where the operation stands. -/
theorem reply (consistent : Consistent form log traffic)
    (here : (traffic.flights i).rest = Interaction.ask step next)
    (replied : traffic.cache.Replies step answer cache) (fresh : cache.AllFresh) :
    Consistent form (log ++ (some ⟨i, ⟨step, answer⟩⟩ : Option (Moment ι)).toList)
      (traffic.advance i { traffic.flights i with rest := next answer } cache) := by
  have standing := consistent.standing i
  cases standing with
  | waiting rest_eq untouched =>
    rw [here, CacheOperation.program_eq_ask (consistent.guarded i)] at rest_eq
    cases rest_eq
    exact replied.elim
  | counting idle rest_eq unlocked => exact consistent.count here replied idle rest_eq unlocked
  | refused idle rest_eq unlocked => cases here.symm.trans rest_eq
  | inside inside =>
    by_cases releases : step.request.ReleasesLock
    · obtain ⟨request, held⟩ := step
      obtain ⟨name, rfl⟩ := releases.exists_eq_unlock
      exact consistent.leave here replied inside
    · exact consistent.work here replied fresh inside releases
  | left idle hold before within after result rest_eq mayEnd split sec =>
    cases here.symm.trans rest_eq

end Reply

omit [DecidableEq ι] in
/-- Time passes. -/
theorem sleep (consistent : Consistent form log traffic) {time : Duration}
    (fresh : (traffic.cache.sleep time).AllFresh) :
    Consistent form (log ++ (none : Option (Moment ι)).toList)
      { traffic with cache := traffic.cache.sleep time } := by
  have lookup_eq (key : String) := MemoryCache.lookup_sleep consistent.fresh fresh key
  have standing (i : ι) : Standing form (log ++ (none : Option (Moment ι)).toList)
      (traffic.cache.sleep time) i (traffic.flights i) :=
    (consistent.standing i).frame nofun fun _ => ⟨lookup_eq _, nofun⟩
  rw [Option.toList_none, List.append_nil] at standing ⊢
  exact { consistent with
    fresh
    locked := { consistent.locked with }
    standing
    free := fun bundle nobody => (lookup_eq _).trans (consistent.free bundle nobody) }

/-- **One step.** -/
theorem step {moment : Option (Moment ι)} {after : Traffic ι}
    (consistent : Consistent form log traffic) (step : traffic.Step moment after)
    (fresh : after.cache.AllFresh) : Consistent form (log ++ moment.toList) after := by
  cases step with
  | obtain here idle obtained => exact consistent.obtain here idle obtained
  | acquire here waits acquired => exact consistent.acquire here waits acquired
  | giveUp here waits gaveUp => exact consistent.giveUp here waits gaveUp
  | reply here replied => exact consistent.reply here replied fresh
  | sleep time => exact consistent.sleep fresh

end Consistent

/-- **Every run is consistent.** -/
theorem Traffic.Run.consistent (run : Traffic.Run form log traffic) :
    Consistent form log traffic := by
  induction run with
  | start place guarded room => exact Consistent.start place guarded room
  | step before step fresh ih => exact ih.step step fresh

end Phrasebook
