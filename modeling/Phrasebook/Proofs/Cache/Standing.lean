import Phrasebook.Proofs.Cache.Exclusion

/-!
# Operations that hold their lock

While an operation holds the lock of its bundle, it can count on three things (`Hold`): what the
cache keeps under the key of the bundle, what was fetched last of it since the entry was deleted,
and what the source has told the operation itself.  `CacheOperation.Secure` says, by recursion on
what an operation still has to ask, that it does the right thing as long as these hold: it goes to
the source only if nothing counts as fetched, it stores only what it was told, and it releases the
lock only when the cache keeps what was fetched last.

`Standing` says where an operation stands among all that has happened, from the first request on to
the end.  Steps of others leave it there (`Standing.frame`), and a reply to an operation with its
lock leaves it secure (`secure_reply`).
-/

namespace Phrasebook

open CacheExchange (tried released)

/-! ## What an operation counts on while it holds its lock -/

/-- What an operation can count on while it holds the lock of its bundle: what the cache keeps, what
was fetched last, and what the source has told the operation itself. -/
structure Hold where
  kept : Option Messages
  latest : Option Messages
  told : Option (Except LoadError Messages)

/-- The source has answered. -/
def Hold.tell (hold : Hold) : Except LoadError Messages → Hold
  | .ok messages => { hold with latest := some messages, told := some (.ok messages) }
  | .error error => { hold with told := some (.error error) }

namespace CacheOperation

/-- A load ends with what was fetched last, or with the error that it was told. -/
def MayEnd (hold : Hold) : (operation : CacheOperation) → Except LoadError operation.Answer → Prop
  | load _ _, .ok messages => hold.latest = some messages
  | load _ _, .error error => hold.told = some (.error error)
  | drop _, _ => True

/-- **What is left of an operation is secure**: as long as nobody else touches the bundle, it goes
to the source only if nothing counts as fetched, it stores what it was told, and it releases its
lock only when the cache keeps what was fetched last. -/
def Secure (operation : CacheOperation) :
    Hold → CacheProgram (Except LoadError operation.Answer) → Prop
  | _, Interaction.done _ => False
  | _, Interaction.ask ⟨.tryLock _ _, _⟩ _ => False
  | hold, Interaction.ask ⟨.get _, _⟩ next => Secure operation hold (next (.ok hold.kept))
  | hold, Interaction.ask ⟨.count _, _⟩ next => Secure operation hold (next ())
  | hold, Interaction.ask ⟨.load bundle languages, _⟩ next =>
    operation = .load bundle languages ∧ hold.latest = none ∧
      ∀ answer, Secure operation (hold.tell answer) (next answer)
  | hold, Interaction.ask ⟨.set _ messages _, _⟩ next =>
    hold.told = some (.ok messages) ∧ hold.latest = some messages ∧
      Secure operation { hold with kept := some messages } (next (.ok ()))
  | hold, Interaction.ask ⟨.delete _, _⟩ next =>
    (∃ bundle, operation = .drop bundle) ∧
      Secure operation ⟨none, none, none⟩ (next (.ok hold.kept.isSome))
  | hold, Interaction.ask ⟨.unlock _, _⟩ next =>
    hold.kept = hold.latest ∧
      ∃ result, next (.ok ()) = Interaction.done result ∧ operation.MayEnd hold result

/-- The operation once it has been told whether it got its lock. -/
def afterLock (options : CacheOptions) (operation : CacheOperation) :
    Except LoadError Bool → CacheProgram (Except LoadError operation.Answer)
  | .error error => Interaction.done (.error error)
  | .ok true =>
    operation.body options (some (options.key operation.bundle .lock)) >>= fun result =>
      Interaction.ask
        ⟨.unlock (options.key operation.bundle .lock),
          some (options.key operation.bundle .lock)⟩ fun _ => Interaction.done result
  | .ok false =>
    Interaction.ask ⟨.count .lockTimeouts, none⟩ fun _ =>
      Interaction.done
        (.error (.lockTimeout (options.key operation.bundle .lock) options.locking.wait))

theorem program_eq_ask {form : String} {options : CacheOptions} (guarded : options.IsGuarded form)
    (operation : CacheOperation) :
    operation.program options =
      Interaction.ask
        ⟨.tryLock (options.key operation.bundle .lock) options.locking.wait, none⟩
        (operation.afterLock options) := by
  rw [program_eq_withLock, CacheProgram.withLock_of_lock_eq_true guarded.lock]
  refine congrArg (Interaction.ask _) (funext fun answer => ?_)
  rcases answer with error | (_ | _)
  · rfl
  · rw [guarded.fails]
    rfl
  · rfl

/-- Where the cache keeps what was fetched last, an operation that gets its lock is secure. -/
theorem secure_afterLock (options : CacheOptions) (operation : CacheOperation)
    (kept : Option Messages) :
    operation.Secure ⟨kept, kept, none⟩ (operation.afterLock options (.ok true)) := by
  cases operation with
  | drop bundle => exact ⟨⟨bundle, rfl⟩, rfl, _, rfl, trivial⟩
  | load bundle languages =>
    cases kept with
    | some messages => exact ⟨rfl, _, rfl, rfl⟩
    | none =>
      refine ⟨rfl, rfl, fun answer => ?_⟩
      cases answer with
      | error error => exact ⟨rfl, _, rfl, rfl⟩
      | ok messages => exact ⟨rfl, rfl, rfl, _, rfl, rfl⟩

/-- Everything that an operation asks for is about its bundle. -/
theorem asks_program {form : String} {options : CacheOptions} (guarded : options.IsGuarded form)
    (operation : CacheOperation) :
    (operation.program options).Asks fun step =>
      step.request.IsAbout form operation.bundle := by
  have work : (operation.body options (some (options.key operation.bundle .lock))).Asks fun step =>
      step.request.IsAbout form operation.bundle :=
    (asks_body options operation _).mono fun _ asked => asked.2.isAbout guarded
  rw [program_eq_ask guarded]
  refine ⟨guarded.key_eq _ _, fun answer => ?_⟩
  rcases answer with error | (_ | _)
  · exact trivial
  · exact ⟨trivial, fun _ => trivial⟩
  · exact work.bind fun result => ⟨guarded.key_eq _ _, fun _ => trivial⟩

/-- With its lock, an operation holds it all the time. -/
theorem asks_afterLock (options : CacheOptions) (operation : CacheOperation) :
    (operation.afterLock options (.ok true)).Asks fun step =>
      step.held = some (options.key operation.bundle .lock) := by
  have work := (asks_body options operation (some (options.key operation.bundle .lock))).mono
    fun _ => And.left
  exact work.bind fun result => ⟨rfl, fun _ => trivial⟩

end CacheOperation

/-! ## Where an operation stands -/

variable {ι : Type} {form : String} {i : ι} {options : CacheOptions} {operation : CacheOperation}
  {hold : Hold} {log before within : List (Moment ι)}

/-- The moment at which an operation acquired its lock. -/
def acquired (i : ι) (options : CacheOptions) (operation : CacheOperation) : Moment ι :=
  ⟨i, tried options operation.bundle (.ok true)⟩

/-- **A moment fits what has happened before it**: messages are fetched only if none count as
fetched, and messages are stored by whoever fetched them, with no deletion in between. -/
structure Moment.Fits (form : String) (before : List (Moment ι)) (moment : Moment ι) : Prop where
  fetches : ∀ {bundle messages}, moment.exchange.Fetches bundle messages →
    latest form bundle before = none
  stores : ∀ {bundle messages}, moment.exchange.Stores form bundle messages →
    ∃ earlier fetch later, before = earlier ++ fetch :: later ∧ fetch.flight = moment.flight ∧
      fetch.exchange.Fetches bundle messages ∧
        ∀ since ∈ later, ¬ since.exchange.Deletes form bundle

/-- What has happened since an operation acquired its lock is what it counts on. -/
structure Section (form : String) (i : ι) (options : CacheOptions) (operation : CacheOperation)
    (hold : Hold) (before within : List (Moment ι)) : Prop where
  latest_eq : latest form operation.bundle (before ++ acquired i options operation :: within) =
    hold.latest
  deletes : ∀ moment ∈ within, moment.exchange.Deletes form operation.bundle →
    ∃ bundle, operation = .drop bundle
  told : ∀ {answer}, hold.told = some answer → ∃ bundle languages held,
    operation = .load bundle languages ∧
      ⟨i, ⟨⟨.load bundle languages, held⟩, answer⟩⟩ ∈ within

/-- What neither deletes nor fetches changes nothing. -/
theorem Section.concat (sec : Section form i options operation hold before within)
    {moment : Moment ι} (undeleted : ¬ moment.exchange.Deletes form operation.bundle)
    (unfetched : ∀ messages, ¬ moment.exchange.Fetches operation.bundle messages) :
    Section form i options operation hold before (within ++ [moment]) where
  latest_eq := by
    rw [← List.cons_append, ← List.append_assoc, latest_concat,
      CacheExchange.latestAfter_of_neither undeleted unfetched, sec.latest_eq]
  deletes := List.forall_mem_append.2
    ⟨sec.deletes, List.forall_mem_singleton.2 fun deletes => absurd deletes undeleted⟩
  told := fun told => by
    obtain ⟨bundle, languages, held, rfl, mem⟩ := sec.told told
    exact ⟨bundle, languages, held, rfl, List.mem_append_left _ mem⟩

/-- The source answers. -/
theorem Section.load {bundle : String} {languages : List Language}
    (sec : Section form i options (.load bundle languages) hold before within)
    (answer : Except LoadError Messages) (held : Option String) :
    Section form i options (.load bundle languages) (hold.tell answer) before
      (within ++ [⟨i, ⟨⟨.load bundle languages, held⟩, answer⟩⟩]) where
  latest_eq := by
    rw [← List.cons_append, ← List.append_assoc, latest_concat, sec.latest_eq]
    cases answer with
    | error error => rfl
    | ok messages => exact if_pos rfl
  deletes := List.forall_mem_append.2 ⟨sec.deletes, List.forall_mem_singleton.2 nofun⟩
  told := by
    intro told same
    have eq : told = answer := by
      cases answer <;> exact (Option.some.inj same).symm
    rw [eq]
    exact ⟨bundle, languages, held, rfl, List.mem_append_right _ List.mem_cons_self⟩

/-- What an operation was told, it fetched, and the entry was not deleted since. -/
theorem Section.exists_fetch (sec : Section form i options operation hold before within)
    {messages : Messages} (told : hold.told = some (.ok messages)) :
    ∃ earlier fetch later,
      before ++ acquired i options operation :: within = earlier ++ fetch :: later ∧
        fetch.flight = i ∧ fetch.exchange.Fetches operation.bundle messages ∧
          ∀ since ∈ later, ¬ since.exchange.Deletes form operation.bundle := by
  obtain ⟨bundle, languages, held, rfl, mem⟩ := sec.told told
  obtain ⟨earlier, later, rfl⟩ := List.append_of_mem mem
  refine ⟨before ++ acquired i options (.load bundle languages) :: earlier,
    ⟨i, ⟨⟨.load bundle languages, held⟩, .ok messages⟩⟩, later, by simp, rfl,
    ⟨languages, held, rfl⟩, fun since mem deletes => ?_⟩
  obtain ⟨dropped, eq⟩ :=
    sec.deletes since (List.mem_append_right _ (List.mem_cons_of_mem _ mem)) deletes
  cases eq

/-- **An operation has its lock**, and what it counts on is the case. -/
structure Inside (form : String) (log : List (Moment ι)) (cache : MemoryCache) (i : ι)
    (flight : Flight) (hold : Hold) (before within : List (Moment ι)) : Prop where
  idle : flight.mutex = none
  owns : flight.rest.Asks fun step => step.held = some flight.lock
  secure : flight.operation.Secure hold flight.rest
  kept : cache.lookup (keyOf form flight.operation.bundle .messages) = hold.kept
  split : log = before ++ acquired i flight.options flight.operation :: within
  sec : Section form i flight.options flight.operation hold before within

/-- What has its lock holds it. -/
theorem Inside.holds {cache : MemoryCache} {flight : Flight}
    (inside : Inside form log cache i flight hold before within) :
    flight.holds = some flight.lock := by
  have owns := inside.owns
  have secure := inside.secure
  cases here : flight.rest with
  | done result =>
    rw [here] at secure
    exact secure.elim
  | ask step next =>
    rw [here] at owns
    exact (flight.holds_of_ask here).trans owns.1

/-- **Where an operation stands.** -/
inductive Standing (form : String) (log : List (Moment ι)) (cache : MemoryCache) (i : ι)
    (flight : Flight) : Prop
  /-- It has not asked for its lock, or waits for it. -/
  | waiting (rest_eq : flight.rest = flight.operation.program flight.options)
      (untouched : ∀ moment ∈ log, moment.flight ≠ i)
  /-- It has waited for too long, and counts that. -/
  | counting (idle : flight.mutex = none)
      (rest_eq : flight.rest = flight.operation.afterLock flight.options (.ok false))
      (unlocked : ∀ moment ∈ log, moment.flight = i →
        ¬ moment.exchange.Acquires form flight.operation.bundle)
  /-- It has ended without its lock. -/
  | refused (idle : flight.mutex = none)
      (rest_eq : flight.rest = Interaction.done
        (.error (.lockTimeout flight.lock flight.options.locking.wait)))
      (unlocked : ∀ moment ∈ log, moment.flight = i →
        ¬ moment.exchange.Acquires form flight.operation.bundle)
  /-- It has its lock. -/
  | inside {hold : Hold} {before within : List (Moment ι)}
      (inside : Inside form log cache i flight hold before within)
  /-- It has ended with its lock. -/
  | left (idle : flight.mutex = none) (hold : Hold) (before within after : List (Moment ι))
      (result : Except LoadError flight.operation.Answer)
      (rest_eq : flight.rest = Interaction.done result)
      (mayEnd : flight.operation.MayEnd hold result)
      (split : log = before ++ acquired i flight.options flight.operation ::
        (within ++ ⟨i, released flight.options flight.operation.bundle (.ok ())⟩ :: after))
      (sec : Section form i flight.options flight.operation hold before within)

/-- **Steps of others.**  An operation stands where it stood, as long as its bundle is left alone
while it holds the lock. -/
theorem Standing.frame {cache changed : MemoryCache} {flight : Flight} {moment : Option (Moment ι)}
    (standing : Standing form log cache i flight) (others : ∀ m ∈ moment, m.flight ≠ i)
    (apart : flight.holds = some flight.lock →
      changed.lookup (keyOf form flight.operation.bundle .messages) =
          cache.lookup (keyOf form flight.operation.bundle .messages) ∧
        ∀ m ∈ moment, ¬ m.exchange.Deletes form flight.operation.bundle ∧
          ∀ messages, ¬ m.exchange.Fetches flight.operation.bundle messages) :
    Standing form (log ++ moment.toList) changed i flight := by
  have stillUnlocked (unlocked : ∀ m ∈ log, m.flight = i →
      ¬ m.exchange.Acquires form flight.operation.bundle) :
      ∀ m ∈ log ++ moment.toList, m.flight = i →
        ¬ m.exchange.Acquires form flight.operation.bundle :=
    List.forall_mem_append.2 ⟨unlocked, fun m mem mine =>
      absurd mine (others m (Option.mem_toList.1 mem))⟩
  cases standing with
  | waiting rest_eq untouched =>
    exact .waiting rest_eq (List.forall_mem_append.2
      ⟨untouched, fun m mem => others m (Option.mem_toList.1 mem)⟩)
  | counting idle rest_eq unlocked => exact .counting idle rest_eq (stillUnlocked unlocked)
  | refused idle rest_eq unlocked => exact .refused idle rest_eq (stillUnlocked unlocked)
  | @inside hold before within inside =>
    obtain ⟨lookup_eq, neutral⟩ := apart inside.holds
    have insideStill : Inside form (log ++ moment.toList) changed i flight hold before
        (within ++ moment.toList) := { inside with
      kept := lookup_eq.trans inside.kept
      split := by rw [inside.split, List.append_assoc, List.cons_append]
      sec := by
        cases moment with
        | none =>
          rw [Option.toList_none, List.append_nil]
          exact inside.sec
        | some m => exact inside.sec.concat (neutral m rfl).1 (neutral m rfl).2 }
    exact .inside insideStill
  | left idle hold before within after result rest_eq mayEnd split sec =>
    refine .left idle hold before within (after ++ moment.toList) result rest_eq mayEnd ?_ sec
    rw [split, List.append_assoc, List.cons_append, List.append_assoc, List.cons_append]

/-- What neither fetches nor stores fits anywhere. -/
theorem Moment.fits_of_neither {moment : Moment ι}
    (unfetched : ∀ bundle messages, ¬ moment.exchange.Fetches bundle messages)
    (unstored : ∀ bundle messages, ¬ moment.exchange.Stores form bundle messages) :
    moment.Fits form before where
  fetches := fun fetches => absurd fetches (unfetched _ _)
  stores := fun stores => absurd stores (unstored _ _)

/-- **One reply to an operation that holds its lock.**  The cases are the requests; each is what
`Secure` says of it. -/
theorem secure_reply {step : CacheStep}
    {next : step.Reply → CacheProgram (Except LoadError operation.Answer)} {answer : step.Reply}
    {cache changed : MemoryCache} (place : CacheOptions.bundlePlace.toList <:+: form.toList)
    (secure : operation.Secure hold (Interaction.ask step next))
    (about : step.request.IsAbout form operation.bundle) (holds : ¬ step.request.ReleasesLock)
    (replied : cache.Replies step answer changed)
    (kept : cache.lookup (keyOf form operation.bundle .messages) = hold.kept)
    (room : cache.capacity ≠ 0) (freshBefore : cache.AllFresh) (fresh : changed.AllFresh)
    (sec : Section form i options operation hold before within) :
    ∃ after : Hold, operation.Secure after (next answer) ∧
      changed.lookup (keyOf form operation.bundle .messages) = after.kept ∧
        Section form i options operation after before (within ++ [⟨i, ⟨step, answer⟩⟩]) ∧
          Moment.Fits form (before ++ acquired i options operation :: within)
            ⟨i, ⟨step, answer⟩⟩ := by
  obtain ⟨request, held⟩ := step
  cases request with
  | tryLock name wait => exact secure.elim
  | unlock name => exact absurd trivial holds
  | count counter =>
    obtain rfl : changed = cache := replied
    exact ⟨hold, secure, kept, sec.concat nofun fun _ => CacheExchange.not_fetches nofun,
      Moment.fits_of_neither (fun _ _ => CacheExchange.not_fetches nofun) nofun⟩
  | get key =>
    obtain rfl : key = _ := about
    cases replied
    rw [kept]
    exact ⟨hold, secure, rfl, sec.concat nofun fun _ => CacheExchange.not_fetches nofun,
      Moment.fits_of_neither (fun _ _ => CacheExchange.not_fetches nofun) nofun⟩
  | load bundle languages =>
    obtain rfl : changed = cache := replied
    obtain ⟨rfl, nothing, onward⟩ := secure
    refine ⟨hold.tell answer, onward answer, ?_, ?_, ?_⟩
    · cases answer <;> exact kept
    · exact sec.load answer held
    · exact {
        fetches := by
          rintro other messages ⟨_, _, eq⟩
          cases eq
          exact sec.latest_eq.trans nothing
        stores := nofun }
  | set key messages lifetime =>
    obtain rfl : key = _ := about
    cases replied
    obtain ⟨told, latest, onward⟩ := secure
    have neutral : Section form i options operation hold before (within ++
        [⟨i, ⟨⟨.set (keyOf form operation.bundle .messages) messages lifetime, held⟩, .ok ()⟩⟩]) :=
      sec.concat nofun fun _ => CacheExchange.not_fetches nofun
    refine ⟨{ hold with kept := some messages }, onward, ?_,
      ⟨neutral.latest_eq, neutral.deletes, neutral.told⟩, ?_⟩
    · rw [MemoryCache.lookup_keep room fresh, if_pos rfl]
    · exact {
        fetches := fun fetches => absurd fetches (CacheExchange.not_fetches nofun)
        stores := by
          rintro bundle stored ⟨_, eq⟩
          obtain ⟨sameKey, rfl, rfl⟩ := CacheRequest.set.inj eq
          rw [← eq_of_keyOf_eq place sameKey]
          exact sec.exists_fetch told }
  | delete key =>
    obtain rfl : key = _ := about
    cases replied
    obtain ⟨⟨bundle, rfl⟩, onward⟩ := secure
    rw [freshBefore.contains_eq, kept]
    refine ⟨⟨none, none, none⟩, onward, ?_, ?_, ?_⟩
    · rw [MemoryCache.lookup_remove, if_pos rfl]
    · exact {
        latest_eq := by
          rw [← List.cons_append, ← List.append_assoc, latest_concat]
          exact CacheExchange.latestAfter_of_deletes rfl
        deletes := fun _ _ _ => ⟨bundle, rfl⟩
        told := nofun }
    · exact Moment.fits_of_neither (fun _ _ => CacheExchange.not_fetches nofun) nofun

end Phrasebook
