import Phrasebook.Proofs.Cache.Alone
import Phrasebook.Proofs.Cache.Keys
import Phrasebook.Proofs.Store.History
import Phrasebook.Source.Scripted

/-!
# What a cached source remembers

A cached source over a backend in memory is used by one caller at a time.  As long as nothing that
the backend keeps runs out, what it remembers of a bundle can be told from the past alone: the
messages that the source behind it answered last, unless the bundle was dropped since
(`Remembers`).  The past is a list of turns, each with the calls that it made to the source.

The source may be any: it may fail, answer differently each time, or not answer at all.  The record
of its calls is kept by a `RecordedSource`, so that what it is asked can be spoken about.

The invariant that carries this (`Remembering`) is that the backend keeps under the key of a bundle
just what is remembered of it.  It rests on keys that tell bundles apart.

If what is kept lasts for some time, turns can be taken one after the other, and nothing runs out
(`Undisturbed.exists_turn`).

## Main statement

`Undisturbed.answersFrom`: after any turns, a load answers what is remembered without a call to the
source, and otherwise makes one call and hands on its answer; dropping a bundle answers whether
something was remembered; and what is remembered of a bundle is left alone by the others.
-/

namespace Phrasebook

/-! ## Sources with a record of their calls -/

/-- A call of a source and its answer; a call without one never came back. -/
structure SourceCall where
  bundle : String
  languages : List Language
  answer : Option (Except LoadError Messages)

/-- A source with the record of its calls, the first one first. -/
structure RecordedSource (σ : Type) where
  source : σ
  calls : List SourceCall := []

namespace RecordedSource

variable {σ : Type} [MessageSource σ]

/-- Loads a bundle for languages and records the call. -/
def load (bundle : String) (languages : List Language) :
    Loading (RecordedSource σ) (Except LoadError Messages) := fun recorded =>
  let (answer, source) := (MessageSource.load bundle languages : Loading σ _) recorded.source
  (answer, ⟨source, recorded.calls ++ [⟨bundle, languages, answer⟩]⟩)

instance : MessageSource (RecordedSource σ) where
  load := load
  pauses recorded := MessageSource.pauses recorded.source

theorem load_of_load {recorded : RecordedSource σ} {bundle : String} {languages : List Language}
    {answer : Option (Except LoadError Messages)} {source : σ}
    (loaded : (MessageSource.load bundle languages : Loading σ _) recorded.source =
      (answer, source)) :
    (MessageSource.load bundle languages : Loading (RecordedSource σ) _) recorded =
      (answer, ⟨source, recorded.calls ++ [⟨bundle, languages, answer⟩]⟩) := by
  show RecordedSource.load bundle languages recorded = _
  rw [RecordedSource.load, loaded]

end RecordedSource

/-! ## The past -/

/-- An operation that has come to its end, and the calls that it made to the source. -/
structure CacheTurn where
  operation : CacheOperation
  calls : List SourceCall

/-- In a turn the source answered messages for a bundle. -/
def CacheTurn.Fetched (bundle : String) (messages : Messages) (turn : CacheTurn) : Prop :=
  ∃ languages, ⟨bundle, languages, some (.ok messages)⟩ ∈ turn.calls

/-- **What is remembered of a bundle**: what the source answered last, unless the bundle was dropped
since. -/
def Remembers (turns : List CacheTurn) (bundle : String) (messages : Messages) : Prop :=
  ∃ before turn after, turns = before ++ turn :: after ∧ turn.Fetched bundle messages ∧
    ∀ later ∈ after, later.operation ≠ .drop bundle ∧ ∀ other, ¬ later.Fetched bundle other

@[simp]
theorem not_fetched_nil {operation : CacheOperation} {bundle : String} {messages : Messages} :
    ¬ CacheTurn.Fetched bundle messages ⟨operation, []⟩ := by
  simp [CacheTurn.Fetched]

@[simp]
theorem fetched_singleton_iff {operation : CacheOperation} {call : SourceCall} {bundle : String}
    {messages : Messages} :
    CacheTurn.Fetched bundle messages ⟨operation, [call]⟩ ↔
      bundle = call.bundle ∧ call.answer = some (.ok messages) := by
  constructor
  · rintro ⟨languages, mem⟩
    rw [← List.mem_singleton.1 mem]
    exact ⟨rfl, rfl⟩
  · rintro ⟨rfl, answered⟩
    exact ⟨call.languages, List.mem_singleton.2 (by rw [← answered])⟩

@[simp]
theorem not_remembers_nil {bundle : String} {messages : Messages} :
    ¬ Remembers [] bundle messages := by
  rintro ⟨before, turn, after, split, -⟩
  simp at split

/-- One more turn: it has the last word if the source answered in it, and otherwise it may drop the
bundle. -/
theorem remembers_concat_iff {turns : List CacheTurn} {last : CacheTurn} {bundle : String}
    {messages : Messages} :
    Remembers (turns ++ [last]) bundle messages ↔
      last.Fetched bundle messages ∨
        Remembers turns bundle messages ∧ last.operation ≠ .drop bundle ∧
          ∀ other, ¬ last.Fetched bundle other :=
  exists_last_concat_iff.trans (or_congr_right and_comm)

/-! ## What a backend keeps -/

namespace MemoryCache

/-- The time of nothing that is kept is over. -/
def AllFresh (cache : MemoryCache) : Prop :=
  ∀ key found, cache.kept.get? key = some found →
    cache.now.nanoseconds < found.expiry.nanoseconds

variable {cache : MemoryCache}

/-- Where everything is fresh, what is kept is found. -/
theorem AllFresh.lookup_eq (fresh : cache.AllFresh) (key : String) :
    cache.lookup key = (cache.kept.get? key).map CachedMessages.messages := by
  rw [lookup]
  cases found : cache.kept.get? key with
  | none => rfl
  | some kept => simp [fresh key kept found]

/-- Where everything is fresh, a key is kept if something is found under it. -/
theorem AllFresh.contains_eq (fresh : cache.AllFresh) (key : String) :
    cache.kept.contains key = (cache.lookup key).isSome := by
  rw [fresh.lookup_eq, Dict.contains, Option.isSome_map]

theorem lookup_remove (cache : MemoryCache) (key other : String) :
    (cache.remove key).lookup other = if other = key then none else cache.lookup other := by
  rw [lookup, remove, Dict.get?_erase]
  split <;> rfl

/-- With room, what is kept under a key is found there, as long as everything is fresh. -/
theorem lookup_keep {key : String} {messages : Messages} {lifetime : Duration}
    (room : cache.capacity ≠ 0) (fresh : (cache.keep key messages lifetime).AllFresh)
    (other : String) :
    (cache.keep key messages lifetime).lookup other =
      if other = key then some messages else cache.lookup other := by
  have kept : (cache.keep key messages lifetime).kept =
      cache.kept.insert key
        ⟨messages, ⟨cache.now.nanoseconds + lifetime.nanoseconds⟩⟩ := by
    rw [keep, if_neg room]
  by_cases same : other = key
  · rw [if_pos same, fresh.lookup_eq, kept, Dict.get?_insert, if_pos same]
    rfl
  · rw [if_neg same, lookup_keep_of_ne cache same]

/-- What is kept for some time is fresh. -/
theorem AllFresh.keep (fresh : cache.AllFresh) {lifetime : Duration}
    (lasting : 0 < lifetime.nanoseconds) (key : String) (messages : Messages) :
    (cache.keep key messages lifetime).AllFresh := by
  rw [MemoryCache.keep]
  split
  · exact fresh
  · intro other found mem
    rw [Dict.get?_insert] at mem
    split at mem
    · cases mem
      exact Nat.lt_add_of_pos_right lasting
    · exact fresh other found mem

/-- What is left when a key is removed is fresh. -/
theorem AllFresh.remove (fresh : cache.AllFresh) (key : String) : (cache.remove key).AllFresh := by
  intro other found mem
  rw [MemoryCache.remove, Dict.get?_erase] at mem
  split at mem
  · cases mem
  · exact fresh other found mem

/-- Time that leaves everything fresh changes nothing. -/
theorem lookup_sleep {time : Duration} (before : cache.AllFresh)
    (fresh : (cache.sleep time).AllFresh) (key : String) :
    (cache.sleep time).lookup key = cache.lookup key := by
  rw [fresh.lookup_eq, before.lookup_eq]
  rfl

end MemoryCache

theorem CachedSource.allFresh_keeping {σ : Type} {cached : CachedSource σ MemoryCache}
    (fresh : cached.backend.AllFresh) (lasting : 0 < cached.options.lifetime.nanoseconds)
    (key : String) (answer : Option (Except LoadError Messages)) :
    (cached.keeping key answer).AllFresh := by
  rcases answer with _ | (error | messages)
  · exact fresh
  · exact fresh
  · exact fresh.keep lasting key messages

/-- What an operation leaves is fresh if what is kept lasts for some time. -/
theorem CacheOperation.allFresh_direct {σ : Type} [MessageSource σ]
    {cached : CachedSource σ MemoryCache} (fresh : cached.backend.AllFresh)
    (lasting : 0 < cached.options.lifetime.nanoseconds) (operation : CacheOperation) :
    (operation.direct cached).2.backend.AllFresh := by
  cases operation with
  | drop bundle => exact fresh.remove _
  | load bundle languages =>
    cases found : cached.backend.lookup (cached.options.key bundle .messages) with
    | some messages =>
      rw [direct_load_of_found found]
      exact fresh
    | none =>
      rw [direct_load_of_missing found rfl]
      exact CachedSource.allFresh_keeping fresh lasting _ _

/-! ## Undisturbed turns -/

variable {σ : Type} [MessageSource σ]

/-- **Turns with nobody else around.**  Each is an operation that comes to its end; time passes in
between.  Nothing runs out and there is room for everything. -/
inductive Undisturbed : List CacheTurn → CachedSource (RecordedSource σ) MemoryCache → Prop
  | start {options : CacheOptions} {metrics : CacheMetrics} {capacity : UInt64} (source : σ)
      (place : CacheOptions.bundlePlace.toList <:+: options.keyFormat.toList)
      (room : capacity ≠ 0) :
      Undisturbed []
        { source := { source }, backend := MemoryCache.ofCapacity capacity, options, metrics }
  | turn {turns : List CacheTurn} {cached after : CachedSource (RecordedSource σ) MemoryCache}
      {operation : CacheOperation} {result : Except LoadError operation.Answer}
      {calls : List SourceCall} (before : Undisturbed turns cached)
      (ended : operation.perform cached = (some result, after))
      (recorded : after.source.calls = cached.source.calls ++ calls)
      (fresh : after.backend.AllFresh) : Undisturbed (turns ++ [⟨operation, calls⟩]) after
  | sleep {turns : List CacheTurn} {cached : CachedSource (RecordedSource σ) MemoryCache}
      {time : Duration} (before : Undisturbed turns cached)
      (fresh : (cached.backend.sleep time).AllFresh) :
      Undisturbed turns { cached with backend := cached.backend.sleep time }

/-- What a cached source does next, after some turns. -/
structure AnswersFrom (turns : List CacheTurn)
    (cached : CachedSource (RecordedSource σ) MemoryCache) : Prop where
  /-- A load of a bundle of which something is remembered answers it without asking the source. -/
  remembered : ∀ {bundle messages}, Remembers turns bundle messages → ∀ languages, ∃ after,
    (CachedSource.load bundle languages : Loading (CachedSource (RecordedSource σ) MemoryCache) _)
        cached = (some (.ok messages), after) ∧
      after.source = cached.source
  /-- Any other load asks the source once and answers what that does. -/
  asked : ∀ {bundle}, (∀ messages, ¬ Remembers turns bundle messages) → ∀ languages,
    let (answer, source) :=
      (MessageSource.load bundle languages : Loading σ _) cached.source.source
    ∃ after,
      (CachedSource.load bundle languages : Loading (CachedSource (RecordedSource σ) MemoryCache) _)
          cached = (answer, after) ∧
        after.source = ⟨source, cached.source.calls ++ [⟨bundle, languages, answer⟩]⟩
  /-- Dropping a bundle answers whether something was remembered, without asking the source. -/
  dropped : ∀ bundle, ∃ existed after,
    (CachedSource.drop bundle : Loading (CachedSource (RecordedSource σ) MemoryCache) _)
        cached = (some (.ok existed), after) ∧
      after.source = cached.source ∧
        (existed = true ↔ ∃ messages, Remembers turns bundle messages)
  /-- After one more turn as much is remembered of all other bundles as before. -/
  apart : ∀ {operation : CacheOperation} {result after calls bundle},
    operation.perform cached = (some result, after) →
      after.source.calls = cached.source.calls ++ calls → bundle ≠ operation.bundle →
        ∀ messages, Remembers (turns ++ [⟨operation, calls⟩]) bundle messages ↔
          Remembers turns bundle messages

/-- The backend keeps under the key of a bundle just what is remembered of it, and nothing is in the
way. -/
structure Remembering (turns : List CacheTurn)
    (cached : CachedSource (RecordedSource σ) MemoryCache) : Prop where
  place : CacheOptions.bundlePlace.toList <:+: cached.options.keyFormat.toList
  room : cached.backend.capacity ≠ 0
  idle : ∃ fresh, cached.backend.locks = LockTable.idle fresh
  fresh : cached.backend.AllFresh
  lookup_iff : ∀ bundle messages,
    cached.backend.lookup (cached.options.key bundle .messages) = some messages ↔
      Remembers turns bundle messages

/-- The source is only called for the bundle of the operation. -/
theorem bundle_of_mem_calls {cached : CachedSource (RecordedSource σ) MemoryCache}
    {operation : CacheOperation} {calls : List SourceCall}
    (recorded : (operation.direct cached).2.source.calls = cached.source.calls ++ calls) :
    ∀ call ∈ calls, call.bundle = operation.bundle := by
  cases operation with
  | drop bundle =>
    obtain rfl : calls = [] := by simpa [CacheOperation.direct] using recorded
    simp
  | load bundle languages =>
    cases found : cached.backend.lookup (cached.options.key bundle .messages) with
    | some messages =>
      rw [CacheOperation.direct_load_of_found found] at recorded
      obtain rfl : calls = [] := by simpa using recorded
      simp
    | none =>
      rw [CacheOperation.direct_load_of_missing found rfl] at recorded
      rw [← List.append_cancel_left recorded]
      exact List.forall_mem_singleton.2 rfl

/-- **What one operation does to what is kept.**  The cases are those of its work: the backend finds
messages or not, and then the source fails or answers. -/
theorem lookup_direct {cached : CachedSource (RecordedSource σ) MemoryCache}
    (place : CacheOptions.bundlePlace.toList <:+: cached.options.keyFormat.toList)
    (room : cached.backend.capacity ≠ 0) {operation : CacheOperation}
    {result : Except LoadError operation.Answer} {calls : List SourceCall}
    (ended : (operation.direct cached).1 = some result)
    (recorded : (operation.direct cached).2.source.calls = cached.source.calls ++ calls)
    (fresh : (operation.direct cached).2.backend.AllFresh) (bundle : String) (messages : Messages) :
    (operation.direct cached).2.backend.lookup (cached.options.key bundle .messages) =
        some messages ↔
      CacheTurn.Fetched bundle messages ⟨operation, calls⟩ ∨
        cached.backend.lookup (cached.options.key bundle .messages) = some messages ∧
          operation ≠ .drop bundle ∧
            ∀ other, ¬ CacheTurn.Fetched bundle other ⟨operation, calls⟩ := by
  have key_eq_iff {other : String} : cached.options.key bundle .messages =
      cached.options.key other .messages ↔ bundle = other :=
    ⟨CacheOptions.eq_of_key_eq place, fun same => same ▸ rfl⟩
  cases operation with
  | drop other =>
    obtain rfl : calls = [] := by simpa [CacheOperation.direct] using recorded
    show (cached.backend.remove _).lookup _ = _ ↔ _
    rw [MemoryCache.lookup_remove]
    by_cases same : bundle = other
    · simp [same]
    · simp [key_eq_iff, same, Ne.symm same]
  | load other languages =>
    have different : CacheOperation.load other languages ≠ .drop bundle := by
      intro same
      cases same
    cases found : cached.backend.lookup (cached.options.key other .messages) with
    | some kept =>
      rw [CacheOperation.direct_load_of_found found] at recorded ⊢
      obtain rfl : calls = [] := by simpa using recorded
      simp
    | none =>
      obtain ⟨answer, source, loaded⟩ : ∃ answer source,
          (MessageSource.load other languages : Loading σ _) cached.source.source =
            (answer, source) := ⟨_, _, rfl⟩
      rw [CacheOperation.direct_load_of_missing found (RecordedSource.load_of_load loaded)]
        at ended recorded fresh ⊢
      obtain rfl : calls = [⟨other, languages, answer⟩] := (List.append_cancel_left recorded).symm
      obtain rfl : answer = some result := ended
      cases result with
      | error error => simp [CachedSource.keeping]
      | ok loaded =>
        show (cached.backend.keep _ _ _).lookup _ = _ ↔ _
        rw [MemoryCache.lookup_keep room fresh]
        by_cases same : bundle = other
        · simp [same]
        · simp [key_eq_iff, same]

namespace Remembering

variable {turns : List CacheTurn} {cached after : CachedSource (RecordedSource σ) MemoryCache}
  {bundle : String}

/-- What it takes is there after one more turn. -/
theorem turn {operation : CacheOperation} {result : Except LoadError operation.Answer}
    {calls : List SourceCall} (remembering : Remembering turns cached)
    (ended : operation.perform cached = (some result, after))
    (recorded : after.source.calls = cached.source.calls ++ calls)
    (fresh : after.backend.AllFresh) : Remembering (turns ++ [⟨operation, calls⟩]) after := by
  obtain ⟨held, idle⟩ := remembering.idle
  obtain ⟨locks, performed, idleAgain⟩ := CacheOperation.perform_of_idle idle operation
  rw [performed] at ended
  obtain ⟨answered, rfl⟩ := Prod.mk.inj ended
  exact {
    place := by
      show CacheOptions.bundlePlace.toList <:+:
        (operation.direct cached).2.options.keyFormat.toList
      rw [CacheOperation.options_direct]
      exact remembering.place
    room := (CacheOperation.capacity_direct cached operation).trans_ne remembering.room
    idle := idleAgain (by simp [answered])
    fresh
    lookup_iff := by
      intro bundle messages
      show (operation.direct cached).2.backend.lookup
        ((operation.direct cached).2.options.key bundle .messages) = _ ↔ _
      rw [CacheOperation.options_direct,
        lookup_direct remembering.place remembering.room answered recorded fresh,
        remembering.lookup_iff, remembers_concat_iff] }

theorem of_undisturbed (undisturbed : Undisturbed turns cached) : Remembering turns cached := by
  induction undisturbed with
  | start source place room =>
    exact {
      place
      room
      idle := ⟨0, rfl⟩
      fresh := nofun
      lookup_iff := fun bundle messages =>
        iff_of_false (by simp [MemoryCache.lookup, MemoryCache.ofCapacity]) not_remembers_nil }
  | turn before ended recorded fresh ih => exact ih.turn ended recorded fresh
  | sleep before fresh ih =>
    exact {
      place := ih.place
      room := ih.room
      idle := ih.idle
      fresh
      lookup_iff := fun bundle messages => by
        rw [← ih.lookup_iff, ← MemoryCache.lookup_sleep ih.fresh fresh] }

omit [MessageSource σ] in
theorem lookup_eq_none (remembering : Remembering turns cached)
    (nothing : ∀ messages, ¬ Remembers turns bundle messages) :
    cached.backend.lookup (cached.options.key bundle .messages) = none := by
  rw [Option.eq_none_iff_forall_ne_some]
  intro messages found
  exact nothing messages ((remembering.lookup_iff bundle messages).1 found)

end Remembering

/-! ## Turns that can be taken -/

namespace Undisturbed

/-- There can be one more turn, of any operation whose work comes to an end. -/
theorem exists_turn {turns : List CacheTurn}
    {cached after : CachedSource (RecordedSource σ) MemoryCache}
    (undisturbed : Undisturbed turns cached) (lasting : 0 < cached.options.lifetime.nanoseconds)
    {operation : CacheOperation} {result : Except LoadError operation.Answer}
    {calls : List SourceCall} (worked : operation.direct cached = (some result, after))
    (recorded : after.source.calls = cached.source.calls ++ calls) :
    ∃ locks, Undisturbed (turns ++ [⟨operation, calls⟩]) (after.setLocks locks) := by
  have remembering := Remembering.of_undisturbed undisturbed
  obtain ⟨held, idle⟩ := remembering.idle
  obtain ⟨locks, performed, -⟩ := CacheOperation.perform_of_idle idle operation
  have fresh := CacheOperation.allFresh_direct remembering.fresh lasting operation
  rw [worked] at performed fresh
  exact ⟨locks, undisturbed.turn performed recorded fresh⟩

/-- Turns are **possible** up to a state of the source if they can be taken undisturbed, and what is
kept from then on lasts for some time. -/
def Possible (turns : List CacheTurn) (source : σ) : Prop :=
  ∃ cached : CachedSource (RecordedSource σ) MemoryCache, Undisturbed turns cached ∧
    cached.source.source = source ∧ 0 < cached.options.lifetime.nanoseconds

namespace Possible

variable {turns : List CacheTurn} {source changed : σ}

/-- A bundle of which nothing is remembered can be loaded if the source answers. -/
theorem ask (possible : Possible turns source) (bundle : String)
    (nothing : ∀ messages, ¬ Remembers turns bundle messages) {languages : List Language}
    {result : Except LoadError Messages}
    (loaded : (MessageSource.load bundle languages : Loading σ _) source =
      (some result, changed)) :
    Possible (turns ++ [⟨.load bundle languages, [⟨bundle, languages, some result⟩]⟩]) changed := by
  obtain ⟨cached, undisturbed, rfl, lasting⟩ := possible
  have missing := (Remembering.of_undisturbed undisturbed).lookup_eq_none nothing
  obtain ⟨locks, again⟩ := undisturbed.exists_turn lasting
    (CacheOperation.direct_load_of_missing missing (RecordedSource.load_of_load loaded)) rfl
  exact ⟨_, again, rfl, lasting⟩

/-- A bundle of which something is remembered can be loaded. -/
theorem remember (possible : Possible turns source) (bundle : String) {messages : Messages}
    (languages : List Language) (remembers : Remembers turns bundle messages) :
    Possible (turns ++ [⟨.load bundle languages, []⟩]) source := by
  obtain ⟨cached, undisturbed, rfl, lasting⟩ := possible
  have found := ((Remembering.of_undisturbed undisturbed).lookup_iff bundle messages).2 remembers
  obtain ⟨locks, again⟩ := undisturbed.exists_turn lasting
    (CacheOperation.direct_load_of_found found languages) (List.append_nil _).symm
  exact ⟨_, again, rfl, lasting⟩

/-- Any bundle can be dropped. -/
theorem drop (possible : Possible turns source) (bundle : String) :
    Possible (turns ++ [⟨.drop bundle, []⟩]) source := by
  obtain ⟨cached, undisturbed, rfl, lasting⟩ := possible
  have worked : (CacheOperation.drop bundle).direct cached = (some (.ok _), _) := rfl
  obtain ⟨locks, again⟩ := undisturbed.exists_turn lasting worked (List.append_nil _).symm
  exact ⟨_, again, rfl, lasting⟩

end Possible

end Undisturbed

/-! ## The answers -/

/-- **A cached source answers from its past**, after any undisturbed turns. -/
theorem Undisturbed.answersFrom {turns : List CacheTurn}
    {cached : CachedSource (RecordedSource σ) MemoryCache}
    (undisturbed : Undisturbed turns cached) : AnswersFrom turns cached := by
  have remembering := Remembering.of_undisturbed undisturbed
  obtain ⟨held, idle⟩ := remembering.idle
  have alone (operation : CacheOperation) := CacheOperation.perform_of_idle idle operation
  exact {
    remembered := by
      intro bundle messages remembers languages
      obtain ⟨locks, performed, -⟩ := alone (.load bundle languages)
      have found := (remembering.lookup_iff bundle messages).2 remembers
      rw [CacheOperation.direct_load_of_found found] at performed
      exact ⟨_, performed, rfl⟩
    asked := by
      intro bundle nothing languages
      obtain ⟨locks, performed, -⟩ := alone (.load bundle languages)
      have missing := remembering.lookup_eq_none nothing
      rw [CacheOperation.direct_load_of_missing missing rfl] at performed
      exact ⟨_, performed, rfl⟩
    dropped := by
      intro bundle
      obtain ⟨locks, performed, -⟩ := alone (.drop bundle)
      refine ⟨_, _, performed, rfl, ?_⟩
      rw [remembering.fresh.contains_eq, Option.isSome_iff_exists]
      simp only [remembering.lookup_iff]
    apart := by
      intro operation result after calls bundle ended recorded other messages
      obtain ⟨locks, performed, -⟩ := alone operation
      rw [performed] at ended
      obtain ⟨-, rfl⟩ := Prod.mk.inj ended
      have unfetched : ∀ messages, ¬ CacheTurn.Fetched bundle messages ⟨operation, calls⟩ := by
        rintro messages ⟨languages, mem⟩
        exact other (bundle_of_mem_calls recorded _ mem)
      have undropped : operation ≠ .drop bundle := by
        rintro rfl
        exact other rfl
      rw [remembers_concat_iff]
      constructor
      · rintro (fetched | ⟨remembers, -⟩)
        · exact absurd fetched (unfetched messages)
        · exact remembers
      · exact fun remembers => Or.inr ⟨remembers, undropped, unfetched⟩ }

/-- The messages of a bundle with one text. -/
def signText (text : String) : Messages := Dict.ofList [("en", Dict.ofList [("sign", text)])]

/-- A source with messages for two bundles, which fails for a third one. -/
def kiosk : ScriptedSource where
  outcomes := Dict.ofList [("shop", .answer (.ok (signText "Open"))),
    ("news", .answer (.ok (signText "Sold out"))),
    ("menu", .answer (.error (.source "menu" "torn")))]

/-- Two bundles were loaded, and loading a third one failed.  One of the two was dropped, and the
other one was loaded again without asking the source. -/
theorem answersFrom_kiosk :
    let turns : List CacheTurn :=
      [⟨.load "shop" [], [⟨"shop", [], some (.ok (signText "Open"))⟩]⟩,
        ⟨.load "news" [], [⟨"news", [], some (.ok (signText "Sold out"))⟩]⟩,
        ⟨.load "menu" [], [⟨"menu", [], some (.error (.source "menu" "torn"))⟩]⟩,
        ⟨.drop "shop", []⟩, ⟨.load "news" [], []⟩]
    ∃ cached : CachedSource (RecordedSource ScriptedSource) MemoryCache,
      Undisturbed turns cached ∧ Remembers turns "news" (signText "Sold out") ∧
        (∀ messages, ¬ Remembers turns "shop" messages) ∧ AnswersFrom turns cached := by
  intro turns
  have shop calls : ScriptedSource.outcome { kiosk with calls } "shop" =
      .answer (.ok (signText "Open")) := rfl
  have news calls : ScriptedSource.outcome { kiosk with calls } "news" =
      .answer (.ok (signText "Sold out")) := rfl
  have menu calls : ScriptedSource.outcome { kiosk with calls } "menu" =
      .answer (.error (.source "menu" "torn")) := rfl
  have begun : Undisturbed.Possible [] kiosk :=
    ⟨{ source := { source := kiosk }, backend := MemoryCache.ofCapacity 3 },
      .start kiosk (by decide) (by decide), rfl, by decide⟩
  have opened := begun.ask "shop" (fun _ => not_remembers_nil)
    (ScriptedSource.load_of_outcome (shop _) [])
  have listed := opened.ask "news" (by simp [↓remembers_concat_iff])
    (ScriptedSource.load_of_outcome (news _) [])
  have failed := listed.ask "menu" (by simp [↓remembers_concat_iff])
    (ScriptedSource.load_of_outcome (menu _) [])
  have dropped := failed.drop "shop"
  obtain ⟨cached, undisturbed, -⟩ := dropped.remember "news" [] <| by
    show Remembers _ "news" (signText "Sold out")
    simp [↓remembers_concat_iff]
  have kept : Remembers turns "news" (signText "Sold out") := by
    show Remembers ([] ++ [_] ++ [_] ++ [_] ++ [_] ++ [_]) "news" _
    simp [↓remembers_concat_iff]
  have forgotten : ∀ messages, ¬ Remembers turns "shop" messages := by
    show ∀ messages, ¬ Remembers ([] ++ [_] ++ [_] ++ [_] ++ [_] ++ [_]) "shop" messages
    simp [↓remembers_concat_iff]
  exact ⟨cached, undisturbed, kept, forgotten, undisturbed.answersFrom⟩

end Phrasebook
