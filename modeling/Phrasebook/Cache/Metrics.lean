import Phrasebook.Text.Inspect

/-!
# Counters of a cached source
-/

namespace Phrasebook

/-- What a cached source counts: loads answered from the cache, loads handed on to the source, and
locks that were not free in time. -/
inductive Counter where
  | hits
  | misses
  | lockTimeouts
  deriving DecidableEq, Repr

/-- The name of a counter. -/
def Counter.name : Counter → String
  | hits => "hits"
  | misses => "misses"
  | lockTimeouts => "lock_timeouts"

/-- The counters of a cached source. -/
structure CacheMetrics where
  hits : Nat := 0
  misses : Nat := 0
  lockTimeouts : Nat := 0
  deriving DecidableEq, Repr

namespace CacheMetrics

/-- The value of a counter. -/
def value (metrics : CacheMetrics) : Counter → Nat
  | .hits => metrics.hits
  | .misses => metrics.misses
  | .lockTimeouts => metrics.lockTimeouts

/-- Counts one more. -/
def count (metrics : CacheMetrics) : Counter → CacheMetrics
  | .hits => { metrics with hits := metrics.hits + 1 }
  | .misses => { metrics with misses := metrics.misses + 1 }
  | .lockTimeouts => { metrics with lockTimeouts := metrics.lockTimeouts + 1 }

/-- The counters by name. -/
def stats (metrics : CacheMetrics) : List (String × Nat) :=
  [Counter.hits, .misses, .lockTimeouts].map fun counter => (counter.name, metrics.value counter)

/-- The description of the counters. -/
def describe (metrics : CacheMetrics) : String :=
  Text.record "CacheMetrics" (metrics.stats.map fun entry => (entry.1, Nat.repr entry.2))

theorem value_count (metrics : CacheMetrics) (counter other : Counter) :
    (metrics.count counter).value other =
      metrics.value other + if other = counter then 1 else 0 := by
  cases counter <;> cases other <;> rfl

end CacheMetrics

end Phrasebook
