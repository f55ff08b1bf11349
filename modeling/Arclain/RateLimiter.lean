import Arclain.KeyedMap
import Arclain.ModifiedTime

namespace Arclain.Network

/-!
# The rate limiter

A budget of requests for each scope, measured over a sliding window.

Instants are integers that count nanoseconds.
-/

open Text Option

abbrev Instant := Int

def rateLimitWindow : Int := 60 * 1000000000

/-- `prune_expired`: the times that have left the window go. -/
def pruneExpired (queue : List Instant) (windowStart : Instant) : List Instant :=
  queue.dropWhile (· ≤ windowStart)

structure RequestHistory where
  byScope : KeyedMap Str (List Instant)
  lastSweep : Instant

namespace RequestHistory

def new (now : Instant) : RequestHistory where
  byScope := ∅
  lastSweep := now

def queue (history : RequestHistory) (scope : Str) : List Instant :=
  (history.byScope.lookup scope).getD []

def sweepExpired (history : RequestHistory) (windowStart : Instant) : RequestHistory :=
  { history with
    byScope :=
      (history.byScope.mapValues fun queue =>
        pruneExpired queue windowStart).retain fun queue => !queue.isEmpty }

def sweepIfDue (history : RequestHistory) (now : Instant) (window : Int) : RequestHistory :=
  if window ≤ max 0 (now - history.lastSweep) then
    { history.sweepExpired (now - window) with lastSweep := now }
  else history

def withQueue (history : RequestHistory) (scope : Str) (queue : List Instant) : RequestHistory :=
  { history with byScope := history.byScope.insert scope queue }

end RequestHistory

structure RateLimiter where
  limits : KeyedMap Str Nat
  defaultLimit : Nat
  history : RequestHistory
  window : Int

namespace RateLimiter

def new (defaultRpm : Nat) (now : Instant) : RateLimiter where
  limits := ∅
  defaultLimit := defaultRpm
  history := .new now
  window := rateLimitWindow

/-- The scope as the history keeps it: the domain in lower case. -/
def isolatedScope (scope : Str) : Str :=
  match splitOnce '\x00' scope with
  | some (pluginId, domain) => pluginId ++ '\x00' :: toAsciiLowercase domain
  | none => scope

def tryAcquireWithLimit (limiter : RateLimiter) (scope : Str) (limit : Nat)
    (now : Instant) : Bool × RateLimiter :=
  if limit = 0 then (false, limiter)
  else
    let scope := isolatedScope scope
    let history := limiter.history.sweepIfDue now limiter.window
    let queue := pruneExpired (history.queue scope) (now - limiter.window)
    if limit ≤ queue.length then (false, { limiter with history := history.withQueue scope queue })
    else (true, { limiter with history := history.withQueue scope (queue ++ [now]) })

/-- One request is charged to a scope: it is recorded behind those of the last
window, which were fewer than the limit. -/
structure Charged (before after : RateLimiter) (scope : Str) (limit : Nat)
    (now : Instant) : Prop where
  within : (pruneExpired (before.history.queue scope) (now - before.window)).length < limit
  recorded : after.history.queue scope =
    pruneExpired (before.history.queue scope) (now - before.window) ++ [now]
  others : ∀ {other : Str}, other ≠ scope → after.history.queue other = before.history.queue other ∨
    after.history.queue other = pruneExpired (before.history.queue other) (now - before.window)

end RateLimiter

@[simp] theorem pruneExpired_idem (queue : List Instant) (windowStart : Instant) :
    pruneExpired (pruneExpired queue windowStart) windowStart = pruneExpired queue windowStart :=
  List.dropWhile_idempotent _ _

namespace RequestHistory

variable (history : RequestHistory)

theorem queue_sweepExpired (windowStart : Instant) (scope : Str) :
    (history.sweepExpired windowStart).queue scope =
      pruneExpired (history.queue scope) windowStart := by
  rw [queue, sweepExpired, KeyedMap.lookup_retain, KeyedMap.lookup_mapValues, queue]
  cases history.byScope.lookup scope with
  | none => rfl
  | some =>
    simp only [map_some, filter_some, getD_some]
    split
    · rfl
    next empty => simpa using empty

theorem queue_sweepIfDue (now : Instant) (window : Int) (scope : Str) :
    (history.sweepIfDue now window).queue scope = history.queue scope ∨
      (history.sweepIfDue now window).queue scope =
        pruneExpired (history.queue scope) (now - window) := by
  rw [sweepIfDue]
  split
  · exact .inr (history.queue_sweepExpired (now - window) scope)
  · exact .inl rfl

theorem queue_withQueue (scope other : Str) (times : List Instant) :
    (history.withQueue scope times).queue other =
      if other = scope then times else history.queue other := by
  rw [queue, withQueue, KeyedMap.lookup_insert_ite]
  split
  · rfl
  · rfl

end RequestHistory

namespace RateLimiter

theorem charged_of_acquired {limiter after : RateLimiter} {scope : Str} {limit : Nat}
    {now : Instant} (acquired : limiter.tryAcquireWithLimit scope limit now = (true, after)) :
    Charged limiter after (isolatedScope scope) limit now := by
  have swept := limiter.history.queue_sweepIfDue now limiter.window
  have pruned (name : Str) : pruneExpired
      ((limiter.history.sweepIfDue now limiter.window).queue name)
      (now - limiter.window) =
        pruneExpired (limiter.history.queue name) (now - limiter.window) := by
    rcases swept name with same | same
    · rw [same]
    · rw [same, pruneExpired_idem]
  rw [tryAcquireWithLimit] at acquired
  split at acquired
  · cases acquired
  · dsimp only at acquired
    rw [pruned] at acquired
    split at acquired
    · cases acquired
    next below =>
      obtain rfl := (Prod.mk.inj acquired).2
      refine ⟨Nat.lt_of_not_le below, ?_, ?_⟩
      · rw [RequestHistory.queue_withQueue, if_pos rfl]
      · intro other different
        rw [RequestHistory.queue_withQueue, if_neg different]
        exact swept other

end RateLimiter

end Arclain.Network
