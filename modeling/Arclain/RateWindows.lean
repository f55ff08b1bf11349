import Arclain.RateLimiter

namespace Arclain.Network.RateLimiter

/-!
# What a rate limiter allows

The history of a scope is pruned by its own calls and swept by those of others.
Neither is seen: a call is answered from the acquisitions of its scope that lie
within the last window.
-/

open List Text CharTables Prod

/-- No interval of that length, open at either end, has more than so many instants. -/
def WithinLimit (window : Int) (limit : Nat) (times : List Instant) : Prop :=
  ∀ start, (times.countP fun time => start ≤ time ∧ time < start + window) ≤ limit ∧
    (times.countP fun time => start < time ∧ time ≤ start + window) ≤ limit

variable (queue : List Instant)

theorem pruneExpired_pruneExpired {earlier later : Instant} (ordered : earlier ≤ later) :
    pruneExpired (pruneExpired queue earlier) later = pruneExpired queue later := by
  induction queue with
  | nil => rfl
  | cons time queue ih =>
    simp only [pruneExpired] at ih ⊢
    by_cases expired : time ≤ earlier
    · rw [dropWhile_cons_of_pos (by simpa using expired), ih,
        dropWhile_cons_of_pos (by simpa using expired.trans ordered)]
    · rw [dropWhile_cons_of_neg (by simpa using expired)]

theorem pruneExpired_append {earlier later : Instant} (now : Instant)
    (ordered : earlier ≤ later) : pruneExpired (pruneExpired queue earlier ++ [now]) later =
      pruneExpired (queue ++ [now]) later := by
  have pruned := pruneExpired_pruneExpired queue ordered
  simp only [pruneExpired] at pruned ⊢
  rw [dropWhile_append, dropWhile_append, pruned]

theorem countP_le_pruneExpired {test : Instant → Bool} {windowStart : Instant}
    (recent : ∀ time, test time = true → windowStart < time) :
    queue.countP test ≤ (pruneExpired queue windowStart).length := by
  have whole : queue.takeWhile (· ≤ windowStart) ++ pruneExpired queue windowStart = queue :=
    takeWhile_append_dropWhile
  have expired : (queue.takeWhile (· ≤ windowStart)).countP test = 0 := by
    refine countP_eq_zero.mpr fun time mem holds => ?_
    have early := mem_takeWhile_imp mem
    exact absurd (recent time holds) (by simpa using early)
  conv_lhs => rw [← whole]
  rw [countP_append, expired, Nat.zero_add]
  exact countP_le_length

theorem WithinLimit.acquire {window : Int} {limit : Nat} {times : List Instant} {now : Instant}
    (within : WithinLimit window limit times)
    (fewer : (pruneExpired times (now - window)).length < limit) :
    WithinLimit window limit (times ++ [now]) := by
  have counted {test : Instant → Bool} (bounded : times.countP test ≤ limit)
      (recent : test now = true → ∀ time, test time = true → now - window < time) :
      (times ++ [now]).countP test ≤ limit := by
    rw [countP_append, countP_singleton]
    split
    next inside =>
      have below := countP_le_pruneExpired times (recent inside)
      omega
    · exact bounded
  intro start
  refine ⟨counted (within start).1 ?_, counted (within start).2 ?_⟩
  · intro inside time between
    simp only [decide_eq_true_eq] at inside between
    exact (Int.sub_right_lt_of_lt_add inside.2).trans_le between.1
  · intro inside time between
    simp only [decide_eq_true_eq] at inside between
    exact (Int.sub_right_le_of_le_add inside.2).trans_lt between.1

inductive Call where
  | tryAcquire (domain : Str)
  | tryAcquireWithLimit (scope : Str) (limit : Nat)
  deriving DecidableEq

/-- A call with the instant that it reads and its answer. -/
structure Answer where
  call : Call
  now : Instant
  acquired : Bool
  deriving DecidableEq

def acquired (answers : List Answer) : List Instant :=
  (answers.filter Answer.acquired).map Answer.now

section

variable {window : Int} {limit : Nat} {times : List Instant} {calls : List (Call × Instant)}

end

section

variable [CharTables]

def getLimit (limiter : RateLimiter) (domain : Str) : Nat :=
  (limiter.limits.lookup (toLowercase domain)).getD limiter.defaultLimit

def tryAcquire (limiter : RateLimiter) (domain : Str) (now : Instant) : Bool × RateLimiter :=
  let scope := toLowercase domain
  let limit := limiter.getLimit scope
  let history := limiter.history.sweepIfDue now limiter.window
  if limit = 0 then (false, { limiter with history := history })
  else
    let queue := pruneExpired (history.queue scope) (now - limiter.window)
    if queue.length < limit then
      (true, { limiter with history := history.withQueue scope (queue ++ [now]) })
    else (false, { limiter with history := history.withQueue scope queue })

namespace Call

def scope : Call → Str
  | .tryAcquire domain => toLowercase domain
  | .tryAcquireWithLimit scope _ => isolatedScope scope

def limit (limiter : RateLimiter) : Call → Nat
  | .tryAcquire domain => limiter.getLimit (toLowercase domain)
  | .tryAcquireWithLimit _ limit => limit

def answer (limiter : RateLimiter) (now : Instant) : Call → Bool × RateLimiter
  | .tryAcquire domain => limiter.tryAcquire domain now
  | .tryAcquireWithLimit scope limit => limiter.tryAcquireWithLimit scope limit now

end Call

def run (limiter : RateLimiter) : List (Call × Instant) → List Answer
  | [] => []
  | (call, now) :: calls =>
    let (acquired, after) := call.answer limiter now
    ⟨call, now, acquired⟩ :: after.run calls

def acquisitions (scope : Str) (answers : List Answer) : List Instant :=
  acquired (answers.filter (·.call.scope = scope))

/-- The history of a scope is, for every window that is still to come, its
acquisitions. -/
def Recalls (limiter : RateLimiter) (scope : Str) (times : List Instant) (clock : Instant) : Prop :=
  ∀ windowStart, clock - limiter.window ≤ windowStart →
    pruneExpired (limiter.history.queue scope) windowStart = pruneExpired times windowStart

/-- What a call does to what is recalled of a scope. -/
structure Answered (limiter after : RateLimiter) (call : Call) (now : Instant) (acquired : Bool)
    (scope : Str) (times : List Instant) : Prop where
  limits : after.limits = limiter.limits ∧ after.defaultLimit = limiter.defaultLimit
  window : after.window = limiter.window
  own : call.scope = scope → acquired = decide (call.limit limiter ≠ 0 ∧
    (pruneExpired times (now - limiter.window)).length < call.limit limiter)
  recalls : after.Recalls scope (times ++ acquisitions scope [⟨call, now, acquired⟩]) now

section

variable {limiter : RateLimiter} {scope : Str} {times : List Instant} {clock now : Instant}

theorem acquisitions_refused (call : Call) (now : Instant) :
    acquisitions scope [⟨call, now, false⟩] = [] := by
  by_cases own : call.scope = scope
  · simp [acquisitions, acquired, own]
  · simp [acquisitions, acquired, own]

omit [CharTables] in
theorem Recalls.later (recalls : limiter.Recalls scope times clock) (later : clock ≤ now) :
    limiter.Recalls scope times now :=
  fun _ within => recalls _ ((Int.sub_le_sub_right later _).trans within)

omit [CharTables] in
theorem Recalls.sweep (recalls : limiter.Recalls scope times clock) (later : clock ≤ now) :
    Recalls { limiter with history := limiter.history.sweepIfDue now limiter.window }
      scope times now := by
  intro windowStart within
  have recalled := recalls.later later windowStart within
  dsimp only at within ⊢
  rcases limiter.history.queue_sweepIfDue now limiter.window scope with same | same
  · rw [same, recalled]
  · rw [same, pruneExpired_pruneExpired _ within, recalled]

theorem Recalls.charge {history : RequestHistory} (call : Call) (granted : Bool)
    (recalls : Recalls { limiter with history := history } scope times now) :
    Recalls { limiter with
      history := history.withQueue call.scope
        (pruneExpired (history.queue call.scope) (now - limiter.window) ++
          if granted then [now] else []) }
      scope (times ++ acquisitions scope [⟨call, now, granted⟩]) now := by
  intro _ within
  rw [RequestHistory.queue_withQueue]
  by_cases own : call.scope = scope
  · have pruned := recalls _ (Int.le_refl _)
    dsimp only at pruned within
    rw [if_pos own.symm, own, pruned]
    cases granted with
    | true =>
      rw [if_pos rfl, pruneExpired_append _ _ within]
      simp [acquisitions, acquired, own]
    | false =>
      rw [acquisitions_refused, if_neg Bool.false_ne_true, append_nil, append_nil,
        pruneExpired_pruneExpired _ within]
  · rw [if_neg (Ne.symm own), recalls _ within]
    simp [acquisitions, acquired, own]

theorem answered (recalls : limiter.Recalls scope times clock) (later : clock ≤ now) (call : Call) :
    Answered limiter (call.answer limiter now).2 call now (call.answer limiter now).1
      scope times := by
  have swept := recalls.sweep later
  have pruned : pruneExpired ((limiter.history.sweepIfDue now limiter.window).queue scope)
      (now - limiter.window) = pruneExpired times (now - limiter.window) :=
    swept _ (Int.le_refl _)
  have fresh := swept.charge call true
  have spent := swept.charge call false
  cases call with
  | tryAcquire domain =>
    simp only [Call.answer, Call.scope, tryAcquire] at fresh spent ⊢
    split
    next none =>
      refine ⟨⟨rfl, rfl⟩, rfl, fun _ => (decide_eq_false (·.1 none)).symm, ?_⟩
      simpa [acquisitions_refused] using swept
    next some =>
      split
      next fewer =>
        refine ⟨⟨rfl, rfl⟩, rfl, fun own => ?_, fresh⟩
        obtain rfl : toLowercase domain = scope := own
        rw [pruned] at fewer
        exact (decide_eq_true ⟨some, fewer⟩).symm
      next full =>
        refine ⟨⟨rfl, rfl⟩, rfl, fun own => ?_, by simpa using spent⟩
        obtain rfl : toLowercase domain = scope := own
        rw [pruned] at full
        exact (decide_eq_false fun both => full both.2).symm
  | tryAcquireWithLimit name =>
    simp only [Call.answer, Call.scope, tryAcquireWithLimit] at fresh spent ⊢
    split
    next none =>
      refine ⟨⟨rfl, rfl⟩, rfl, fun _ => (decide_eq_false (·.1 none)).symm, ?_⟩
      rw [acquisitions_refused, append_nil]
      exact recalls.later later
    next some =>
      split
      next full =>
        refine ⟨⟨rfl, rfl⟩, rfl, fun own => ?_, by simpa using spent⟩
        obtain rfl : isolatedScope name = scope := own
        rw [pruned] at full
        exact (decide_eq_false fun both => both.2.not_ge full).symm
      next fewer =>
        refine ⟨⟨rfl, rfl⟩, rfl, fun own => ?_, fresh⟩
        obtain rfl : isolatedScope name = scope := own
        rw [pruned] at fewer
        exact (decide_eq_true ⟨some, Nat.lt_of_not_le fewer⟩).symm

end

end

section

attribute [local instance] asciiTables

/-- The first request at `0` and its repetition in lower case a second later. -/
def repeated : List (Call × Instant) :=
  [(.tryAcquire "A".toList, 0), (.tryAcquire "a".toList, 1000000000)]

end

end Arclain.Network.RateLimiter
