import Arclain.ContentCache
import Arclain.DataService
import Arclain.KeySlices

namespace Arclain.PendingResults

/-!
# Results that wait to be polled

The data service keeps the result of a request until the plugin polls it, at most so many
results with at most so many body bytes.  The oldest ones give way.
-/

open ActionRun List Cache HostMetadata Text TextFormat

inductive DataStatus where
  | pending
  | fetching
  | ready
  | failed
  | cached

structure DataResult where
  status : DataStatus
  data : Option Body
  error : Option Str

def DataResult.failed (error : Str) : DataResult := ⟨.failed, none, some error⟩

def DataResult.isTerminal (result : DataResult) : Bool :=
  match result.status with
  | .ready | .failed | .cached => true
  | .pending | .fetching => false

def DataResult.bodyBytes (result : DataResult) : Nat := result.data.elim 0 length

structure PendingLimits where
  maxRequests : Nat
  maxBodyBytes : Nat
  maxErrorBytes : Nat

/-- `&value[..end]`, the end moved back to a character boundary. -/
def sliceBelow (value : Str) : Nat → Str
  | 0 => []
  | stop + 1 => (sliceTo value (stop + 1)).getD (sliceBelow value stop)

def ellipsis : Str := ['…']

/-- The text that is left.  One with spare capacity is only copied. -/
def truncateUtf8WithEllipsis (value : Str) (maxBytes : Nat) : Str :=
  if utf8Len value ≤ maxBytes then value
  else
    let suffix := if utf8Len ellipsis ≤ maxBytes then ellipsis else []
    sliceBelow value (min (maxBytes - utf8Len suffix) (utf8Len value)) ++ suffix

/-- The result as `insert_with_limits` keeps it. -/
def DataResult.within (result : DataResult) (limits : PendingLimits) : DataResult :=
  let result :=
    if result.data.any (limits.maxBodyBytes < ·.length) then
      .failed ("Data response exceeds pending body budget of ".toList ++
        decimal limits.maxBodyBytes ++ " bytes".toList)
    else result
  { result with error := result.error.map (truncateUtf8WithEllipsis · limits.maxErrorBytes) }

/-- The entries are an `IndexMap`, the oldest one first.  A `PendingRequest` has a result as
long as it is one of them. -/
structure PendingRequests where
  entries : List (Str × DataResult) := []
  retainedBodyBytes : Nat := 0

namespace PendingRequests

/-- The loop of `insert_with_limits`. -/
def evict (limits : PendingLimits) (bodyBytes : Nat) :
    List (Str × DataResult) → Nat → PendingRequests
  | [], retained => ⟨[], retained⟩
  | oldest :: rest, retained =>
    if limits.maxRequests ≤ rest.length + 1 ∨
        limits.maxBodyBytes < Cache.saturatingAdd retained bodyBytes then
      evict limits bodyBytes rest (retained - oldest.2.bodyBytes)
    else ⟨oldest :: rest, retained⟩

/-- `IndexMap::insert`. -/
def insertEntry (entries : List (Str × DataResult)) (id : Str) (result : DataResult) :
    List (Str × DataResult) :=
  if id ∈ entries.map Prod.fst then
    entries.map fun entry => if entry.1 = id then (id, result) else entry
  else entries ++ [(id, result)]

def insertWithLimits (pending : PendingRequests) (id : Str) (result : DataResult)
    (limits : PendingLimits) : PendingRequests :=
  if limits.maxRequests = 0 then pending
  else
    let kept := result.within limits
    let left := evict limits kept.bodyBytes pending.entries pending.retainedBodyBytes
    ⟨insertEntry left.entries id kept, Cache.saturatingAdd left.retainedBodyBytes kept.bodyBytes⟩

def poll (pending : PendingRequests) (requestId : Str) : Option DataResult × PendingRequests :=
  match pending.entries.find? (·.1 = requestId) with
  | none => (none, pending)
  | some (_, result) =>
    if result.isTerminal then
      (some result,
        ⟨pending.entries.filter (·.1 ≠ requestId), pending.retainedBodyBytes - result.bodyBytes⟩)
    else (some result, pending)

end PendingRequests

/-- The bytes of the bodies that entries retain. -/
def held (entries : List (Str × DataResult)) : Nat :=
  (entries.map fun entry => entry.2.data.elim 0 length).sum

inductive Call where
  | insert (id : Str) (result : DataResult) (limits : PendingLimits)
  | poll (id : Str)

/-- A table, with the results and limits of the inserts and the terminal results that polls
took. -/
structure History where
  pending : PendingRequests := {}
  inserted : List (Str × DataResult × PendingLimits) := []
  delivered : List (Str × DataResult) := []

/-- The ids of inserts are new, and the bodies share one address space. -/
def step (maxRequests : Nat) (history : History) : Call → Option History
  | .insert id result limits =>
    if id ∉ history.inserted.map Prod.fst ∧ limits.maxRequests = maxRequests ∧
        held history.pending.entries + result.data.elim 0 length < 2 ^ 64 then
      some { history with
        pending := history.pending.insertWithLimits id result limits
        inserted := history.inserted ++ [(id, result, limits)] }
    else none
  | .poll id =>
    let polled := history.pending.poll id
    some { history with
      pending := polled.2
      delivered := ((polled.1.filter DataResult.isTerminal).map (id, ·)).toList ++
        history.delivered }

/-- The slice is the longest first part of the text with so many bytes at most. -/
theorem sliceBelow_spec (value : Str) (stop : Nat) :
    sliceBelow value stop <+: value ∧ utf8Len (sliceBelow value stop) ≤ stop ∧
      ∀ longer, longer <+: value → utf8Len longer ≤ stop →
        utf8Len longer ≤ utf8Len (sliceBelow value stop) := by
  induction stop with
  | zero => exact ⟨⟨_, rfl⟩, le_rfl, fun _ _ => id⟩
  | succ stop ih =>
    obtain ⟨isStart, short, longest⟩ := ih
    rw [sliceBelow]
    cases sliced : sliceTo value (stop + 1) with
    | none =>
      refine ⟨isStart, short.trans (Nat.le_succ stop), ?_⟩
      rintro longer ⟨rest, split⟩ fits
      refine longest longer ⟨rest, split⟩ (Nat.le_of_lt_succ (lt_of_le_of_ne fits fun same => ?_))
      rw [← split, sliceTo, ← Nat.succ_eq_add_one, ← same, splitBytes_append] at sliced
      cases sliced
    | some =>
      obtain ⟨⟨_, after⟩, split, rfl⟩ := Option.map_eq_some_iff.mp sliced
      obtain ⟨same, length⟩ := eq_append_of_splitBytes split
      exact ⟨⟨after, same.symm⟩, length.le, fun _ _ fits => fits.trans length.ge⟩

/-- A text that fits is kept whole, and of a longer one the longest first part that leaves room
for the ellipsis, if this fits itself. -/
def CutTo (maxBytes : Nat) (text kept : Str) : Prop :=
  utf8Len kept ≤ maxBytes ∧ (utf8Len text ≤ maxBytes → kept = text) ∧
    (maxBytes < utf8Len text → ∃ start, start <+: text ∧
      kept = start ++ (if utf8Len ['…'] ≤ maxBytes then ['…'] else []) ∧
      ∀ longer, longer <+: text →
        utf8Len longer + utf8Len (if utf8Len ['…'] ≤ maxBytes then ['…'] else []) ≤ maxBytes →
          utf8Len longer ≤ utf8Len start)

theorem truncate_cutTo (value : Str) (maxBytes : Nat) :
    CutTo maxBytes value (truncateUtf8WithEllipsis value maxBytes) := by
  unfold truncateUtf8WithEllipsis
  split
  next fits => exact ⟨fits, fun _ => rfl, fun long => absurd fits long.not_ge⟩
  next long =>
    have room : utf8Len (if utf8Len ellipsis ≤ maxBytes then ellipsis else []) ≤ maxBytes := by
      split
      · assumption
      · exact Nat.zero_le _
    obtain ⟨isStart, short, longest⟩ := sliceBelow_spec value (min (maxBytes -
      utf8Len (if utf8Len ellipsis ≤ maxBytes then ellipsis else [])) (utf8Len value))
    refine ⟨?_, fun fits => absurd fits long, fun _ => ⟨_, isStart, rfl, ?_⟩⟩
    · rw [utf8Len_append]
      omega
    · rintro longer ⟨rest, split⟩ fits
      have within : utf8Len longer ≤ utf8Len value := by
        rw [← split, utf8Len_append]
        exact Nat.le_add_right _ _
      exact longest longer ⟨rest, split⟩ (le_min (Nat.le_sub_of_add_le fits) within)

/-- What is kept of a result under the limits of its insert: itself, but for a cut error text,
if its body fits, and else an error. -/
def KeptAs (result : DataResult) (limits : PendingLimits) (kept : DataResult) : Prop :=
  (result.data.elim 0 length ≤ limits.maxBodyBytes →
    kept.status = result.status ∧ kept.data = result.data ∧
      Option.Rel (CutTo limits.maxErrorBytes) result.error kept.error) ∧
    (limits.maxBodyBytes < result.data.elim 0 length →
      kept.status = .failed ∧ kept.data = none ∧ ∃ text, kept.error = some text ∧
        CutTo limits.maxErrorBytes ("Data response exceeds pending body budget of ".toList ++
          decimal limits.maxBodyBytes ++ " bytes".toList) text)

theorem any_lt_length (data : Option Body) (bound : Nat) :
    data.any (bound < ·.length) = true ↔ bound < data.elim 0 length := by
  cases data with
  | none | some => simp

theorem keptAs_within (result : DataResult) (limits : PendingLimits) :
    KeptAs result limits (result.within limits) := by
  unfold DataResult.within
  split
  next oversized =>
    have long := (any_lt_length _ _).mp oversized
    exact ⟨fun fits => absurd fits long.not_ge, fun _ => ⟨rfl, rfl, _, rfl, truncate_cutTo _ _⟩⟩
  next fitting =>
    refine ⟨fun _ => ⟨rfl, rfl, ?_⟩, fun long => absurd ((any_lt_length _ _).mpr long) fitting⟩
    dsimp only
    cases result.error with
    | none => exact .none
    | some text => exact .some (truncate_cutTo text limits.maxErrorBytes)

/-- The body that is kept: none of an oversized one. -/
theorem bodyBytes_within (result : DataResult) (limits : PendingLimits) :
    (result.within limits).bodyBytes = if limits.maxBodyBytes < result.data.elim 0 length then 0
      else result.data.elim 0 length := by
  obtain ⟨fits, oversized⟩ := keptAs_within result limits
  unfold DataResult.bodyBytes
  split
  next long => rw [(oversized long).2.1, Option.elim_none]
  next short => rw [(fits (not_lt.mp short)).2.1]

section

variable {entries : List (Str × DataResult)} {id : Str} {result : DataResult}

theorem held_filter (distinct : (entries.map Prod.fst).Nodup) (mem : (id, result) ∈ entries) :
    held entries = result.bodyBytes + held (entries.filter (·.1 ≠ id)) := by
  induction entries with
  | nil => cases mem
  | cons oldest rest ih =>
    obtain ⟨absent, distinct⟩ := nodup_cons.mp distinct
    rcases mem_cons.mp mem with rfl | later
    · have others : rest.filter (·.1 ≠ id) = rest := by
        refine filter_eq_self.mpr fun entry listed => decide_eq_true ?_
        rintro same
        exact absent (mem_map.mpr ⟨_, listed, same⟩)
      rw [filter_cons_of_neg (by simp), others]
      rfl
    · have different : oldest.1 ≠ id := by
        rintro rfl
        exact absent (mem_map.mpr ⟨_, later, rfl⟩)
      have below := ih distinct later
      rw [filter_cons_of_pos (by simpa using different)]
      simp only [held, map_cons, sum_cons] at below ⊢
      omega

end

namespace PendingRequests

variable {pending kept : PendingRequests} {limits : PendingLimits} {result : DataResult} {id : Str}

/-- Eviction keeps the newest results and makes room for the next. -/
theorem evict_spec {entries : List (Str × DataResult)} {bodyBytes retained : Nat}
    (counted : retained = held entries) (evicts : evict limits bodyBytes entries retained = kept) :
    kept.entries <:+ entries ∧ kept.retainedBodyBytes = held kept.entries ∧
      (kept.entries = [] ∨ kept.entries.length < limits.maxRequests ∧
        Cache.saturatingAdd kept.retainedBodyBytes bodyBytes ≤ limits.maxBodyBytes) := by
  induction entries generalizing retained with
  | nil =>
    cases evicts
    exact ⟨suffix_rfl, counted, .inl rfl⟩
  | cons oldest rest ih =>
    rw [evict] at evicts
    split at evicts
    · have remains : retained - oldest.2.bodyBytes = held rest := by
        simp [counted, held, DataResult.bodyBytes]
      obtain ⟨older, others⟩ := ih remains evicts
      exact ⟨older.trans (suffix_cons _ _), others⟩
    next fits =>
      cases evicts
      rw [not_or, not_le, not_lt] at fits
      exact ⟨suffix_rfl, counted, .inr fits⟩

theorem evict_of_room {entries : List (Str × DataResult)} {bodyBytes retained : Nat}
    (few : entries.length < limits.maxRequests)
    (fits : Cache.saturatingAdd retained bodyBytes ≤ limits.maxBodyBytes) :
    evict limits bodyBytes entries retained = ⟨entries, retained⟩ := by
  cases entries with
  | nil => rfl
  | cons =>
    rw [evict]
    exact if_neg (not_or.mpr ⟨not_le.mpr few, not_lt.mpr fits⟩)

/-- After an insert the limits hold, and its result is the newest entry. -/
theorem insertWithLimits_spec (counted : pending.retainedBodyBytes = held pending.entries)
    (positive : 0 < limits.maxRequests) (new : id ∉ pending.entries.map Prod.fst)
    (fits : held pending.entries + result.data.elim 0 length < 2 ^ 64)
    (inserts : pending.insertWithLimits id result limits = kept) :
    kept.entries.length ≤ limits.maxRequests ∧ kept.retainedBodyBytes ≤ limits.maxBodyBytes ∧
      kept.retainedBodyBytes = held kept.entries ∧ ∃ left, left <:+ pending.entries ∧
        kept.entries = left ++ [(id, result.within limits)] := by
  have isBody := bodyBytes_within result limits
  simp only [insertWithLimits, if_neg positive.ne'] at inserts
  generalize evicts : evict limits (result.within limits).bodyBytes pending.entries
    pending.retainedBodyBytes = left at inserts
  obtain ⟨older, total, room⟩ := evict_spec counted evicts
  have fewer : held left.entries ≤ held pending.entries := by
    obtain ⟨_, same⟩ := older
    simp [held, ← same]
  have absent : id ∉ left.entries.map Prod.fst := fun mem => new ((older.map _).subset mem)
  have exact : Cache.saturatingAdd left.retainedBodyBytes (result.within limits).bodyBytes =
      left.retainedBodyBytes + (result.within limits).bodyBytes := by
    unfold Cache.saturatingAdd
    split at isBody
    · omega
    · omega
  have total' : held (left.entries ++ [(id, result.within limits)]) =
      held left.entries + (result.within limits).bodyBytes := by
    simp [held, DataResult.bodyBytes]
  rw [insertEntry, if_neg absent, exact] at inserts
  rw [exact] at room
  cases inserts
  refine ⟨?_, ?_, ?_, _, older, rfl⟩
  · rw [length_append, length_singleton]
    rcases room with none | ⟨few, _⟩
    · rw [none]
      exact positive
    · exact few
  · rcases room with none | ⟨_, within⟩
    · have nothing : left.retainedBodyBytes = 0 := by
        rw [total, none]
        rfl
      rw [nothing, Nat.zero_add, isBody]
      split
      · exact Nat.zero_le _
      next fitting => exact not_lt.mp fitting
    · exact within
  · rw [total', total]

/-- A poll gives a result that stays, or takes a terminal one out. -/
theorem poll_cases (pending : PendingRequests) (id : Str) :
    ((pending.poll id).1.filter DataResult.isTerminal = none ∧ (pending.poll id).2 = pending) ∨
      ∃ result, (id, result) ∈ pending.entries ∧
        (pending.poll id).1.filter DataResult.isTerminal = some result ∧
        (pending.poll id).2 = ⟨pending.entries.filter (·.1 ≠ id),
          pending.retainedBodyBytes - result.bodyBytes⟩ := by
  unfold poll
  cases found : pending.entries.find? (·.1 = id) with
  | none => exact .inl ⟨rfl, rfl⟩
  | some entry =>
    obtain ⟨other, result⟩ := entry
    have same : other = id := by simpa using find?_some found
    subst same
    dsimp only
    split
    next isTerminal =>
      exact .inr ⟨result, mem_of_find?_eq_some found, by simp [isTerminal], rfl⟩
    next notTerminal => exact .inl ⟨by simp [notTerminal], rfl⟩

end PendingRequests

/-- An insert as the table keeps it. -/
def asKept (insert : Str × DataResult × PendingLimits) : Str × DataResult :=
  (insert.1, insert.2.1.within insert.2.2)

/-- What holds of a table and its history after every call. -/
structure Sound (history : History) : Prop where
  counted : history.pending.retainedBodyBytes = held history.pending.entries
  retained : history.pending.entries <:+
    (history.inserted.map asKept).filter (·.1 ∉ history.delivered.map Prod.fst)
  distinct : (history.inserted.map Prod.fst).Nodup
  once : (history.delivered.map Prod.fst).Nodup
  asInserted : history.delivered ⊆ history.inserted.map asKept

theorem Sound.distinctKept {history : History} (sound : Sound history) :
    ((history.inserted.map asKept).map Prod.fst).Nodup := by
  rw [map_map]
  exact sound.distinct

/-- An id that was not inserted is neither waiting nor delivered. -/
theorem Sound.absent {history : History} (sound : Sound history) {id : Str}
    (new : id ∉ history.inserted.map Prod.fst) : id ∉ history.pending.entries.map Prod.fst ∧
      id ∉ history.delivered.map Prod.fst := by
  have notKept : id ∉ (history.inserted.map asKept).map Prod.fst := by
    rw [map_map]
    exact new
  refine ⟨fun mem => notKept ?_, fun mem => notKept (map_subset _ sound.asInserted mem)⟩
  exact map_subset _ (filter_subset_self _) (map_subset _ sound.retained.subset mem)

variable {maxRequests : Nat} {history next : History}

theorem Sound.insert {id : Str} {result : DataResult} {limits : PendingLimits}
    (sound : Sound history) (positive : 0 < maxRequests)
    (taken : step maxRequests history (.insert id result limits) = some next) :
    Sound next ∧ next.pending.entries.length ≤ maxRequests ∧
      next.pending.retainedBodyBytes ≤ limits.maxBodyBytes := by
  obtain ⟨⟨new, rfl, fits⟩, ⟨⟩⟩ := Option.ite_none_right_eq_some.mp taken
  obtain ⟨notWaiting, undelivered⟩ := sound.absent new
  obtain ⟨few, small, counted, _, older, shape⟩ :=
    PendingRequests.insertWithLimits_spec sound.counted positive notWaiting fits rfl
  refine ⟨⟨counted, ?_, ?_, sound.once, ?_⟩, few, small⟩
  · obtain ⟨front, same⟩ := older.trans sound.retained
    refine ⟨front, ?_⟩
    dsimp only
    rw [shape, map_append, filter_append, ← append_assoc, same]
    simp [asKept, undelivered]
  · rw [map_append]
    exact sound.distinct.append (nodup_singleton id) (disjoint_singleton.mpr new)
  · rw [map_append]
    exact fun _ mem => mem_append_left _ (sound.asInserted mem)

theorem filter_undelivered (entries : List (Str × DataResult)) (delivered : List Str) (id : Str) :
    (entries.filter (·.1 ∉ delivered)).filter (·.1 ≠ id) =
      entries.filter (·.1 ∉ id :: delivered) := by
  rw [filter_filter]
  exact filter_congr fun _ _ => by simp only [mem_cons, not_or, Bool.decide_and, ne_eq]

theorem Sound.poll {id : Str} (sound : Sound history)
    (taken : step maxRequests history (.poll id) = some next) : Sound next := by
  obtain rfl := Option.some.inj taken
  rcases history.pending.poll_cases id with ⟨none, same⟩ | ⟨result, mem, taken, left⟩
  · rw [none, same]
    exact sound
  · obtain ⟨isKept, fresh⟩ := mem_filter.mp (sound.retained.subset mem)
    have distinct : (history.pending.entries.map Prod.fst).Nodup :=
      sound.distinctKept.sublist ((sound.retained.sublist.trans filter_sublist).map _)
    rw [taken, left]
    refine ⟨?_, ?_, sound.distinct, ?_, ?_⟩
    · rw [sound.counted, held_filter distinct mem, Nat.add_sub_cancel_left]
    · have remains := sound.retained.filter (·.1 ≠ id)
      rw [filter_undelivered] at remains
      exact remains
    · exact nodup_cons.mpr ⟨by simpa using fresh, sound.once⟩
    · exact cons_subset.mpr ⟨isKept, sound.asInserted⟩

theorem sound_of_run (positive : 0 < maxRequests) {calls : List Call}
    (ran : run (step maxRequests) {} calls = some history) : Sound history := by
  have initially : Sound {} :=
    ⟨rfl, nil_suffix, nodup_nil, nodup_nil, nil_subset _⟩
  refine run_preserves Sound (fun {history call next} sound taken => ?_) initially ran
  cases call with
  | insert id => exact (sound.insert positive taken).1
  | poll id => exact sound.poll taken

/-- In every run the counter is exact, an insert leaves the table within its limits, the oldest
results give way, and each terminal result is delivered at most once, as it was resolved. -/
theorem results_delivered_once
    (positive : 0 < maxRequests)
    {calls : List Call}
    (ran : run (step maxRequests) {} calls = some history) :
    history.pending.retainedBodyBytes =
        (history.pending.entries.map fun entry => entry.2.data.elim 0 length).sum ∧
      (∀ earlier id result limits, calls = earlier ++ [.insert id result limits] →
        history.pending.entries.length ≤ maxRequests ∧
          (history.pending.entries.map fun entry => entry.2.data.elim 0 length).sum ≤
            limits.maxBodyBytes) ∧
      history.pending.entries.map Prod.fst <:+
        (history.inserted.map Prod.fst).filter (· ∉ history.delivered.map Prod.fst) ∧
      (history.inserted.map Prod.fst).Nodup ∧
      (history.delivered.map Prod.fst).Nodup ∧
      ∀ id got, (id, got) ∈ history.delivered → ∃ result limits,
        (id, result, limits) ∈ history.inserted ∧ KeptAs result limits got := by
  have sound := sound_of_run positive ran
  refine ⟨sound.counted, ?_, ?_, sound.distinct, sound.once, ?_⟩
  · rintro earlier id result limits rfl
    obtain ⟨_, ranBefore, last⟩ := run_append_eq_some.mp ran
    obtain ⟨_, few, small⟩ :=
      (sound_of_run positive ranBefore).insert positive (run_singleton_eq_some.mp last)
    rw [sound.counted] at small
    exact ⟨few, small⟩
  · have ids := sound.retained.map Prod.fst
    rw [filter_map, map_map] at ids
    rw [filter_map]
    exact ids
  · intro id got mem
    obtain ⟨⟨_, result, limits⟩, isInserted, ⟨⟩⟩ := mem_map.mp (sound.asInserted mem)
    exact ⟨result, limits, isInserted, keptAs_within result limits⟩

/-- Nothing has to give way for an insert: an entry is free, and the body that is kept, none of
an oversized one, fits beside those that wait. -/
def hasRoom (history : History) : Call → Bool
  | .insert _ result limits =>
    let body := result.data.elim 0 length
    history.pending.entries.length < limits.maxRequests ∧
      held history.pending.entries + (if limits.maxBodyBytes < body then 0 else body) ≤
        limits.maxBodyBytes
  | .poll _ => true

/-- Where there is room, the eviction loop takes nothing. -/
theorem insertWithLimits_of_room (sound : Sound history) {id : Str} {result : DataResult}
    {limits : PendingLimits} (positive : 0 < limits.maxRequests)
    (new : id ∉ history.pending.entries.map Prod.fst)
    (room : hasRoom history (.insert id result limits) = true) :
    (history.pending.insertWithLimits id result limits).entries =
      history.pending.entries ++ [asKept (id, result, limits)] := by
  obtain ⟨few, fits⟩ := of_decide_eq_true room
  have short : Cache.saturatingAdd history.pending.retainedBodyBytes
      (result.within limits).bodyBytes ≤ limits.maxBodyBytes := by
    rw [bodyBytes_within, sound.counted]
    exact (min_le_left _ _).trans fits
  dsimp only [PendingRequests.insertWithLimits]
  rw [if_neg positive.ne', PendingRequests.evict_of_room few short,
    PendingRequests.insertEntry, if_neg new]
  rfl

/-- While every insert finds room, each result waits, as it is kept, until a poll takes it. -/
theorem nothing_lost_with_room
    (positive : 0 < maxRequests)
    {calls : List Call}
    (roomy : Guarded (step maxRequests) (fun history call => hasRoom history call) {} calls)
    (ran : run (step maxRequests) {} calls = some history) :
    Forall₂ (fun entry insert => entry.1 = insert.1 ∧ KeptAs insert.2.1 insert.2.2 entry.2)
      history.pending.entries
      (history.inserted.filter (·.1 ∉ history.delivered.map Prod.fst)) := by
  have complete : history.pending.entries =
      (history.inserted.map asKept).filter (·.1 ∉ history.delivered.map Prod.fst) := by
    refine (run_preserves_of_guarded (fun history => Sound history ∧ history.pending.entries =
      (history.inserted.map asKept).filter (·.1 ∉ history.delivered.map Prod.fst))
      ?_ ⟨@sound_of_run _ {} positive [] rfl, rfl⟩ roomy ran).2
    rintro history call next ⟨sound, complete⟩ room taken
    cases call with
    | insert id result limits =>
      refine ⟨(sound.insert positive taken).1, ?_⟩
      obtain ⟨⟨new, rfl, _⟩, ⟨⟩⟩ := Option.ite_none_right_eq_some.mp taken
      obtain ⟨notWaiting, undelivered⟩ := sound.absent new
      dsimp only
      rw [insertWithLimits_of_room sound positive notWaiting room, map_append, filter_append,
        ← complete]
      simp [asKept, undelivered]
    | poll id =>
      refine ⟨sound.poll taken, ?_⟩
      obtain rfl := Option.some.inj taken
      rcases history.pending.poll_cases id with ⟨none, same⟩ | ⟨result, _, taken, left⟩
      · rw [none, same]
        exact complete
      · rw [taken, left]
        have remains := congrArg (filter (·.1 ≠ id)) complete
        rw [filter_undelivered] at remains
        exact remains
  rw [complete, filter_map]
  exact forall₂_map_left_iff.mpr (forall₂_same.mpr fun insert _ =>
    ⟨rfl, keptAs_within insert.2.1 insert.2.2⟩)

/-- Four results in a table for two, one with an oversized body and one with a long error. -/
def exampleCalls : List Call :=
  [.insert ['1'] ⟨.ready, some [1, 2, 3], none⟩ ⟨2, 4, 60⟩,
    .insert ['2'] ⟨.ready, some [1, 2, 3, 4, 5], none⟩ ⟨2, 4, 60⟩, .poll ['2'],
    .insert ['3'] ⟨.failed, some [6], some "error".toList⟩ ⟨2, 4, 4⟩,
    .insert ['4'] ⟨.ready, some [7, 8], none⟩ ⟨2, 4, 4⟩, .poll ['1'], .poll ['3']]

/-- The oversized body is delivered as an error and the long error cut; the first result was
evicted, and the last one waits with its body. -/
theorem oversized_result_delivered : ∃ history,
    run (step 2) {} exampleCalls = some history ∧
      history.pending.entries = [(['4'], ⟨.ready, some [7, 8], none⟩)] ∧
      history.delivered = [(['3'], ⟨.failed, some [6], some ['e', '…']⟩),
        (['2'], ⟨.failed, none,
          some "Data response exceeds pending body budget of 4 bytes".toList⟩)] ∧
      history.pending.retainedBodyBytes =
        (history.pending.entries.map fun entry => entry.2.data.elim 0 length).sum ∧
      ∀ id got, (id, got) ∈ history.delivered → ∃ result limits,
        (id, result, limits) ∈ history.inserted ∧ KeptAs result limits got := by
  obtain ⟨counted, -, -, -, -, kept⟩ :=
    @results_delivered_once 2 _ Nat.two_pos exampleCalls rfl
  exact ⟨_, rfl, rfl, rfl, counted, kept⟩

def fittingCalls : List Call :=
  [.insert ['1'] ⟨.ready, some [1], none⟩ ⟨2, 4, 60⟩,
    .insert ['2'] ⟨.ready, some [2, 3], none⟩ ⟨2, 4, 60⟩]

/-- Two results that fit together both wait, with their bodies. -/
theorem two_results_wait : ∃ history, run (step 2) {} fittingCalls = some history ∧
    history.pending.entries =
      [(['1'], ⟨.ready, some [1], none⟩), (['2'], ⟨.ready, some [2, 3], none⟩)] ∧
    Forall₂ (fun entry insert => entry.1 = insert.1 ∧ KeptAs insert.2.1 insert.2.2 entry.2)
      history.pending.entries
      (history.inserted.filter (·.1 ∉ history.delivered.map Prod.fst)) :=
  ⟨_, rfl, rfl, @nothing_lost_with_room 2 _ Nat.two_pos fittingCalls (by decide) rfl⟩

end Arclain.PendingResults
