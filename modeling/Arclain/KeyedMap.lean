import Mathlib.Data.List.AList

namespace Arclain

/-!
# Keyed maps

Hash maps of the source are association lists with duplicate-free keys.  Their iteration
order is the list order, and no modelled function depends on it.
-/

open List Option AList

/-- A finite map from `Key` to `Value`. -/
abbrev KeyedMap (Key Value : Type*) := AList fun _ : Key => Value

namespace KeyedMap

variable {Key Value : Type*} [DecidableEq Key]

theorem lookup_insert_ite (map : KeyedMap Key Value) (key other : Key) (value : Value) :
    (map.insert key value).lookup other =
      if other = key then some value else map.lookup other := by
  by_cases same : other = key
  · subst key
    simp
  · simp [same, lookup_insert_ne same]

theorem lookup_erase_ite (map : KeyedMap Key Value) (key other : Key) :
    (map.erase key).lookup other =
      if other = key then none else map.lookup other := by
  by_cases same : other = key
  · subst key
    simp
  · simp [same, lookup_erase_ne same]

theorem lookup_of_erase {map : KeyedMap Key Value} {key other : Key} {value : Value}
    (found : (map.erase key).lookup other = some value) : map.lookup other = some value := by
  rw [lookup_erase_ite] at found
  split at found
  · cases found
  · exact found

variable {map : KeyedMap Key Value} {key : Key}

variable {value : Value}

theorem lookup_eq_some_iff_mem : map.lookup key = some value ↔
    (⟨key, value⟩ : Σ _ : Key, Value) ∈ map.entries :=
  mem_lookup_iff

theorem notMem_keys_iff {key : Key} : key ∉ map.keys ↔ map.lookup key = none := by
  rw [lookup_eq_none, AList.mem_keys]

theorem keys_insert_fresh (fresh : map.lookup key = none) :
    (map.insert key value).keys = key :: map.keys := by
  rw [keys_insert, erase_of_not_mem (notMem_keys_iff.mpr fresh)]

theorem entries_erase (map : KeyedMap Key Value) (key : Key) :
    (map.erase key).entries = map.entries.filter fun entry => entry.1 ≠ key := by
  have removed (entries : List (Σ _ : Key, Value)) (distinct : entries.NodupKeys) :
      entries.kerase key = entries.filter fun entry => entry.1 ≠ key := by
    induction entries with
    | nil => rfl
    | cons entry _ ih =>
      obtain ⟨fresh, distinctRest⟩ := nodupKeys_cons.mp distinct
      by_cases same : key = entry.1
      · rw [kerase_cons_eq same, filter_cons_of_neg (by simp [same])]
        refine (filter_eq_self.mpr fun other mem => ?_).symm
        refine decide_eq_true fun equal => fresh ?_
        rw [← same, ← equal]
        exact mem_keys_of_mem mem
      · rw [kerase_cons_ne same, filter_cons_of_pos (by simpa using Ne.symm same), ih distinctRest]
  exact removed map.entries map.nodupKeys

theorem entries_insert_eq (map : KeyedMap Key Value) (key : Key) (value : Value) :
    (map.insert key value).entries =
      ⟨key, value⟩ :: map.entries.filter fun entry => entry.1 ≠ key := by
  rw [entries_insert, ← entries_erase]
  rfl

/-- The bindings whose value satisfies a test, as `HashMap::retain` keeps
them. -/
def retain (map : KeyedMap Key Value) (keep : Value → Bool) : KeyedMap Key Value where
  entries := map.entries.filter fun entry => keep entry.2
  nodupKeys := map.nodupKeys.sublist filter_sublist

theorem lookup_retain (map : KeyedMap Key Value) (keep : Value → Bool) (key : Key) :
    (map.retain keep).lookup key = (map.lookup key).filter keep := by
  have kept (value : Value) : (map.retain keep).lookup key = some value ↔
      map.lookup key = some value ∧ keep value = true := by
    rw [lookup_eq_some_iff_mem, lookup_eq_some_iff_mem]
    simp [retain]
  cases bound : map.lookup key with
  | none =>
    rw [filter_none, eq_none_iff_forall_ne_some]
    intro value found
    rw [kept, bound] at found
    cases found.1
  | some value =>
    cases holds : keep value with
    | true =>
      simp only [filter_some, holds, ↓reduceIte]
      exact (kept value).mpr ⟨bound, holds⟩
    | false =>
      simp only [filter_some, holds, Bool.false_eq_true, ↓reduceIte]
      rw [eq_none_iff_forall_ne_some]
      intro _ found
      rw [kept, bound] at found
      obtain rfl := some.inj found.1
      rw [holds] at found
      cases found.2

def retainKeys (map : KeyedMap Key Value) (keep : Key → Bool) : KeyedMap Key Value where
  entries := map.entries.filter fun entry => keep entry.1
  nodupKeys := map.nodupKeys.sublist filter_sublist

theorem lookup_retainKeys_eq_some {keep : Key → Bool} :
    (map.retainKeys keep).lookup key = some value ↔
      map.lookup key = some value ∧ keep key = true := by
  rw [lookup_eq_some_iff_mem, lookup_eq_some_iff_mem]
  exact mem_filter

def mapValues {Other : Type*} (map : KeyedMap Key Value) (change : Value → Other) :
    KeyedMap Key Other where
  entries := map.entries.map fun entry => ⟨entry.1, change entry.2⟩
  nodupKeys := by simpa [List.NodupKeys, List.keys, Function.comp_def] using map.nodupKeys

theorem lookup_mapValues {Other : Type*} (map : KeyedMap Key Value) (change : Value → Other)
    (key : Key) : (map.mapValues change).lookup key = (map.lookup key).map change := by
  cases bound : map.lookup key with
  | none =>
    rw [map_none, ← notMem_keys_iff]
    have unlisted := notMem_keys_iff.mpr bound
    simpa [AList.keys, List.keys, mapValues, Function.comp_def] using unlisted
  | some =>
    rw [map_some, lookup_eq_some_iff_mem]
    exact mem_map_of_mem (lookup_eq_some_iff_mem.mp bound)

def count (map : KeyedMap Key Value) (test : Value → Bool) : Nat :=
  map.entries.countP fun entry => test entry.2

variable {test : Value → Bool}

theorem count_pos_iff : 0 < map.count test ↔ ∃ key value,
    map.lookup key = some value ∧ test value = true := by
  simp only [count, countP_pos_iff]
  constructor
  · rintro ⟨⟨key, value⟩, mem, holds⟩
    exact ⟨key, value, lookup_eq_some_iff_mem.mpr mem, holds⟩
  · rintro ⟨key, value, bound, holds⟩
    exact ⟨⟨key, value⟩, lookup_eq_some_iff_mem.mp bound, holds⟩

theorem eq_of_count_eq_one (single : map.count test = 1) {first second : Key}
    {firstValue secondValue : Value} (firstBound : map.lookup first = some firstValue)
    (firstCounted : test firstValue = true) (secondBound : map.lookup second = some secondValue)
    (secondCounted : test secondValue = true) : first = second := by
  simp only [count, countP_eq_length_filter] at single
  obtain ⟨only, filtered⟩ := length_eq_one_iff.mp single
  have firstMember : (⟨first, firstValue⟩ : Σ _ : Key, Value) ∈ [only] := by
    rw [← filtered]
    exact mem_filter.mpr ⟨lookup_eq_some_iff_mem.mp firstBound, firstCounted⟩
  have secondMember : (⟨second, secondValue⟩ : Σ _ : Key, Value) ∈ [only] := by
    rw [← filtered]
    exact mem_filter.mpr ⟨lookup_eq_some_iff_mem.mp secondBound, secondCounted⟩
  simp only [mem_singleton] at firstMember secondMember
  exact congrArg Sigma.fst (firstMember.trans secondMember.symm)

theorem count_le_one (key : Key) (unique :
    ∀ {other value}, map.lookup other = some value → test value = true → other = key) :
    map.count test ≤ 1 := by
  simp only [count, countP_eq_length_filter]
  have keysNodup : (map.entries.filter fun entry => test entry.2).NodupKeys :=
    map.nodupKeys.sublist filter_sublist
  have keysConstant : ∀ name ∈ (map.entries.filter fun entry => test entry.2).keys, name = key := by
    intro name mem
    obtain ⟨value, listed⟩ := mem_keys.mp mem
    obtain ⟨entryListed, counted⟩ := mem_filter.mp listed
    exact unique (lookup_eq_some_iff_mem.mpr entryListed) counted
  have keysLength : (map.entries.filter fun entry => test entry.2).keys.length ≤ 1 := by
    have replicated := eq_replicate_of_mem keysConstant
    rw [List.NodupKeys, replicated] at keysNodup
    exact nodup_replicate.mp keysNodup
  simpa [List.keys] using keysLength

end KeyedMap

end Arclain
