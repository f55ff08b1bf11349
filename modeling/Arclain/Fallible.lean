import Mathlib.Data.List.Basic
import Mathlib.Data.List.Nodup
import Mathlib.Data.List.Forall2

namespace Arclain.Fallible

/-!
# Fallible computations

Fallible code returns `Except`.  A successful computation is taken apart at its
binds, and a successful loop at its iterations, with the rules below.
-/

open List

universe u

variable {Error Item : Type*} {Value Result : Type u}

theorem bind_eq_ok {first : Except Error Value} {second : Value → Except Error Result}
    {result : Result} :
    (first >>= second) = .ok result ↔ ∃ value, first = .ok value ∧ second value = .ok result := by
  cases first with
  | error error | ok value => simp [Bind.bind, Except.bind]

variable {computation : Except Error Value} {view : Value → Result}

theorem map_eq_ok {result : Result} : computation.map view = .ok result ↔
    ∃ value, computation = .ok value ∧ view value = result := by
  cases computation with
  | error error | ok value => simp [Except.map]

theorem mapError_eq_ok {reworded : Type*} {reword : Error → reworded} {value : Value} :
    computation.mapError reword = .ok value ↔ computation = .ok value := by
  cases computation with
  | error error | ok => simp [Except.mapError]

theorem exists_of_toOption_map {seen : Result}
    (evaluated : computation.toOption.map view = some seen) :
    ∃ value, computation = .ok value ∧ view value = seen := by
  cases computation with
  | error error => simp [Except.toOption] at evaluated
  | ok value => exact ⟨value, rfl, Option.some.inj evaluated⟩

variable {condition : Prop}

theorem guard_eq_ok [Decidable condition] {error : Error} {value result : Value} :
    (if condition then Except.error error else Except.ok value) = .ok result ↔
      ¬ condition ∧ value = result := by
  by_cases holds : condition
  · simp [holds]
  · simp [holds]

theorem refuse_eq_ok [Decidable condition] {error : Error}
    {otherwise : Except Error Value} {result : Value} :
    (if condition then Except.error error else otherwise) = .ok result ↔
      ¬ condition ∧ otherwise = .ok result := by
  by_cases holds : condition
  · simp [holds]
  · simp [holds]

variable {body : Value → Item → Except Error Value}

theorem foldlM_cons_eq_ok {start result : Value} {item : Item} {rest : List Item} :
    (item :: rest).foldlM body start = .ok result ↔ ∃ next,
      body start item = .ok next ∧ rest.foldlM body next = .ok result := by
  rw [foldlM_cons]
  exact bind_eq_ok

variable {items : List Item}

theorem foldlM_preserves (invariant : Value → Prop) (preserved :
    ∀ {value item next}, item ∈ items → invariant value → body value item = .ok next →
      invariant next)
    {start result : Value} (initially : invariant start)
    (looped : items.foldlM body start = .ok result) : invariant result := by
  induction items generalizing start with
  | nil =>
    have same : start = result := Except.ok.inj looped
    subst result
    exact initially
  | cons item _ ih =>
    obtain ⟨next, taken, later⟩ := foldlM_cons_eq_ok.mp looped
    refine ih ?_ (preserved (by simp) initially taken) later
    intro value _ _ mem holds step
    exact preserved (mem_cons_of_mem item mem) holds step

theorem exists_of_foldlM {start result : Value} (looped : items.foldlM body start = .ok result)
    {item : Item} (mem : item ∈ items) : ∃ value next, body value item = .ok next := by
  induction items generalizing start with
  | nil => simp at mem
  | cons _ _ ih =>
    obtain ⟨next, taken, later⟩ := foldlM_cons_eq_ok.mp looped
    rcases mem_cons.mp mem with rfl | inRest
    · exact ⟨start, next, taken⟩
    · exact ih later inRest

variable {results : List Value}

theorem forall₂_of_mapM {body : Item → Except Error Value}
    (mapped : items.mapM body = .ok results) :
    List.Forall₂ (fun item result => body item = .ok result) items results := by
  induction items generalizing results with
  | nil =>
    obtain rfl := Except.ok.inj mapped
    exact .nil
  | cons item _ ih =>
    rw [mapM_cons] at mapped
    obtain ⟨result, taken, later⟩ := bind_eq_ok.mp mapped
    obtain ⟨_, restMapped, done⟩ := bind_eq_ok.mp later
    obtain rfl := Except.ok.inj done
    exact .cons taken (ih restMapped)

variable {result : Value} {related : Item → Value → Prop}

theorem exists_of_forall₂
    (matched : List.Forall₂ related items results) (mem : result ∈ results) :
    ∃ item ∈ items, related item result := by
  obtain ⟨index, bound, rfl⟩ := getElem_of_mem mem
  have itemBound : index < items.length := matched.length_eq ▸ bound
  exact ⟨items[index], getElem_mem itemBound, (forall₂_iff_get.mp matched).2 index itemBound bound⟩

theorem pairwise_of_forall₂ {earlier : Item → Item → Prop} {later : Value → Value → Prop}
    (carries : ∀ {first second firstResult secondResult}, related first firstResult →
      related second secondResult → earlier first second → later firstResult secondResult)
    {items : List Item} (matched : List.Forall₂ related items results)
    (pairwise : items.Pairwise earlier) : results.Pairwise later := by
  induction matched with
  | nil => exact .nil
  | cons head tail ih =>
    obtain ⟨headPairs, tailPairs⟩ := pairwise_cons.mp pairwise
    refine pairwise_cons.mpr ⟨?_, ih tailPairs⟩
    intro _ mem
    obtain ⟨item, itemMember, itemRelated⟩ := exists_of_forall₂ tail mem
    exact carries head itemRelated (headPairs item itemMember)

section

variable {Key : Type*}

def Collects (keys earlier later : List Key) : Prop :=
  later = keys.reverse ++ earlier ∧ (earlier.Nodup → later.Nodup)

namespace Collects

theorem nil (listing : List Key) : Collects [] listing listing := ⟨rfl, id⟩

theorem single {key : Key} {listing : List Key} (fresh : key ∉ listing) :
    Collects [key] listing (key :: listing) :=
  ⟨rfl, fun distinct => nodup_cons.mpr ⟨fresh, distinct⟩⟩

theorem append {first second earlier middle later : List Key}
    (firstCollected : Collects first earlier middle)
    (secondCollected : Collects second middle later) :
    Collects (first ++ second) earlier later := by
  obtain ⟨rfl, firstDistinct⟩ := firstCollected
  obtain ⟨rfl, secondDistinct⟩ := secondCollected
  refine ⟨by simp, fun distinct => ?_⟩
  exact secondDistinct (firstDistinct distinct)

theorem nodup {keys later : List Key} (collected : Collects keys [] later) : keys.Nodup := by
  obtain ⟨rfl, distinct⟩ := collected
  have reversed := distinct nodup_nil
  rw [append_nil] at reversed
  exact nodup_reverse.mp reversed

variable (listing : Value → List Key)

theorem foldlM {body : Value → Item → Except Error Value}
    (keys : Item → List Key) {items : List Item}
    (collects : ∀ {value item next}, item ∈ items → body value item = .ok next →
      Collects (keys item) (listing value) (listing next))
    {start result : Value} (looped : items.foldlM body start = .ok result) :
    Collects (items.flatMap keys) (listing start) (listing result) := by
  induction items generalizing start with
  | nil =>
    have same : start = result := Except.ok.inj looped
    subst result
    exact nil _
  | cons item _ ih =>
    obtain ⟨next, taken, later⟩ := foldlM_cons_eq_ok.mp looped
    have restCollected := ih (fun mem => collects (mem_cons_of_mem item mem)) later
    exact (collects (by simp) taken).append restCollected

theorem foldlM_single {body : Value → Item → Except Error Value}
    (key : Item → Key) {items : List Item}
    (collects : ∀ {value item next}, item ∈ items → body value item = .ok next →
      Collects [key item] (listing value) (listing next))
    {start result : Value} (looped : items.foldlM body start = .ok result) :
    Collects (items.map key) (listing start) (listing result) := by
  rw [map_eq_flatMap]
  exact foldlM listing _ collects looped

end Collects

end

end Arclain.Fallible
