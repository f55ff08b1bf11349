import Mathlib.Algebra.BigOperators.Group.Finset.Piecewise
import Mathlib.Algebra.GroupWithZero.Nat
import Mathlib.Algebra.Order.BigOperators.Group.Finset
import Mathlib.Data.Finset.Lattice.Fold
import Mathlib.Order.Lattice.Nat

namespace Arclain

/-!
# Weights that count once for each label

Items carry a label and a weight.  All items of one label stand for one thing,
which weighs as much as the heaviest of them; the total is taken over labels.
-/

open List

namespace LabelledWeight

variable {Item Label : Type*} [DecidableEq Label] (label : Item → Label) (weight : Item → Nat)

def weightOf (items : Finset Item) (name : Label) : Nat :=
  (items.filter fun item => label item = name).sup weight

def total (items : Finset Item) : Nat :=
  ∑ name ∈ items.image label, weightOf label weight items name

variable {label weight} {items : Finset Item}

theorem le_weightOf {item : Item} (mem : item ∈ items) :
    weight item ≤ weightOf label weight items (label item) :=
  Finset.le_sup (Finset.mem_filter.mpr ⟨mem, rfl⟩)

theorem total_le_of_dominated {items others : Finset Item} (dominated :
    ∀ item ∈ items, ∃ other ∈ others, label other = label item ∧ weight item ≤ weight other) :
    total label weight items ≤ total label weight others := by
  have labels : items.image label ⊆ others.image label := by
    intro name named
    obtain ⟨item, mem, rfl⟩ := Finset.mem_image.mp named
    obtain ⟨other, otherMember, same, -⟩ := dominated item mem
    exact Finset.mem_image.mpr ⟨other, otherMember, same⟩
  have each (name : Label) :
      weightOf label weight items name ≤ weightOf label weight others name := by
    refine Finset.sup_le fun item mem => ?_
    obtain ⟨listed, rfl⟩ := Finset.mem_filter.mp mem
    obtain ⟨other, otherMember, same, outweighed⟩ := dominated item listed
    refine outweighed.trans ?_
    rw [← same]
    exact le_weightOf otherMember
  calc
    total label weight items ≤ ∑ name ∈ items.image label, weightOf label weight others name :=
      Finset.sum_le_sum fun name _ => each name
    _ ≤ total label weight others := Finset.sum_le_sum_of_subset labels

theorem total_mono {items others : Finset Item} (subset : items ⊆ others) :
    total label weight items ≤ total label weight others :=
  total_le_of_dominated fun item mem => ⟨item, subset mem, rfl, le_rfl⟩

theorem total_insert_le [DecidableEq Item] (items : Finset Item) (item : Item) :
    total label weight (insert item items) ≤ total label weight items + weight item := by
  have each (name : Label) : weightOf label weight (insert item items) name ≤
      weightOf label weight items name + (if name = label item then weight item else 0) := by
    refine Finset.sup_le fun other mem => ?_
    obtain ⟨listed, rfl⟩ := Finset.mem_filter.mp mem
    rcases Finset.mem_insert.mp listed with rfl | old
    · simp
    · exact (le_weightOf old).trans (Nat.le_add_right _ _)
  -- The label of the item is counted apart, whether it is new or not.
  have labels : (insert item items).image label = insert (label item) (items.image label) :=
    Finset.image_insert label item items
  calc
    total label weight (insert item items) ≤ ∑ name ∈ insert (label item) (items.image label),
      (weightOf label weight items name +
        if name = label item then weight item else 0) := by
        rw [total, labels]
        exact Finset.sum_le_sum fun name _ => each name
    _ = (∑ name ∈ insert (label item) (items.image label),
      weightOf label weight items name) + weight item := by
        rw [Finset.sum_add_distrib]
        simp
    _ = total label weight items + weight item := by
      rw [total]
      by_cases known : label item ∈ items.image label
      · rw [Finset.insert_eq_of_mem known]
      · rw [Finset.sum_insert known]
        have unused : (items.filter fun other => label other = label item) = ∅ := by
          refine Finset.filter_eq_empty_iff.mpr fun other mem same => ?_
          exact known (Finset.mem_image.mpr ⟨other, mem, same⟩)
        simp [weightOf, unused]

variable {groups : List (Label × Nat)}

theorem total_le_of_covered (named : ∀ item ∈ items, ∃ group ∈ groups, group.1 = label item)
    (covered : ∀ item ∈ items, ∀ group ∈ groups, group.1 = label item → weight item ≤ group.2) :
    total label weight items ≤ (groups.map Prod.snd).sum := by
  induction groups generalizing items with
  | nil =>
    have none : items = ∅ := by
      refine Finset.eq_empty_of_forall_notMem fun item mem => ?_
      obtain ⟨group, listed, -⟩ := named item mem
      cases listed
    simp [none, total]
  | cons group groups ih =>
    classical
    let rest := items.filter fun item => label item ≠ group.1
    have later : total label weight rest ≤ (groups.map Prod.snd).sum := by
      refine ih ?_ ?_
      · intro item mem
        obtain ⟨listed, other⟩ := Finset.mem_filter.mp mem
        obtain ⟨found, among, same⟩ := named item listed
        rcases mem_cons.mp among with rfl | among
        · exact absurd same.symm other
        · exact ⟨found, among, same⟩
      · intro item mem found among same
        exact covered item (Finset.mem_filter.mp mem).1 found (mem_cons_of_mem _ among) same
    have first : weightOf label weight items group.1 ≤ group.2 := by
      refine Finset.sup_le fun item mem => ?_
      obtain ⟨listed, same⟩ := Finset.mem_filter.mp mem
      exact covered item listed group mem_cons_self same.symm
    have labels : items.image label ⊆ insert group.1 (rest.image label) := by
      intro name among
      obtain ⟨item, mem, rfl⟩ := Finset.mem_image.mp among
      by_cases same : label item = group.1
      · exact Finset.mem_insert.mpr (.inl same)
      · exact Finset.mem_insert_of_mem (Finset.mem_image.mpr
          ⟨item, Finset.mem_filter.mpr ⟨mem, same⟩, rfl⟩)
    have fresh : group.1 ∉ rest.image label := by
      intro among
      obtain ⟨item, mem, same⟩ := Finset.mem_image.mp among
      exact (Finset.mem_filter.mp mem).2 same
    have others : ∑ name ∈ rest.image label, weightOf label weight items name ≤
        total label weight rest := by
      refine Finset.sum_le_sum fun name among => ?_
      refine Finset.sup_le fun item mem => ?_
      obtain ⟨listed, rfl⟩ := Finset.mem_filter.mp mem
      refine le_weightOf (Finset.mem_filter.mpr ⟨listed, ?_⟩)
      intro same
      exact fresh (same ▸ among)
    calc
      total label weight items ≤ ∑ name ∈ insert group.1 (rest.image label),
        weightOf label weight items name := Finset.sum_le_sum_of_subset labels
      _ = weightOf label weight items group.1 +
        ∑ name ∈ rest.image label, weightOf label weight items name := Finset.sum_insert fresh
      _ ≤ group.2 + (groups.map Prod.snd).sum := Nat.add_le_add first (others.trans later)
      _ = ((group :: groups).map Prod.snd).sum := by rw [map_cons, sum_cons]

theorem sum_le_total (distinct : (groups.map Prod.fst).Nodup)
    (attained : ∀ group ∈ groups, group.1 ∈ items.image label ∧
      group.2 ≤ weightOf label weight items group.1) :
    (groups.map Prod.snd).sum ≤ total label weight items := by
  have labels : (groups.map Prod.fst).toFinset ⊆ items.image label := by
    intro name among
    obtain ⟨group, mem, rfl⟩ := mem_map.mp (mem_toFinset.mp among)
    exact (attained group mem).1
  calc
    (groups.map Prod.snd).sum ≤ (groups.map fun group => weightOf label weight items group.1).sum :=
      sum_le_sum fun group mem => (attained group mem).2
    _ = ∑ name ∈ (groups.map Prod.fst).toFinset, weightOf label weight items name := by
      rw [sum_toFinset _ distinct, map_map]
      rfl
    _ ≤ total label weight items := Finset.sum_le_sum_of_subset labels

end LabelledWeight

end Arclain
