import Mathlib.Data.List.DropRight
import Mathlib.Data.List.Nodup
import Mathlib.Data.List.Perm.Subperm

namespace Arclain.RecentOrder

/-!
# The most recent of an order

An order is a list of distinct elements, the most recent one last.  A bounded history
forgets some and keeps the others.
-/

open List

variable {Element : Type*} {order : List Element} {bound : Nat}

theorem mem_rtake_concat {last element : Element}
    (recent : element ∈ (order ++ [last]).rtake bound) :
    element = last ∨ element ∈ order.rtake bound := by
  cases bound with
  | zero => simp at recent
  | succ bound =>
    rw [rtake_concat_succ, mem_append, mem_singleton] at recent
    rcases recent with inEarlier | same
    · refine .inr ?_
      rw [rtake_eq_reverse_take_reverse, mem_reverse] at inEarlier ⊢
      exact take_subset_take_left order.reverse (Nat.le_succ bound) inEarlier
    · exact .inl same

variable {earlier later : List Element} {element : Element}

theorem mem_rtake_of_length_lt
    (few : later.length < bound) : element ∈ (earlier ++ element :: later).rtake bound := by
  rw [rtake_eq_reverse_take_reverse, mem_reverse,
    reverse_append, reverse_cons, append_assoc, take_append, mem_append]
  refine .inr ?_
  have room : bound - later.reverse.length = (bound - later.length - 1) + 1 := by
    simp only [length_reverse]
    omega
  rw [room, singleton_append, take_succ_cons]
  exact mem_cons_self

theorem length_lt_of_mem_rtake (distinct : (earlier ++ element :: later).Nodup)
    (recent : element ∈ (earlier ++ element :: later).rtake bound) : later.length < bound := by
  by_contra many
  have inLater : (earlier ++ element :: later).rtake bound = later.rtake bound := by
    have long : bound - later.reverse.length = 0 := by
      simp only [length_reverse]
      omega
    rw [rtake_eq_reverse_take_reverse, reverse_append,
      reverse_cons, append_assoc, take_append, long,
      take_zero, append_nil, ← rtake_eq_reverse_take_reverse]
  rw [inLater, rtake_eq_reverse_take_reverse, mem_reverse] at recent
  have twice := mem_reverse.mp (mem_of_mem_take recent)
  exact (nodup_cons.mp distinct.of_append_right).1 twice

theorem length_rtake (enough : bound ≤ order.length) : (order.rtake bound).length = bound := by
  rw [rtake_eq_reverse_take_reverse, length_reverse, length_take, length_reverse]
  exact Nat.min_eq_left enough

section

variable [DecidableEq Element] {order forgotten kept : List Element} {bound : Nat}

theorem notMem_rtake_of_precedes (distinct : order.Nodup) (keptDistinct : kept.Nodup)
    (keptOrdered : kept ⊆ order) (size : kept.length = bound) {element : Element}
    (precedes : ∀ other ∈ kept, order.idxOf element < order.idxOf other) :
    element ∉ order.rtake bound := by
  intro recent
  have mem : element ∈ order := by
    rw [rtake_eq_reverse_take_reverse, mem_reverse] at recent
    exact mem_reverse.mp (mem_of_mem_take recent)
  obtain ⟨_, later, rfl, fresh⟩ := eq_append_cons_of_mem mem
  have followed : kept ⊆ later := by
    intro other isKept
    have before := precedes other isKept
    rw [idxOf_append_of_notMem fresh, idxOf_cons_self, Nat.add_zero] at before
    rcases mem_append.mp (keptOrdered isKept) with inEarlier | inRest
    · rw [idxOf_append_of_mem inEarlier] at before
      exact absurd (idxOf_lt_length_of_mem inEarlier) (by omega)
    · rcases mem_cons.mp inRest with rfl | inLater
      · rw [idxOf_append_of_notMem fresh, idxOf_cons_self] at before
        omega
      · exact inLater
  have fewer := length_lt_of_mem_rtake distinct recent
  have long := (subperm_of_subset keptDistinct followed).length_le
  omega

theorem precedes_iff_notMem_rtake (distinct : order.Nodup)
    (historyDistinct : (forgotten ++ kept).Nodup) (ordered : forgotten ++ kept ⊆ order)
    (holdsRecent : order.rtake bound ⊆ forgotten ++ kept)
    (size : forgotten ≠ [] → kept.length = bound) :
    (∀ gone ∈ forgotten, ∀ stays ∈ kept, order.idxOf gone < order.idxOf stays) ↔
      ∀ gone ∈ forgotten, gone ∉ order.rtake bound := by
  have keptOrdered : kept ⊆ order := fun element isKept =>
    ordered (mem_append_right forgotten isKept)
  constructor
  · intro precedes gone isForgotten
    exact notMem_rtake_of_precedes distinct historyDistinct.of_append_right
      keptOrdered (size (ne_nil_of_mem isForgotten))
      (precedes gone isForgotten)
  · intro old gone isForgotten stays isKept
    have size := size (ne_nil_of_mem isForgotten)
    have enough : bound ≤ order.length := by
      rw [← size]
      have keptDistinct : kept.Nodup := historyDistinct.of_append_right
      exact (subperm_of_subset keptDistinct keptOrdered).length_le
    have recentKept : order.rtake bound ⊆ kept := by
      intro element recent
      rcases mem_append.mp (holdsRecent recent) with isGone | stays
      · exact absurd recent (old element isGone)
      · exact stays
    have split : order.rdrop bound ++ order.rtake bound = order :=
      take_append_drop (order.length - bound) order
    have splitDistinct : (order.rdrop bound ++ order.rtake bound).Nodup := by
      rw [split]
      exact distinct
    have keptRecent : kept ⊆ order.rtake bound := by
      have recentDistinct : (order.rtake bound).Nodup := splitDistinct.of_append_right
      have recentPerm :=
        (subperm_of_subset recentDistinct recentKept).perm_of_length_le
          (by rw [size, length_rtake enough])
      exact recentPerm.symm.subset
    have goneEarly : gone ∈ order.rdrop bound := by
      have mem : gone ∈ order.rdrop bound ++ order.rtake bound := by
        rw [split]
        exact ordered (mem_append_left kept isForgotten)
      rcases mem_append.mp mem with early | recent
      · exact early
      · exact absurd recent (old gone isForgotten)
    have staysLate : stays ∉ order.rdrop bound := fun early =>
      (disjoint_of_nodup_append splitDistinct) early (keptRecent isKept)
    rw [← split, idxOf_append_of_mem goneEarly, idxOf_append_of_notMem staysLate]
    exact Nat.lt_of_lt_of_le (idxOf_lt_length_of_mem goneEarly) (Nat.le_add_right _ _)

end

end Arclain.RecentOrder
