import Mathlib.Algebra.Group.Nat.Defs
import Mathlib.Data.List.Basic
import Mathlib.Data.List.Nodup
import Mathlib.Data.List.Perm.Subperm

namespace Arclain.HashTree

/-!
# Trees that pair an odd node with itself

A list of nodes is folded level by level: neighbours are combined, and the last node of an
odd level with itself.  Folding blocks of values gives the *completion* of a list, the
sequence that the tree really sees.
-/

open List Option

section

variable {Node Other : Type*}

/-- The pairs a level is combined in.  An odd last node is paired with itself. -/
def pairs : List Node → List (Node × Node)
  | [] => []
  | [last] => [(last, last)]
  | left :: right :: rest => (left, right) :: pairs rest

def nextLevel (combine : Node → Node → Node) (level : List Node) : List Node :=
  (pairs level).map fun pair => combine pair.1 pair.2

theorem length_pairs (level : List Node) : (pairs level).length = (level.length + 1) / 2 := by
  induction level using pairs.induct with
  | case1 | case2 => simp [pairs]
  | case3 _ _ _ ih =>
    simp only [pairs, length_cons, ih]
    omega

@[simp] theorem length_nextLevel (combine : Node → Node → Node) (level : List Node) :
    (nextLevel combine level).length = (level.length + 1) / 2 := by
  rw [nextLevel, length_map, length_pairs]

variable {level : List Node}

theorem mem_of_mem_pairs {pair : Node × Node} (paired : pair ∈ pairs level) :
    pair.1 ∈ level ∧ pair.2 ∈ level := by
  induction level using pairs.induct with
  | case1 => cases paired
  | case2 =>
    rw [pairs, mem_singleton] at paired
    subst pair
    simp
  | case3 _ _ _ ih =>
    rw [pairs, mem_cons] at paired
    rcases paired with rfl | later
    · simp
    · obtain ⟨first, second⟩ := ih later
      simp [first, second]

def levels (combine : Node → Node → Node) (level : List Node) : List (List Node) :=
  if 1 < level.length then level :: levels combine (nextLevel combine level)
  else [level]
termination_by level.length
decreasing_by
  rw [length_nextLevel]
  omega

def top (combine : Node → Node → Node) (level : List Node) : Option Node :=
  (levels combine level).getLast?.bind head?

variable {combine : Node → Node → Node}

theorem levels_of_several (several : 1 < level.length) :
    levels combine level = level :: levels combine (nextLevel combine level) := by
  rw [levels, if_pos several]

theorem levels_of_few (few : ¬ 1 < level.length) : levels combine level = [level] := by
  rw [levels, if_neg few]

theorem levels_ne_nil (combine : Node → Node → Node) (level : List Node) :
    levels combine level ≠ [] := by
  rw [levels]
  split <;> simp

theorem top_of_several (several : 1 < level.length) :
    top combine level = top combine (nextLevel combine level) := by
  rw [top, levels_of_several several, getLast?_cons_of_ne_nil (levels_ne_nil combine _), top]

theorem top_of_few (few : ¬ 1 < level.length) : top combine level = level.head? := by
  rw [top, levels_of_few few]
  rfl

theorem top_of_invariant (invariant : List Node → Prop) {start : List Node}
    (passes : ∀ level ∈ levels combine start, 1 < level.length → invariant level →
      invariant (nextLevel combine level))
    (initially : invariant start) {node : Node} (isTop : top combine start = some node) :
    invariant [node] := by
  induction start using levels.induct combine with
  | case1 level several ih =>
    rw [levels_of_several several] at passes
    rw [top_of_several several] at isTop
    refine ih ?_ ?_ isTop
    · intro later mem
      exact passes later (mem_cons_of_mem level mem)
    · exact passes level mem_cons_self several initially
  | case2 level few =>
    rw [top_of_few few] at isTop
    obtain ⟨rest, rfl⟩ := head?_eq_some_iff.mp isTop
    have single : rest = [] := by
      rw [← length_eq_zero_iff]
      simp only [length_cons] at few
      omega
    subst rest
    exact initially

theorem top_ne_none (nonempty : level ≠ []) : top combine level ≠ none := by
  induction level using levels.induct combine with
  | case1 level several ih =>
    rw [top_of_several several]
    apply ih
    rw [← length_pos_iff, length_nextLevel]
    omega
  | case2 level few =>
    rw [top_of_few few]
    simpa using nonempty

/-- The loop over the levels below the top: the sibling of the current node, or
the node itself where it has none. -/
def siblings : List (List Node) → Nat → List Node
  | [], _ => []
  | level :: above, index =>
    let siblingIndex := if index % 2 = 0 then index + 1 else index - 1
    (level[siblingIndex]?.or level[index]?).toList ++ siblings above (index / 2)

/-- Folding siblings over a node: it stands left when its index is even. -/
def climb (combine : Node → Node → Node) (running : Node) : Nat → List Node → Node
  | _, [] => running
  | index, sibling :: above =>
    climb combine (if index % 2 = 0 then combine running sibling else combine sibling running)
      (index / 2) above

theorem parent_of_sibling (combine : Node → Node → Node) {index : Nat} {node : Node}
    (found : level[index]? = some node) :
    ∃ sibling, level[if index % 2 = 0 then index + 1 else index - 1]?.or level[index]? =
      some sibling ∧ (nextLevel combine level)[index / 2]? =
        some (if index % 2 = 0 then combine node sibling else combine sibling node) := by
  induction level using pairs.induct generalizing index with
  | case1 => simp at found
  | case2 =>
    cases index with
    | zero => simp_all [nextLevel, pairs]
    | succ index => simp at found
  | case3 _ _ _ ih =>
    match index with
    | 0 | 1 => simp_all [nextLevel, pairs]
    | index + 2 =>
      obtain ⟨sibling, isSibling, combined⟩ := ih found
      have parity : (index + 2) % 2 = index % 2 := Nat.add_mod_right index 2
      have half : (index + 2) / 2 = index / 2 + 1 := Nat.add_div_right index (by decide)
      refine ⟨sibling, ?_, ?_⟩
      · rw [parity, ← isSibling]
        by_cases even : index % 2 = 0
        · simp [even]
        · obtain ⟨before, rfl⟩ : ∃ before, index = before + 1 := ⟨index - 1, by omega⟩
          simp [even]
      · rw [parity, half, ← combined]
        rfl

theorem climb_siblings {combine : Node → Node → Node} {index : Nat} {node : Node}
    (found : level[index]? = some node) :
    some (climb combine node index (siblings (levels combine level).dropLast index)) =
      top combine level := by
  induction level using levels.induct combine generalizing index node with
  | case1 level several ih =>
    obtain ⟨_, isSibling, combined⟩ := parent_of_sibling combine found
    rw [levels_of_several several, top_of_several several,
      dropLast_cons_of_ne_nil (levels_ne_nil combine _), ← ih combined]
    simp [siblings, isSibling, climb]
  | case2 level few =>
    rw [levels_of_few few, top_of_few few]
    have first : index = 0 := by
      have bound := (List.getElem?_eq_some_iff.mp found).1
      omega
    subst first
    rw [head?_eq_getElem?, found]
    rfl

section

variable {combine : Node → Node → Node} {combineOther : Other → Other → Other} {read : Node → Other}

theorem pairs_map (level : List Node) : pairs (level.map read) =
    (pairs level).map fun pair => (read pair.1, read pair.2) := by
  induction level using pairs.induct with
  | case1 | case2 => rfl
  | case3 _ _ _ ih => simp [pairs, ih]

variable (reads : ∀ left right, read (combine left right) = combineOther (read left) (read right))

include reads

theorem nextLevel_map (level : List Node) : nextLevel combineOther (level.map read) =
    (nextLevel combine level).map read := by
  simp [nextLevel, pairs_map, Function.comp_def, reads]

theorem levels_map (level : List Node) : levels combineOther (level.map read) =
    (levels combine level).map (List.map read) := by
  induction level using levels.induct combine with
  | case1 level several ih =>
    have alsoSeveral : 1 < (level.map read).length := by
      rw [length_map]
      exact several
    rw [levels_of_several several, levels_of_several alsoSeveral, nextLevel_map reads, ih, map_cons]
  | case2 level few =>
    have alsoFew : ¬ 1 < (level.map read).length := by
      rw [length_map]
      exact few
    rw [levels_of_few few, levels_of_few alsoFew, map_singleton]

theorem top_map (level : List Node) :
    top combineOther (level.map read) = (top combine level).map read := by
  rw [top, levels_map reads, getLast?_map, top]
  cases (levels combine level).getLast? with
  | none => rfl
  | some => simp

end

end

/-! ## Completions -/

section

variable {Value : Type*}

/-- The values the fold really sees: a level is joined in pairs, and an odd last block is
repeated. -/
def completed (values : List Value) : List Value :=
  (top (· ++ ·) (values.map fun value => [value])).getD []

theorem flatten_nextLevel (blocks : List (List Value)) :
    blocks.flatten <+: (nextLevel (· ++ ·) blocks).flatten ∧
      ∀ value ∈ (nextLevel (· ++ ·) blocks).flatten, value ∈ blocks.flatten := by
  induction blocks using pairs.induct with
  | case1 | case2 => simp [nextLevel, pairs]
  | case3 left right rest ih =>
    have joined : (nextLevel (· ++ ·) (left :: right :: rest)).flatten =
        (left ++ right) ++ (nextLevel (· ++ ·) rest).flatten := by
      simp [nextLevel, pairs]
    rw [joined, flatten_cons, flatten_cons, ← append_assoc]
    refine ⟨(prefix_append_right_inj _).mpr ih.1, fun value mem => ?_⟩
    exact mem_append.mpr ((mem_append.mp mem).imp_right (ih.2 value))

variable (values : List Value)

theorem completed_spec : values <+: completed values ∧
    ∀ value ∈ completed values, value ∈ values := by
  unfold completed
  cases isTop : top (· ++ ·) (values.map fun value => [value]) with
  | none =>
    have empty : values = [] := by
      by_contra nonempty
      refine top_ne_none ?_ isTop
      simpa using nonempty
    subst values
    simp
  | some =>
    have spec := top_of_invariant (fun blocks =>
      values <+: blocks.flatten ∧ ∀ value ∈ blocks.flatten, value ∈ values)
      (fun level _ _ before =>
        ⟨before.1.trans (flatten_nextLevel level).1,
          fun value mem => before.2 value ((flatten_nextLevel level).2 value mem)⟩)
      (by simp [← flatMap_def])
      isTop
    simpa using spec

theorem prefix_completed : values <+: completed values := (completed_spec values).1

theorem mem_of_mem_completed {values : List Value} {value : Value}
    (mem : value ∈ completed values) : value ∈ values :=
  (completed_spec values).2 value mem

variable {first second : List Value}

section

variable (same : completed first = completed second)
include same

theorem eq_of_completed_of_length (length : first.length = second.length) : first = second := by
  have isPart := prefix_completed first
  rw [same] at isPart
  exact (prefix_of_prefix_length_le isPart (prefix_completed second)
    (Nat.le_of_eq length)).eq_of_length length

theorem length_le_of_completed (distinct : second.Nodup) : second.length ≤ first.length := by
  apply (subperm_of_subset distinct _).length_le
  intro _ mem
  apply mem_of_mem_completed
  rw [same]
  exact (prefix_completed second).subset mem

theorem eq_of_completed_of_nodup
    (firstDistinct : first.Nodup) (secondDistinct : second.Nodup) : first = second := by
  apply eq_of_completed_of_length same
  exact Nat.le_antisymm (length_le_of_completed same.symm firstDistinct)
    (length_le_of_completed same secondDistinct)

end

end

/-! ## Trees -/

inductive Tree (Value : Type*) where
  | leaf (value : Value)
  | node (left right : Tree Value)

section

variable {Value : Type*}

namespace Tree

/-- The values at the leaves, from left to right. -/
def frontier : Tree Value → List Value
  | leaf value => [value]
  | node left right => left.frontier ++ right.frontier

inductive Perfect : Nat → Tree Value → Prop where
  | leaf (value : Value) : Perfect 0 (leaf value)
  | node {height : Nat} {left right : Tree Value} : Perfect height left → Perfect height right →
      Perfect (height + 1) (node left right)

theorem Perfect.length_frontier {height : Nat} {tree : Tree Value} (perfect : Perfect height tree) :
    tree.frontier.length = 2 ^ height := by
  induction perfect with
  | leaf => rfl
  | node _ _ leftLength rightLength =>
    rw [frontier, length_append, leftLength, rightLength, Nat.pow_succ]
    omega

theorem Perfect.eq_of_frontier {height : Nat} {first second : Tree Value}
    (firstPerfect : Perfect height first) (secondPerfect : Perfect height second)
    (same : first.frontier = second.frontier) : first = second := by
  induction firstPerfect generalizing second with
  | leaf =>
    cases secondPerfect with
    | leaf => rw [head_eq_of_cons_eq same]
  | node left _ leftHypothesis rightHypothesis =>
    cases secondPerfect with
    | node otherLeft otherRight =>
      have lengths := left.length_frontier.trans otherLeft.length_frontier.symm
      obtain ⟨sameLeft, sameRight⟩ := append_inj same lengths
      rw [leftHypothesis otherLeft sameLeft, rightHypothesis otherRight sameRight]

end Tree

def tree (values : List Value) : Option (Tree Value) := top Tree.node (values.map Tree.leaf)

theorem frontier_tree (values : List Value) : (tree values).map Tree.frontier =
    top (· ++ ·) (values.map fun value => [value]) := by
  have reads (left right : Tree Value) :
      (Tree.node left right).frontier = left.frontier ++ right.frontier :=
    rfl
  rw [tree, ← top_map reads, List.map_map]
  rfl

theorem tree_perfect {values : List Value} {built : Tree Value}
    (isTree : tree values = some built) : ∃ height, built.Perfect height := by
  have perfect := top_of_invariant (fun level => ∃ height, ∀ node ∈ level, Tree.Perfect height node)
    (fun level _ _ before => by
      obtain ⟨height, perfect⟩ := before
      refine ⟨height + 1, ?_⟩
      intro node mem
      obtain ⟨_, paired, rfl⟩ := mem_map.mp mem
      obtain ⟨left, right⟩ := mem_of_mem_pairs paired
      exact .node (perfect _ left) (perfect _ right))
    ⟨0, by
      intro node mem
      obtain ⟨value, _, rfl⟩ := mem_map.mp mem
      exact .leaf value⟩
    isTree
  simpa using perfect

theorem Tree.Perfect.frontier_ne_nil {height : Nat} {tree : Tree Value}
    (perfect : Tree.Perfect height tree) : tree.frontier ≠ [] := by
  rw [← length_pos_iff, perfect.length_frontier]
  exact Nat.two_pow_pos height

theorem tree_eq_iff {first second : List Value} :
    tree first = tree second ↔ completed first = completed second := by
  unfold completed
  rw [← frontier_tree, ← frontier_tree]
  constructor
  · intro same
    rw [same]
  · intro same
    cases firstTree : tree first with
    | none =>
      cases secondTree : tree second with
      | none => rfl
      | some built =>
        obtain ⟨height, perfect⟩ := tree_perfect secondTree
        rw [firstTree, secondTree] at same
        exact absurd same.symm perfect.frontier_ne_nil
    | some built =>
      obtain ⟨height, perfect⟩ := tree_perfect firstTree
      cases secondTree : tree second with
      | none =>
        rw [firstTree, secondTree] at same
        exact absurd same perfect.frontier_ne_nil
      | some other =>
        obtain ⟨otherHeight, otherPerfect⟩ := tree_perfect secondTree
        rw [firstTree, secondTree] at same
        have sameFrontier : built.frontier = other.frontier := same
        have sameHeight : height = otherHeight := by
          have lengths := congrArg length sameFrontier
          rw [perfect.length_frontier, otherPerfect.length_frontier] at lengths
          exact (Nat.pow_right_inj Nat.one_lt_two).mp lengths
        subst otherHeight
        rw [perfect.eq_of_frontier otherPerfect sameFrontier]

end

/-! ## Digests -/

/-- An encoding that is taken apart in one way only, no leaf being encoded as a node. -/
structure Coding (Value Digest Code : Type*) where
  leaf : Value → Code
  node : Digest → Digest → Code
  leaf_injective : Function.Injective leaf
  node_injective : ∀ {left right otherLeft otherRight},
    node left right = node otherLeft otherRight → left = otherLeft ∧ right = otherRight
  apart : ∀ value left right, leaf value ≠ node left right

namespace Coding

variable {Value Digest Code : Type*} (coding : Coding Value Digest Code) (digest : Code → Digest)

def combine (left right : Digest) : Digest := digest (coding.node left right)

def leaves (values : List Value) : List Digest := values.map fun value => digest (coding.leaf value)

def root (values : List Value) : Option Digest :=
  top (coding.combine digest) (coding.leaves digest values)

def hashed (values : List Value) : List Code :=
  values.map coding.leaf ++ (levels (coding.combine digest) (coding.leaves digest values)).flatMap
    fun level =>
      if 1 < level.length then (pairs level).map fun pair => coding.node pair.1 pair.2
      else []

def CollisionFree (codes : List Code) : Prop :=
  ∀ first ∈ codes, ∀ second ∈ codes, digest first = digest second → first = second

/-- Whether encodings collide can be computed. -/
instance decidableCollisionFree [DecidableEq Digest] [DecidableEq Code] (codes : List Code) :
    Decidable (CollisionFree digest codes) :=
  inferInstanceAs (Decidable (∀ first ∈ codes, ∀ second ∈ codes,
    digest first = digest second → first = second))

def treeDigest : Tree Value → Digest
  | .leaf value => digest (coding.leaf value)
  | .node left right => coding.combine digest (treeDigest left) (treeDigest right)

def Within (codes : List Code) : Tree Value → Prop
  | .leaf value => coding.leaf value ∈ codes
  | .node left right =>
    coding.node (coding.treeDigest digest left) (coding.treeDigest digest right) ∈ codes ∧
      Within codes left ∧ Within codes right

variable {coding digest}

theorem Within.mono {codes more : List Code} (subset : codes ⊆ more) {tree : Tree Value}
    (within : coding.Within digest codes tree) : coding.Within digest more tree := by
  induction tree with
  | leaf => exact subset within
  | node _ _ leftHypothesis rightHypothesis =>
    obtain ⟨here, inLeft, inRight⟩ := within
    exact ⟨subset here, leftHypothesis inLeft, rightHypothesis inRight⟩

theorem eq_of_treeDigest {codes : List Code} (collisionFree : CollisionFree digest codes)
    {first second : Tree Value} (firstWithin : coding.Within digest codes first)
    (secondWithin : coding.Within digest codes second)
    (same : coding.treeDigest digest first = coding.treeDigest digest second) : first = second := by
  induction first generalizing second with
  | leaf value =>
    cases second with
    | leaf =>
      have code := collisionFree _ firstWithin _ secondWithin same
      rw [coding.leaf_injective code]
    | node left right =>
      have code := collisionFree _ firstWithin _ secondWithin.1 same
      exact absurd code (coding.apart value _ _)
  | node left right leftHypothesis rightHypothesis =>
    cases second with
    | leaf value =>
      have code := collisionFree _ firstWithin.1 _ secondWithin same
      exact absurd code.symm (coding.apart value _ _)
    | node =>
      have code := collisionFree _ firstWithin.1 _ secondWithin.1 same
      obtain ⟨sameLeft, sameRight⟩ := coding.node_injective code
      rw [leftHypothesis firstWithin.2.1 secondWithin.2.1 sameLeft,
        rightHypothesis firstWithin.2.2 secondWithin.2.2 sameRight]

theorem treeDigest_node (left right : Tree Value) : coding.treeDigest digest (.node left right) =
    coding.combine digest (coding.treeDigest digest left) (coding.treeDigest digest right) :=
  rfl

theorem root_eq (values : List Value) : coding.root digest values =
    (tree values).map (coding.treeDigest digest) := by
  rw [root, leaves, tree, ← top_map treeDigest_node, List.map_map]
  rfl

@[simp] theorem root_nil : coding.root digest [] = none := by
  rw [root, leaves, map_nil, top_of_few (by simp)]
  rfl

variable {values : List Value}

theorem exists_code_of_root {onTop : Digest}
    (isRoot : coding.root digest values = some onTop) : ∃ code, onTop = digest code := by
  rw [root_eq, map_eq_some_iff] at isRoot
  obtain ⟨built, -, rfl⟩ := isRoot
  cases built with
  | leaf | node => exact ⟨_, rfl⟩

theorem within_hashed {built : Tree Value} (isTree : tree values = some built) :
    coding.Within digest (coding.hashed digest values) built := by
  have leafDigests : coding.leaves digest values =
      (values.map Tree.leaf).map (coding.treeDigest digest) := by
    rw [leaves, List.map_map]
    rfl
  have within := top_of_invariant (fun level => ∀ node ∈ level,
      coding.Within digest (coding.hashed digest values) node)
    (fun level isLevel several before => by
      intro node mem
      obtain ⟨_, paired, rfl⟩ := List.mem_map.mp mem
      obtain ⟨left, right⟩ := mem_of_mem_pairs paired
      refine ⟨?_, before _ left, before _ right⟩
      refine mem_append_right _ (mem_flatMap.mpr ⟨level.map (coding.treeDigest digest), ?_, ?_⟩)
      · rw [leafDigests, levels_map treeDigest_node]
        exact List.mem_map_of_mem isLevel
      · rw [length_map, if_pos several, pairs_map, List.map_map]
        exact List.mem_map_of_mem paired)
    (by
      intro node mem
      obtain ⟨_, isValue, rfl⟩ := List.mem_map.mp mem
      exact mem_append_left _ (List.mem_map_of_mem isValue))
    isTree
  simpa using within

theorem root_eq_iff {first second : List Value} (collisionFree : CollisionFree digest
    (coding.hashed digest first ++ coding.hashed digest second)) :
    coding.root digest first = coding.root digest second ↔ completed first = completed second := by
  rw [← tree_eq_iff, root_eq, root_eq]
  refine ⟨fun same => ?_, fun same => by rw [same]⟩
  cases firstTree : tree first with
  | none =>
    rw [firstTree, map_none, eq_comm, map_eq_none_iff] at same
    exact same.symm
  | some built =>
    rw [firstTree, map_some, eq_comm, map_eq_some_iff] at same
    obtain ⟨other, secondTree, sameDigest⟩ := same
    have firstWithin : coding.Within digest
        (coding.hashed digest first ++ coding.hashed digest second) built :=
      (within_hashed firstTree).mono (subset_append_left _ _)
    have secondWithin : coding.Within digest
        (coding.hashed digest first ++ coding.hashed digest second) other :=
      (within_hashed secondTree).mono (subset_append_right _ _)
    rw [secondTree, eq_of_treeDigest collisionFree firstWithin secondWithin sameDigest.symm]

end Coding

end Arclain.HashTree
