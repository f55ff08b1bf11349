import Mathlib.Data.List.Infix

namespace Arclain

/-!
# Directory trees

What stands at every path of a disk; whatever stands stands below something that stands.
Directories are made along a path, and a subtree is put in the place of another.
-/

open List

structure DirectoryTree (Name Node : Type*) where
  node : List Name → Option Node
  closed : ∀ path name, node (path ++ [name]) ≠ none → node path ≠ none

namespace DirectoryTree

variable {Name Node : Type*}

theorem present_above (tree : DirectoryTree Name Node) {path above : List Name}
    (leads : above <+: path) (stands : tree.node path ≠ none) : tree.node above ≠ none := by
  obtain ⟨rest, rfl⟩ := leads
  induction rest using List.reverseRecOn with
  | nil => rwa [append_nil] at stands
  | append_singleton _ _ ih =>
    rw [← append_assoc] at stands
    exact ih (tree.closed _ _ stands)

theorem vacant_below (tree : DirectoryTree Name Node) {path above : List Name}
    (leads : above <+: path) (vacant : tree.node above = none) : tree.node path = none := by
  by_contra stands
  exact tree.present_above leads stands vacant

def empty : DirectoryTree Name Node where
  node _ := none
  closed _ _ stands := stands

def single (node : Node) : DirectoryTree Name Node where
  node path := if path = [] then some node else none
  closed path name stands := by simp at stands

def subtree (tree : DirectoryTree Name Node) (place : List Name) : DirectoryTree Name Node where
  node rest := tree.node (place ++ rest)
  closed rest name stands := by
    rw [← append_assoc] at stands
    exact tree.closed _ _ stands

variable [DecidableEq Name]

/-- Two trees that stand under different names of one directory, if any. -/
def beneath (directory : Node) (children : List (Name × DirectoryTree Name Node)) :
    DirectoryTree Name Node where
  node
    | [] => some directory
    | name :: rest =>
      ((children.find? fun child => child.1 = name).map Prod.snd).bind fun child => child.node rest
  closed path name stands := by
    cases path with
    | nil => simp
    | cons first rest =>
      simp only [cons_append] at stands ⊢
      cases found : (children.find? fun child => child.1 = first).map Prod.snd with
      | none =>
        rw [found] at stands
        exact absurd rfl stands
      | some child =>
        rw [found] at stands
        exact child.closed rest name stands

def createDirAll (directory : Node) (tree : DirectoryTree Name Node)
    (path : List Name) : DirectoryTree Name Node where
  node other :=
    if other <+: path then some ((tree.node other).getD directory)
    else tree.node other
  closed other name stands := by
    by_cases leads : other <+: path
    · simp [leads]
    · have further : ¬ other ++ [name] <+: path := fun longer =>
        leads ((prefix_append other [name]).trans longer)
      rw [if_neg further] at stands
      rw [if_neg leads]
      exact tree.closed other name stands

def hangs (tree : DirectoryTree Name Node) (place : List Name) : Bool :=
  place = [] || (tree.node place.dropLast).isSome

/-- Put a tree in the place of what stands there, where the place hangs below
something that stands. -/
def graft (tree : DirectoryTree Name Node) (place : List Name)
    (grafted : DirectoryTree Name Node) : DirectoryTree Name Node where
  node path :=
    if place <+: path ∧ tree.hangs place then grafted.node (path.drop place.length)
    else tree.node path
  closed path name stands := by
    by_cases hung : tree.hangs place = true
    · simp only [hung, and_true] at stands ⊢
      by_cases leads : place <+: path
      · have further : place <+: path ++ [name] := leads.trans (prefix_append path [name])
        rw [if_pos further, drop_append_of_le_length leads.length_le] at stands
        rw [if_pos leads]
        exact grafted.closed _ name stands
      · rw [if_neg leads]
        by_cases further : place <+: path ++ [name]
        · rcases prefix_concat_iff.mp further with rfl | earlier
          · simpa [hangs, Option.isSome_iff_ne_none] using hung
          · exact absurd earlier leads
        · rw [if_neg further] at stands
          exact tree.closed path name stands
    · rw [if_neg (fun both => hung both.2)] at stands ⊢
      exact tree.closed path name stands

variable {tree : DirectoryTree Name Node}

theorem node_createDirAll_of_some {directory node : Node} {path other : List Name}
    (stood : tree.node other = some node) :
    (tree.createDirAll directory path).node other = some node := by
  simp [createDirAll, stood]

theorem hangs_createDirAll (directory : Node) (tree : DirectoryTree Name Node) (path : List Name)
    (name : Name) : (tree.createDirAll directory path).hangs (path ++ [name]) = true := by
  simp [hangs, createDirAll]

variable {grafted : DirectoryTree Name Node} {place path : List Name}

theorem node_graft_outside (outside : ¬ place <+: path) :
    (tree.graft place grafted).node path = tree.node path := by
  simp [graft, outside]

theorem node_graft_append (hung : tree.hangs place = true) (rest : List Name) :
    (tree.graft place grafted).node (place ++ rest) = grafted.node rest := by
  simp [graft, hung]

theorem node_graft_of_vacant {node : Node} (vacant : tree.node place = none)
    (stood : tree.node path = some node) : (tree.graft place grafted).node path = some node := by
  rw [node_graft_outside, stood]
  intro leads
  rw [tree.vacant_below leads vacant] at stood
  cases stood

theorem graft_subtree (tree : DirectoryTree Name Node) (place path : List Name) :
    (tree.graft place (tree.subtree place)).node path = tree.node path := by
  by_cases leads : place <+: path
  · obtain ⟨_, rfl⟩ := leads
    by_cases hung : tree.hangs place = true
    · rw [node_graft_append hung]
      rfl
    · simp [graft, hung]
  · exact node_graft_outside leads

end DirectoryTree

end Arclain
