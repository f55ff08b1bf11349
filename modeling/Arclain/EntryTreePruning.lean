import Arclain.EntryTree
import Mathlib.Data.List.Pairwise
import Mathlib.Data.List.Perm.Basic

namespace Arclain

/-!
# What pruning a listing keeps

Inserting an entry changes the one path it leads to, pruning removes the paths that pass an
empty file, and flattening lists the files in the order of their paths.
-/

open List Text TreeChildren Prod

def ArchiveEntry.components (entry : ArchiveEntry) : List Str :=
  ((forwardSlashes entry.path).splitOn '/').filter fun part => part ≠ []

namespace TreeChildren

def toList : TreeChildren → List (Str × TreeNode)
  | .nil => []
  | .cons name child rest => (name, child) :: rest.toList

def names (children : TreeChildren) : List Str := children.toList.map fst

def child (name : Str) : TreeChildren → Option TreeNode
  | .nil => none
  | .cons known node rest => if known = name then some node else rest.child name

theorem names_cons (name : Str) (node : TreeNode) (rest : TreeChildren) :
    (cons name node rest).names = name :: rest.names :=
  rfl

variable {node : TreeNode}

theorem mem_of_child {name : Str} : ∀ {children : TreeChildren},
    children.child name = some node → (name, node) ∈ children.toList
  | .nil, found => by cases found
  | .cons known other rest, found => by
    rw [child] at found
    split at found
    next same =>
      rw [← same, ← Option.some.inj found]
      exact mem_cons_self
    · exact mem_cons_of_mem _ (mem_of_child found)

theorem child_of_mem {name : Str} :
    ∀ {children : TreeChildren}, children.names.Nodup → (name, node) ∈ children.toList →
      children.child name = some node
  | .nil, _, mem => by cases mem
  | .cons known other rest, distinct, mem => by
    obtain ⟨fresh, distinctRest⟩ := nodup_cons.mp distinct
    rcases mem_cons.mp mem with same | later
    · obtain ⟨rfl, rfl⟩ := mk.inj same
      rw [child, if_pos rfl]
    · have other : known ≠ name := by
        rintro rfl
        exact fresh (List.mem_map.mpr ⟨_, later, rfl⟩)
      rw [child, if_neg other]
      exact child_of_mem distinctRest later

theorem child_modify (name : Str) (change : TreeNode → TreeNode) (other : Str) :
    ∀ children : TreeChildren, (children.modify name change).child other =
      if other = name then some (change ((children.child name).getD (TreeNode.new true)))
      else children.child other
  | .nil => by simp [modify, child, eq_comm]
  | .cons known node rest => by
    rw [modify]
    by_cases isKnown : known = name
    · subst isKnown
      rw [if_pos rfl, child, child, child, if_pos rfl, Option.getD_some]
      simp only [eq_comm]
      split <;> rfl
    · rw [if_neg isKnown, child, child, child, if_neg isKnown, child_modify name change other rest]
      by_cases isOther : other = name
      · subst isOther
        rw [if_neg isKnown, if_pos rfl, if_pos rfl]
      · rw [if_neg isOther, if_neg isOther]

theorem names_modify (name : Str) (change : TreeNode → TreeNode) :
    ∀ children : TreeChildren, (children.modify name change).names =
      if name ∈ children.names then children.names
      else children.names ++ [name]
  | .nil => rfl
  | .cons known node rest => by
    rw [modify]
    by_cases isKnown : known = name
    · subst isKnown
      rw [if_pos rfl]
      simp [names_cons]
    · have notKnown : ¬ name = known := Ne.symm isKnown
      rw [if_neg isKnown, names_cons, names_cons, names_modify name change rest]
      simp only [mem_cons, notKnown, false_or]
      split <;> rfl

theorem toList_prune : ∀ children : TreeChildren, children.prune.toList =
    (children.toList.filter fun named => named.2.prune.2).map
      fun named => (named.1, named.2.prune.1)
  | .nil => by simp [prune, toList]
  | .cons name node rest => by
    rw [prune, toList, filter_cons]
    split
    · rw [toList, map_cons, toList_prune rest]
    · exact toList_prune rest

theorem flatten_eq : ∀ children : TreeChildren, children.flatten =
    children.toList.map fun named => (named.1, named.2.flatten)
  | .nil => by simp [flatten, toList]
  | .cons name node rest => by rw [flatten, toList, map_cons, flatten_eq rest]

theorem isEmpty_iff {children : TreeChildren} : children.isEmpty = true ↔ children.toList = [] := by
  cases children with
  | nil | cons => simp [isEmpty, toList]

end TreeChildren

namespace TreeNode

def entryAt : List Str → TreeNode → Option ArchiveEntry
  | [], .node entry _ _ => entry
  | name :: rest, .node _ children _ => (children.child name).bind (entryAt rest)

/-- Entries are at their paths, nodes are files if their entries are, and children have
distinct names. -/
inductive WellFormed : List Str → TreeNode → Prop
  | node (path : List Str) (entry : Option ArchiveEntry) (children : TreeChildren) (isDir : Bool)
      (located : ∀ file, entry = some file → file.components = path)
      (flagged : isDir = (entry.map ArchiveEntry.isDir).getD true)
      (distinct : children.names.Nodup)
      (below : ∀ name child, (name, child) ∈ children.toList → WellFormed (path ++ [name]) child) :
      WellFormed path (.node entry children isDir)

theorem wellFormed_new (path : List Str) : WellFormed path (new true) := by
  refine .node path none .nil true ?_ rfl nodup_nil ?_
  · intro _ owned
    cases owned
  · intro _ _ mem
    cases mem

variable {path rest : List Str} {entry : ArchiveEntry} {tree : TreeNode}

theorem WellFormed.insertRecursive (wellFormed : WellFormed path tree)
    (leads : entry.components = path ++ rest) :
    WellFormed path (insertRecursive rest entry tree) := by
  induction rest generalizing path tree with
  | nil =>
    obtain ⟨_, own, children, isDir, located, flagged, distinct, below⟩ := wellFormed
    refine .node path (some entry) children entry.isDir ?_ rfl distinct below
    rintro file ⟨⟩
    rw [leads, append_nil]
  | cons name rest ih =>
    obtain ⟨_, own, children, isDir, located, flagged, distinct, below⟩ := wellFormed
    have distinctModified : (children.modify name fun child =>
      TreeNode.insertRecursive rest entry child).names.Nodup := by
      rw [names_modify]
      split
      · exact distinct
      next fresh =>
        refine nodup_append.mpr ⟨distinct, nodup_singleton name, ?_⟩
        intro known mem other isName
        rw [mem_singleton.mp isName]
        rintro rfl
        exact fresh mem
    refine .node path own _ isDir located flagged distinctModified ?_
    intro other child mem
    have found := child_of_mem distinctModified mem
    rw [child_modify] at found
    split at found
    next same =>
      subst same
      rw [← Option.some.inj found]
      refine ih ?_ (by rw [leads, append_assoc]; rfl)
      cases known : children.child other with
      | none => exact wellFormed_new _
      | some node => exact below other node (mem_of_child known)
    · exact below other child (mem_of_child found)

theorem entryAt_insertRecursive (rest : List Str) (entry : ArchiveEntry) (tree : TreeNode)
    (path : List Str) : entryAt path (insertRecursive rest entry tree) =
      if path = rest then some entry else entryAt path tree := by
  induction rest generalizing tree path with
  | nil =>
    obtain ⟨own, children, isDir⟩ := tree
    cases path with
    | nil | cons name path => simp [insertRecursive, entryAt]
  | cons name rest ih =>
    obtain ⟨own, children, isDir⟩ := tree
    cases path with
    | nil => simp [insertRecursive, entryAt]
    | cons other path =>
      rw [insertRecursive, entryAt, child_modify]
      by_cases same : other = name
      · subst same
        rw [if_pos rfl, Option.bind_some, ih, entryAt]
        simp only [List.cons.injEq, true_and]
        cases children.child other with
        | some => rfl
        | none =>
          have empty : entryAt path (new true) = none := by cases path <;> rfl
          rw [Option.getD_none, empty]
          rfl
      · rw [if_neg same, entryAt]
        simp [same]

def IsEmptyFile (entry : ArchiveEntry) : Prop := entry.isDir = false ∧ entry.size = 0

/-- Whether a path passes an empty file below the root. -/
def Blocked (tree : TreeNode) (path : List Str) : Prop :=
  ∃ above, above ≠ [] ∧ above <+: path ∧ ∃ file, entryAt above tree = some file ∧ IsEmptyFile file

variable {children : TreeChildren}

theorem blocked_cons_iff {entry : Option ArchiveEntry} {isDir : Bool} {name : Str}
    {child : TreeNode} (found : children.child name = some child) :
    Blocked (.node entry children isDir) (name :: rest) ↔
      (∃ file, entryAt [] child = some file ∧ IsEmptyFile file) ∨ Blocked child rest := by
  have atChild (below : List Str) : entryAt (name :: below) (.node entry children isDir) =
      entryAt below child := by
    rw [entryAt, found, Option.bind_some]
  constructor
  · rintro ⟨above, nonempty, leads, file, stored, isEmptyFile⟩
    obtain ⟨_, below, rfl⟩ := exists_cons_of_ne_nil nonempty
    obtain ⟨rfl, leadsBelow⟩ := cons_prefix_cons.mp leads
    rw [atChild] at stored
    cases below with
    | nil => exact .inl ⟨file, stored, isEmptyFile⟩
    | cons next below =>
      exact .inr ⟨next :: below, cons_ne_nil _ _, leadsBelow, file, stored, isEmptyFile⟩
  · rintro (⟨file, stored, isEmptyFile⟩ | ⟨above, -, leads, file, stored, isEmptyFile⟩)
    · refine ⟨[name], cons_ne_nil _ _, ⟨rest, rfl⟩, file, ?_, isEmptyFile⟩
      rw [atChild, stored]
    · refine ⟨name :: above, cons_ne_nil _ _,
        cons_prefix_cons.mpr ⟨rfl, leads⟩, file, ?_, isEmptyFile⟩
      rw [atChild, stored]

theorem child_prune (distinct : children.names.Nodup) (name : Str) : children.prune.child name =
    ((children.child name).filter fun child => child.prune.2).map fun child => child.prune.1 := by
  have distinctPruned : children.prune.names.Nodup := by
    rw [names, toList_prune, List.map_map]
    exact distinct.sublist (filter_sublist.map fst)
  refine Option.ext fun pruned => ?_
  constructor
  · intro found
    have mem := mem_of_child found
    rw [toList_prune] at mem
    obtain ⟨⟨known, child⟩, kept, same⟩ := List.mem_map.mp mem
    obtain ⟨rfl, rfl⟩ := mk.inj same
    obtain ⟨listed, isKept⟩ := mem_filter.mp kept
    rw [child_of_mem distinct listed, Option.filter_some, if_pos isKept,
      Option.map_some]
  · intro found
    obtain ⟨child, kept, rfl⟩ := Option.map_eq_some_iff.mp found
    obtain ⟨known, isKept⟩ := Option.filter_eq_some_iff.mp kept
    refine child_of_mem distinctPruned ?_
    rw [toList_prune]
    exact List.mem_map.mpr ⟨(name, child),
      mem_filter.mpr ⟨mem_of_child known, isKept⟩, rfl⟩

theorem WellFormed.prune (wellFormed : WellFormed path tree) : WellFormed path tree.prune.1 := by
  induction wellFormed with
  | node path entry _ isDir located flagged distinct _ ih =>
    rw [TreeNode.prune]
    refine .node path entry _ isDir located flagged ?_ ?_
    · rw [names, toList_prune, List.map_map]
      exact distinct.sublist (filter_sublist.map fst)
    · intro _ _ mem
      rw [toList_prune] at mem
      obtain ⟨⟨known, node⟩, kept, same⟩ := List.mem_map.mp mem
      obtain ⟨rfl, rfl⟩ := mk.inj same
      exact ih known node (mem_filter.mp kept).1

theorem not_isEmptyFile_of_kept {file : ArchiveEntry} (wellFormed : WellFormed path tree)
    (kept : tree.prune.2 = true) (stored : entryAt [] tree = some file) : ¬ IsEmptyFile file := by
  rintro ⟨isFile, isEmpty⟩
  obtain ⟨_, _, _, _, _, flagged, _, _⟩ := wellFormed
  rw [entryAt] at stored
  subst stored
  rw [Option.map_some, Option.getD_some, isFile] at flagged
  simp [TreeNode.prune, isKept, flagged, isEmpty] at kept

variable {start : List Str}

theorem entryAt_of_prune (wellFormed : WellFormed start tree)
    (stored : entryAt path tree.prune.1 = some entry) :
    entryAt path tree = some entry ∧ ¬ Blocked tree path := by
  induction path generalizing start tree with
  | nil =>
    obtain ⟨own, children, isDir⟩ := tree
    refine ⟨stored, ?_⟩
    rintro ⟨_, nonempty, leads, -⟩
    exact nonempty (prefix_nil.mp leads)
  | cons name _ ih =>
    obtain ⟨_, own, children, isDir, _, _, distinct, below⟩ := wellFormed
    rw [TreeNode.prune, entryAt, child_prune distinct] at stored
    obtain ⟨_, found, storedBelow⟩ := Option.bind_eq_some_iff.mp stored
    obtain ⟨child, kept, rfl⟩ := Option.map_eq_some_iff.mp found
    obtain ⟨known, isKept⟩ := Option.filter_eq_some_iff.mp kept
    have childWellFormed := below name child (mem_of_child known)
    obtain ⟨storedChild, free⟩ := ih childWellFormed storedBelow
    constructor
    · rw [entryAt, known, Option.bind_some, storedChild]
    · rw [blocked_cons_iff known]
      rintro (⟨_, atChild, isEmptyFile⟩ | blocked)
      · exact not_isEmptyFile_of_kept childWellFormed isKept atChild isEmptyFile
      · exact free blocked

theorem entryAt_prune (wellFormed : WellFormed start tree) (stored : entryAt path tree = some entry)
    (isFile : entry.isDir = false) (free : ¬ Blocked tree path) :
    entryAt path tree.prune.1 = some entry ∧
      ((∀ file, entryAt [] tree = some file → ¬ IsEmptyFile file) → tree.prune.2 = true) := by
  induction path generalizing start tree with
  | nil =>
    obtain ⟨_, own, children, isDir, located, flagged, distinct, below⟩ := wellFormed
    refine ⟨stored, fun notEmpty => ?_⟩
    have sized : entry.size ≠ 0 := fun isEmpty => notEmpty entry stored ⟨isFile, isEmpty⟩
    rw [entryAt] at stored
    subst stored
    rw [Option.map_some, Option.getD_some, isFile] at flagged
    simp [TreeNode.prune, isKept, flagged, sized]
  | cons name _ ih =>
    obtain ⟨_, own, children, isDir, located, flagged, distinct, below⟩ := wellFormed
    rw [entryAt] at stored
    obtain ⟨child, known, storedChild⟩ := Option.bind_eq_some_iff.mp stored
    rw [blocked_cons_iff known, not_or] at free
    have childWellFormed := below name child (mem_of_child known)
    obtain ⟨storedBelow, keeps⟩ := ih childWellFormed storedChild free.2
    have isKept : child.prune.2 = true :=
      keeps fun file atChild isEmptyFile => free.1 ⟨file, atChild, isEmptyFile⟩
    have found : children.prune.child name = some child.prune.1 := by
      rw [child_prune distinct, known, Option.filter_some, if_pos isKept, Option.map_some]
    constructor
    · rw [TreeNode.prune, entryAt, found, Option.bind_some, storedBelow]
    · intro notEmpty
      have nonempty : children.prune.isEmpty = false := by
        rw [Bool.eq_false_iff, ne_eq, TreeChildren.isEmpty_iff]
        intro noChildren
        have mem := mem_of_child found
        rw [noChildren] at mem
        cases mem
      rw [TreeNode.prune]
      cases own with
      | none =>
        rw [Option.map_none, Option.getD_none] at flagged
        simp [TreeNode.isKept, flagged, nonempty]
      | some file =>
        have kept := notEmpty file rfl
        rw [Option.map_some, Option.getD_some] at flagged
        simp only [IsEmptyFile, not_and] at kept
        cases isDirectory : file.isDir with
        | true => simp [TreeNode.isKept, flagged, isDirectory, nonempty]
        | false => simp [TreeNode.isKept, flagged, isDirectory, kept isDirectory]

def sortedChildren (children : TreeChildren) : List (Str × List ArchiveEntry) :=
  children.flatten.insertionSort fun first second => first.1 ≤ second.1

theorem mem_sortedChildren {named : Str × List ArchiveEntry} : named ∈ sortedChildren children ↔
    ∃ child, (named.1, child) ∈ children.toList ∧ named.2 = child.flatten := by
  rw [sortedChildren, mem_insertionSort, flatten_eq]
  constructor
  · intro mem
    obtain ⟨⟨_, child⟩, listed, rfl⟩ := List.mem_map.mp mem
    exact ⟨child, listed, rfl⟩
  · rintro ⟨child, listed, files⟩
    refine List.mem_map.mpr ⟨(named.1, child), listed, ?_⟩
    rw [← files]

theorem mem_flatten_iff (wellFormed : WellFormed start tree) : entry ∈ tree.flatten ↔
    entry.isDir = false ∧ ∃ path, entryAt path tree = some entry := by
  induction wellFormed with
  | node path _ _ _ _ _ distinct _ ih =>
    rw [TreeNode.flatten, mem_append, mem_filter, mem_flatMap]
    constructor
    · rintro (⟨isOwn, isFile⟩ | ⟨named, mem, listed⟩)
      · exact ⟨by simpa using isFile, [], Option.mem_toList.mp isOwn⟩
      · obtain ⟨child, known, files⟩ := mem_sortedChildren.mp mem
        rw [files, ih _ child known] at listed
        obtain ⟨isFile, rest, stored⟩ := listed
        refine ⟨isFile, named.1 :: rest, ?_⟩
        rw [entryAt, child_of_mem distinct known, Option.bind_some, stored]
    · rintro ⟨isFile, path, stored⟩
      cases path with
      | nil => exact .inl ⟨Option.mem_toList.mpr stored, by simp [isFile]⟩
      | cons name rest =>
        rw [entryAt] at stored
        obtain ⟨child, known, storedChild⟩ := Option.bind_eq_some_iff.mp stored
        have listed := mem_of_child known
        refine .inr ⟨(name, child.flatten), mem_sortedChildren.mpr ⟨child, listed, rfl⟩, ?_⟩
        exact (ih name child listed).mpr ⟨isFile, rest, storedChild⟩

theorem WellFormed.components_eq (wellFormed : WellFormed start tree)
    (stored : entryAt path tree = some entry) : entry.components = start ++ path := by
  induction path generalizing start tree with
  | nil =>
    obtain ⟨_, own, children, isDir, located, flagged, distinct, below⟩ := wellFormed
    rw [located entry stored, append_nil]
  | cons name _ ih =>
    obtain ⟨_, own, children, isDir, located, flagged, distinct, below⟩ := wellFormed
    rw [entryAt] at stored
    obtain ⟨child, known, storedChild⟩ := Option.bind_eq_some_iff.mp stored
    have listed := mem_of_child known
    rw [ih (below name child listed) storedChild, append_assoc]
    rfl

theorem components_of_mem_flatten (wellFormed : WellFormed start tree)
    (mem : entry ∈ tree.flatten) : ∃ rest, entry.components = start ++ rest := by
  obtain ⟨-, path, stored⟩ := (mem_flatten_iff wellFormed).mp mem
  exact ⟨path, wellFormed.components_eq stored⟩

theorem pairwise_sortedChildren (distinct : children.names.Nodup) :
    (sortedChildren children).Pairwise fun first second =>
      first.1 < second.1 := by
  have total : Std.Total fun first second : Str × List ArchiveEntry =>
    first.1 ≤ second.1 :=
    ⟨fun first second => le_total first.1 second.1⟩
  have transitive : IsTrans (Str × List ArchiveEntry) fun first second =>
    first.1 ≤ second.1 :=
    ⟨fun _ _ _ => le_trans⟩
  have increasing :=
    pairwise_insertionSort (fun first second : Str × List ArchiveEntry => first.1 ≤ second.1)
      children.flatten
  have different : (sortedChildren children).Pairwise fun first second =>
    first.1 ≠ second.1 := by
    have names : (children.flatten.map fst).Nodup := by
      rw [flatten_eq, List.map_map]
      exact distinct
    exact pairwise_map.mp (((perm_insertionSort _ _).map fst).nodup_iff.mpr names)
  exact (increasing.and different).imp fun order => lt_of_le_of_ne order.1 order.2

theorem append_cons_lt {start first second : List Str} {name other : Str} (order : name < other) :
    start ++ name :: first < start ++ other :: second := by
  refine (lt_iff_lex_lt _ _).mpr ?_
  exact List.Lex.append_left _ (List.Lex.rel order) start

theorem lt_append_cons {name : Str} : start < start ++ name :: rest := by
  have order : List.Lex (· < ·) (start ++ []) (start ++ name :: rest) :=
    List.Lex.append_left _ List.Lex.nil start
  rw [append_nil] at order
  exact (lt_iff_lex_lt _ _).mpr order

theorem pairwise_flatten (wellFormed : WellFormed start tree) :
    tree.flatten.Pairwise fun first second =>
      first.components < second.components := by
  induction wellFormed with
  | node path own children _ located _ distinct below ih =>
    have belowPath {named : Str × List ArchiveEntry} {file : ArchiveEntry}
        (mem : named ∈ sortedChildren children)
        (listed : file ∈ named.2) :
        ∃ rest, file.components = path ++ named.1 :: rest := by
      obtain ⟨child, known, files⟩ := mem_sortedChildren.mp mem
      rw [files] at listed
      obtain ⟨rest, same⟩ := components_of_mem_flatten (below named.1 child known) listed
      exact ⟨rest, by rw [same, append_assoc]; rfl⟩
    rw [TreeNode.flatten, pairwise_append]
    refine ⟨?_, ?_, ?_⟩
    · refine List.Pairwise.filter _ ?_
      cases own with
      | none => exact .nil
      | some file => exact pairwise_singleton _ _
    · refine pairwise_flatMap.mpr ⟨?_, ?_⟩
      · intro named mem
        obtain ⟨child, known, files⟩ := mem_sortedChildren.mp mem
        rw [files]
        exact ih named.1 child known
      · refine List.Pairwise.imp_of_mem ?_ (pairwise_sortedChildren distinct)
        intro named other mem otherMember order file listed _ otherListed
        obtain ⟨rest, same⟩ := belowPath mem listed
        obtain ⟨_, otherSame⟩ := belowPath otherMember otherListed
        rw [same, otherSame]
        exact append_cons_lt order
    · intro file isOwn other mem
      obtain ⟨named, listed, isBelow⟩ := mem_flatMap.mp mem
      obtain ⟨rest, same⟩ := belowPath listed isBelow
      rw [located file (Option.mem_toList.mp (mem_filter.mp isOwn).1), same]
      exact lt_append_cons

end TreeNode

open TreeNode

theorem wellFormed_foldl (entries : List ArchiveEntry) {tree : TreeNode}
    (wellFormed : WellFormed [] tree) : WellFormed [] (entries.foldl TreeNode.insert tree) := by
  induction entries generalizing tree with
  | nil => exact wellFormed
  | cons entry entries ih =>
    exact ih (wellFormed.insertRecursive (nil_append entry.components).symm)

variable {entries : List ArchiveEntry} {entry : ArchiveEntry}

theorem entryAt_foldl {tree : TreeNode} {path : List Str}
    (distinct : entries.Pairwise fun first second => first.components ≠ second.components)
    (fresh : ∀ other ∈ entries, entryAt other.components tree = none) :
    entryAt path (entries.foldl TreeNode.insert tree) = some entry ↔
      (entry ∈ entries ∧ entry.components = path) ∨ entryAt path tree = some entry := by
  induction entries generalizing tree with
  | nil => simp
  | cons first entries ih =>
    obtain ⟨apart, distinctRest⟩ := pairwise_cons.mp distinct
    have inserted (path : List Str) : entryAt path (TreeNode.insert tree first) =
        if path = first.components then some first
        else entryAt path tree :=
      entryAt_insertRecursive first.components first tree path
    have freshRest : ∀ other ∈ entries,
        entryAt other.components (TreeNode.insert tree first) = none := by
      intro other mem
      rw [inserted, if_neg (apart other mem).symm]
      exact fresh other (mem_cons_of_mem first mem)
    rw [foldl_cons, ih distinctRest freshRest, inserted]
    by_cases atFirst : path = first.components
    · rw [if_pos atFirst, atFirst, fresh first mem_cons_self]
      constructor
      · rintro (⟨mem, same⟩ | isFirst)
        · exact absurd same.symm (apart entry mem)
        · rw [← Option.some.inj isFirst]
          exact .inl ⟨mem_cons_self, rfl⟩
      · rintro (⟨mem, same⟩ | impossible)
        · rcases mem_cons.mp mem with rfl | later
          · exact .inr rfl
          · exact absurd same.symm (apart entry later)
        · cases impossible
    · rw [if_neg atFirst]
      constructor
      · rintro (⟨mem, same⟩ | stored)
        · exact .inl ⟨mem_cons_of_mem first mem, same⟩
        · exact .inr stored
      · rintro (⟨mem, same⟩ | stored)
        · rcases mem_cons.mp mem with rfl | later
          · exact absurd same.symm atFirst
          · exact .inl ⟨later, same⟩
        · exact .inr stored

/-- Whether a listing keeps an entry: a file on a path past no empty file. -/
def survives (entries : List ArchiveEntry) (entry : ArchiveEntry) : Bool :=
  !entry.isDir && entries.all fun file =>
    file.isDir || file.size ≠ 0 || file.components = [] ||
      !file.components.isPrefixOf entry.components

theorem survives_iff : survives entries entry = true ↔ entry.isDir = false ∧
      ∀ file ∈ entries, IsEmptyFile file → file.components ≠ [] →
        ¬ file.components <+: entry.components := by
  simp only [survives, Bool.and_eq_true, Bool.not_eq_true', List.all_eq_true,
    Bool.or_eq_true, decide_eq_true_eq, Bool.eq_false_iff,
    isPrefixOf_iff_prefix, ne_eq, IsEmptyFile, and_imp, or_assoc]
  refine and_congr_right fun _ => forall₂_congr fun file _ => ?_
  tauto

section

variable {entries : List ArchiveEntry} (distinct : entries.Pairwise fun first second =>
  first.components ≠ second.components)

include distinct

theorem mem_pruneEntries_iff {entry : ArchiveEntry} : entry ∈ pruneEntries entries ↔
    entry ∈ entries ∧ survives entries entry = true := by
  have wellFormed := wellFormed_foldl entries (wellFormed_new [])
  have stored {path : List Str} {file : ArchiveEntry} :
      entryAt path (entries.foldl TreeNode.insert (TreeNode.new true)) = some file ↔
        file ∈ entries ∧ file.components = path := by
    have empty (path : List Str) : entryAt path (TreeNode.new true) = none := by cases path <;> rfl
    rw [entryAt_foldl distinct fun other _ => empty other.components, empty path]
    simp
  have blocked {path : List Str} :
      Blocked (entries.foldl TreeNode.insert (TreeNode.new true)) path ↔
        ∃ file ∈ entries, IsEmptyFile file ∧ file.components ≠ [] ∧ file.components <+: path := by
    constructor
    · rintro ⟨_, nonempty, leads, file, atAbove, isEmptyFile⟩
      obtain ⟨mem, rfl⟩ := stored.mp atAbove
      exact ⟨file, mem, isEmptyFile, nonempty, leads⟩
    · rintro ⟨file, mem, isEmptyFile, nonempty, leads⟩
      exact ⟨file.components, nonempty, leads, file, stored.mpr ⟨mem, rfl⟩, isEmptyFile⟩
  rw [pruneEntries, mem_flatten_iff wellFormed.prune, survives_iff]
  constructor
  · rintro ⟨isFile, path, kept⟩
    obtain ⟨atPath, free⟩ := entryAt_of_prune wellFormed kept
    obtain ⟨mem, rfl⟩ := stored.mp atPath
    refine ⟨mem, isFile, ?_⟩
    intro file listed isEmptyFile nonempty leads
    exact free (blocked.mpr ⟨file, listed, isEmptyFile, nonempty, leads⟩)
  · rintro ⟨mem, isFile, free⟩
    refine ⟨isFile, entry.components, ?_⟩
    refine (entryAt_prune wellFormed (stored.mpr ⟨mem, rfl⟩) isFile ?_).1
    intro passes
    obtain ⟨file, listed, isEmptyFile, nonempty, leads⟩ := blocked.mp passes
    exact free file listed isEmptyFile nonempty leads

omit distinct in
theorem pairwise_pruneEntries : (pruneEntries entries).Pairwise fun first second =>
  first.components < second.components :=
  pairwise_flatten (wellFormed_foldl entries (wellFormed_new [])).prune

theorem pruneEntries_perm : (pruneEntries entries).Perm (entries.filter (survives entries)) := by
  refine (perm_ext_iff_of_nodup ?_ ?_).mpr fun entry => ?_
  · refine (@pairwise_pruneEntries entries).imp ?_
    rintro first _ before rfl
    exact lt_irrefl _ before
  · refine List.Nodup.filter _ (distinct.imp ?_)
    rintro first _ apart rfl
    exact apart rfl
  · rw [mem_pruneEntries_iff distinct, mem_filter]

theorem pruneEntries_order {other : List ArchiveEntry} (reordered : other.Perm entries) :
    pruneEntries other = pruneEntries entries := by
  have distinctOther : other.Pairwise fun first second =>
    first.components ≠ second.components :=
    reordered.symm.pairwise distinct fun apart => apart.symm
  have sameSurvivors (entry : ArchiveEntry) : survives other entry = survives entries entry := by
    rw [Bool.eq_iff_iff, survives_iff, survives_iff]
    simp only [reordered.mem_iff]
  have samePerm : (pruneEntries other).Perm (pruneEntries entries) := by
    refine (pruneEntries_perm distinctOther).trans ?_
    rw [show survives other = survives entries from funext sameSurvivors]
    exact (reordered.filter _).trans (pruneEntries_perm distinct).symm
  refine samePerm.eq_of_pairwise ?_ pairwise_pruneEntries pairwise_pruneEntries
  intro first second _ _ before after
  exact absurd (lt_trans before after) (lt_irrefl _)

/-- The pruned listing is the files with contents exactly if no empty file is at the root or
above one. -/
theorem prune_entries_exact_iff : ((pruneEntries entries).Perm
    (entries.filter fun entry => !entry.isDir && 0 < entry.size) ∧
      ∀ other, other.Perm entries → pruneEntries other = pruneEntries entries) ↔
      ∀ file ∈ entries, IsEmptyFile file → file.components ≠ [] ∧
        ∀ entry ∈ entries, entry.isDir = false → 0 < entry.size →
          ¬ file.components <+: entry.components := by
  rw [and_iff_left fun other => pruneEntries_order distinct]
  have exact_iff : (pruneEntries entries).Perm
      (entries.filter fun entry => !entry.isDir && 0 < entry.size) ↔
        ∀ entry ∈ entries, survives entries entry = true ↔
          entry.isDir = false ∧ 0 < entry.size := by
    constructor
    · intro same entry mem
      have listed := ((pruneEntries_perm distinct).symm.trans same).mem_iff (a := entry)
      simpa [mem] using listed
    · intro same
      refine (pruneEntries_perm distinct).trans (List.Perm.of_eq ?_)
      refine filter_congr fun entry mem => ?_
      rw [Bool.eq_iff_iff, same entry mem]
      simp
  rw [exact_iff]
  constructor
  · intro same file mem isEmptyFile
    have notKept : ¬ (file.isDir = false ∧ 0 < file.size) := by
      rintro ⟨-, sized⟩
      exact absurd isEmptyFile.2 (Nat.ne_of_gt sized)
    have notAtRoot : file.components ≠ [] := by
      intro atRoot
      refine notKept ((same file mem).mp (survives_iff.mpr ⟨isEmptyFile.1, ?_⟩))
      intro other _ _ nonempty leads
      rw [atRoot] at leads
      exact nonempty (prefix_nil.mp leads)
    refine ⟨notAtRoot, ?_⟩
    intro entry listed isFile sized leads
    have survivor := (same entry listed).mpr ⟨isFile, sized⟩
    exact (survives_iff.mp survivor).2 file mem isEmptyFile notAtRoot leads
  · intro free entry mem
    rw [survives_iff]
    constructor
    · rintro ⟨isFile, passes⟩
      refine ⟨isFile, Nat.pos_of_ne_zero fun isEmpty => ?_⟩
      have isEmptyFile : IsEmptyFile entry := ⟨isFile, isEmpty⟩
      exact passes entry mem isEmptyFile (free entry mem isEmptyFile).1 (prefix_refl _)
    · rintro ⟨isFile, sized⟩
      refine ⟨isFile, ?_⟩
      intro file listed isEmptyFile _
      exact (free file listed isEmptyFile).2 entry mem isFile sized

end

def listedFile (path : String) (size : Nat) : ArchiveEntry where
  path := path.toList
  size := size
  packedSize := size
  isDir := false
  encrypted := false
  crc32 := none

/-- An empty file beside the files with contents is all that is dropped. -/
theorem prune_entries_empty_beside : (pruneEntries [listedFile "b\\c" 5, listedFile "a" 0]).Perm
    [listedFile "b\\c" 5] := by
  have distinct : [listedFile "b\\c" 5, listedFile "a" 0].Pairwise fun first second =>
    first.components ≠ second.components := by
    decide +kernel
  refine ((prune_entries_exact_iff distinct).mpr ?_).1
  intro _ mem isEmptyFile
  rcases mem_cons.mp mem with rfl | isSecond
  · exact absurd isEmptyFile.2 (by decide)
  · rw [mem_singleton.mp isSecond]
    decide +kernel

/-- An empty file above a file with contents takes it along. -/
theorem prune_entries_empty_above : [listedFile "a" 0, listedFile "a/b" 5].Pairwise
    (fun first second => first.components ≠ second.components) ∧
      listedFile "a/b" 5 ∈ [listedFile "a" 0, listedFile "a/b" 5] ∧
      (listedFile "a/b" 5).isDir = false ∧ 0 < (listedFile "a/b" 5).size ∧
      pruneEntries [listedFile "a" 0, listedFile "a/b" 5] = [] := by
  decide +kernel

end Arclain
