import Arclain.Layout

namespace Arclain

/-!
# The path tree of an archive listing

`pruneEntries` builds a tree from the flat entry list, drops empty files and
directories that hold nothing, and flattens the rest in name order.
-/

open Text

mutual

inductive TreeNode where
  | node (entry : Option ArchiveEntry) (children : TreeChildren) (isDir : Bool)

inductive TreeChildren where
  | nil
  | cons (name : Str) (child : TreeNode) (rest : TreeChildren)

end

namespace TreeNode

def new (isDir : Bool) : TreeNode := .node none .nil isDir

end TreeNode

namespace TreeChildren

/-- Change the child of a name, creating a directory node where there is
none. -/
def modify (name : Str) (change : TreeNode → TreeNode) : TreeChildren → TreeChildren
  | .nil => .cons name (change (TreeNode.new true)) .nil
  | .cons known child rest =>
    if known = name then .cons known (change child) rest
    else .cons known child (modify name change rest)

def isEmpty : TreeChildren → Bool
  | .nil => true
  | .cons _ _ _ => false

end TreeChildren

namespace TreeNode

/-- Put an entry at the node its path components lead to. -/
def insertRecursive : List Str → ArchiveEntry → TreeNode → TreeNode
  | [], entry, .node _ children _ => .node (some entry) children entry.isDir
  | name :: rest, entry, .node own children isDir =>
    .node own (children.modify name fun child => insertRecursive rest entry child) isDir

def insert (tree : TreeNode) (entry : ArchiveEntry) : TreeNode :=
  insertRecursive (((forwardSlashes entry.path).splitOn '/').filter fun part => part ≠ [])
    entry tree

def isKept (entry : Option ArchiveEntry) (children : TreeChildren) (isDir : Bool) : Bool :=
  if isDir then !children.isEmpty
  else
    match entry with
    | some file => file.size ≠ 0
    | none => true

end TreeNode

mutual

/-- `TreeNode::prune`: the pruned node and whether it is kept. -/
def TreeNode.prune : TreeNode → TreeNode × Bool
  | .node entry children isDir =>
    (.node entry children.prune isDir, TreeNode.isKept entry children.prune isDir)

def TreeChildren.prune : TreeChildren → TreeChildren
  | .nil => .nil
  | .cons name child rest =>
    if child.prune.2 then .cons name child.prune.1 rest.prune
    else rest.prune

end

mutual

/-- `TreeNode::flatten`: files only, children in name order. -/
def TreeNode.flatten : TreeNode → List ArchiveEntry
  | .node entry children _ =>
    (entry.toList.filter fun file => !file.isDir) ++
      ((children.flatten).insertionSort fun first second => first.1 ≤ second.1).flatMap Prod.snd

/-- Each child's name with its flattened files. -/
def TreeChildren.flatten : TreeChildren → List (Str × List ArchiveEntry)
  | .nil => []
  | .cons name child rest => (name, child.flatten) :: rest.flatten

end

def pruneEntries (entries : List ArchiveEntry) : List ArchiveEntry :=
  (entries.foldl TreeNode.insert (TreeNode.new true)).prune.1.flatten

end Arclain

