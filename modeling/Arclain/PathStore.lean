import Arclain.Fallible
import Arclain.KeyedMap
import Mathlib.Data.List.Infix

namespace Arclain.PathStore

/-!
# Trees that grow

A tree of files and directories under paths, built from nothing by two operations:
`createDirAll` makes a directory and the directories above it, and `writeNew` makes a file
where nothing stands.  `Represents` says what a tree holds once a list of things has been
made in it.
-/

open List

inductive Leaf (Content : Type*) where
  | file (content : Content)
  | directory
  deriving DecidableEq

/-- A tree: what stands at each path below its root. -/
abbrev Tree (Name Content : Type*) := KeyedMap (List Name) (Leaf Content)

inductive Refusal where
  | notADirectory
  | occupied

variable {Name Content : Type*} [DecidableEq Name]

/-- The directories from below the root down to a path. -/
def prefixes (path : List Name) : List (List Name) := path.inits.filter fun above => !above.isEmpty

section

variable (tree : Tree Name Content) (path : List Name)

def createDirectory : Except Refusal (Tree Name Content) :=
  match tree.lookup path with
  | none => .ok (tree.insert path .directory)
  | some .directory => .ok tree
  | some (.file _) => .error .notADirectory

/-- Make a directory and every directory above it. -/
def createDirAll : Except Refusal (Tree Name Content) :=
  (prefixes path).foldlM createDirectory tree

/-- Make a file where nothing stands, and the directories above it. -/
def writeNew (content : Content) : Except Refusal (Tree Name Content) := do
  let tree ← createDirAll tree path.dropLast
  match tree.lookup path with
  | none => .ok (tree.insert path (.file content))
  | some _ => .error .occupied

end

def isFile (made : List Name × Leaf Content) : Bool :=
  match made.2 with
  | .file _ => true
  | .directory => false

/-- A tree holds what was made in it and the directories above; no file was made twice. -/
structure Represents (tree : Tree Name Content)
    (made : List (List Name × Leaf Content)) : Prop where
  lookup_iff : ∀ path leaf, tree.lookup path = some leaf ↔ (path, leaf) ∈ made ∨
    leaf = .directory ∧ path ≠ [] ∧ ∃ item ∈ made, path <+: item.1 ∧ path ≠ item.1
  files : ((made.filter isFile).map Prod.fst).Nodup

omit [DecidableEq Name] in
variable {path above : List Name}

theorem mem_prefixes : above ∈ prefixes path ↔ above ≠ [] ∧ above <+: path := by
  simp [prefixes, and_comm]

omit [DecidableEq Name] in
theorem prefix_dropLast_iff (present : path ≠ []) :
    above <+: path.dropLast ↔ above <+: path ∧ above ≠ path := by
  have whole := dropLast_append_getLast present
  constructor
  · intro leads
    refine ⟨leads.trans <| dropLast_prefix path, ?_⟩
    rintro rfl
    have shorter := leads.length_le
    rw [length_dropLast] at shorter
    have positive := length_pos_of_ne_nil present
    omega
  · rintro ⟨leads, proper⟩
    rw [← whole, prefix_concat_iff] at leads
    rcases leads with same | leads
    · exact absurd (same.trans whole) proper
    · exact leads

variable {tree next : Tree Name Content}

theorem lookup_createDirectory {path : List Name} (created : createDirectory tree path = .ok next) :
    (tree.lookup path = none ∨ tree.lookup path = some .directory) ∧ ∀ other, next.lookup other =
      if other = path then some .directory else tree.lookup other := by
  unfold createDirectory at created
  split at created
  next vacant =>
    obtain rfl := Except.ok.inj created
    exact ⟨.inl vacant, fun other => KeyedMap.lookup_insert_ite tree path other .directory⟩
  next stands =>
    obtain rfl := Except.ok.inj created
    refine ⟨.inr stands, fun other => ?_⟩
    split
    next same => rw [same, stands]
    · rfl
  · cases created

theorem lookup_createDirectories {paths : List (List Name)}
    (created : paths.foldlM createDirectory tree = .ok next) :
    (∀ path ∈ paths, tree.lookup path = none ∨ tree.lookup path = some .directory) ∧
      ∀ other, next.lookup other =
        if other ∈ paths then some .directory else tree.lookup other := by
  induction paths generalizing tree with
  | nil =>
    obtain rfl := Except.ok.inj created
    simp
  | cons first _ ih =>
    obtain ⟨_, firstCreated, restCreated⟩ := Fallible.bind_eq_ok.mp created
    obtain ⟨firstFree, firstLookup⟩ := lookup_createDirectory firstCreated
    obtain ⟨restFree, restLookup⟩ := ih restCreated
    constructor
    · intro path mem
      rcases mem_cons.mp mem with rfl | later
      · exact firstFree
      · by_cases same : path = first
        · exact same ▸ firstFree
        · have free := restFree path later
          rwa [firstLookup, if_neg same] at free
    · intro other
      rw [restLookup, firstLookup]
      by_cases same : other = first
      · simp [same]
      · simp [same]

theorem lookup_createDirAll {path : List Name}
    (created : createDirAll tree path = .ok next) : (∀ above, above ≠ [] → above <+: path →
      tree.lookup above = none ∨ tree.lookup above = some .directory) ∧ ∀ other, next.lookup other =
        if other ≠ [] ∧ other <+: path then some .directory
        else tree.lookup other := by
  obtain ⟨free, lookups⟩ := lookup_createDirectories created
  refine ⟨fun above present leads =>
    free above (mem_prefixes.mpr ⟨present, leads⟩), fun other => ?_⟩
  simp only [lookups, mem_prefixes]

namespace Represents

theorem empty : Represents (∅ : Tree Name Content) [] where
  lookup_iff := by simp
  files := by simp

variable {tree next : Tree Name Content} {made : List (List Name × Leaf Content)} {path : List Name}

theorem createDirAll (represents : Represents tree made) (present : path ≠ [])
    (created : createDirAll tree path = .ok next) :
    Represents next (made ++ [(path, .directory)]) where
  lookup_iff := by
    obtain ⟨free, lookups⟩ := lookup_createDirAll created
    intro other leaf
    rw [lookups]
    constructor
    · intro stands
      split at stands
      next above =>
        cases stands
        by_cases same : other = path
        · exact .inl (by simp [same])
        · exact .inr ⟨rfl, above.1, (path, .directory), by simp, above.2, same⟩
      · rcases (represents.lookup_iff other leaf).mp stands with
          mem | ⟨shape, nonempty, item, mem, leads⟩
        · exact .inl (mem_append_left _ mem)
        · exact .inr ⟨shape, nonempty, item, mem_append_left _ mem, leads⟩
    · have kept : tree.lookup other = some leaf →
          (if other ≠ [] ∧ other <+: path then some Leaf.directory
            else tree.lookup other) = some leaf := by
        intro stood
        split
        next above =>
          rcases free other above.1 above.2 with vacant | directory
          · rw [vacant] at stood
            cases stood
          · rw [directory] at stood
            exact stood
        · exact stood
      rintro (mem | ⟨shape, nonempty, item, mem, leads, proper⟩)
      · rcases mem_append.mp mem with old | fresh
        · exact kept ((represents.lookup_iff other leaf).mpr (.inl old))
        · obtain ⟨rfl, rfl⟩ := Prod.mk.inj (mem_singleton.mp fresh)
          rw [if_pos ⟨present, prefix_rfl⟩]
      · rcases mem_append.mp mem with old | fresh
        · exact kept ((represents.lookup_iff other leaf).mpr
            (.inr ⟨shape, nonempty, item, old, leads, proper⟩))
        · rw [mem_singleton.mp fresh] at leads
          rw [if_pos ⟨nonempty, leads⟩, shape]
  files := by simpa [isFile] using represents.files

theorem writeNew {content : Content} (represents : Represents tree made) (present : path ≠ [])
    (written : writeNew tree path content = .ok next) :
    Represents next (made ++ [(path, .file content)]) := by
  obtain ⟨mid, created, entered⟩ := Fallible.bind_eq_ok.mp written
  obtain ⟨free, lookups⟩ := lookup_createDirAll created
  split at entered
  next vacant =>
    obtain rfl := Except.ok.inj entered
    have notAbove : ¬ path <+: path.dropLast := by
      intro leads
      exact ((prefix_dropLast_iff present).mp leads).2 rfl
    have vacantBefore : tree.lookup path = none := by
      rw [lookups, if_neg (fun above => notAbove above.2)] at vacant
      exact vacant
    have after (other : List Name) : (mid.insert path (.file content)).lookup other =
        if other = path then some (.file content)
        else if other ≠ [] ∧ other <+: path.dropLast then some .directory
        else tree.lookup other := by
      rw [KeyedMap.lookup_insert_ite, lookups]
    have kept {other : List Name} {leaf : Leaf Content} (stood : tree.lookup other = some leaf) :
        (mid.insert path (.file content)).lookup other = some leaf := by
      have different : other ≠ path := by
        rintro rfl
        rw [vacantBefore] at stood
        cases stood
      rw [after, if_neg different]
      split
      next above =>
        rcases free other above.1 above.2 with vacant | directory
        · rw [vacant] at stood
          cases stood
        · rw [directory] at stood
          exact stood
      · exact stood
    refine {
      lookup_iff := ?_
      files := ?_ }
    · intro other leaf
      constructor
      · intro stands
        rw [after] at stands
        split at stands
        next same =>
          cases stands
          exact .inl (by simp [same])
        next different =>
          split at stands
          next above =>
            cases stands
            obtain ⟨leads, proper⟩ := (prefix_dropLast_iff present).mp above.2
            exact .inr ⟨rfl, above.1, (path, .file content), by simp, leads, proper⟩
          · rcases (represents.lookup_iff other leaf).mp stands with
              mem | ⟨shape, nonempty, item, mem, leads⟩
            · exact .inl (mem_append_left _ mem)
            · exact .inr ⟨shape, nonempty, item, mem_append_left _ mem, leads⟩
      · rintro (mem | ⟨shape, nonempty, item, mem, leads, proper⟩)
        · rcases mem_append.mp mem with old | fresh
          · exact kept ((represents.lookup_iff other leaf).mpr (.inl old))
          · obtain ⟨rfl, rfl⟩ := Prod.mk.inj (mem_singleton.mp fresh)
            rw [after, if_pos rfl]
        · rcases mem_append.mp mem with old | fresh
          · exact kept ((represents.lookup_iff other leaf).mpr
              (.inr ⟨shape, nonempty, item, old, leads, proper⟩))
          · rw [mem_singleton.mp fresh] at leads proper
            rw [after, if_neg proper, if_pos ⟨nonempty,
              (prefix_dropLast_iff present).mpr ⟨leads, proper⟩⟩, shape]
    · have unmade : path ∉ (made.filter isFile).map Prod.fst := by
        intro listed
        obtain ⟨item, filtered, rfl⟩ := mem_map.mp listed
        have stood := (represents.lookup_iff item.1 item.2).mpr (.inl (mem_of_mem_filter filtered))
        rw [vacantBefore] at stood
        cases stood
      have single : (([(path, Leaf.file content)] :
          List (List Name × Leaf Content)).filter isFile).map Prod.fst = [path] := rfl
      rw [filter_append, map_append, single]
      refine nodup_append.mpr ⟨represents.files, nodup_singleton _, ?_⟩
      intro old listed _ fresh
      rw [mem_singleton.mp fresh]
      rintro rfl
      exact unmade listed
  · cases entered

end Represents

end Arclain.PathStore
