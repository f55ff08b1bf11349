import Arclain.MerkleTree
import Arclain.Text
import Mathlib.Logic.Relation

namespace Arclain.Merkle

/-!
# Normalized paths

`normalize_components` reduces a list of components on a stack.  Its result is the one list
that nothing can be left out of or cancelled in, so two paths of a namespace have the same
normal form exactly if their components reduce to the same list.
-/

open List Relation PathNamespace

/-- A component that stands for no step of its own. -/
def IsSkipped (component : Bytes) : Prop := component = [] ∨ component = ascii "."

/-- A component is left out, or a name and the `..` behind it are. -/
inductive Reduces : List Bytes → List Bytes → Prop where
  | skip {component : Bytes} (before after : List Bytes) (skipped : IsSkipped component) :
      Reduces (before ++ component :: after) (before ++ after)
  | cancel {name : Bytes} (before after : List Bytes) (named : ¬ IsSkipped name)
      (inner : name ≠ ascii "..") :
      Reduces (before ++ name :: ascii ".." :: after) (before ++ after)

def SameReduced : List Bytes → List Bytes → Prop := Join (ReflTransGen Reduces)

structure Canonical (components : List Bytes) : Prop where
  kept : ∀ component ∈ components, ¬ IsSkipped component
  leading : ∃ parents names, components = replicate parents (ascii "..") ++ names ∧
    ascii ".." ∉ names

def reduce (components : List Bytes) : List Bytes := components.foldl pushComponent []

section

variable {components other : List Bytes} {component : Bytes}

theorem not_isSkipped_parent : ¬ IsSkipped (ascii "..") := by
  unfold IsSkipped
  decide

theorem push_skipped (skipped : IsSkipped component) :
    pushComponent components component = components :=
  if_pos skipped

theorem push_named (named : ¬ IsSkipped component) (inner : component ≠ ascii "..") :
    pushComponent components component = components ++ [component] :=
  (if_neg named).trans (if_neg inner)

theorem push_parent_of_name (inner : component ≠ ascii "..") :
    pushComponent (components ++ [component]) (ascii "..") = components := by
  refine (if_neg not_isSkipped_parent).trans ?_
  simp [inner]

theorem push_parent_of_parents (parents : Nat) :
    pushComponent (replicate parents (ascii "..")) (ascii "..") =
      replicate parents (ascii "..") ++ [ascii ".."] := by
  refine (if_neg not_isSkipped_parent).trans ?_
  cases parents with
  | zero => rfl
  | succ parents => simp [getLast?_replicate]

theorem Reduces.append_right {first second : List Bytes} (reduces : Reduces first second)
    (behind : List Bytes) : Reduces (first ++ behind) (second ++ behind) := by
  cases reduces with
  | skip before after skipped => simpa using Reduces.skip before (after ++ behind) skipped
  | cancel before after named inner =>
    simpa using Reduces.cancel before (after ++ behind) named inner

/-- A step of the loop keeps the list canonical, and only reduces what was read. -/
theorem Canonical.push (canonical : Canonical components) (component : Bytes) :
    Canonical (pushComponent components component) ∧
      ReflTransGen Reduces (components ++ [component]) (pushComponent components component) := by
  obtain ⟨kept, parents, names, rfl, named⟩ := canonical
  by_cases skipped : IsSkipped component
  · rw [push_skipped skipped]
    have reduces := Reduces.skip (replicate parents (ascii "..") ++ names) [] skipped
    rw [append_nil] at reduces
    exact ⟨⟨kept, parents, names, rfl, named⟩, .single reduces⟩
  by_cases inner : component = ascii ".."
  · subst inner
    rcases names.eq_nil_or_concat with rfl | ⟨earlier, name, rfl⟩
    · rw [append_nil, push_parent_of_parents]
      refine ⟨⟨?_, parents + 1, [], by simp [replicate_succ'], not_mem_nil⟩, .refl⟩
      intro component mem
      rw [← replicate_succ'] at mem
      exact eq_of_mem_replicate mem ▸ not_isSkipped_parent
    · rw [concat_eq_append, ← append_assoc] at kept ⊢
      have notParent : name ≠ ascii ".." := fun same => named (by simp [same])
      rw [push_parent_of_name notParent]
      have reduces := Reduces.cancel (replicate parents (ascii "..") ++ earlier) []
        (kept name (by simp)) notParent
      rw [append_nil] at reduces
      refine ⟨⟨fun other mem => kept other (mem_append_left _ mem), parents, earlier, rfl,
        fun parent => named (by simp [parent])⟩, .single ?_⟩
      simpa using reduces
  · rw [push_named skipped inner]
    refine ⟨⟨?_, parents, names ++ [component], append_assoc _ _ _, by simp [named, Ne.symm inner]⟩,
      .refl⟩
    exact forall_mem_append.mpr ⟨kept, by simpa using skipped⟩

theorem reduce_spec (components : List Bytes) : Canonical (reduce components) ∧
    ReflTransGen Reduces components (reduce components) := by
  induction components using List.reverseRecOn with
  | nil => exact ⟨⟨by simp [reduce], 0, [], rfl, not_mem_nil⟩, .refl⟩
  | append_singleton earlier component ih =>
    obtain ⟨canonical, reduces⟩ := ih
    have step := canonical.push component
    have whole : reduce (earlier ++ [component]) = pushComponent (reduce earlier) component := by
      rw [reduce, foldl_append]
      rfl
    rw [whole]
    have lifted := reduces.lift (· ++ [component]) fun _ _ step => step.append_right _
    exact ⟨step.1, lifted.trans step.2⟩

theorem Reduces.reduce_eq {first second : List Bytes} (reduces : Reduces first second) :
    reduce first = reduce second := by
  cases reduces with
  | skip before after skipped =>
    simp [reduce, push_skipped skipped]
  | cancel before after named inner =>
    simp [reduce, push_named named inner, push_parent_of_name inner]

theorem sameReduced_iff {first second : List Bytes} :
    SameReduced first second ↔ reduce first = reduce second := by
  have kept {first second : List Bytes} (reduces : ReflTransGen Reduces first second) :
      reduce first = reduce second := by
    induction reduces with
    | refl => rfl
    | tail _ step ih => exact ih.trans step.reduce_eq
  constructor
  · rintro ⟨_, fromFirst, fromSecond⟩
    exact (kept fromFirst).trans (kept fromSecond).symm
  · intro same
    exact ⟨_, (reduce_spec first).2, same ▸ (reduce_spec second).2⟩

end

/-! ## What stands before the components -/

/-- The components at the front that `..` does not cancel: the server and the share. -/
def PathNamespace.guarded : PathNamespace → Nat
  | .unc => 2
  | _ => 0

/-- What a normalized path begins with, and the components behind it. -/
def parts (path : Bytes) : Bytes × List Bytes :=
  let portable := path.map fun byte => if byte = backslash then slash else byte
  if hasDrivePrefix portable then
    let remainder := portable.drop 2
    (portable.take 2 ++ if [slash].isPrefixOf remainder then [slash] else [],
      (trimSlashes remainder).splitOn slash)
  else if (ascii "//").isPrefixOf portable then
    (ascii "//", ((trimSlashes portable).splitOn slash).filter fun component =>
      component ≠ [] ∧ component ≠ ascii ".")
  else if [slash].isPrefixOf portable then ([slash], (trimSlashes portable).splitOn slash)
  else ([], portable.splitOn slash)

def normalComponents (path : Bytes) : List Bytes :=
  let guarded := (normalizeRelativePath path).pathNamespace.guarded
  (parts path).2.take guarded ++ reduce ((parts path).2.drop guarded)

theorem splitOn_join {components : List Bytes} (clean : ∀ component ∈ components, slash ∉ component)
    (nonempty : components ≠ []) : (join components).splitOn slash = components :=
  splitOn_intercalate slash clean nonempty

theorem join_eq_nil_iff {components : List Bytes}
    (nonempty : ∀ component ∈ components, component ≠ []) :
    join components = [] ↔ components = [] := by
  cases components with
  | nil => exact iff_of_true rfl rfl
  | cons component rest =>
    refine iff_of_false (fun empty => ?_) (cons_ne_nil _ _)
    by_cases last : rest = []
    · subst last
      exact nonempty component mem_cons_self (by simpa [join] using empty)
    · rw [join_cons last] at empty
      cases (append_eq_nil_iff.mp empty).2

theorem join_injective {first second : List Bytes}
    (clean : ∀ component ∈ first ++ second, slash ∉ component ∧ component ≠ [])
    (same : join first = join second) : first = second := by
  obtain ⟨firstClean, secondClean⟩ := forall_mem_append.mp clean
  have firstEmpty := join_eq_nil_iff fun component mem => (firstClean component mem).2
  have secondEmpty := join_eq_nil_iff fun component mem => (secondClean component mem).2
  by_cases none : first = []
  · rw [none, secondEmpty.mp (same ▸ firstEmpty.mpr none)]
  · have others : second ≠ [] := fun others => none (firstEmpty.mp (same ▸ secondEmpty.mpr others))
    rw [← splitOn_join (fun component mem => (firstClean component mem).1) none, same,
      splitOn_join (fun component mem => (secondClean component mem).1) others]

theorem join_append {first second : List Bytes} (some : first ≠ []) (more : second ≠ []) :
    join (first ++ second) = join first ++ [slash] ++ join second := by
  induction first with
  | nil => exact absurd rfl some
  | cons _ rest ih =>
    by_cases last : rest = []
    · subst last
      rw [singleton_append, join_cons more]
      simp [join]
    · have later : rest ++ second ≠ [] := by simp [last]
      rw [cons_append, join_cons later, ih last, join_cons last]
      simp

theorem normalizeUncPath_eq (path : Bytes) : normalizeUncPath path =
    let components := (path.splitOn slash).filter fun component =>
      component ≠ [] ∧ component ≠ ascii "."
    ascii "//" ++ join (components.take 2 ++ reduce (components.drop 2)) := by
  have clean : ∀ component ∈ (path.splitOn slash).filter fun component =>
      component ≠ [] ∧ component ≠ ascii ".", slash ∉ component ∧ component ≠ [] := by
    intro component mem
    obtain ⟨isPiece, kept⟩ := mem_filter.mp mem
    exact ⟨Text.notMem_of_mem_splitOn isPiece, (of_decide_eq_true kept).1⟩
  unfold normalizeUncPath
  dsimp only
  generalize (path.splitOn slash).filter _ = components at clean
  have tail : normalizeComponents (join (components.drop 2)) =
      join (reduce (components.drop 2)) := by
    by_cases none : components.drop 2 = []
    · rw [none]
      rfl
    · rw [normalizeComponents, splitOn_join _ none]
      · rfl
      · exact fun component mem => (clean component (mem_of_mem_drop mem)).1
  rw [min_comm, ← take_eq_take_min, ← drop_eq_drop_min, tail]
  have authority : join (components.take 2) = [] ↔ components.take 2 = [] :=
    join_eq_nil_iff fun component mem => (clean component (mem_of_mem_take mem)).2
  have normal : join (reduce (components.drop 2)) = [] ↔ reduce (components.drop 2) = [] :=
    join_eq_nil_iff fun component mem empty =>
      (reduce_spec _).1.kept component mem (.inl empty)
  split
  next none =>
    obtain rfl : components = [] := by simpa using authority.mp none
    rfl
  next some =>
    split
    next none => rw [normal.mp none, append_nil]
    next more =>
      rw [join_append (some ∘ authority.mpr) (more ∘ normal.mpr)]
      simp

theorem normalizeDrivePath_eq (portable : Bytes) : normalizeDrivePath portable =
    { pathNamespace :=
        if [slash].isPrefixOf (portable.drop 2) then .driveRooted else .driveRelative
      value := portable.take 2 ++ (if [slash].isPrefixOf (portable.drop 2) then [slash] else []) ++
        join (reduce ((trimSlashes (portable.drop 2)).splitOn slash)) } := by
  unfold normalizeDrivePath normalizeComponents reduce
  dsimp only
  split
  · split
    next none => simp [none]
    · simp
  · simp

theorem normalizeRelativePath_spec (path : Bytes) : (normalizeRelativePath path).value =
      (if (normalizeRelativePath path).pathNamespace = .current then ascii "."
      else (parts path).1 ++ join (normalComponents path)) ∧
    ((normalizeRelativePath path).pathNamespace = .current → normalComponents path = []) ∧
    ∀ component ∈ (parts path).2.take (normalizeRelativePath path).pathNamespace.guarded,
      ¬ IsSkipped component := by
  unfold normalComponents parts normalizeRelativePath
  by_cases empty : path = []
  · subst empty
    exact ⟨rfl, by simp, by simp [guarded]⟩
  simp only [if_neg empty]
  generalize (path.map _) = portable
  by_cases drive : hasDrivePrefix portable = true
  · simp only [drive, if_true, normalizeDrivePath_eq]
    split <;> simp [guarded]
  simp only [drive, Bool.false_eq_true, if_false]
  by_cases unc : (ascii "//").isPrefixOf portable = true
  · simp only [unc, if_true, normalizeUncPath_eq]
    exact ⟨rfl, nofun, fun component mem => not_or.mpr
      (of_decide_eq_true (mem_filter.mp (mem_of_mem_take mem)).2)⟩
  simp only [unc, Bool.false_eq_true, if_false]
  by_cases rooted : [slash].isPrefixOf portable = true
  · simp only [rooted, if_true, guarded, take_zero, drop_zero]
    unfold normalizeComponents reduce
    refine ⟨?_, nofun, nofun⟩
    split
    next none => simp [none]
    · simp
  simp only [rooted, Bool.false_eq_true, if_false]
  unfold normalizeComponents
  split
  next none =>
    refine ⟨by simp, fun _ => ?_, by simp [guarded]⟩
    exact (join_eq_nil_iff fun component mem empty =>
      (reduce_spec _).1.kept component mem (.inl empty)).mp none
  · simp [guarded, reduce]

theorem slash_notMem_parts {path component : Bytes} (mem : component ∈ (parts path).2) :
    slash ∉ component := by
  unfold parts at mem
  dsimp only at mem
  split at mem
  · exact Text.notMem_of_mem_splitOn mem
  split at mem
  · exact Text.notMem_of_mem_splitOn (mem_filter.mp mem).1
  split at mem
  · exact Text.notMem_of_mem_splitOn mem
  · exact Text.notMem_of_mem_splitOn mem

theorem reduce_subset (components : List Bytes) : reduce components ⊆ components := by
  have step {first second : List Bytes} (reduces : Reduces first second) : second ⊆ first := by
    cases reduces with
    | skip before after => simp
    | cancel before after =>
      exact append_subset.mpr ⟨subset_append_left _ _, fun _ mem => by simp [mem]⟩
  have steps {first second : List Bytes} (reduces : ReflTransGen Reduces first second) :
      second ⊆ first := by
    induction reduces with
    | refl => exact Subset.refl _
    | tail _ reduces ih => exact List.Subset.trans (step reduces) ih
  exact steps (reduce_spec components).2

theorem normalizeRelativePath_of_backslashes {path other : Bytes}
    (replaced : Forall₂ (fun byte new => new = byte ∨ byte = slash ∧ new = backslash) path other) :
    normalizeRelativePath other = normalizeRelativePath path := by
  have portable : (other.map fun byte => if byte = backslash then slash else byte) =
      path.map fun byte => if byte = backslash then slash else byte := by
    induction replaced with
    | nil => rfl
    | cons same _ ih =>
      rw [map_cons, map_cons, ih]
      rcases same with rfl | ⟨rfl, rfl⟩ <;> rfl
  have empty : other = [] ↔ path = [] := by
    rw [← length_eq_zero_iff, ← length_eq_zero_iff, replaced.length_eq]
  unfold normalizeRelativePath
  simp [portable, empty]

theorem append_inj_of_take {length : Nat} {first second firstRest secondRest : List Bytes}
    (firstShort : first.length < length → firstRest = [])
    (secondShort : second.length < length → secondRest = [])
    (same : first.take length ++ firstRest = second.take length ++ secondRest) :
    first.take length = second.take length ∧ firstRest = secondRest := by
  apply append_inj same
  have lengths := congrArg List.length same
  rw [length_append, length_append] at lengths
  simp only [length_take] at lengths ⊢
  by_cases short : first.length < length
  · rw [firstShort short] at lengths
    by_cases otherShort : second.length < length
    · rw [secondShort otherShort] at lengths
      simpa using lengths
    · simp at lengths
      omega
  · by_cases otherShort : second.length < length
    · rw [secondShort otherShort] at lengths
      simp at lengths
      omega
    · omega

theorem normalComponents_clean {path component : Bytes} (mem : component ∈ normalComponents path) :
    slash ∉ component ∧ component ≠ [] := by
  rcases mem_append.mp mem with guarded | reduced
  · exact ⟨slash_notMem_parts (mem_of_mem_take guarded),
      fun empty => (normalizeRelativePath_spec path).2.2 component guarded (.inl empty)⟩
  · exact ⟨slash_notMem_parts (mem_of_mem_drop (reduce_subset _ reduced)),
      fun empty => (reduce_spec _).1.kept component reduced (.inl empty)⟩

theorem normalComponents_eq_iff {path other : Bytes} {guarded : Nat}
    (isGuarded : (normalizeRelativePath path).pathNamespace.guarded = guarded)
    (otherGuarded : (normalizeRelativePath other).pathNamespace.guarded = guarded) :
    normalComponents path = normalComponents other ↔
      (parts path).2.take guarded = (parts other).2.take guarded ∧
        SameReduced ((parts path).2.drop guarded) ((parts other).2.drop guarded) := by
  rw [sameReduced_iff, normalComponents, normalComponents, isGuarded, otherGuarded]
  constructor
  · apply append_inj_of_take <;> intro short <;> rw [drop_eq_nil_of_le short.le] <;> rfl
  · rintro ⟨same, reduced⟩
    rw [same, reduced]

/-- The normal form of a path: its components are canonical behind the server and the share,
the slashes may lean either way, and two paths of one namespace and drive have the same one
exactly if their guarded components agree and the rest reduces to the same list. -/
theorem normalizeRelativePath_canonical (path : Bytes) :
    (∃ guarded reduced, (∀ component ∈ guarded, ¬ IsSkipped component) ∧
      guarded.length ≤ (normalizeRelativePath path).pathNamespace.guarded ∧ Canonical reduced ∧
      (normalizeRelativePath path).value =
        if (normalizeRelativePath path).pathNamespace = .current then ascii "."
        else (parts path).1 ++ join (guarded ++ reduced)) ∧
      (∀ other, Forall₂ (fun byte new => new = byte ∨ byte = slash ∧ new = backslash) path other →
        normalizeRelativePath other = normalizeRelativePath path) ∧
      ∀ other guarded, (normalizeRelativePath path).pathNamespace.guarded = guarded →
        (normalizeRelativePath path).pathNamespace = (normalizeRelativePath other).pathNamespace →
        (parts path).1 = (parts other).1 →
        ((normalizeRelativePath path).value = (normalizeRelativePath other).value ↔
          (parts path).2.take guarded = (parts other).2.take guarded ∧
            SameReduced ((parts path).2.drop guarded) ((parts other).2.drop guarded)) := by
  obtain ⟨value, current, kept⟩ := normalizeRelativePath_spec path
  refine ⟨⟨_, _, kept, length_take_le _ _, (reduce_spec _).1, value⟩,
    fun _ => normalizeRelativePath_of_backslashes,
    fun other guarded isGuarded sameNamespace sameFront => ?_⟩
  obtain ⟨otherValue, otherCurrent, _⟩ := normalizeRelativePath_spec other
  rw [← normalComponents_eq_iff isGuarded (sameNamespace ▸ isGuarded), value, otherValue,
    ← sameNamespace, sameFront]
  split
  next isCurrent =>
    rw [current isCurrent, otherCurrent (sameNamespace ▸ isCurrent)]
    exact iff_of_true rfl rfl
  · rw [append_cancel_left_eq]
    refine ⟨join_injective ?_, congrArg join⟩
    exact forall_mem_append.mpr ⟨fun _ => normalComponents_clean, fun _ => normalComponents_clean⟩

/-- A `..` behind the share is kept, although the components reduce to those of the other. -/
theorem share_not_cancelled :
    let path := ascii "//server/share/../file.txt"
    let other := ascii "//server/file.txt"
    (normalizeRelativePath path).pathNamespace = (normalizeRelativePath other).pathNamespace ∧
      SameReduced (path.splitOn slash) (other.splitOn slash) ∧
      (normalizeRelativePath path).value ≠ (normalizeRelativePath other).value := by
  refine ⟨by decide, sameReduced_iff.mpr (by decide), by decide⟩

end Arclain.Merkle
