import Arclain.CheckedRelativePath
import Arclain.UnixPath
import Mathlib.Data.Prod.Lex

namespace Arclain.UnixPath

/-!
# Canonical paths

A relative path written without empty, current or parent pieces is its list of names.  On
such texts the operations of `Path` are operations on lists.
-/

open List Text Component

structure IsName (name : Str) : Prop where
  nonempty : name ≠ []
  noSlash : '/' ∉ name
  notCurrent : name ≠ ['.']
  notParent : name ≠ ['.', '.']

def render (names : List Str) : Str := join ['/'] names

/-- A path that is accepted as it stands, written with forward slashes. -/
def Canonical (path : Str) : Prop :=
  (∃ checked, CheckedRelativePath.new path = .ok checked) ∧ '\\' ∉ path

theorem names_of_canonical {path : Str} (canonical : Canonical path) :
    ∃ names, names ≠ [] ∧ (∀ name ∈ names, IsName name) ∧ path = render names := by
  obtain ⟨⟨checked, accepted⟩, noBackslash⟩ := canonical
  refine ⟨path.splitOn '/', splitOn_ne_nil _ _, ?_, (intercalate_splitOn '/').symm⟩
  intro name mem
  have slashed : checked.path = path := by
    rw [CheckedRelativePath.path_of_new accepted]
    exact forwardSlashes_eq_self noBackslash
  have clean := checked.portable name (slashed ▸ mem) []
  have safe : ¬ (name = [] ∨ name = ['.'] ∨ name = ['.', '.']) := by
    intro unsafeName
    rw [componentFault, if_pos unsafeName] at clean
    cases clean
  rw [not_or, not_or] at safe
  exact ⟨safe.1, notMem_of_mem_splitOn mem, safe.2.1, safe.2.2⟩

theorem render_cons {name : Str} {rest : List Str} (more : rest ≠ []) :
    render (name :: rest) = name ++ '/' :: render rest := by
  rw [render, join, intercalate_cons_of_ne_nil more]
  simp [render, join]

@[simp] theorem render_singleton (name : Str) : render [name] = name := by simp [render, join]

@[simp] theorem render_nil : render [] = [] := rfl

theorem render_append {first second : List Str} (nonempty : first ≠ []) (more : second ≠ []) :
    render (first ++ second) = render first ++ '/' :: render second := by
  induction first with
  | nil => exact absurd rfl nonempty
  | cons _ rest ih =>
    by_cases last : rest = []
    · subst last
      rw [singleton_append, render_cons more, render_singleton]
    · rw [cons_append, render_cons (by simp [last]), render_cons last, ih last, append_assoc]
      rfl

section

variable {names : List Str} (areNames : ∀ name ∈ names, IsName name)

include areNames

theorem splitOn_render (nonempty : names ≠ []) : (render names).splitOn '/' = names :=
  splitOn_intercalate '/' (fun name mem => (areNames name mem).noSlash) nonempty

theorem render_ne_nil (nonempty : names ≠ []) : render names ≠ [] := by
  intro empty
  have split := splitOn_render areNames nonempty
  rw [empty, splitOn_nil] at split
  exact (areNames [] (by simp [← split])).nonempty rfl

theorem splitHead_render : splitHead (render names) = ([], render names) := by
  have plain : startsWith (render names) ['/'] = false ∧ ¬ (render names = ['.'] ∨
      startsWith (render names) ['.', '/'] = true) := by
    cases names with
    | nil => simp [startsWith]
    | cons name rest =>
      have isName := areNames name mem_cons_self
      have split := splitOn_render areNames (cons_ne_nil name rest)
      refine ⟨?_, ?_⟩
      · rw [Bool.eq_false_iff]
        intro starts
        obtain ⟨tail, written⟩ := isPrefixOf_iff_prefix.mp starts
        rw [← written, singleton_append, splitOn_cons_eq_if_modifyHead] at split
        simp only [beq_self_eq_true, if_true] at split
        exact isName.nonempty (cons.inj split).1.symm
      · rintro (isDot | starts)
        · rw [isDot, splitOn_eq_singleton (by decide)] at split
          exact isName.notCurrent (cons.inj split).1.symm
        · obtain ⟨tail, written⟩ := isPrefixOf_iff_prefix.mp starts
          rw [← written] at split
          have head : (['.'] ++ '/' :: tail).splitOn '/' = ['.'] :: tail.splitOn '/' :=
            splitOn_append_cons_self_of_not_mem (by simp) tail
          simp only [cons_append, nil_append] at head split
          rw [head] at split
          exact isName.notCurrent (cons.inj split).1.symm
  rw [splitHead, if_neg (by simp [plain.1]), if_neg plain.2]

omit areNames in
theorem isIgnored_name {name : Str} (isName : IsName name) : isIgnored name = false := by
  simp [isIgnored, isName.nonempty, isName.notCurrent]

theorem components_render : components (render names) = names.map .normal := by
  have kept : ((render names).splitOn '/').filter (fun piece => !isIgnored piece) = names := by
    by_cases nonempty : names = []
    · subst nonempty
      rfl
    · rw [splitOn_render areNames nonempty]
      refine filter_eq_self.mpr fun name mem => ?_
      rw [isIgnored_name (areNames name mem)]
      rfl
  simp only [components, splitHead_render areNames, kept]
  refine map_congr_left fun name mem => ?_
  rw [if_neg (areNames name mem).notParent]

theorem parent_render (nonempty : names ≠ []) :
    parent (render names) = some (render names.dropLast) := by
  obtain ⟨front, last, rfl⟩ := (eq_nil_or_concat' names).resolve_left nonempty
  have isLast := isIgnored_name (areNames last (by simp))
  have kept : (front.reverse.dropWhile isIgnored) = front.reverse := by
    cases reversed : front.reverse with
    | nil => rfl
    | cons name =>
      have mem : name ∈ front := by
        rw [← mem_reverse, reversed]
        exact mem_cons_self
      rw [dropWhile_cons, isIgnored_name (areNames name (by simp [mem]))]
      rfl
  simp only [parent, splitHead_render areNames, splitOn_render areNames nonempty,
    reverse_append, reverse_singleton, singleton_append,
    dropWhile_cons, isLast, Bool.false_eq_true, if_false, kept,
    reverse_reverse, dropLast_concat, nil_append]
  rfl

theorem fileName_render : fileName (render names) = names.getLast? := by
  rw [fileName, components_render areNames, List.getLast?_map]
  cases names.getLast? <;> rfl

theorem startsWithPath_render {base : List Str} (areBaseNames : ∀ name ∈ base, IsName name) :
    startsWithPath (render names) (render base) = true ↔ base <+: names := by
  rw [startsWithPath, isPrefixOf_iff_prefix, components_render areNames,
    components_render areBaseNames]
  have injective : Function.Injective normal := fun _ _ => normal.inj
  exact prefix_map_iff_of_injective injective

theorem samePath_render {other : List Str} (areOtherNames : ∀ name ∈ other, IsName name) :
    samePath (render names) (render other) = true ↔ names = other := by
  rw [samePath, decide_eq_true_eq, components_render areNames, components_render areOtherNames]
  have injective : Function.Injective normal := fun _ _ => normal.inj
  exact (map_injective_iff.mpr injective).eq_iff

end

theorem mem_parents_render_iff {names : List Str} {dir : Str} {fuel : Nat}
    (areNames : ∀ name ∈ names, IsName name) (enough : names.length ≤ fuel) :
    dir ∈ parents fuel (render names) ↔ ∃ front last, front ≠ [] ∧ front ++ [last] <+: names ∧
      dir = render front := by
  induction fuel generalizing names with
  | zero =>
    obtain rfl := eq_nil_of_length_eq_zero (Nat.le_zero.mp enough)
    constructor
    · intro mem
      cases mem
    · rintro ⟨front, last, nonempty, leads, -⟩
      exact absurd (prefix_nil.mp leads) (by simp)
  | succ fuel ih =>
    rcases eq_nil_or_concat' names with rfl | ⟨front, last, rfl⟩
    · constructor
      · intro mem
        cases mem
      · rintro ⟨other, next, nonempty, leads, -⟩
        exact absurd (prefix_nil.mp leads) (by simp)
    · have areFrontNames : ∀ name ∈ front, IsName name :=
        fun name mem => areNames name (by simp [mem])
      have isParent : parent (render (front ++ [last])) = some (render front) := by
        rw [parent_render areNames (by simp), dropLast_concat]
      have bounded : front.length ≤ fuel := by simpa using enough
      have prefixes {other : List Str} {next : Str} : other ++ [next] <+: front ++ [last] ↔
          (other = front ∧ next = last) ∨ other ++ [next] <+: front := by
        rw [prefix_concat_iff]
        refine or_congr_left ⟨fun same => ?_, ?_⟩
        · obtain ⟨sameFront, sameLast⟩ := append_inj' same rfl
          exact ⟨sameFront, singleton_inj.mp sameLast⟩
        · rintro ⟨rfl, rfl⟩
          rfl
      by_cases atTop : front = []
      · subst atTop
        rw [parents, isParent, render_nil]
        constructor
        · intro mem
          cases mem
        · rintro ⟨other, next, nonempty, leads, -⟩
          rcases prefixes.mp leads with ⟨rfl, -⟩ | shorter
          · exact absurd rfl nonempty
          · exact absurd (prefix_nil.mp shorter) (by simp)
      · have step : parents (fuel + 1) (render (front ++ [last])) =
            render front :: parents fuel (render front) := by
          rw [parents, isParent]
          cases written : render front with
          | nil => exact absurd written (render_ne_nil areFrontNames atTop)
          | cons => rfl
        rw [step, mem_cons, ih areFrontNames bounded]
        constructor
        · rintro (rfl | ⟨other, next, nonempty, leads, rfl⟩)
          · exact ⟨front, last, atTop, prefix_refl _, rfl⟩
          · exact ⟨other, next, nonempty, prefixes.mpr (.inr leads), rfl⟩
        · rintro ⟨other, next, nonempty, leads, rfl⟩
          rcases prefixes.mp leads with ⟨rfl, -⟩ | shorter
          · exact .inl rfl
          · exact .inr ⟨other, next, nonempty, shorter, rfl⟩

theorem popUntilAbove_render {common names : List Str} {fuel : Nat}
    (areCommonNames : ∀ name ∈ common, IsName name) (areNames : ∀ name ∈ names, IsName name)
    (enough : common.length < fuel) :
    ∃ kept, popUntilAbove fuel (render common) (render names) = render kept ∧
      kept <+: common ∧ kept <+: names ∧
      ∀ other, other <+: common → other <+: names → other <+: kept := by
  induction fuel generalizing common with
  | zero => exact absurd enough (Nat.not_lt_zero _)
  | succ fuel ih =>
    by_cases under : common <+: names
    · refine ⟨common, ?_, prefix_refl _, under, fun _ leads _ => leads⟩
      rw [popUntilAbove, if_pos ((startsWithPath_render areNames areCommonNames).mpr under)]
    · have nonempty : common ≠ [] := by
        rintro rfl
        exact under nil_prefix
      obtain ⟨front, last, rfl⟩ := (eq_nil_or_concat' common).resolve_left nonempty
      have areFrontNames : ∀ name ∈ front, IsName name :=
        fun name mem => areCommonNames name (by simp [mem])
      obtain ⟨kept, popped, beginsFront, beginsNames, longest⟩ :=
        ih areFrontNames (by simpa using enough)
      refine ⟨kept, ?_, beginsFront.trans (prefix_append front [last]), beginsNames, ?_⟩
      · rw [popUntilAbove, if_neg, parent_render areCommonNames nonempty, dropLast_concat]
        · exact popped
        · rw [startsWithPath_render areNames areCommonNames]
          exact under
      · intro other begins beginsOther
        rcases prefix_concat_iff.mp begins with rfl | shorter
        · exact absurd beginsOther under
        · exact longest other shorter beginsOther

theorem length_le_render {names : List Str} (areNames : ∀ name ∈ names, IsName name) :
    names.length ≤ (render names).length := by
  induction names with
  | nil => exact Nat.le_refl 0
  | cons name rest ih =>
    have own := length_pos_iff.mpr (areNames name (by simp)).nonempty
    have others := ih fun other mem => areNames other (by simp [mem])
    by_cases last : rest = []
    · subst last
      rw [render_singleton]
      exact own
    · rw [render_cons last, length_append, length_cons, length_cons]
      omega

section

def Component.key (component : Component) : Nat ×ₗ Str := toLex (component.rank, component.name)

theorem Component.key_injective : Function.Injective key := by
  intro first second same
  have both := Prod.mk.inj (toLex.injective same)
  cases first <;> cases second <;> simp_all [rank, name]

theorem cons_le_cons_iff {Key : Type*} [LinearOrder Key] {first second : Key}
    {rest otherRest : List Key} :
    first :: rest ≤ second :: otherRest ↔ first < second ∨ first = second ∧ rest ≤ otherRest := by
  rw [← not_lt, cons_lt_cons_iff, ← not_lt]
  rcases lt_trichotomy first second with less | rfl | greater
  · simp [less, less.not_gt, less.ne']
  · simp
  · simp [greater, greater.not_gt, greater.ne']

theorem componentsLe_iff {first second : List Component} : componentsLe first second = true ↔
    first.map key ≤ second.map key := by
  induction first generalizing second with
  | nil =>
    have least (keys : List (Nat ×ₗ Str)) : [] ≤ keys := not_lt.mp (not_lt_nil keys)
    simp [componentsLe, least]
  | cons component _ ih =>
    cases second with
    | nil =>
      have greater (key : Nat ×ₗ Str) (keys : List (Nat ×ₗ Str)) :
          [] < key :: keys := nil_lt_cons key keys
      simp [componentsLe, greater]
    | cons other =>
      rw [componentsLe, map_cons, map_cons, cons_le_cons_iff]
      by_cases same : component = other
      · subst same
        rw [if_pos rfl, ih]
        simp
      · have apart : component.key ≠ other.key := fun equal => same (key_injective equal)
        have keys : component.key < other.key ↔
            component.rank < other.rank ∨ component.rank = other.rank ∧
              component.name ≤ other.name := by
          rw [lt_iff_le_and_ne, and_iff_left apart]
          exact Prod.Lex.le_iff
        rw [if_neg same, or_iff_left fun equal => apart equal.1, keys]
        simp

variable {first second : Str}

theorem pathLe_iff : pathLe first second = true ↔
    (components first).map key ≤ (components second).map key :=
  componentsLe_iff

theorem pathLe_total (first second : Str) :
    pathLe first second = true ∨ pathLe second first = true := by
  rw [pathLe_iff, pathLe_iff]
  exact le_total _ _

theorem pathLe_trans {first second third : Str} (before : pathLe first second = true)
    (after : pathLe second third = true) : pathLe first third = true := by
  rw [pathLe_iff] at before after ⊢
  exact le_trans before after

theorem pathLe_antisymm {first second : List Str} (areFirst : ∀ name ∈ first, IsName name)
    (areSecond : ∀ name ∈ second, IsName name)
    (before : pathLe (render first) (render second) = true)
    (after : pathLe (render second) (render first) = true) : first = second := by
  rw [pathLe_iff] at before after
  have same := map_injective_iff.mpr key_injective (le_antisymm before after)
  rw [components_render areFirst, components_render areSecond] at same
  have injective : Function.Injective normal :=
    fun _ _ => normal.inj
  exact map_injective_iff.mpr injective same

theorem le_of_pathLe_concat {front : List Str}
    (areNames : ∀ name ∈ front, IsName name) (isFirst : IsName first) (isSecond : IsName second)
    (before : pathLe (render (front ++ [first])) (render (front ++ [second])) = true) :
    first ≤ second := by
  have areFirst : ∀ name ∈ front ++ [first], IsName name := by
    intro name mem
    rcases mem_append.mp mem with inFront | last
    · exact areNames name inFront
    · exact mem_singleton.mp last ▸ isFirst
  have areSecond : ∀ name ∈ front ++ [second], IsName name := by
    intro name mem
    rcases mem_append.mp mem with inFront | last
    · exact areNames name inFront
    · exact mem_singleton.mp last ▸ isSecond
  rw [pathLe_iff, components_render areFirst, components_render areSecond] at before
  clear areNames areFirst areSecond
  induction front with
  | nil =>
    simp only [nil_append, map_singleton, cons_le_cons_iff] at before
    rcases before with less | ⟨same, -⟩
    · have keys := (Prod.Lex.le_iff).mp less.le
      simp only [key, rank, name, ofLex_toLex,
        lt_self_iff_false, true_and, false_or] at keys
      exact keys
    · have both := normal.inj (key_injective same)
      exact le_of_eq both
  | cons name front ih =>
    simp only [cons_append, map_cons, cons_le_cons_iff,
      lt_self_iff_false, true_and, false_or] at before
    exact ih before

end

end Arclain.UnixPath
