import Arclain.CanonicalPath
import Arclain.ContentRoot

namespace Arclain.ContentRoot

/-!
# What a folder scores

The evidence of a folder is assembled in maps keyed by paths, in three passes.  On canonical
paths it is a function of the folder and of the entries below it.
-/

open List Text UnixPath

/-! ## The specification -/

def below (dir path : Str) : Option (List Str) :=
  if dir = [] then some (path.splitOn '/')
  else if startsWith path (dir ++ ['/']) then some ((path.drop (dir.length + 1)).splitOn '/')
  else none

def directName (dir : Str) (entry : ArchiveEntry) : Option Str :=
  match below dir entry.path with
  | some [name] => some name
  | _ => none

def subfolder (dir : Str) (entry : ArchiveEntry) : Option Str :=
  match below dir entry.path with
  | some (name :: _ :: _) => some name
  | _ => none

def indicators (entries : List ArchiveEntry) (dir : Str) : List Str :=
  (entries.filterMap (directName dir)).filter isIndicator

/-- The sub-folders of a folder that are indicators by name, each once. -/
def subfolders (entries : List ArchiveEntry) (dir : Str) : List Str :=
  (entries.filterMap (subfolder dir)).dedup.filter isIndicator

def smallest (names : List Str) : Option Str :=
  names.foldl (fun found name => some (if name < found.getD name then name else found.getD name))
    none

section

variable [CharTables]

def executablesIn (entries : List ArchiveEntry) (dir : Str) : List Str :=
  ((entries.filter fun entry => !entry.isDir).filterMap (directName dir)).filter
    fun name => endsWith (CharTables.toLowercase name) ".exe".toList

/-- What a folder scores: one for each indicator, one for an executable, and one
for each sub-folder that is an indicator. -/
def score (entries : List ArchiveEntry) (dir : Str) : Nat :=
  (indicators entries dir).length + (if executablesIn entries dir = [] then 0 else 1) +
    (subfolders entries dir).length

def evidence (entries : List ArchiveEntry) (dir : Str) : List Str :=
  (indicators entries dir).insertionSort (· ≤ ·) ++
    (smallest (executablesIn entries dir)).toList.map (fun name =>
      "an executable (".toList ++ name ++ ")".toList) ++
      ((subfolders entries dir).insertionSort (· ≤ ·)).map fun name =>
        "a ".toList ++ name ++ "/ folder".toList

end

/-! ## Maps keyed by canonical folders -/

def Rendered (dir : Str) : Prop := ∃ names, (∀ name ∈ names, IsName name) ∧ dir = render names

theorem samePath_iff {first second : Str} (firstRendered : Rendered first)
    (secondRendered : Rendered second) : samePath first second = true ↔ first = second := by
  obtain ⟨_, areNames, rfl⟩ := firstRendered
  obtain ⟨_, areOthers, rfl⟩ := secondRendered
  constructor
  · intro same
    rw [(samePath_render areNames areOthers).mp same]
  · intro same
    rw [samePath, same]
    exact decide_eq_true rfl

section

variable {Value : Type*}

def valueAt (map : List (Str × Value)) (dir : Str) : Option Value :=
  (map.find? fun entry => entry.1 = dir).map Prod.snd

/-- A map with canonical folders for keys, each once. -/
structure Keyed (map : List (Str × Value)) : Prop where
  rendered : ∀ entry ∈ map, Rendered entry.1
  distinct : (map.map Prod.fst).Nodup

variable {map : List (Str × Value)} {path : Str}

theorem valueAt_upsert (default : Value) (change : Value → Value)
    (rendered : ∀ entry ∈ map, Rendered entry.1) (isRendered : Rendered path) (dir : Str) :
    valueAt (upsert map path default change) dir =
      if dir = path then some (change ((valueAt map path).getD default))
      else
        valueAt map dir := by
  induction map with
  | nil =>
    by_cases same : dir = path
    · subst same
      simp [upsert, valueAt]
    · simp [upsert, valueAt, same, Ne.symm same]
  | cons entry _ ih =>
    obtain ⟨known, value⟩ := entry
    have isKnown := rendered (known, value) mem_cons_self
    have later := ih fun entry mem => rendered entry (mem_cons_of_mem _ mem)
    simp only [valueAt] at later
    by_cases own : known = path
    · subst own
      rw [upsert, if_pos ((samePath_iff isKnown isRendered).mpr rfl)]
      by_cases same : dir = known
      · subst same
        simp [valueAt]
      · simp [valueAt, same, Ne.symm same]
    · rw [upsert, if_neg fun equal => own ((samePath_iff isKnown isRendered).mp equal)]
      by_cases isDir : known = dir
      · subst isDir
        simp [valueAt, own]
      · simp only [valueAt, List.find?_cons, isDir, own, decide_false]
        exact later

theorem keys_upsert (default : Value) (change : Value → Value)
    (rendered : ∀ entry ∈ map, Rendered entry.1) (isRendered : Rendered path) :
    (upsert map path default change).map Prod.fst =
      if path ∈ map.map Prod.fst then map.map Prod.fst
      else
        map.map Prod.fst ++ [path] := by
  induction map with
  | nil => rfl
  | cons entry _ ih =>
    obtain ⟨known, value⟩ := entry
    have isKnown := rendered (known, value) mem_cons_self
    have later := ih fun entry mem => rendered entry (mem_cons_of_mem _ mem)
    by_cases own : known = path
    · subst own
      rw [upsert, if_pos ((samePath_iff isKnown isRendered).mpr rfl)]
      simp
    · rw [upsert, if_neg fun equal => own ((samePath_iff isKnown isRendered).mp equal)]
      have other : ¬ path = known := Ne.symm own
      simp only [map_cons, later, mem_cons, other, false_or]
      split <;> rfl

theorem Keyed.upsert {default : Value} {change : Value → Value} (keyed : Keyed map)
    (isRendered : Rendered path) : Keyed (upsert map path default change) := by
  have keys := keys_upsert default change keyed.rendered isRendered
  constructor
  · intro entry mem
    have isKey : entry.1 ∈ (UnixPath.upsert map path default change).map Prod.fst :=
      List.mem_map_of_mem mem
    have known : entry.1 ∈ map.map Prod.fst ∨ entry.1 = path := by
      rw [keys] at isKey
      split at isKey
      · exact .inl isKey
      · simpa using isKey
    rcases known with old | rfl
    · obtain ⟨other, listed, same⟩ := List.mem_map.mp old
      rw [← same]
      exact keyed.rendered other listed
    · exact isRendered
  · rw [keys]
    split
    · exact keyed.distinct
    next fresh =>
      exact nodup_append'.mpr ⟨keyed.distinct, nodup_singleton path, by simpa using fresh⟩

def upsertAll (start : List (Str × Value))
    (updates : List (Str × Value × (Value → Value))) : List (Str × Value) :=
  updates.foldl (fun map update => upsert map update.1 update.2.1 update.2.2) start

variable {start : List (Str × Value)} {updates : List (Str × Value × (Value → Value))}

theorem valueAt_upsertAll (keyed : Keyed start) (rendered : ∀ update ∈ updates, Rendered update.1) :
    Keyed (upsertAll start updates) ∧ ∀ dir, valueAt (upsertAll start updates) dir =
      (updates.filter fun update => update.1 = dir).foldl
        (fun value update => some (update.2.2 (value.getD update.2.1)))
        (valueAt start dir) := by
  induction updates generalizing start with
  | nil => exact ⟨keyed, fun _ => rfl⟩
  | cons update updates ih =>
    have isRendered := rendered update mem_cons_self
    obtain ⟨keyedAfter, values⟩ :=
      ih (keyed.upsert isRendered) fun other mem => rendered other (mem_cons_of_mem _ mem)
    refine ⟨keyedAfter, fun dir => ?_⟩
    rw [upsertAll, foldl_cons]
    rw [upsertAll] at values
    rw [values dir, valueAt_upsert _ _ keyed.rendered isRendered]
    by_cases same : update.1 = dir
    · subst same
      simp
    · simp [same, Ne.symm same]

theorem mem_keys_upsertAll (keyed : Keyed start)
    (rendered : ∀ update ∈ updates, Rendered update.1) {dir : Str} :
    dir ∈ (upsertAll start updates).map Prod.fst ↔
      dir ∈ start.map Prod.fst ∨ dir ∈ updates.map Prod.fst := by
  induction updates generalizing start with
  | nil => simp [upsertAll]
  | cons update updates ih =>
    have isRendered := rendered update mem_cons_self
    have later :=
      ih (@Keyed.upsert _ _ _ update.2.1 update.2.2 keyed isRendered)
        fun other mem => rendered other (mem_cons_of_mem _ mem)
    rw [upsertAll, foldl_cons]
    rw [upsertAll] at later
    rw [later, keys_upsert _ _ keyed.rendered isRendered, map_cons, mem_cons]
    split
    next present =>
      constructor
      · rintro (old | new)
        · exact .inl old
        · exact .inr (.inr new)
      · rintro (old | rfl | new)
        · exact .inl old
        · exact .inl present
        · exact .inr new
    · rw [mem_append, mem_singleton, or_assoc]

theorem keyed_nil : Keyed ([] : List (Str × Value)) where
  rendered := by
    intro _ mem
    cases mem
  distinct := nodup_nil

theorem filter_keyed (keyed : Keyed map) (dir : Str) : (map.filter fun entry => entry.1 = dir) =
    (valueAt map dir).toList.map fun value => (dir, value) := by
  have distinct := keyed.distinct
  clear keyed
  induction map with
  | nil => rfl
  | cons entry rest ih =>
    obtain ⟨known, value⟩ := entry
    obtain ⟨fresh, distinctRest⟩ := nodup_cons.mp distinct
    have later := ih distinctRest
    by_cases same : known = dir
    · subst same
      have none : (rest.filter fun entry => entry.1 = known) = [] := by
        rw [filter_eq_nil_iff]
        intro entry mem isSame
        exact fresh (List.mem_map.mpr ⟨entry, mem, of_decide_eq_true isSame⟩)
      simp [valueAt, none]
    · simpa [valueAt, same] using later

theorem filter_map_keyed {Update : Type*} (keyed : Keyed map) (make : Value → Update) (dir : Str) :
    ((map.map fun entry => (entry.1, make entry.2)).filter fun update => update.1 = dir) =
      (valueAt map dir).toList.map fun value => (dir, make value) := by
  have ofEntries :=
    congrArg (List.map fun entry : Str × Value => (entry.1, make entry.2)) (filter_keyed keyed dir)
  rw [List.map_map] at ofEntries
  rw [List.filter_map]
  exact ofEntries

theorem mem_iff_valueAt (keyed : Keyed map) {dir : Str} {value : Value} :
    (dir, value) ∈ map ↔ valueAt map dir = some value := by
  have listed : (dir, value) ∈ map.filter (fun entry => entry.1 = dir) ↔ (dir, value) ∈ map := by
    simp
  rw [← listed, filter_keyed keyed]
  simp

end

/-! ## Entries with canonical paths -/

def namesOf (path : Str) : List Str := path.splitOn '/'

theorem namesOf_canonical {path : Str} (canonical : Canonical path) :
    namesOf path ≠ [] ∧ (∀ name ∈ namesOf path, IsName name) ∧ path = render (namesOf path) := by
  obtain ⟨_, nonempty, areNames, rfl⟩ := names_of_canonical canonical
  rw [namesOf, splitOn_render areNames nonempty]
  exact ⟨nonempty, areNames, rfl⟩

theorem below_eq_some_iff {dir path : Str} {rest : List Str} (canonical : Canonical path) :
    below dir path = some rest ↔
      ∃ front, namesOf path = front ++ rest ∧ rest ≠ [] ∧ dir = render front := by
  obtain ⟨nonempty, areNames, written⟩ := namesOf_canonical canonical
  constructor
  · intro found
    rw [below] at found
    split at found
    next atTop =>
      obtain rfl := Option.some.inj found
      exact ⟨[], rfl, nonempty, atTop⟩
    · split at found
      next starts =>
        obtain ⟨tail, rfl⟩ := isPrefixOf_iff_prefix.mp starts
        have remaining : (dir ++ ['/'] ++ tail).drop (dir.length + 1) = tail := by
          rw [← length_singleton (a := '/'), ← length_append, drop_left]
        rw [remaining] at found
        obtain rfl := Option.some.inj found
        refine ⟨dir.splitOn '/', ?_, splitOn_ne_nil _ _, (intercalate_splitOn '/').symm⟩
        rw [namesOf, append_assoc, singleton_append, splitOn_append_cons_self]
      · cases found
  · rintro ⟨front, names, more, rfl⟩
    have areRest : ∀ name ∈ rest, IsName name :=
      fun name mem => areNames name (by simp [names, mem])
    have areFront : ∀ name ∈ front, IsName name :=
      fun name mem => areNames name (by simp [names, mem])
    by_cases atTop : front = []
    · subst atTop
      rw [below, if_pos render_nil]
      exact congrArg some names
    · have path_eq : path = render front ++ '/' :: render rest := by
        rw [written, names, render_append atTop more]
      have starts : startsWith path (render front ++ ['/']) = true := by
        rw [path_eq]
        exact isPrefixOf_iff_prefix.mpr ⟨render rest, by simp⟩
      have remaining : path.drop ((render front).length + 1) = render rest := by
        rw [path_eq, append_cons,
          show (render front).length + 1 = (render front ++ ['/']).length by simp,
          drop_left]
      rw [below, if_neg (render_ne_nil areFront atTop), if_pos starts, remaining,
        splitOn_render areRest more]

variable {dir name : Str} {entry : ArchiveEntry}

theorem directName_iff (canonical : Canonical entry.path) :
    directName dir entry = some name ↔ parentAndName entry = some (dir, name) := by
  obtain ⟨nonempty, areNames, written⟩ := namesOf_canonical canonical
  have direct : directName dir entry = some name ↔ below dir entry.path = some [name] := by
    rw [directName]
    split
    next other found =>
      rw [found]
      simp
    next other =>
      constructor
      · intro impossible
        cases impossible
      · intro found
        exact absurd found (other name)
  have parts : parentAndName entry = some (render (namesOf entry.path).dropLast,
      (namesOf entry.path).getLast nonempty) := by
    have isParent := parent_render areNames nonempty
    have isName := fileName_render areNames
    rw [← written] at isParent isName
    rw [parentAndName, isParent, isName, List.getLast?_eq_some_getLast nonempty]
  rw [direct, below_eq_some_iff canonical, parts]
  constructor
  · rintro ⟨_, names, -, rfl⟩
    simp [names]
  · intro same
    obtain ⟨rfl, rfl⟩ := Prod.mk.inj (Option.some.inj same)
    exact ⟨_, (dropLast_append_getLast nonempty).symm, by simp, rfl⟩

theorem rendered_parent (canonical : Canonical entry.path)
    (parts : parentAndName entry = some (dir, name)) : Rendered dir := by
  obtain ⟨-, areNames, -⟩ := namesOf_canonical canonical
  rw [← directName_iff canonical, directName] at parts
  split at parts
  next found =>
    obtain ⟨front, names, -, rfl⟩ := (below_eq_some_iff canonical).mp found
    exact ⟨front, fun other mem => areNames other (by simp [names, mem]), rfl⟩
  · cases parts

def noted (evidence : List Str) : Option (List Str) := if evidence = [] then none else some evidence

theorem foldl_noted {Item : Type*} (piece : Item → Str) (evidence : List Str) (items : List Item) :
    items.foldl (fun found item => some (found.getD [] ++ [piece item])) (noted evidence) =
      noted (evidence ++ items.map piece) := by
  induction items generalizing evidence with
  | nil => simp
  | cons item items ih =>
    have step : some ((noted evidence).getD [] ++ [piece item]) =
        noted (evidence ++ [piece item]) := by
      by_cases empty : evidence = []
      · simp [noted, empty]
      · simp [noted, empty]
    rw [foldl_cons, step, ih, map_cons, append_assoc]
    rfl

abbrev creditIndicators (folder : Str × List Str) : Str × List Str × (List Str → List Str) :=
  (folder.1, [], fun evidence => evidence ++ folder.2.insertionSort (· ≤ ·))

abbrev creditExecutable (folder : Str × Str) : Str × List Str × (List Str → List Str) :=
  (folder.1, [], fun evidence => evidence ++ ["an executable (".toList ++ folder.2 ++ ")".toList])

abbrev creditImplied (dir : Str) : Option (Str × List Str × (List Str → List Str)) :=
  match parent dir, fileName dir with
  | some folder, some name =>
    if isIndicator name then
      some (folder, [], fun evidence => evidence ++ ["a ".toList ++ name ++ "/ folder".toList])
    else none
  | _, _ => none

def creditedName (dir implied : Str) : Option Str :=
  match parent implied, fileName implied with
  | some folder, some name => if isIndicator name ∧ folder = dir then some name else none
  | _, _ => none

theorem creditedName_iff {names : List Str} (areNames : ∀ name ∈ names, IsName name)
    (nonempty : names ≠ []) :
    creditedName dir (render names) = some name ↔ isIndicator name = true ∧
      ∃ front, names = front ++ [name] ∧ dir = render front := by
  obtain ⟨front, _, rfl⟩ := (eq_nil_or_concat' names).resolve_left nonempty
  rw [creditedName, parent_render areNames nonempty, fileName_render areNames,
    dropLast_concat, List.getLast?_concat]
  simp only [Option.ite_none_right_eq_some, Option.some.injEq]
  constructor
  · rintro ⟨⟨indicates, rfl⟩, rfl⟩
    exact ⟨indicates, front, rfl, rfl⟩
  · rintro ⟨indicates, _, same, rfl⟩
    obtain ⟨rfl, sameLast⟩ := append_inj' same rfl
    obtain rfl := singleton_inj.mp sameLast
    exact ⟨⟨indicates, rfl⟩, rfl⟩

theorem pairwise_sorted (names : List Str) : (names.insertionSort (· ≤ ·)).Pairwise (· ≤ ·) :=
  pairwise_insertionSort _ _

theorem insertionSort_perm {first second : List Str} (same : first.Perm second) :
    first.insertionSort (· ≤ ·) = second.insertionSort (· ≤ ·) := by
  have sorted :=
    (perm_insertionSort (· ≤ ·) first).trans (same.trans (perm_insertionSort (· ≤ ·) second).symm)
  exact sorted.eq_of_pairwise (fun _ _ _ _ => le_antisymm) (pairwise_sorted first)
    (pairwise_sorted second)

section

variable {entries : List ArchiveEntry} (canonical : ∀ entry ∈ entries, Canonical entry.path)

include canonical

variable {selected : List ArchiveEntry}

theorem filterMap_directName {Value : Type*}
    (among : selected ⊆ entries) (test : Str → Bool) (make : Str → Value) (dir : Str) :
    ((selected.filterMap fun entry =>
      match parentAndName entry with
      | some (folder, name) => if test name then some (folder, make name) else none
      | none => none).filter fun update => update.1 = dir) =
      ((selected.filterMap (directName dir)).filter test).map fun name =>
        (dir, make name) := by
  induction selected with
  | nil => rfl
  | cons entry selected ih =>
    have later := ih fun other mem => among (mem_cons_of_mem entry mem)
    have isCanonical := canonical entry (among mem_cons_self)
    rw [filterMap_cons, filterMap_cons]
    cases parts : parentAndName entry with
    | none =>
      have notDirect : directName dir entry = none := by
        rw [Option.eq_none_iff_forall_ne_some]
        intro name direct
        rw [directName_iff isCanonical, parts] at direct
        cases direct
      simpa [notDirect] using later
    | some both =>
      obtain ⟨folder, name⟩ := both
      by_cases same : folder = dir
      · subst same
        have direct := (directName_iff isCanonical).mpr parts
        cases accepted : test name with
        | true | false => simpa [direct, accepted] using later
      · have notDirect : directName dir entry = none := by
          rw [Option.eq_none_iff_forall_ne_some]
          intro other direct
          rw [directName_iff isCanonical, parts] at direct
          exact same (Prod.mk.inj (Option.some.inj direct)).1
        cases accepted : test name with
        | true => simpa [notDirect, accepted, same] using later
        | false => simpa [notDirect, accepted] using later

theorem impliedDirs_spec : (impliedDirs entries).Nodup ∧
    (impliedDirs entries).Pairwise (fun first second => pathLe first second = true) ∧
    ∀ dir, dir ∈ impliedDirs entries ↔ ∃ entry ∈ entries, ∃ front last rest,
      namesOf entry.path = front ++ last :: rest ∧ front ≠ [] ∧ dir = render front := by
  have above {entry : ArchiveEntry} (mem : entry ∈ entries) (dir : Str) :
      dir ∈ parents (entry.path.length + 1) entry.path ↔
        ∃ front last rest, namesOf entry.path = front ++ last :: rest ∧
          front ≠ [] ∧ dir = render front := by
    obtain ⟨-, areNames, written⟩ := namesOf_canonical (canonical entry mem)
    have enough : (namesOf entry.path).length ≤ entry.path.length + 1 := by
      have bound := length_le_render areNames
      rw [← written] at bound
      omega
    have listed := @mem_parents_render_iff (namesOf entry.path) dir _ areNames enough
    rw [← written] at listed
    rw [listed]
    constructor
    · rintro ⟨front, last, nonempty, ⟨rest, names⟩, rfl⟩
      exact ⟨front, last, rest, by simp [← names], nonempty, rfl⟩
    · rintro ⟨front, last, rest, names, nonempty, rfl⟩
      exact ⟨front, last, nonempty, ⟨rest, by simp [names]⟩, rfl⟩
  have rendered : ∀ update ∈ (entries.flatMap fun entry =>
    parents (entry.path.length + 1) entry.path).map
      fun dir => ((dir, (), id) : Str × Unit × (Unit → Unit)), Rendered update.1 := by
    intro update mem
    obtain ⟨dir, listed, rfl⟩ := List.mem_map.mp mem
    obtain ⟨entry, inEntries, isAbove⟩ := mem_flatMap.mp listed
    obtain ⟨front, last, rest, names, -, rfl⟩ := (above inEntries dir).mp isAbove
    obtain ⟨-, areNames, -⟩ := namesOf_canonical (canonical entry inEntries)
    exact ⟨front, fun name inFront => areNames name (by simp [names, inFront]), rfl⟩
  have keys := @mem_keys_upsertAll Unit [] _ keyed_nil rendered
  obtain ⟨keyed, -⟩ := valueAt_upsertAll keyed_nil rendered
  have written : impliedDirs entries = ((upsertAll [] ((entries.flatMap fun entry =>
    parents (entry.path.length + 1) entry.path).map
      fun dir => ((dir, (), id) : Str × Unit × (Unit → Unit)))).map
        Prod.fst).insertionSort fun first second => pathLe first second := by
    rw [impliedDirs, upsertAll, foldl_map]
  rw [written]
  have total : Std.Total fun first second : Str => pathLe first second = true := ⟨pathLe_total⟩
  have transitive : IsTrans Str fun first second => pathLe first second = true :=
    ⟨fun _ _ _ => pathLe_trans⟩
  refine ⟨?_, pairwise_insertionSort _ _, fun dir => ?_⟩
  · exact (perm_insertionSort _ _).nodup_iff.mpr keyed.distinct
  · rw [mem_insertionSort]
    rw [keys, List.map_map]
    simp only [map_nil, not_mem_nil, false_or, Function.comp_def, List.map_id']
    rw [mem_flatMap]
    exact exists_congr fun entry => and_congr_right fun mem => above mem dir

theorem filterMap_creditedName (dir : Str) : (impliedDirs entries).filterMap (creditedName dir) =
    (subfolders entries dir).insertionSort (· ≤ ·) := by
  obtain ⟨distinct, ordered, implied⟩ := impliedDirs_spec canonical
  have canonicalFolder {folder : Str} (mem : folder ∈ impliedDirs entries) :
      ∃ names, (∀ name ∈ names, IsName name) ∧ names ≠ [] ∧ folder = render names := by
    obtain ⟨entry, inEntries, front, last, rest, names, nonempty, rfl⟩ := (implied folder).mp mem
    obtain ⟨-, areNames, -⟩ := namesOf_canonical (canonical entry inEntries)
    exact ⟨front, fun name inFront => areNames name (by simp [names, inFront]), nonempty, rfl⟩
  have increasing : ((impliedDirs entries).filterMap (creditedName dir)).Pairwise (· < ·) := by
    refine pairwise_filterMap.mpr ?_
    refine (ordered.and distinct).imp_of_mem ?_
    rintro first second firstMember secondMember ⟨before, apart⟩ name credited other otherCredited
    obtain ⟨_, areFirst, firstNonempty, rfl⟩ := canonicalFolder firstMember
    obtain ⟨_, areSecond, secondNonempty, rfl⟩ := canonicalFolder secondMember
    obtain ⟨-, front, rfl, inDir⟩ := (creditedName_iff areFirst firstNonempty).mp credited
    obtain ⟨-, otherFront, rfl, otherInDir⟩ :=
      (creditedName_iff areSecond secondNonempty).mp otherCredited
    have areFront : ∀ part ∈ front, IsName part :=
      fun part mem => areFirst part (by simp [mem])
    have areOtherFront : ∀ part ∈ otherFront, IsName part :=
      fun part mem => areSecond part (by simp [mem])
    obtain rfl : front = otherFront := by
      refine (samePath_render areFront areOtherFront).mp ?_
      rw [← inDir, ← otherInDir]
      exact decide_eq_true rfl
    refine lt_of_le_of_ne ?_ ?_
    · exact le_of_pathLe_concat areFront (areFirst name (by simp))
        (areSecond other (by simp)) before
    · rintro rfl
      exact apart rfl
  have sameMembers (name : Str) : name ∈ (impliedDirs entries).filterMap (creditedName dir) ↔
      name ∈ (subfolders entries dir).insertionSort (· ≤ ·) := by
    rw [mem_insertionSort, mem_filterMap, subfolders, mem_filter, mem_dedup, mem_filterMap]
    constructor
    · rintro ⟨folder, mem, credited⟩
      obtain ⟨entry, inEntries, front, last, rest, names, nonempty, rfl⟩ :=
        (implied folder).mp mem
      have isCanonical := canonical entry inEntries
      obtain ⟨-, areNames, -⟩ := namesOf_canonical isCanonical
      have areFront : ∀ part ∈ front, IsName part :=
        fun part inFront => areNames part (by simp [names, inFront])
      obtain ⟨indicates, start, rfl, rfl⟩ := (creditedName_iff areFront nonempty).mp credited
      have isBelow : below (render start) entry.path = some (name :: last :: rest) :=
        (below_eq_some_iff isCanonical).mpr ⟨start, by simp [names], by simp, rfl⟩
      exact ⟨⟨entry, inEntries, by rw [subfolder, isBelow]⟩, indicates⟩
    · rintro ⟨⟨entry, inEntries, inFolder⟩, indicates⟩
      have isCanonical := canonical entry inEntries
      obtain ⟨-, areNames, -⟩ := namesOf_canonical isCanonical
      rw [subfolder] at inFolder
      split at inFolder
      next found next rest isBelow =>
        obtain rfl := Option.some.inj inFolder
        obtain ⟨front, names, -, rfl⟩ := (below_eq_some_iff isCanonical).mp isBelow
        have areFolder : ∀ part ∈ front ++ [found], IsName part :=
          fun part mem => areNames part (by
            rw [names]
            rcases mem_append.mp mem with inFront | isLast
            · exact mem_append_left _ inFront
            · simp [mem_singleton.mp isLast])
        refine ⟨render (front ++ [found]), (implied _).mpr
          ⟨entry, inEntries, front ++ [found], next, rest, by simp [names], by simp, rfl⟩, ?_⟩
        exact (creditedName_iff areFolder (by simp)).mpr ⟨indicates, front, rfl, rfl⟩
      · cases inFolder
  have distinctSubfolders : (subfolders entries dir).Nodup := (nodup_dedup _).filter _
  have samePerm :=
    (perm_ext_iff_of_nodup (increasing.imp fun less => less.ne)
      ((perm_insertionSort (· ≤ ·) _).nodup_iff.mpr distinctSubfolders)).mpr
      sameMembers
  exact samePerm.eq_of_pairwise (fun _ _ _ _ => le_antisymm)
    (increasing.imp fun less => less.le) (pairwise_sorted _)

theorem rendered_of_filterMap {Value : Type*}
    (among : selected ⊆ entries) {test : Str → Bool} {make : Str → Value} {update : Str × Value}
    (mem : update ∈ selected.filterMap fun entry =>
      match parentAndName entry with
      | some (folder, name) => if test name then some (folder, make name) else none
      | none => none) :
    Rendered update.1 := by
  obtain ⟨entry, listed, made⟩ := mem_filterMap.mp mem
  split at made
  next folder name parts =>
    rw [Option.ite_none_right_eq_some] at made
    rw [← Option.some.inj made.2]
    exact rendered_parent (canonical entry (among listed)) parts
  · cases made

theorem namedIndicators_spec : Keyed (namedIndicators entries) ∧
    ∀ dir, valueAt (namedIndicators entries) dir = noted (indicators entries dir) := by
  have written : namedIndicators entries = upsertAll [] (entries.filterMap fun entry =>
    match parentAndName entry with
    | some (folder, name) =>
      if isIndicator name then some (folder, ([] : List Str), fun names => names ++ [name])
      else none
    | none => none) := by
    rw [namedIndicators, upsertAll, foldl_filterMap]
    congr 1
    funext named entry
    cases parentAndName entry with
    | none => rfl
    | some parts =>
      obtain ⟨folder, name⟩ := parts
      by_cases accepted : isIndicator name = true
      · simp [accepted]
      · simp [accepted]
  rw [written]
  obtain ⟨keyed, values⟩ :=
    valueAt_upsertAll keyed_nil fun update mem =>
      rendered_of_filterMap canonical (List.Subset.refl entries) mem
  refine ⟨keyed, fun dir => ?_⟩
  rw [values, filterMap_directName canonical (List.Subset.refl entries), foldl_map]
  have collected := foldl_noted id [] (indicators entries dir)
  rw [List.map_id, nil_append] at collected
  exact collected

theorem executables_spec [CharTables] : Keyed (executables entries) ∧
    ∀ dir, valueAt (executables entries) dir = smallest (executablesIn entries dir) := by
  have written : executables entries =
      upsertAll [] ((entries.filter fun entry => !entry.isDir).filterMap fun entry =>
        match parentAndName entry with
        | some (folder, name) =>
          if endsWith (CharTables.toLowercase name) ".exe".toList then
            some (folder, name, fun found => if name < found then name else found)
          else none
        | none => none) := by
    rw [executables, upsertAll, foldl_filterMap, foldl_filter]
    congr 1
    funext found entry
    cases entry.isDir with
    | true => cases parentAndName entry <;> rfl
    | false =>
      cases parentAndName entry with
      | none => rfl
      | some parts =>
        obtain ⟨folder, name⟩ := parts
        by_cases accepted : endsWith (CharTables.toLowercase name) ".exe".toList = true
        · simp only [accepted, Bool.not_false, Bool.and_true, if_true]
        · simp only [accepted, Bool.not_false, Bool.true_and, if_true, Bool.false_eq_true, if_false]
  have among : (entries.filter fun entry => !entry.isDir) ⊆ entries :=
    fun entry mem => (mem_filter.mp mem).1
  rw [written]
  obtain ⟨keyed, values⟩ :=
    valueAt_upsertAll keyed_nil fun _ => rendered_of_filterMap canonical among
  refine ⟨keyed, fun dir => ?_⟩
  rw [values, filterMap_directName canonical among, foldl_map]
  rfl

theorem scoredFolders_spec [CharTables] : Keyed (scoredFolders entries) ∧
    ∀ dir, valueAt (scoredFolders entries) dir = noted (evidence entries dir) := by
  obtain ⟨namedKeyed, namedValues⟩ := namedIndicators_spec canonical
  obtain ⟨executableKeyed, executableValues⟩ := executables_spec canonical
  obtain ⟨-, -, implied⟩ := impliedDirs_spec canonical
  have written : scoredFolders entries = upsertAll (upsertAll (upsertAll []
      ((namedIndicators entries).map creditIndicators))
        ((executables entries).map creditExecutable))
          ((impliedDirs entries).filterMap creditImplied) := by
    rw [scoredFolders, upsertAll, upsertAll, upsertAll, foldl_map, foldl_map, foldl_filterMap]
    congr 1
    funext scored dir
    unfold creditImplied
    cases parent dir with
    | none => rfl
    | some folder =>
      cases fileName dir with
      | none => rfl
      | some name =>
        by_cases accepted : isIndicator name = true
        · simp [accepted]
        · simp [accepted]
  have namedRendered : ∀ update ∈ (namedIndicators entries).map creditIndicators,
      Rendered update.1 := by
    intro update mem
    obtain ⟨folder, listed, rfl⟩ := List.mem_map.mp mem
    exact namedKeyed.rendered folder listed
  have executableRendered : ∀ update ∈ (executables entries).map creditExecutable,
      Rendered update.1 := by
    intro update mem
    obtain ⟨folder, listed, rfl⟩ := List.mem_map.mp mem
    exact executableKeyed.rendered folder listed
  have impliedRendered : ∀ update ∈ (impliedDirs entries).filterMap creditImplied,
      Rendered update.1 := by
    intro update mem
    obtain ⟨dir, listed, made⟩ := mem_filterMap.mp mem
    obtain ⟨entry, inEntries, front, _, _, names, nonempty, rfl⟩ := (implied dir).mp listed
    obtain ⟨-, areNames, -⟩ := namesOf_canonical (canonical entry inEntries)
    have areFront : ∀ name ∈ front, IsName name :=
      fun name inFront => areNames name (by simp [names, inFront])
    rw [creditImplied, parent_render areFront nonempty] at made
    split at made
    next folder name isParent isName =>
      rw [Option.ite_none_right_eq_some] at made
      rw [← Option.some.inj made.2, ← Option.some.inj isParent]
      exact ⟨front.dropLast, fun name inFront => areFront name (mem_of_mem_dropLast inFront), rfl⟩
    · cases made
  have credited (dir : Str) : (((impliedDirs entries).filterMap creditImplied).filter
      fun update => update.1 = dir) =
        ((impliedDirs entries).filterMap (creditedName dir)).map fun name =>
          (dir, ([] : List Str), fun evidence =>
            evidence ++ ["a ".toList ++ name ++ "/ folder".toList]) := by
    rw [filter_filterMap, map_filterMap]
    congr 1
    funext implied
    rw [creditedName, creditImplied]
    cases parent implied with
    | none => rfl
    | some folder =>
      cases fileName implied with
      | none => rfl
      | some name =>
        by_cases accepted : isIndicator name = true
        · by_cases same : folder = dir
          · subst same
            simp [accepted]
          · simp [accepted, same]
        · simp [accepted]
  obtain ⟨keyedNames, valuesNames⟩ := valueAt_upsertAll keyed_nil namedRendered
  obtain ⟨keyedExecutables, valuesExecutables⟩ := valueAt_upsertAll keyedNames executableRendered
  obtain ⟨keyedAll, values⟩ := valueAt_upsertAll keyedExecutables impliedRendered
  rw [written]
  refine ⟨keyedAll, fun dir => ?_⟩
  have afterNames : (((namedIndicators entries).map creditIndicators).filter
      fun update => update.1 = dir).foldl
        (fun value update => some (update.2.2 (value.getD update.2.1)))
        (valueAt [] dir) =
        noted ((indicators entries dir).insertionSort (· ≤ ·)) := by
    rw [filter_map_keyed namedKeyed (fun names => (([] : List Str), fun evidence : List Str =>
      evidence ++ names.insertionSort (· ≤ ·))), namedValues]
    by_cases empty : indicators entries dir = []
    · simp [noted, empty, valueAt]
    · have nonempty : (indicators entries dir).insertionSort (· ≤ ·) ≠ [] := by
        rw [ne_eq, ← length_eq_zero_iff, length_insertionSort, length_eq_zero_iff]
        exact empty
      simp [noted, empty, nonempty, valueAt]
  have afterExecutables :=
    foldl_noted (fun name : Str => "an executable (".toList ++ name ++ ")".toList)
      ((indicators entries dir).insertionSort (· ≤ ·))
      (smallest (executablesIn entries dir)).toList
  have afterImplied :=
    foldl_noted (fun name : Str => "a ".toList ++ name ++ "/ folder".toList)
      ((indicators entries dir).insertionSort (· ≤ ·) ++
        (smallest (executablesIn entries dir)).toList.map fun name =>
          "an executable (".toList ++ name ++ ")".toList)
      ((subfolders entries dir).insertionSort (· ≤ ·))
  rw [values, valuesExecutables, valuesNames, afterNames, credited,
    filterMap_creditedName canonical, foldl_map,
    filter_map_keyed executableKeyed (fun name => (([] : List Str), fun evidence : List Str =>
      evidence ++ ["an executable (".toList ++ name ++ ")".toList])),
    executableValues, foldl_map, afterExecutables]
  exact afterImplied

end

end Arclain.ContentRoot
