import Arclain.ContentRootChoice
import Arclain.EntryTreePruning
import Arclain.PlanMoves

namespace Arclain.PlanBuilder

/-!
# The content root of an output

Where no folder scores two, a placement of the content root takes the common
folder of the files of an output, which is above every one of them, so it carries
every file.
-/

open List Text Fallible OutputResolution ContentRoot UnixPath ScopedEntry

theorem underDirectory_of_prefix {path directory : Str} (leads : directory ++ ['/'] <+: path) :
    underDirectory path directory = true := by
  obtain ⟨rest, rfl⟩ := leads
  have front : (directory ++ ['/'] ++ rest).take directory.length = directory := by
    rw [append_assoc, take_left]
  have slash : (directory ++ ['/'] ++ rest)[directory.length]? = some '/' := by
    rw [append_assoc, List.getElem?_append_right (Nat.le_refl _), Nat.sub_self]
    rfl
  simp only [underDirectory, front, slash, Bool.and_eq_true, decide_eq_true_eq]
  refine ⟨⟨?_, ?_⟩, trivial⟩
  · simp
  · exact beq_self_eq_true _

theorem forwardSlashes_of_covers {directory path : Str} (covers : Covers directory path)
    (noBackslash : '\\' ∉ path) : forwardSlashes directory = directory := by
  refine forwardSlashes_eq_self fun mem => ?_
  rcases covers with rfl | leads
  · cases mem
  · exact noBackslash (leads.subset (mem_append_left ['/'] mem))

section

variable [CharTables]

theorem firstMove_contentRoot {output : ResolvedOutput} {files : List ScopedEntry}
    {placement : Placement}
    (canonical : ∀ entry ∈ files.map relative, Canonical entry.path)
    (noneAbove : NoneAbove (files.map relative))
    (unconvincing : ∀ dir, score (files.map relative) dir < 2)
    (fromRoot : placement.source = .contentRoot) {file : ScopedEntry} (mem : file ∈ files) :
    ∃ destination, firstMove output files [placement] file = some (file.source, destination) := by
  have relative : file.relative ∈ files.map ScopedEntry.relative := mem_map_of_mem mem
  have covers : Covers (commonRoot (files.map ScopedEntry.relative)) file.relative.path :=
    commonRoot_above canonical noneAbove relative
  have chosen : (detectContentRoot (files.map ScopedEntry.relative)).path =
      commonRoot (files.map ScopedEntry.relative) := by
    rcases detectContentRoot_spec canonical with
      ⟨dir, -, convincing, -, -⟩ | ⟨-, found⟩
    · exact absurd (unconvincing dir) (by omega)
    · rw [found]
  have isLocated : located files placement.source =
      commonRoot (files.map ScopedEntry.relative) := by
    rw [fromRoot, located, locate, map_map]
    simp only [Function.comp_def]
    rw [chosen]
    exact forwardSlashes_of_covers covers (canonical _ relative).2
  have accepts : (placementRoute output files placement).accepts file.relative.path = true := by
    simp only [placementRoute, routeOf, fromRoot]
    rw [← fromRoot, isLocated, Bool.or_eq_true, decide_eq_true_eq]
    exact covers.imp_right underDirectory_of_prefix
  rw [firstMove, List.find?_cons, accepts]
  exact ⟨_, rfl⟩

section

variable [Libraries]

/-- The content root is the smallest folder of the highest score from two on, or else a
folder above every entry. -/
theorem content_root_chosen {entries : List ArchiveEntry}
    (canonical : ∀ entry ∈ entries, Canonical entry.path) (noneAbove : NoneAbove entries) :
    (2 ≤ score entries (detectContentRoot entries).path ∧ (detectContentRoot entries).score =
      score entries (detectContentRoot entries).path ∧
        IsBest entries (detectContentRoot entries).path ∨
        (∀ dir, score entries dir < 2) ∧ ∀ entry ∈ entries,
          Covers (detectContentRoot entries).path entry.path) ∧
      (∀ other : List ArchiveEntry, other.Perm entries →
        detectContentRoot other = detectContentRoot entries) ∧
      (∀ other : List ArchiveEntry, other.Nodup → entries.Nodup →
        (∀ entry, entry ∈ other ↔ entry ∈ entries) →
          detectContentRoot other = detectContentRoot entries) ∧
      ((∀ dir, score entries dir < 2) →
        ∀ (layout : Layout) (placement : Placement) (archive : List ArchiveEntry)
          (metadata : Option GameMetadata) (output : ResolvedOutput) (filled : PlannedOutput),
          (scopeEntries output.root archive).map relative = entries →
          layout.place = [placement] → placement.source = .contentRoot →
          fillOutput layout archive metadata output = .ok filled → (filled.moves.map Prod.fst).Perm
            ((scopeEntries output.root archive).map source)) := by
  have ordered (other : List ArchiveEntry) (same : other.Perm entries) :
      detectContentRoot other = detectContentRoot entries :=
    detectContentRoot_perm canonical noneAbove same
  refine ⟨?_, ordered, ?_, ?_⟩
  · rcases detectContentRoot_spec canonical with
      ⟨dir, -, convincing, best, chosen⟩ | ⟨unconvincing, chosen⟩
    · rw [chosen]
      exact .inl ⟨convincing, rfl, best⟩
    · rw [chosen]
      exact .inr ⟨unconvincing, fun _ => commonRoot_above canonical noneAbove⟩
  · intro other otherDistinct distinct sameMembers
    exact ordered other ((perm_ext_iff_of_nodup otherDistinct distinct).mpr sameMembers)
  · intro unconvincing layout placement archive metadata output filled isScoped
      single fromRoot succeeded
    obtain ⟨moved, -⟩ := moves_of_fillOutput succeeded
    subst isScoped
    rw [single] at moved
    refine (moved.map Prod.fst).trans (List.Perm.of_eq ?_)
    rw [map_filterMap, ← filterMap_eq_map]
    refine filterMap_congr fun file mem => ?_
    obtain ⟨_, isMoved⟩ :=
      firstMove_contentRoot canonical noneAbove unconvincing fromRoot mem
    rw [isMoved]
    rfl

end

end

theorem canonical_of_accepted {path : Str}
    (accepted : (CheckedRelativePath.new path).toOption.isSome = true) (noBackslash : '\\' ∉ path) :
    Canonical path := by
  refine ⟨?_, noBackslash⟩
  cases created : CheckedRelativePath.new path with
  | ok checked => exact ⟨checked, rfl⟩
  | error error =>
    rw [created] at accepted
    cases accepted

/-- The folder of a page with scripts is the content root, whichever file is
listed first. -/
theorem content_root_chosen_page : @detectContentRoot asciiTables
    [listedFile "game/js/main.js" 4, listedFile "readme.txt" 3, listedFile "game/index.html" 5] =
      @detectContentRoot asciiTables
        [listedFile "game/index.html" 5, listedFile "game/js/main.js" 4,
          listedFile "readme.txt" 3] := by
  refine (@content_root_chosen asciiTables quietLibraries _ ?_ ?_).2.1 _ (by decide +kernel)
  · intro entry _
    refine canonical_of_accepted ?_ ?_
    · revert entry
      decide +kernel
    · revert entry
      decide +kernel
  · intro first _ second _
    revert first second
    decide +kernel

/-- An entry that is listed twice is an indicator twice. -/
theorem content_root_repeated_entry : @detectContentRoot asciiTables
    [listedFile "a/index.html" 5, listedFile "a/index.html" 5, listedFile "b/x" 5] ≠
      @detectContentRoot asciiTables [listedFile "a/index.html" 5, listedFile "b/x" 5] ∧
      (∀ entry, entry ∈ [listedFile "a/index.html" 5, listedFile "a/index.html" 5,
        listedFile "b/x" 5] ↔ entry ∈ [listedFile "a/index.html" 5, listedFile "b/x" 5]) ∧
      Canonical (listedFile "a/index.html" 5).path ∧ Canonical (listedFile "b/x" 5).path ∧
      NoneAbove [listedFile "a/index.html" 5, listedFile "a/index.html" 5, listedFile "b/x" 5] := by
  refine ⟨by decide +kernel, by simp, canonical_of_accepted (by decide +kernel) (by decide +kernel),
    canonical_of_accepted (by decide +kernel) (by decide +kernel), ?_⟩
  intro first _ second _
  revert first second
  decide +kernel

end Arclain.PlanBuilder
