import Arclain.PlanBuilder

namespace Arclain.PlanBuilder

/-!
# What a plan carries, it carries once

A file is offered to the placements of every output whose root covers it.  The roots are not
nested, so at most one output is offered a file; within it the first placement claims it.
-/

open List Text Fallible OutputResolution Except Prod

def relativePath (root source : Str) : Str :=
  if root = [] then forwardSlashes source
  else (forwardSlashes source).drop (root.length + 1)

theorem prefix_of_underRoot {path root : Str} (under : underRoot path root = true) :
    root ++ ['/'] <+: path := by
  simp only [underRoot, Bool.and_eq_true, decide_eq_true_eq, startsWith,
    isPrefixOf_iff_prefix] at under
  obtain ⟨⟨-, rest, rfl⟩, slash⟩ := under
  cases rest with
  | nil => simp at slash
  | cons _ rest =>
    simp only [List.getElem?_append_right (Nat.le_refl _), Nat.sub_self,
      List.getElem?_cons_zero, Option.some.injEq] at slash
    exact ⟨rest, by simp [slash]⟩

theorem scopeEntry_spec {root : Str} {entry : ArchiveEntry} {file : ScopedEntry}
    (inScope : scopeEntry root entry = some file) :
    entry.isDir = false ∧ file.source = entry.path ∧ Covers root (forwardSlashes entry.path) ∧
      file.relative.path = relativePath root entry.path := by
  unfold scopeEntry at inScope
  simp only at inScope
  split at inScope
  · simp at inScope
  next isFile =>
    split at inScope
    next empty =>
      cases inScope
      exact ⟨by simpa using isFile, rfl, .inl empty,
        by simp [relativePath, empty]⟩
    next nonempty =>
      split at inScope
      next under =>
        cases inScope
        exact ⟨by simpa using isFile, rfl, .inr (prefix_of_underRoot under),
          by simp [relativePath, nonempty]⟩
      · simp at inScope

section

variable [CharTables]

/-- One pass keeps every source at most once, and has claimed every file that it matches or
an earlier move has carried. -/
structure PassTidy (root : Str) (entries : List ArchiveEntry) (route : Route) (carried : List Str)
    (pass : Pass) : Prop where
  distinct : (pass.moves.map fst).Nodup
  inScope : ∀ file ∈ pass.files, ∃ entry ∈ entries, scopeEntry root entry = some file.1
  moved : ∀ source ∈ pass.moves.map fst, source ∈ carried ∨
    route.accepts (relativePath root source) = true ∧
      uppercase (route.destination (relativePath root source)) ∈ pass.taken.keys
  claimed : ∀ file ∈ pass.files, (file.1.source ∈ carried ∨
    route.accepts (relativePath root file.1.source) = true) → file.2 = true
  located : ∀ source ∈ pass.moves.map fst, ∃ entry ∈ entries, ∃ file,
    scopeEntry root entry = some file ∧ file.source = source

namespace PassTidy

variable {root : Str} {entries : List ArchiveEntry} {route : Route} {carried : List Str}
  {pass : Pass}
variable {file : ScopedEntry × Bool}

section

variable (tidy : PassTidy root entries route carried pass)
include tidy

theorem skip (inScope : ∃ entry ∈ entries, scopeEntry root entry = some file.1)
    (earlier : file.1.source ∈ carried → file.2 = true)
    (skipped : file.2 = true ∨ ¬ route.accepts (relativePath root file.1.source) = true) :
    PassTidy root entries route carried { pass with files := pass.files ++ [file] } where
  __ := tidy
  inScope := by
    intro other mem
    rcases mem_append.mp mem with seen | new
    · exact tidy.inScope other seen
    · rw [mem_singleton.mp new]
      exact inScope
  claimed := by
    intro other mem reached
    rcases mem_append.mp mem with seen | new
    · exact tidy.claimed other seen reached
    · rw [mem_singleton.mp new] at reached ⊢
      rcases skipped with isClaimed | unmatched
      · exact isClaimed
      · rcases reached with isCarried | isMatched
        · exact earlier isCarried
        · exact (unmatched isMatched).elim

theorem claim (inScope : ∃ entry ∈ entries, scopeEntry root entry = some file.1)
    (relative : file.1.relative.path = relativePath root file.1.source)
    (earlier : file.1.source ∈ carried → file.2 = true) (unclaimed : file.2 = false)
    (isMatched : route.accepts (relativePath root file.1.source) = true) {taken : KeyedMap Str Str}
    (destinationClaimed : claimDestination pass.taken
      (route.destination file.1.relative.path) = .ok taken) :
    PassTidy root entries route carried
      { files := pass.files ++ [(file.1, true)]
        moves := pass.moves ++ [(file.1.source, route.destination file.1.relative.path)]
        taken := taken
        placed := pass.placed + 1 } := by
  obtain ⟨keys, -⟩ := collects_of_claimUppercase destinationClaimed
  have fresh := fresh_of_claimUppercase destinationClaimed
  have sourceFresh : file.1.source ∉ pass.moves.map fst := by
    intro mem
    rcases tidy.moved _ mem with isCarried | ⟨-, isTaken⟩
    · rw [earlier isCarried] at unclaimed
      simp at unclaimed
    · rw [relative] at fresh
      exact fresh isTaken
  constructor
  · rw [map_append]
    exact nodup_append'.mpr ⟨tidy.distinct, by simp, by simpa using sourceFresh⟩
  · intro other mem
    rcases mem_append.mp mem with seen | new
    · exact tidy.inScope other seen
    · rw [mem_singleton.mp new]
      exact inScope
  · intro source mem
    rw [map_append, mem_append] at mem
    rw [keys]
    rcases mem with old | new
    · rcases tidy.moved source old with isCarried | ⟨matched, isTaken⟩
      · exact .inl isCarried
      · exact .inr ⟨matched, by simp [isTaken]⟩
    · obtain rfl : source = file.1.source := by simpa using new
      exact .inr ⟨isMatched, by simp [relative]⟩
  · intro other mem reached
    rcases mem_append.mp mem with seen | new
    · exact tidy.claimed other seen reached
    · rw [mem_singleton.mp new]
  · intro source mem
    rw [map_append, mem_append] at mem
    rcases mem with old | new
    · exact tidy.located source old
    · obtain rfl : source = file.1.source := by simpa using new
      obtain ⟨entry, entryMember, found⟩ := inScope
      exact ⟨entry, entryMember, file.1, found, rfl⟩

theorem placeFile (inScope : ∃ entry ∈ entries, scopeEntry root entry = some file.1)
    (earlier : file.1.source ∈ carried → file.2 = true) {next : Pass}
    (placed : PlanBuilder.placeFile route pass file = .ok next) :
    PassTidy root entries route carried next := by
  have relative : file.1.relative.path = relativePath root file.1.source := by
    obtain ⟨entry, -, found⟩ := inScope
    obtain ⟨-, source, -, path⟩ := scopeEntry_spec found
    rw [source]
    exact path
  unfold PlanBuilder.placeFile at placed
  split at placed
  next skipped =>
    obtain rfl := ok.inj placed
    rw [relative] at skipped
    exact tidy.skip inScope earlier skipped
  next offered =>
    rw [not_or, not_not] at offered
    obtain ⟨_, destinationClaimed, done⟩ := bind_eq_ok.mp placed
    obtain rfl := ok.inj done
    refine tidy.claim inScope relative earlier (by simpa using offered.1) ?_ destinationClaimed
    rw [← relative]
    exact offered.2

end

end PassTidy

/-- Every source is moved at most once so far, and the files of a moved source are claimed. -/
structure FillingTidy (root : Str) (entries : List ArchiveEntry) (filling : Filling) : Prop where
  distinct : (filling.moves.map fst).Nodup
  inScope : ∀ file ∈ filling.files, ∃ entry ∈ entries, scopeEntry root entry = some file.1
  claimed : ∀ file ∈ filling.files, file.1.source ∈ filling.moves.map fst → file.2 = true
  located : ∀ source ∈ filling.moves.map fst, ∃ entry ∈ entries, ∃ file,
    scopeEntry root entry = some file ∧ file.source = source

variable {entries : List ArchiveEntry}

theorem FillingTidy.placeOne {root : Str} {filling next : Filling}
    {output : ResolvedOutput} {placement : Placement} (tidy : FillingTidy root entries filling)
    (placed : PlanBuilder.placeOne output filling placement = .ok next) :
    FillingTidy root entries next := by
  obtain ⟨_, looped, done⟩ := bind_eq_ok.mp placed
  obtain rfl := ok.inj done
  have passTidy :=
    foldlM_preserves (PassTidy root entries _ (filling.moves.map fst))
      (fun mem holds step =>
        holds.placeFile (tidy.inScope _ mem) (tidy.claimed _ mem) step)
      { distinct := tidy.distinct
        inScope := by simp
        moved := fun _ => .inl
        claimed := by simp
        located := tidy.located }
      looped
  constructor
  · exact passTidy.distinct
  · exact passTidy.inScope
  · intro file mem carried
    rcases passTidy.moved _ carried with isCarried | ⟨isMatched, -⟩
    · exact passTidy.claimed file mem (.inl isCarried)
    · exact passTidy.claimed file mem (.inr isMatched)
  · exact passTidy.located

theorem disjoint_of_resolveOutputs {layout : Layout}
    {values : Variables} {readEntry : ReadEntry} {resolved : ResolvedOutputs}
    (succeeded : resolveOutputs layout entries values readEntry = .ok resolved) :
    resolved.outputs.Pairwise fun first second =>
      ∀ path, Covers (forwardSlashes first.root) path →
        ¬ Covers (forwardSlashes second.root) path := by
  obtain ⟨_, roots, -, selected, outputs, -, -⟩ := resolveOutputs_spec succeeded
  have selection := selection_of_selectRoots selected
  have sublist : (resolved.outputs.map ResolvedOutput.root).Sublist roots := by
    rw [outputs]
    exact namedOutputs_roots roots
  have distinct := pairwise_map.mp (selection.distinct.sublist sublist)
  refine distinct.imp_of_mem fun {first second}
    firstMember secondMember different path firstCovers secondCovers => ?_
  have firstRoot := sublist.subset (mem_map_of_mem firstMember)
  have secondRoot := sublist.subset (mem_map_of_mem secondMember)
  rw [selection.slashed _ firstRoot] at firstCovers
  rw [selection.slashed _ secondRoot] at secondCovers
  exact different (selection.eq_of_covers firstRoot secondRoot firstCovers secondCovers)

section

variable [Libraries] {metadata : Option GameMetadata}

theorem sources_of_fillOutput {layout : Layout} {entries : List ArchiveEntry}
    {output : ResolvedOutput} {filled : PlannedOutput}
    (succeeded : fillOutput layout entries metadata output = .ok filled) :
    filled.sources.Nodup ∧ ∀ source ∈ filled.sources,
      Covers (forwardSlashes output.root) (forwardSlashes source) ∧
        ∃ entry ∈ entries, entry.path = source ∧ entry.isDir = false := by
  obtain ⟨⟨⟩, -, succeeded⟩ := bind_eq_ok.mp succeeded
  obtain ⟨_, looped, succeeded⟩ := bind_eq_ok.mp succeeded
  obtain ⟨_, -, succeeded⟩ := bind_eq_ok.mp succeeded
  obtain ⟨_, -, done⟩ := bind_eq_ok.mp succeeded
  obtain rfl := ok.inj done
  have tidy :=
    foldlM_preserves (FillingTidy (forwardSlashes output.root) entries)
      (fun _ holds => holds.placeOne)
      { distinct := by simp
        inScope := by
          intro file mem
          obtain ⟨inScope, scopedMember, rfl⟩ := mem_map.mp mem
          exact mem_filterMap.mp scopedMember
        claimed := by simp
        located := by simp }
      looped
  refine ⟨tidy.distinct, fun source mem => ?_⟩
  obtain ⟨entry, entryMember, file, inScope, rfl⟩ := tidy.located source mem
  obtain ⟨isFile, source, covers, -⟩ := scopeEntry_spec inScope
  rw [source]
  exact ⟨covers, entry, entryMember, rfl, isFile⟩

theorem createPlan_spec {titleFilter : TitleFilterConfig} {rule : OrganizationRule}
    {inputName : Str} {entries : List ArchiveEntry}
    {readEntry : ReadEntry} {plan : OrganizationPlan}
    (succeeded : createPlan titleFilter rule inputName entries metadata readEntry = .ok plan) :
    ∃ values resolved outputs, MetadataMap.buildMetadataMap titleFilter rule inputName metadata
      (namingContentRoot rule.layout (pruneEntries entries)) = .ok values ∧
      resolveOutputs rule.layout (pruneEntries entries) values readEntry = .ok resolved ∧
      List.Forall₂ (fun output filled =>
        fillOutput rule.layout (pruneEntries entries) metadata output = .ok filled)
        resolved.outputs outputs ∧
      OrganizationPlan.validatePaths
        { ruleName := rule.name
          outputs := outputs
          skippedOutputs := resolved.skipped } = .ok () ∧
      plan.outputs = outputs.filter fun output => !output.stagesNothing := by
  obtain ⟨values, gathered, succeeded⟩ := bind_eq_ok.mp succeeded
  obtain ⟨resolved, resolution, succeeded⟩ := bind_eq_ok.mp succeeded
  obtain ⟨outputs, filled, succeeded⟩ := bind_eq_ok.mp succeeded
  obtain ⟨⟨⟩, validated, done⟩ := bind_eq_ok.mp succeeded
  obtain rfl := ok.inj done
  exact ⟨values, resolved, outputs, gathered, resolution,
    forall₂_of_mapM filled, mapError_eq_ok.mp validated, rfl⟩

/-- No archive path is carried twice by a plan, and every carried path is a file of the
pruned listing. -/
theorem sources_carried_once {titleFilter : TitleFilterConfig} {rule : OrganizationRule}
    {inputName : Str} {entries : List ArchiveEntry} {metadata : Option GameMetadata}
    {readEntry : ReadEntry} {plan : OrganizationPlan}
    (succeeded : createPlan titleFilter rule inputName entries metadata readEntry = .ok plan) :
    (∀ output ∈ plan.outputs, output.sources.Nodup) ∧ plan.outputs.Pairwise (fun first second =>
      first.sources.Disjoint second.sources) ∧
      ∀ output ∈ plan.outputs, ∀ source ∈ output.sources, ∃ entry ∈ pruneEntries entries,
        entry.path = source ∧ entry.isDir = false := by
  obtain ⟨_, _, outputs, -, resolution, filled, -, kept⟩ := createPlan_spec succeeded
  have each : ∀ output ∈ outputs, output.sources.Nodup ∧
      ∀ source ∈ output.sources, ∃ entry ∈ pruneEntries entries,
        entry.path = source ∧ entry.isDir = false := by
    intro output mem
    obtain ⟨_, -, filledFrom⟩ := exists_of_forall₂ filled mem
    obtain ⟨distinct, covered⟩ := sources_of_fillOutput filledFrom
    exact ⟨distinct, fun source sourceMember => (covered source sourceMember).2⟩
  have pairwise : outputs.Pairwise fun first second =>
    first.sources.Disjoint second.sources := by
    refine pairwise_of_forall₂ ?_ filled (disjoint_of_resolveOutputs resolution)
    intro first second _ _
      firstSucceeded secondSucceeded apart source firstMember secondMember
    exact apart _ ((sources_of_fillOutput firstSucceeded).2 source firstMember).1
      ((sources_of_fillOutput secondSucceeded).2 source secondMember).1
  rw [kept]
  refine ⟨?_, pairwise.filter _, ?_⟩
  · intro output mem
    exact (each output (mem_filter.mp mem).1).1
  · intro output mem
    exact (each output (mem_filter.mp mem).1).2

end

end

/-- Libraries for an input that no pattern matches and no document describes. -/
@[reducible] def quietLibraries : Libraries where
  regex _ := some { captureNames := [], capturesIter := fun _ => [] }
  jsonFromStr _ := none
  jsonToStringPretty _ := none

def defaultTitleFilter : TitleFilterConfig where
  replacements :=
    [("【".toList, "[".toList), ("】".toList, "]".toList),
      ("～".toList, "~".toList), ("（".toList, "(".toList), ("）".toList, ")".toList)]
  invalidChars := "/:*?\"<>|\\".toList
  replacement := "_".toList
  maxLength := 255
  trimWhitespace := true

/-- One output per folder with a `modinfo.ini`, named after a key of that file. -/
def modRule (key : String) : OrganizationRule where
  name := "mods".toList
  filenamePattern := none
  layout :=
    { outputs := .perDirectoryContaining "modinfo.ini".toList
      fileVariables :=
        [{ asName := "mod_name".toList
           file := "modinfo.ini".toList
           key := key.toList }]
      name := "$mod_name".toList
      place := [{ source := .matching "*.pak".toList, into := [] }] }

/-- Two mod folders, the second written with backslashes. -/
def modPack : List ArchiveEntry :=
  ["One/modinfo.ini", "One/x.pak", "Two\\modinfo.ini", "Two\\y.pak"].map fun path =>
    { path := path.toList
      size := 10
      packedSize := 10
      isDir := false
      encrypted := false
      crc32 := none }

/-- The `modinfo.ini` files of the two mod folders. -/
def readModPack (first second : String) : ReadEntry := fun path =>
  if path = "One/modinfo.ini".toList then some first.toUTF8
  else if path = "Two/modinfo.ini".toList then some second.toUTF8
  else none

def modPlan (key first second : String) : Except PlanError OrganizationPlan :=
  @createPlan asciiTables quietLibraries defaultTitleFilter (modRule key)
    "pack.zip".toList modPack none (readModPack first second)

/-- Each of two mods carries its own file, once. -/
theorem sources_carried_once_of_two_mods : ∃ plan, modPlan "name" "name=A" "name=B" = .ok plan ∧
    plan.outputs.map PlannedOutput.sources = [["One/x.pak".toList], ["Two\\y.pak".toList]] ∧
    plan.outputs.Pairwise fun first second =>
      first.sources.Disjoint second.sources := by
  have evaluated : ((modPlan "name" "name=A" "name=B").toOption.map fun plan =>
    plan.outputs.map PlannedOutput.sources) =
      some [["One/x.pak".toList], ["Two\\y.pak".toList]] := by
    decide +kernel
  obtain ⟨plan, built, carried⟩ := exists_of_toOption_map evaluated
  exact ⟨plan, built, carried, (@sources_carried_once asciiTables quietLibraries
    _ _ _ _ _ _ plan built).2.1⟩

end Arclain.PlanBuilder
