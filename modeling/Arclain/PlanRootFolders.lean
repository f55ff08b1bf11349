import Arclain.PlanSources

namespace Arclain.PlanBuilder

/-!
# When two outputs write into one folder

Names are compared upper-cased as written, while destinations read a backslash as a slash.
Two outputs share their root folder exactly when their names are twins.
-/

open List Text Fallible OutputResolution OrganizationPlan CheckedRelativePath Except PlannedOutput

section

variable [CharTables]

/-- A root folder normalised as destinations are: split at both separators, without empty
and dot segments, upper-cased. -/
def rootSegments (rootFolder : Str) : List Str := (segments rootFolder).map uppercase

def DistinctRootFolders (plan : OrganizationPlan) : Prop :=
  plan.outputs.Pairwise fun first second =>
    rootSegments first.rootFolder ≠ rootSegments second.rootFolder

/-- Two names that differ, case folded, only in writing a backslash where the
other has a slash. -/
def SeparatorTwins (first second : Str) : Prop :=
  uppercase first ≠ uppercase second ∧
    uppercase (forwardSlashes first) = uppercase (forwardSlashes second)

theorem rootSegments_of_new {rootFolder : Str} {checked : CheckedRelativePath}
    (accepted : new rootFolder = .ok checked) :
    rootSegments rootFolder = foldedComponents rootFolder := by
  have whole : segments rootFolder = (forwardSlashes rootFolder).splitOn '/' := by
    refine filter_eq_self.mpr fun component mem => ?_
    have inPath : component ∈ checked.components := by
      rw [components, path_of_new accepted]
      exact mem
    simpa using checked.component_ne inPath
  rw [rootSegments, whole, foldedComponents]

section

variable [Libraries]

theorem rootFolder_of_fillOutput {layout : Layout} {entries : List ArchiveEntry}
    {metadata : Option GameMetadata} {output : ResolvedOutput} {filled : PlannedOutput}
    (succeeded : fillOutput layout entries metadata output = .ok filled) :
    filled.rootFolder = output.name := by
  obtain ⟨⟨⟩, -, succeeded⟩ := bind_eq_ok.mp succeeded
  obtain ⟨_, -, succeeded⟩ := bind_eq_ok.mp succeeded
  obtain ⟨_, -, succeeded⟩ := bind_eq_ok.mp succeeded
  obtain ⟨_, -, done⟩ := bind_eq_ok.mp succeeded
  obtain rfl := ok.inj done
  rfl

/-- The name a folder's template resolves to, and an output under that name that carries
something. -/
def Contributes (titleFilter : TitleFilterConfig) (rule : OrganizationRule) (inputName : Str)
    (entries : List ArchiveEntry) (metadata : Option GameMetadata) (readEntry : ReadEntry)
    (root name : Str) : Prop :=
  ∃ values wanted roots output filled,
    MetadataMap.buildMetadataMap titleFilter rule inputName metadata
      (namingContentRoot rule.layout (pruneEntries entries)) =
      .ok values ∧
    wantedKeys rule.layout.fileVariables = .ok wanted ∧
    selectRoots rule.layout.outputs (pruneEntries entries) = .ok roots ∧
    root ∈ roots ∧
    resolveOne rule.layout.name wanted root values readEntry = .named output ∧
    output.name = name ∧
    fillOutput rule.layout (pruneEntries entries) metadata output = .ok filled ∧
    filled.stagesNothing = false

section

variable {titleFilter : TitleFilterConfig} {rule : OrganizationRule} {inputName : Str}
  {entries : List ArchiveEntry}
  {metadata : Option GameMetadata}
  {readEntry : ReadEntry}
  {plan : OrganizationPlan}

theorem contributes_iff (succeeded :
    createPlan titleFilter rule inputName entries metadata readEntry = .ok plan) {name : Str} :
    (∃ root, Contributes titleFilter rule inputName entries metadata readEntry root name) ↔
      ∃ output ∈ plan.outputs, output.rootFolder = name := by
  obtain ⟨values, resolved, _, gathered, resolution, filled, -, kept⟩ :=
    createPlan_spec succeeded
  obtain ⟨wanted, roots, checked, selected, named, -, -⟩ := resolveOutputs_spec resolution
  rw [kept]
  constructor
  · rintro ⟨root, _, _, _, output, planned, gathered',
      checked', selected', rootMember, resolves, rfl, fills, carries⟩
    obtain rfl := ok.inj (gathered.symm.trans gathered')
    obtain rfl := ok.inj (checked.symm.trans checked')
    obtain rfl := ok.inj (selected.symm.trans selected')
    have mem : output ∈ resolved.outputs := by
      rw [named]
      exact mem_filterMap.mpr ⟨root, rootMember, by simp only [resolves]⟩
    obtain ⟨result, resultMember, resultFills⟩ := exists_of_forall₂ filled.flip mem
    obtain rfl := ok.inj (resultFills.symm.trans fills)
    exact ⟨result, mem_filter.mpr ⟨resultMember, by simp [carries]⟩,
      rootFolder_of_fillOutput resultFills⟩
  · rintro ⟨planned, mem, rfl⟩
    obtain ⟨plannedMember, carries⟩ := mem_filter.mp mem
    obtain ⟨output, outputMember, fills⟩ := exists_of_forall₂ filled plannedMember
    rw [named] at outputMember
    obtain ⟨root, rootMember, resolves⟩ := mem_filterMap.mp outputMember
    refine ⟨root, values, wanted, roots, output, planned, gathered, checked,
      selected, rootMember, ?_, (rootFolder_of_fillOutput fills).symm, fills,
      by simpa using carries⟩
    split at resolves
    next isNamed =>
      cases resolves
      exact isNamed
    · simp at resolves

section

variable (succeeded : createPlan titleFilter rule inputName entries metadata readEntry = .ok plan)
include succeeded

theorem pairwise_uppercase_rootFolder :
    plan.outputs.Pairwise fun first second =>
      uppercase first.rootFolder ≠ uppercase second.rootFolder := by
  obtain ⟨_, _, outputs, -, resolution, filled, -, kept⟩ := createPlan_spec succeeded
  obtain ⟨-, -, -, -, -, distinct, -⟩ := resolveOutputs_spec resolution
  have pairwise : outputs.Pairwise fun first second =>
    uppercase first.rootFolder ≠ uppercase second.rootFolder := by
    refine pairwise_of_forall₂ ?_ filled (pairwise_map.mp distinct)
    intro first second _ _ firstFills secondFills different
    rw [rootFolder_of_fillOutput firstFills, rootFolder_of_fillOutput secondFills]
    exact different
  rw [kept]
  exact pairwise.filter _

theorem rootSegments_eq_iff {first second : PlannedOutput} (firstMember : first ∈ plan.outputs)
    (secondMember : second ∈ plan.outputs) (different : first ≠ second) :
    rootSegments first.rootFolder = rootSegments second.rootFolder ↔
      uppercase (forwardSlashes first.rootFolder) =
        uppercase (forwardSlashes second.rootFolder) := by
  obtain ⟨_, _, outputs, -, -, -, validated, kept⟩ := createPlan_spec succeeded
  rw [kept] at firstMember secondMember
  have inFirst := (mem_filter.mp firstMember).1
  have inSecond := (mem_filter.mp secondMember).1
  have several : outputs.length > 1 := by
    match outputs, inFirst, inSecond with
    | [only], inFirst, inSecond =>
      rw [mem_singleton] at inFirst inSecond
      exact (different (inFirst.trans inSecond.symm)).elim
    | _ :: _ :: _, _, _ => simp
  obtain ⟨_, firstAccepted⟩ := rootFolder_of_validatePaths validated several inFirst
  obtain ⟨_, secondAccepted⟩ := rootFolder_of_validatePaths validated several inSecond
  rw [rootSegments_of_new firstAccepted, rootSegments_of_new secondAccepted]
  exact foldedComponents_eq_iff

end

/-- No two outputs share a root folder exactly when no two input folders contribute outputs
whose names are twins. -/
theorem distinct_root_folders_iff (succeeded :
    createPlan titleFilter rule inputName entries metadata readEntry = .ok plan) :
    DistinctRootFolders plan ↔ ∀ firstRoot secondRoot first second,
      Contributes titleFilter rule inputName entries metadata readEntry firstRoot first →
      Contributes titleFilter rule inputName entries metadata readEntry secondRoot second →
      ¬ SeparatorTwins first second := by
  constructor
  · intro distinct firstRoot secondRoot _ _
      firstContributes secondContributes twins
    obtain ⟨first, firstMember, rfl⟩ := (contributes_iff succeeded).mp ⟨firstRoot, firstContributes⟩
    obtain ⟨second, secondMember, rfl⟩ :=
      (contributes_iff succeeded).mp ⟨secondRoot, secondContributes⟩
    have different : first ≠ second := by
      rintro rfl
      exact twins.1 rfl
    have symmetric : Std.Symm fun first second : PlannedOutput =>
      rootSegments first.rootFolder ≠ rootSegments second.rootFolder :=
      ⟨fun _ _ => Ne.symm⟩
    have apart := distinct.forall firstMember secondMember different
    exact apart ((rootSegments_eq_iff succeeded firstMember secondMember different).mpr twins.2)
  · intro noTwins
    refine (pairwise_uppercase_rootFolder succeeded).imp_of_mem
      fun {first second} firstMember secondMember differ same => ?_
    have different : first ≠ second := by
      rintro rfl
      exact differ rfl
    obtain ⟨firstRoot, firstContributes⟩ :=
      (contributes_iff succeeded).mpr ⟨first, firstMember, rfl⟩
    obtain ⟨secondRoot, secondContributes⟩ :=
      (contributes_iff succeeded).mpr ⟨second, secondMember, rfl⟩
    exact noTwins firstRoot secondRoot _ _ firstContributes secondContributes ⟨differ,
      (rootSegments_eq_iff succeeded firstMember secondMember different).mp same⟩

end

end

end

/-- Names that differ in more than their separators keep their folders. -/
theorem distinct_root_folders_of_two_mods : ∃ plan,
    modPlan "addonfor" "addonfor=A/B" "addonfor=A\\C" = .ok plan ∧
      @DistinctRootFolders asciiTables plan := by
  have evaluated : ((modPlan "addonfor" "addonfor=A/B" "addonfor=A\\C").toOption.map
      fun plan => plan.outputs.map rootFolder) =
        some ["A/B".toList, "A\\C".toList] := by
    decide +kernel
  obtain ⟨plan, built, names⟩ := exists_of_toOption_map evaluated
  refine ⟨plan, built, (@distinct_root_folders_iff asciiTables quietLibraries
    _ _ _ _ _ _ plan built).mpr ?_⟩
  have named : ∀ {root name}, @Contributes asciiTables quietLibraries defaultTitleFilter
      (modRule "addonfor") "pack.zip".toList modPack none
      (readModPack "addonfor=A/B" "addonfor=A\\C") root name →
        name ∈ ["A/B".toList, "A\\C".toList] := by
    intro root name contributes
    obtain ⟨_, mem, rfl⟩ :=
      (@contributes_iff asciiTables quietLibraries
        _ _ _ _ _ _ plan built _).mp ⟨root, contributes⟩
    rw [← names]
    exact mem_map_of_mem mem
  have apart : ∀ first ∈ ["A/B".toList, "A\\C".toList], ∀ second ∈ ["A/B".toList, "A\\C".toList],
      @uppercase asciiTables (forwardSlashes first) =
        @uppercase asciiTables (forwardSlashes second) →
      first = second := by
    decide
  intro _ _ first second firstContributes secondContributes twins
  exact twins.1 (congrArg _ (apart _ (named firstContributes) _ (named secondContributes) twins.2))

/-- Two mods that name the same parent with different separators write into one folder. -/
theorem separator_twins_share_folder : ¬ ∀ plan,
    modPlan "addonfor" "addonfor=A/B" "addonfor=A\\B" = .ok plan → plan.outputs.length > 1 →
    @DistinctRootFolders asciiTables plan := by
  intro claimed
  have evaluated : ((modPlan "addonfor" "addonfor=A/B" "addonfor=A\\B").toOption.map
      fun plan => plan.outputs.map rootFolder) =
        some ["A/B".toList, "A\\B".toList] := by
    decide +kernel
  obtain ⟨plan, built, names⟩ := exists_of_toOption_map evaluated
  have two : plan.outputs.length > 1 := by
    have count := congrArg List.length names
    rw [length_map] at count
    rw [count]
    decide
  have distinct : (plan.outputs.map rootFolder).Pairwise fun first second =>
    @rootSegments asciiTables first ≠ @rootSegments asciiTables second :=
    pairwise_map.mpr (claimed plan built two)
  rw [names] at distinct
  exact absurd distinct (by decide)

end Arclain.PlanBuilder
