import Arclain.CheckedRelativePath

namespace Arclain.SevenZip

open List Text CheckedRelativePath

/-!
# Files extracted by the 7z backend

Every entry is compared with the requested names in one pass over the archive, and
the progress is that of the matches towards the number of names.
-/

/-- What comes of an entry when the loop reaches it. -/
inductive Outcome where
  | cancelled
  | failed
  | written
  deriving DecidableEq

/-- An entry of the archive; a name that leads out of the destination is not written. -/
structure Visit where
  name : Str
  outcome : Outcome
  safe : outcome = .written → (new name).toOption.isSome

structure ExtractionProgress where
  current : Nat
  total : Nat
  currentFile : Str
  percent : Nat

structure Extracted where
  written : List Str
  reports : List ExtractionProgress
  ok : Bool

def selects (files : List Str) (entryPath : Str) : Bool :=
  files.any fun file => entryPath == file || containsText entryPath file

/-- The percentage as it is cast to `u8`. -/
def percentOf (processed total : Nat) : Nat :=
  if 0 < total then processed * 100 / total % 2 ^ 8 else 0

/-- The loop over the entries. -/
def extractEntries (files : List Str) (progress : Bool) : Nat → List Visit → Extracted
  | _, [] => ⟨[], [], true⟩
  | processed, visit :: visits =>
    if visit.outcome = .cancelled then ⟨[], [], false⟩
    else if selects files visit.name then
      let processed := processed + 1
      let reports := if progress then
        [⟨processed, files.length, visit.name, percentOf processed files.length⟩] else []
      if visit.outcome = .written then
        let rest := extractEntries files progress processed visits
        ⟨visit.name :: rest.written, reports ++ rest.reports, rest.ok⟩
      else ⟨[], reports, false⟩
    else extractEntries files progress processed visits

def extractFilesWithProgress (files : List Str) (progress : Bool) (visits : List Visit) :
    Extracted :=
  let extracted := extractEntries files progress 0 visits
  if extracted.ok ∧ progress then
    { extracted with
      reports := extracted.reports ++ [⟨files.length, files.length, "Complete".toList, 100⟩] }
  else extracted

/-- An entry has one of the names, up to the separators. -/
def Listed (files : List Str) (entryPath : Str) : Prop :=
  ∃ file ∈ files, forwardSlashes entryPath = forwardSlashes file

instance (files : List Str) (entryPath : Str) : Decidable (Listed files entryPath) :=
  inferInstanceAs (Decidable (∃ file ∈ files, _))

/-- However an extraction goes, it writes what is listed, and its percentages grow up to 100. -/
def ExtractsListed (files names : List Str) : Prop :=
  ∀ progress visits, visits.map Visit.name = names →
    let extracted := extractFilesWithProgress files progress visits
    (∀ name ∈ extracted.written, Listed files name) ∧
    (extracted.ok → extracted.written = names.filter (Listed files)) ∧
    (extracted.reports.map ExtractionProgress.percent).Pairwise (· ≤ ·) ∧
    ∀ report ∈ extracted.reports, report.percent ≤ 100

section

variable {files : List Str} {progress : Bool} {processed : Nat} {visits : List Visit}

theorem extractEntries_spec (files : List Str) (progress : Bool) (processed : Nat)
    (visits : List Visit) :
    let extracted := extractEntries files progress processed visits
    extracted.written <+: (visits.map Visit.name).filter (selects files) ∧
    (extracted.ok = true → extracted.written = (visits.map Visit.name).filter (selects files)) ∧
    ∃ count ≤ ((visits.map Visit.name).filter (selects files)).length,
      (extracted.ok = true → count = ((visits.map Visit.name).filter (selects files)).length) ∧
      extracted.reports.map ExtractionProgress.percent = if progress then
        (range' (processed + 1) count).map fun current => percentOf current files.length
      else [] := by
  induction visits generalizing processed with
  | nil =>
    exact ⟨prefix_rfl, fun _ => rfl, 0, Nat.le_refl _, fun _ => rfl, by simp [extractEntries]⟩
  | cons _ visits ih =>
    rw [extractEntries]
    split
    · exact ⟨⟨_, rfl⟩, nofun, 0, Nat.zero_le _, nofun, by simp⟩
    · rw [map_cons, filter_cons]
      split
      next selected =>
        dsimp only
        split
        · obtain ⟨written, all, count, bounded, full, reports⟩ := ih (processed + 1)
          refine ⟨cons_prefix_cons.mpr ⟨rfl, written⟩, fun ok => congrArg _ (all ok), count + 1,
            Nat.succ_le_succ bounded, fun ok => congrArg _ (full ok), ?_⟩
          rw [map_append, reports]
          cases progress with
          | true => simp [range'_succ]
          | false => rfl
        · refine ⟨⟨_, rfl⟩, nofun, 1, Nat.succ_le_succ (Nat.zero_le _), nofun, ?_⟩
          cases progress with
          | true => simp
          | false => rfl
      · exact ih processed

theorem percentOf_le {current count total : Nat} (within : count * 100 / total ≤ 100)
    (reached : current ≤ count) : percentOf current total = current * 100 / total ∧
      current * 100 / total ≤ 100 := by
  have below : current * 100 / total ≤ 100 :=
    (Nat.div_le_div_right (Nat.mul_le_mul_right 100 reached)).trans within
  refine ⟨?_, below⟩
  rw [percentOf]
  split
  · exact Nat.mod_eq_of_lt (by omega)
  next none => simp [Nat.eq_zero_of_not_pos none]

theorem percent_le_of_reported {count total : Nat} (listed : 0 < total)
    (reported : ∀ current, 0 < current → current ≤ count → percentOf current total ≤ 100) :
    count * 100 / total ≤ 100 := by
  induction count with
  | zero => simp
  | succ count ih =>
    have before := ih fun current positive within => reported current positive (by omega)
    have last := reported (count + 1) (Nat.succ_pos _) (Nat.le_refl _)
    have step : (count + 1) * 100 / total ≤ count * 100 / total + 100 := by
      rw [Nat.add_mul, ← Nat.add_mul_div_right _ _ listed]
      exact Nat.div_le_div_right (Nat.add_le_add_left (Nat.le_mul_of_pos_right _ listed) _)
    rw [percentOf, if_pos listed, Nat.mod_eq_of_lt (by omega)] at last
    exact last

/-- Where an entry contains a listed name only if it has one, and the matches do not
outnumber the names by a percent. -/
def Distinguished (files names : List Str) : Prop :=
  (∀ name ∈ names, selects files name ↔ Listed files name) ∧
    (names.filter (selects files)).length * 100 / files.length ≤ 100

variable {names : List Str}

theorem extractsListed_of_distinguished (clear : Distinguished files names) :
    ExtractsListed files names := by
  rintro progress visits rfl
  have same : (visits.map Visit.name).filter (selects files) =
      (visits.map Visit.name).filter (Listed files) :=
    filter_congr fun name mem => Bool.eq_iff_iff.mpr ((clear.1 name mem).trans (by simp))
  obtain ⟨written, all, count, _, -, reports⟩ := extractEntries_spec files progress 0 visits
  have percentages : ((extractEntries files progress 0 visits).reports.map
      ExtractionProgress.percent).Pairwise (· ≤ ·) ∧
      ∀ report ∈ (extractEntries files progress 0 visits).reports, report.percent ≤ 100 := by
    have within {current : Nat} (mem : current ∈ range' 1 count) :
        percentOf current files.length = current * 100 / files.length ∧
          current * 100 / files.length ≤ 100 :=
      percentOf_le clear.2 (by simp only [mem_range'_1] at mem; omega)
    rw [← @forall_mem_map _ _ ExtractionProgress.percent _ (· ≤ 100), reports]
    split
    · rw [pairwise_map, forall_mem_map]
      constructor
      · refine (pairwise_le_range' 1).imp_of_mem fun earlier later ordered => ?_
        rw [(within earlier).1, (within later).1]
        exact Nat.div_le_div_right (Nat.mul_le_mul_right 100 ordered)
      · intro current mem
        rw [(within mem).1]
        exact (within mem).2
    · exact ⟨Pairwise.nil, nofun⟩
  rw [same] at written all
  have listed : ∀ name ∈ (extractEntries files progress 0 visits).written, Listed files name :=
    fun name mem => of_decide_eq_true (mem_filter.mp (written.subset mem)).2
  intro extracted
  simp only [extracted, extractFilesWithProgress]
  split
  · refine ⟨listed, all, ?_, ?_⟩
    · rw [map_append, pairwise_append]
      refine ⟨percentages.1, pairwise_singleton _ _, ?_⟩
      simpa using percentages.2
    · simpa [or_imp, forall_and] using percentages.2
  · exact ⟨listed, all, percentages⟩

/-- The visit of an entry that is written if it may be. -/
def Visit.attempt (name : Str) : Visit :=
  if safe : (new name).toOption.isSome then ⟨name, .written, fun _ => safe⟩
  else ⟨name, .failed, nofun⟩

theorem name_attempt (name : Str) : (Visit.attempt name).name = name := by
  rw [Visit.attempt]
  split <;> rfl

theorem extractEntries_attempt_ok
    (safe : ∀ name ∈ names, selects files name → (new name).toOption.isSome) :
    (extractEntries files progress processed (names.map Visit.attempt)).ok = true := by
  induction names generalizing processed with
  | nil => rfl
  | cons name names ih =>
    obtain ⟨first, rest⟩ := forall_mem_cons.mp safe
    rw [map_cons, extractEntries, name_attempt]
    by_cases selected : selects files name
    · simp [Visit.attempt, first selected, selected, ih rest]
    · have reached : (Visit.attempt name).outcome ≠ .cancelled := by
        rw [Visit.attempt]
        split <;> simp
      simp [reached, selected, ih rest]

theorem distinguished_of_extractsListed (listed : ExtractsListed files names)
    (safe : ∀ name ∈ names, selects files name → (new name).toOption.isSome) :
    Distinguished files names := by
  have visited : (names.map Visit.attempt).map Visit.name = names := by
    simp [Function.comp_def, name_attempt]
  have ok := @extractEntries_attempt_ok files true 0 names safe
  obtain ⟨-, all, _, -, full, reports⟩ :=
    extractEntries_spec files true 0 (names.map Visit.attempt)
  obtain ⟨-, exact, -, bounded⟩ := listed true _ visited
  simp only [extractFilesWithProgress, ok, and_self, if_true, forall_const] at exact bounded
  rw [visited] at all full
  have same := (all ok).symm.trans exact
  constructor
  · intro name mem
    have both : name ∈ names.filter (selects files) ↔ name ∈ names.filter (Listed files) := by
      rw [same]
    simpa [mem] using both
  · by_cases none : files.length = 0
    · simp [none]
    · rw [← full ok]
      refine percent_le_of_reported (Nat.pos_of_ne_zero none) fun current positive within => ?_
      have reported : percentOf current files.length ∈
          (extractEntries files true 0 (names.map Visit.attempt)).reports.map
            ExtractionProgress.percent := by
        rw [reports, if_pos rfl]
        exact mem_map_of_mem (mem_range'_1.mpr (by omega))
      obtain ⟨report, mem, percent⟩ := mem_map.mp reported
      exact percent ▸ bounded report (mem_append_left _ mem)

/-- The files that are extracted are the listed ones, with percentages up to 100, exactly
if the names tell them apart. -/
theorem extractsListed_iff (files names : List Str) :
    (Distinguished files names → ExtractsListed files names) ∧
    ((∀ name ∈ names, selects files name → (new name).toOption.isSome) →
      ExtractsListed files names → Distinguished files names) :=
  ⟨extractsListed_of_distinguished, fun safe listed => distinguished_of_extractsListed listed safe⟩

/-- A copy beside the listed file is extracted with it. -/
theorem copy_extracted :
    ¬ ExtractsListed ["a.txt".toList] ["a.txt".toList, "a.txt.bak".toList] := by
  intro listed
  have clear := distinguished_of_extractsListed listed (by decide)
  exact absurd clear.1 (by decide)

end

end Arclain.SevenZip
