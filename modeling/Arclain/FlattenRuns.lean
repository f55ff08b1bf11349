import Arclain.FlattenNames

namespace Arclain.Conversion

/-!
# Flattening nested archives

One pass walks the tree, extracts every archive it finds beside it and removes it.  Passes
follow one another until a pass extracts nothing or a cap is met.  The tree is a state that
the calls read and change at will.
-/

open List OsPath Text

variable {World Warning : Type}

structure FlattenHost (World Warning : Type) where
  /-- Nothing when a directory cannot be read. -/
  findArchiveFilesRecursive : World → OsString → Option (List OsString)
  pathExists : World → OsString → Bool
  /-- Whether the folder was made. -/
  createDirAll : World → OsString → Bool × World
  extractor : World → OsString → OsString → Except Str Unit × World
  removeFile : World → OsString → World
  removeDirAll : World → OsString → World
  /-- The name of the promoted folder, if one was promoted. -/
  unwrapSingleRootFolder : World → OsString → Option Str × World
  /-- The new name of the folder, if it was renamed. -/
  renameToModinfoName : World → OsString → Option Str × World
  /-- Nothing to report where the diagnosis fails. -/
  diagnoseMods : World → OsString → List Warning

structure FlattenReport (Warning : Type) where
  extracted : List Str := []
  skipped : List Str := []
  failed : List (Str × Str) := []
  warnings : List Warning := []

/-- The tree, with the passes begun and the successful extractions so far. -/
structure Flattening (World : Type) where
  world : World
  passes : Nat := 0
  extractions : Nat := 0

def flattenMaxIterations : Nat := 10

def flattenMaxTotalExtractions : Nat := 1000

section

variable (host : FlattenHost World Warning) (dir : OsString) (stripPrefix : Bool)

/-- One turn of the loop of `flatten_nested_archives`, with no report when it
returns an error. -/
def flattenArchive (report : FlattenReport Warning) (archivePath : OsString) (folder : Str)
    (now : Flattening World) : Option (FlattenReport Warning) × Flattening World :=
  let destParent := (parent archivePath).getD dir
  let destFolder := push destParent (ofStr folder)
  if host.pathExists now.world destFolder then
    (some { report with skipped := report.skipped ++ [folder] }, now)
  else
    let (created, world) := host.createDirAll now.world destFolder
    if created then
      match host.extractor world archivePath destFolder with
      | (.ok (), world) =>
        let world := host.removeFile world archivePath
        let (promoted, world) := host.unwrapSingleRootFolder world destFolder
        let finalName := promoted.getD folder
        let (renamed, world) := host.renameToModinfoName world (push destParent (ofStr finalName))
        (some { report with extracted := report.extracted ++ [renamed.getD finalName] },
          { now with world := world, extractions := now.extractions + 1 })
      | (.error reason, world) =>
        (some { report with failed := report.failed ++ [(folder, reason)] },
          { now with world := host.removeDirAll world destFolder })
    else (none, { now with world := world })

/-- The loop of `flatten_nested_archives`. -/
def flattenAll : List (OsString × Str) → FlattenReport Warning →
    Flattening World → Option (FlattenReport Warning) × Flattening World
  | [], report, now => (some report, now)
  | (archivePath, folder) :: targets, report, now =>
    match flattenArchive host dir report archivePath folder now with
    | (none, now) => (none, now)
    | (some report, now) => flattenAll targets report now

theorem flattenArchive_counts (report : FlattenReport Warning) (archivePath : OsString)
    (folder : Str) (now : Flattening World) :
    (flattenArchive host dir report archivePath folder now).2.passes = now.passes ∧
      (flattenArchive host dir report archivePath folder now).2.extractions ≤
        now.extractions + 1 := by
  unfold flattenArchive
  extract_lets destParent destFolder
  split
  · exact ⟨rfl, Nat.le_succ _⟩
  dsimp only
  split
  · split
    · exact ⟨rfl, Nat.le_refl _⟩
    · exact ⟨rfl, Nat.le_succ _⟩
  · exact ⟨rfl, Nat.le_succ _⟩

theorem flattenAll_counts (targets : List (OsString × Str)) (report : FlattenReport Warning)
    (now : Flattening World) : (flattenAll host dir targets report now).2.passes = now.passes ∧
      (flattenAll host dir targets report now).2.extractions ≤
        now.extractions + targets.length := by
  induction targets generalizing report now with
  | nil => exact ⟨rfl, Nat.le_refl _⟩
  | cons target targets ih =>
    have turn := flattenArchive_counts host dir report target.1 target.2 now
    rw [flattenAll, length_cons]
    split
    next after failed =>
      rw [failed] at turn
      exact ⟨turn.1, by omega⟩
    next reported after extracted =>
      rw [extracted] at turn
      dsimp only at turn
      obtain ⟨passes, _⟩ := ih reported after
      exact ⟨passes.trans turn.1, by omega⟩

variable [Text.CharTables]

def flattenNestedArchives
    (now : Flattening World) : Option (FlattenReport Warning) × Flattening World :=
  let now := { now with passes := now.passes + 1 }
  match host.findArchiveFilesRecursive now.world dir with
  | none => (none, now)
  | some archives =>
    match flattenAll host dir (targetFolderNames archives stripPrefix) {} now with
    | (none, now) => (none, now)
    | (some report, now) => (some { report with warnings := host.diagnoseMods now.world dir }, now)

structure PassLoop (World Warning : Type) where
  combined : FlattenReport Warning := {}
  totalExtractions : Nat := 0
  now : Flattening World

/-- One pass: how the loop goes on, or what it ends with.  The total is a `u32`
that saturates. -/
def passOnce (loop : PassLoop World Warning) :
    PassLoop World Warning ⊕ (Option (FlattenReport Warning) × Flattening World) :=
  match flattenNestedArchives host dir stripPrefix loop.now with
  | (none, now) => .inr (none, now)
  | (some report, now) =>
    let combined :=
      { extracted := loop.combined.extracted ++ report.extracted
        skipped := loop.combined.skipped ++ report.skipped
        failed := loop.combined.failed ++ report.failed
        warnings := report.warnings }
    let totalExtractions :=
      min (loop.totalExtractions + report.extracted.length % 2 ^ 32) (2 ^ 32 - 1)
    if totalExtractions > flattenMaxTotalExtractions ∨ report.extracted.length = 0 then
      .inr (some combined, now)
    else .inl { combined := combined, totalExtractions := totalExtractions, now := now }

def passLoop : Nat → PassLoop World Warning → Option (FlattenReport Warning) × Flattening World
  | 0, loop => (some loop.combined, loop.now)
  | remaining + 1, loop =>
    match passOnce host dir stripPrefix loop with
    | .inl next => passLoop remaining next
    | .inr ended => ended

def passStarts : Nat → PassLoop World Warning → List (Flattening World)
  | 0, _ => []
  | remaining + 1, loop =>
    loop.now ::
      match passOnce host dir stripPrefix loop with
      | .inl next => passStarts remaining next
      | .inr _ => []

def requestedCap (maxDepth : Nat) : Nat :=
  if maxDepth = 0 then flattenMaxIterations else min maxDepth flattenMaxIterations

/-- `flatten_nested_archives_recursive`, on a tree. -/
def flattenNestedArchivesRecursive (maxDepth : Nat)
    (world : World) : Option (FlattenReport Warning) × Flattening World :=
  passLoop host dir stripPrefix (requestedCap maxDepth) { now := { world := world } }

/-- A pass that begins here finds no more archives than may still be extracted. -/
def HasRoom (now : Flattening World) : Prop :=
  ∀ archives, host.findArchiveFilesRecursive now.world dir = some archives →
    now.extractions + archives.length ≤ flattenMaxTotalExtractions

theorem flattenNestedArchives_counts {now : Flattening World} (hasRoom : HasRoom host dir now)
    (within : now.extractions ≤ flattenMaxTotalExtractions) :
    (flattenNestedArchives host dir stripPrefix now).2.extractions ≤
      flattenMaxTotalExtractions := by
  unfold flattenNestedArchives
  dsimp only
  split
  · exact within
  next archives found =>
    have room := hasRoom archives found
    have few : (targetFolderNames archives stripPrefix).length ≤ archives.length := by
      simp [targetFolderNames]
    have counted :=
      (flattenAll_counts host dir (targetFolderNames archives stripPrefix) {}
        { now with passes := now.passes + 1 }).2
    split
    next after failed =>
      rw [failed] at counted
      dsimp only at counted ⊢
      omega
    next after extracted =>
      rw [extracted] at counted
      dsimp only at counted ⊢
      omega

theorem flattenNestedArchives_passes (now : Flattening World) :
    (flattenNestedArchives host dir stripPrefix now).2.passes = now.passes + 1 := by
  unfold flattenNestedArchives
  dsimp only
  split
  · rfl
  next archives found =>
    have counted :=
      (flattenAll_counts host dir (targetFolderNames archives stripPrefix) {}
        { now with passes := now.passes + 1 }).1
    split
    next after failed =>
      rw [failed] at counted
      exact counted
    next after extracted =>
      rw [extracted] at counted
      exact counted

variable (loop : PassLoop World Warning)

theorem passOnce_now : (passOnce host dir stripPrefix loop).elim PassLoop.now Prod.snd =
      (flattenNestedArchives host dir stripPrefix loop.now).2 := by
  unfold passOnce
  split
  next now failed =>
    rw [failed]
    rfl
  next now flattened =>
    rw [flattened]
    dsimp only
    split
    · rfl
    · rfl

theorem passLoop_one : (passLoop host dir stripPrefix 1 loop).2 =
    (flattenNestedArchives host dir stripPrefix loop.now).2 := by
  rw [← passOnce_now, passLoop]
  cases passOnce host dir stripPrefix loop with
  | inl | inr => rfl

theorem passLoop_counts {remaining : Nat} {loop : PassLoop World Warning} :
    (passLoop host dir stripPrefix remaining loop).2.passes ≤ loop.now.passes + remaining ∧
      (loop.now.extractions ≤ flattenMaxTotalExtractions →
        (∀ now ∈ passStarts host dir stripPrefix remaining loop, HasRoom host dir now) →
        (passLoop host dir stripPrefix remaining loop).2.extractions ≤
          flattenMaxTotalExtractions) := by
  induction remaining generalizing loop with
  | zero => exact ⟨Nat.le_refl _, fun within _ => within⟩
  | succ remaining ih =>
    have passed := passOnce_now host dir stripPrefix loop
    have passes := flattenNestedArchives_passes host dir stripPrefix loop.now
    have counts := @flattenNestedArchives_counts _ _ host dir stripPrefix _ loop.now
    rw [← passed] at passes counts
    unfold passLoop passStarts
    cases goesOn : passOnce host dir stripPrefix loop with
    | inl next =>
      rw [goesOn] at passes counts
      simp only [Sum.elim_inl] at passes counts
      obtain ⟨_, moreExtractions⟩ := @ih next
      refine ⟨by dsimp only; omega, fun within hasRoom => ?_⟩
      rw [forall_mem_cons] at hasRoom
      exact moreExtractions (counts hasRoom.1 within) hasRoom.2
    | inr =>
      rw [goesOn] at passes counts
      simp only [Sum.elim_inr] at passes counts
      refine ⟨by dsimp only; omega, fun within hasRoom => ?_⟩
      exact counts (hasRoom _ mem_cons_self) within

/-- There are at most ten passes, and at most a thousand extractions if no pass begins with
more archives than are left of them. -/
theorem flatten_within_caps (maxDepth : Nat) (world : World) :
    (flattenNestedArchivesRecursive host dir stripPrefix maxDepth world).2.passes ≤
      flattenMaxIterations ∧ ((∀ now ∈
        passStarts host dir stripPrefix (requestedCap maxDepth) { now := { world := world } },
          HasRoom host dir now) →
        (flattenNestedArchivesRecursive host dir stripPrefix maxDepth world).2.extractions ≤
          flattenMaxTotalExtractions) := by
  have counts :=
    @passLoop_counts _ _ host dir stripPrefix _ (requestedCap maxDepth)
      { now := { world := world } }
  have cap : requestedCap maxDepth ≤ flattenMaxIterations := by
    unfold requestedCap
    split
    · exact Nat.le_refl _
    · exact Nat.min_le_right _ _
  refine ⟨?_, counts.2 (Nat.zero_le _)⟩
  exact counts.1.trans (by simpa using cap)

end

/-- A tree that is a number of archives, all of which can be extracted. -/
def packHost : FlattenHost Nat Unit where
  findArchiveFilesRecursive count _ :=
    some ((List.range count).map fun index => ofStr (decimal index ++ ".zip".toList))
  pathExists _ _ := false
  createDirAll count _ := (true, count)
  extractor count _ _ := (.ok (), count)
  removeFile count _ := count - 1
  removeDirAll count _ := count
  unwrapSingleRootFolder count _ := (none, count)
  renameToModinfoName count _ := (none, count)
  diagnoseMods _ _ := []

/-- Two archives are extracted in the first of two passes. -/
theorem pack_of_two_within_caps :
    (@flattenNestedArchivesRecursive _ _ packHost [] false asciiTables 0 2).2.passes ≤
      flattenMaxIterations ∧
      (@flattenNestedArchivesRecursive _ _ packHost [] false asciiTables 0 2).2.extractions ≤
        flattenMaxTotalExtractions := by
  have within := @flatten_within_caps _ _ packHost [] false asciiTables 0 2
  refine ⟨within.1, within.2 fun now mem archives found => ?_⟩
  cases found
  rw [length_map, length_range]
  have rooms : ∀ now ∈ @passStarts _ _ packHost [] false asciiTables (requestedCap 0)
      { now := { world := 2 } },
        now.extractions + now.world ≤ flattenMaxTotalExtractions := by
    decide +kernel
  exact rooms now mem

/-- A single pass over 1001 archives extracts them all. -/
theorem large_pack_exceeds_cap :
    ¬ ∀ (_ : Text.CharTables) (World Warning : Type) (host : FlattenHost World Warning)
      (dir : OsString) (stripPrefix : Bool) (maxDepth : Nat) (world : World),
      let ended := (flattenNestedArchivesRecursive host dir stripPrefix maxDepth world).2
      ended.passes ≤ flattenMaxIterations ∧ ended.extractions ≤ flattenMaxTotalExtractions := by
  intro claimed
  have capped := (claimed asciiTables Nat Unit packHost [] false 1 1001).2
  rw [flattenNestedArchivesRecursive] at capped
  have cap : requestedCap 1 = 1 := rfl
  rw [cap, passLoop_one] at capped
  revert capped
  decide +kernel

end Arclain.Conversion
