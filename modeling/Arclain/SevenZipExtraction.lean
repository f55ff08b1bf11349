import Arclain.ArchiveListing
import Arclain.CacheKeys
import Arclain.UnixPath

namespace Arclain.SevenZipCli

open List Text Cache

/-!
# Extractions by the command line tool

`extract_files` puts the files on one command line and cuts it before the first file that
exceeds the limit.
-/

def cmdLineLengthLimit : Nat := 8000

def fileCountThreshold : Nat := 50

def extractBaseArgs : List Str :=
  ["x".toList, "-y".toList, "-mmt=on".toList, "-sccUTF-8".toList, "-scsUTF-8".toList]

/-- The arguments up to the archive. -/
def extractArgs (archive dest : Str) (password : Option Str) : List Str :=
  extractBaseArgs ++ ["-bd".toList, "-p".toList ++ password.getD [], "-o".toList ++ dest, archive]

def argsLength (args : List Str) : Nat := (args.map fun arg => utf8Len arg + 1).sum

structure CommandLine where
  args : List Str
  requested : List Str
  totalArgLen : Nat

/-- The loop over the files. -/
def pushFiles : List Str → CommandLine → CommandLine
  | [], line => line
  | file :: files, line =>
    let newLen := line.totalArgLen + utf8Len file + 1
    if cmdLineLengthLimit < newLen ∧ file ∉ line.args then line
    else pushFiles files ⟨line.args ++ [file], line.requested ++ [file], newLen⟩

/-- The status of the tool, and which paths exist when it has ended. -/
structure ToolRun where
  succeeded : Bool
  present : Str → Bool

/-- Why `extract_files` fails, with the numbers its messages have. -/
inductive ExtractionError where
  | tool
  | toolWithoutOutput (missing requested : Nat)
  | withoutOutput (missing requested : Nat) (dest : Str) (first : List Str)

/-- `Path::join`. -/
def joinPath (dest file : Str) : Str :=
  if startsWith file ['/'] ∨ dest = [] then file
  else if dest.getLast? = some '/' then dest ++ file
  else dest ++ '/' :: file

structure Extraction where
  passed : List Str
  disk : Str → Bool
  result : Except ExtractionError Unit

def extractFiles (run : List Str → ToolRun) (archive dest : Str) (files : List Str)
    (password : Option Str) : Extraction :=
  let args := extractArgs archive dest password
  let line := pushFiles files ⟨args, [], argsLength args⟩
  let ran := run line.args
  let missing := line.requested.filter fun file => !ran.present (joinPath dest file)
  let result :=
    if ran.succeeded then
      if missing = [] then .ok ()
      else .error (.withoutOutput missing.length line.requested.length dest (missing.take 10))
    else if missing = [] then .error .tool
    else .error (.toolWithoutOutput missing.length line.requested.length)
  ⟨line.args, ran.present, result⟩

/-- Components that do not lead above where they start, some number of levels down. -/
def staysBelow : Nat → List UnixPath.Component → Bool
  | _, [] => true
  | _, .rootDir :: _ => false
  | level, .curDir :: rest => staysBelow level rest
  | 0, .parentDir :: _ => false
  | level + 1, .parentDir :: rest => staysBelow level rest
  | level, .normal _ :: rest => staysBelow (level + 1) rest

section

variable {archive dest : Str} {files : List Str} {password : Option Str}

/-- A file was passed to the tool and is there afterwards, below the destination. -/
def Extraction.Delivers (extraction : Extraction) (dest file : Str) : Prop :=
  file ∈ extraction.passed ∧ staysBelow 0 (UnixPath.components file) ∧
    extraction.disk (joinPath dest file)

/-- Every file is put on a command line: it is within the limit behind those before it,
or its text is an argument already. -/
def FitsCommandLine (args files : List Str) : Prop :=
  ∀ earlier file later, files = earlier ++ file :: later →
    argsLength (args ++ earlier ++ [file]) ≤ cmdLineLengthLimit ∨ file ∈ args ++ earlier

theorem argsLength_snoc (args : List Str) (file : Str) :
    argsLength (args ++ [file]) = argsLength args + utf8Len file + 1 := by
  simp [argsLength, Nat.add_assoc]

theorem fitsCommandLine_cons {args : List Str} {file : Str} : FitsCommandLine args (file :: files) ↔
    (argsLength (args ++ [file]) ≤ cmdLineLengthLimit ∨ file ∈ args) ∧
      FitsCommandLine (args ++ [file]) files := by
  constructor
  · intro fits
    refine ⟨by simpa using fits [] file files rfl, fun earlier next later split => ?_⟩
    simpa using fits (file :: earlier) next later (congrArg (file :: ·) split)
  · rintro ⟨first, others⟩ earlier next later split
    cases earlier with
    | nil =>
      obtain ⟨rfl, rfl⟩ := cons.inj split
      simpa using first
    | cons _ earlier =>
      obtain ⟨rfl, rest⟩ := cons.inj split
      simpa using others earlier next later rest

theorem pushFiles_spec (files args requested : List Str) : ∃ taken left, files = taken ++ left ∧
    pushFiles files ⟨args, requested, argsLength args⟩ =
      ⟨args ++ taken, requested ++ taken, argsLength (args ++ taken)⟩ ∧
    (FitsCommandLine args files ↔ left = []) ∧ ∀ file ∈ left.head?, file ∉ args ++ taken := by
  induction files generalizing args requested with
  | nil => exact ⟨[], [], rfl, by simp [pushFiles], by simp [FitsCommandLine], by simp⟩
  | cons file files ih =>
    rw [fitsCommandLine_cons, argsLength_snoc]
    by_cases cut : cmdLineLengthLimit < argsLength args + utf8Len file + 1 ∧ file ∉ args
    · refine ⟨[], file :: files, rfl, by simp [pushFiles, cut], ?_, by simpa using cut.2⟩
      simp [cut, Nat.not_le.mpr cut.1]
    · obtain ⟨taken, left, split, pushed, allTaken, fresh⟩ :=
        ih (args ++ [file]) (requested ++ [file])
      refine ⟨file :: taken, left, congrArg (file :: ·) split, ?_, ?_, by simpa using fresh⟩
      · rw [pushFiles, if_neg cut]
        simpa [argsLength_snoc] using pushed
      · have first : argsLength args + utf8Len file + 1 ≤ cmdLineLengthLimit ∨ file ∈ args := by
          simpa [imp_iff_or_not, or_comm] using cut
        rw [and_iff_right first, allTaken]

/-- Success means that every file was extracted exactly if the files fit the command line
and none leads out of the destination. -/
theorem extractFiles_delivers_iff :
    (∀ run, (extractFiles run archive dest files password).result = .ok () →
      ∀ file ∈ files, (extractFiles run archive dest files password).Delivers dest file) ↔
    FitsCommandLine (extractArgs archive dest password) files ∧
      ∀ file ∈ files, staysBelow 0 (UnixPath.components file) := by
  obtain ⟨_, left, rfl, pushed, allTaken, fresh⟩ :=
    pushFiles_spec files (extractArgs archive dest password) []
  rw [allTaken]
  constructor
  · intro delivers
    have delivered := delivers (fun _ => ⟨true, fun _ => true⟩) (by simp [extractFiles])
    refine ⟨?_, fun file mem => (delivered file mem).2.1⟩
    cases left with
    | nil => rfl
    | cons file left =>
      have passed := (delivered file (by simp)).1
      rw [extractFiles, pushed] at passed
      exact absurd passed (fresh file rfl)
  · rintro ⟨rfl, below⟩ run ok file mem
    rw [append_nil] at ok mem below pushed ⊢
    unfold Extraction.Delivers
    simp only [extractFiles, pushed, nil_append] at ok ⊢
    refine ⟨mem_append_right _ mem, below file mem, ?_⟩
    split at ok
    · split at ok
      next none => simpa using filter_eq_nil_iff.mp none file mem
      · cases ok
    · split at ok <;> cases ok

/-- Of two files that exceed the limit together, the second is not extracted. -/
theorem long_names_cut : ¬ ∀ run archive dest files password,
    (extractFiles run archive dest files password).result = .ok () →
      ∀ file ∈ files, file ∈ (extractFiles run archive dest files password).passed ∧
        (extractFiles run archive dest files password).disk (joinPath dest file) := by
  intro all
  obtain ⟨count, isCount⟩ : ∃ count, count = 4000 := ⟨_, rfl⟩
  let first : Str := List.replicate count 'a'
  let second : Str := List.replicate count 'b'
  let args := extractArgs "a.7z".toList "/out".toList none
  have length (letter : Char) :
      utf8Len (List.replicate count letter) = count * letter.utf8Size := by
    simp [utf8Len]
  have base : argsLength args = 52 := by decide
  have others : ∀ arg ∈ args, arg.length < 4000 := by decide
  have absent : second ∉ args ++ [first] := by
    intro mem
    rcases mem_append.mp mem with mem | mem
    · have short := others _ mem
      rw [length_replicate] at short
      omega
    · have same := eq_of_mem_replicate (mem_singleton.mp mem ▸
        mem_replicate.mpr ⟨by omega, rfl⟩ : 'b' ∈ first)
      cases same
  have cut : pushFiles [first, second] ⟨args, [], argsLength args⟩ =
      ⟨args ++ [first], [first], argsLength args + utf8Len first + 1⟩ := by
    have fitsFirst : ¬ (cmdLineLengthLimit < argsLength args + utf8Len first + 1 ∧
        first ∉ args) := by
      rw [base, length, isCount]
      exact fun cut => absurd cut.1 (by decide)
    have cutSecond : cmdLineLengthLimit < argsLength args + utf8Len first + 1 +
        utf8Len second + 1 := by
      rw [base, length, length, isCount]
      decide
    rw [pushFiles, if_neg fitsFirst, pushFiles, if_pos ⟨cutSecond, absent⟩]
    rfl
  have passed := all (fun _ => ⟨true, fun _ => true⟩) "a.7z".toList "/out".toList
    [first, second] none (by simp [extractFiles]) second (by simp)
  replace passed := passed.1
  rw [extractFiles, cut] at passed
  exact absent passed

end

/-! ## Selections -/

/-- A reference to an entry, or to a directory and what is below it. -/
structure EntryRef where
  path : Str
  isDir : Bool

def EntryRef.matches (ref : EntryRef) (entryPath : Str) : Bool :=
  if ref.path = entryPath then true
  else if ref.isDir then
    let leading := trimEndMatches (· = '/') ref.path
    startsWith entryPath leading &&
      (entryPath.length = leading.length || entryPath[leading.length]? = some '/')
  else false

/-- The order in which a set of paths is iterated. -/
structure Iteration where
  arrange : List Str → List Str
  perm : ∀ paths, (arrange paths).Perm paths

/-- The set of the paths selected, a directory expanded. -/
def selectedPaths (entries : List ArchiveEntry) (refs : List EntryRef) : List Str :=
  (refs.flatMap fun ref =>
    if ref.isDir then (entries.map ArchiveEntry.path).filter ref.matches
    else [ref.path]).dedup

/-- What the tool is told to extract. -/
inductive Command where
  | extractAll
  | excludeFile (paths : List Str)
  | files (paths : List Str)
  | includeFile (paths : List Str)

def extractSelective (iteration : Iteration) (archive dest : Str) (password : Option Str)
    (entries : List ArchiveEntry) (refs : List EntryRef) : Command :=
  let selected := selectedPaths entries refs
  let excludedCount := entries.length - selected.length
  if excludedCount = 0 then .extractAll
  else if excludedCount ≤ fileCountThreshold then
    .excludeFile ((entries.map ArchiveEntry.path).filter (· ∉ selected))
  else if selected.length ≤ fileCountThreshold then
    let args := extractArgs archive dest password
    .files (pushFiles (iteration.arrange selected) ⟨args, [], argsLength args⟩).requested
  else .includeFile (iteration.arrange selected)

/-- The tool applies a listed path to the entry and to everything below it. -/
def Applies (listed path : Str) : Prop := listed = path ∨ listed ++ ['/'] <+: path

/-- Whether an entry is extracted.  Without any file the tool extracts everything. -/
def Command.Extracts : Command → Str → Prop
  | .extractAll, _ | .files [], _ => True
  | .excludeFile paths, path => ∀ listed ∈ paths, ¬ Applies listed path
  | .files paths, path | .includeFile paths, path => ∃ listed ∈ paths, Applies listed path

section

variable {entries : List ArchiveEntry} {refs : List EntryRef} {archive dest : Str}
  {password : Option Str}

/-- What a selection should extract. -/
def Selects (refs : List EntryRef) (path : Str) : Prop := ∃ ref ∈ refs, ref.matches path = true

variable {path : Str}

theorem mem_selectedPaths : path ∈ selectedPaths entries refs ↔ ∃ ref ∈ refs, if ref.isDir then
    path ∈ entries.map ArchiveEntry.path ∧ ref.matches path = true else path = ref.path := by
  rw [selectedPaths, mem_dedup, mem_flatMap]
  refine exists_congr fun ref => and_congr_right fun _ => ?_
  split <;> simp

theorem selects_iff (listed : path ∈ entries.map ArchiveEntry.path) :
    Selects refs path ↔ path ∈ selectedPaths entries refs := by
  rw [mem_selectedPaths]
  refine exists_congr fun ref => and_congr_right fun _ => ?_
  split
  · rw [and_iff_right listed]
  next file => simp [EntryRef.matches, file, eq_comm]

def IsFile (entries : List ArchiveEntry) (path : Str) : Prop :=
  ∃ entry ∈ entries, entry.isDir = false ∧ entry.path = path

theorem IsFile.listed (file : IsFile entries path) : path ∈ entries.map ArchiveEntry.path := by
  obtain ⟨_, mem, _, rfl⟩ := file
  exact mem_map_of_mem mem

/-- A file is put on the command line. -/
def Passes (args files : List Str) (file : Str) : Prop :=
  ∃ earlier later, files = earlier ++ file :: later ∧ FitsCommandLine args (earlier ++ [file])

theorem passes_cons {args files : List Str} {first file : Str} : Passes args (first :: files) file ↔
    (argsLength (args ++ [first]) ≤ cmdLineLengthLimit ∨ first ∈ args) ∧
      (file = first ∨ Passes (args ++ [first]) files file) := by
  constructor
  · rintro ⟨earlier, later, split, fits⟩
    cases earlier with
    | nil =>
      obtain ⟨rfl, rfl⟩ := cons.inj split
      exact ⟨(fitsCommandLine_cons.mp fits).1, .inl rfl⟩
    | cons _ earlier =>
      obtain ⟨rfl, rest⟩ := cons.inj split
      obtain ⟨here, behind⟩ := fitsCommandLine_cons.mp fits
      exact ⟨here, .inr ⟨earlier, later, rest, behind⟩⟩
  · rintro ⟨here, rfl | ⟨earlier, later, rfl, fits⟩⟩
    · exact ⟨[], files, rfl, fitsCommandLine_cons.mpr ⟨here, by simp [FitsCommandLine]⟩⟩
    · exact ⟨first :: earlier, later, rfl, fitsCommandLine_cons.mpr ⟨here, fits⟩⟩

theorem mem_requested {args files requested : List Str} {file : Str} :
    file ∈ (pushFiles files ⟨args, requested, argsLength args⟩).requested ↔
      file ∈ requested ∨ Passes args files file := by
  induction files generalizing args requested with
  | nil => simp [pushFiles, Passes]
  | cons first files ih =>
    rw [passes_cons, pushFiles, argsLength_snoc]
    dsimp only
    split
    next cut => simp [cut, Nat.not_le.mpr cut.1]
    next passes =>
      have fits : argsLength args + utf8Len first + 1 ≤ cmdLineLengthLimit ∨ first ∈ args := by
        simpa [imp_iff_or_not, or_comm] using passes
      rw [← argsLength_snoc, ih, argsLength_snoc, and_iff_right fits]
      simp [or_assoc]

/-- The condition under which each strategy means what the references say. -/
def StrategyExact (entries : List ArchiveEntry) (refs : List EntryRef) (args paths : List Str) :
    Prop :=
  if entries.length ≤ paths.length then ∀ file, IsFile entries file → Selects refs file
  else if entries.length ≤ paths.length + fileCountThreshold then
    ∀ entry ∈ entries, ¬ Selects refs entry.path →
      ∀ file, IsFile entries file → entry.path ++ ['/'] <+: file → ¬ Selects refs file
  else if paths.length ≤ fileCountThreshold then
    (∃ path, Passes args paths path) ∧ (∀ file, IsFile entries file → Selects refs file →
      ∃ path, Passes args paths path ∧ Applies path file) ∧
      (∀ path, Passes args paths path → ∀ file, IsFile entries file →
        path ++ ['/'] <+: file → Selects refs file) ∨
    (∀ path, ¬ Passes args paths path) ∧ ∀ file, IsFile entries file → Selects refs file
  else ∀ path ∈ paths, ∀ file, IsFile entries file → path ++ ['/'] <+: file → Selects refs file

theorem applies_exact {listed : Str → Prop}
    (chosen : ∀ path, listed path → path ∈ selectedPaths entries refs) :
    (∀ file, IsFile entries file → ((∃ path, listed path ∧ Applies path file) ↔
      Selects refs file)) ↔
    (∀ file, IsFile entries file → Selects refs file → ∃ path, listed path ∧ Applies path file) ∧
      ∀ path, listed path → ∀ file, IsFile entries file → path ++ ['/'] <+: file →
        Selects refs file := by
  constructor
  · intro exact
    exact ⟨fun file isFile => (exact file isFile).mpr, fun path isListed file isFile below =>
      (exact file isFile).mp ⟨path, isListed, .inr below⟩⟩
  · rintro ⟨reached, below⟩ file isFile
    refine ⟨?_, reached file isFile⟩
    rintro ⟨path, isListed, rfl | isBelow⟩
    · exact (selects_iff isFile.listed).mpr (chosen _ isListed)
    · exact below path isListed file isFile isBelow

/-- The tool extracts the files that the references match, exactly if the strategy is
right for them. -/
theorem extractSelective_exact_iff (iteration : Iteration) : (∀ file, IsFile entries file →
    ((extractSelective iteration archive dest password entries refs).Extracts file ↔
      Selects refs file)) ↔
    StrategyExact entries refs (extractArgs archive dest password)
      (iteration.arrange (selectedPaths entries refs)) := by
  have same := iteration.perm (selectedPaths entries refs)
  have chosen {path : Str} (mem : path ∈ iteration.arrange (selectedPaths entries refs)) :
      path ∈ selectedPaths entries refs :=
    same.mem_iff.mp mem
  unfold StrategyExact extractSelective
  dsimp only
  rw [same.length_eq]
  by_cases all : entries.length ≤ (selectedPaths entries refs).length
  · rw [if_pos (Nat.sub_eq_zero_of_le all), if_pos all]
    simp [Command.Extracts]
  rw [if_neg (by omega), if_neg all]
  by_cases few : entries.length ≤ (selectedPaths entries refs).length + fileCountThreshold
  · rw [if_pos (by omega), if_pos few]
    simp only [Command.Extracts, mem_filter, forall_mem_map, decide_eq_true_eq, and_imp]
    constructor
    · intro exact entry mem unselected file isFile below selected
      refine (exact file isFile).mpr selected entry mem ?_ (.inr below)
      exact fun isSelected => unselected ((selects_iff (mem_map_of_mem mem)).mpr isSelected)
    · intro clear file isFile
      constructor
      · intro unlisted
        by_contra unselected
        obtain ⟨entry, mem, _, rfl⟩ := isFile
        exact unlisted entry mem
          (fun isSelected => unselected ((selects_iff (mem_map_of_mem mem)).mpr isSelected))
          (.inl rfl)
      · intro selected entry mem excluded applies
        rcases applies with rfl | below
        · exact excluded ((selects_iff isFile.listed).mp selected)
        · exact clear entry mem
            (fun isSelected => excluded ((selects_iff (mem_map_of_mem mem)).mp isSelected))
            file isFile below selected
  rw [if_neg (by omega), if_neg few]
  by_cases short : (selectedPaths entries refs).length ≤ fileCountThreshold
  · rw [if_pos short, if_pos short]
    generalize requested : (pushFiles (iteration.arrange (selectedPaths entries refs)) _).requested
      = files
    have passes {path : Str} : path ∈ files ↔ Passes (extractArgs archive dest password)
        (iteration.arrange (selectedPaths entries refs)) path := by
      rw [← requested, mem_requested, or_iff_right not_mem_nil]
    cases files with
    | nil =>
      have none := fun path => mt passes.mpr (@List.not_mem_nil _ path)
      simp [Command.Extracts, none]
    | cons first =>
      have some : ∃ path, Passes _ _ path := ⟨first, passes.mp mem_cons_self⟩
      rw [or_iff_left fun none => none.1 _ some.choose_spec, and_iff_right some]
      simp only [Command.Extracts, passes]
      refine applies_exact fun path ⟨earlier, later, split, _⟩ => chosen (split ▸ by simp)
  · rw [if_neg short, if_neg short]
    refine (applies_exact fun _ => chosen).trans (and_iff_right fun file isFile selected => ?_)
    exact ⟨file, same.mem_iff.mpr ((selects_iff isFile.listed).mp selected), .inl rfl⟩

/-- A reference that names nothing makes up for the entry left out. -/
theorem unknown_reference_extracts_all :
    ¬ ∀ (iteration : Iteration) (archive dest : Str) (password : Option Str)
      (entries : List ArchiveEntry) (refs : List EntryRef) (file : Str), IsFile entries file →
        ((extractSelective iteration archive dest password entries refs).Extracts file ↔
          Selects refs file) := by
  intro exact
  let entry (path : Str) : ArchiveEntry := ⟨path, 1, 1, none, false, false, none⟩
  have extracted := (exact ⟨id, fun _ => .refl _⟩ [] [] none [entry ['a'], entry ['b']]
    [⟨['a'], false⟩, ⟨['c'], false⟩] ['b'] ⟨entry ['b'], by simp, rfl, rfl⟩).mp trivial
  obtain ⟨ref, _, _⟩ := extracted
  revert ref
  decide

end

end Arclain.SevenZipCli
