import Arclain.CacheKeys

namespace Arclain.Extract

open List Cache

/-!
# Runs of an extraction

A run under a policy that protects files names every file to extract.  The names are split
into chunks, and every chunk is an invocation of its own, repeated for as long as a password
is asked for.
-/

inductive CollisionPolicy where
  | ask
  | overwrite
  | rename
  | skip

inductive ExtractSelection where
  | wholeArchive
  | files (paths : List Str)
  deriving DecidableEq

/-- The paths a selection would write. -/
def candidatePaths (allFilePaths : List Str) : ExtractSelection → List Str
  | .wholeArchive => allFilePaths
  | .files files => files

def collidingPaths (occupied : Str → Bool) (candidates : List Str) : List Str :=
  candidates.filter occupied

def filterOut (candidates excluded : List Str) : List Str := candidates.filter (· ∉ excluded)

def maxChunkArgsChars : Nat := 28000

/-- The loop of `chunk_file_list`. -/
def chunkFiles : List Str → List Str → Nat → List (List Str)
  | [], current, _ => if current = [] then [] else [current]
  | file :: files, current, currentLen =>
    let addedLen := utf8Len file + 1
    if current ≠ [] ∧ maxChunkArgsChars < currentLen + addedLen then
      current :: chunkFiles files [file] addedLen
    else chunkFiles files (current ++ [file]) (currentLen + addedLen)

def chunkFileList (files : List Str) : List (List Str) :=
  if files = [] then [] else chunkFiles files [] 0

structure Resolution where
  selection : ExtractSelection
  needsStaging : Bool

/-- What comes of the question whether to overwrite. -/
inductive Answer where
  | refused
  | cancelled
  | confirmOverwrite (overwrite : Bool)
  | other
  | closed

/-- `resolve_collisions`; without a resolution the operation was cancelled. -/
def resolveCollisions (policy : CollisionPolicy) (occupied : Str → Bool)
    (allFilePaths : List Str) (answer : Answer) (selection : ExtractSelection) :
    Except Unit (Option Resolution) :=
  let candidates := candidatePaths allFilePaths selection
  let colliding := collidingPaths occupied candidates
  match policy with
  | .overwrite => .ok (some ⟨selection, false⟩)
  | .rename => .ok (some ⟨selection, true⟩)
  | .skip => .ok (some ⟨.files (filterOut candidates colliding), false⟩)
  | .ask =>
    if colliding = [] then .ok (some ⟨selection, false⟩)
    else
      match answer with
      | .confirmOverwrite true => .ok (some ⟨selection, false⟩)
      | .confirmOverwrite false => .ok (some ⟨.files (filterOut candidates colliding), false⟩)
      | .other => .error ()
      | .refused | .cancelled | .closed => .ok none

/-- One turn of the loop over the attempts: cancelled before the runner is invoked or while
it runs, or the runner ends. -/
inductive Reply where
  | cancelled
  | killed
  | succeeded
  | passwordRequired (retry : Option Str)
  | failed

def Reply.retries : Reply → Bool
  | .passwordRequired (some _) => true
  | _ => false

/-- The part of a plan that differs between the invocations of one operation. -/
structure ExtractPlan where
  password : Option Str
  selection : ExtractSelection

inductive Ending where
  | running
  | stopped
  | failed
  | completed
  deriving DecidableEq

structure Run where
  invocations : List ExtractPlan
  ending : Ending

def Run.after (plan : ExtractPlan) (run : Run) : Run :=
  { run with invocations := plan :: run.invocations }

/-- The loops of `run_extract`, given what comes of every turn so far. -/
def runChunks : List Reply → Option Str → List ExtractSelection → Run
  | _, _, [] => ⟨[], .completed⟩
  | [], _, _ :: _ => ⟨[], .running⟩
  | reply :: replies, password, chunk :: chunks =>
    let plan := ⟨password, chunk⟩
    match reply with
    | .cancelled => ⟨[], .stopped⟩
    | .killed => ⟨[plan], .stopped⟩
    | .succeeded => (runChunks replies password chunks).after plan
    | .passwordRequired (some retry) =>
      (runChunks replies (some retry) (chunk :: chunks)).after plan
    | .passwordRequired none => ⟨[plan], .stopped⟩
    | .failed => ⟨[plan], .failed⟩

/-- `run_extract` behind the checks of the request. -/
def runExtract (resolved : Except Unit (Option Resolution)) (staged finalized : Bool)
    (password : Option Str) (replies : List Reply) : Run :=
  match resolved with
  | .error () => ⟨[], .failed⟩
  | .ok none => ⟨[], .stopped⟩
  | .ok (some ⟨selection, needsStaging⟩) =>
    if selection = .files [] then ⟨[], .completed⟩
    else if needsStaging && !staged then ⟨[], .failed⟩
    else
      let chunks :=
        match selection with
        | .wholeArchive => [.wholeArchive]
        | .files files => (chunkFileList files).map .files
      let run := runChunks replies password chunks
      if run.ending = .completed ∧ needsStaging ∧ !finalized then { run with ending := .failed }
      else run

def argChars (files : List Str) : Nat := (files.map fun file => utf8Len file + 1).sum

/-- A chunk is not empty, and longer than the limit only if it is a single path. -/
def IsChunk (files : List Str) : Prop :=
  files ≠ [] ∧ (argChars files ≤ maxChunkArgsChars ∨ ∃ file, files = [file])

theorem chunkFiles_spec (files current : List Str) (fits : current ≠ [] → IsChunk current) :
    (chunkFiles files current (argChars current)).flatten = current ++ files ∧
      ∀ chunk ∈ chunkFiles files current (argChars current), IsChunk chunk := by
  induction files generalizing current with
  | nil =>
    by_cases empty : current = []
    · simp [chunkFiles, empty]
    · simp [chunkFiles, empty, fits empty]
  | cons file files ih =>
    have single : IsChunk [file] := ⟨cons_ne_nil _ _, .inr ⟨file, rfl⟩⟩
    have length : argChars (current ++ [file]) = argChars current + (utf8Len file + 1) := by
      simp [argChars]
    rw [chunkFiles]
    split
    next full =>
      obtain ⟨joined, chunks⟩ := ih [file] fun _ => single
      rw [show argChars [file] = utf8Len file + 1 from by simp [argChars]] at joined chunks
      exact ⟨by simp [joined], forall_mem_cons.mpr ⟨fits full.1, chunks⟩⟩
    next notFull =>
      rw [← length]
      obtain ⟨joined, chunks⟩ := ih (current ++ [file]) fun _ => by
        by_cases empty : current = []
        · simpa [empty] using single
        · refine ⟨by simp, .inl ?_⟩
          rw [length]
          exact Nat.not_lt.mp fun more => notFull ⟨empty, more⟩
      exact ⟨by simp [joined], chunks⟩

theorem chunkFileList_spec (files : List Str) :
    (chunkFileList files).flatten = files ∧ ∀ chunk ∈ chunkFileList files, IsChunk chunk := by
  unfold chunkFileList
  split
  next none => simp [none]
  · exact chunkFiles_spec files [] fun some => absurd rfl some

theorem runChunks_passes (replies : List Reply) (password : Option Str)
    (chunks : List ExtractSelection) : ∃ retries : List Nat, retries.length ≤ chunks.length ∧
      retries.sum ≤ replies.countP Reply.retries ∧
      ((runChunks replies password chunks).ending = .completed → retries.length = chunks.length) ∧
      (runChunks replies password chunks).invocations.map ExtractPlan.selection =
        (zipWith (fun chunk retried => replicate (retried + 1) chunk)
          chunks retries).flatten := by
  induction replies generalizing password chunks with
  | nil => refine ⟨[], Nat.zero_le _, Nat.zero_le _, ?_, ?_⟩ <;> cases chunks <;> simp [runChunks]
  | cons reply replies ih =>
    cases chunks with
    | nil => exact ⟨[], by simp [runChunks]⟩
    | cons chunk chunks =>
      cases reply with
      | cancelled => exact ⟨[], by simp [runChunks]⟩
      | killed | failed => exact ⟨[0], by simp [runChunks]⟩
      | succeeded =>
        obtain ⟨retries, length, count, all, passed⟩ := ih password chunks
        refine ⟨0 :: retries, Nat.succ_le_succ length, by simpa [Reply.retries] using count,
          fun done => congrArg (· + 1) (all done), ?_⟩
        simpa [runChunks, Run.after] using passed
      | passwordRequired retry =>
        cases retry with
        | none => exact ⟨[0], by simp [runChunks]⟩
        | some retry =>
          obtain ⟨retries, length, count, all, passed⟩ := ih (some retry) (chunk :: chunks)
          cases retries with
          | nil =>
            refine ⟨[0], by simp, by simp, fun done => absurd (all done) (by simp), ?_⟩
            simpa [runChunks, Run.after] using passed
          | cons retried retries =>
            refine ⟨(retried + 1) :: retries, length, ?_, all, ?_⟩
            · rw [sum_cons] at count
              rw [sum_cons, countP_cons_of_pos rfl]
              omega
            · simpa [runChunks, Run.after, replicate_succ] using passed

/-- A run that keeps what exists passes the paths that do not exist, in order and in chunks,
again only for a password. -/
theorem runExtract_passes_kept {policy : CollisionPolicy} {occupied : Str → Bool}
    {allFilePaths : List Str} {answer : Answer} {selection : ExtractSelection}
    (staged finalized : Bool) (password : Option Str) (replies : List Reply)
    (keeps : policy = .skip ∨ policy = .ask ∧ answer = .confirmOverwrite false ∧
      collidingPaths occupied (candidatePaths allFilePaths selection) ≠ []) :
    let run := runExtract (resolveCollisions policy occupied allFilePaths answer selection)
      staged finalized password replies
    ∃ (chunks : List (List Str)) (retries : List Nat),
      chunks.flatten = (candidatePaths allFilePaths selection).filter (!occupied ·) ∧
      (∀ chunk ∈ chunks, IsChunk chunk) ∧
      retries.length ≤ chunks.length ∧ retries.sum ≤ replies.countP Reply.retries ∧
      (run.ending = .completed → retries.length = chunks.length) ∧
      run.invocations.map ExtractPlan.selection =
        (zipWith (fun chunk retried => replicate (retried + 1) (.files chunk))
          chunks retries).flatten := by
  intro run
  let candidates := candidatePaths allFilePaths selection
  let kept := filterOut candidates (collidingPaths occupied candidates)
  have resolved : resolveCollisions policy occupied allFilePaths answer selection =
      .ok (some ⟨.files kept, false⟩) := by
    rcases keeps with rfl | ⟨rfl, rfl, colliding⟩
    · rfl
    · simp only [resolveCollisions, if_neg colliding]
      rfl
  have isKept : kept = candidates.filter (!occupied ·) := by
    refine filter_congr fun path mem => ?_
    simp [collidingPaths, mem]
  obtain ⟨joined, areChunks⟩ := chunkFileList_spec kept
  obtain ⟨retries, length, count, all, passed⟩ :=
    runChunks_passes replies password ((chunkFileList kept).map .files)
  refine ⟨chunkFileList kept, ?_⟩
  simp only [run, resolved, runExtract]
  by_cases none : kept = []
  · refine ⟨[], joined.trans isKept, areChunks, ?_⟩
    simp [none, chunkFileList]
  · rw [length_map] at length all
    refine ⟨retries, joined.trans isKept, areChunks, ?_⟩
    rw [zipWith_map_left] at passed
    simpa [none] using ⟨length, count, all, passed⟩

/-- A kept file is not passed. -/
theorem declined_overwrite_passes_other :
    ∃ (chunks : List (List Str)) (retries : List Nat), chunks.flatten = [['b']] ∧
      (∀ chunk ∈ chunks, IsChunk chunk) ∧ retries.length = chunks.length := by
  obtain ⟨chunks, retries, joined, areChunks, _, _, all, _⟩ :=
    @runExtract_passes_kept .ask (· = ['a']) [['a'], ['b']] (.confirmOverwrite false) .wholeArchive
      true true none [.succeeded] (.inr ⟨rfl, rfl, by decide⟩)
  exact ⟨chunks, retries, joined, areChunks, all (by decide)⟩

/-- A path is passed twice if the first invocation asks for a password. -/
theorem retry_passes_again : ¬ ∀ occupied allFilePaths replies,
    let run := runExtract
      (resolveCollisions .skip occupied allFilePaths .closed .wholeArchive) true true none replies
    run.ending = .completed → run.invocations.flatMap (candidatePaths [] ·.selection) =
      allFilePaths.filter (!occupied ·) := by
  intro once
  exact absurd
    (once (fun _ => false) [['a']] [.passwordRequired (some ['p']), .succeeded] (by decide))
    (by decide)

end Arclain.Extract
