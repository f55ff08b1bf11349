import Arclain.PlanSources

namespace Arclain.PlanBuilder

/-!
# Which placement carries a file, and where to

The placements of a layout are evaluated one after the other over all files of an output,
and a claimed file is not offered again.
-/

open List Option Text Fallible OutputResolution Except Prod

section

variable [CharTables]

def located (files : List ScopedEntry) (source : Source) : Str :=
  (locate source (files.map fun file => (file, false))).1

def placementRoute (output : ResolvedOutput) (files : List ScopedEntry)
    (placement : Placement) : Route :=
  routeOf output.name (expand placement.into output.values).1
    (located files placement.source) placement.source

def firstMove (output : ResolvedOutput) (files : List ScopedEntry) (placements : List Placement)
    (file : ScopedEntry) : Option (Str × Str) :=
  (placements.find? fun placement =>
    (placementRoute output files placement).accepts file.relative.path).map fun placement =>
      (file.source, joinDestination [output.name, (expand placement.into output.values).1,
        stripDirectory file.relative.path (located files placement.source)])

theorem locate_claimed (files : List ScopedEntry) (claimed : ScopedEntry → Bool) (source : Source) :
    (locate source (files.map fun file => (file, claimed file))).1 = located files source := by
  cases source with
  | all | matching => rfl
  | contentRoot => simp [located, locate, Function.comp_def]

theorem foldlM_placeFile {route : Route} {files : List (ScopedEntry × Bool)} {start result : Pass}
    (looped : files.foldlM (placeFile route) start = .ok result) :
    result.files = start.files ++ files.map (fun file =>
      (file.1, file.2 || route.accepts file.1.relative.path)) ∧
      result.moves = start.moves ++ (files.filter fun file =>
        !file.2 && route.accepts file.1.relative.path).map fun file =>
          (file.1.source, route.destination file.1.relative.path) := by
  induction files generalizing start with
  | nil =>
    obtain rfl := ok.inj looped
    simp
  | cons file files ih =>
    obtain ⟨next, placed, rest⟩ := foldlM_cons_eq_ok.mp looped
    obtain ⟨claimed, moved⟩ := ih rest
    rw [claimed, moved]
    unfold placeFile at placed
    split at placed
    next skipped =>
      obtain rfl := ok.inj placed
      have unchanged : (file.2 || route.accepts file.1.relative.path) = file.2 ∧
          (!file.2 && route.accepts file.1.relative.path) = false := by
        rcases skipped with isClaimed | unmatched
        · simp [isClaimed]
        · simp [Bool.eq_false_iff.mpr unmatched]
      simp [unchanged.1, unchanged.2]
    next offered =>
      obtain ⟨_, -, done⟩ := bind_eq_ok.mp placed
      obtain rfl := ok.inj done
      rw [not_or, not_not] at offered
      obtain ⟨unclaimed, matched⟩ := offered
      have unclaimed : file.2 = false := Bool.eq_false_iff.mpr unclaimed
      simp [unclaimed, matched]

theorem filterMap_firstMove_concat (output : ResolvedOutput) (files : List ScopedEntry)
    (earlier : List Placement) (placement : Placement) (offered : List ScopedEntry) :
    (offered.filterMap (firstMove output files (earlier ++ [placement]))).Perm
      (offered.filterMap (firstMove output files earlier) ++ (offered.filter fun file =>
        !(earlier.any fun other =>
          (placementRoute output files other).accepts file.relative.path) &&
          (placementRoute output files placement).accepts file.relative.path).map fun file =>
        (file.source, (placementRoute output files placement).destination file.relative.path)) := by
  induction offered with
  | nil => exact .nil
  | cons file offered ih =>
    by_cases isEarlier : (earlier.any fun other =>
      (placementRoute output files other).accepts file.relative.path) = true
    · obtain ⟨_, found⟩ :=
        isSome_iff_exists.mp (find?_isSome.mpr (any_eq_true.mp isEarlier))
      simp only [filterMap_cons, firstMove, find?_append, found,
        some_or, map_some, cons_append, isEarlier,
        filter_cons, Bool.not_true, Bool.false_and, Bool.false_eq_true, if_false]
      exact ih.cons _
    · have none : (earlier.find? fun other =>
        (placementRoute output files other).accepts file.relative.path) = none := by
        rw [find?_eq_none]
        intro other mem accepts
        exact isEarlier (any_eq_true.mpr ⟨other, mem, accepts⟩)
      have notEarlier := Bool.eq_false_iff.mpr isEarlier
      cases accepts : (placementRoute output files placement).accepts file.relative.path with
      | true =>
        simp only [filterMap_cons, firstMove, find?_append, none,
          none_or, find?_cons, accepts, map_some,
          map_none, filter_cons, notEarlier, Bool.not_false, Bool.true_and, if_true, map_cons]
        exact (ih.cons _).trans perm_middle.symm
      | false =>
        simp only [filterMap_cons, firstMove, find?_append, none,
          none_or, find?_cons, find?_nil, accepts,
          map_none, filter_cons, notEarlier, Bool.not_false,
          Bool.true_and, Bool.false_eq_true, if_false]
        exact ih

/-- A file is claimed if one of the placements so far matches it, and moved as the first of
them says. -/
structure Placed (output : ResolvedOutput) (files : List ScopedEntry) (placements : List Placement)
    (filling : Filling) : Prop where
  claimed : filling.files = files.map fun file =>
    (file, placements.any fun placement =>
      (placementRoute output files placement).accepts file.relative.path)
  moved : filling.moves.Perm (files.filterMap (firstMove output files placements))

variable {output : ResolvedOutput} {filling next : Filling} {placement : Placement}

theorem pass_of_placeOne (step : placeOne output filling placement = .ok next) :
    ∃ pass, filling.files.foldlM (placeFile
      (routeOf output.name (expand placement.into output.values).1
        (locate placement.source filling.files).1 placement.source))
          { files := []
            moves := filling.moves
            taken := filling.taken
            placed := 0 } = .ok pass ∧
        next.files = pass.files ∧
        next.moves = pass.moves ∧
        next.taken = pass.taken := by
  obtain ⟨pass, looped, done⟩ := bind_eq_ok.mp step
  obtain rfl := ok.inj done
  exact ⟨pass, looped, rfl, rfl, rfl⟩

variable {files : List ScopedEntry}

theorem Placed.placeOne {placements : List Placement}
    (before : Placed output files placements filling)
    (step : PlanBuilder.placeOne output filling placement = .ok next) :
    Placed output files (placements ++ [placement]) next := by
  obtain ⟨_, looped, sameFiles, sameMoves, -⟩ := pass_of_placeOne step
  obtain ⟨claimed, moved⟩ := foldlM_placeFile looped
  rw [before.claimed, locate_claimed] at claimed moved
  constructor
  · rw [sameFiles, claimed, nil_append, List.map_map]
    refine map_congr_left fun file _ => ?_
    simp [placementRoute]
  · rw [sameMoves, moved, List.filter_map, List.map_map]
    exact (before.moved.append_right _).trans
      (filterMap_firstMove_concat output files placements placement files).symm

theorem placed_of_foldlM {placements later : List Placement}
    {filling result : Filling} (before : Placed output files placements filling)
    (looped : later.foldlM (placeOne output) filling = .ok result) :
    Placed output files (placements ++ later) result := by
  induction later generalizing placements filling with
  | nil =>
    obtain rfl := ok.inj looped
    rwa [append_nil]
  | cons _ later ih =>
    obtain ⟨_, step, rest⟩ := foldlM_cons_eq_ok.mp looped
    have after := ih (before.placeOne step) rest
    rwa [append_assoc] at after

/-- The destinations that are taken: exactly those given, each once. -/
def Entered (taken : KeyedMap Str Str) (destinations : List Str) : Prop :=
  taken.keys.Perm (destinations.map uppercase) ∧ taken.keys.Nodup

theorem Entered.claim {taken next : KeyedMap Str Str} {destinations more : List Str}
    {destination : Str} (entered : Entered taken destinations)
    (claimed : claimDestination taken destination = .ok next)
    (added : more.Perm (destination :: destinations)) : Entered next more := by
  obtain ⟨keys, distinct⟩ := collects_of_claimUppercase claimed
  refine ⟨?_, distinct entered.2⟩
  rw [keys]
  exact (entered.1.cons _).trans (added.map uppercase).symm

theorem Entered.nodup {taken : KeyedMap Str Str} {destinations : List Str}
    (entered : Entered taken destinations) : (destinations.map uppercase).Nodup :=
  entered.1.nodup_iff.mp entered.2

theorem entered_of_placeFile {route : Route} {pass next : Pass} {file : ScopedEntry × Bool}
    (entered : Entered pass.taken (pass.moves.map snd))
    (placed : placeFile route pass file = .ok next) :
    Entered next.taken (next.moves.map snd) := by
  unfold placeFile at placed
  split at placed
  · obtain rfl := ok.inj placed
    exact entered
  · obtain ⟨_, claimed, done⟩ := bind_eq_ok.mp placed
    obtain rfl := ok.inj done
    refine entered.claim claimed ?_
    rw [map_append]
    exact perm_append_comm

theorem entered_of_placeOne (entered : Entered filling.taken (filling.moves.map snd))
    (step : placeOne output filling placement = .ok next) :
    Entered next.taken (next.moves.map snd) := by
  obtain ⟨pass, looped, -, sameMoves, sameTaken⟩ := pass_of_placeOne step
  rw [sameMoves, sameTaken]
  exact foldlM_preserves (fun pass => Entered pass.taken (pass.moves.map snd))
    (fun _ => entered_of_placeFile) entered looped

def Extras.destinations (moves : List (Str × Str)) (extras : Extras) : List Str :=
  moves.map snd ++ (extras.generatedFiles.map fst ++
    extras.downloads.map PendingDownload.destPath)

variable {fetched : Fetched} {moves : List (Str × Str)}

theorem entered_of_fetchScreenshot {game : GameMetadata} {into : Str}
    {extras next : Extras} {screenshot : ScreenshotData × Nat}
    (entered : Entered extras.taken (extras.destinations moves))
    (step : fetchScreenshot output game fetched into extras screenshot = .ok next) :
    Entered next.taken (next.destinations moves) := by
  unfold fetchScreenshot at step
  split at step
  · obtain ⟨_, claimed, done⟩ := bind_eq_ok.mp step
    obtain rfl := ok.inj done
    refine entered.claim claimed ?_
    simp only [Extras.destinations, map_append, map_cons, map_nil, ← append_assoc]
    exact perm_append_comm
  · obtain rfl := ok.inj step
    exact entered
  · obtain rfl := ok.inj step
    exact entered

theorem entered_of_fetchOne {metadata : Option GameMetadata} {extras next : Extras}
    (entered : Entered extras.taken (extras.destinations moves))
    (step : fetchOne output metadata extras fetched = .ok next) :
    Entered next.taken (next.destinations moves) := by
  unfold fetchOne at step
  split at step
  split at step
  · obtain rfl := ok.inj step
    exact entered
  · exact foldlM_preserves (fun extras => Entered extras.taken (extras.destinations moves))
      (fun _ => entered_of_fetchScreenshot)
      entered step

section

variable [Libraries]

theorem entered_of_generateOne {output : ResolvedOutput} {metadata : Option GameMetadata}
    {generated : Generated} {moves : List (Str × Str)} {extras next : Extras}
    (entered : Entered extras.taken (extras.destinations moves))
    (step : generateOne output metadata extras generated = .ok next) :
    Entered next.taken (next.destinations moves) := by
  unfold generateOne at step
  split at step
  split at step
  · obtain rfl := ok.inj step
    exact entered
  · obtain ⟨_, claimed, done⟩ := bind_eq_ok.mp step
    obtain rfl := ok.inj done
    refine entered.claim claimed ?_
    simp only [Extras.destinations, map_append, map_cons, map_nil,
      append_assoc, cons_append, nil_append]
    rw [← append_assoc, ← append_assoc]
    exact perm_middle

theorem moves_of_fillOutput {layout : Layout} {entries : List ArchiveEntry}
    {metadata : Option GameMetadata} {output : ResolvedOutput} {filled : PlannedOutput}
    (succeeded : fillOutput layout entries metadata output = .ok filled) :
    filled.moves.Perm ((scopeEntries output.root entries).filterMap
      (firstMove output (scopeEntries output.root entries) layout.place)) ∧
      (filled.destinations.map uppercase).Nodup := by
  obtain ⟨⟨⟩, -, succeeded⟩ := bind_eq_ok.mp succeeded
  obtain ⟨filling, placed, succeeded⟩ := bind_eq_ok.mp succeeded
  obtain ⟨generated, wrote, succeeded⟩ := bind_eq_ok.mp succeeded
  obtain ⟨extras, fetched, done⟩ := bind_eq_ok.mp succeeded
  obtain rfl := ok.inj done
  have nothingPlaced : Placed output (scopeEntries output.root entries) []
      { files := (scopeEntries output.root entries).map fun file => (file, false)
        moves := []
        taken := ∅
        reasoning := [] } :=
    ⟨by simp, by simp [firstMove]⟩
  have moved := (placed_of_foldlM nothingPlaced placed).moved
  rw [nil_append] at moved
  refine ⟨moved, ?_⟩
  have nothingEntered : Entered ∅ [] := ⟨.nil, nodup_nil⟩
  have afterPlacements : Entered filling.taken (filling.moves.map snd) :=
    foldlM_preserves (fun filling => Entered filling.taken (filling.moves.map snd))
      (fun _ => entered_of_placeOne)
      nothingEntered placed
  have afterGenerated : Entered generated.taken (generated.destinations filling.moves) :=
    foldlM_preserves (fun extras => Entered extras.taken (extras.destinations filling.moves))
      (fun _ => entered_of_generateOne)
      (by simpa [Extras.destinations] using afterPlacements) wrote
  have afterFetched : Entered extras.taken (extras.destinations filling.moves) :=
    foldlM_preserves (fun extras => Entered extras.taken (extras.destinations filling.moves))
      (fun _ => entered_of_fetchOne)
      afterGenerated fetched
  exact afterFetched.nodup

end

section

/-- An entry as a file of an output: no directory, and its path, with forward slashes, is the
root, a slash and the relative path. -/
def Scopes (root : Str) (entry : ArchiveEntry) : Option ScopedEntry → Prop
  | some file =>
    entry.isDir = false ∧ ∃ path, file = ⟨entry.path, { entry with path := path }⟩ ∧
      (root = [] ∧ forwardSlashes entry.path = path ∨
        root ≠ [] ∧ forwardSlashes entry.path = forwardSlashes root ++ '/' :: path)
  | none =>
    entry.isDir = true ∨
      root ≠ [] ∧ ∀ path, forwardSlashes entry.path ≠ forwardSlashes root ++ '/' :: path

/-- The folders that a glob spells out: the segments before its last one, up to the first
with a wildcard. -/
def SpellsOut (glob located : Str) : Prop :=
  ∃ folders wild last, glob.splitOn '/' = folders ++ wild ++ [last] ∧
    (∀ folder ∈ folders, '*' ∉ folder ∧ '?' ∉ folder) ∧
    (∀ first ∈ wild.head?, '*' ∈ first ∨ '?' ∈ first) ∧ located = join ['/'] folders

def contentRootOf (files : List ScopedEntry) : Str :=
  forwardSlashes (ContentRoot.detectContentRoot (files.map ScopedEntry.relative)).path

/-- What a placement locates among the files of an output: nothing, the folders of its glob,
or their content root. -/
def Locates (files : List ScopedEntry) : Source → Str → Prop
  | .all, located => located = []
  | .matching glob, located => SpellsOut glob located
  | .contentRoot, located => located = contentRootOf files

/-- A path is a directory, up to ASCII case, a slash and the rest. -/
def Below (directory path rest : Str) : Prop :=
  ∃ head, head.map Char.toLower = directory.map Char.toLower ∧ path = head ++ '/' :: rest

/-- What is carried of a path: the rest behind the located prefix, or all of it where that
does not lead the path. -/
def Carries (located path rest : Str) : Prop :=
  located ≠ [] ∧ Below located path rest ∨
    rest = path ∧ (located = [] ∨ ∀ other, ¬ Below located path other)

def Matches (files : List ScopedEntry) (path : Str) : Source → Prop
  | .all => True
  | .matching glob => matchesGlob glob path = true
  | .contentRoot => contentRootOf files = [] ∨ ∃ rest, Below (contentRootOf files) path rest

/-- The move of a file: the first placement that matches it carries what follows the located
prefix into its own folder, under the name of the output. -/
inductive Moves (output : ResolvedOutput) (files : List ScopedEntry) (placements : List Placement)
    (file : ScopedEntry) : Option (Str × Str) → Prop where
  | left (unmatched : ∀ placement ∈ placements,
      ¬ Matches files file.relative.path placement.source) :
      Moves output files placements file none
  | moved (earlier : List Placement) (placement : Placement) (later : List Placement)
      (located rest : Str)
      (split : placements = earlier ++ placement :: later)
      (first : ∀ other ∈ earlier, ¬ Matches files file.relative.path other.source)
      (isMatch : Matches files file.relative.path placement.source)
      (locates : Locates files placement.source located)
      (carries : Carries located file.relative.path rest) :
      Moves output files placements file (some (file.source, join ['/']
        (([output.name, (expand placement.into output.values).1, rest].flatMap fun part =>
          (forwardSlashes part).splitOn '/').filter fun segment =>
            segment ≠ [] ∧ segment ≠ ['.'])))

/-- The moves are those of the files under the root, each once, and no two destinations are
equal in upper case. -/
structure FilledAsPlaced (layout : Layout) (entries : List ArchiveEntry) (output : ResolvedOutput)
    (filled : PlannedOutput) : Prop where
  moves : ∃ files moves, Forall₂ (Scopes output.root) entries files ∧
    Forall₂ (Moves output files.reduceOption layout.place) files.reduceOption moves ∧
    filled.moves.Perm moves.reduceOption
  distinct : ((filled.moves.map snd ++ (filled.generatedFiles.map fst ++
    filled.downloads.map PendingDownload.destPath)).map uppercase).Nodup

omit [CharTables] in
theorem underRoot_iff (path root : Str) :
    underRoot path root = true ↔ ∃ rest, path = root ++ '/' :: rest := by
  constructor
  · intro under
    obtain ⟨rest, rfl⟩ := prefix_of_underRoot under
    exact ⟨rest, by rw [append_assoc, singleton_append]⟩
  · rintro ⟨rest, rfl⟩
    simp [underRoot, startsWith]

omit [CharTables] in
theorem underDirectory_iff (path directory : Str) :
    underDirectory path directory = true ↔ ∃ rest, Below directory path rest := by
  simp only [underDirectory, eqIgnoreAsciiCase, Bool.and_eq_true, decide_eq_true_eq, beq_iff_eq]
  constructor
  · rintro ⟨⟨longer, same⟩, slash⟩
    refine ⟨path.drop (directory.length + 1), path.take directory.length, same, ?_⟩
    obtain ⟨_, isSlash⟩ := List.getElem?_eq_some_iff.mp slash
    rw [← isSlash, ← drop_eq_getElem_cons, take_append_drop]
  · rintro ⟨rest, head, same, rfl⟩
    have length : head.length = directory.length := by
      simpa using congrArg length same
    rw [← length]
    simp [same]

omit [CharTables] in
theorem carries_stripDirectory (located path : Str) :
    Carries located path (stripDirectory path located) := by
  unfold stripDirectory
  split
  next whole =>
    refine .inr ⟨rfl, whole.imp_right fun notUnder other below => notUnder ?_⟩
    exact (underDirectory_iff path located).mpr ⟨other, below⟩
  next stripped =>
    rw [not_or, not_not, underDirectory_iff] at stripped
    obtain ⟨nonempty, rest, head, same, rfl⟩ := stripped
    have length : head.length = located.length := by
      simpa using congrArg length same
    refine .inl ⟨nonempty, head, same, ?_⟩
    rw [← length, drop_append, drop_eq_nil_of_le (by omega)]
    simp

omit [CharTables] in
theorem spellsOut_literalDirectoryPrefix (glob : Str) :
    SpellsOut glob (literalDirectoryPrefix glob) := by
  unfold literalDirectoryPrefix
  cases found : rsplitOnce '/' glob with
  | none =>
    have absent : '/' ∉ glob := by
      intro slash
      rw [rsplitOnce, if_pos slash] at found
      cases found
    exact ⟨[], [], glob, splitOn_eq_singleton absent, nofun, nofun, rfl⟩
  | some halves =>
    obtain ⟨rfl, absent⟩ := rsplitOnce_spec found
    let spelled := fun segment : Str => decide ('*' ∉ segment ∧ '?' ∉ segment)
    refine ⟨(halves.1.splitOn '/').takeWhile spelled, (halves.1.splitOn '/').dropWhile spelled,
      halves.2, ?_, ?_, ?_, rfl⟩
    · rw [splitOn_append_cons_self, splitOn_eq_singleton absent, takeWhile_append_dropWhile]
    · intro folder mem
      have isSpelled : spelled folder = true := mem_takeWhile_imp mem
      exact of_decide_eq_true isSpelled
    · intro first isFirst
      have stops := head?_dropWhile_not spelled (halves.1.splitOn '/')
      rw [isFirst] at stops
      by_contra neither
      rw [not_or] at neither
      simp [spelled, neither] at stops

theorem locates_located (files : List ScopedEntry) (source : Source) :
    Locates files source (located files source) := by
  cases source with
  | all => rfl
  | matching glob => exact spellsOut_literalDirectoryPrefix glob
  | contentRoot => simp [Locates, located, locate, contentRootOf, Function.comp_def]

theorem accepts_iff (output : ResolvedOutput) (files : List ScopedEntry) (placement : Placement)
    (path : Str) : (placementRoute output files placement).accepts path = true ↔
      Matches files path placement.source := by
  have isLocated := locates_located files placement.source
  unfold placementRoute routeOf
  cases isSource : placement.source with
  | all | matching glob => simp [Matches]
  | contentRoot =>
    rw [isSource] at isLocated
    simp only [Bool.or_eq_true, decide_eq_true_eq, underDirectory_iff, Matches]
    rw [isLocated]

omit [CharTables] in
theorem scopes_scopeEntry (root : Str) (entry : ArchiveEntry) :
    Scopes root entry (scopeEntry (forwardSlashes root) entry) := by
  have isEmpty : forwardSlashes root = [] ↔ root = [] := by
    simp [forwardSlashes, replaceChar]
  unfold scopeEntry
  dsimp only
  split
  next isDir => exact .inl isDir
  next isFile =>
    have isFile : entry.isDir = false := Bool.eq_false_iff.mpr isFile
    split
    next empty => exact ⟨isFile, _, rfl, .inl ⟨isEmpty.mp empty, rfl⟩⟩
    next nonempty =>
      have nonempty : root ≠ [] := fun empty => nonempty (isEmpty.mpr empty)
      split
      next under =>
        obtain ⟨rest, split⟩ := (underRoot_iff _ _).mp under
        refine ⟨isFile, _, rfl, .inr ⟨nonempty, ?_⟩⟩
        rw [split, drop_append, drop_eq_nil_of_le (by omega)]
        simp
      next notUnder =>
        refine .inr ⟨nonempty, fun rest split => notUnder ?_⟩
        exact (underRoot_iff _ _).mpr ⟨rest, split⟩

theorem moves_firstMove (output : ResolvedOutput) (files : List ScopedEntry)
    (placements : List Placement) (file : ScopedEntry) :
    Moves output files placements file (firstMove output files placements file) := by
  unfold firstMove
  cases found : placements.find? fun placement =>
    (placementRoute output files placement).accepts file.relative.path with
  | none =>
    refine .left fun placement mem isMatch => ?_
    exact find?_eq_none.mp found placement mem ((accepts_iff ..).mpr isMatch)
  | some placement =>
    obtain ⟨accepts, earlier, later, split, first⟩ := find?_eq_some_iff_append.mp found
    have destination : joinDestination [output.name, (expand placement.into output.values).1,
        stripDirectory file.relative.path (located files placement.source)] = _ :=
      congrArg (join ['/']) (filter_flatMap ..).symm
    rw [map_some, destination]
    refine .moved earlier placement later _ _ split ?_ ((accepts_iff ..).mp accepts)
      (locates_located files placement.source) (carries_stripDirectory ..)
    intro other mem isMatch
    have refused := first other mem
    rw [(accepts_iff ..).mpr isMatch] at refused
    cases refused

variable [Libraries]

/-- A filled output moves the files under its root that a placement matches, as the first
one says, to distinct places. -/
theorem fill_output_moves
    (layout : Layout)
    (entries : List ArchiveEntry)
    (metadata : Option GameMetadata)
    (output : ResolvedOutput)
    (filled : PlannedOutput)
    (succeeded : fillOutput layout entries metadata output = .ok filled) :
    FilledAsPlaced layout entries output filled := by
  obtain ⟨moved, distinct⟩ := moves_of_fillOutput succeeded
  have reduced {Item Image : Type} (image : Item → Option Image) (items : List Item) :
      (items.map image).reduceOption = items.filterMap image :=
    filterMap_map
  refine ⟨⟨entries.map (scopeEntry (forwardSlashes output.root)),
    (scopeEntries output.root entries).map
      (firstMove output (scopeEntries output.root entries) layout.place), ?_, ?_, ?_⟩, distinct⟩
  · exact forall₂_map_right_iff.mpr (forall₂_same.mpr fun entry _ => scopes_scopeEntry _ entry)
  · rw [reduced]
    exact forall₂_map_right_iff.mpr (forall₂_same.mpr fun file _ => moves_firstMove ..)
  · rw [reduced]
    exact moved

end

end

/-- The textures go into a folder of their own, and everything else where it was. -/
def textureLayout : Layout where
  place :=
    [{ source := .matching "assets/tex/**".toList, into := "data".toList },
      { source := .all, into := [] }]

def texturePack : List ArchiveEntry :=
  ["Pack/Assets/Tex/a/b.png", "Pack\\assets\\readme.txt", "Other/x.pak"].map fun path =>
    { path := path.toList
      size := 10
      packedSize := 10
      isDir := false
      encrypted := false
      crc32 := none }

def packOutput : ResolvedOutput where
  root := "Pack".toList
  name := "Out".toList
  values := ∅

/-- The folders of the glob are taken off the texture, whatever their case, and the file beside
it keeps its path. -/
theorem fill_output_moves_textures : ∃ filled,
    @fillOutput asciiTables quietLibraries textureLayout texturePack none packOutput = .ok filled ∧
      filled.moves = [("Pack/Assets/Tex/a/b.png", "Out/data/a/b.png"),
        ("Pack\\assets\\readme.txt", "Out/assets/readme.txt")].map (fun move =>
          (move.1.toList, move.2.toList)) ∧
      @FilledAsPlaced asciiTables textureLayout texturePack packOutput filled := by
  have evaluated : ((@fillOutput asciiTables quietLibraries textureLayout texturePack none
      packOutput).toOption.map PlannedOutput.moves) =
        some ([("Pack/Assets/Tex/a/b.png", "Out/data/a/b.png"),
          ("Pack\\assets\\readme.txt", "Out/assets/readme.txt")].map fun move =>
            (move.1.toList, move.2.toList)) := by
    decide +kernel
  obtain ⟨filled, succeeded, moved⟩ := exists_of_toOption_map evaluated
  exact ⟨filled, succeeded, moved, @fill_output_moves asciiTables quietLibraries textureLayout
    texturePack none packOutput filled succeeded⟩

end Arclain.PlanBuilder
