import Arclain.ActionRun
import Arclain.CallsInFlight
import Arclain.TabListing

namespace Arclain

/-!
# Publishing the rows of a tab

Navigations, relists and refreshes read the inventory, then the directory, and then write
the rows.  Each read and write of a signal is one step.

A call *covers* the rows on the screen when it is still to write the present ones.
-/

open Option ActionRun CallsInFlight

/-- The signals of a tab that publishing is about. -/
structure Tab where
  listing : TabListing
  inventory : TabInventory
  browserEntries : BrowserEntriesSnapshot

namespace Tab

def blank : Tab where
  listing := .forSession none
  inventory := .forSession none
  browserEntries := {}

/-- The rows of the tab's inventory that are in the directory it browses. -/
def currentRows (display : Display) (tab : Tab) : List FileEntry :=
  rowsInDirectory display tab.inventory.entries tab.listing.directory

/-- The rows on the screen are those of the inventory in the directory. -/
def Right (display : Display) (tab : Tab) : Prop :=
  tab.browserEntries.entries = tab.currentRows display

instance (display : Display) (tab : Tab) : Decidable (tab.Right display) :=
  inferInstanceAs (Decidable (_ = _))

/-- Two tabs whose rows would be the same ones. -/
structure SameSources (first second : Tab) : Prop where
  inventory : second.inventory = first.inventory
  directory : second.listing.directory = first.listing.directory

theorem SameSources.refl (tab : Tab) : tab.SameSources tab := ⟨rfl, rfl⟩

theorem SameSources.currentRows_eq {first second : Tab} (same : first.SameSources second)
    (display : Display) : second.currentRows display = first.currentRows display := by
  rw [currentRows, currentRows, same.inventory, same.directory]

end Tab

/-- Where `publish_for` stands, with what it read. -/
inductive Publication where
  | start
  | inventoryRead (inventory : TabInventory)
  | directoryRead (inventory : TabInventory) (directory : ArchivePath)

namespace Publication

/-- The next atomic step of `publish_for`. -/
def step (display : Display) (tab : Tab) : Publication → Tab × Option Publication
  | .start => (tab, some (.inventoryRead tab.inventory))
  | .inventoryRead inventory => (tab, some (.directoryRead inventory tab.listing.directory))
  | .directoryRead inventory directory =>
    ({ tab with
      browserEntries := tab.browserEntries.replace
        (rowsInDirectory display inventory.entries directory) }, none)

theorem sameSources_step (display : Display) (tab : Tab) (publication : Publication) :
    tab.SameSources (publication.step display tab).1 := by
  cases publication with
  | _ => exact ⟨rfl, rfl⟩

def rows (display : Display) (tab : Tab) : Publication → List FileEntry
  | .start => tab.currentRows display
  | .inventoryRead inventory => rowsInDirectory display inventory.entries tab.listing.directory
  | .directoryRead inventory directory => rowsInDirectory display inventory.entries directory

theorem rows_congr {display : Display} {first second : Tab} (same : first.SameSources second)
    (publication : Publication) :
    publication.rows display second = publication.rows display first := by
  cases publication with
  | start => exact same.currentRows_eq display
  | inventoryRead inventory => rw [rows, rows, same.directory]
  | directoryRead inventory => rfl

end Publication

/-- What a user does to browse the archive of a tab. -/
inductive Navigation where
  | folder (name : Str)
  | path (target : Str)
  | back
  | forward
  | up
  | root
  | jumpToFile (file : Str)

namespace Navigation

/-- The navigation of the listing that the caller asks for. -/
def move (listing : TabListing) : Navigation → Option TabListing
  | .folder name => listing.descend name
  | .path target => listing.goTo target
  | .back => listing.goBack
  | .forward => listing.goForward
  | .up => listing.up
  | .root => listing.goTo []
  | .jumpToFile file => listing.goTo (entryParent file)

/-- Whether the caller publishes when the listing did not move. -/
def republishes : Navigation → Bool
  | .folder .. | .path .. | .jumpToFile .. => true
  | .back | .forward | .up | .root => false

end Navigation

/-- Where a call stands, by its next step: three of `relist_for_browser_signals`, then five
of `fetch_and_adopt_inventory`. -/
inductive Call where
  | rebinding (session : ArchiveSessionId)
  | forgetting (session : ArchiveSessionId)
  | clearing (session : ArchiveSessionId)
  | beginning (session : ArchiveSessionId)
  | asking (session : ArchiveSessionId) (generation : ListingGeneration) (directory : ArchivePath)
  | failing (session : ArchiveSessionId) (generation : ListingGeneration) (directory : ArchivePath)
      (error : ApplicationError)
  | adopting (session : ArchiveSessionId) (generation : ListingGeneration) (directory : ArchivePath)
      (inventory : ArchiveInventory)
  | succeeding (session : ArchiveSessionId) (generation : ListingGeneration)
      (directory : ArchivePath)
  | publishing (publication : Publication)

namespace Call

/-- The next atomic step of a call. A fetch that is asked for waits for its answer. -/
def advance (display : Display) (tab : Tab) : Call → Option (Tab × Option Call)
  | .rebinding session =>
    some ({ tab with listing := .forSession (some session) }, some (.forgetting session))
  | .forgetting session =>
    some ({ tab with inventory := .forSession (some session) }, some (.clearing session))
  | .clearing session =>
    some ({ tab with browserEntries := tab.browserEntries.replace [] }, some (.beginning session))
  | .beginning session =>
    let listing := tab.listing.beginLoading
    some ({ tab with listing := listing },
      some (.asking session listing.generation listing.directory))
  | .asking .. => none
  | .failing session generation directory error =>
    let listing := (tab.listing.fail generation session directory error).getD tab.listing
    some ({ tab with listing := listing }, none)
  | .adopting session generation directory inventory =>
    let inventory := (tab.inventory.adopt inventory).getD tab.inventory
    some ({ tab with inventory := inventory }, some (.succeeding session generation directory))
  | .succeeding session generation directory =>
    let listing := (tab.listing.succeed generation session directory).getD tab.listing
    some ({ tab with listing := listing }, some (.publishing .start))
  | .publishing publication =>
    let (tab, rest) := publication.step display tab
    some (tab, rest.map .publishing)

/-- The answer of `list_all_entries` for the session that was asked. -/
def answered : Call → Except ApplicationError (Nat × List ArchiveEntryDto) → Option Call
  | .asking session generation directory, .ok (revision, entries) =>
    some (.adopting session generation directory
      { sessionId := session
        revision := revision
        entries := entries })
  | .asking session generation directory, .error error =>
    some (.failing session generation directory error)
  | _, _ => none

def writes : Call → Option (TabInventory × ArchivePath)
  | .publishing (.directoryRead inventory directory) => some (inventory, directory)
  | _ => none

theorem eq_of_writes {call : Call} {read : TabInventory × ArchivePath}
    (writes : call.writes = some read) : call = .publishing (.directoryRead read.1 read.2) := by
  cases call with
  | publishing publication =>
    cases publication with
    | directoryRead =>
      cases writes
      rfl
    | _ => cases writes
  | _ => cases writes

/-- A call that is still to write the present rows, if its fetch is answered and no other
call changes what it read before. -/
def Covers (display : Display) (tab : Tab) : Call → Prop
  | .failing .. => False
  | .publishing publication => publication.rows display tab = tab.currentRows display
  | _ => True

instance (display : Display) (tab : Tab) : (call : Call) → Decidable (call.Covers display tab)
  | .failing .. => isFalse id
  | .publishing publication =>
    inferInstanceAs (Decidable (publication.rows display tab = tab.currentRows display))
  | .rebinding _ | .forgetting _ | .clearing _ | .beginning _ | .asking .. | .adopting ..
  | .succeeding .. => isTrue trivial

theorem covers_congr {display : Display} {first second : Tab} (same : first.SameSources second)
    (call : Call) : call.Covers display second ↔ call.Covers display first := by
  cases call with
  | publishing => rw [Covers, Covers, Publication.rows_congr same, same.currentRows_eq]
  | _ => exact Iff.rfl

end Call

/-- Who makes a call: the render thread, or a task of the bridge. -/
inductive Caller where
  | renderThread
  | task (number : Nat)
  deriving DecidableEq

/-- A tab and the calls on it that are in flight. -/
structure Browsing where
  tab : Tab
  calls : KeyedMap Caller Call

namespace Browsing

/-- A step of a navigation, a relist or a refresh. -/
inductive Action where
  | navigate (navigation : Navigation)
  | relist (number : Nat) (session : ArchiveSessionId)
  | refresh (number : Nat) (session : ArchiveSessionId)
  | answer (caller : Caller) (answer : Except ApplicationError (Nat × List ArchiveEntryDto))
  | advance (caller : Caller)

/-- A step of a call that is in flight already. -/
def Action.GoesOn : Action → Prop
  | .answer .. | .advance _ => True
  | _ => False

def enter (browsing : Browsing) (caller : Caller) (tab : Tab)
    (call : Option Call) : Option Browsing :=
  match browsing.calls.lookup caller with
  | some _ => none
  | none =>
    some {
      tab := tab
      calls :=
        match call with
        | some call => browsing.calls.insert caller call
        | none => browsing.calls }

def proceed (browsing : Browsing) (caller : Caller) (tab : Tab)
    (rest : Option Call) : Browsing where
  tab := tab
  calls := CallsInFlight.proceed browsing.calls caller rest

def step (display : Display) (browsing : Browsing) : Action → Option Browsing
  | .navigate navigation =>
    match navigation.move browsing.tab.listing with
    | some listing =>
      browsing.enter .renderThread { browsing.tab with listing := listing }
        (some (.publishing .start))
    | none =>
      browsing.enter .renderThread browsing.tab
        (if navigation.republishes then some (.publishing .start) else none)
  | .relist number session => browsing.enter (.task number) browsing.tab (some (.rebinding session))
  | .refresh number session =>
    browsing.enter (.task number) browsing.tab (some (.beginning session))
  | .answer caller answer =>
    match browsing.calls.lookup caller with
    | none => none
    | some call =>
      (call.answered answer).map fun call => browsing.proceed caller browsing.tab (some call)
  | .advance caller =>
    match browsing.calls.lookup caller with
    | none => none
    | some call =>
      (call.advance display browsing.tab).map fun (tab, rest) => browsing.proceed caller tab rest

def start : Browsing where
  tab := .blank
  calls := ∅

def Quiet (browsing : Browsing) : Prop := browsing.calls.keys = []

instance (browsing : Browsing) : Decidable browsing.Quiet := inferInstanceAs (Decidable (_ = _))

def OthersCover (display : Display) (browsing : Browsing) (caller : Caller) : Prop :=
  CallsInFlight.Others browsing.calls caller (Call.Covers display browsing.tab)

instance (display : Display) (browsing : Browsing) (caller : Caller) :
    Decidable (browsing.OthersCover display caller) :=
  inferInstanceAs (Decidable (CallsInFlight.Others _ _ _))

def Covered (display : Display) (browsing : Browsing) : Prop :=
  CallsInFlight.Some browsing.calls (Call.Covers display browsing.tab)

/-- A publication gives the present rows, and a fetch fails only when they are right, unless
another call covers them. -/
def Harmless (display : Display) (browsing : Browsing) : Action → Prop
  | .advance caller =>
    ∀ read ∈ (browsing.calls.lookup caller).bind Call.writes,
      rowsInDirectory display read.1.entries read.2 = browsing.tab.currentRows display ∨
        browsing.OthersCover display caller
  | .answer caller (.error _) => browsing.tab.Right display ∨ browsing.OthersCover display caller
  | _ => True

instance (display : Display) (browsing : Browsing) :
    (action : Action) → Decidable (browsing.Harmless display action)
  | .answer caller (.error _) =>
    inferInstanceAs (Decidable (_ ∨ browsing.OthersCover display caller))
  | .advance caller =>
    inferInstanceAs (Decidable (∀ read ∈ _, _ ∨ browsing.OthersCover display caller))
  | .answer _ (.ok _) | .navigate _ | .relist .. | .refresh .. => isTrue trivial

/-- The rows are right, or a call is still to put them right. -/
def Owed (display : Display) (browsing : Browsing) : Prop :=
  browsing.tab.Right display ∨ browsing.Covered display

section

variable {display : Display} {browsing next : Browsing} {caller : Caller} {tab : Tab} {call : Call}

theorem covered_proceed (covers : call.Covers display tab) :
    (browsing.proceed caller tab (some call)).Covered display :=
  some_proceed_iff.mpr (.inl ⟨call, rfl, covers⟩)

variable {rest : Option Call}

theorem owed_proceed_iff (same : browsing.tab.SameSources tab) :
    (browsing.proceed caller tab rest).Owed display ↔
      tab.Right display ∨ (∃ left ∈ rest, left.Covers display tab) ∨
        browsing.OthersCover display caller := by
  refine or_congr Iff.rfl (some_proceed_iff.trans (or_congr Iff.rfl ?_))
  constructor
  · intro others
    exact others.mono fun call => (Call.covers_congr same call).mp
  · intro others
    exact others.mono fun call => (Call.covers_congr same call).mpr

theorem owed_iff (bound : browsing.calls.lookup caller = some call) : browsing.Owed display ↔
    browsing.tab.Right display ∨ call.Covers display browsing.tab ∨
      browsing.OthersCover display caller :=
  or_congr Iff.rfl (some_iff bound)

theorem covered_enter (entered : browsing.enter caller tab (some call) = some next)
    (covers : call.Covers display tab) : next.Covered display := by
  unfold enter at entered
  split at entered
  · cases entered
  · cases entered
    exact ⟨caller, call, AList.lookup_insert _, covers⟩

theorem enter_none (entered : browsing.enter caller browsing.tab none = some next) :
    next = browsing := by
  unfold enter at entered
  split at entered
  · cases entered
  · exact (some.inj entered).symm

theorem Owed.publish {publication : Publication} (owed : browsing.Owed display)
    (harmless : browsing.Harmless display (.advance caller))
    (bound : browsing.calls.lookup caller = some (.publishing publication)) :
    (browsing.proceed caller (publication.step display browsing.tab).1
      ((publication.step display browsing.tab).2.map .publishing)).Owed display := by
  cases publication with
  | start => exact .inr (covered_proceed rfl)
  | inventoryRead inventory =>
    -- The directory that is read is the one that counts now.
    refine (owed_proceed_iff (.refl _)).mpr ?_
    rcases (owed_iff bound).mp owed with right | covers | others
    · exact .inl right
    · exact .inr (.inl ⟨_, rfl, covers⟩)
    · exact .inr (.inr others)
  | directoryRead inventory directory =>
    refine (owed_proceed_iff (Publication.sameSources_step ..)).mpr ?_
    rcases harmless (inventory, directory) (by rw [bound]; rfl) with current | others
    · exact .inl current
    · exact .inr (.inr others)

variable (browsing) in
theorem sameSources_fail (session : ArchiveSessionId) (generation : ListingGeneration)
    (directory : ArchivePath) (error : ApplicationError) :
    browsing.tab.SameSources { browsing.tab with
      listing :=
        (browsing.tab.listing.fail generation session directory error).getD
          browsing.tab.listing } := by
  refine ⟨rfl, ?_⟩
  cases same : browsing.tab.listing.fail generation session directory error with
  | none => rfl
  | some => exact TabListing.directory_of_fail same

theorem Owed.advance (owed : browsing.Owed display)
    (harmless : browsing.Harmless display (.advance caller))
    (bound : browsing.calls.lookup caller = some call)
    (advanced : call.advance display browsing.tab = some (tab, rest)) :
    (browsing.proceed caller tab rest).Owed display := by
  cases call with
  | asking => cases advanced
  | failing session generation directory error =>
    cases advanced
    have same := browsing.sameSources_fail session generation directory error
    refine (owed_proceed_iff same).mpr ?_
    rcases (owed_iff bound).mp owed with right | covers | others
    · rw [Tab.Right, same.currentRows_eq]
      exact .inl right
    · exact covers.elim
    · exact .inr (.inr others)
  | publishing =>
    cases advanced
    exact owed.publish harmless bound
  | _ =>
    cases advanced
    exact .inr (covered_proceed (by trivial))

theorem owed_answered {answer : Except ApplicationError (Nat × List ArchiveEntryDto)}
    {answered : Call} (harmless : browsing.Harmless display (.answer caller answer))
    (received : call.answered answer = some answered) :
    (browsing.proceed caller browsing.tab (some answered)).Owed display := by
  cases answer with
  | ok =>
    cases call with
    | asking =>
      cases received
      exact .inr (covered_proceed trivial)
    | _ => cases received
  | error error =>
    refine (owed_proceed_iff (.refl _)).mpr ?_
    rcases harmless with right | others
    · exact .inl right
    · exact .inr (.inr others)

variable {action : Action}

theorem Owed.step (owed : browsing.Owed display) (harmless : browsing.Harmless display action)
    (taken : browsing.step display action = some next) : next.Owed display := by
  cases action with
  | navigate =>
    unfold Browsing.step at taken
    simp only at taken
    split at taken
    · exact .inr (covered_enter taken rfl)
    · split at taken
      · exact .inr (covered_enter taken rfl)
      · rw [enter_none taken]
        exact owed
  | relist number session | refresh number session => exact .inr (covered_enter taken trivial)
  | answer caller answer =>
    unfold Browsing.step at taken
    simp only at taken
    split at taken
    · cases taken
    · obtain ⟨_, received, rfl⟩ := map_eq_some_iff.mp taken
      exact owed_answered harmless received
  | advance caller =>
    unfold Browsing.step at taken
    simp only at taken
    split at taken
    · cases taken
    next bound =>
      obtain ⟨⟨_, _⟩, advanced, rfl⟩ := map_eq_some_iff.mp taken
      exact owed.advance harmless bound advanced

theorem owed_start (display : Display) : start.Owed display := .inl rfl

/-- The rows are wrong, and no call in flight is to put them right. -/
def Lost (display : Display) (browsing : Browsing) : Prop := ¬ browsing.Owed display

theorem lost_of_not_harmless (harmful : ¬ browsing.Harmless display action)
    (taken : browsing.step display action = some next) : next.Lost display := by
  cases action with
  | navigate | relist number session | refresh number session =>
    exact absurd trivial harmful
  | answer caller answer =>
    cases answer with
    | ok => exact absurd trivial harmful
    | error error =>
      obtain ⟨wrong, others⟩ := not_or.mp harmful
      unfold Browsing.step at taken
      simp only at taken
      split at taken
      · cases taken
      next call _ =>
        obtain ⟨_, received, rfl⟩ := map_eq_some_iff.mp taken
        intro owed
        rcases (owed_proceed_iff (.refl _)).mp owed with
          right | ⟨left, isLeft, covers⟩ | other
        · exact wrong right
        · cases isLeft
          cases call with
          | asking =>
            cases received
            exact covers
          | _ => cases received
        · exact others other
  | advance caller =>
    simp only [Harmless, not_forall, not_or] at harmful
    obtain ⟨read, reads, old, others⟩ := harmful
    obtain ⟨call, bound, writes⟩ := bind_eq_some_iff.mp reads
    obtain rfl := Call.eq_of_writes writes
    unfold Browsing.step at taken
    simp only [bound] at taken
    cases taken
    have same := Publication.sameSources_step display browsing.tab (.directoryRead read.1 read.2)
    intro owed
    rcases (owed_proceed_iff same).mp owed with right | ⟨left, isLeft, _⟩ | other
    · exact old right
    · cases isLeft
    · exact others other

theorem owed_of_advance (bound : browsing.calls.lookup caller = some call)
    (advanced : call.advance display browsing.tab = some (tab, rest))
    (owed : (browsing.proceed caller tab rest).Owed display) : browsing.Owed display := by
  refine (owed_iff bound).mpr ?_
  cases call with
  | asking => cases advanced
  | failing session generation directory error =>
    cases advanced
    have same := browsing.sameSources_fail session generation directory error
    rcases (owed_proceed_iff same).mp owed with right | ⟨left, isLeft, _⟩ | others
    · rw [Tab.Right, same.currentRows_eq] at right
      exact .inl right
    · cases isLeft
    · exact .inr (.inr others)
  | publishing publication =>
    cases advanced
    cases publication with
    | start => exact .inr (.inl rfl)
    | inventoryRead inventory =>
      rcases (owed_proceed_iff (.refl _)).mp owed with
        right | ⟨left, isLeft, covers⟩ | others
      · exact .inl right
      · cases isLeft
        exact .inr (.inl covers)
      · exact .inr (.inr others)
    | directoryRead inventory directory =>
      have same :=
        Publication.sameSources_step display browsing.tab (.directoryRead inventory directory)
      rcases (owed_proceed_iff same).mp owed with written | ⟨left, isLeft, _⟩ | others
      · exact .inr (.inl written)
      · cases isLeft
      · exact .inr (.inr others)
  | _ => exact .inr (.inl trivial)

theorem Lost.step (lost : browsing.Lost display) (goesOn : action.GoesOn)
    (taken : browsing.step display action = some next) : next.Lost display := by
  cases action with
  | navigate | relist number session | refresh number session => exact goesOn.elim
  | answer caller answer =>
    unfold Browsing.step at taken
    simp only at taken
    split at taken
    · cases taken
    next call bound =>
      obtain ⟨_, received, rfl⟩ := map_eq_some_iff.mp taken
      cases call with
      | asking session => exact absurd (.inr ⟨caller, _, bound, trivial⟩) lost
      | _ => cases answer <;> cases received
  | advance caller =>
    unfold Browsing.step at taken
    simp only at taken
    split at taken
    · cases taken
    next bound =>
      obtain ⟨⟨_, _⟩, advanced, rfl⟩ := map_eq_some_iff.mp taken
      exact fun owed => lost (owed_of_advance bound advanced owed)

end

/-- After a harmful step the rows stay wrong until one that renews them. -/
theorem wrong_after_harm {display : Display} {browsing next final : Browsing} {action : Action}
    {actions : List Action} (harmful : ¬ browsing.Harmless display action)
    (taken : browsing.step display action = some next) (goOn : ∀ action ∈ actions, action.GoesOn)
    (ran : run (step display) next actions = some final) : ¬ final.tab.Right display := by
  have lost : final.Lost display :=
    run_preserves_of_guarded (Lost display)
      (fun lost => lost.step)
      (lost_of_not_harmless harmful taken)
      (guarded_of_forall (fun action mem _ => goOn action mem) next)
      ran
  exact fun right => lost (.inl right)

/-- Where no step loses rows and no call is in flight, the rows on the screen are those of
the tab's inventory in its directory. -/
theorem rows_of_quiet (display : Display) {actions : List Action} {final : Browsing} (harmless :
    ActionRun.Guarded (step display) (Harmless display) start actions)
    (ran : run (step display) start actions = some final) (quiet : final.Quiet) :
    final.tab.browserEntries.entries = rowsInDirectory display final.tab.inventory.entries
      final.tab.listing.directory := by
  have owed : final.Owed display :=
    run_preserves_of_guarded (Owed display)
      (fun owed => owed.step)
      (owed_start display) harmless ran
  rcases owed with right | covered
  · exact right
  · exact absurd covered (not_some_of_keys quiet)

def bareDisplay : Display where
  formatSize := fun _ => []
  formatModifiedUnixMs := fun _ => []

def rootFile : ArchiveEntryDto where
  id := 1
  path := ⟨['a'], by decide⟩
  name := ['a']
  kind := .file
  compressedSize := none
  uncompressedSize := 0
  modifiedAtUnixMs := none
  encrypted := false
  crc32 := none

/-- An archive is opened in a tab, and its inventory has one file. -/
def opening : List Action :=
  .relist 0 1 :: List.replicate 4 (.advance (.task 0)) ++ .answer (.task 0) (.ok (1, [rootFile])) ::
    List.replicate 5 (.advance (.task 0))

/-- A navigation reads the inventory and writes its rows after a refresh has published
without the file. -/
def overtakenNavigation : List Action :=
  opening ++ .navigate (.path []) :: .advance .renderThread :: .refresh 0 1 :: .advance (.task 0) ::
    .answer (.task 0) (.ok (2, [])) :: (List.replicate 5 (.advance (.task 0)) ++
      [.advance .renderThread, .advance .renderThread])

/-- The same navigation, which writes its rows before the refresh writes its own. -/
def earlyNavigation : List Action :=
  opening ++ .navigate (.path []) :: .advance .renderThread :: .refresh 0 1 :: .advance (.task 0) ::
    .answer (.task 0) (.ok (2, [])) :: ([.advance .renderThread, .advance .renderThread] ++
      List.replicate 5 (.advance (.task 0)))

/-- The navigation that writes early leaves the rows right, though it writes old ones. -/
theorem rows_of_early_navigation : ∃ final,
    run (step bareDisplay) start earlyNavigation = some final ∧
      final.tab.browserEntries.entries = rowsInDirectory bareDisplay final.tab.inventory.entries
        final.tab.listing.directory := by
  obtain ⟨final, ran, quiet⟩ :
      ∃ final, run (step bareDisplay) start earlyNavigation = some final ∧
        final.Quiet := ⟨_, rfl, by decide⟩
  exact ⟨final, ran, rows_of_quiet bareDisplay (by decide) ran quiet⟩

/-- Behind it the screen stays wrong until rows are published anew. -/
theorem wrong_after_overtaken_navigation : ∃ next,
    run (step bareDisplay) start overtakenNavigation = some next ∧
      ∀ actions final, (∀ action ∈ actions, action.GoesOn) →
        run (step bareDisplay) next actions = some final →
          ¬ final.tab.Right bareDisplay := by
  obtain ⟨browsing, next, harmful, taken, ran⟩ : ∃ browsing next,
      ¬ browsing.Harmless bareDisplay (.advance .renderThread) ∧
        step bareDisplay browsing (.advance .renderThread) = some next ∧
        run (step bareDisplay) start overtakenNavigation = some next :=
    ⟨(run (step bareDisplay) start overtakenNavigation.dropLast).get rfl, _,
      by decide, rfl, rfl⟩
  exact ⟨next, ran, fun actions final => wrong_after_harm harmful taken⟩

/-- The navigation that is overtaken leaves a file on the screen that is gone. -/
theorem overtaken_navigation_wrong :
    ¬ ∀ (display : Display) (actions : List Action) (final : Browsing),
      run (step display) start actions = some final → final.Quiet →
        final.tab.browserEntries.entries = rowsInDirectory display final.tab.inventory.entries
          final.tab.listing.directory := by
  intro claimed
  have right := claimed bareDisplay overtakenNavigation _ rfl (by decide)
  exact absurd right (by decide)

end Browsing

end Arclain
