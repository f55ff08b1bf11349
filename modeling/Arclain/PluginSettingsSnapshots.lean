import Arclain.PluginSettings

namespace Arclain.PluginSettings

/-!
# What the snapshots of the settings report

The cache holds the last write of a plugin that has returned, or a later one; or the flag of
the plugin is up; or somebody who has lowered it has yet to fill the cache, when a snapshot
may be stale.
-/

open KeyedMap List Option ActionRun Text AList Function Phase

variable {Id : Type} [DecidableEq Id]

/-- The thread has lowered a flag, or replaced settings, and has yet to fill the cache. -/
def Phase.fills (id : Id) : Phase Id → Bool
  | .fetching _ plugin | .storing _ plugin _ | .walkFetching _ plugin _ => plugin = id
  | .recaching plugin _ _ => plugin = id
  | _ => false

/-- A `get_settings_for` that has lowered the flag of a plugin and has yet to fill the cache. -/
def Phase.isRefreshing (id : Id) : Phase Id → Bool
  | .fetching _ plugin | .storing _ plugin _ => plugin = id
  | _ => false

def Phase.borrows (phase : Phase Id) : Bool := phase.isReading || phase.isReplacing

/-- The one call borrows the manager exclusively and the other does, too. -/
def Phase.clashes (phase other : Phase Id) : Bool := phase.isReplacing && other.borrows

/-- What the others keep of a plugin while one thread changes it. -/
structure Plugin.Grows (thread : Nat) (old new : Plugin) : Prop where
  version : old.version ≤ new.version
  history : ∀ version ≤ old.version, new.history version = old.history version
  returned : old.returned ≤ new.returned
  held : ∀ other, other ≠ thread → old.holder = some other →
    new.holder = some other ∧ new.version = old.version

theorem Plugin.Grows.refl (thread : Nat) (plugin : Plugin) : Plugin.Grows thread plugin plugin :=
  ⟨Nat.le_refl _, fun _ _ => rfl, Nat.le_refl _, fun _ _ holds => ⟨holds, rfl⟩⟩

variable {plugin : Plugin} {thread : Nat}

theorem Plugin.Grows.of_holder (holder : Option Nat)
    (mine : ∀ other, other ≠ thread → plugin.holder ≠ some other) :
    Plugin.Grows thread plugin { plugin with holder := holder } :=
  ⟨Nat.le_refl _, fun _ _ => rfl, Nat.le_refl _,
    fun other distinct holds => absurd holds (mine other distinct)⟩

theorem Plugin.Grows.of_flag {returned : Nat} (dirty : Bool) (later : plugin.returned ≤ returned) :
    Plugin.Grows thread plugin { plugin with dirty := dirty, returned := returned } :=
  ⟨Nat.le_refl _, fun _ _ => rfl, later, fun _ _ holds => ⟨holds, rfl⟩⟩

theorem Plugin.Grows.of_write (settings : Settings) (dirty : Bool)
    (mine : ∀ other, other ≠ thread → plugin.holder ≠ some other) :
    Plugin.Grows thread plugin { plugin.write settings with dirty := dirty } := by
  refine ⟨Nat.le_succ _, fun version bounded => ?_, Nat.le_refl _,
    fun other distinct holds => absurd holds (mine other distinct)⟩
  exact update_of_ne (by omega) _ _

namespace System

/-- The settings are those of a plugin at a moment not before a write. -/
def HeldSince (system : System Id) (id : Id) (since : Nat) (settings : Settings) : Prop :=
  ∃ version, since ≤ version ∧ version ≤ (system.plugins id).version ∧
    settings = (system.plugins id).history version

/-- The cache has a write of a plugin, or a later one. -/
def Covers (system : System Id) (id : Id) (since : Nat) : Prop :=
  ∃ settings, system.settingsCache.lookup id = some settings ∧ system.HeldSince id since settings

/-- Somebody will fill the cache for a plugin. -/
def Owed (system : System Id) (id : Id) : Prop :=
  ∃ thread phase, system.threads.lookup thread = some phase ∧ phase.fills id = true

def PhaseSound (loaded : List Id) (system : System Id) (thread : Nat) : Phase Id → Prop
  | .guest id => (system.plugins id).holder = some thread
  | .marking id version =>
    (system.plugins id).holder = some thread ∧ version ≤ (system.plugins id).version
  | .probing since id => id ∈ loaded ∧ since ≤ (system.plugins id).returned
  | .fetching since id => since ≤ (system.plugins id).version
  | .storing since id settings =>
    (system.plugins id).holder = some thread ∧ since ≤ (system.plugins id).version ∧
      settings = (system.plugins id).settings
  | .recalling since id =>
    id ∈ loaded ∧ since ≤ (system.plugins id).version ∧ (system.Covers id since ∨ system.Owed id)
  | .reported since id settings =>
    id ∈ loaded → ∃ held, settings = some held ∧ system.HeldSince id since held
  | .awaiting since => ∀ id, since id ≤ (system.plugins id).returned
  | .walking since rest =>
    system.cacheHolder = some thread ∧ (∀ id, since id ≤ (system.plugins id).returned) ∧
      rest ⊆ loaded ∧
      ∀ id ∈ loaded, id ∉ rest → system.Covers id (since id)
  | .walkFetching since plugin rest =>
    system.cacheHolder = some thread ∧ (∀ id, since id ≤ (system.plugins id).returned) ∧
      rest ⊆ loaded ∧
      ∀ id ∈ loaded, id ∉ plugin :: rest → system.Covers id (since id)
  | .reportedAll since snapshot =>
    ∀ id ∈ loaded, ∃ held, snapshot.lookup id = some held ∧ system.HeldSince id (since id) held
  | .replacing _ _ => True
  | .recaching id settings version =>
    version ≤ (system.plugins id).version ∧ settings = (system.plugins id).history version ∧
      ((system.plugins id).returned ≤ version ∨ (system.plugins id).dirty = true)

/-- What holds in every state that is reached. -/
structure Consistent (loaded : List Id) (system : System Id) : Prop where
  phases : ∀ thread phase, system.threads.lookup thread = some phase →
    system.PhaseSound loaded thread phase
  fresh : ∀ id ∈ loaded, system.Covers id (system.plugins id).returned ∨
    (system.plugins id).dirty = true ∨ system.Owed id
  returned : ∀ id, (system.plugins id).returned ≤ (system.plugins id).version
  exclusive : ∀ first second phase other, first ≠ second →
    system.threads.lookup first = some phase → system.threads.lookup second = some other →
    phase.clashes other = false

/-- What the others keep while one thread takes a step. -/
structure Keeps (thread : Nat) (system next : System Id) : Prop where
  version : ∀ id, (system.plugins id).version ≤ (next.plugins id).version
  history : ∀ id, ∀ version ≤ (system.plugins id).version,
    (next.plugins id).history version = (system.plugins id).history version
  returned : ∀ id, (system.plugins id).returned ≤ (next.plugins id).returned
  held : ∀ id other, other ≠ thread → (system.plugins id).holder = some other →
    (next.plugins id).holder = some other ∧ (next.plugins id).version = (system.plugins id).version
  cached : ∀ other, other ≠ thread → system.cacheHolder = some other →
    next.cacheHolder = some other ∧ next.settingsCache = system.settingsCache
  others : ∀ other, other ≠ thread → next.threads.lookup other = system.threads.lookup other

section

variable {loaded : List Id} {system next : System Id} {thread : Nat} {id : Id}

omit [DecidableEq Id] in
theorem HeldSince.keeps {since : Nat} {settings : Settings}
    (held : system.HeldSince id since settings) (keeps : Keeps thread system next) :
    next.HeldSince id since settings := by
  obtain ⟨version, later, bounded, same⟩ := held
  refine ⟨version, later, bounded.trans (keeps.version id), ?_⟩
  rw [keeps.history id version bounded]
  exact same

theorem Covers.keeps {since : Nat} (covers : system.Covers id since)
    (keeps : Keeps thread system next)
    (same : next.settingsCache.lookup id = system.settingsCache.lookup id) :
    next.Covers id since := by
  obtain ⟨settings, cached, held⟩ := covers
  exact ⟨settings, same.trans cached, held.keeps keeps⟩

theorem PhaseSound.keeps {other : Nat} {phase : Phase Id}
    (sound : system.PhaseSound loaded other phase) (distinct : other ≠ thread)
    (keeps : Keeps thread system next)
    (recalls : ∀ since, ∀ id ∈ loaded, phase = .recalling since id →
      since ≤ (system.plugins id).version →
      system.Covers id since ∨ system.Owed id → next.Covers id since ∨ next.Owed id)
    (recaches : ∀ id settings version, phase = .recaching id settings version →
      (system.plugins id).returned ≤ version ∨ (system.plugins id).dirty = true →
        (next.plugins id).returned ≤ version ∨ (next.plugins id).dirty = true) :
    next.PhaseSound loaded other phase := by
  cases phase with
  | guest id => exact (keeps.held id other distinct sound).1
  | marking id version =>
    exact ⟨(keeps.held id other distinct sound.1).1, sound.2.trans (keeps.version id)⟩
  | probing since id => exact ⟨sound.1, sound.2.trans (keeps.returned id)⟩
  | fetching since id => exact Nat.le_trans sound (keeps.version id)
  | storing since id settings =>
    obtain ⟨holds, since_le, same⟩ := sound
    obtain ⟨stillHolds, sameVersion⟩ := keeps.held id other distinct holds
    refine ⟨stillHolds, since_le.trans (keeps.version id), ?_⟩
    rw [same, Plugin.settings, Plugin.settings, sameVersion, keeps.history id _ (Nat.le_refl _)]
  | recalling since id =>
    obtain ⟨isLoaded, since_le, served⟩ := sound
    exact ⟨isLoaded, since_le.trans (keeps.version id),
      recalls since id isLoaded rfl since_le served⟩
  | reported since id settings =>
    intro isLoaded
    obtain ⟨held, same, since_le⟩ := sound isLoaded
    exact ⟨held, same, since_le.keeps keeps⟩
  | awaiting since => exact fun id => (sound id).trans (keeps.returned id)
  | walking since rest | walkFetching since _ rest =>
    obtain ⟨holds, since_le, within, covered⟩ := sound
    obtain ⟨stillHolds, sameCache⟩ := keeps.cached other distinct holds
    refine ⟨stillHolds, fun id => (since_le id).trans (keeps.returned id),
      within, fun id isLoaded walked => ?_⟩
    exact (covered id isLoaded walked).keeps keeps (by rw [sameCache])
  | reportedAll since =>
    intro id isLoaded
    obtain ⟨held, found, since_le⟩ := sound id isLoaded
    exact ⟨held, found, since_le.keeps keeps⟩
  | replacing id settings => trivial
  | recaching id settings version =>
    obtain ⟨bounded, same, unread⟩ := sound
    refine ⟨bounded.trans (keeps.version id), ?_, recaches id settings version rfl unread⟩
    rw [keeps.history id version bounded]
    exact same

end

section

variable {loaded : List Id} {system next : System Id} {thread : Nat}

def Compatible (system next : System Id) (thread : Nat) : Prop :=
  ∀ phase, next.threads.lookup thread = some phase →
    ∀ other found, other ≠ thread → system.threads.lookup other = some found →
      phase.clashes found = false ∧ found.clashes phase = false

theorem Consistent.of_keeps (consistent : system.Consistent loaded)
    (keeps : Keeps thread system next)
    (own : ∀ phase, next.threads.lookup thread = some phase → next.PhaseSound loaded thread phase)
    (compatible : system.Compatible next thread)
    (recalls : ∀ other since, ∀ id ∈ loaded, other ≠ thread →
      system.threads.lookup other = some (.recalling since id) →
      since ≤ (system.plugins id).version →
      system.Covers id since ∨ system.Owed id → next.Covers id since ∨ next.Owed id)
    (recaches : ∀ other id settings version, other ≠ thread →
      system.threads.lookup other = some (.recaching id settings version) →
      (system.plugins id).returned ≤ version ∨ (system.plugins id).dirty = true →
        (next.plugins id).returned ≤ version ∨ (next.plugins id).dirty = true)
    (fresh : ∀ id ∈ loaded, next.Covers id (next.plugins id).returned ∨
      (next.plugins id).dirty = true ∨ next.Owed id)
    (returned : ∀ id, (next.plugins id).returned ≤ (next.plugins id).version) :
    next.Consistent loaded := by
  refine ⟨?_, fresh, returned, ?_⟩
  · intro other phase found
    by_cases same : other = thread
    · subst same
      exact own phase found
    · rw [keeps.others other same] at found
      refine (consistent.phases other phase found).keeps same keeps ?_ ?_
      · rintro since id isLoaded rfl
        exact recalls other since id isLoaded same found
      · rintro id settings version rfl
        exact recaches other id settings version same found
  · intro first second phase other distinct foundFirst foundSecond
    by_cases isFirst : first = thread
    · subst isFirst
      rw [keeps.others second distinct.symm] at foundSecond
      exact (compatible phase foundFirst second other distinct.symm foundSecond).1
    · rw [keeps.others first isFirst] at foundFirst
      by_cases isSecond : second = thread
      · subst isSecond
        exact (compatible other foundSecond first phase isFirst foundFirst).2
      · rw [keeps.others second isSecond] at foundSecond
        exact consistent.exclusive first second phase other distinct foundFirst foundSecond

variable {old new : Phase Id}

theorem Consistent.compatible (consistent : system.Consistent loaded)
    (found : system.threads.lookup thread = some old)
    (now : ∀ phase, next.threads.lookup thread = some phase → phase = new)
    (replaces : new.isReplacing = true → old.isReplacing = true)
    (borrows : new.borrows = true → old.borrows = true) : system.Compatible next thread := by
  intro phase lookup other another distinct foundOther
  obtain rfl := now phase lookup
  have before := consistent.exclusive thread other old another distinct.symm found foundOther
  have after := consistent.exclusive other thread another old distinct foundOther found
  unfold clashes at before after ⊢
  constructor
  · cases replacing : phase.isReplacing with
    | false => rfl
    | true =>
      rw [replaces replacing] at before
      exact before
  · cases borrowing : phase.borrows with
    | false => exact Bool.and_false _
    | true =>
      rw [borrows borrowing] at after
      exact after

omit [DecidableEq Id] in
theorem compatible_of_not_borrows (idle : ∀ phase, next.threads.lookup thread = some phase →
    phase.borrows = false) : system.Compatible next thread := by
  intro phase lookup _ _ _ _
  have none := idle phase lookup
  have notReplacing : phase.isReplacing = false := (Bool.or_eq_false_iff.mp none).2
  unfold clashes
  rw [notReplacing, none]
  exact ⟨rfl, Bool.and_false _⟩

theorem Consistent.of_served (consistent : system.Consistent loaded)
    (keeps : Keeps thread system next)
    (own : ∀ phase, next.threads.lookup thread = some phase → next.PhaseSound loaded thread phase)
    (compatible : system.Compatible next thread)
    (served : ∀ id ∈ loaded, ∀ since ≤ (system.plugins id).version,
      system.Covers id since ∨ system.Owed id → next.Covers id since ∨ next.Owed id)
    (raised : ∀ id, (system.plugins id).dirty = true →
      (next.plugins id).dirty = true ∨ next.Owed id)
    (lowered : (∀ id, (system.plugins id).dirty = true → (next.plugins id).dirty = true) ∨
      ∃ old, system.threads.lookup thread = some old ∧ old.borrows = true)
    (returned : ∀ id, (next.plugins id).returned = (system.plugins id).returned ∨
      (next.plugins id).dirty = true)
    (bounded : ∀ id, (next.plugins id).returned ≤ (next.plugins id).version) :
    next.Consistent loaded := by
  refine consistent.of_keeps keeps own compatible ?_ ?_ ?_ bounded
  · intro other since id isLoaded _ _ since_le
    exact served id isLoaded since since_le
  · intro other id _ _ distinct found unread
    rcases lowered with stays | ⟨old, foundOld, borrows⟩
    · rcases unread with known | dirty
      · rcases returned id with same | dirty
        · exact .inl (same ▸ known)
        · exact .inr dirty
      · exact .inr (stays id dirty)
    · -- Nobody else has borrowed the manager while settings are replaced.
      have clash := consistent.exclusive other thread _ old distinct found foundOld
      rw [clashes, borrows] at clash
      cases clash
  · intro id isLoaded
    rcases returned id with same | dirty
    · rw [same]
      rcases consistent.fresh id isLoaded with covers | dirty | owed
      · exact (served id isLoaded _ (consistent.returned id) (.inl covers)).imp_right
          .inr
      · exact .inr (raised id dirty)
      · exact (served id isLoaded _ (consistent.returned id) (.inr owed)).imp_right
          .inr
    · exact .inr (.inl dirty)

theorem Covers.mono {id : Id} {since earlier : Nat} (covers : system.Covers id since)
    (before : earlier ≤ since) : system.Covers id earlier := by
  obtain ⟨settings, cached, version, later, bounded, same⟩ := covers
  exact ⟨settings, cached, version, before.trans later, bounded, same⟩

variable {plugin : Plugin}

theorem Keeps.of_change {id : Id}
    (plugins : next.plugins = update system.plugins id plugin)
    (grows : Plugin.Grows thread (system.plugins id) plugin)
    (held : ∀ other, other ≠ thread → system.cacheHolder = some other →
      next.cacheHolder = some other ∧ next.settingsCache = system.settingsCache)
    (others : ∀ other, other ≠ thread → next.threads.lookup other = system.threads.lookup other) :
    Keeps thread system next := by
  have grown (other : Id) : Plugin.Grows thread (system.plugins other) (next.plugins other) := by
    by_cases isChanged : other = id
    · subst isChanged
      rw [plugins, update_self]
      exact grows
    · rw [plugins, update_of_ne isChanged]
      exact .refl _ _
  exact ⟨fun other => (grown other).version, fun other => (grown other).history,
    fun other => (grown other).returned, fun other => (grown other).held, held,
    others⟩

theorem Keeps.served {id : Id} {since : Nat} (keeps : Keeps thread system next)
    (cache : next.settingsCache.lookup id = system.settingsCache.lookup id ∨
      next.Covers id (system.plugins id).version)
    (fills : ∀ old, system.threads.lookup thread = some old → old.fills id = true →
      next.Owed id ∨ next.Covers id (system.plugins id).version)
    (bounded : since ≤ (system.plugins id).version)
    (served : system.Covers id since ∨ system.Owed id) : next.Covers id since ∨ next.Owed id := by
  rcases served with covers | ⟨owner, phase, found, filling⟩
  · rcases cache with unchanged | covered
    · exact .inl (covers.keeps keeps unchanged)
    · exact .inl (covered.mono bounded)
  · by_cases own : owner = thread
    · subst own
      rcases fills phase found filling with owed | covered
      · exact .inr owed
      · exact .inl (covered.mono bounded)
    · refine .inr ⟨owner, phase, ?_, filling⟩
      rw [keeps.others owner own]
      exact found

theorem Consistent.of_same (consistent : system.Consistent loaded)
    (plugins : next.plugins = system.plugins)
    (held : ∀ other, other ≠ thread → system.cacheHolder = some other →
      next.cacheHolder = some other ∧ next.settingsCache = system.settingsCache)
    (threads : ∀ other, next.threads.lookup other =
      if other = thread then some new else system.threads.lookup other)
    (sound : next.PhaseSound loaded thread new) (compatible : system.Compatible next thread)
    (cache : ∀ other ∈ loaded, next.settingsCache.lookup other = system.settingsCache.lookup other ∨
      next.Covers other (system.plugins other).version)
    (fills : ∀ old other, system.threads.lookup thread = some old →
      old.fills other = true → new.fills other = true ∨
        next.Covers other (system.plugins other).version) :
    next.Consistent loaded := by
  have now : next.threads.lookup thread = some new := by rw [threads, if_pos rfl]
  have keeps : Keeps thread system next := by
    refine ⟨?_, ?_, ?_, ?_, held, fun other distinct => ?_⟩
    · simp [plugins]
    · simp [plugins]
    · simp [plugins]
    · simp [plugins]
    · rw [threads, if_neg distinct]
  refine consistent.of_served keeps ?_ compatible ?_ ?_ (.inl ?_) ?_ ?_
  · intro _ lookup
    rw [now] at lookup
    cases lookup
    exact sound
  · intro other isLoaded _ bounded
    refine keeps.served (cache other isLoaded) (fun old found filling => ?_) bounded
    exact (fills old other found filling).imp_left
      fun stillFills => ⟨thread, new, now, stillFills⟩
  · intro other dirty
    rw [plugins]
    exact .inl dirty
  · intro other dirty
    rw [plugins]
    exact dirty
  · intro other
    rw [plugins]
    exact .inl rfl
  · intro other
    rw [plugins]
    exact consistent.returned other

theorem Consistent.of_change {id : Id} {new : Option (Phase Id)}
    (consistent : system.Consistent loaded)
    (plugins : next.plugins = update system.plugins id plugin)
    (grows : Plugin.Grows thread (system.plugins id) plugin)
    (held : ∀ other, other ≠ thread → system.cacheHolder = some other →
      next.cacheHolder = some other ∧ next.settingsCache = system.settingsCache)
    (threads : ∀ other, next.threads.lookup other =
      if other = thread then new else system.threads.lookup other)
    (sound : ∀ phase, new = some phase → next.PhaseSound loaded thread phase)
    (compatible : system.Compatible next thread)
    (cache : ∀ other ∈ loaded, next.settingsCache.lookup other = system.settingsCache.lookup other ∨
      next.Covers other (system.plugins other).version)
    (fills : ∀ old other, system.threads.lookup thread = some old → old.fills other = true →
      (∃ phase, new = some phase ∧ phase.fills other = true) ∨
        next.Covers other (system.plugins other).version)
    (raised : (system.plugins id).dirty = true → plugin.dirty = true ∨
      ∃ phase, new = some phase ∧ phase.fills id = true)
    (lowered : ((system.plugins id).dirty = true → plugin.dirty = true) ∨
      ∃ old, system.threads.lookup thread = some old ∧ old.borrows = true)
    (returned : plugin.returned = (system.plugins id).returned ∨ plugin.dirty = true)
    (bounded : plugin.returned ≤ plugin.version) : next.Consistent loaded := by
  have self : next.plugins id = plugin := by rw [plugins, update_self]
  have same (other : Id) (distinct : other ≠ id) : next.plugins other = system.plugins other := by
    rw [plugins, update_of_ne distinct]
  have keeps : Keeps thread system next := by
    refine .of_change plugins grows held fun other distinct => ?_
    rw [threads, if_neg distinct]
  have now (phase : Phase Id) (is : new = some phase) :
      next.threads.lookup thread = some phase := by
    rw [threads, if_pos rfl]
    exact is
  refine consistent.of_served keeps ?_ compatible ?_ ?_ ?_ ?_ ?_
  · intro phase lookup
    rw [threads, if_pos rfl] at lookup
    exact sound phase lookup
  · intro other isLoaded _ bounded
    refine keeps.served (cache other isLoaded) (fun old found filling => ?_) bounded
    refine (fills old other found filling).imp_left ?_
    rintro ⟨phase, is, stillFills⟩
    exact ⟨thread, phase, now phase is, stillFills⟩
  · intro other dirty
    by_cases isChanged : other = id
    · subst isChanged
      rw [self]
      rcases raised dirty with stillDirty | ⟨phase, is, filling⟩
      · exact .inl stillDirty
      · exact .inr ⟨thread, phase, now phase is, filling⟩
    · rw [same other isChanged]
      exact .inl dirty
  · refine lowered.imp_left fun stays other dirty => ?_
    by_cases isChanged : other = id
    · subst isChanged
      rw [self]
      exact stays dirty
    · rw [same other isChanged]
      exact dirty
  · intro other
    by_cases isChanged : other = id
    · subst isChanged
      rw [self]
      exact returned
    · rw [same other isChanged]
      exact .inl rfl
  · intro other
    by_cases isChanged : other = id
    · subst isChanged
      rw [self]
      exact bounded
    · rw [same other isChanged]
      exact consistent.returned other

variable {phase : Phase Id}

theorem Consistent.changeEnter {id : Id} (consistent : system.Consistent loaded)
    (grows : Plugin.Grows thread (system.plugins id) plugin)
    (sound : ((system.change id plugin).enter thread phase).PhaseSound loaded thread phase)
    (compatible : system.Compatible ((system.change id plugin).enter thread phase) thread)
    (fills : ∀ old other, system.threads.lookup thread = some old →
      old.fills other = true → phase.fills other = true)
    (raised : (system.plugins id).dirty = true → plugin.dirty = true ∨ phase.fills id = true)
    (lowered : ((system.plugins id).dirty = true → plugin.dirty = true) ∨
      ∃ old, system.threads.lookup thread = some old ∧ old.borrows = true)
    (returned : plugin.returned = (system.plugins id).returned ∨ plugin.dirty = true)
    (bounded : plugin.returned ≤ plugin.version) :
    ((system.change id plugin).enter thread phase).Consistent loaded := by
  refine consistent.of_change rfl grows (fun _ _ holds => ⟨holds, rfl⟩)
    (fun _ => lookup_insert_ite _ _ _ _) ?_ compatible
    (fun _ _ => .inl rfl) ?_ ?_ lowered returned bounded
  · rintro _ ⟨⟩
    exact sound
  · intro old other found filling
    exact .inl ⟨phase, rfl, fills old other found filling⟩
  · exact fun dirty => (raised dirty).imp_right fun filling => ⟨phase, rfl, filling⟩

omit [DecidableEq Id] in
theorem lookup_enter_self {phase found : Phase Id}
    (lookup : (system.enter thread phase).threads.lookup thread = some found) : found = phase := by
  change (system.threads.insert thread phase).lookup thread = some found at lookup
  rw [lookup_insert] at lookup
  exact (some.inj lookup).symm

omit [DecidableEq Id] in
theorem compatible_of_new {base : System Id} (idle : phase.borrows = false) :
    system.Compatible (base.enter thread phase) thread :=
  compatible_of_not_borrows fun _ lookup => (lookup_enter_self lookup).symm ▸ idle

theorem fills_of_idle {goal : Phase Id → Id → Prop}
    (found : system.threads.lookup thread = some phase) (idle : ∀ id, phase.fills id = false)
    (old : Phase Id) (id : Id) (lookup : system.threads.lookup thread = some old)
    (filling : old.fills id = true) : goal old id := by
  rw [found] at lookup
  cases lookup
  rw [idle] at filling
  cases filling

theorem Consistent.enter (consistent : system.Consistent loaded)
    (sound : (system.enter thread phase).PhaseSound loaded thread phase)
    (compatible : system.Compatible (system.enter thread phase) thread)
    (fills : ∀ old other, system.threads.lookup thread = some old →
      old.fills other = true → phase.fills other = true) :
    (system.enter thread phase).Consistent loaded := by
  refine consistent.of_same rfl (fun _ _ holds => ⟨holds, rfl⟩)
    (fun _ => lookup_insert_ite _ _ _ _) sound compatible
    (fun _ _ => .inl rfl) ?_
  intro old other found filling
  exact .inl (fills old other found filling)

omit [DecidableEq Id] in
theorem noneIs_iff {kind : Phase Id → Bool} : system.noneIs kind = true ↔
    ∀ thread phase, system.threads.lookup thread = some phase → kind phase = false := by
  simp only [noneIs, List.all_eq_true, Bool.not_eq_true']
  constructor
  · intro none thread phase found
    exact none _ (lookup_eq_some_iff_mem.mp found)
  · rintro none ⟨thread, phase⟩ mem
    exact none thread phase (lookup_eq_some_iff_mem.mpr mem)

theorem not_fills_of_isFree (free : system.isFree thread = true)
    (found : system.threads.lookup thread = some phase) (id : Id) : phase.fills id = false := by
  rw [isFree, found] at free
  cases phase <;> first | rfl | cases free

theorem Consistent.not_owed {id : Id} (consistent : system.Consistent loaded)
    (found : system.threads.lookup thread = some old) (borrows : old.borrows = true)
    (idle : old.fills id = false)
    (cache : system.cacheHolder = none ∨ system.cacheHolder = some thread)
    (settled : system.noneIs (isRefreshing id) = true) : ¬ system.Owed id := by
  rintro ⟨owner, phase, lookup, filling⟩
  have distinct : owner ≠ thread := by
    rintro rfl
    rw [found] at lookup
    cases lookup
    rw [idle] at filling
    cases filling
  have notRefreshing := noneIs_iff.mp settled owner phase lookup
  cases phase with
  | fetching since plugin =>
    rw [show isRefreshing id (.fetching since plugin) =
      fills id (.fetching since plugin) from rfl, filling] at notRefreshing
    cases notRefreshing
  | storing since plugin settings =>
    rw [show isRefreshing id (.storing since plugin settings) =
      fills id (.storing since plugin settings) from rfl,
      filling] at notRefreshing
    cases notRefreshing
  | walkFetching since plugin =>
    have holds := (consistent.phases owner _ lookup).1
    rcases cache with free | mine
    · rw [free] at holds
      cases holds
    · rw [mine] at holds
      exact distinct (some.inj holds).symm
  | recaching plugin settings =>
    have clash := consistent.exclusive owner thread _ old distinct lookup found
    rw [clashes, borrows] at clash
    cases clash
  | _ => cases filling

/-- The cache is not read for a plugin while a `get_settings_for` has lowered its
flag and has yet to fill the cache. -/
def readsSettled (system : System Id) : Action Id → Bool
  | .advance thread =>
    match system.threads.lookup thread with
    | some (.recalling _ id) => system.noneIs (isRefreshing id)
    | some (.walking _ (id :: _)) =>
      (system.plugins id).dirty || system.noneIs (isRefreshing id)
    | _ => true
  | _ => true

variable {id : Id} {since : Nat} {sinceAll : Id → Nat} {rest : List Id}

theorem not_held_of_eq {holder : Option Nat} (mine : holder = none ∨ holder = some thread)
    (other : Nat) (distinct : other ≠ thread) : holder ≠ some other := by
  rintro rfl
  rcases mine with free | own
  · cases free
  · exact distinct (some.inj own)

theorem Keeps.changeEnter (grows : Plugin.Grows thread (system.plugins id) plugin) :
    Keeps thread system ((system.change id plugin).enter thread phase) := by
  refine .of_change rfl grows (fun _ _ holds => ⟨holds, rfl⟩) fun other distinct => ?_
  exact lookup_insert_ne distinct

theorem served_of_changeEnter {other : Id} (found : system.threads.lookup thread = some old)
    (idle : old.fills other = false) (grows : Plugin.Grows thread (system.plugins id) plugin)
    (bounded : since ≤ (system.plugins other).version)
    (served : system.Covers other since ∨ system.Owed other) :
    ((system.change id plugin).enter thread phase).Covers other since ∨
      ((system.change id plugin).enter thread phase).Owed other := by
  have keeps : Keeps thread system ((system.change id plugin).enter thread phase) :=
    .changeEnter grows
  refine keeps.served (.inl rfl) (fun another lookup filling => ?_) bounded served
  rw [found] at lookup
  cases lookup
  rw [idle] at filling
  cases filling

omit [DecidableEq Id] in
theorem Keeps.heldSince (keeps : Keeps thread system next)
    (bounded : since ≤ (system.plugins id).version) :
    next.HeldSince id since (system.plugins id).settings := by
  refine ⟨(system.plugins id).version, bounded, keeps.version id, ?_⟩
  rw [keeps.history id _ (Nat.le_refl _)]
  rfl

theorem lookup_retained (isLoaded : id ∈ loaded) :
    (system.retained loaded).lookup id = system.settingsCache.lookup id := by
  apply Option.ext
  intro _
  rw [lookup_eq_some_iff_mem, lookup_eq_some_iff_mem]
  simp [retained, isLoaded]

section

variable {settings : Settings} (consistent : system.Consistent loaded)
include consistent

theorem Consistent.leaveGuest (found : system.threads.lookup thread = some (.guest id)) :
    ((system.change id { system.plugins id with holder := none }).leave
      thread).Consistent loaded := by
  have holds := consistent.phases thread _ found
  refine consistent.of_change rfl
    (.of_holder none (not_held_of_eq (.inr holds)))
    (fun _ _ holds => ⟨holds, rfl⟩)
    (fun _ => lookup_erase_ite _ _ _) ?_ ?_ (fun _ _ => .inl rfl) ?_
    .inl (.inl fun dirty => dirty) (.inl rfl) (consistent.returned id)
  · rintro phase ⟨⟩
  · refine compatible_of_not_borrows fun phase lookup => ?_
    change (system.threads.erase thread).lookup thread = some phase at lookup
    rw [lookup_erase] at lookup
    cases lookup
  · exact fills_of_idle found fun _ => rfl

theorem Consistent.write (found : system.threads.lookup thread = some (.guest id))
    (settings : Settings) :
    ((system.change id ((system.plugins id).write settings)).enter thread
      (.marking id ((system.plugins id).version + 1))).Consistent loaded := by
  have holds := consistent.phases thread _ found
  refine consistent.changeEnter (.of_write settings _ (not_held_of_eq (.inr holds))) ?_ ?_ ?_ .inl
    (.inl fun dirty => dirty) (.inl rfl)
    ((consistent.returned id).trans (Nat.le_succ _))
  · simp only [PhaseSound, System.enter, System.change, update_self]
    exact ⟨holds, Nat.le_refl _⟩
  · exact compatible_of_new rfl
  · exact fills_of_idle found fun _ => rfl

theorem Consistent.mark {version : Nat}
    (found : system.threads.lookup thread = some (.marking id version)) : ((system.change id
      { system.plugins id with
        dirty := true
        returned := max (system.plugins id).returned version }).enter thread
          (.guest id)).Consistent loaded := by
  obtain ⟨holds, bounded⟩ := consistent.phases thread _ found
  refine consistent.changeEnter (.of_flag true (Nat.le_max_left _ _)) ?_ ?_ ?_
    (fun _ => .inl rfl) (.inl fun _ => rfl) (.inr rfl)
    (Nat.max_le.mpr ⟨consistent.returned id, bounded⟩)
  · simp only [PhaseSound, System.enter, System.change, update_self]
    exact holds
  · exact compatible_of_new rfl
  · exact fills_of_idle found fun _ => rfl

theorem Consistent.probe (found : system.threads.lookup thread = some (.probing since id)) :
    (system.probe thread since id).Consistent loaded := by
  obtain ⟨isLoaded, since_le⟩ := consistent.phases thread _ found
  have bounded := since_le.trans (consistent.returned id)
  refine consistent.changeEnter (.of_flag false (Nat.le_refl _)) ?_ ?_ ?_ ?_
    (.inr ⟨_, found, rfl⟩) (.inl rfl) (consistent.returned id)
  · split
    · simp only [PhaseSound, System.enter, System.change, update_self]
      exact bounded
    next clean =>
      have served : system.Covers id since ∨ system.Owed id := by
        rcases consistent.fresh id isLoaded with covers | dirty | owed
        · exact .inl (covers.mono since_le)
        · exact absurd dirty clean
        · exact .inr owed
      refine ⟨isLoaded, ?_, served_of_changeEnter found rfl (.of_flag false (Nat.le_refl _)) bounded
        served⟩
      simp only [System.enter, System.change, update_self]
      exact bounded
  · refine consistent.compatible found (fun _ lookup => lookup_enter_self lookup) ?_ ?_
    · split
      · exact fun none => none
      · exact fun none => none
    · exact fun _ => rfl
  · exact fills_of_idle found fun _ => rfl
  · intro dirty
    rw [dirty]
    exact .inr (decide_eq_true rfl)

theorem Consistent.fetch (found : system.threads.lookup thread = some (.fetching since id))
    (free : (system.plugins id).holder = none) :
    ((system.change id { system.plugins id with holder := some thread }).enter thread
      (.storing since id (system.plugins id).settings)).Consistent loaded := by
  have bounded := consistent.phases thread _ found
  refine consistent.changeEnter
    (.of_holder (some thread) (not_held_of_eq (.inl free))) ?_ ?_ ?_ .inl
    (.inl fun dirty => dirty) (.inl rfl) (consistent.returned id)
  · simp only [PhaseSound, System.enter, System.change, update_self]
    exact ⟨trivial, bounded, rfl⟩
  · exact consistent.compatible found (fun _ lookup => lookup_enter_self lookup)
      (fun none => none) (fun _ => rfl)
  · intro _ _ lookup filling
    rw [found] at lookup
    cases lookup
    exact filling

theorem Consistent.store (found : system.threads.lookup thread = some (.storing since id settings))
    (free : system.cacheHolder = none) : (((system.cache id settings).change id
      { system.plugins id with holder := none }).enter thread
        (.reported since id (some settings))).Consistent loaded := by
  obtain ⟨holds, bounded, rfl⟩ := consistent.phases thread _ found
  have grows : Plugin.Grows thread (system.plugins id) { system.plugins id with holder := none } :=
    .of_holder none (not_held_of_eq (.inr holds))
  have unheld (other : Nat) (holder : system.cacheHolder = some other) : False := by
    rw [free] at holder
    cases holder
  have keeps : Keeps thread system (((system.cache id (system.plugins id).settings).change id
      { system.plugins id with holder := none }).enter thread
        (.reported since id (some (system.plugins id).settings))) := by
    refine .of_change rfl grows (fun other _ holder => (unheld other holder).elim)
      fun other distinct => ?_
    exact lookup_insert_ne distinct
  have covered : (((system.cache id (system.plugins id).settings).change id
      { system.plugins id with holder := none }).enter thread
        (.reported since id (some (system.plugins id).settings))).Covers id
      (system.plugins id).version :=
    ⟨_, lookup_insert _, keeps.heldSince (Nat.le_refl _)⟩
  refine consistent.of_change rfl grows (fun other _ holder => (unheld other holder).elim)
    (fun _ => lookup_insert_ite _ _ _ _) ?_ ?_ ?_ ?_ .inl
    (.inl fun dirty => dirty) (.inl rfl) (consistent.returned id)
  · rintro _ ⟨⟩ _
    exact ⟨_, rfl, keeps.heldSince bounded⟩
  · exact compatible_of_new rfl
  · intro other _
    by_cases same : other = id
    · subst same
      exact .inr covered
    · exact .inl (lookup_insert_ne same)
  · intro _ other lookup filling
    rw [found] at lookup
    cases lookup
    obtain rfl := of_decide_eq_true filling
    exact .inr covered

theorem Consistent.recalled (found : system.threads.lookup thread = some (.recalling since id))
    (free : system.cacheHolder = none) (settled : system.noneIs (isRefreshing id) = true) :
    (system.enter thread (.reported since id (system.recalled id))).Consistent loaded := by
  obtain ⟨_, _, served⟩ := consistent.phases thread _ found
  have unowed := consistent.not_owed found rfl rfl (.inl free) settled
  refine consistent.enter ?_ ?_ ?_
  · intro _
    rcases served with ⟨settings, cached, held⟩ | owed
    · refine ⟨settings, ?_, held⟩
      rw [System.recalled, cached]
      rfl
    · exact absurd owed unowed
  · exact compatible_of_new rfl
  · exact fills_of_idle found fun _ => rfl

theorem Consistent.await (found : system.threads.lookup thread = some (.awaiting sinceAll))
    (free : system.cacheHolder = none) : ({ system with cacheHolder := some thread }.enter thread
      (.walking sinceAll loaded)).Consistent loaded := by
  have since_le := consistent.phases thread _ found
  have unheld (other : Nat) (holder : system.cacheHolder = some other) : False := by
    rw [free] at holder
    cases holder
  refine consistent.of_same rfl (fun other _ holder => (unheld other holder).elim)
    (fun _ => lookup_insert_ite _ _ _ _) ?_ ?_
    (fun _ _ => .inl rfl) ?_
  · exact ⟨rfl, since_le, List.Subset.refl _, fun _ => absurd⟩
  · exact consistent.compatible found (fun _ => lookup_enter_self)
      id (fun _ => rfl)
  · exact fills_of_idle found fun _ => rfl

theorem Consistent.walk
    (found : system.threads.lookup thread = some (.walking sinceAll (id :: rest)))
    (settled : (system.plugins id).dirty = true ∨ system.noneIs (isRefreshing id) = true) :
    ((system.change id { system.plugins id with dirty := false }).enter thread
      (if (system.plugins id).dirty then .walkFetching sinceAll id rest
        else .walking sinceAll rest)).Consistent loaded := by
  obtain ⟨holds, since_le, within, covered⟩ := consistent.phases thread _ found
  have grows : Plugin.Grows thread (system.plugins id) { system.plugins id with dirty := false } :=
    .of_flag false (Nat.le_refl _)
  have isLoaded : id ∈ loaded := within mem_cons_self
  have restWithin : rest ⊆ loaded := fun _ mem => within (mem_cons_of_mem _ mem)
  have stillBefore (phase : Phase Id) (other : Id) : sinceAll other ≤
      (((system.change id { system.plugins id with dirty := false }).enter
        thread phase).plugins other).returned :=
    (since_le other).trans ((Keeps.changeEnter grows).returned other)
  have stillCovered (phase : Phase Id) (other : Id)
      (covers : system.Covers other (sinceAll other)) :
      ((system.change id { system.plugins id with dirty := false }).enter thread
        phase).Covers other (sinceAll other) :=
    covers.keeps (.changeEnter grows) rfl
  refine consistent.changeEnter grows ?_ ?_ ?_ ?_ (.inr ⟨_, found, rfl⟩)
    (.inl rfl) (consistent.returned id)
  · split
    · exact ⟨holds, stillBefore _, restWithin, fun other otherLoaded walked =>
        stillCovered _ other (covered other otherLoaded walked)⟩
    next clean =>
      refine ⟨holds, stillBefore _, restWithin, fun other otherLoaded walked =>
        stillCovered _ other ?_⟩
      by_cases same : other = id
      · -- The flag was down and nobody is about to fill the cache.
        subst same
        have unowed := consistent.not_owed found rfl rfl (.inr holds) (settled.resolve_left clean)
        rcases consistent.fresh other isLoaded with covers | dirty | owed
        · exact covers.mono (since_le other)
        · exact absurd dirty clean
        · exact absurd owed unowed
      · refine covered other otherLoaded ?_
        rw [mem_cons, not_or]
        exact ⟨same, walked⟩
  · refine consistent.compatible found (fun _ lookup => lookup_enter_self lookup) ?_ (fun _ => rfl)
    split
    · exact fun none => none
    · exact fun none => none
  · exact fills_of_idle found fun _ => rfl
  · intro dirty
    rw [if_pos dirty]
    exact .inr (decide_eq_true rfl)

theorem Consistent.walkFetch (found :
    system.threads.lookup thread = some (.walkFetching sinceAll id rest)) :
    ((system.cache id (system.plugins id).settings).enter thread
      (.walking sinceAll rest)).Consistent loaded := by
  obtain ⟨holds, since_le, within, covered⟩ := consistent.phases thread _ found
  have current (since : Nat) (bounded : since ≤ (system.plugins id).version) :
      ((system.cache id (system.plugins id).settings).enter thread
        (.walking sinceAll rest)).Covers id since :=
    ⟨_, lookup_insert _, _, bounded, Nat.le_refl _, rfl⟩
  refine consistent.of_same rfl ?_ (fun _ => lookup_insert_ite _ _ _ _) ?_ ?_ ?_ ?_
  · intro other distinct holder
    rw [holds] at holder
    exact absurd (some.inj holder).symm distinct
  · refine ⟨holds, since_le, within, fun other isLoaded walked => ?_⟩
    by_cases same : other = id
    · subst same
      exact current _ ((since_le other).trans (consistent.returned other))
    · obtain ⟨settings, cached, held⟩ := covered other isLoaded (by simp [same, walked])
      exact ⟨settings, (lookup_insert_ne same).trans cached, held⟩
  · exact consistent.compatible found (fun _ lookup => lookup_enter_self lookup)
      (fun none => none) (fun _ => rfl)
  · intro other _
    by_cases same : other = id
    · subst same
      exact .inr (current _ (Nat.le_refl _))
    · exact .inl (lookup_insert_ne same)
  · intro _ other lookup filling
    rw [found] at lookup
    cases lookup
    obtain rfl := of_decide_eq_true filling
    exact .inr (current _ (Nat.le_refl _))

theorem Consistent.snapshot
    (found : system.threads.lookup thread = some (.walking sinceAll [])) : ({ system with
      settingsCache := system.retained loaded
      cacheHolder := none }.enter thread (.reportedAll sinceAll
        (system.retained loaded ∪ system.initialSettings))).Consistent
      loaded := by
  obtain ⟨holds, _, _, covered⟩ := consistent.phases thread _ found
  refine consistent.of_same rfl ?_ (fun _ => lookup_insert_ite _ _ _ _) ?_ ?_ ?_ ?_
  · intro other distinct holder
    rw [holds] at holder
    exact absurd (some.inj holder).symm distinct
  · intro id isLoaded
    obtain ⟨settings, cached, held⟩ := covered id isLoaded not_mem_nil
    rw [← lookup_retained isLoaded] at cached
    refine ⟨settings, ?_, held⟩
    rw [lookup_union_left]
    · exact cached
    · exact lookup_isSome.mp (by rw [cached]; rfl)
  · exact compatible_of_new rfl
  · exact fun other isLoaded => .inl (lookup_retained isLoaded)
  · exact fills_of_idle found fun _ => rfl

theorem Consistent.replace (found : system.threads.lookup thread = some (.replacing id settings))
    (free : (system.plugins id).holder = none) : ((system.change id
      { (system.plugins id).write settings with dirty := false }).enter thread
        (.recaching id settings ((system.plugins id).version + 1))).Consistent loaded := by
  refine consistent.changeEnter (.of_write settings false (not_held_of_eq (.inl free))) ?_ ?_ ?_
    (fun _ => .inr (decide_eq_true rfl)) (.inr ⟨_, found, rfl⟩) (.inl rfl)
    ((consistent.returned id).trans (Nat.le_succ _))
  · simp only [PhaseSound, System.enter, System.change, update_self]
    refine ⟨Nat.le_refl _, ?_, .inl ?_⟩
    · simp [Plugin.write]
    · exact (consistent.returned id).trans (Nat.le_succ _)
  · exact consistent.compatible found (fun _ => lookup_enter_self)
      (fun _ => rfl) (fun _ => rfl)
  · exact fills_of_idle found fun _ => rfl

/-- While settings are replaced, nobody else has borrowed the manager. -/
theorem Consistent.alone {other : Nat}
    (found : system.threads.lookup thread = some old) (replaces : old.isReplacing = true)
    (distinct : other ≠ thread) (lookup : system.threads.lookup other = some phase) :
    phase.borrows = false := by
  have clash := consistent.exclusive thread other old phase distinct.symm found lookup
  rw [clashes, replaces] at clash
  exact clash

theorem Consistent.recache {version : Nat} (found :
    system.threads.lookup thread = some (.recaching id settings version))
    (free : system.cacheHolder = none) : ({ (system.cache id settings).change id
      { system.plugins id with
        returned := max (system.plugins id).returned version } with
      initialSettings := system.initialSettings.insert id settings }.leave
        thread).Consistent loaded := by
  obtain ⟨bounded, same, unread⟩ := consistent.phases thread _ found
  let next : System Id :=
    { (system.cache id settings).change id
      { system.plugins id with
        returned := max (system.plugins id).returned version } with
      initialSettings := system.initialSettings.insert id settings }.leave thread
  have self : next.plugins id =
      { system.plugins id with
        returned := max (system.plugins id).returned version } :=
    update_self _ _ _
  have others (other : Id) (distinct : other ≠ id) : next.plugins other = system.plugins other :=
    update_of_ne distinct _ _
  have keeps : Keeps thread system next := by
    refine .of_change rfl (.of_flag _ (Nat.le_max_left _ _)) ?_ ?_
    · intro other _ holder
      rw [free] at holder
      cases holder
    · exact fun _ => lookup_erase_ne
  have gone (phase : Phase Id) (lookup : next.threads.lookup thread = some phase) : False := by
    change (system.threads.erase thread).lookup thread = some phase at lookup
    rw [lookup_erase] at lookup
    cases lookup
  refine consistent.of_keeps keeps ?_ ?_ ?_ ?_ ?_ ?_
  · exact fun phase lookup => (gone phase lookup).elim
  · exact fun phase lookup => (gone phase lookup).elim
  · intro other _ plugin _ distinct lookup
    cases consistent.alone found rfl distinct lookup
  · intro other plugin _ _ distinct lookup
    cases consistent.alone found rfl distinct lookup
  · intro other isLoaded
    by_cases isChanged : other = id
    · subst isChanged
      rw [self]
      rcases unread with known | dirty
      · refine .inl ⟨settings, lookup_insert _, version, ?_, ?_, ?_⟩
        · exact Nat.max_le.mpr ⟨known, Nat.le_refl _⟩
        · exact bounded.trans (keeps.version other)
        · rw [keeps.history other version bounded]
          exact same
      · exact .inr (.inl dirty)
    · rw [others other isChanged]
      rcases consistent.fresh other isLoaded with covers | dirty | owed
      · exact .inl (covers.keeps keeps (lookup_insert_ne isChanged))
      · exact .inr (.inl dirty)
      · obtain ⟨owner, phase, lookup, filling⟩ := owed
        refine .inr (.inr ⟨owner, phase, ?_, filling⟩)
        rw [keeps.others owner]
        · exact lookup
        · rintro rfl
          rw [found] at lookup
          cases lookup
          exact isChanged (of_decide_eq_true filling).symm
  · intro other
    by_cases isChanged : other = id
    · subst isChanged
      rw [self]
      exact Nat.max_le.mpr ⟨consistent.returned other, bounded⟩
    · rw [others other isChanged]
      exact consistent.returned other

theorem Consistent.advance (found : system.threads.lookup thread = some phase)
    (settled : system.readsSettled (.advance thread) = true)
    (advanced : system.advance loaded thread phase = some next) : next.Consistent loaded := by
  simp only [readsSettled, found] at settled
  cases phase with
  | guest id =>
    cases advanced
    exact consistent.leaveGuest found
  | marking id version =>
    cases advanced
    exact consistent.mark found
  | probing since id =>
    cases advanced
    exact consistent.probe found
  | fetching since id =>
    obtain ⟨free, ⟨⟩⟩ := ite_none_right_eq_some.mp advanced
    exact consistent.fetch found free
  | storing since id settings =>
    obtain ⟨free, ⟨⟩⟩ := ite_none_right_eq_some.mp advanced
    exact consistent.store found free
  | recalling since id =>
    obtain ⟨free, ⟨⟩⟩ := ite_none_right_eq_some.mp advanced
    exact consistent.recalled found free settled
  | reported since id settings => cases advanced
  | awaiting since =>
    obtain ⟨free, ⟨⟩⟩ := ite_none_right_eq_some.mp advanced
    exact consistent.await found free
  | walking since rest =>
    cases rest with
    | nil =>
      cases advanced
      exact consistent.snapshot found
    | cons id rest =>
      cases advanced
      rw [Bool.or_eq_true] at settled
      exact consistent.walk found settled
  | walkFetching since id rest =>
    obtain ⟨_, ⟨⟩⟩ := ite_none_right_eq_some.mp advanced
    exact consistent.walkFetch found
  | reportedAll since settings => cases advanced
  | replacing id settings =>
    obtain ⟨free, ⟨⟩⟩ := ite_none_right_eq_some.mp advanced
    exact consistent.replace found free
  | recaching id settings version =>
    obtain ⟨free, ⟨⟩⟩ := ite_none_right_eq_some.mp advanced
    exact consistent.recache found free

end

omit [DecidableEq Id] in
theorem compatible_of_noneIs (noneReplaces : system.noneIs isReplacing = true)
    (noneReads : new.isReplacing = true → system.noneIs isReading = true) :
    system.Compatible (system.enter thread new) thread := by
  intro _ lookup other found _ foundOther
  rw [lookup_enter_self lookup]
  have notReplacing := noneIs_iff.mp noneReplaces other found foundOther
  constructor
  · cases replacing : new.isReplacing with
    | false => rw [clashes, replacing, Bool.false_and]
    | true =>
      have notReading := noneIs_iff.mp (noneReads replacing) other found foundOther
      rw [clashes, borrows, notReading, notReplacing, Bool.or_false, Bool.and_false]
  · rw [clashes, notReplacing, Bool.false_and]

theorem Consistent.start (consistent : system.Consistent loaded)
    (free : system.isFree thread = true)
    (sound : (system.enter thread new).PhaseSound loaded thread new)
    (compatible : system.Compatible (system.enter thread new) thread) :
    (system.enter thread new).Consistent loaded := by
  refine consistent.enter sound compatible fun old other found filling => ?_
  rw [not_fills_of_isFree free found] at filling
  cases filling

theorem Consistent.step {action : Action Id} (consistent : system.Consistent loaded)
    (settled : system.readsSettled action = true) (taken : system.step loaded action = some next) :
    next.Consistent loaded := by
  cases action with
  | enterGuest thread id =>
    obtain ⟨⟨free, _, unheld⟩, ⟨⟩⟩ := ite_none_right_eq_some.mp taken
    refine consistent.changeEnter
      (.of_holder (some thread) (not_held_of_eq (.inl unheld))) ?_ ?_ ?_ .inl
      (.inl fun dirty => dirty) (.inl rfl) (consistent.returned id)
    · simp only [PhaseSound, System.enter, System.change, update_self]
    · exact compatible_of_new rfl
    · intro _ _ found filling
      rw [not_fills_of_isFree free found] at filling
      cases filling
  | setSetting thread =>
    simp only [System.step] at taken
    split at taken
    next id found =>
      split at taken
      · cases taken
        exact consistent.write found _
      · cases taken
        exact consistent
    · cases taken
  | getSettingsFor thread id =>
    obtain ⟨⟨free, noneReplaces⟩, ⟨⟩⟩ := ite_none_right_eq_some.mp taken
    unfold startGet
    split
    next isLoaded =>
      exact consistent.start free ⟨isLoaded, Nat.le_refl _⟩
        (compatible_of_noneIs noneReplaces fun none => nomatch none)
    next notLoaded =>
      exact consistent.start free (fun isLoaded => absurd isLoaded notLoaded)
        (compatible_of_noneIs noneReplaces fun none => nomatch none)
  | getAllSettings thread =>
    obtain ⟨⟨free, noneReplaces⟩, ⟨⟩⟩ := ite_none_right_eq_some.mp taken
    exact consistent.start free (fun _ => Nat.le_refl _)
      (compatible_of_noneIs noneReplaces fun none => nomatch none)
  | replacePluginSettings thread id =>
    obtain ⟨⟨free, noneReplaces, noneReads⟩, started⟩ := ite_none_right_eq_some.mp taken
    split at started
    · cases started
      exact consistent.start free trivial
        (compatible_of_noneIs noneReplaces fun _ => noneReads)
    · cases started
      exact consistent
  | advance thread =>
    obtain ⟨_, found, advanced⟩ := bind_eq_some_iff.mp taken
    exact consistent.advance found settled advanced

end

theorem consistent_initial (loaded : List Id) (live : Id → Settings)
    (initialSettings : KeyedMap Id Settings) :
    (initial live initialSettings).Consistent loaded := by
  refine ⟨?_, fun _ _ => .inr (.inl rfl), fun _ => Nat.le_refl _, ?_⟩
  · intro _ phase found
    cases found
  · intro _ _ phase _ _ found
    cases found

/-- Where the cache is not read while it is about to be filled, a snapshot is not older than
the last write before it. -/
theorem snapshots_report_returned_writes (loaded : List Id) (live : Id → Settings)
    (initialSettings : KeyedMap Id Settings) (actions : List (Action Id)) (final : System Id)
    (settled : Guarded (step loaded) (fun system action => system.readsSettled action = true)
      (initial live initialSettings) actions)
    (ran : run (step loaded) (initial live initialSettings) actions = some final) :
    (∀ thread since id settings, final.threads.lookup thread = some (.reported since id settings) →
      id ∈ loaded → ∃ held, settings = some held ∧ final.HeldSince id since held) ∧
      ∀ thread since snapshot, final.threads.lookup thread = some (.reportedAll since snapshot) →
        ∀ id ∈ loaded, ∃ held, snapshot.lookup id = some held ∧
          final.HeldSince id (since id) held := by
  have consistent : final.Consistent loaded :=
    run_preserves_of_guarded (fun system => system.Consistent loaded)
      (fun consistent => consistent.step)
      (consistent_initial loaded live initialSettings) settled ran
  constructor
  · intro thread since id settings found
    exact consistent.phases thread _ found
  · intro thread since snapshot found
    exact consistent.phases thread _ found

/-- Thread 1 sets a setting of plugin 0 and leaves the guest; thread 2 lowers the
flag. -/
def setThenProbe : List (Action Nat) :=
  [.enterGuest 1 0, .setSetting 1 "lang" "en", .advance 1,
    .advance 1, .getSettingsFor 2 0, .advance 2]

/-- Threads 3 and 4 start after the setting was written, and neither of their
snapshots has it. -/
theorem stale_snapshot_after_set_setting :
    ((run (step [0]) (initial (fun _ => ∅) ∅) (setThenProbe ++
      [.getSettingsFor 3 0, .advance 3, .advance 3, .getAllSettings 4,
        .advance 4, .advance 4, .advance 4])).elim false
      fun final =>
        (match final.threads.lookup 3 with
          | some (.reported since id settings) => since == 1 && id == 0 && settings.isNone
          | _ => false) &&
        (match final.threads.lookup 4 with
          | some (.reportedAll since snapshot) => since 0 == 1 && (snapshot.lookup 0).isNone
          | _ => false) &&
        ((final.plugins 0).history 1).lookup "lang" == some "en") = true := by
  decide

/-- Once thread 2 has filled the cache, thread 3 reports the setting. -/
theorem snapshot_reports_set_setting :
    let actions :=
      setThenProbe ++ [.advance 2, .advance 2, .getSettingsFor 3 0, .advance 3, .advance 3]
    ∃ final settings, Guarded (step [0]) (fun system action => system.readsSettled action = true)
      (initial (fun _ => ∅) ∅) actions ∧
        run (step [0]) (initial (fun _ => ∅) ∅) actions = some final ∧
        final.threads.lookup 3 = some (.reported 1 0 settings) ∧
        ∃ held, settings = some held ∧ final.HeldSince 0 1 held := by
  intro actions
  have settled : Guarded (step [0]) (fun system action => system.readsSettled action = true)
      (initial (fun _ => ∅) ∅) actions := by
    decide
  have reported : (run (step [0]) (initial (fun _ => ∅) ∅) actions).elim false (fun final =>
    match final.threads.lookup 3 with
    | some (.reported since id _) => since == 1 && id == 0
    | _ => false) = true := by
    decide
  cases ran : run (step [0]) (initial (fun _ => ∅) ∅) actions with
  | none =>
    rw [ran] at reported
    cases reported
  | some final =>
    rw [ran] at reported
    simp only [elim_some] at reported
    split at reported
    next since id settings found =>
      simp only [Bool.and_eq_true, beq_iff_eq] at reported
      obtain ⟨rfl, rfl⟩ := reported
      refine ⟨final, settings, settled, rfl, found, ?_⟩
      exact (snapshots_report_returned_writes [0] (fun _ => ∅) ∅ actions final
        settled ran).1 3 1 0 settings found mem_cons_self
    · cases reported

end System

end Arclain.PluginSettings
