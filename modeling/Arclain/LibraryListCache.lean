import Arclain.LibraryService

namespace Arclain.LibraryService

/-!
# The lists of the cache and the lists that are reported

A list in the cache is what the database held at some moment, and every write since then has
yet to clear the cache, as long as no thread inserts a list that it queried before a write
which has cleared the cache but not bumped the epoch.
-/

open KeyedMap Option ActionRun Library Text

variable {Source : Type}

def Phase.write? : Phase Source → Option Nat
  | .clearing version | .bumping version => some version
  | _ => none

/-- After a moment the thread has written and cleared the cache, and has yet to bump the
epoch. -/
def Phase.isBumpingAfter (moment : Nat) : Phase Source → Bool
  | .bumping version => moment < version
  | _ => false

namespace System

def write? (system : System Source) (thread : Nat) : Option Nat :=
  (system.threads.lookup thread).bind Phase.write?

def Unfinished (system : System Source) (version : Nat) : Prop :=
  ∃ thread, system.write? thread = some version

def Uncleared (system : System Source) (version : Nat) : Prop :=
  ∃ thread, system.threads.lookup thread = some (.clearing version)

def HeldAt (listIds : ListIds Source) (system : System Source) (version : Nat) (source : Source)
    (ids : List Str) : Prop :=
  version ≤ system.version ∧ ids = listIds (system.history version) source

def PhaseSound (listIds : ListIds Source) (system : System Source) : Phase Source → Prop
  | .clearing version | .bumping version => version ≤ system.version
  | .querying since _ epoch => since ≤ system.version ∧ epoch ≤ system.bumps
  | .inserting since source epoch queried ids =>
    since ≤ queried ∧ epoch ≤ system.bumps ∧ system.HeldAt listIds queried source ids ∧
      ∀ version, queried < version → version ≤ system.version →
        system.Unfinished version ∨ epoch < system.bumps
  | .listed since source ids =>
    ∃ version, since ≤ version ∧ system.HeldAt listIds version source ids
  | _ => True

/-- What the other threads keep while one takes a step. -/
structure Extends (system next : System Source) : Prop where
  version : system.version ≤ next.version
  history : ∀ version ≤ system.version, next.history version = system.history version
  bumps : system.bumps ≤ next.bumps
  unfinished : ∀ version ≤ next.version, system.Unfinished version ∨ system.version < version →
    next.Unfinished version ∨ system.bumps < next.bumps

variable {listIds : ListIds Source} {system next : System Source}

theorem HeldAt.extends {version : Nat}
    {source : Source} {ids : List Str} (held : system.HeldAt listIds version source ids)
    (grows : system.Extends next) : next.HeldAt listIds version source ids := by
  refine ⟨held.1.trans grows.version, ?_⟩
  rw [grows.history version held.1]
  exact held.2

theorem PhaseSound.extends
    {phase : Phase Source} (sound : system.PhaseSound listIds phase) (grows : system.Extends next) :
    next.PhaseSound listIds phase := by
  cases phase with
  | saving row | writing row | deleting => trivial
  | clearing version | bumping version => exact Nat.le_trans sound grows.version
  | querying since source epoch => exact ⟨sound.1.trans grows.version, sound.2.trans grows.bumps⟩
  | inserting since source epoch _ ids =>
    obtain ⟨since_le, epoch_le, held, newer⟩ := sound
    refine ⟨since_le, epoch_le.trans grows.bumps, held.extends grows, ?_⟩
    intro version later bounded
    have known : (system.Unfinished version ∨ system.version < version) ∨ epoch < system.bumps := by
      by_cases old : version ≤ system.version
      · rcases newer version later old with unfinished | bumped
        · exact .inl (.inl unfinished)
        · exact .inr bumped
      · exact .inl (.inr (by omega))
    rcases known with unfinished | bumped
    · rcases grows.unfinished version bounded unfinished with still | bumped
      · exact .inl still
      · exact .inr (by omega)
    · exact .inr (bumped.trans_le grows.bumps)
  | listed since source ids =>
    obtain ⟨version, since_le, held⟩ := sound
    exact ⟨version, since_le, held.extends grows⟩

section

variable {system : System Source} {thread : Nat} {phase : Phase Source}

theorem write?_enter (system : System Source) (thread : Nat) (phase : Phase Source) (other : Nat) :
    (system.enter thread phase).write? other =
      if other = thread then phase.write? else system.write? other := by
  unfold write? enter
  rw [lookup_insert_ite]
  split
  · rfl
  · rfl

theorem write?_leave (system : System Source) (thread other : Nat) :
    (system.leave thread).write? other =
      if other = thread then none else system.write? other := by
  unfold write? leave
  rw [lookup_erase_ite]
  split
  · rfl
  · rfl

theorem phase_of_enter {other : Nat} {found : Phase Source}
    (lookup : (system.enter thread phase).threads.lookup other = some found) :
    found = phase ∨ system.threads.lookup other = some found := by
  unfold enter at lookup
  rw [lookup_insert_ite] at lookup
  split at lookup
  · exact .inl (some.inj lookup).symm
  · exact .inr lookup

theorem ne_of_clearing (quiet : system.write? thread = none) {other version : Nat}
    (clearing : system.threads.lookup other = some (.clearing version)) : other ≠ thread := by
  rintro rfl
  rw [write?, clearing] at quiet
  cases quiet

theorem quiet_of_isFree (free : system.isFree thread = true) : system.write? thread = none := by
  unfold isFree at free
  unfold write?
  cases found : system.threads.lookup thread with
  | none => rfl
  | some phase =>
    rw [found] at free
    cases phase <;> cases free
    rfl

end

variable [DecidableEq Source]

/-- What holds in every state that is reached. -/
structure Consistent (listIds : ListIds Source) (system : System Source) : Prop where
  cached : ∀ source ids, system.listCache.lookup source = some ids →
    ∃ version, system.HeldAt listIds version source ids ∧
      ∀ later, version < later → later ≤ system.version → system.Uncleared later
  phases : ∀ thread phase, system.threads.lookup thread = some phase →
    system.PhaseSound listIds phase
  distinct : ∀ first second version, system.write? first = some version →
    system.write? second = some version → first = second
  unreturned : ¬ system.Unfinished system.returned
  returned : system.returned ≤ system.version

section

variable {listIds : ListIds Source} {system : System Source} {thread : Nat} {phase : Phase Source}

section

variable (consistent : system.Consistent listIds)
include consistent

theorem Consistent.rethread {listCache : KeyedMap Source (List Str)}
    {threads : KeyedMap Nat (Phase Source)}
    (writes : ∀ other, (threads.lookup other).bind Phase.write? = system.write? other)
    (phases : ∀ other phase, threads.lookup other = some phase → system.PhaseSound listIds phase)
    (cached : ∀ source ids, listCache.lookup source = some ids →
      ∃ version, system.HeldAt listIds version source ids ∧
        ∀ later, version < later → later ≤ system.version →
          ∃ thread, threads.lookup thread = some (.clearing later)) :
    ({ system with
      listCache := listCache
      threads := threads } : System Source).Consistent listIds := by
  have grows : system.Extends
      { system with
        listCache := listCache
        threads := threads } := by
    refine ⟨Nat.le_refl _, fun _ _ => rfl, Nat.le_refl _, ?_⟩
    rintro version bounded (⟨owner, owns⟩ | newer)
    · exact .inl ⟨owner, (writes owner).trans owns⟩
    · exact absurd bounded (Nat.not_le.mpr newer)
  refine ⟨?_, ?_, ?_, ?_, consistent.returned⟩
  · intro source ids found
    obtain ⟨version, held, uncleared⟩ := cached source ids found
    exact ⟨version, held.extends grows, uncleared⟩
  · intro other phase found
    exact (phases other phase found).extends grows
  · intro first second version firstOwns secondOwns
    exact consistent.distinct first second version ((writes first).symm.trans firstOwns)
      ((writes second).symm.trans secondOwns)
  · rintro ⟨owner, owns⟩
    exact consistent.unreturned ⟨owner, (writes owner).symm.trans owns⟩

theorem Consistent.enter (quiet : system.write? thread = none) (stillQuiet : phase.write? = none)
    (sound : system.PhaseSound listIds phase) : (system.enter thread phase).Consistent listIds := by
  refine consistent.rethread ?_ ?_ ?_
  · intro other
    refine (write?_enter system thread phase other).trans ?_
    split
    next moved => rw [moved, stillQuiet, quiet]
    · rfl
  · intro other found lookup
    rcases phase_of_enter lookup with rfl | old
    · exact sound
    · exact consistent.phases other found old
  · intro source ids found
    obtain ⟨version, held, uncleared⟩ := consistent.cached source ids found
    refine ⟨version, held, fun later newer bounded => ?_⟩
    obtain ⟨owner, clearing⟩ := uncleared later newer bounded
    refine ⟨owner, ?_⟩
    rw [lookup_insert_ite, if_neg (ne_of_clearing quiet clearing)]
    exact clearing

theorem Consistent.leave
    (quiet : system.write? thread = none) : (system.leave thread).Consistent listIds := by
  refine consistent.rethread ?_ ?_ ?_
  · intro other
    refine (write?_leave system thread other).trans ?_
    split
    next moved => rw [moved, quiet]
    · rfl
  · intro other found lookup
    replace lookup := lookup_of_erase lookup
    exact consistent.phases other found lookup
  · intro source ids found
    obtain ⟨version, held, uncleared⟩ := consistent.cached source ids found
    refine ⟨version, held, fun later newer bounded => ?_⟩
    obtain ⟨owner, clearing⟩ := uncleared later newer bounded
    refine ⟨owner, ?_⟩
    rw [lookup_erase_ite, if_neg (ne_of_clearing quiet clearing)]
    exact clearing

theorem Consistent.commit (quiet : system.write? thread = none) (rows : Rows Source) :
    ((system.commit rows).enter thread (.clearing (system.version + 1))).Consistent listIds := by
  have writes (other : Nat) : ((system.commit rows).enter thread
      (.clearing (system.version + 1))).write? other =
        if other = thread then some (system.version + 1)
        else system.write? other :=
    write?_enter (system.commit rows) thread _ other
  have bounded (other version : Nat) (owns : system.write? other = some version) :
      version ≤ system.version := by
    obtain ⟨phase, found, writing⟩ := bind_eq_some_iff.mp owns
    have sound := consistent.phases other phase found
    cases phase <;> cases writing
    · exact sound
    · exact sound
  have others (other version : Nat) (owns : system.write? other = some version) :
      other ≠ thread := by
    rintro rfl
    rw [quiet] at owns
    cases owns
  have grows : system.Extends ((system.commit rows).enter thread
      (.clearing (system.version + 1))) := by
    refine ⟨Nat.le_succ _, ?_, Nat.le_refl _, ?_⟩
    · intro version old
      exact Function.update_of_ne (by omega) _ _
    · rintro version current (⟨owner, owns⟩ | newer)
      · refine .inl ⟨owner, ?_⟩
        rw [writes, if_neg (others owner version owns)]
        exact owns
      · refine .inl ⟨thread, ?_⟩
        change version ≤ system.version + 1 at current
        rw [writes, if_pos rfl]
        congr 1
        omega
  refine ⟨?_, ?_, ?_, ?_, consistent.returned.trans (Nat.le_succ _)⟩
  · intro source ids found
    obtain ⟨version, held, uncleared⟩ := consistent.cached source ids found
    refine ⟨version, held.extends grows, fun later newer current => ?_⟩
    change later ≤ system.version + 1 at current
    unfold Uncleared System.enter
    by_cases old : later ≤ system.version
    · obtain ⟨owner, clearing⟩ := uncleared later newer old
      refine ⟨owner, ?_⟩
      rw [lookup_insert_ite, if_neg (ne_of_clearing quiet clearing)]
      exact clearing
    · refine ⟨thread, ?_⟩
      rw [lookup_insert_ite, if_pos rfl]
      congr 2
      omega
  · intro other found lookup
    rcases phase_of_enter lookup with rfl | old
    · exact Nat.le_refl _
    · exact (consistent.phases other found old).extends grows
  · intro first second version firstOwns secondOwns
    rw [writes] at firstOwns secondOwns
    split at firstOwns
    next firstMoved =>
      split at secondOwns
      next secondMoved => rw [firstMoved, secondMoved]
      · have old := bounded second version secondOwns
        cases firstOwns
        omega
    · split at secondOwns
      · have old := bounded first version firstOwns
        cases secondOwns
        omega
      · exact consistent.distinct first second version firstOwns secondOwns
  · rintro ⟨owner, owns⟩
    rw [writes] at owns
    change _ = some system.returned at owns
    split at owns
    · have returned := consistent.returned
      have fresh := some.inj owns
      omega
    · exact consistent.unreturned ⟨owner, owns⟩

end

variable {version : Nat}

section

variable (consistent : system.Consistent listIds)
include consistent

theorem Consistent.clear
    (found : system.threads.lookup thread = some (.clearing version)) : ({ system with
      listCache := ∅
      threads := system.threads.insert thread (.bumping version) } :
        System Source).Consistent listIds := by
  refine consistent.rethread ?_ ?_ ?_
  · intro other
    refine (write?_enter system thread (.bumping version) other).trans ?_
    split
    next moved =>
      rw [moved, write?, found]
      rfl
    · rfl
  · intro other phase lookup
    rcases phase_of_enter lookup with rfl | old
    · have sound : version ≤ system.version := consistent.phases thread _ found
      exact sound
    · exact consistent.phases other phase old
  · intro _ _ cached
    cases cached

theorem Consistent.bump
    (found : system.threads.lookup thread = some (.bumping version)) : ({ system with
      bumps := system.bumps + 1
      threads := system.threads.erase thread
      returned := max system.returned version } : System Source).Consistent listIds := by
  have owns : system.write? thread = some version := by
    rw [write?, found]
    rfl
  have grows : system.Extends
      { system with
        bumps := system.bumps + 1
        threads := system.threads.erase thread
        returned := max system.returned version } :=
    ⟨Nat.le_refl _, fun _ _ => rfl, Nat.le_succ _, fun _ _ _ => .inr (Nat.lt_succ_self _)⟩
  have remains {other : Nat} {version : Nat}
      (stays : ((system.threads.erase thread).lookup other).bind Phase.write? = some version) :
      other ≠ thread ∧ system.write? other = some version := by
    rw [lookup_erase_ite] at stays
    split at stays
    · cases stays
    next unmoved => exact ⟨unmoved, stays⟩
  refine ⟨?_, ?_, ?_, ?_, ?_⟩
  · intro source ids cached
    obtain ⟨moment, held, uncleared⟩ := consistent.cached source ids cached
    refine ⟨moment, held.extends grows, fun later newer current => ?_⟩
    obtain ⟨owner, clearing⟩ := uncleared later newer current
    have unmoved : owner ≠ thread := by
      rintro rfl
      rw [found] at clearing
      cases clearing
    refine ⟨owner, ?_⟩
    rw [lookup_erase_ite, if_neg unmoved]
    exact clearing
  · intro other phase lookup
    replace lookup := lookup_of_erase lookup
    exact (consistent.phases other phase lookup).extends grows
  · intro first second shared firstOwns secondOwns
    exact consistent.distinct first second shared (remains firstOwns).2 (remains secondOwns).2
  · rintro ⟨owner, stays⟩
    obtain ⟨unmoved, still⟩ := remains stays
    change system.write? owner = some (max system.returned version) at still
    rcases Nat.le_total version system.returned with older | newer
    · rw [Nat.max_eq_left older] at still
      exact consistent.unreturned ⟨owner, still⟩
    · rw [Nat.max_eq_right newer] at still
      exact unmoved (consistent.distinct owner thread version still owns)
  · exact max_le consistent.returned (consistent.phases thread _ found)

theorem Consistent.returned_le
    (uncleared : ∀ later, version < later → later ≤ system.version → system.Uncleared later) :
    system.returned ≤ version := by
  by_contra older
  obtain ⟨owner, clearing⟩ := uncleared system.returned (by omega) consistent.returned
  refine consistent.unreturned ⟨owner, ?_⟩
  rw [write?, clearing]
  rfl

end

/-- No list passes the epoch check that is older than a clearing write without its bump, or
than 2^64 bumps. -/
def insertsInOrder (system : System Source) : Action Source → Bool
  | .advance thread _ =>
    match system.threads.lookup thread with
    | some (.inserting _ _ epoch queried _) =>
      cacheEpoch system.bumps != cacheEpoch epoch || decide (system.bumps - epoch < 2 ^ 64) &&
        system.threads.entries.all fun entry => !entry.2.isBumpingAfter queried
    | _ => true
  | _ => true

theorem Consistent.insertList {since epoch queried : Nat} {source : Source} {ids : List Str}
    (consistent : system.Consistent listIds)
    (found : system.threads.lookup thread = some (.inserting since source epoch queried ids))
    (ordered : cacheEpoch system.bumps = cacheEpoch epoch → system.bumps - epoch < 2 ^ 64 ∧
      ∀ other phase, system.threads.lookup other = some phase →
        phase.isBumpingAfter queried = false) :
    (system.insertList thread since source epoch ids).Consistent listIds := by
  obtain ⟨since_le, _, held, newer⟩ := consistent.phases thread _ found
  have quiet : system.write? thread = none := by
    rw [write?, found]
    rfl
  have sound : system.PhaseSound listIds (.listed since source ids) := ⟨queried, since_le, held⟩
  have returned := consistent.enter quiet rfl sound
  unfold System.insertList
  split
  next unchanged =>
    obtain ⟨recent, unbumped⟩ := ordered unchanged
    -- The epoch has not moved, so every newer write has yet to clear the cache.
    have same : system.bumps = epoch := by
      have mod := congrArg UInt64.toNat unchanged
      simp only [cacheEpoch, UInt64.toNat_ofNat'] at mod
      omega
    have uncleared : ∀ later, queried < later → later ≤ system.version →
        system.Uncleared later := by
      intro later after bounded
      rcases newer later after bounded with ⟨owner, owns⟩ | bumped
      · obtain ⟨phase, lookup, writing⟩ := bind_eq_some_iff.mp owns
        cases phase <;> cases writing
        · exact ⟨owner, lookup⟩
        · have old : ¬ queried < later := of_decide_eq_false (unbumped owner _ lookup)
          exact absurd after old
      · omega
    refine { returned with cached := ?_ }
    intro other listed cached
    change (system.listCache.insert source ids).lookup other = some listed at cached
    rw [lookup_insert_ite] at cached
    split at cached
    next inserted =>
      cases cached
      subst inserted
      refine ⟨queried, held, fun later after bounded => ?_⟩
      obtain ⟨owner, clearing⟩ := uncleared later after bounded
      refine ⟨owner, ?_⟩
      change (system.threads.insert thread _).lookup owner = _
      rw [lookup_insert_ite, if_neg (ne_of_clearing quiet clearing)]
      exact clearing
    · exact returned.cached other listed cached
  · exact returned

theorem Consistent.step {next : System Source} {action : Action Source}
    (consistent : system.Consistent listIds) (ordered : system.insertsInOrder action)
    (taken : system.step listIds action = some next) : next.Consistent listIds := by
  cases action with
  | save thread row | delete thread id =>
    obtain ⟨free, ⟨⟩⟩ := ite_none_right_eq_some.mp taken
    exact consistent.enter (quiet_of_isFree free) rfl trivial
  | list thread source =>
    obtain ⟨free, ⟨⟩⟩ := ite_none_right_eq_some.mp taken
    have quiet := quiet_of_isFree free
    unfold startList
    cases cached : system.listCache.lookup source with
    | some ids =>
      obtain ⟨version, held, uncleared⟩ := consistent.cached source ids cached
      exact consistent.enter quiet rfl
        ⟨version, consistent.returned_le uncleared, held⟩
    | none =>
      exact consistent.enter quiet rfl
        ⟨consistent.returned, Nat.le_refl _⟩
  | advance thread =>
    obtain ⟨phase, found, advanced⟩ := bind_eq_some_iff.mp taken
    have writes : system.write? thread = phase.write? := by
      rw [write?, found]
      rfl
    cases phase with
    | saving row =>
      cases advanced
      unfold readExisting
      split
      · split
        · split
          · exact consistent.leave writes
          · exact consistent.enter writes rfl trivial
        · exact consistent.enter writes rfl trivial
      · exact consistent.enter writes rfl trivial
    | writing row | deleting id =>
      simp only [advance] at advanced
      split at advanced
      · cases advanced
        exact consistent.commit writes _
      · cases advanced
        exact consistent.leave writes
    | clearing version =>
      cases advanced
      exact consistent.clear found
    | bumping version =>
      cases advanced
      exact consistent.bump found
    | querying since source epoch =>
      obtain ⟨since_le, epoch_le⟩ := consistent.phases thread _ found
      simp only [advance] at advanced
      split at advanced
      · cases advanced
        refine consistent.enter writes rfl
          ⟨since_le, epoch_le, ⟨Nat.le_refl _, rfl⟩, ?_⟩
        intro version _ _
        omega
      · cases advanced
        exact consistent.leave writes
    | inserting since source epoch _ ids =>
      cases advanced
      simp only [insertsInOrder, found, Bool.or_eq_true, bne_iff_ne, Bool.and_eq_true,
        decide_eq_true_eq, List.all_eq_true, Bool.not_eq_true'] at ordered
      refine consistent.insertList found fun unchanged => ?_
      obtain moved | ⟨recent, unbumped⟩ := ordered
      · exact absurd unchanged moved
      · exact ⟨recent, fun _ _ lookup => unbumped _ (lookup_eq_some_iff_mem.mp lookup)⟩
    | listed since source ids => cases advanced

end

theorem consistent_initial (listIds : ListIds Source) (rows : Rows Source) :
    (initial rows).Consistent listIds := by
  refine ⟨?_, ?_, ?_, ?_, Nat.le_refl _⟩
  · intro _ _ cached
    cases cached
  · intro thread _ found
    cases found
  · intro _ _ _ owns
    cases owns
  · rintro ⟨thread, owns⟩
    cases owns

/-- Where inserts are in order, idle caches are current, and a list is not older than the
last write before its call. -/
theorem lists_are_current (listIds : ListIds Source) (rows : Rows Source)
    (actions : List (Action Source)) (final : System Source)
    (ordered : Guarded (step listIds) (fun system action => system.insertsInOrder action)
      (initial rows) actions)
    (ran : run (step listIds) (initial rows) actions = some final) :
    ((∀ thread phase, final.threads.lookup thread = some phase → phase.isOver) →
      ∀ source ids, final.listCache.lookup source = some ids → ids = listIds final.rows source) ∧
      ∀ thread since source ids, final.threads.lookup thread = some (.listed since source ids) →
        ∃ version, since ≤ version ∧ final.HeldAt listIds version source ids := by
  have consistent : final.Consistent listIds :=
    run_preserves_of_guarded (fun system => system.Consistent listIds)
      (fun consistent => consistent.step)
      (consistent_initial listIds rows) ordered ran
  constructor
  · intro isOver source ids cached
    obtain ⟨version, held, uncleared⟩ := consistent.cached source ids cached
    have current : version = final.version := by
      by_contra older
      have bounded := held.1
      obtain ⟨thread, clearing⟩ := uncleared final.version (by omega) (Nat.le_refl _)
      cases isOver thread _ clearing
    rw [held.2, current]
    rfl
  · intro thread since source ids found
    exact consistent.phases thread _ found

/-- The sources that the tests of the service use. -/
inductive MetadataSource where
  | dlSite
  | steam
  deriving DecidableEq

def idsOf : ListIds MetadataSource :=
  fun rows source =>
    (rows.entries.filter fun entry => entry.2.source = source).map fun entry => entry.1

def bareRow : ProductMetadata MetadataSource where
  id := "dlsite:RJ100".toList
  source := .dlSite
  externalId := "RJ100".toList
  title := none
  creator := none
  description := none
  releaseDate := none
  price := none
  currency := none
  rating := none
  ratingCount := none
  purchaseCount := none
  favoriteCount := none
  reviewCount := none
  fileSize := none
  fileFormat := none
  ageRating := none
  genres := []
  tags := []
  languages := []
  extras := .object []
  rawApiResponse := none
  rawHtml := none
  geoBlocked := false
  cachedAt := 0
  updatedAt := none

/-- Thread 1 queries the database; thread 2 saves a row and clears the cache. -/
def listThenSave : List (Action MetadataSource) :=
  [.list 1 .dlSite, .advance 1 true, .save 2 bareRow, .advance 2 true,
    .advance 2 true, .advance 2 true]

/-- If thread 1 inserts its list before thread 2 bumps the epoch, the cache stays stale, and
a later list does not report the row. -/
theorem stale_list_after_save : ((run (step idsOf) (initial ∅) (listThenSave ++
    [.advance 1 true, .advance 2 true, .list 3 .dlSite])).elim false fun final =>
      final.threads.entries.all (fun entry => entry.2.isOver) &&
        final.listCache.lookup .dlSite == some [] &&
        idsOf final.rows .dlSite == ["dlsite:RJ100".toList] &&
        final.threads.lookup 3 == some (.listed 1 .dlSite [])) = true := by
  decide

/-- If thread 2 bumps the epoch first, the list is not inserted. -/
theorem lists_are_current_after_save :
    let actions := listThenSave ++ [.advance 2 true, .advance 1 true]
    ∃ final, Guarded (step idsOf) (fun system action => system.insertsInOrder action)
      (initial ∅) actions ∧ run (step idsOf) (initial ∅) actions = some final ∧
        ∀ source ids, final.listCache.lookup source = some ids → ids = idsOf final.rows source := by
  intro actions
  have ordered : Guarded (step idsOf) (fun system action => system.insertsInOrder action)
      (initial ∅) actions := by
    decide
  have isOver : (run (step idsOf) (initial ∅) actions).elim false
      (fun final => final.threads.entries.all fun entry => entry.2.isOver) = true := by
    decide
  cases ran : run (step idsOf) (initial ∅) actions with
  | none =>
    rw [ran] at isOver
    cases isOver
  | some final =>
    rw [ran] at isOver
    refine ⟨final, ordered, rfl, ?_⟩
    apply (lists_are_current idsOf ∅ actions final ordered ran).1
    intro _ _ found
    exact List.all_eq_true.mp isOver _ (lookup_eq_some_iff_mem.mp found)

end System

end Arclain.LibraryService
