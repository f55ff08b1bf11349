import Arclain.MaterializationStore

namespace Arclain.Materialization

/-!
# Several stores under one root

Every store tries to lock the root when it is constructed.  One that gets the lock clears
the root and holds the lock until it is dropped or its process dies.
-/

open KeyedMap List Option Text ActionRun

/-- A lease directory, by the store that made it. -/
structure LeaseDir where
  sessionTag : Str
  id : LeaseId
  deriving DecidableEq

inductive Stage where
  | clearing
  | opening
  | alive
  deriving DecidableEq

/-- A store, by its stage and its next lease id. -/
structure Instance where
  stage : Stage
  nextId : LeaseId

/-- A directory that a construction has removed, and whether its store was alive. -/
structure Removal where
  constructed : Str
  dir : LeaseDir
  ownerAlive : Bool
  deriving DecidableEq

/-- The root, its lock, the stores by their tags, and the tags that have been used. -/
structure Root where
  lock : Option Str
  stores : KeyedMap Str Instance
  disk : List LeaseDir
  tags : List Str
  removals : List Removal

/-- One step of a store: of its construction, of the leases it makes and removes, and of its
end. -/
inductive RootAction where
  | construct (tag : Str)
  | clearNext (tag : Str) (dir : LeaseDir) (removed : Bool)
  | cleared (tag : Str)
  | constructed (tag : Str)
  | reserve (tag : Str)
  | remove (tag : Str) (id : LeaseId)
  | drop (tag : Str)

namespace Root

def initial (disk : List LeaseDir) : Root where
  lock := none
  stores := ∅
  disk := disk
  tags := []
  removals := []

def isAlive (root : Root) (tag : Str) : Bool :=
  (root.stores.lookup tag).any fun store => store.stage = .alive

def enter (root : Root) (tag : Str) (store : Instance) (stage : Stage) : Root :=
  { root with stores := root.stores.insert tag { store with stage := stage } }

def step (root : Root) : RootAction → Option Root
  | .construct tag =>
    if tag ∈ root.tags then none
    else
      match root.lock with
      | none =>
        some { root with
          lock := some tag
          stores := root.stores.insert tag { stage := .clearing, nextId := 1 }
          tags := tag :: root.tags }
      | some _ =>
        some { root with
          stores := root.stores.insert tag { stage := .opening, nextId := 1 }
          tags := tag :: root.tags }
  | .clearNext tag dir removed =>
    match root.stores.lookup tag with
    | some ⟨.clearing, _⟩ =>
      if dir ∈ root.disk then
        if removed then
          some { root with
            disk := root.disk.filter (· ≠ dir)
            removals :=
              { constructed := tag
                dir := dir
                ownerAlive := root.isAlive dir.sessionTag } ::
                root.removals }
        else some root
      else none
    | _ => none
  | .cleared tag =>
    match root.stores.lookup tag with
    | some ⟨.clearing, nextId⟩ => some (root.enter tag ⟨.clearing, nextId⟩ .opening)
    | _ => none
  | .constructed tag =>
    match root.stores.lookup tag with
    | some ⟨.opening, nextId⟩ => some (root.enter tag ⟨.opening, nextId⟩ .alive)
    | _ => none
  | .reserve tag =>
    match root.stores.lookup tag with
    | some ⟨.alive, nextId⟩ =>
      some { root with
        stores := root.stores.insert tag ⟨.alive, nextId + 1⟩
        disk := ⟨tag, nextId⟩ :: root.disk }
    | _ => none
  | .remove tag id =>
    if root.isAlive tag then some { root with disk := root.disk.filter (· ≠ ⟨tag, id⟩) }
    else none
  | .drop tag =>
    match root.stores.lookup tag with
    | some _ =>
      some { root with
        lock := if root.lock = some tag then none else root.lock
        stores := root.stores.erase tag }
    | none => none

end Root

/-- A construction that gets the lock finds no other store, and none starts while it is
clearing. -/
def unshared (root : Root) : RootAction → Bool
  | .construct _ =>
    match root.lock with
    | none => root.stores.keys.isEmpty
    | some holder => (root.stores.lookup holder).all fun store => store.stage ≠ .clearing
  | _ => true

/-- A store that clears the root is the only one, and nothing of a live store was cleared. -/
structure Undisturbed (root : Root) : Prop where
  alone : ∀ {tag store}, root.stores.lookup tag = some store → store.stage = .clearing →
    root.lock = some tag ∧ ∀ other, other ≠ tag → root.stores.lookup other = none
  spared : ∀ removal ∈ root.removals, removal.ownerAlive = false

namespace Undisturbed

variable {root next : Root}

theorem initially (disk : List LeaseDir) : Undisturbed (Root.initial disk) where
  alone := by
    intro _ _ found
    simp [Root.initial] at found
  spared := by
    intro _ mem
    cases mem

variable {tag : Str}

theorem of_insert (undisturbed : Undisturbed root) {earlier store : Instance}
    (found : root.stores.lookup tag = some earlier) (notClearing : store.stage ≠ .clearing)
    (stores : next.stores = root.stores.insert tag store)
    (removals : next.removals = root.removals) : Undisturbed next where
  alone := by
    intro _ _ bound clears
    rw [stores, lookup_insert_ite] at bound
    split at bound
    · cases bound
      exact absurd clears notClearing
    next different =>
      obtain ⟨-, noOther⟩ := undisturbed.alone bound clears
      rw [noOther tag (Ne.symm different)] at found
      cases found
  spared := by
    rw [removals]
    exact undisturbed.spared

theorem construct (undisturbed : Undisturbed root) (meets : unshared root (.construct tag) = true)
    (taken : root.step (.construct tag) = some next) : Undisturbed next := by
  simp only [Root.step] at taken
  split at taken
  · cases taken
  cases locked : root.lock with
  | none =>
    simp only [locked, some.injEq] at taken
    subst next
    simp only [unshared, locked] at meets
    have noStores : root.stores.keys = [] := isEmpty_iff.mp meets
    have absent (other : Str) : root.stores.lookup other = none := by
      apply notMem_keys_iff.mp
      rw [noStores]
      exact not_mem_nil
    refine ⟨?_, undisturbed.spared⟩
    intro other store found clears
    rw [lookup_insert_ite] at found
    split at found
    next same =>
      subst other
      refine ⟨rfl, ?_⟩
      intro third different
      rw [lookup_insert_ite, if_neg different]
      exact absent third
    · rw [absent] at found
      cases found
  | some =>
    simp only [locked, some.injEq] at taken
    subst next
    simp only [unshared, locked] at meets
    refine ⟨?_, undisturbed.spared⟩
    intro other store found clears
    rw [lookup_insert_ite] at found
    split at found
    · cases found
      cases clears
    · obtain ⟨holds, -⟩ := undisturbed.alone found clears
      rw [locked] at holds
      cases holds
      simp [found, clears] at meets

theorem drop (undisturbed : Undisturbed root)
    (taken : root.step (.drop tag) = some next) : Undisturbed next := by
  simp only [Root.step] at taken
  split at taken
  next bound =>
    cases taken
    refine ⟨?_, undisturbed.spared⟩
    intro _ _ found clears
    rw [lookup_erase_ite] at found
    split at found
    · cases found
    next different =>
      -- The dropped store cannot have existed beside one that clears.
      obtain ⟨-, noOther⟩ := undisturbed.alone found clears
      rw [noOther tag (Ne.symm different)] at bound
      cases bound
  · cases taken

theorem step (undisturbed : Undisturbed root) {action : RootAction}
    (meets : unshared root action = true) (taken : root.step action = some next) :
    Undisturbed next := by
  cases action with
  | construct tag => exact undisturbed.construct meets taken
  | clearNext tag dir =>
    simp only [Root.step] at taken
    split at taken
    next found =>
      simp only [ite_none_right_eq_some] at taken
      obtain ⟨-, answered⟩ := taken
      split at answered
      · cases answered
        refine ⟨undisturbed.alone, ?_⟩
        intro removal mem
        rcases mem_cons.mp mem with rfl | earlier
        · -- Only the store that clears exists, and it is not alive yet.
          obtain ⟨-, noOther⟩ := undisturbed.alone found rfl
          by_cases own : dir.sessionTag = tag
          · simp only [Root.isAlive]
            rw [own, found]
            rfl
          · simp only [Root.isAlive]
            rw [noOther dir.sessionTag own]
            rfl
        · exact undisturbed.spared removal earlier
      · cases answered
        exact undisturbed
    · cases taken
  | cleared tag | constructed tag | reserve tag =>
    simp only [Root.step] at taken
    split at taken
    next found =>
      cases taken
      exact undisturbed.of_insert found (by simp) rfl rfl
    · cases taken
  | remove tag =>
    obtain ⟨-, ⟨⟩⟩ := ite_none_right_eq_some.mp taken
    exact ⟨undisturbed.alone, undisturbed.spared⟩
  | drop tag => exact undisturbed.drop taken

end Undisturbed

/-- Where no construction finds the lock free beside another store, none removes a directory
of a store that is alive. -/
theorem construction_spares_live_leases {disk : List LeaseDir} {actions : List RootAction}
    {final : Root}
    (met : ActionRun.Guarded Root.step (fun root action => unshared root action = true)
      (Root.initial disk) actions)
    (ran : run Root.step (Root.initial disk) actions = some final) :
    ∀ removal ∈ final.removals, removal.ownerAlive = false :=
  (run_preserves_of_guarded Undisturbed
    (fun undisturbed => undisturbed.step)
    (Undisturbed.initially disk) met ran).spared

theorem live_lease_removable {root : Root} {tag : Str} {dir : LeaseDir} (free : root.lock = none)
    (unused : tag ∉ root.tags) (alive : root.isAlive dir.sessionTag = true)
    (other : dir.sessionTag ≠ tag) (onDisk : dir ∈ root.disk) :
    ∃ final, run Root.step root [.construct tag, .clearNext tag dir true] = some final ∧
      dir ∉ final.disk ∧
      ({ constructed := tag, dir := dir, ownerAlive := true } : Removal) ∈ final.removals := by
  have stillAlive : Root.isAlive
      { root with
        lock := some tag
        stores := root.stores.insert tag { stage := .clearing, nextId := 1 }
        tags := tag :: root.tags } dir.sessionTag = true := by
    simp only [Root.isAlive] at alive ⊢
    rw [lookup_insert_ite, if_neg other]
    exact alive
  refine ⟨{ root with
    lock := some tag
    stores := root.stores.insert tag { stage := .clearing, nextId := 1 }
    disk := root.disk.filter (· ≠ dir)
    tags := tag :: root.tags
    removals :=
      { constructed := tag, dir := dir, ownerAlive := true } ::
        root.removals }, ?_, ?_, mem_cons_self⟩
  · simp [run, Root.step, unused, free, onDisk, stillAlive]
  · intro mem
    simpa using (mem_filter.mp mem).2

/-- A store that gets the lock and has a lease, a second one beside it, and a third one that
clears what they left. -/
def successiveStores : List RootAction :=
  [.construct ['a'], .cleared ['a'], .constructed ['a'], .reserve ['a'],
    .construct ['b'], .constructed ['b'], .reserve ['b'], .drop ['a'], .drop ['b'],
    .construct ['c'], .clearNext ['c'] ⟨['a'], 1⟩ true,
    .clearNext ['c'] ⟨['b'], 1⟩ true, .cleared ['c'], .constructed ['c']]

/-- The third store has cleared two directories, of stores that were gone. -/
theorem construction_spares_live_leases_in_turn : ∃ final,
    run Root.step (Root.initial []) successiveStores = some final ∧
      final.removals.length = 2 ∧ ∀ removal ∈ final.removals, removal.ownerAlive = false := by
  have evaluated : (run Root.step (Root.initial []) successiveStores).map
      (fun final => final.removals.length) = some 2 := by
    decide +kernel
  obtain ⟨final, ran, cleared⟩ := map_eq_some_iff.mp evaluated
  exact ⟨final, ran, cleared, construction_spares_live_leases (by decide +kernel) ran⟩

/-- The second store outlives the first, which held the lock, and a third is constructed. -/
def overlappingStores : List RootAction :=
  [.construct ['a'], .cleared ['a'], .constructed ['a'],
    .construct ['b'], .constructed ['b'], .reserve ['b'], .drop ['a'],
    .construct ['c'], .clearNext ['c'] ⟨['b'], 1⟩ true]

/-- The lease directory of the second store is removed while it is alive. -/
theorem live_lease_cleared : ∃ final,
    run Root.step (Root.initial []) overlappingStores = some final ∧
      final.isAlive ['b'] = true ∧ final.disk = [] ∧
      final.removals = [{ constructed := ['c'], dir := ⟨['b'], 1⟩, ownerAlive := true }] := by
  have evaluated : (run Root.step (Root.initial []) overlappingStores).map
      (fun final => (final.isAlive ['b'], final.disk, final.removals)) = some (true, [],
        [{ constructed := ['c'], dir := ⟨['b'], 1⟩,
           ownerAlive := true }]) := by
    decide +kernel
  obtain ⟨final, ran, seen⟩ := map_eq_some_iff.mp evaluated
  simp only [Prod.mk.injEq] at seen
  exact ⟨final, ran, seen⟩

end Arclain.Materialization
