import Arclain.PasswordPrompts

namespace Arclain.Prompts

/-!
# Every queued challenge is asked

A handler in flight may still have to drain the queue of its operation, or to write the
dialog as the queue asks.
-/

open List Option ActionRun CallsInFlight

namespace Call

def Drains (operation : OperationId) : Call → Prop
  | .forgetting other drains => drains = true ∧ other = operation
  | .draining other _ => other = operation
  | _ => False

/-- A handler that is still to write the dialog as the queue asks for it, if no other one
changes what it asks for. -/
def Presents (asks : Bool) : Call → Prop
  | .forgetting _ drains => drains = true
  | .draining .. => True
  | .queueing .. => asks = false
  | .asking _ => asks = true
  | .presenting next _ => next.isSome = asks
  | .writing dialog _ | .rendering dialog | .comparing dialog => dialog.shown = asks
  | _ => False

instance (operation : OperationId) : (call : Call) → Decidable (call.Drains operation)
  | .forgetting .. => inferInstanceAs (Decidable (_ ∧ _))
  | .draining .. => inferInstanceAs (Decidable (_ = _))
  | .querying _ | .losing _ | .abandoning _ | .resolving _ | .queueing .. | .asking _
  | .presenting .. | .writing .. | .rendering _ | .rereading | .comparing _ => isFalse id

instance (asks : Bool) : (call : Call) → Decidable (call.Presents asks)
  | .draining .. => isTrue trivial
  | .forgetting .. | .queueing .. | .asking _ | .presenting .. | .writing ..
  | .rendering _ | .comparing _ => inferInstanceAs (Decidable (_ = _))
  | .querying _ | .losing _ | .abandoning _ | .resolving _ | .rereading => isFalse id

/-- A challenge is queued only before the terminal event is handled, no handler skips what
is to be drained, and the dialog is as the queue asks. -/
def Harmless (tab : Tab) (drained : OperationId → Prop) (presented : Bool → Prop) : Call → Prop
  | .queueing operation _ _ => operation ∈ tab.handled → drained operation
  | .forgetting operation drains =>
    drains = false → ∀ pending ∈ tab.queue, pending.operationId = operation → drained operation
  | .writing dialog _ => dialog.shown = tab.asks ∨ presented tab.asks
  | _ => True

instance (tab : Tab) (drained : OperationId → Prop) (presented : Bool → Prop)
    [DecidablePred drained] [DecidablePred presented] :
    (call : Call) → Decidable (call.Harmless tab drained presented)
  | .queueing .. => inferInstanceAs (Decidable (_ → _))
  | .forgetting .. => inferInstanceAs (Decidable (_ = _ → ∀ pending ∈ _, _))
  | .writing .. => inferInstanceAs (Decidable (_ ∨ _))
  | .querying _ | .losing _ | .abandoning _ | .resolving _ | .asking _ | .draining ..
  | .presenting .. | .rendering _ | .rereading | .comparing _ => isTrue trivial

end Call

/-- Entries of ended operations are still drained, and a dialog not as the queue asks is
still written. -/
structure Tab.Owed (tab : Tab) (drained : OperationId → Prop) (presented : Bool → Prop) : Prop where
  drained : ∀ pending ∈ tab.queue, pending.operationId ∈ tab.handled → drained pending.operationId
  presented : tab.dialog.shown = tab.asks ∨ presented tab.asks

section

variable {tab next : Tab} {call : Call} {rest : Option Call}
  {snapshots : KeyedMap OperationId OperationEvent}
  {drained others : OperationId → Prop}
  {presented presenters : Bool → Prop}

/-- What is owed besides the calls that are left. -/
abbrev Tab.OwedBeside (tab : Tab) (rest : Option Call) (others : OperationId → Prop)
    (presenters : Bool → Prop) : Prop :=
  tab.Owed (fun operation => (∃ left ∈ rest, left.Drains operation) ∨ others operation)
    (fun asks => (∃ left ∈ rest, left.Presents asks) ∨ presenters asks)

theorem Tab.Owed.keep (owed : tab.Owed drained presented) (sameQueue : next.queue = tab.queue)
    (sameHandled : next.handled = tab.handled) (sameDialog : next.dialog = tab.dialog)
    (drains : ∀ operation, drained operation → others operation)
    (presents : ∀ asks, presented asks → presenters asks) : next.Owed others presenters := by
  have sameAsks : next.asks = tab.asks := by rw [Tab.asks, Tab.asks, sameQueue]
  constructor
  · intro pending mem ended
    rw [sameQueue] at mem
    rw [sameHandled] at ended
    exact drains _ (owed.drained pending mem ended)
  · rw [sameAsks, sameDialog]
    exact owed.presented.imp id (presents _)

theorem asks_append {queue : List PendingChallenge} {pending : PendingChallenge}
    (appended : next.queue = queue ++ [pending]) : next.asks = true := by
  rw [Tab.asks, appended]
  simp

theorem isSome_head? (queue : List PendingChallenge) : queue.head?.isSome = !queue.isEmpty := by
  cases queue with
  | nil | cons => rfl

section

variable (owed : tab.Owed (fun operation => call.Drains operation ∨ others operation)
  (fun asks => call.Presents asks ∨ presenters asks))
include owed

theorem Tab.Owed.idle (drainsNone : ∀ operation, ¬ call.Drains operation)
    (presentsNone : ∀ asks, ¬ call.Presents asks) (sameQueue : next.queue = tab.queue)
    (sameHandled : next.handled = tab.handled) (sameDialog : next.dialog = tab.dialog) :
    next.OwedBeside rest others presenters :=
  owed.keep sameQueue sameHandled sameDialog
    (fun operation covered => .inr (covered.resolve_left (drainsNone operation)))
    (fun asks covered => .inr (covered.resolve_left (presentsNone asks)))

theorem Call.owed_advance (harmless : call.Harmless tab others presenters)
    (advanced : call.advance snapshots tab = some (next, rest)) :
    next.OwedBeside rest others presenters := by
  cases call with
  | querying operation | losing operation =>
    unfold advance at advanced
    simp only at advanced
    have same : next = tab := by
      split at advanced
      · exact (Prod.mk.inj (some.inj advanced)).1.symm
      · exact (Prod.mk.inj (some.inj advanced)).1.symm
    subst next
    exact owed.idle (fun _ => id) (fun _ => id) rfl rfl rfl
  | abandoning operation | rereading =>
    cases advanced
    exact owed.idle (fun _ => id) (fun _ => id) rfl rfl rfl
  | resolving =>
    unfold advance at advanced
    simp only at advanced
    have same : next = tab := by
      split at advanced
      · exact (Prod.mk.inj (some.inj advanced)).1.symm
      · split at advanced
        · exact (Prod.mk.inj (some.inj advanced)).1.symm
        · exact (Prod.mk.inj (some.inj advanced)).1.symm
    subst next
    exact owed.idle (fun _ => id) (fun _ => id) rfl rfl rfl
  | queueing operation _ attempt =>
    cases advanced
    constructor
    · intro pending mem ended
      rcases mem_append.mp mem with old | new
      · exact .inr ((owed.drained pending old ended).resolve_left id)
      · obtain rfl := mem_singleton.mp new
        exact .inr (harmless ended)
    · rw [asks_append rfl]
      cases asked : tab.asks with
      | false => exact .inr (.inl ⟨_, rfl, rfl⟩)
      | true =>
        -- The dialog is left to the challenge that is at the front.
        rcases owed.presented with right | covers | others
        · exact .inl (right.trans asked)
        · rw [asked] at covers
          cases covers
        · rw [asked] at others
          exact .inr (.inr others)
  | asking attempt =>
    cases advanced
    refine owed.keep rfl rfl rfl (fun _ covered => .inr (covered.resolve_left id)) ?_
    intro asks covered
    rcases covered with covers | others
    · exact .inl ⟨_, rfl, covers.symm⟩
    · exact .inr others
  | forgetting operation drains =>
    cases drains with
    | true =>
      cases advanced
      refine owed.keep rfl rfl rfl ?_ (fun _ _ => .inl ⟨_, rfl, trivial⟩)
      intro ended covered
      rcases covered with covers | others
      · exact .inl ⟨_, rfl, covers.2⟩
      · exact .inr others
    | false =>
      cases advanced
      constructor
      · intro pending mem ended
        rcases mem_cons.mp ended with same | before
        · exact .inr (same ▸ harmless rfl pending mem same)
        · refine .inr ((owed.drained pending mem before).resolve_left ?_)
          rintro ⟨drains, _⟩
          cases drains
      · rcases owed.presented with right | covers | others
        · exact .inl right
        · cases covers
        · exact .inr (.inr others)
  | draining operation after =>
    cases advanced
    constructor
    · intro pending mem ended
      obtain ⟨mem, differs⟩ := mem_filter.mp mem
      have differs := of_decide_eq_true differs
      have before : pending.operationId ∈ tab.handled := by
        simp only at ended
        split at ended
        · exact ended
        · exact (mem_cons.mp ended).resolve_left differs
      refine .inr ((owed.drained pending mem before).resolve_left ?_)
      exact fun same => differs same.symm
    · exact .inr (.inl ⟨_, rfl, isSome_head? _⟩)
  | presenting following after =>
    cases advanced
    refine owed.keep rfl rfl rfl (fun _ covered => .inr (covered.resolve_left id)) ?_
    intro asks covered
    rcases covered with covers | others
    · exact .inl ⟨_, rfl, (tab.dialog.shown_present following).trans covers⟩
    · exact .inr others
  | writing dialog after =>
    cases advanced
    constructor
    · intro pending mem ended
      exact .inr ((owed.drained pending mem ended).resolve_left id)
    · exact harmless.imp id .inr
  | rendering dialog => cases advanced
  | comparing dialog =>
    unfold advance at advanced
    simp only at advanced
    split at advanced
    next same =>
      cases advanced
      constructor
      · intro pending mem ended
        exact .inr ((owed.drained pending mem ended).resolve_left id)
      · rcases owed.presented with right | covers | others
        · exact .inl right
        · exact .inl (same ▸ covers)
        · exact .inr (.inr others)
    · cases advanced
      refine owed.keep rfl rfl rfl (fun _ covered => .inr (covered.resolve_left id)) ?_
      intro asks covered
      exact covered.imp (fun covers => ⟨_, rfl, covers⟩) id

theorem Call.owed_render {input : UserInput}
    (rendered : call.render tab input = some (next, rest)) :
    next.OwedBeside rest others presenters := by
  cases call with
  | rendering dialog =>
    have left (operation : OperationId)
        (covered : Call.Drains operation (.rendering dialog) ∨ others operation) :
        (∃ left ∈ rest, left.Drains operation) ∨ others operation :=
      .inr (covered.resolve_left id)
    unfold render at rendered
    simp only at rendered
    split at rendered
    next shown =>
      split at rendered
      · cases rendered
        refine owed.keep rfl rfl rfl left fun asks covered => ?_
        exact covered.imp (fun covers => ⟨_, rfl, covers⟩) id
      · split at rendered
        · -- The front is drained, and then the next one is presented.
          cases rendered
          exact owed.keep rfl rfl rfl left fun _ _ => .inl ⟨_, rfl, trivial⟩
        next empty =>
          cases rendered
          constructor
          · intro pending mem ended
            exact left _ (owed.drained pending mem ended)
          · refine .inr (.inl ⟨_, rfl, ?_⟩)
            have asksNot := isSome_head? tab.queue
            rw [empty] at asksNot
            exact asksNot
    · cases rendered
      refine owed.keep rfl rfl rfl left fun asks covered => ?_
      exact covered.imp (fun covers => ⟨_, rfl, covers⟩) id
  | _ => cases rendered

end

theorem not_presents_afterwards {after : After} {left : Call}
    (isLeft : left ∈ Call.afterwards after) (asks : Bool) : ¬ left.Presents asks := by
  cases after with
  | ends => cases isLeft
  | forgets | rereads =>
    cases isLeft
    exact id

theorem Call.harmless_of_owed (advanced : call.advance snapshots tab = some (next, rest))
    (owed : next.OwedBeside rest others presenters) : call.Harmless tab others presenters := by
  cases call with
  | queueing operation challenge =>
    cases advanced
    intro ended
    have mem :
        { operationId := operation, challenge := challenge } ∈
          tab.queue ++ [{ operationId := operation, challenge := challenge }] :=
      mem_append_right _ mem_cons_self
    rcases owed.drained _ mem ended with ⟨left, isLeft, drains⟩ | others
    · split at isLeft
      · cases isLeft
      · cases isLeft
        exact drains.elim
    · exact others
  | forgetting operation drains =>
    intro isFalse pending mem same
    subst isFalse
    cases advanced
    have ended : pending.operationId ∈ operation :: tab.handled := same ▸ mem_cons_self
    rcases owed.drained pending mem ended with ⟨left, isLeft, _⟩ | others
    · cases isLeft
    · exact same ▸ others
  | writing =>
    cases advanced
    rcases owed.presented with right | ⟨left, isLeft, presents⟩ | others
    · exact .inl right
    · exact absurd presents (not_presents_afterwards isLeft _)
    · exact .inr others
  | _ => trivial

end

namespace System

/-- A step takes nothing away from the tab's prompts. -/
def Harmless (system : System) : Action → Prop
  | .advance handler =>
    ∀ call ∈ system.calls.lookup handler, call.Harmless system.tab (fun operation =>
      CallsInFlight.Others system.calls handler (Call.Drains operation))
        (fun asks => CallsInFlight.Others system.calls handler (Call.Presents asks))
  | _ => True

instance (system : System) : (action : Action) → Decidable (system.Harmless action)
  | .advance _ => inferInstanceAs (Decidable (∀ call ∈ _, Call.Harmless _ _ _ call))
  | .publish _ | .evict _ | .lag _ | .receive | .reconcile _ | .register .. | .frame
  | .render _ => isTrue trivial

/-- The tab's prompts are as they should be, or a handler in flight is still to do it. -/
def Owed (system : System) : Prop :=
  system.tab.Owed (fun operation => CallsInFlight.Some system.calls (Call.Drains operation))
    (fun asks => CallsInFlight.Some system.calls (Call.Presents asks))

section

variable {system next : System} {handler : Handler}

theorem Owed.enter {tab : Tab} {call : Call} (owed : system.Owed)
    (entered : system.enter handler tab call = some next) (sameQueue : tab.queue = system.tab.queue)
    (sameHandled : tab.handled = system.tab.handled) (sameDialog : tab.dialog = system.tab.dialog) :
    next.Owed := by
  unfold System.enter at entered
  split at entered
  · cases entered
  next free =>
    cases entered
    exact Tab.Owed.keep owed sameQueue sameHandled sameDialog
      (fun _ => some_insert free)
      (fun _ => some_insert free)

theorem Owed.proceed {step : Call → Option (Tab × Option Call)} (owed : system.Owed)
    (proceeded : system.proceed handler step = some next)
    (kept : ∀ {call tab rest}, system.calls.lookup handler = some call →
      step call = some (tab, rest) →
      system.tab.Owed (fun operation => call.Drains operation ∨
        CallsInFlight.Others system.calls handler (Call.Drains operation))
        (fun asks => call.Presents asks ∨
          CallsInFlight.Others system.calls handler (Call.Presents asks)) →
      tab.Owed (fun operation => (∃ left ∈ rest, left.Drains operation) ∨
        CallsInFlight.Others system.calls handler (Call.Drains operation))
        (fun asks => (∃ left ∈ rest, left.Presents asks) ∨
          CallsInFlight.Others system.calls handler (Call.Presents asks))) :
    next.Owed := by
  unfold System.proceed at proceeded
  split at proceeded
  · cases proceeded
  next call bound =>
    obtain ⟨⟨tab, rest⟩, stepped, rfl⟩ := map_eq_some_iff.mp proceeded
    have before := Tab.Owed.keep owed rfl rfl rfl
      (fun _ => (some_iff bound).mp)
      (fun _ => (some_iff bound).mp)
    exact (kept bound stepped before).keep rfl rfl rfl
      (fun _ => some_proceed_iff.mpr)
      (fun _ => some_proceed_iff.mpr)

variable {action : Action}

theorem Owed.step (owed : system.Owed) (harmless : system.Harmless action)
    (taken : system.step action = some next) : next.Owed := by
  cases action with
  | publish event | evict operation =>
    unfold System.step at taken
    simp only at taken
    split at taken
    · cases taken
      exact owed
    · cases taken
  | lag =>
    cases taken
    exact owed
  | receive =>
    unfold System.step at taken
    simp only at taken
    split at taken
    · cases taken
    next event later _ =>
      have received : ({ system with channel := later } : System).Owed := owed
      exact received.enter taken rfl rfl rfl
  | reconcile operation | register _ operation | frame => exact owed.enter taken rfl rfl rfl
  | render => exact owed.proceed taken fun _ stepped before => Call.owed_render before stepped
  | advance =>
    exact owed.proceed taken fun bound stepped before =>
      Call.owed_advance before (harmless _ bound) stepped

theorem owed_start : start.Owed where
  drained := by
    intro _ mem
    cases mem
  presented := .inl rfl

theorem harmless_of_owed (taken : system.step action = some next)
    (owed : next.Owed) : system.Harmless action := by
  cases action with
  | advance handler =>
    intro _ bound
    have proceeded : system.proceed handler
        (Call.advance system.snapshots system.tab) = some next := taken
    unfold System.proceed at proceeded
    rw [bound] at proceeded
    obtain ⟨⟨_, _⟩, advanced, rfl⟩ := map_eq_some_iff.mp proceeded
    exact Call.harmless_of_owed advanced (Tab.Owed.keep owed rfl rfl rfl
      (fun _ => some_proceed_iff.mp)
      (fun _ => some_proceed_iff.mp))
  | _ => trivial

end

/-- The steps of a run are harmless exactly if no state of it has lost a prompt. -/
theorem prompts_owed_iff {actions : List Action} {final : System}
    (ran : run step start actions = some final) :
    (∀ earlier reached, earlier <+: actions →
      run step start earlier = some reached → reached.Owed) ↔
      ActionRun.Guarded step Harmless start actions :=
  (guarded_iff_kept Owed (fun owed => owed.step) (fun _ => harmless_of_owed)
    owed_start ran).symm

/-- Without a running handler, the queue holds no ended operation, and the dialog is shown
exactly when it is not empty. -/
theorem prompts_of_quiet {actions : List Action} {final : System}
    (harmless : ActionRun.Guarded step Harmless start actions)
    (ran : run step start actions = some final) (quiet : final.Quiet) :
    (∀ pending ∈ final.tab.queue, pending.operationId ∉ final.tab.handled) ∧
      (final.tab.dialog.shown = true ↔ final.tab.queue ≠ []) := by
  have owed : final.Owed :=
    run_preserves_of_guarded Owed (fun owed => owed.step)
      owed_start harmless ran
  constructor
  · intro pending mem ended
    exact not_some_of_keys quiet (owed.drained pending mem ended)
  · have right : final.tab.dialog.shown = final.tab.asks :=
      owed.presented.resolve_right (not_some_of_keys quiet)
    rw [right, Tab.asks]
    simp

/-- An operation that opens a file of an archive asks for its password. -/
def askedForFile : List Action :=
  [.publish ⟨1, 1, .materialize, .accepted⟩, .register 0 1, .advance (.task 0), .advance (.task 0),
    .receive, .advance .bridge, .publish ⟨1, 2, .materialize, .challenge (.password 5 "a.zip" 1)⟩,
    .receive, .advance .bridge, .advance .bridge, .advance .bridge, .advance .bridge]

/-- The user unlocks the archive, and the operation completes. -/
def unlockedFile : List Action :=
  askedForFile ++ [.frame, .render ⟨['x'], false, some .unlock⟩, .advance .renderThread,
    .advance .renderThread, .advance .renderThread, .advance .renderThread,
    .advance .renderThread, .publish ⟨1, 3, .materialize, .completed (.materialized 9)⟩,
    .receive, .advance .bridge, .advance .bridge]

def cancelledFile : List Action :=
  askedForFile ++ [.publish ⟨1, 3, .materialize, .cancelled⟩,
    .receive, .advance .bridge, .advance .bridge]

/-- An archive that is unlocked leaves nothing to ask for. -/
theorem prompts_of_unlocked_file : ∃ final, run step start unlockedFile = some final ∧
    (∀ pending ∈ final.tab.queue, pending.operationId ∉ final.tab.handled) ∧
      (final.tab.dialog.shown = true ↔ final.tab.queue ≠ []) := by
  obtain ⟨final, ran, quiet⟩ :
      ∃ final, run step start unlockedFile = some final ∧ final.Quiet :=
    ⟨_, rfl, by decide⟩
  exact ⟨final, ran, prompts_of_quiet (by decide) ran quiet⟩

/-- While the archive is unlocked no prompt is lost. -/
theorem prompts_owed_of_unlocked_file : ∃ final,
    run step start unlockedFile = some final ∧
      ∀ earlier reached, earlier <+: unlockedFile →
        run step start earlier = some reached → reached.Owed :=
  ⟨_, rfl, (prompts_owed_iff rfl).mpr (by decide)⟩

/-- A file that is no longer opened is still asked a password for. -/
theorem cancelled_file_asked : ¬ ∀ (actions : List Action) (final : System),
    run step start actions = some final → final.Quiet →
      (∀ pending ∈ final.tab.queue, pending.operationId ∉ final.tab.handled) ∧
        (final.tab.dialog.shown = true ↔ final.tab.queue ≠ []) := by
  intro claimed
  have none := (claimed cancelledFile _ rfl (by decide)).1
  exact absurd none (by decide)

end System

end Arclain.Prompts
