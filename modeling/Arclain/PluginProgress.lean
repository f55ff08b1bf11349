import Arclain.PluginLocks

namespace Arclain.Plugins

/-!
# When the calls of the plugin manager can go on

An execution that has exceeded a limit waits for the transition mutex with its permit in its
hands, and `disable_plugin` waits for the permits with that mutex in its own.
-/

open List Locking ManagerCall Option ActionRun ExecutionPhase Protocol SharedState

namespace ManagerCall

/-- An execution that ended in a resource limit, before it has the transition mutex. -/
def awaitsTransition (plugin : PluginIdentityKey) : ManagerCall → Bool
  | .execution other _ .limited => other = plugin
  | _ => false

/-- A `disable_plugin` of the plugin that has the transition mutex. -/
def disables (plugin : PluginIdentityKey) : ManagerCall → Bool
  | .disable other phase => other = plugin && phase ≠ .starting
  | _ => false

/-- A `get_all_settings` that has found the plugin dirty, before it has its
instance. -/
def awaitsInstance (plugin : PluginIdentityKey) : ManagerCall → Bool
  | .allSettings (.waitingInstance other _) => other = plugin
  | _ => false

/-- A `get_settings_for` of the plugin that has its instance, before it has the
settings cache. -/
def keepsInstance (plugin : PluginIdentityKey) : ManagerCall → Bool
  | .settingsFor other .waitingCache => other = plugin
  | _ => false

/-- The step leads to neither encounter: an execution at its limit with a disable, or two
readers of the settings. -/
def stepAllowed (others : List ManagerCall) : ManagerCall → ManagerCall → Bool
  | .execution plugin _ .running, .execution _ _ .limited =>
    others.all fun other => !other.disables plugin
  | .disable plugin .starting, .disable _ .lookingUp =>
    others.all fun other => !other.awaitsTransition plugin
  | .allSettings (.scanning (plugin :: _)), .allSettings (.waitingInstance _ _) =>
    others.all fun other => !other.keepsInstance plugin
  | .settingsFor plugin .waitingInstance, .settingsFor _ .waitingCache =>
    others.all fun other => !other.awaitsInstance plugin
  | _, _ => true

end ManagerCall

/-- Calls may be made at any time; their steps are the allowed ones. -/
def EventAllowed (loaded : List PluginIdentityKey)
    (system : System ManagerCall SharedState) : Event ManagerCall → Prop
  | .begins _ => True
  | .advances index choice =>
    ∀ call ∈ system.calls[index]?, ∀ step ∈
      ((managerProtocol loaded).successors (system.calls.eraseIdx index)
        system.shared call)[choice]?,
      stepAllowed (system.calls.eraseIdx index) call step.2 = true

instance (loaded : List PluginIdentityKey) (system : System ManagerCall SharedState)
    (event : Event ManagerCall) : Decidable (EventAllowed loaded system event) :=
  match event with
  | .begins _ => isTrue trivial
  | .advances _ _ => inferInstanceAs (Decidable (∀ call ∈ _, ∀ step ∈ _, _))

section

variable (shared : SharedState) (plugin other : PluginIdentityKey)

@[simp]
theorem inFlight_takePermit : ((shared.takePermit plugin).admission other).inFlight =
    (shared.admission other).inFlight + if plugin = other then 1 else 0 := by
  by_cases same : plugin = other
  · subst same
    simp [takePermit]
  · simp [takePermit, same, Ne.symm same]

@[simp]
theorem inFlight_release : ((shared.release plugin).admission other).inFlight =
    (shared.admission other).inFlight - if plugin = other then 1 else 0 := by
  by_cases same : plugin = other
  · subst same
    simp [release]
  · simp [release, same, Ne.symm same]

@[simp]
theorem inFlight_setAdmission (enabled : Bool) :
    ((shared.setAdmission plugin enabled).admission other).inFlight =
      (shared.admission other).inFlight := by
  by_cases same : plugin = other
  · subst same
    simp [setAdmission]
  · simp [setAdmission, Ne.symm same]

end

namespace ManagerCall

variable {loaded : List PluginIdentityKey} {shared after : SharedState} {call later : ManagerCall}

@[simp]
theorem count_permits_execution (plugin other : PluginIdentityKey) (nested : Bool)
    (phase : ExecutionPhase) : (execution other nested phase).permits.count plugin =
      (if nested ∧ other = plugin then 1 else 0) +
        if phase.isAdmitted ∧ other = plugin then 1 else 0 := by
  cases nested with
  | true =>
    cases admitted : phase.isAdmitted with
    | true | false => simp [permits, admitted, count_cons]
  | false =>
    cases admitted : phase.isAdmitted with
    | true => simp [permits, admitted, count_cons]
    | false => simp [permits, admitted]

@[simp]
theorem count_permits_effect (plugin other : PluginIdentityKey) (phase : EffectPhase) :
    (effect other phase).permits.count plugin =
      if phase.isAdmitted ∧ other = plugin then 1 else 0 := by
  cases admitted : phase.isAdmitted with
  | true => simp [permits, admitted, count_cons]
  | false => simp [permits, admitted]

@[simp]
theorem count_permits_afterExecution (plugin other : PluginIdentityKey) (nested : Bool) :
    (afterExecution other nested).permits.count plugin =
      if nested ∧ other = plugin then 1 else 0 := by
  cases nested with
  | true => simp [afterExecution, EffectPhase.isAdmitted]
  | false => rfl

/-- Where a step leads, by the kind of the call, with the only ways to the places
that matter. -/
inductive LeadsTo : ManagerCall → ManagerCall → Prop where
  | returns {call : ManagerCall} : LeadsTo call .returned
  | nests {call : ManagerCall} {plugin : PluginIdentityKey} :
      LeadsTo call (.execution plugin true .starting)
  | effect {call : ManagerCall} {plugin : PluginIdentityKey} {next : EffectPhase} :
      LeadsTo call (.effect plugin next)
  | execution {plugin : PluginIdentityKey} {nested : Bool} {phase next : ExecutionPhase}
      (limited : next = .limited → phase = .running) :
      LeadsTo (.execution plugin nested phase) (.execution plugin nested next)
  | enable {plugin : PluginIdentityKey} {phase next : EnablePhase} :
      LeadsTo (.enable plugin phase) (.enable plugin next)
  | disable {plugin : PluginIdentityKey} {phase next : DisablePhase}
      (first : phase = .starting → next = .lookingUp) :
      LeadsTo (.disable plugin phase) (.disable plugin next)
  | allSettings {phase next : AllSettingsPhase} (dirty : ∀ {plugin remaining},
      next = .waitingInstance plugin remaining → phase = .scanning (plugin :: remaining)) :
      LeadsTo (.allSettings phase) (.allSettings next)
  | settingsFor {plugin : PluginIdentityKey} {phase next : SettingsForPhase}
      (taken : next = .waitingCache → phase = .waitingInstance) :
      LeadsTo (.settingsFor plugin phase) (.settingsFor plugin next)

theorem leadsTo_afterExecution (call : ManagerCall) (plugin : PluginIdentityKey) (nested : Bool) :
    LeadsTo call (afterExecution plugin nested) := by
  cases nested with
  | true => exact .effect
  | false => exact .returns

/-- What a step does: the permits that it takes or gives back are counted, and it
leads where its kind of call goes. -/
structure Accounts (shared after : SharedState) (call later : ManagerCall) : Prop where
  counts : ∀ plugin, call.permits.count plugin ≤ (shared.admission plugin).inFlight →
    (after.admission plugin).inFlight + call.permits.count plugin =
      (shared.admission plugin).inFlight + later.permits.count plugin
  leadsTo : LeadsTo call later

theorem Accounts.unchanged (inFlight : ∀ plugin,
    (after.admission plugin).inFlight = (shared.admission plugin).inFlight)
    (permits : later.permits = call.permits) (leadsTo : LeadsTo call later) :
    Accounts shared after call later := by
  refine ⟨fun plugin _ => ?_, leadsTo⟩
  rw [inFlight, permits]

theorem Accounts.only {kept : SharedState} {next : ManagerCall}
    (step : (after, later) ∈ [(kept, next)]) (inFlight : ∀ plugin,
      (kept.admission plugin).inFlight = (shared.admission plugin).inFlight)
    (permits : next.permits = call.permits) (leadsTo : LeadsTo call next) :
    Accounts shared after call later := by
  obtain ⟨rfl, rfl⟩ := Prod.mk.inj (mem_singleton.mp step)
  exact .unchanged inFlight permits leadsTo

variable {plugin : PluginIdentityKey}

theorem executionMoves_accounts {nested : Bool} {phase : ExecutionPhase}
    (step : (after, later) ∈ executionMoves loaded shared plugin nested phase) :
    Accounts shared after (.execution plugin nested phase) later := by
  cases phase with
  | starting =>
    simp only [executionMoves, mem_append, mem_ite_nil_right, mem_singleton, Prod.mk.injEq] at step
    rcases step with ⟨_, rfl, rfl⟩ | ⟨rfl, rfl⟩
    · exact .unchanged (fun _ => rfl) rfl (.execution (by simp))
    · refine ⟨fun other _ => ?_, leadsTo_afterExecution _ plugin nested⟩
      simp [isAdmitted]
  | admitting =>
    simp only [executionMoves] at step
    split at step
    · obtain ⟨rfl, rfl⟩ := Prod.mk.inj (mem_singleton.mp step)
      refine ⟨fun other _ => ?_, .execution (by simp)⟩
      simp only [inFlight_takePermit, count_permits_execution,
        isAdmitted, Bool.false_eq_true, false_and, true_and, ↓reduceIte]
      omega
    · obtain ⟨rfl, rfl⟩ := Prod.mk.inj (mem_singleton.mp step)
      refine ⟨fun other _ => ?_, leadsTo_afterExecution _ plugin nested⟩
      simp [isAdmitted]
  | running =>
    simp only [executionMoves, mem_cons, Prod.mk.injEq, not_mem_nil, or_false] at step
    rcases step with ⟨rfl, rfl⟩ | ⟨rfl, rfl⟩ | ⟨rfl, rfl⟩
    · exact .unchanged (fun _ => rfl) rfl (.execution (by simp))
    · exact .unchanged (fun _ => rfl) rfl (.execution (by simp))
    · exact .unchanged (fun _ => rfl) rfl (.execution fun _ => rfl)
  | returning | releasing =>
    obtain ⟨rfl, rfl⟩ := Prod.mk.inj (mem_singleton.mp step)
    refine ⟨fun other counted => ?_, leadsTo_afterExecution _ plugin nested⟩
    simp only [inFlight_release, count_permits_execution, isAdmitted,
      count_permits_afterExecution, true_and] at counted ⊢
    omega
  | disabling =>
    exact .only step (fun other => inFlight_setAdmission shared plugin other false) rfl
      (.execution (by simp))
  | recording =>
    simp only [executionMoves, mem_cons, Prod.mk.injEq, not_mem_nil, or_false] at step
    rcases step with ⟨rfl, rfl⟩ | ⟨rfl, rfl⟩
    · exact .unchanged (fun _ => rfl) rfl (.execution (by simp))
    · exact .unchanged (fun _ => rfl) rfl (.execution (by simp))
  | _ => exact .only step (fun _ => rfl) rfl (.execution (by simp))

theorem effectMoves_accounts {phase : EffectPhase}
    (step : (after, later) ∈ effectMoves loaded shared plugin phase) :
    Accounts shared after (.effect plugin phase) later := by
  cases phase with
  | starting =>
    simp only [effectMoves, mem_append, mem_ite_nil_right, mem_singleton, Prod.mk.injEq] at step
    rcases step with ⟨_, rfl, rfl⟩ | ⟨rfl, rfl⟩
    · exact .unchanged (fun _ => rfl) rfl .effect
    · exact .unchanged (fun _ => rfl) rfl .returns
  | admitting =>
    simp only [effectMoves] at step
    split at step
    · obtain ⟨rfl, rfl⟩ := Prod.mk.inj (mem_singleton.mp step)
      refine ⟨fun other _ => ?_, .effect⟩
      simp [EffectPhase.isAdmitted]
    · exact .only step (fun _ => rfl) rfl .returns
  | working =>
    simp only [effectMoves, mem_cons, Prod.mk.injEq, not_mem_nil, or_false] at step
    rcases step with ⟨rfl, rfl⟩ | ⟨rfl, rfl⟩ | ⟨rfl, rfl⟩
    · exact .unchanged (fun _ => rfl) rfl .effect
    · exact .unchanged (fun _ => rfl) rfl .nests
    · refine ⟨fun other counted => ?_, .returns⟩
      have none : returned.permits = [] := rfl
      simp only [inFlight_release, count_permits_effect, EffectPhase.isAdmitted,
        true_and, none, count_nil] at counted ⊢
      omega
  | _ => exact .only step (fun _ => rfl) rfl .effect

theorem enableMoves_accounts {phase : EnablePhase}
    (step : (after, later) ∈ enableMoves loaded shared plugin phase) :
    Accounts shared after (.enable plugin phase) later := by
  cases phase with
  | lookingUp =>
    simp only [enableMoves] at step
    split at step
    · exact .only step (fun _ => rfl) rfl .enable
    · exact .only step (fun _ => rfl) rfl .returns
  | enabling =>
    exact .only step (fun other => inFlight_setAdmission shared plugin other true) rfl .enable
  | invalidating => exact .only step (fun _ => rfl) rfl .returns
  | _ => exact .only step (fun _ => rfl) rfl .enable

theorem disableMoves_accounts {phase : DisablePhase}
    (step : (after, later) ∈ disableMoves loaded shared plugin phase) :
    Accounts shared after (.disable plugin phase) later := by
  cases phase with
  | starting => exact .only step (fun _ => rfl) rfl (.disable fun _ => rfl)
  | lookingUp =>
    simp only [disableMoves] at step
    split at step
    · exact .only step (fun _ => rfl) rfl (.disable (by simp))
    · exact .only step (fun _ => rfl) rfl .returns
  | closing =>
    exact .only step (fun other => inFlight_setAdmission shared plugin other false) rfl
      (.disable (by simp))
  | waitingIdle =>
    simp only [disableMoves, mem_ite_nil_right, mem_singleton, Prod.mk.injEq] at step
    obtain ⟨_, rfl, rfl⟩ := step
    exact .unchanged (fun _ => rfl) rfl (.disable (by simp))
  | invalidating => exact .only step (fun _ => rfl) rfl .returns
  | _ => exact .only step (fun _ => rfl) rfl (.disable (by simp))

theorem allSettingsMoves_accounts {phase : AllSettingsPhase}
    (step : (after, later) ∈ allSettingsMoves shared phase) :
    Accounts shared after (.allSettings phase) later := by
  cases phase with
  | scanning remaining =>
    cases remaining with
    | nil => exact .only step (fun _ => rfl) rfl .returns
    | cons _ remaining =>
      simp only [allSettingsMoves] at step
      split at step
      · refine .only step (fun _ => rfl) rfl (.allSettings fun same => ?_)
        obtain ⟨rfl, rfl⟩ := AllSettingsPhase.waitingInstance.inj same
        rfl
      · exact .only step (fun _ => rfl) rfl (.allSettings (by simp))
  | _ => exact .only step (fun _ => rfl) rfl (.allSettings (by simp))

theorem settingsForMoves_accounts {phase : SettingsForPhase}
    (step : (after, later) ∈ settingsForMoves loaded shared plugin phase) :
    Accounts shared after (.settingsFor plugin phase) later := by
  cases phase with
  | starting =>
    simp only [settingsForMoves] at step
    split at step
    · exact .only step (fun _ => rfl) rfl (.settingsFor (by simp))
    · exact .only step (fun _ => rfl) rfl .returns
  | probing =>
    simp only [settingsForMoves] at step
    split at step
    · exact .only step (fun _ => rfl) rfl (.settingsFor (by simp))
    · exact .only step (fun _ => rfl) rfl (.settingsFor (by simp))
  | waitingInstance => exact .only step (fun _ => rfl) rfl (.settingsFor fun _ => rfl)
  | storing | readingCached => exact .only step (fun _ => rfl) rfl .returns
  | _ => exact .only step (fun _ => rfl) rfl (.settingsFor (by simp))

theorem moves_accounts (step : (after, later) ∈ call.moves loaded shared) :
    Accounts shared after call later := by
  cases call with
  | execution plugin _ phase => exact executionMoves_accounts step
  | effect plugin phase => exact effectMoves_accounts step
  | enable plugin phase => exact enableMoves_accounts step
  | disable plugin phase => exact disableMoves_accounts step
  | allSettings phase => exact allSettingsMoves_accounts step
  | settingsFor plugin phase => exact settingsForMoves_accounts step
  | returned => cases step

namespace LeadsTo

variable {plugin : PluginIdentityKey}

section

variable (leads : LeadsTo call later)
include leads

theorem of_awaitsTransition (awaits : later.awaitsTransition plugin = true) :
    ∃ nested, call = .execution plugin nested .running ∧
      later = .execution plugin nested .limited := by
  cases leads with
  | @execution other nested phase next limited =>
    cases next with
    | limited =>
      obtain rfl := of_decide_eq_true awaits
      rw [limited rfl]
      exact ⟨nested, rfl, rfl⟩
    | _ => cases awaits
  | _ => cases awaits

theorem of_disables (disabling : later.disables plugin = true) :
    call.disables plugin = true ∨
      (call = .disable plugin .starting ∧ later = .disable plugin .lookingUp) := by
  cases leads with
  | @disable other phase next first =>
    obtain ⟨same, _⟩ := Bool.and_eq_true_iff.mp disabling
    obtain rfl := of_decide_eq_true same
    by_cases isFirst : phase = .starting
    · rw [isFirst, first isFirst]
      exact .inr ⟨rfl, rfl⟩
    · exact .inl (by simp [disables, isFirst])
  | _ => cases disabling

theorem of_awaitsInstance (awaits : later.awaitsInstance plugin = true) :
    ∃ remaining, call = .allSettings (.scanning (plugin :: remaining)) ∧
      later = .allSettings (.waitingInstance plugin remaining) := by
  cases leads with
  | @allSettings phase next dirty =>
    cases next with
    | waitingInstance _ remaining =>
      obtain rfl := of_decide_eq_true awaits
      rw [dirty rfl]
      exact ⟨remaining, rfl, rfl⟩
    | _ => cases awaits
  | _ => cases awaits

theorem of_keepsInstance (keeps : later.keepsInstance plugin = true) :
    call = .settingsFor plugin .waitingInstance ∧ later = .settingsFor plugin .waitingCache := by
  cases leads with
  | @settingsFor other phase next taken =>
    cases next with
    | waitingCache =>
      obtain rfl := of_decide_eq_true keeps
      rw [taken rfl]
      exact ⟨rfl, rfl⟩
    | _ => cases keeps
  | _ => cases keeps

end

end LeadsTo

theorem starts_spec (starting : call.starts loaded = true) : call.permits = [] ∧
    ∀ plugin, call.awaitsTransition plugin = false ∧ call.disables plugin = false ∧
      call.awaitsInstance plugin = false ∧ call.keepsInstance plugin = false := by
  cases call with
  | execution plugin nested phase =>
    cases nested with
    | true => cases starting
    | false =>
      cases phase with
      | starting => exact ⟨rfl, fun _ => ⟨rfl, rfl, rfl, rfl⟩⟩
      | _ => cases starting
  | effect plugin phase | settingsFor plugin phase =>
    cases phase with
    | starting => exact ⟨rfl, fun _ => ⟨rfl, rfl, rfl, rfl⟩⟩
    | _ => cases starting
  | enable plugin phase => exact ⟨rfl, fun _ => ⟨rfl, rfl, rfl, rfl⟩⟩
  | disable plugin phase =>
    cases phase with
    | starting => exact ⟨rfl, fun _ => ⟨rfl, by simp [disables], rfl, rfl⟩⟩
    | _ => cases starting
  | allSettings phase =>
    cases phase with
    | starting => exact ⟨rfl, fun _ => ⟨rfl, rfl, rfl, rfl⟩⟩
    | _ => cases starting
  | returned => cases starting

end ManagerCall

/-- The permits in flight are those that the calls hold, and no two calls have met. -/
structure Untangled (system : System ManagerCall SharedState) : Prop where
  counted : ∀ plugin, (system.shared.admission plugin).inFlight =
    (system.calls.flatMap permits).count plugin
  limits : ∀ {plugin call other}, call ∈ system.calls → other ∈ system.calls →
    call.awaitsTransition plugin = true → other.disables plugin = false
  settings : ∀ {plugin call other}, call ∈ system.calls → other ∈ system.calls →
    call.awaitsInstance plugin = true → other.keepsInstance plugin = false

namespace Untangled

variable {loaded : List PluginIdentityKey} {system : System ManagerCall SharedState}

theorem begins (untangled : Untangled system) {call : ManagerCall}
    (starting : call.starts loaded = true) :
    Untangled { system with calls := call :: system.calls } := by
  obtain ⟨none, inNobodysWay⟩ := starts_spec starting
  refine ⟨fun plugin => ?_, fun {plugin} first second mem other awaits => ?_,
    fun {plugin} first second mem other awaits => ?_⟩
  · rw [flatMap_cons, none]
    exact untangled.counted plugin
  · obtain ⟨notAwaiting, notDisabling, _, _⟩ := inNobodysWay plugin
    rcases mem_cons.mp mem with rfl | mem
    · rw [notAwaiting] at awaits
      cases awaits
    · rcases mem_cons.mp other with rfl | other
      · exact notDisabling
      · exact untangled.limits mem other awaits
  · obtain ⟨_, _, notAwaiting, notKeeping⟩ := inNobodysWay plugin
    rcases mem_cons.mp mem with rfl | mem
    · rw [notAwaiting] at awaits
      cases awaits
    · rcases mem_cons.mp other with rfl | other
      · exact notKeeping
      · exact untangled.settings mem other awaits

variable {next : System ManagerCall SharedState}

theorem advances (untangled : Untangled system)
    {call later : ManagerCall} {others : List ManagerCall}
    (before : system.calls.Perm (call :: others)) (after : next.calls.Perm (later :: others))
    (step : (next.shared, later) ∈ call.moves loaded system.shared)
    (allowed : stepAllowed others call later = true) : Untangled next := by
  obtain ⟨counts, leads⟩ := moves_accounts step
  have callMember : call ∈ system.calls := before.mem_iff.mpr mem_cons_self
  have otherMember {other : ManagerCall} (mem : other ∈ others) :
      other ∈ system.calls := before.mem_iff.mpr (mem_cons_of_mem _ mem)
  refine ⟨fun plugin => ?_, fun {plugin} first second mem other awaits => ?_,
    fun {plugin} first second mem other awaits => ?_⟩
  · have held := untangled.counted plugin
    rw [(before.flatMap_right permits).count_eq, flatMap_cons, count_append] at held
    have change := counts plugin (by omega)
    rw [(after.flatMap_right permits).count_eq, flatMap_cons, count_append]
    omega
  · rcases mem_cons.mp (after.mem_iff.mp mem) with rfl | mem
    · obtain ⟨_, rfl, rfl⟩ := leads.of_awaitsTransition awaits
      rcases mem_cons.mp (after.mem_iff.mp other) with rfl | other
      · rfl
      · simpa using all_eq_true.mp allowed second other
    · rcases mem_cons.mp (after.mem_iff.mp other) with rfl | other
      · by_contra isDisabling
        rcases leads.of_disables (eq_true_of_ne_false isDisabling) with
          already | ⟨rfl, rfl⟩
        · have apart := untangled.limits (otherMember mem) callMember awaits
          rw [already] at apart
          cases apart
        · have apart := all_eq_true.mp allowed first mem
          rw [awaits] at apart
          cases apart
      · exact untangled.limits (otherMember mem) (otherMember other) awaits
  · rcases mem_cons.mp (after.mem_iff.mp mem) with rfl | mem
    · obtain ⟨_, rfl, rfl⟩ := leads.of_awaitsInstance awaits
      rcases mem_cons.mp (after.mem_iff.mp other) with rfl | other
      · rfl
      · simpa using all_eq_true.mp allowed second other
    · rcases mem_cons.mp (after.mem_iff.mp other) with rfl | other
      · by_contra isKeeping
        obtain ⟨rfl, rfl⟩ := leads.of_keepsInstance (eq_true_of_ne_false isKeeping)
        have apart := all_eq_true.mp allowed first mem
        rw [awaits] at apart
        cases apart
      · exact untangled.settings (otherMember mem) (otherMember other) awaits

theorem apply (untangled : Untangled system)
    {event : Event ManagerCall} (allowed : EventAllowed loaded system event)
    (applied : (managerProtocol loaded).apply system event = some next) : Untangled next := by
  rcases apply_cases applied with
    ⟨call, rfl, starting, rfl⟩ | ⟨index, choice, call, later, rfl, found, chosen, before, after⟩
  · exact untangled.begins starting
  · obtain ⟨_, moved⟩ := mem_successors.mp (mem_of_getElem? chosen)
    exact untangled.advances before after moved (allowed call found _ chosen)

end Untangled

namespace ManagerCall

/-- How far a call is from being able to go on by itself. -/
def rank : ManagerCall → Nat
  | .execution _ _ .waitingEnabledMap | .enable _ .waitingEnabledMap => 1
  | .disable _ .waitingEnabledMap | .allSettings (.waitingInstance _ _) => 1
  | .allSettings (.waitingCache _) | .settingsFor _ .waitingCache => 2
  | .settingsFor _ .waitingCached => 2
  | .execution _ _ .waitingInstance | .effect _ .waitingInstance => 3
  | .settingsFor _ .waitingInstance => 3
  | .disable _ .waitingIdle => 4
  | .execution _ _ .limited | .enable _ .starting | .disable _ .starting => 5
  | _ => 0

/-- The highest rank of a call that holds the lock alone. -/
def ceiling : ManagerLock → Nat
  | .registry | .enabledMap => 0
  | .settingsCache => 1
  | .instanceOf _ => 2
  | .stateTransition => 4

variable {call : ManagerCall} {lock : ManagerLock}

theorem shared_iff_registry {mode : Mode}
    (uses : (lock, mode) ∈ call.held ∨ call.wanted = some (lock, mode)) :
    mode = .shared ↔ lock = .registry := by
  cases call with
  | execution plugin nested phase | effect plugin phase | enable plugin phase
  | disable plugin phase | allSettings phase | settingsFor plugin phase =>
    cases phase <;> simp [held, wanted] at uses <;> grind
  | returned => rcases uses with holds | wants <;> contradiction

theorem rank_le_ceiling (holds : (lock, .exclusive) ∈ call.held) : call.rank ≤ ceiling lock := by
  cases call with
  | execution plugin nested phase | enable plugin phase | disable plugin phase
  | allSettings phase | settingsFor plugin phase =>
    cases phase <;> simp [held] at holds <;> grind [rank, ceiling]
  | effect plugin phase =>
    cases phase with
    | readingInstance => simp [rank]
    | _ => grind [held]
  | returned => cases holds

variable {plugin : PluginIdentityKey}

theorem rank_of_instance (holds : (.instanceOf plugin, .exclusive) ∈ call.held)
    (notKeeping : call.keepsInstance plugin = false) : call.rank = 0 := by
  cases call with
  | settingsFor other phase =>
    cases phase with
    | waitingCache =>
      obtain rfl : plugin = other := by simpa [held] using holds
      simp [keepsInstance] at notKeeping
    | storing => rfl
    | _ => simp [held] at holds
  | execution other _ phase => cases phase <;> simp [held] at holds <;> rfl
  | effect other phase =>
    cases phase with
    | readingInstance => rfl
    | _ => simp [held] at holds
  | enable other phase | disable other phase => cases phase <;> simp [held] at holds
  | allSettings phase =>
    cases phase with
    | copying other => rfl
    | _ => simp [held] at holds
  | returned => cases holds

theorem ceiling_lt_rank (wants : call.wanted = some (lock, .exclusive)) :
    ceiling lock < call.rank ∨ ∃ plugin, lock = .instanceOf plugin ∧
      call.awaitsInstance plugin = true ∧ 0 < call.rank := by
  cases call with
  | allSettings phase =>
    cases phase with
    | waitingInstance plugin =>
      obtain rfl : ManagerLock.instanceOf plugin = lock := by simpa [wanted] using wants
      exact .inr ⟨plugin, rfl, by simp [awaitsInstance], by simp [rank]⟩
    | waitingCache =>
      simp only [wanted, some.injEq, Prod.mk.injEq, and_true] at wants
      simp [← wants, ceiling, rank]
    | _ => simp [wanted] at wants
  | execution plugin nested phase | enable plugin phase | disable plugin phase
  | settingsFor plugin phase =>
    cases phase <;> simp [wanted] at wants <;> simp [← wants, ceiling, rank]
  | effect plugin phase =>
    cases phase with
    | waitingInstance =>
      simp only [wanted, some.injEq, Prod.mk.injEq, and_true] at wants
      simp [← wants, ceiling, rank]
    | _ => simp [wanted] at wants
  | returned => cases wants

theorem rank_of_permit (holds : plugin ∈ call.permits)
    (notAwaiting : call.awaitsTransition plugin = false) : call.rank < 4 := by
  cases call with
  | execution other nested phase =>
    cases phase with
    | limited =>
      obtain rfl : plugin = other := by
        cases nested <;> simpa [permits, isAdmitted] using holds
      simp [awaitsTransition] at notAwaiting
    | _ => simp [rank]
  | effect other phase => cases phase <;> simp [rank]
  | _ => cases holds

variable {loaded : List PluginIdentityKey}

theorem moves_ne_nil {shared : SharedState}
    (unfinished : call ≠ .returned) (stuck : call.moves loaded shared = []) :
    ∃ plugin, call = .disable plugin .waitingIdle ∧ (shared.admission plugin).inFlight ≠ 0 := by
  cases call with
  | execution plugin _ phase =>
    cases phase with
    | starting => simp [moves, executionMoves] at stuck
    | admitting =>
      simp only [moves, executionMoves] at stuck
      split at stuck <;> cases stuck
    | _ => cases stuck
  | effect plugin phase =>
    cases phase with
    | starting => simp [moves, effectMoves] at stuck
    | admitting =>
      simp only [moves, effectMoves] at stuck
      split at stuck <;> cases stuck
    | _ => cases stuck
  | enable plugin phase =>
    cases phase with
    | lookingUp =>
      simp only [moves, enableMoves] at stuck
      split at stuck <;> cases stuck
    | _ => cases stuck
  | disable plugin phase =>
    cases phase with
    | lookingUp =>
      simp only [moves, disableMoves] at stuck
      split at stuck <;> cases stuck
    | waitingIdle =>
      simp only [moves, disableMoves] at stuck
      split at stuck
      · cases stuck
      next inFlight => exact ⟨plugin, rfl, inFlight⟩
    | _ => cases stuck
  | allSettings phase =>
    cases phase with
    | scanning remaining =>
      cases remaining with
      | nil => cases stuck
      | cons plugin remaining =>
        simp only [moves, allSettingsMoves] at stuck
        split at stuck <;> cases stuck
    | _ => cases stuck
  | settingsFor plugin phase =>
    cases phase with
    | starting | probing =>
      simp only [moves, settingsForMoves] at stuck
      split at stuck <;> cases stuck
    | _ => cases stuck
  | returned => exact absurd rfl unfinished

theorem kept_back_by_holder {others : List ManagerCall} (apart : ∀ {plugin other}, other ∈ others →
      call.awaitsInstance plugin = true → other.keepsInstance plugin = false)
    (mayNot : (managerProtocol loaded).mayMove others call = false) :
    ∃ blocker ∈ others, blocker ≠ .returned ∧ blocker.rank < call.rank := by
  unfold mayMove at mayNot
  split at mayNot
  · cases mayNot
  next mode wants =>
    obtain ⟨holder, mem, how, holds, alone⟩ := exists_holder mayNot
    have running : holder ≠ .returned := by
      rintro rfl
      cases holds
    have sameMode : how = .exclusive ∧ mode = .exclusive := by
      have sameShared : how = .shared ↔ mode = .shared :=
        (shared_iff_registry (.inl holds)).trans (shared_iff_registry (.inr wants)).symm
      cases mode with
      | shared =>
        rw [alone rfl] at sameShared
        cases sameShared.mpr rfl
      | exclusive =>
        cases how with
        | shared => cases sameShared.mp rfl
        | exclusive => exact ⟨rfl, rfl⟩
    obtain ⟨rfl, rfl⟩ := sameMode
    refine ⟨holder, mem, running, ?_⟩
    rcases ceiling_lt_rank wants with above | ⟨plugin, rfl, awaits, positive⟩
    · exact lt_of_le_of_lt (rank_le_ceiling holds) above
    · rw [rank_of_instance holds (apart mem awaits)]
      exact positive

end ManagerCall

namespace Untangled

variable {loaded : List PluginIdentityKey} {system : System ManagerCall SharedState}

theorem kept_back_by_permit (untangled : Untangled system) {plugin : PluginIdentityKey}
    {others : List ManagerCall} (split : system.calls.Perm (.disable plugin .waitingIdle :: others))
    (inFlight : (system.shared.admission plugin).inFlight ≠ 0) :
    ∃ blocker ∈ others, blocker ≠ .returned ∧
      blocker.rank < (disable plugin .waitingIdle).rank := by
  have held : plugin ∈ others.flatMap permits := by
    have none : (disable plugin .waitingIdle).permits = [] := rfl
    rw [untangled.counted, (split.flatMap_right permits).count_eq,
      flatMap_cons, none, nil_append] at inFlight
    exact count_pos_iff.mp (Nat.pos_of_ne_zero inFlight)
  obtain ⟨blocker, mem, holds⟩ := mem_flatMap.mp held
  refine ⟨blocker, mem, ?_, rank_of_permit holds ?_⟩
  · rintro rfl
    cases holds
  · by_contra awaits
    have apart := untangled.limits (split.mem_iff.mpr (mem_cons_of_mem _ mem))
      (split.mem_iff.mpr mem_cons_self) (eq_true_of_ne_false awaits)
    simp [disables] at apart

theorem not_deadlocked (untangled : Untangled system) :
    ¬ (managerProtocol loaded).Deadlocked system := by
  refine not_deadlocked_of_rank rank ?_
  intro call others split unfinished stuck
  have running : call ≠ .returned := of_decide_eq_false unfinished
  suffices blocked : ∃ blocker ∈ others, blocker ≠ .returned ∧ blocker.rank < call.rank by
    obtain ⟨blocker, mem, notReturned, lower⟩ := blocked
    exact ⟨blocker, mem, decide_eq_false notReturned, lower⟩
  unfold successors at stuck
  split at stuck
  · obtain ⟨_, rfl, inFlight⟩ := moves_ne_nil running stuck
    exact untangled.kept_back_by_permit split inFlight
  next mayNot =>
    refine kept_back_by_holder (fun mem awaits => ?_) (eq_false_of_ne_true mayNot)
    exact untangled.settings (split.mem_iff.mpr mem_cons_self)
      (split.mem_iff.mpr (mem_cons_of_mem _ mem)) awaits

end Untangled

/-- In a run from rest that avoids the two encounters, some call can take its next step
while any call has not returned. -/
theorem allowed_runs_do_not_deadlock (loaded : List PluginIdentityKey) (shared : SharedState)
    (atRest : ∀ plugin, (shared.admission plugin).inFlight = 0) (events : List (Event ManagerCall))
    (reached : System ManagerCall SharedState)
    (allowed : ActionRun.Guarded (managerProtocol loaded).apply (EventAllowed loaded)
      ⟨[], shared⟩ events)
    (ran : run (managerProtocol loaded).apply ⟨[], shared⟩ events = some reached) :
    ¬ (managerProtocol loaded).Deadlocked reached := by
  have start : Untangled ⟨[], shared⟩ := by
    refine ⟨fun plugin => ?_, nofun, nofun⟩
    rw [atRest]
    rfl
  have untangled := run_preserves_of_guarded Untangled
    (fun holds => holds.apply) start allowed ran
  exact untangled.not_deadlocked

def uiDemoKey : PluginIdentityKey := ⟨"ui-demo"⟩

/-- The manager as it starts: the plugin is enabled, and its settings have not been
read. -/
def sharedAtRest : SharedState where
  admission _ := ⟨true, 0⟩
  enabledPlugins _ := true
  settingsDirty _ := true
  runtimeViolation _ := false

def advanceTimes (count index : Nat) : List (Event ManagerCall) :=
  List.replicate count (.advances index 0)

/-- An execution is running its guest, and `disable_plugin` waits for it. -/
def disableWaits : List (Event ManagerCall) :=
  [.begins (.execution uiDemoKey false .starting)] ++ advanceTimes 3 0 ++
    [.begins (.disable uiDemoKey .starting)] ++ advanceTimes 5 0

/-- A `get_settings_for` has found the plugin dirty, and an execution makes it dirty again. -/
def settingsMeet : List (Event ManagerCall) :=
  [.begins (.settingsFor uiDemoKey .starting)] ++ advanceTimes 2 0 ++
    [.begins (.execution uiDemoKey false .starting)] ++ advanceTimes 4 0 ++
    [.advances 0 1, .advances 0 0, .advances 1 0,
      .begins (.allSettings (.starting [uiDemoKey]))] ++ advanceTimes 3 0

/-- While the guest runs, `disable_plugin` waits and the execution can go on. -/
theorem allowed_runs_do_not_deadlock_disable : ∃ reached,
    run (managerProtocol [uiDemoKey]).apply ⟨[], sharedAtRest⟩
      disableWaits = some reached ∧ ¬ (managerProtocol [uiDemoKey]).Deadlocked reached :=
  ⟨_, rfl, allowed_runs_do_not_deadlock [uiDemoKey] sharedAtRest (fun _ => rfl)
    disableWaits _ (by decide) rfl⟩

/-- Each of the two encounters ends in a deadlock. -/
theorem manager_calls_deadlock : (∃ reached,
    run (managerProtocol [uiDemoKey]).apply ⟨[], sharedAtRest⟩
      (disableWaits ++ [.advances 1 2]) = some reached ∧
      (managerProtocol [uiDemoKey]).Deadlocked reached) ∧
      ∃ reached, run (managerProtocol [uiDemoKey]).apply ⟨[], sharedAtRest⟩
        settingsMeet = some reached ∧ (managerProtocol [uiDemoKey]).Deadlocked reached :=
  ⟨⟨_, rfl, by decide⟩, ⟨_, rfl, by decide⟩⟩

end Arclain.Plugins
