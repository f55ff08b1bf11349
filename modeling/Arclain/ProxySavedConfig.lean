import Arclain.ProxyRecovery

namespace Arclain.NetworkProxy

/-!
# What a save that returned has written

`save` writes the whole row of the user configuration, but after a write that
reported an error it judges the outcome by the proxy settings alone.
-/

open FaultyCalls Text Faulty Preserves Prod

def Stores.row (stores : Stores) : UserConfig := stores.userConfig.getD .new

def beforeWrite (stores : Stores) (fates : Fates StoreCall) : UserConfig × Fate :=
  (stores.row, fates.next .saveUserConfig)

theorem preserves_call {Value : Type} {label : StoreCall} {effect : Stores → Value × Stores}
    (other : label ≠ .saveUserConfig) (unseen : ∀ stores, (effect stores).2.row = stores.row) :
    Preserves beforeWrite (.call label .store effect : Service Value) := by
  refine Preserves.call ?_ ?_
  · intro stores fates
    rw [beforeWrite, Fates.next_spend_of_ne other.symm]
    rfl
  · intro stores fates
    rw [beforeWrite, unseen]
    rfl

theorem preserves_readSecret (key : Str) : Preserves beforeWrite (readSecret key) :=
  preserves_call (by decide) fun _ => rfl

theorem preserves_loadUserConfig : Preserves beforeWrite loadUserConfig := by
  rw [loadUserConfig_eq]
  exact preserves_call (by decide) fun _ => rfl

theorem preserves_applySecretMutations (mutations : List SecretMutation) :
    Preserves beforeWrite (applySecretMutations mutations) := by
  unfold applySecretMutations
  split
  · exact throw _
  · exact preserves_call (by decide) fun _ => rfl

theorem preserves_finishCommit : Preserves beforeWrite finishCommit := by
  unfold finishCommit
  refine (preserves_applySecretMutations _).attempt.bind fun result => ?_
  cases result with
  | error | ok => exact pure _

theorem preserves_recoverPending (codec : MarkerCodec) :
    Preserves beforeWrite (recoverPending codec) := by
  unfold recoverPending
  refine (preserves_readSecret _).mapError.bind fun found => ?_
  cases found with
  | none => exact pure _
  | some text =>
    dsimp only
    cases codec.decode text with
    | none => exact throw _
    | some =>
      dsimp only
      split
      · exact throw _
      · refine preserves_loadUserConfig.mapError.bind fun persisted => ?_
        split
        · exact (preserves_applySecretMutations _).mapError.bind fun _ => pure _
        · split
          · exact (preserves_applySecretMutations _).mapError.bind fun _ => pure _
          · exact throw _

section

variable {codec : MarkerCodec} {candidate : UserConfig} {password : Option Str}
  {stores after : Stores}
  {fates rest : Fates StoreCall}
  {outcome : ProxySaveOutcome}
variable {update : PendingProxyUpdate} {configError : ProxyError}

theorem row_of_reconcile_returned
    (returned : reconcile update configError stores fates = .returned outcome after rest) :
    after.row = stores.row ∧ ProxySettingsSnapshot.from stores.row = update.candidate := by
  obtain ⟨result, _, _, loading, continued⟩ := returned_of_bind returned
  have kept := preserves_loadUserConfig.attempt.of_returned loading
  have loaded : ∀ row, result = .ok row → row = stores.row := by
    rintro row rfl
    rw [loadUserConfig_eq] at loading
    unfold Faulty.attempt Faulty.call at loading
    cases fate : fates.next .loadUserConfig with
    | works =>
      rw [fate] at loading
      cases loading
      rfl
    | fails | failsAfterEffect | crashes | crashesAfterEffect =>
      rw [fate] at loading
      cases loading
  cases result with
  | error => cases continued
  | ok row =>
    obtain rfl := loaded row rfl
    dsimp only at continued
    split at continued
    next written =>
      have finished := preserves_finishCommit.of_returned continued
      exact ⟨(congrArg fst finished).trans (congrArg fst kept), written⟩
    · split at continued
      · obtain ⟨undone, _, _, _, thrown⟩ := returned_of_bind continued
        cases undone with
        | error | ok => cases thrown
      · cases continued

theorem row_of_commit_returned
    (returned : commit update candidate stores fates = .returned outcome after rest) :
    after.row = candidate.row ∨ fates.next .saveUserConfig = .fails ∧
      ProxySettingsSnapshot.from stores.row = update.candidate ∧
      after.row = stores.row := by
  obtain ⟨_, _, _, writing, continued⟩ := Faulty.returned_of_bind returned
  unfold saveUserConfig Faulty.attempt Faulty.call at writing
  cases fate : fates.next .saveUserConfig with
  | works =>
    rw [fate] at writing
    cases writing
    have finished := preserves_finishCommit.of_returned continued
    exact .inl (congrArg fst finished)
  | fails =>
    rw [fate] at writing
    cases writing
    obtain ⟨kept, written⟩ := row_of_reconcile_returned continued
    exact .inr ⟨rfl, written, kept⟩
  | failsAfterEffect =>
    rw [fate] at writing
    cases writing
    exact .inl (row_of_reconcile_returned continued).1
  | crashes | crashesAfterEffect =>
    rw [fate] at writing
    cases writing

theorem row_of_save_returned (returned : save codec candidate password stores fates =
    .returned outcome after rest) :
    after.row = candidate.row ∨ fates.next .saveUserConfig = .fails ∧
      ProxySettingsSnapshot.from stores.row = .from candidate ∧
      after.row = stores.row := by
  unfold save at returned
  obtain ⟨_, _, _, recovering, returned⟩ := returned_of_bind returned
  obtain ⟨_, _, _, loading, returned⟩ := returned_of_bind returned
  obtain ⟨_, _, _, reading, returned⟩ := returned_of_bind returned
  obtain ⟨_, staged, left, staging, returned⟩ := returned_of_bind returned
  have before : beforeWrite staged left = beforeWrite stores fates :=
    calc
      _ = _ := (preserves_applySecretMutations _).mapError.of_returned staging
      _ = _ := (preserves_readSecret _).mapError.of_returned reading
      _ = _ := preserves_loadUserConfig.mapError.of_returned loading
      _ = _ := (preserves_recoverPending codec).mapError.of_returned recovering
  have sameRow : staged.row = stores.row := congrArg fst before
  have sameFate : left.next .saveUserConfig = fates.next .saveUserConfig := congrArg snd before
  rw [← sameRow, ← sameFate]
  exact row_of_commit_returned returned

theorem reconcile_returns (update : PendingProxyUpdate) (stores : Stores)
    (working : OthersWork fates) (same : ProxySettingsSnapshot.from stores.row = update.candidate) :
    ∃ outcome after, reconcile update configError stores fates = .returned outcome after fates := by
  change ProxySettingsSnapshot.from (stores.userConfig.getD .new) = _ at same
  unfold reconcile finishCommit
  rw [loadUserConfig_eq, finalize_eq]
  rw [run_bind_of_returned (run_attempt_of_returned (working.run_call (by decide)))]
  dsimp only
  rw [if_pos same, run_bind_of_returned
    (run_attempt_of_returned (working.run_call (by decide)))]
  exact ⟨_, _, rfl⟩

theorem save_returns_unwritten {pair : ProxySettingsSnapshot × Option Str} (password : Option Str)
    (working : OthersWork fates) (fails : fates.next .saveUserConfig = .fails)
    (settles : Settles codec stores pair)
    (same : ProxySettingsSnapshot.from stores.row = .from candidate) :
    ∃ outcome after rest, save codec candidate password stores fates =
      .returned outcome after rest ∧ after.row = stores.row := by
  obtain ⟨_, recovered, recovering⟩ := recoverPending_returns working settles
  have sameRow : recovered.row = stores.row :=
    congrArg fst ((preserves_recoverPending codec).of_returned recovering)
  have stillWorking : OthersWork (fates.spend .saveUserConfig) := by
    intro label other
    rw [Fates.spend, Function.update_of_ne other]
    exact working label other
  have reworded : context "recovering an earlier proxy settings update"
      (recoverPending codec) stores fates = .returned _ recovered fates :=
    run_mapError_of_returned recovering
  let marker := updateMarker recovered.row recovered.password candidate
  let staged := recovered.withRow.mutate [passwordMutation password,
      .set pendingProxyUpdateKey (codec.encode marker)]
  unfold save
  rw [run_bind_of_returned reworded, loadUserConfig_eq,
    run_bind_of_returned (working.run_context (by decide)), readSecret,
    run_bind_of_returned (working.run_context (by decide))]
  dsimp only
  rw [applySecretMutations_pair _ rfl,
    run_bind_of_returned (working.run_context (by decide))]
  dsimp only
  rw [commit, saveUserConfig, run_bind_of_returned
    (run_attempt_of_failed (run_call_of_fails fails))]
  dsimp only
  have stagedRow : staged.row = stores.row := sameRow
  have stagedSame : ProxySettingsSnapshot.from staged.row = marker.candidate := by
    rw [stagedRow]
    exact same
  obtain ⟨outcome, after, returned⟩ := reconcile_returns marker staged stillWorking stagedSame
  exact ⟨outcome, after, _, returned, (row_of_reconcile_returned returned).1.trans sameRow⟩

/-- A save that returns has written its candidate, unless a failed write hides a change
outside the proxy settings. -/
theorem save_persists_candidate_iff {pair : ProxySettingsSnapshot × Option Str}
    (codec : MarkerCodec) (candidate : UserConfig) (password : Option Str) (stores : Stores)
    (settles : Settles codec stores pair) (fate : Fate) :
    (∀ fates : Fates StoreCall, fates.next .saveUserConfig = fate →
      (save codec candidate password stores fates).hasReturned →
        (save codec candidate password stores fates).state.row = candidate.row) ↔
      ¬ (fate = .fails ∧ ProxySettingsSnapshot.from stores.row = .from candidate ∧
        stores.row ≠ candidate.row) := by
  constructor
  · rintro persisted ⟨rfl, same, changed⟩
    let fates : Fates StoreCall := Function.update Fates.allWork .saveUserConfig [.fails]
    have fails : fates.next .saveUserConfig = .fails := rfl
    have working : OthersWork fates := fun _ other => Function.update_of_ne other _ _
    obtain ⟨outcome, after, rest, returned, kept⟩ :=
      save_returns_unwritten password working fails settles same
    have written := persisted fates fails
    rw [returned] at written
    exact changed (kept.symm.trans (written rfl))
  · rintro sound fates rfl returned
    cases ended : save codec candidate password stores fates with
    | returned outcome after rest =>
      rcases row_of_save_returned ended with written | ⟨fails, same, kept⟩
      · exact written
      · by_contra unwritten
        exact sound ⟨fails, same, fun equal => unwritten (kept.trans equal)⟩
    | failed _ after rest | crashed after =>
      rw [ended] at returned
      cases returned

/-- A write that takes effect and then reports an error. -/
theorem save_persists_candidate_at_late_error :
    let stores : Stores := ⟨some .new, ∅⟩
    Settles .json stores stores.pair ∧ ∀ fates : Fates StoreCall,
      fates.next .saveUserConfig = .failsAfterEffect →
      (save .json proxiedConfig none stores fates).hasReturned →
        (save .json proxiedConfig none stores fates).state.row = proxiedConfig.row := by
  intro stores
  have settles : Settles .json stores stores.pair := .unmarked rfl
  refine ⟨settles, ?_⟩
  exact (save_persists_candidate_iff .json proxiedConfig none stores settles
    .failsAfterEffect).mpr (by decide)

/-- A candidate changes the drop behaviour only while the write fails: the save returns and
the column keeps its value. -/
theorem save_loses_other_columns :
    let stores : Stores := ⟨some .new, ∅⟩
    let candidate := { UserConfig.new with dropBehavior := some "ask".toList }
    let fates : Fates StoreCall := Function.update Fates.allWork .saveUserConfig [.fails]
    (save .json candidate none stores fates).hasReturned ∧
      (save .json candidate none stores fates).state.row.dropBehavior ≠ candidate.dropBehavior := by
  decide

end

end Arclain.NetworkProxy
