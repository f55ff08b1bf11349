import Arclain.NetworkProxyPersistence

namespace Arclain.NetworkProxy

/-!
# Recovery of an interrupted proxy update

What is persisted, together with a pending marker, settles on one pair of proxy settings and
password, the pair that `recover_pending` leaves.
-/

open KeyedMap List FaultyCalls Text Option Faulty SecretMutation Stores Triple

namespace Stores

def snapshot (stores : Stores) : ProxySettingsSnapshot := .from (stores.userConfig.getD .new)

def password (stores : Stores) : Option Str := stores.secrets.lookup proxyPasswordKey

def marker (stores : Stores) : Option Str := stores.secrets.lookup pendingProxyUpdateKey

def pair (stores : Stores) : ProxySettingsSnapshot × Option Str :=
  (stores.snapshot, stores.password)

def withRow (stores : Stores) : Stores :=
  { stores with userConfig := some (stores.userConfig.getD .new) }

end Stores

section

variable (stores : Stores)

@[simp] theorem snapshot_mutate (mutations : List SecretMutation) :
    (stores.mutate mutations).snapshot = stores.snapshot :=
  rfl

theorem loadUserConfig_eq : loadUserConfig = .call .loadUserConfig .store fun stores =>
  (stores.userConfig.getD .new, stores.withRow) := by
  unfold loadUserConfig
  congr 1
  funext stores
  cases held : stores.userConfig with
  | none => simp [withRow, held]
  | some =>
    simp only [withRow, held, getD_some]
    rw [← held]

variable (secrets : KeyedMap Str Str)

@[simp] theorem SecretMutation.apply_set (key value : Str) :
    apply secrets (.set key value) = secrets.insert key value :=
  rfl

@[simp] theorem SecretMutation.apply_remove (key : Str) :
    apply secrets (.remove key) = secrets.erase key :=
  rfl

variable (password : Option Str)

theorem lookup_passwordMutation (key : Str) :
    (apply secrets (passwordMutation password)).lookup key =
      if key = proxyPasswordKey then password else secrets.lookup key := by
  cases password with
  | none => exact lookup_erase_ite secrets proxyPasswordKey key
  | some value => exact lookup_insert_ite secrets proxyPasswordKey key value

theorem pendingProxyUpdateKey_ne : pendingProxyUpdateKey ≠ proxyPasswordKey := by decide

@[simp] theorem password_stage (markerJson : Str) : (stores.mutate [passwordMutation password,
    .set pendingProxyUpdateKey markerJson]).password = password := by
  simp only [Stores.password, Stores.mutate, foldl_cons, foldl_nil, SecretMutation.apply_set]
  rw [lookup_insert_ite, if_neg pendingProxyUpdateKey_ne.symm, lookup_passwordMutation, if_pos rfl]

@[simp] theorem marker_stage (markerJson : Str) : (stores.mutate [passwordMutation password,
    .set pendingProxyUpdateKey markerJson]).marker = some markerJson := by
  simp only [marker, mutate, foldl_cons, foldl_nil, apply_set]
  rw [lookup_insert_ite, if_pos rfl]

@[simp] theorem password_takeBack : (stores.mutate
    [passwordMutation password, .remove pendingProxyUpdateKey]).password = password := by
  simp only [Stores.password, Stores.mutate, foldl_cons, foldl_nil, SecretMutation.apply_remove]
  rw [lookup_erase_ite, if_neg pendingProxyUpdateKey_ne.symm, lookup_passwordMutation, if_pos rfl]

@[simp] theorem marker_takeBack : (stores.mutate [passwordMutation password,
    .remove pendingProxyUpdateKey]).marker = none := by
  simp only [marker, mutate, foldl_cons, foldl_nil, apply_remove]
  rw [lookup_erase_ite, if_pos rfl]

@[simp] theorem password_unmark : (stores.mutate [.remove pendingProxyUpdateKey]).password =
    stores.password := by
  simp only [password, mutate, foldl_cons, foldl_nil, apply_remove]
  rw [lookup_erase_ite, if_neg pendingProxyUpdateKey_ne.symm]

@[simp] theorem marker_unmark : (stores.mutate [.remove pendingProxyUpdateKey]).marker = none := by
  simp only [marker, mutate, foldl_cons, foldl_nil, apply_remove]
  rw [lookup_erase_ite, if_pos rfl]

theorem applySecretMutations_pair {mutation : SecretMutation}
    (named : mutation.key = pendingProxyUpdateKey) :
    applySecretMutations [passwordMutation password, mutation] =
      .call .applySecretMutations .store fun stores =>
        ((), stores.mutate [passwordMutation password, mutation]) := by
  have first : (passwordMutation password).key = proxyPasswordKey := by
    cases password with
    | none | some => rfl
  have accepted : validate [] [passwordMutation password, mutation] = .ok () := by
    simp only [validate, first, named]
    decide
  rw [applySecretMutations, accepted]

theorem finalize_eq : finalize = .call .applySecretMutations .store fun stores =>
  ((), stores.mutate [.remove pendingProxyUpdateKey]) := by
  have accepted : validate [] [.remove pendingProxyUpdateKey] = .ok () := by decide
  rw [finalize, applySecretMutations, accepted]

end

/-- The pair of proxy settings and password that the stores settle on. -/
inductive Settles (codec : MarkerCodec) (stores : Stores) :
    ProxySettingsSnapshot × Option Str → Prop where
  | unmarked (absent : stores.marker = none) : Settles codec stores stores.pair
  | reached {text : Str} {update : PendingProxyUpdate} (present : stores.marker = some text)
      (decoded : codec.decode text = some update)
      (current : update.version = proxyUpdateMarkerVersion)
      (written : stores.snapshot = update.candidate) :
      Settles codec stores stores.pair
  | unreached {text : Str} {update : PendingProxyUpdate} (present : stores.marker = some text)
      (decoded : codec.decode text = some update)
      (current : update.version = proxyUpdateMarkerVersion)
      (unwritten : stores.snapshot ≠ update.candidate)
      (kept : stores.snapshot = update.previous) :
      Settles codec stores (update.previous, update.previousPassword)

namespace Settles

variable {codec : MarkerCodec} {stores : Stores} {pair : ProxySettingsSnapshot × Option Str}

theorem of_unmarked (absent : stores.marker = none) (holds : stores.pair = pair) :
    Settles codec stores pair :=
  holds ▸ .unmarked absent

theorem withRow (settles : Settles codec stores pair) : Settles codec stores.withRow pair := by
  cases settles with
  | unmarked absent => exact .unmarked absent
  | reached present decoded current written => exact .reached present decoded current written
  | unreached present decoded current unwritten kept =>
    exact .unreached present decoded current unwritten kept

section

variable {text : Str} {update : PendingProxyUpdate} (settles : Settles codec stores pair)
  (present : stores.marker = some text) (decoded : codec.decode text = some update)
include text update settles present decoded

theorem pair_of_reached (written : stores.snapshot = update.candidate) :
    stores.pair = pair := by
  cases settles with
  | unmarked | reached => rfl
  | unreached found read _ unwritten =>
    obtain rfl := some.inj (present.symm.trans found)
    obtain rfl := some.inj (decoded.symm.trans read)
    exact absurd written unwritten

theorem pair_of_unreached (unwritten : stores.snapshot ≠ update.candidate) :
    stores.snapshot = update.previous ∧ pair = (update.previous, update.previousPassword) := by
  cases settles with
  | unmarked absent => cases absent.symm.trans present
  | reached found read _ written =>
    obtain rfl := some.inj (present.symm.trans found)
    obtain rfl := some.inj (decoded.symm.trans read)
    exact absurd written unwritten
  | unreached found read _ _ kept =>
    obtain rfl := some.inj (present.symm.trans found)
    obtain rfl := some.inj (decoded.symm.trans read)
    exact ⟨kept, rfl⟩

end

end Settles

section

variable {holds : Stores → Prop} {text : String}

theorem context_keeps {Value : Type} {program : Service Value} {returned : Value → Stores → Prop}
    {otherwise crashed : Stores → Prop}
    (keeps : Triple holds program ⟨returned, fun _ => otherwise, crashed⟩) :
    Triple holds (context text program) ⟨returned, fun _ => otherwise, crashed⟩ :=
  mapError keeps

theorem readSecret_keeps (key : Str) : Triple holds (context text (readSecret key))
    ⟨fun found stores => holds stores ∧ stores.secrets.lookup key = found,
      fun _ => holds, holds⟩ := by
  refine context_keeps (Triple.call ?_ ?_ ?_ ?_ ?_)
  · exact fun stores held => ⟨held, rfl⟩
  all_goals exact fun _ held => held

theorem loadUserConfig_keeps (created : ∀ stores, holds stores → holds stores.withRow) :
    Triple holds loadUserConfig ⟨fun row stores => holds stores ∧ stores.userConfig = some row,
      fun _ => holds, holds⟩ := by
  rw [loadUserConfig_eq]
  refine Triple.call ?_ ?_ ?_ ?_ ?_
  · exact fun stores held => ⟨created stores held, rfl⟩
  · exact fun _ held => held
  · exact created
  · exact fun _ held => held
  · exact created

theorem mutate_keeps {mutations : List SecretMutation} {changed otherwise : Stores → Prop}
    (effect : ∀ stores, holds stores → changed (stores.mutate mutations))
    (unchanged : ∀ stores, holds stores → otherwise stores)
    (weakens : ∀ stores, changed stores → otherwise stores) :
    Triple holds (.call .applySecretMutations .store fun stores =>
      ((), stores.mutate mutations) : Service Unit)
      ⟨fun _ => changed, fun _ => otherwise, otherwise⟩ := by
  refine Triple.call ?_ ?_ ?_ ?_ ?_
  · exact effect
  · exact unchanged
  · exact fun stores held => weakens _ (effect stores held)
  · exact unchanged
  · exact fun stores held => weakens _ (effect stores held)

end

section

variable {codec : MarkerCodec} {pair : ProxySettingsSnapshot × Option Str}

theorem snapshot_of_loaded {stores : Stores} {row : UserConfig}
    (loaded : stores.userConfig = some row) : stores.snapshot = .from row := by
  rw [snapshot, loaded, getD_some]

theorem finalize_keeps :
    Triple (fun stores => Settles codec stores pair ∧ stores.pair = pair) finalize
      ⟨fun _ stores => stores.marker = none ∧ stores.pair = pair,
        fun _ stores => Settles codec stores pair,
        fun stores => Settles codec stores pair⟩ := by
  rw [finalize_eq]
  refine mutate_keeps ?_ ?_ ?_
  · rintro stores ⟨_, same⟩
    refine ⟨marker_unmark stores, ?_⟩
    rw [← same]
    simp [Stores.pair]
  · exact fun _ held => held.1
  · exact fun _ held => .of_unmarked held.1 held.2

theorem rollback_keeps {update : PendingProxyUpdate}
    (previous : pair = (update.previous, update.previousPassword)) :
    Triple (fun stores => Settles codec stores pair ∧ stores.snapshot = update.previous)
      (rollback update)
      ⟨fun _ stores => stores.marker = none ∧ stores.pair = pair,
        fun _ stores => Settles codec stores pair,
        fun stores => Settles codec stores pair⟩ := by
  rw [rollback, applySecretMutations_pair _ rfl]
  refine mutate_keeps ?_ ?_ ?_
  · rintro stores ⟨_, kept⟩
    refine ⟨marker_takeBack stores _, ?_⟩
    rw [previous]
    simp [Stores.pair, kept]
  · exact fun _ held => held.1
  · exact fun _ held => .of_unmarked held.1 held.2

theorem recoverPending_keeps :
    Triple (fun stores => Settles codec stores pair) (recoverPending codec)
      ⟨fun _ stores => stores.marker = none ∧ stores.pair = pair,
        fun _ stores => Settles codec stores pair,
        fun stores => Settles codec stores pair⟩ := by
  unfold recoverPending
  refine (readSecret_keeps pendingProxyUpdateKey).bind fun found => ?_
  cases found with
  | none =>
    refine pure ?_
    rintro stores ⟨settles, absent⟩
    cases settles with
    | unmarked => exact ⟨absent, rfl⟩
    | reached present | unreached present => cases absent.symm.trans present
  | some text =>
    dsimp only
    cases decoded : codec.decode text with
    | none => exact throw fun _ held => held.1
    | some update =>
      dsimp only
      split
      · exact throw fun _ held => held.1
      · have loading : Triple (fun stores => Settles codec stores pair ∧ stores.marker = some text)
            (context "loading proxy settings during recovery" loadUserConfig)
            ⟨fun row stores =>
              (Settles codec stores pair ∧ stores.marker = some text) ∧
                stores.userConfig = some row,
              fun _ stores => Settles codec stores pair,
              fun stores => Settles codec stores pair⟩ :=
          context_keeps <| (loadUserConfig_keeps fun stores held =>
            ⟨held.1.withRow, held.2⟩).leaving (fun _ held => held.1)
        refine loading.bind fun row => ?_
        split
        next written =>
          refine (context_keeps (finalize_keeps.of_stronger ?_)).bind fun _ =>
            pure fun _ => id
          rintro stores ⟨⟨settles, present⟩, loaded⟩
          have shown := snapshot_of_loaded loaded
          exact ⟨settles, settles.pair_of_reached present decoded (shown.trans written)⟩
        next unwritten =>
          split
          next kept =>
            by_cases previous : pair = (update.previous, update.previousPassword)
            · refine (context_keeps ((rollback_keeps previous).of_stronger ?_)).bind fun _ =>
                pure fun _ => id
              rintro stores ⟨⟨settles, _⟩, loaded⟩
              exact ⟨settles, (snapshot_of_loaded loaded).trans kept⟩
            · intro stores _ held
              obtain ⟨⟨settles, present⟩, loaded⟩ := held
              have shown := snapshot_of_loaded loaded
              exact absurd (settles.pair_of_unreached present decoded
                fun same => unwritten (shown.symm.trans same)).2 previous
          · exact throw fun _ held => held.1.1

end

section

variable {codec : MarkerCodec} {update : PendingProxyUpdate} {password : Option Str}

/-- The marker and the new password are in the vault; the configuration has the old proxy
settings or the candidate's. -/
structure Staged (codec : MarkerCodec) (update : PendingProxyUpdate) (password : Option Str)
    (stores : Stores) : Prop where
  present : stores.marker = some (codec.encode update)
  changed : stores.password = password
  snapshot : stores.snapshot = update.previous ∨ stores.snapshot = update.candidate

/-- The stores settle on what was there before the save or on what it asked
for. -/
def SettlesOnEither (codec : MarkerCodec) (old asked : ProxySettingsSnapshot × Option Str)
    (stores : Stores) : Prop :=
  Settles codec stores old ∨ Settles codec stores asked

/-- Wherever a part of `save` does not return, the stores settle on one of the two pairs. -/
abbrev saveExits {Value : Type} (codec : MarkerCodec)
    (old asked : ProxySettingsSnapshot × Option Str)
    (returned : Value → Stores → Prop) : Exits Stores ProxyError Value where
  returned := returned
  failed := fun _ => SettlesOnEither codec old asked
  crashed := SettlesOnEither codec old asked

namespace Staged

variable {stores : Stores}

theorem withRow (staged : Staged codec update password stores) :
    Staged codec update password stores.withRow :=
  { staged with }

section

variable (roundTrips : codec.RoundTrips) (current : update.version = proxyUpdateMarkerVersion)
  (staged : Staged codec update password stores)
include roundTrips current staged

theorem settles_of_written (written : stores.snapshot = update.candidate) :
    Settles codec stores (update.candidate, password) ∧
      stores.pair = (update.candidate, password) := by
  have pair : stores.pair = (update.candidate, password) := by
    rw [pair, written, staged.changed]
  have settles : Settles codec stores stores.pair :=
    .reached staged.present (roundTrips update) current written
  exact ⟨pair ▸ settles, pair⟩

theorem settles_of_unwritten (unwritten : stores.snapshot ≠ update.candidate) :
    Settles codec stores (update.previous, update.previousPassword) :=
  .unreached staged.present (roundTrips update) current unwritten
    (staged.snapshot.resolve_right unwritten)

theorem settlesOnEither :
    SettlesOnEither codec (update.previous, update.previousPassword)
      (update.candidate, password) stores := by
  by_cases written : stores.snapshot = update.candidate
  · exact .inr (staged.settles_of_written roundTrips current written).1
  · exact .inl (staged.settles_of_unwritten roundTrips current written)

end

end Staged

theorem finishCommit_keeps {asked : ProxySettingsSnapshot × Option Str}
    {never : ProxyError → Stores → Prop} :
    Triple (fun stores => Settles codec stores asked ∧ stores.pair = asked) finishCommit
      ⟨fun _ stores => Settles codec stores asked, never,
        fun stores => Settles codec stores asked⟩ := by
  have finalizing : Triple (fun stores => Settles codec stores asked ∧ stores.pair = asked)
      finalize.attempt
      ⟨fun _ stores => Settles codec stores asked, never,
        fun stores => Settles codec stores asked⟩ :=
    attempt <| finalize_keeps.returning (fun _ _ held => .of_unmarked held.1 held.2)
  refine finalizing.bind fun result => ?_
  cases result with
  | error | ok => exact pure fun _ => id

section

variable (roundTrips : codec.RoundTrips) (current : update.version = proxyUpdateMarkerVersion)

include roundTrips current

theorem reconcile_keeps (configError : ProxyError) :
    Triple (Staged codec update password) (reconcile update configError)
      (saveExits codec (update.previous, update.previousPassword) (update.candidate, password)
        fun _ stores => Settles codec stores (update.candidate, password)) := by
  unfold reconcile
  have loading : Triple (Staged codec update password) loadUserConfig.attempt
      (saveExits codec (update.previous, update.previousPassword) (update.candidate, password)
        fun result stores =>
          Staged codec update password stores ∧
            ∀ row, result = .ok row → stores.userConfig = some row) := by
    refine attempt ?_
    refine (loadUserConfig_keeps fun _ staged =>
      Staged.withRow staged).consequence (fun _ => id) ?_ ?_ ?_
    · rintro row stores ⟨staged, loaded⟩
      refine ⟨staged, ?_⟩
      rintro _ ⟨⟩
      exact loaded
    · intro error stores staged
      exact ⟨staged, fun row impossible => by cases impossible⟩
    · exact fun _ staged => staged.settlesOnEither roundTrips current
  refine loading.bind fun result => ?_
  cases result with
  | error => exact throw fun _ held => held.1.settlesOnEither roundTrips current
  | ok row =>
    dsimp only
    split
    next written =>
      refine finishCommit_keeps.consequence ?_ (fun _ _ => id)
        (fun _ _ => id) (fun _ => .inr)
      rintro stores ⟨staged, loaded⟩
      have shown := snapshot_of_loaded (loaded row rfl)
      exact staged.settles_of_written roundTrips current (shown.trans written)
    next unwritten =>
      split
      next kept =>
        have undoing : Triple (fun stores =>
          Staged codec update password stores ∧ ∀ found,
            (Except.ok row : Except ProxyError UserConfig) = .ok found →
              stores.userConfig = some found)
            (rollback update).attempt
            (saveExits codec (update.previous, update.previousPassword) (update.candidate, password)
              fun _ => SettlesOnEither codec (update.previous, update.previousPassword)
                (update.candidate, password)) := by
          refine attempt ?_
          refine (rollback_keeps rfl).consequence ?_
            (fun _ _ held => .inl (.of_unmarked held.1 held.2))
            (fun _ _ => .inl) (fun _ => .inl)
          rintro stores ⟨staged, loaded⟩
          have shown := snapshot_of_loaded (loaded row rfl)
          refine ⟨?_, shown.trans kept⟩
          exact staged.settles_of_unwritten roundTrips current
            fun same => unwritten (shown.symm.trans same)
        refine undoing.bind fun undone => ?_
        cases undone with
        | error | ok => exact throw fun _ => id
      · exact throw fun _ held => held.1.settlesOnEither roundTrips current

theorem commit_keeps {candidate : UserConfig} (asks : update.candidate = .from candidate) :
    Triple (Staged codec update password) (commit update candidate)
      (saveExits codec (update.previous, update.previousPassword) (update.candidate, password)
        fun _ stores => Settles codec stores (update.candidate, password)) := by
  unfold commit
  have written : ∀ stores, Staged codec update password stores →
      let saved := { stores with userConfig := some candidate.row }
      Staged codec update password saved ∧ saved.snapshot = update.candidate := by
    intro stores staged
    have shows : ({ stores with userConfig := some candidate.row } : Stores).snapshot =
        update.candidate := by
      rw [asks]
      rfl
    exact ⟨⟨staged.present, staged.changed, .inr shows⟩, shows⟩
  have writing : Triple (Staged codec update password) (saveUserConfig candidate).attempt
      (saveExits codec (update.previous, update.previousPassword) (update.candidate, password)
        fun result stores =>
          Staged codec update password stores ∧
            (result = .ok () → stores.snapshot = update.candidate)) := by
    refine attempt (Triple.call ?_ ?_ ?_ ?_ ?_)
    · exact fun stores staged => ⟨(written stores staged).1, fun _ => (written stores staged).2⟩
    · exact fun stores staged => ⟨staged, nofun⟩
    · exact fun stores staged => ⟨(written stores staged).1, nofun⟩
    · exact fun _ staged => staged.settlesOnEither roundTrips current
    · exact fun stores staged => (written stores staged).1.settlesOnEither roundTrips current
  refine writing.bind fun result => ?_
  cases result with
  | error configError =>
    exact (reconcile_keeps roundTrips current configError).of_stronger (fun _ held => held.1)
  | ok =>
    refine finishCommit_keeps.consequence ?_ (fun _ _ => id)
      (fun _ _ => id) (fun _ => .inr)
    rintro stores ⟨staged, saved⟩
    exact staged.settles_of_written roundTrips current (saved rfl)

end

/-- The old pair stands in the stores and no marker does. -/
structure Unmarked (old : ProxySettingsSnapshot × Option Str) (stores : Stores) : Prop where
  absent : stores.marker = none
  holds : stores.pair = old

theorem Unmarked.settlesOnEither {old asked : ProxySettingsSnapshot × Option Str} {stores : Stores}
    (unmarked : Unmarked old stores) : SettlesOnEither codec old asked stores :=
  .inl (.of_unmarked unmarked.absent unmarked.holds)

theorem stage_keeps {text : String} {previous candidate : UserConfig}
    {previousPassword : Option Str} (roundTrips : codec.RoundTrips) :
    Triple (fun stores =>
      Unmarked (.from previous, previousPassword) stores ∧ stores.userConfig = some previous)
      (context text (applySecretMutations [passwordMutation password,
        .set pendingProxyUpdateKey (codec.encode
          (updateMarker previous previousPassword candidate))]))
      (saveExits codec (.from previous, previousPassword) (.from candidate, password) fun _ =>
        Staged codec (updateMarker previous previousPassword candidate) password) := by
  rw [applySecretMutations_pair _ rfl]
  refine context_keeps (mutate_keeps ?_ ?_ ?_)
  · rintro stores ⟨_, loaded⟩
    refine ⟨marker_stage stores _ _, password_stage stores _ _, .inl ?_⟩
    rw [snapshot_mutate]
    exact snapshot_of_loaded loaded
  · exact fun _ held => held.1.settlesOnEither
  · exact fun _ staged => staged.settlesOnEither roundTrips rfl

theorem save_keeps (roundTrips : codec.RoundTrips) (candidate : UserConfig) (password : Option Str)
    (old : ProxySettingsSnapshot × Option Str) :
    Triple (fun stores => Settles codec stores old) (save codec candidate password)
      (saveExits codec old (.from candidate, password)
        fun _ stores => Settles codec stores (.from candidate, password)) := by
  unfold save
  have recovering : Triple (fun stores => Settles codec stores old)
      (context "recovering an earlier proxy settings update" (recoverPending codec))
      (saveExits codec old (.from candidate, password) fun _ => Unmarked old) :=
    context_keeps <| recoverPending_keeps.consequence (fun _ => id)
      (fun _ _ held => ⟨held.1, held.2⟩) (fun _ _ => .inl)
      (fun _ => .inl)
  have loading : Triple (Unmarked old) (context "loading previous proxy settings" loadUserConfig)
      (saveExits codec old (.from candidate, password) fun row stores =>
        Unmarked old stores ∧ stores.userConfig = some row) :=
    context_keeps <| (loadUserConfig_keeps fun _ held => ⟨held.absent, held.holds⟩).leaving
      (fun _ held => held.settlesOnEither)
  have reading (previous : UserConfig) : Triple (fun stores =>
    Unmarked old stores ∧ stores.userConfig = some previous)
      (context "loading previous proxy password" (readSecret proxyPasswordKey))
      (saveExits codec old (.from candidate, password) fun found stores =>
        (Unmarked old stores ∧ stores.userConfig = some previous) ∧ stores.password = found) :=
    (readSecret_keeps proxyPasswordKey).leaving (fun _ held => held.1.settlesOnEither)
  refine recovering.bind fun _ => ?_
  refine loading.bind fun previous => ?_
  refine (reading previous).bind fun previousPassword => ?_
  -- What was read is the old pair, so the marker names it.
  intro stores fates held
  obtain ⟨⟨unmarked, loaded⟩, read⟩ := held
  have before : old = (.from previous, previousPassword) := by
    rw [← unmarked.holds, pair, snapshot_of_loaded loaded, read]
  subst before
  exact (stage_keeps roundTrips).bind (fun _ => commit_keeps roundTrips rfl rfl)
    stores fates ⟨unmarked, loaded⟩

end

section

variable {codec : MarkerCodec} {pair : ProxySettingsSnapshot × Option Str} {stores : Stores}

def OthersWork (fates : Fates StoreCall) : Prop :=
  ∀ label, label ≠ .saveUserConfig → fates label = []

variable {fates : Fates StoreCall}

theorem OthersWork.run_call {Value : Type} {label : StoreCall} {effect : Stores → Value × Stores}
    (working : OthersWork fates) (other : label ≠ .saveUserConfig) :
    (Faulty.call label .store effect : Service Value) stores fates =
      .returned (effect stores).1 (effect stores).2 fates := by
  have usedUp := working label other
  rw [run_call_of_works (Fates.next_of_nil usedUp), Fates.spend_of_nil usedUp]

theorem OthersWork.run_context {Value : Type} {text : String}
    {label : StoreCall} {effect : Stores → Value × Stores} (working : OthersWork fates)
    (other : label ≠ .saveUserConfig) :
    context text (Faulty.call label .store effect : Service Value) stores fates =
      .returned (effect stores).1 (effect stores).2 fates :=
  run_mapError_of_returned (working.run_call other)

theorem recoverPending_returns (working : OthersWork fates) (settles : Settles codec stores pair) :
    ∃ outcome after, recoverPending codec stores fates = .returned outcome after fates := by
  unfold recoverPending readSecret
  rw [run_bind_of_returned (working.run_context (by decide))]
  dsimp only
  rw [loadUserConfig_eq, finalize_eq]
  cases settles with
  | unmarked absent =>
    change stores.secrets.lookup pendingProxyUpdateKey = none at absent
    rw [absent]
    exact ⟨_, _, rfl⟩
  | reached present decoded current written =>
    change stores.secrets.lookup pendingProxyUpdateKey = some _ at present
    change ProxySettingsSnapshot.from (stores.userConfig.getD .new) = _ at written
    simp only [present, decoded, current, ne_eq, not_true_eq_false, if_false]
    rw [run_bind_of_returned (working.run_context (by decide)), if_pos written,
      run_bind_of_returned (working.run_context (by decide))]
    exact ⟨_, _, rfl⟩
  | unreached present decoded current unwritten kept =>
    change stores.secrets.lookup pendingProxyUpdateKey = some _ at present
    change ¬ ProxySettingsSnapshot.from (stores.userConfig.getD .new) = _ at unwritten
    change ProxySettingsSnapshot.from (stores.userConfig.getD .new) = _ at kept
    simp only [present, decoded, current, ne_eq, not_true_eq_false, if_false]
    rw [run_bind_of_returned (working.run_context (by decide)),
      if_neg unwritten, if_pos kept, rollback, applySecretMutations_pair _ rfl,
      run_bind_of_returned (working.run_context (by decide))]
    exact ⟨_, _, rfl⟩

theorem othersWork_allWork : OthersWork .allWork := fun _ _ => rfl

theorem recoverPending_of_unmarked (absent : stores.marker = none) :
    recoverPending codec stores .allWork = .returned .noPendingUpdate stores .allWork := by
  change stores.secrets.lookup pendingProxyUpdateKey = none at absent
  unfold recoverPending readSecret
  rw [run_bind_of_returned (othersWork_allWork.run_context (by decide))]
  dsimp only
  rw [absent]
  rfl

/-- The stores after `recover_pending`, where they work. -/
def Stores.recovered (codec : MarkerCodec) (stores : Stores) : Stores :=
  (recoverPending codec stores .allWork).state

theorem recovered_of_settles (settles : Settles codec stores pair) :
    (recoverPending codec stores .allWork).hasReturned ∧
      Unmarked pair (stores.recovered codec) := by
  obtain ⟨_, _, returned⟩ := recoverPending_returns othersWork_allWork settles
  have met := recoverPending_keeps stores .allWork settles
  rw [returned] at met
  unfold recovered
  rw [returned]
  exact ⟨rfl, met.1, met.2⟩

end

/-- A call of the service with the fates of its store calls. -/
inductive ProxyCall where
  | save (candidate : UserConfig) (password : Option Str) (fates : Fates StoreCall)
  | recoverPending (fates : Fates StoreCall)

/-- What a call leaves in the stores, however it ends. -/
def ProxyCall.perform (codec : MarkerCodec) (stores : Stores) : ProxyCall → Stores
  | .save candidate password fates =>
    (NetworkProxy.save codec candidate password stores fates).state
  | .recoverPending fates => (NetworkProxy.recoverPending codec stores fates).state

def performAll (codec : MarkerCodec) (stores : Stores) (calls : List ProxyCall) : Stores :=
  calls.foldl (ProxyCall.perform codec) stores

section

variable {codec : MarkerCodec} {start : Stores}

theorem state_of_meets {Value : Type} {ending : Ending StoreCall Stores ProxyError Value}
    {exits : Exits Stores ProxyError Value} {holds : Stores → Prop} (met : ending.Meets exits)
    (returns : ∀ value stores, exits.returned value stores → holds stores)
    (fails : ∀ error stores, exits.failed error stores → holds stores)
    (crashes : ∀ stores, exits.crashed stores → holds stores) : holds ending.state := by
  cases ending with
  | returned value stores rest => exact returns value stores met
  | failed error stores rest => exact fails error stores met
  | crashed stores => exact crashes stores met

section

variable (roundTrips : codec.RoundTrips)
include roundTrips

theorem save_settles {old : ProxySettingsSnapshot × Option Str}
    (candidate : UserConfig) (password : Option Str) (fates : Fates StoreCall)
    (settles : Settles codec start old) : SettlesOnEither codec old (.from candidate, password)
      (save codec candidate password start fates).state :=
  state_of_meets (save_keeps roundTrips candidate password old start fates settles)
    (fun _ _ => .inr) (fun _ _ => id) (fun _ => id)

theorem save_settles_of_returned {old : ProxySettingsSnapshot × Option Str} {candidate : UserConfig}
    {password : Option Str} {fates : Fates StoreCall} (settles : Settles codec start old)
    (returned : (save codec candidate password start fates).hasReturned) :
    Settles codec (save codec candidate password start fates).state
      (.from candidate, password) := by
  have met := save_keeps roundTrips candidate password old start fates settles
  cases ended : save codec candidate password start fates with
  | returned _ after rest =>
    rw [ended] at met
    exact met
  | failed _ after rest | crashed after =>
    rw [ended] at returned
    cases returned

theorem perform_settles (settles : ∃ pair, Settles codec start pair)
    (call : ProxyCall) : ∃ pair, Settles codec (call.perform codec start) pair := by
  obtain ⟨pair, settles⟩ := settles
  cases call with
  | save candidate password fates =>
    rcases save_settles roundTrips candidate password fates settles with
      kept | replaced
    · exact ⟨_, kept⟩
    · exact ⟨_, replaced⟩
  | recoverPending fates =>
    refine ⟨pair, ?_⟩
    exact state_of_meets (recoverPending_keeps start fates settles)
      (fun _ _ held => .of_unmarked held.1 held.2) (fun _ _ => id)
      (fun _ => id)

theorem performAll_settles (settles : ∃ pair, Settles codec start pair) (calls : List ProxyCall) :
    ∃ pair, Settles codec (performAll codec start calls) pair := by
  induction calls generalizing start with
  | nil => exact settles
  | cons call _ ih => exact ih (perform_settles roundTrips settles call)

end

/-- After any faulty calls, recovery leaves the pair from before a save or that of the save,
and no marker. -/
theorem save_is_all_or_nothing (codec : MarkerCodec) (roundTrips : codec.RoundTrips)
    (start : Stores) (absent : start.marker = none) (calls : List ProxyCall)
    (candidate : UserConfig) (password : Option Str) (fates : Fates StoreCall) :
    let before := performAll codec start calls
    let ending := save codec candidate password before fates
    let after := ending.state.recovered codec
    (recoverPending codec ending.state .allWork).hasReturned ∧
      (after.pair = (before.recovered codec).pair ∨ after.pair = (.from candidate, password)) ∧
      (before.marker = none → (before.recovered codec).pair = before.pair) ∧
      (ending.hasReturned → after.pair = (.from candidate, password)) ∧
      after.marker = none ∧
      recoverPending codec after .allWork = .returned .noPendingUpdate after .allWork := by
  intro before ending after
  obtain ⟨old, settles⟩ := performAll_settles roundTrips ⟨_, .unmarked absent⟩ calls
  have recoveredBefore := (recovered_of_settles settles).2
  have settled : ∃ pair, Settles codec ending.state pair ∧
      (pair = old ∨ pair = (.from candidate, password)) := by
    rcases save_settles roundTrips candidate password fates settles with
      kept | replaced
    · exact ⟨old, kept, .inl rfl⟩
    · exact ⟨_, replaced, .inr rfl⟩
  obtain ⟨pair, endSettles, which⟩ := settled
  have recoveredAfter := recovered_of_settles endSettles
  refine ⟨recoveredAfter.1, ?_, ?_, ?_, recoveredAfter.2.absent,
    recoverPending_of_unmarked recoveredAfter.2.absent⟩
  · rw [recoveredBefore.holds, recoveredAfter.2.holds]
    exact which
  · intro unmarked
    rw [recovered, recoverPending_of_unmarked unmarked]
    rfl
  · intro returned
    exact (recovered_of_settles (save_settles_of_returned roundTrips settles returned)).2.holds

def proxiedConfig : UserConfig :=
  { UserConfig.new with
    socks5Enabled := true
    socks5Address := some "127.0.0.1:9050".toList }

/-- The process ends while the second of two saves writes the configuration; the
first could not remove its marker. -/
theorem save_is_all_or_nothing_at_crash :
    let start : Stores := ⟨some .new, ∅⟩
    let first : Fates StoreCall :=
      Function.update Fates.allWork .applySecretMutations [.works, .fails]
    let second : Fates StoreCall :=
      Function.update Fates.allWork .saveUserConfig [.crashesAfterEffect]
    let before := performAll .json start [.save proxiedConfig none first]
    let ending := save .json .new (some "secret".toList) before second
    let after := ending.state.recovered .json
    start.marker = none ∧ (recoverPending .json ending.state .allWork).hasReturned ∧
      (after.pair = (before.recovered .json).pair ∨
        after.pair = (.from .new, some "secret".toList)) ∧
      after.marker = none := by
  intro start first second before ending after
  obtain ⟨returned, pair, _, _, unmarked, _⟩ :=
    save_is_all_or_nothing .json MarkerCodec.json_roundTrips start rfl
      [.save proxiedConfig none first] .new (some "secret".toList) second
  exact ⟨rfl, returned, pair, unmarked⟩

end

end Arclain.NetworkProxy
