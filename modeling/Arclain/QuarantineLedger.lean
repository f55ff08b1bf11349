import Arclain.Fallible
import Arclain.KeyedMap

namespace Arclain.Plugins

open AList

/-!
# The quarantine ledger

`QuarantineLedger` of the plugin host.  A violation of a resource limit is noted
for the running process, and a failed retry is counted in a record that is
written to disk.  Every operation but `restore` leaves the ledger as it was when
it fails.
-/

structure PackageFingerprint where
  digest : String
  deriving DecidableEq

/-- `PluginError`, as far as this repository raises or inspects it. -/
inductive PluginError where
  | notFound (pluginId : String)
  | unavailable (message : String)
  | conflict (message : String)
  | loadError (message : String)
  | invalidManifest (message : String)
  | io (message : String)
  | resourceLimit (reason : String)
  | other (message : String)

def maxLedgerRecords : Nat := 1024

def maxReasonBytes : Nat := 256

def maxFailedRetries : Nat := 3

structure QuarantineRecord where
  failedRetries : Nat
  lastReason : String
  deriving DecidableEq

inductive QuarantineState where
  | clear
  | retryable (record : QuarantineRecord)
  | persistentlyDisabled (record : QuarantineRecord)

structure QuarantineSnapshot where
  persisted : Option QuarantineRecord
  runtimeReason : Option String

/-- The records of a ledger, by fingerprint. -/
abbrev Records := KeyedMap PackageFingerprint QuarantineRecord

/-- The state of a ledger, with the records its file holds. -/
structure QuarantineLedger where
  persisted : Records
  runtimeViolations : KeyedMap PackageFingerprint String
  durable : Records

def invalidLedger : PluginError := .loadError "plugin quarantine ledger is invalid"

def validateReason (reason : String) : Except PluginError Unit :=
  if reason.isEmpty ∨ maxReasonBytes < reason.utf8ByteSize then .error invalidLedger
  else .ok ()

/-- A record that `validate_records` accepts. -/
def QuarantineRecord.isValid (record : QuarantineRecord) : Bool :=
  1 ≤ record.failedRetries && record.failedRetries ≤ maxFailedRetries &&
    (validateReason record.lastReason).isOk

/-- `validate_records`.  A key is a fingerprint already, so it parses. -/
def validateRecords (records : Records) : Except PluginError Unit :=
  if maxLedgerRecords < records.entries.length ∨
    ¬ records.entries.all fun entry => entry.2.isValid then
    .error invalidLedger
  else .ok ()

namespace QuarantineLedger

/-- `QuarantineLedger::open` on a file that could be read. -/
def reopen (durable : Records) : QuarantineLedger where
  persisted := durable
  runtimeViolations := ∅
  durable := durable

section

variable (ledger : QuarantineLedger)

def state (fingerprint : PackageFingerprint) : QuarantineState :=
  let classify (record : QuarantineRecord) : QuarantineState :=
    if maxFailedRetries ≤ record.failedRetries then .persistentlyDisabled record
    else .retryable record
  match ledger.persisted.lookup fingerprint, ledger.runtimeViolations.lookup fingerprint with
  | some record, some reason => classify { record with lastReason := reason }
  | some record, none => classify record
  | none, some reason => classify ⟨0, reason⟩
  | none, none => .clear

def hasRuntimeViolation (fingerprint : PackageFingerprint) : Bool :=
  (ledger.runtimeViolations.lookup fingerprint).isSome

/-- The ledger is in `PersistentlyDisabled` for the package. -/
def isPersistentlyDisabled (fingerprint : PackageFingerprint) : Bool :=
  match ledger.state fingerprint with
  | .persistentlyDisabled _ => true
  | _ => false

/-- `write_records`. The file is replaced as a whole; `written` answers for all that may
fail. -/
def writeRecords (records : Records)
    (written : Except PluginError Unit) : Except PluginError QuarantineLedger := do
  validateRecords records
  written
  return { ledger with durable := records }

def recordInitialViolation (fingerprint : PackageFingerprint)
    (reason : String) : Except PluginError QuarantineLedger := do
  validateReason reason
  return { ledger with
    runtimeViolations := ledger.runtimeViolations.insert fingerprint reason }

def failedRetry (fingerprint : PackageFingerprint)
    (reason : String) : QuarantineRecord where
  failedRetries :=
    match ledger.persisted.lookup fingerprint with
    | some record => min (record.failedRetries + 1) maxFailedRetries
    | none => min 1 maxFailedRetries
  lastReason := reason

def recordFailedRetry (fingerprint : PackageFingerprint)
    (reason : String)
    (written : Except PluginError Unit) : Except PluginError QuarantineLedger := do
  validateReason reason
  let next := ledger.persisted.insert fingerprint (ledger.failedRetry fingerprint reason)
  let ledger ← ledger.writeRecords next written
  return { ledger with
    persisted := next
    runtimeViolations := ledger.runtimeViolations.insert fingerprint reason }

def clearRuntimeViolation (fingerprint : PackageFingerprint) : QuarantineLedger :=
  { ledger with
    runtimeViolations := ledger.runtimeViolations.erase fingerprint }

/-- What `remove` hands back for a later `restore`. -/
def snapshot (fingerprint : PackageFingerprint) : QuarantineSnapshot where
  persisted := ledger.persisted.lookup fingerprint
  runtimeReason := ledger.runtimeViolations.lookup fingerprint

/-- `remove`, which writes only when there is a record to drop. -/
def remove (fingerprint : PackageFingerprint)
    (written : Except PluginError Unit) : Except PluginError QuarantineLedger := do
  if (ledger.persisted.lookup fingerprint).isSome then
    let next := ledger.persisted.erase fingerprint
    let ledger ← ledger.writeRecords next written
    return { ledger with persisted := next }.clearRuntimeViolation fingerprint
  else return ledger.clearRuntimeViolation fingerprint

end

def putBack {Value : Type} (map : KeyedMap PackageFingerprint Value)
    (fingerprint : PackageFingerprint) : Option Value → KeyedMap PackageFingerprint Value
  | some value => map.insert fingerprint value
  | none => map.erase fingerprint

/-- `restore`, which puts the running process right before it writes. -/
def restore (ledger : QuarantineLedger) (fingerprint : PackageFingerprint)
    (snapshot : QuarantineSnapshot) (written : Except PluginError Unit) :
    Except PluginError Unit × QuarantineLedger :=
  let next := putBack ledger.persisted fingerprint snapshot.persisted
  let restored := { ledger with
    persisted := next
    runtimeViolations := putBack ledger.runtimeViolations fingerprint snapshot.runtimeReason }
  if next.lookup fingerprint = ledger.persisted.lookup fingerprint then
    (.ok (), { restored with persisted := ledger.persisted })
  else
    match restored.writeRecords next written with
    | .ok ledger => (.ok (), ledger)
    | .error error => (.error error, restored)

variable {ledger after : QuarantineLedger} {written : Except PluginError Unit}

theorem writeRecords_eq_ok {records : Records}
    (done : ledger.writeRecords records written = .ok after) :
    after = { ledger with durable := records } := by
  obtain ⟨_, _, done⟩ := Fallible.bind_eq_ok.mp done
  obtain ⟨_, _, done⟩ := Fallible.bind_eq_ok.mp done
  exact (Except.ok.inj done).symm

variable {fingerprint : PackageFingerprint}

theorem remove_eq_ok (done : ledger.remove fingerprint written = .ok after) :
    (∀ other, after.persisted.lookup other =
      if other = fingerprint then none else ledger.persisted.lookup other) ∧
      after.runtimeViolations = ledger.runtimeViolations.erase fingerprint ∧
      (ledger.durable = ledger.persisted → after.durable = after.persisted) := by
  unfold remove at done
  split at done
  · obtain ⟨_, isStored, done⟩ := Fallible.bind_eq_ok.mp done
    obtain rfl := writeRecords_eq_ok isStored
    obtain rfl := Except.ok.inj done
    exact ⟨fun _ => KeyedMap.lookup_erase_ite _ _ _, rfl, fun _ => rfl⟩
  next absent =>
    obtain rfl := Except.ok.inj done
    refine ⟨fun other => ?_, rfl, id⟩
    split
    next same =>
      rw [same]
      simpa [clearRuntimeViolation] using absent
    · rfl

theorem isPersistentlyDisabled_eq (ledger : QuarantineLedger) (fingerprint : PackageFingerprint) :
    ledger.isPersistentlyDisabled fingerprint =
      (ledger.persisted.lookup fingerprint).any fun record =>
        maxFailedRetries ≤ record.failedRetries := by
  unfold isPersistentlyDisabled state
  cases ledger.persisted.lookup fingerprint with
  | none =>
    cases ledger.runtimeViolations.lookup fingerprint with
    | none | some reason => rfl
  | some record =>
    cases ledger.runtimeViolations.lookup fingerprint with
    | none | some reason =>
      by_cases many : maxFailedRetries ≤ record.failedRetries
      · simp [many]
      · simp [many]

/-- The ledger keeps a package from being loaded: its limit was exceeded in this
process, or it is persistently disabled. -/
def blocks (ledger : QuarantineLedger) (fingerprint : PackageFingerprint) : Bool :=
  ledger.hasRuntimeViolation fingerprint || ledger.isPersistentlyDisabled fingerprint

def AgreesOn (ledger other : QuarantineLedger) (fingerprint : PackageFingerprint) : Prop :=
  other.hasRuntimeViolation fingerprint = ledger.hasRuntimeViolation fingerprint ∧
    other.isPersistentlyDisabled fingerprint = ledger.isPersistentlyDisabled fingerprint

theorem agreesOn_of_lookup {ledger other : QuarantineLedger} (persisted :
    other.persisted.lookup fingerprint = ledger.persisted.lookup fingerprint)
    (runtimeViolations : other.runtimeViolations.lookup fingerprint =
      ledger.runtimeViolations.lookup fingerprint) :
    ledger.AgreesOn other fingerprint := by
  constructor
  · simp [hasRuntimeViolation, runtimeViolations]
  · simp [isPersistentlyDisabled_eq, persisted]

variable {reason : String}

theorem recordInitialViolation_spec
    (recorded : ledger.recordInitialViolation fingerprint reason = .ok after) :
    after.hasRuntimeViolation fingerprint = true ∧
      ∀ other, other ≠ fingerprint → ledger.AgreesOn after other := by
  obtain ⟨_, _, recorded⟩ := Fallible.bind_eq_ok.mp recorded
  obtain rfl := Except.ok.inj recorded
  refine ⟨by simp [hasRuntimeViolation], fun other different => ?_⟩
  exact agreesOn_of_lookup rfl (lookup_insert_ne different)

theorem recordFailedRetry_spec (recorded :
    ledger.recordFailedRetry fingerprint reason written = .ok after) :
    after.hasRuntimeViolation fingerprint = true ∧
      ∀ other, other ≠ fingerprint → ledger.AgreesOn after other := by
  obtain ⟨_, _, recorded⟩ := Fallible.bind_eq_ok.mp recorded
  obtain ⟨_, isStored, recorded⟩ := Fallible.bind_eq_ok.mp recorded
  obtain rfl := writeRecords_eq_ok isStored
  obtain rfl := Except.ok.inj recorded
  refine ⟨by simp [hasRuntimeViolation], fun other different => ?_⟩
  exact agreesOn_of_lookup (lookup_insert_ne different) (lookup_insert_ne different)

theorem clearRuntimeViolation_spec (ledger : QuarantineLedger) (fingerprint : PackageFingerprint) :
    (∀ other, (ledger.clearRuntimeViolation fingerprint).isPersistentlyDisabled other =
      ledger.isPersistentlyDisabled other) ∧ ∀ other, other ≠ fingerprint →
        ledger.AgreesOn (ledger.clearRuntimeViolation fingerprint) other := by
  refine ⟨fun other => ?_, fun other different => ?_⟩
  · simp [isPersistentlyDisabled_eq, clearRuntimeViolation]
  · exact agreesOn_of_lookup rfl (lookup_erase_ne different)

theorem remove_spec (done : ledger.remove fingerprint written = .ok after) :
    after.isPersistentlyDisabled fingerprint = false ∧
      ∀ other, other ≠ fingerprint → ledger.AgreesOn after other := by
  obtain ⟨persisted, violations, _⟩ := remove_eq_ok done
  refine ⟨?_, fun other different => ?_⟩
  · simp [isPersistentlyDisabled_eq, persisted]
  · refine agreesOn_of_lookup (by simp [persisted, different]) ?_
    rw [violations]
    exact lookup_erase_ne different

theorem lookup_putBack {Value : Type} (map : KeyedMap PackageFingerprint Value)
    (fingerprint other : PackageFingerprint) (saved : Option Value) :
    (putBack map fingerprint saved).lookup other =
      if other = fingerprint then saved else map.lookup other := by
  cases saved with
  | none => exact KeyedMap.lookup_erase_ite map fingerprint other
  | some value => exact KeyedMap.lookup_insert_ite map fingerprint other value

theorem restore_spec (ledger : QuarantineLedger) (fingerprint : PackageFingerprint)
    (snapshot : QuarantineSnapshot) (written : Except PluginError Unit)
    (other : PackageFingerprint) :
    (ledger.restore fingerprint snapshot written).2.persisted.lookup other =
      (if other = fingerprint then snapshot.persisted else ledger.persisted.lookup other) ∧
      (ledger.restore fingerprint snapshot written).2.runtimeViolations.lookup other =
        if other = fingerprint then snapshot.runtimeReason
          else ledger.runtimeViolations.lookup other := by
  have persisted := lookup_putBack ledger.persisted fingerprint other snapshot.persisted
  have violations :=
    lookup_putBack ledger.runtimeViolations fingerprint other snapshot.runtimeReason
  have atKey := lookup_putBack ledger.persisted fingerprint fingerprint snapshot.persisted
  rw [if_pos rfl] at atKey
  unfold restore
  dsimp only
  split
  next unchanged =>
    refine ⟨?_, violations⟩
    rw [atKey] at unchanged
    split
    next same => rw [same, unchanged]
    · rfl
  · split
    next isStored =>
      obtain rfl := writeRecords_eq_ok isStored
      exact ⟨persisted, violations⟩
    · exact ⟨persisted, violations⟩

theorem restore_after_remove {ledger cleared : QuarantineLedger} {removed : Except PluginError Unit}
    (done : ledger.remove fingerprint removed = .ok cleared) (written : Except PluginError Unit)
    (other : PackageFingerprint) :
    ledger.AgreesOn (cleared.restore fingerprint (ledger.snapshot fingerprint) written).2
      other := by
  obtain ⟨persisted, violations, _⟩ := remove_eq_ok done
  obtain ⟨putBack, putBackViolation⟩ :=
    cleared.restore_spec fingerprint (ledger.snapshot fingerprint) written other
  refine agreesOn_of_lookup ?_ ?_
  · rw [putBack, persisted]
    by_cases same : other = fingerprint
    · rw [if_pos same, same]
      rfl
    · simp [same]
  · rw [putBackViolation, violations]
    by_cases same : other = fingerprint
    · rw [if_pos same, same]
      rfl
    · simp [same, lookup_erase_ne same]

end QuarantineLedger

end Arclain.Plugins
