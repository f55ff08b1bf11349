import Arclain.DomainWhitelist
import Arclain.OperationEvent

namespace Arclain.DomainApprovals

/-!
# Approving and revoking the domains of a plugin

A decision of the user is written to the database and then taken over into the live
whitelist.  Meanwhile plugins ask for domains, and loading one replaces what its manifest
grants.
-/

open List Network Text DomainWhitelist DomainLayer

/-- The rows of `domain_whitelist`, and which of them are approved. -/
abbrev ApprovalTable := KeyedMap (Str × Str) Bool

namespace ApprovalTable

section

variable (table : ApprovalTable) (pluginId domain : Str)

def approveDomain : ApprovalTable :=
  table.insert (pluginId, domain) true

def revokeDomain : ApprovalTable :=
  match table.lookup (pluginId, domain) with
  | some _ => table.insert (pluginId, domain) false
  | none => table

def Approves : Prop :=
  table.lookup (pluginId, domain) = some true

end

end ApprovalTable

/-- The live whitelist and the persisted one. -/
structure Approvals where
  whitelist : DomainWhitelist
  table : ApprovalTable

/-- What becomes of the write. A write that fails may have landed all the same. -/
inductive WriteOutcome where
  | saved
  | refused (reason : String) (landed : Bool)
  | panicked (reason : String) (landed : Bool)

/-- The row is written although the write reports a failure. -/
def WriteOutcome.LandsUnreported : WriteOutcome → Prop
  | .saved => False
  | .refused _ landed | .panicked _ landed => landed = true

structure Services where
  hasConfigService : Bool
  running : Bool
  write : WriteOutcome

def settingsUnavailableError : ApplicationError :=
  ({ kind := .unsupported
     summary := "settings storage is unavailable: no configuration database is configured" } :
    ApplicationError).withRecoverability .fatal

def shutdownMidRequestError : ApplicationError :=
  ({ kind := .internal
     summary := "application is shutting down" } :
    ApplicationError).withRecoverability .fatal

def internalJoinError (reason : String) : ApplicationError where
  kind := .internal
  summary := "internal task failed"
  diagnostic := some reason

def persistenceError (context reason : String) : ApplicationError :=
  ({ kind := .persistence
     summary := "failed to persist settings"
     diagnostic := some (context ++ ": " ++ reason) } :
    ApplicationError).withRecoverability .retry

def emptyArgumentError (field summary : String) : ApplicationError :=
  { ({ kind := .invalidInput
       summary := summary } : ApplicationError).withRecoverability .fatal with
    field := some field }

def notRequestedError (pluginId domain : Str) : ApplicationError :=
  { ({ kind := .notFound
       summary := "plugin domain request not found"
       diagnostic :=
         some ("plugin '" ++ String.ofList pluginId ++ "', domain '" ++
           String.ofList domain ++ "'") } :
      ApplicationError).withRecoverability .userAction with
    field := some "domain" }

def settledPluginId (pluginId : Str) : Str := trim pluginId

def settledDomain (domain : Str) : Str := toAsciiLowercase (trim domain)

def ApprovalTable.decide (table : ApprovalTable) (pluginId domain : Str)
    (approved : Bool) : ApprovalTable :=
  if approved then table.approveDomain pluginId domain
  else table.revokeDomain pluginId domain

/-- The early returns of a call, once its arguments are settled. -/
def refusal (whitelist : DomainWhitelist) (pluginId domain : Str)
    (services : Services) : Option ApplicationError :=
  if pluginId = [] then some (emptyArgumentError "plugin_id" "plugin id must not be empty")
  else if domain = [] then some (emptyArgumentError "domain" "domain must not be empty")
  else if ¬ whitelist.getAllEntries.any fun entry =>
    entry.pluginId = pluginId ∧ entry.domain = domain then
    some (notRequestedError pluginId domain)
  else if ¬ services.hasConfigService then some settingsUnavailableError
  else if ¬ services.running then some shutdownMidRequestError
  else none

def Requested (whitelist : DomainWhitelist) (pluginId domain : Str) : Prop :=
  ∃ entry ∈ whitelist.getAllEntries, entry.pluginId = pluginId ∧ entry.domain = domain

variable {pluginId domain : Str}

theorem requested_of_not_refused {whitelist : DomainWhitelist}
    {services : Services} (notRefused : refusal whitelist pluginId domain services = none) :
    Requested whitelist pluginId domain := by
  by_contra unasked
  have noEntry : ¬ (whitelist.getAllEntries.any fun entry =>
    entry.pluginId = pluginId ∧ entry.domain = domain) = true := by
    intro found
    obtain ⟨entry, mem, same⟩ := any_eq_true.mp found
    exact unasked ⟨entry, mem, of_decide_eq_true same⟩
  rw [refusal, if_pos noEntry] at notRefused
  split at notRefused
  · cases notRefused
  · split at notRefused <;> cases notRefused

def ApprovalTable.decideIf (table : ApprovalTable) (landed : Bool) (pluginId domain : Str)
    (approved : Bool) : ApprovalTable :=
  if landed then table.decide pluginId domain approved else table

variable {table : ApprovalTable}

theorem decideIf_eq_or {approved landed : Bool} :
    table.decideIf landed pluginId domain approved = table ∨ landed = true := by
  cases landed with
  | false => exact .inl rfl
  | true => exact .inr rfl

theorem approves_decide {pluginId domain plugin other : Str}
    {approved : Bool} : (table.decide pluginId domain approved).Approves plugin other ↔
      if plugin = pluginId ∧ other = domain then approved = true
      else
        table.Approves plugin other := by
  have pair : (plugin, other) = (pluginId, domain) ↔ plugin = pluginId ∧ other = domain :=
    Prod.mk.injEq .. ▸ Iff.rfl
  cases approved with
  | true =>
    simp only [ApprovalTable.decide, ↓reduceIte, ApprovalTable.approveDomain,
      ApprovalTable.Approves, KeyedMap.lookup_insert_ite, pair]
    split <;> simp_all
  | false =>
    simp only [ApprovalTable.decide, Bool.false_eq_true, ↓reduceIte,
      ApprovalTable.revokeDomain, ApprovalTable.Approves]
    cases found : table.lookup (pluginId, domain) with
    | none =>
      by_cases same : plugin = pluginId ∧ other = domain
      · obtain ⟨rfl, rfl⟩ := same
        simp [found]
      · simp [same]
    | some =>
      simp only [KeyedMap.lookup_insert_ite, pair]
      split <;> simp_all

/-- What the calls that succeeded say about revocations. -/
def noted (revoked : List (Str × Str)) (pluginId domain : Str)
    (approved : Bool) : List (Str × Str) :=
  if approved then
    revoked.filter fun (otherPlugin, otherDomain) =>
      ¬ (settledPluginId otherPlugin = settledPluginId pluginId ∧
        settledDomain otherDomain = settledDomain domain)
  else (pluginId, domain) :: revoked

variable {revoked : List (Str × Str)} {pair : Str × Str}

theorem mem_noted_approved : pair ∈ noted revoked pluginId domain true ↔ pair ∈ revoked ∧
    ¬ (settledPluginId pair.1 = settledPluginId pluginId ∧
      settledDomain pair.2 = settledDomain domain) := by
  simp [noted, imp_iff_not_or]

theorem mem_noted_revoked :
    pair ∈ noted revoked pluginId domain false ↔ pair = (pluginId, domain) ∨ pair ∈ revoked := by
  simp [noted]

section

variable [CharTables]

def liveDecision (whitelist : DomainWhitelist) (pluginId domain : Str)
    (approved : Bool) : DomainWhitelist :=
  if approved then whitelist.approve pluginId domain
  else (whitelist.revoke pluginId domain).addPending pluginId domain

/-- `run_set_plugin_domain_approved`. -/
def setPluginDomainApproved (approvals : Approvals) (pluginId domain : Str) (approved : Bool)
    (services : Services) : Except ApplicationError Unit × Approvals :=
  let pluginId := settledPluginId pluginId
  let domain := settledDomain domain
  match refusal approvals.whitelist pluginId domain services with
  | some error => (.error error, approvals)
  | none =>
    match services.write with
    | .saved =>
      (.ok (),
        { whitelist := liveDecision approvals.whitelist pluginId domain approved
          table := approvals.table.decide pluginId domain approved })
    | .refused reason landed =>
      (.error (persistenceError "saving plugin domain approval" reason),
        { approvals with
          table := approvals.table.decideIf landed pluginId domain approved })
    | .panicked reason landed =>
      (.error (internalJoinError reason),
        { approvals with
          table := approvals.table.decideIf landed pluginId domain approved })

inductive Step where
  | decide (pluginId domain : Str) (approved : Bool) (services : Services)
  /-- A plugin is loaded or reloaded. -/
  | replaceManifest (pluginId : Str) (domains : List Str)
  /-- A plugin is unloaded. -/
  | clearManifest (pluginId : Str)
  /-- A request of a plugin checks its host. -/
  | request (pluginId host : Str)

/-- A run as it is watched: the state, and the domains that were revoked and not approved
since, as the calls named them. -/
structure Watched where
  approvals : Approvals
  revoked : List (Str × Str)

/-- The whitelist after a host was checked for a request: a host that is unknown
becomes pending. -/
def checkedForRequest (whitelist : DomainWhitelist) (pluginId host : Str) : DomainWhitelist :=
  match whitelist.check pluginId host with
  | .notWhitelisted => whitelist.addPending pluginId host
  | _ => whitelist

def step (watched : Watched) : Step → Watched
  | .decide pluginId domain approved services =>
    let (result, approvals) :=
      setPluginDomainApproved watched.approvals pluginId domain approved services
    { approvals
      revoked :=
        match result with
        | .ok () => noted watched.revoked pluginId domain approved
        | .error _ => watched.revoked }
  | .replaceManifest pluginId domains =>
    { watched with
      approvals.whitelist := watched.approvals.whitelist.replaceManifestDomains pluginId domains }
  | .clearManifest pluginId =>
    { watched with
      approvals.whitelist := watched.approvals.whitelist.clearManifestDomains pluginId }
  | .request pluginId host =>
    { watched with
      approvals.whitelist := checkedForRequest watched.approvals.whitelist pluginId host }

def run (watched : Watched) (steps : List Step) : Watched := steps.foldl step watched

def Watched.start (approvals : Approvals) : Watched where
  approvals
  revoked := []

def ManifestGrants (whitelist : DomainWhitelist) (pluginId domain : Str) : Prop :=
  domain ∈ whitelist.manifestApproved.domains pluginId

/-- The step neither revokes what the manifest grants, nor lets it grant what is revoked,
nor writes a row silently. -/
def Meets (watched : Watched) : Step → Prop
  | .decide pluginId domain approved services =>
    ¬ services.write.LandsUnreported ∧
    (approved = false → services.write = .saved → ¬ ManifestGrants watched.approvals.whitelist
      (settledPluginId pluginId) (settledDomain domain))
  | .replaceManifest pluginId domains =>
    ∀ revoked ∈ watched.revoked, settledPluginId revoked.1 = pluginId →
      normalizeDomain revoked.2 ∉
        domains.map normalizeDomain
  | .clearManifest _ | .request _ _ => True

def AllMeet : Watched → List Step → Prop
  | _, [] => True
  | watched, next :: rest => Meets watched next ∧ AllMeet (step watched next) rest

/-- A whitelist holds its domains in normal form. -/
structure Normal (whitelist : DomainWhitelist) : Prop where
  approved : ∀ {pluginId domain : Str},
    domain ∈ whitelist.approved.domains pluginId → normalizeDomain domain = domain
  manifestApproved : ∀ {pluginId domain : Str},
    domain ∈ whitelist.manifestApproved.domains pluginId →
    normalizeDomain domain = domain
  pending : ∀ {pluginId domain : Str},
    domain ∈ whitelist.pending.domains pluginId → normalizeDomain domain = domain

/-- The layer of the user is what the database approves. -/
def Agrees (approvals : Approvals) : Prop :=
  ∀ pluginId domain : Str,
    domain ∈ approvals.whitelist.approved.domains pluginId ↔
      approvals.table.Approves pluginId domain

structure Sound (watched : Watched) : Prop where
  normal : Normal watched.approvals.whitelist
  agrees : Agrees watched.approvals
  denied : ∀ revoked ∈ watched.revoked,
    watched.approvals.whitelist.check (settledPluginId revoked.1) revoked.2 ≠ .allowed
  /-- What was revoked was named in normal form. -/
  settled : ∀ revoked ∈ watched.revoked,
    settledDomain revoked.2 = normalizeDomain revoked.2

theorem setPluginDomainApproved_cases (approvals : Approvals) (pluginId domain : Str)
    (approved : Bool) (services : Services) :
    (∃ error after, setPluginDomainApproved approvals pluginId domain approved services =
      (.error error, after) ∧ after.whitelist = approvals.whitelist ∧
        (after.table = approvals.table ∨ services.write.LandsUnreported)) ∨
      (services.write = .saved ∧ Requested approvals.whitelist (settledPluginId pluginId)
        (settledDomain domain) ∧
        setPluginDomainApproved approvals pluginId domain approved services = (.ok (),
          { whitelist :=
              liveDecision approvals.whitelist (settledPluginId pluginId)
                (settledDomain domain) approved
            table :=
              approvals.table.decide (settledPluginId pluginId)
                (settledDomain domain) approved })) := by
  rw [setPluginDomainApproved]
  cases refused : refusal approvals.whitelist (settledPluginId pluginId)
    (settledDomain domain) services with
  | some error => exact .inl ⟨error, approvals, rfl, rfl, .inl rfl⟩
  | none =>
    cases write : services.write with
    | saved => exact .inr ⟨rfl, requested_of_not_refused refused, rfl⟩
    | refused reason landed | panicked reason landed => exact .inl ⟨_, _, rfl, rfl, decideIf_eq_or⟩

theorem mem_approved_liveDecision {whitelist : DomainWhitelist} {pluginId domain plugin other : Str}
    {approved : Bool} (normal : normalizeDomain domain = domain) :
    other ∈ (liveDecision whitelist pluginId domain approved).approved.domains plugin ↔
      if plugin = pluginId ∧ other = domain then approved = true
      else
        other ∈ whitelist.approved.domains plugin := by
  cases approved with
  | true =>
    simp only [liveDecision, ↓reduceIte, approve, normal,
      DomainLayer.mem_domains_add]
    split <;> simp_all
  | false =>
    simp only [liveDecision, Bool.false_eq_true, ↓reduceIte,
      addPending, revoke, normal, DomainLayer.mem_domains_remove]
    split <;> simp_all

@[simp] theorem manifestApproved_liveDecision (whitelist : DomainWhitelist) (pluginId domain : Str)
    (approved : Bool) : (liveDecision whitelist pluginId domain approved).manifestApproved =
      whitelist.manifestApproved := by
  cases approved <;> rfl

section

variable (laws : LowercaseLaws)

include laws

theorem normalizeDomain_idem (domain : Str) :
    normalizeDomain (normalizeDomain domain) =
      normalizeDomain domain := by
  simp [normalizeDomain, laws.trimmed, laws.idempotent]

theorem normalizeDomain_settledDomain (domain : Str) :
    normalizeDomain (settledDomain domain) =
      normalizeDomain domain := by
  simp [normalizeDomain, settledDomain, laws.ascii, laws.trimmed]

end

theorem normal_of_requested {whitelist : DomainWhitelist} {pluginId domain : Str}
    (normal : Normal whitelist) (requested : Requested whitelist pluginId domain) :
    normalizeDomain domain = domain := by
  obtain ⟨_, mem, rfl, rfl⟩ := requested
  simp only [getAllEntries, getApproved,
    getPending, mem_append, mem_filter, mem_whitelistEntries] at mem
  rcases mem with (⟨approved, -⟩ | ⟨⟨granted, -⟩, -⟩) | ⟨pending, -⟩
  · exact normal.approved approved
  · exact normal.manifestApproved granted
  · exact normal.pending pending

namespace Normal

variable {whitelist : DomainWhitelist}

theorem addPending (laws : LowercaseLaws) (normal : Normal whitelist) (pluginId domain : Str) :
    Normal (whitelist.addPending pluginId domain) where
  __ := normal
  pending := by
    intro _ _ mem
    rcases DomainLayer.mem_domains_add.mp mem with ⟨-, rfl⟩ | known
    · exact normalizeDomain_idem laws domain
    · exact normal.pending known

theorem liveDecision (laws : LowercaseLaws) (normal : Normal whitelist) (pluginId domain : Str)
    (approved : Bool) :
    Normal (DomainApprovals.liveDecision whitelist pluginId domain approved) := by
  cases approved with
  | true =>
    refine ⟨?_, normal.manifestApproved, ?_⟩
    · intro plugin other mem
      rcases DomainLayer.mem_domains_add.mp mem with ⟨-, rfl⟩ | known
      · exact normalizeDomain_idem laws domain
      · exact normal.approved known
    · intro plugin other mem
      exact normal.pending (DomainLayer.mem_domains_remove.mp mem).1
  | false =>
    refine addPending laws ?_ pluginId domain
    refine ⟨?_, normal.manifestApproved, normal.pending⟩
    intro plugin other mem
    exact normal.approved (DomainLayer.mem_domains_remove.mp mem).1

theorem replaceManifestDomains (laws : LowercaseLaws) (normal : Normal whitelist) (pluginId : Str)
    (domains : List Str) : Normal (whitelist.replaceManifestDomains pluginId domains) where
  __ := normal
  manifestApproved := by
    intro plugin other mem
    rw [mem_manifest_replaceManifestDomains] at mem
    split at mem
    · obtain ⟨domain, -, rfl⟩ := mem_map.mp mem
      exact normalizeDomain_idem laws domain
    · exact normal.manifestApproved mem
  pending := by
    intro plugin other mem
    exact normal.pending (mem_domains_retain.mp mem).1

theorem clearManifestDomains (normal : Normal whitelist) (pluginId : Str) :
    Normal (whitelist.clearManifestDomains pluginId) where
  __ := normal
  manifestApproved := by
    intro _ _ mem
    exact normal.manifestApproved (mem_domains_erase.mp mem).1

end Normal

namespace Sound

variable {watched : Watched}

theorem decide (laws : LowercaseLaws) (sound : Sound watched) {pluginId domain : Str}
    {approved : Bool} {services : Services}
    (meets : Meets watched (.decide pluginId domain approved services)) :
    Sound (step watched (.decide pluginId domain approved services)) := by
  obtain ⟨reported, ungranted⟩ := meets
  rcases setPluginDomainApproved_cases watched.approvals pluginId domain approved services with
    ⟨error, after, failed, sameWhitelist, table⟩ | ⟨saved, requested, succeeded⟩
  · have sameTable := table.resolve_right reported
    have same : after = watched.approvals := by
      cases after
      simp_all
    simpa only [step, failed, same] using sound
  · have normalDomain := normal_of_requested sound.normal requested
    have namesIt : settledDomain domain = normalizeDomain domain := by
      rw [← normalizeDomain_settledDomain laws, normalDomain]
    simp only [step, succeeded]
    refine ⟨sound.normal.liveDecision laws _ _ _, ?_, ?_, ?_⟩
    · intro plugin other
      rw [mem_approved_liveDecision normalDomain, approves_decide]
      split
      · exact Iff.rfl
      · exact sound.agrees plugin other
    · intro revoked noticed allowed
      rw [check_eq_allowed_iff, mem_approved_liveDecision normalDomain,
        manifestApproved_liveDecision] at allowed
      cases approved with
      | true =>
        obtain ⟨mem, different⟩ := mem_noted_approved.mp noticed
        have denied := check_eq_allowed_iff.not.mp (sound.denied revoked mem)
        have other : ¬ (settledPluginId revoked.1 = settledPluginId pluginId ∧
            normalizeDomain revoked.2 = settledDomain domain) := by
          rw [← sound.settled revoked mem]
          exact different
        rw [if_neg other] at allowed
        exact denied allowed
      | false =>
        rcases mem_noted_revoked.mp noticed with rfl | mem
        · rw [← namesIt, if_pos ⟨rfl, rfl⟩] at allowed
          rcases allowed with wrong | granted
          · cases wrong
          · exact ungranted rfl saved granted
        · have denied := check_eq_allowed_iff.not.mp (sound.denied revoked mem)
          refine denied (allowed.imp_left fun listed => ?_)
          split at listed
          · cases listed
          · exact listed
    · intro revoked noticed
      cases approved with
      | true => exact sound.settled revoked (mem_noted_approved.mp noticed).1
      | false =>
        rcases mem_noted_revoked.mp noticed with rfl | mem
        · exact namesIt
        · exact sound.settled revoked mem

theorem replaceManifest (laws : LowercaseLaws) (sound : Sound watched) {pluginId : Str}
    {domains : List Str} (meets : Meets watched (.replaceManifest pluginId domains)) :
    Sound (step watched (.replaceManifest pluginId domains)) where
  __ := sound
  normal := sound.normal.replaceManifestDomains laws pluginId domains
  denied := by
    intro revoked mem allowed
    have denied := check_eq_allowed_iff.not.mp (sound.denied revoked mem)
    rw [check_eq_allowed_iff] at allowed
    rcases allowed with approved | granted
    · exact denied (.inl approved)
    · have listed := mem_manifest_replaceManifestDomains.mp granted
      split at listed
      next same => exact meets revoked mem same listed
      · exact denied (.inr listed)

theorem clearManifest (sound : Sound watched) (pluginId : Str) :
    Sound (step watched (.clearManifest pluginId)) where
  __ := sound
  normal := sound.normal.clearManifestDomains pluginId
  denied := by
    intro revoked mem allowed
    have denied := check_eq_allowed_iff.not.mp (sound.denied revoked mem)
    rw [check_eq_allowed_iff] at allowed
    exact denied (allowed.imp_right fun granted => (mem_domains_erase.mp granted).1)

theorem request (laws : LowercaseLaws) (sound : Sound watched) (pluginId host : Str) :
    Sound (step watched (.request pluginId host)) := by
  simp only [step, checkedForRequest]
  split
  · refine ⟨sound.normal.addPending laws pluginId host, sound.agrees, ?_, sound.settled⟩
    intro revoked mem allowed
    have denied := check_eq_allowed_iff.not.mp (sound.denied revoked mem)
    rw [check_eq_allowed_iff] at allowed
    exact denied allowed
  · exact sound

theorem step (laws : LowercaseLaws) (sound : Sound watched) {next : Step}
    (meets : Meets watched next) : Sound (DomainApprovals.step watched next) := by
  cases next with
  | decide pluginId => exact sound.decide laws meets
  | replaceManifest pluginId => exact sound.replaceManifest laws meets
  | clearManifest pluginId => exact sound.clearManifest pluginId
  | request pluginId host => exact sound.request laws pluginId host

theorem run (laws : LowercaseLaws) (sound : Sound watched) {steps : List Step}
    (meets : AllMeet watched steps) : Sound (DomainApprovals.run watched steps) := by
  induction steps generalizing watched with
  | nil => exact sound
  | cons _ _ ih => exact ih (sound.step laws meets.1) meets.2

theorem start {approvals : Approvals} (normal : Normal approvals.whitelist)
    (agrees : Agrees approvals) : Sound (Watched.start approvals) where
  normal := normal
  agrees := agrees
  denied := by
    intro revoked mem
    cases mem
  settled := by
    intro revoked mem
    cases mem

end Sound

/-- Where steps meet the condition, a revoked domain is denied until approved again, and the
user's layer is what the database approves. -/
theorem revoked_denied_of_run (laws : LowercaseLaws) {approvals : Approvals}
    (normal : Normal approvals.whitelist) (agrees : Agrees approvals) {steps : List Step}
    (meets : AllMeet (.start approvals) steps) :
    (∀ revoked ∈ (run (.start approvals) steps).revoked,
      (run (.start approvals) steps).approvals.whitelist.check
        (settledPluginId revoked.1) revoked.2 ≠ .allowed) ∧
      Agrees (run (.start approvals) steps).approvals := by
  have sound := (Sound.start normal agrees).run laws meets
  exact ⟨sound.denied, sound.agrees⟩

end

section

attribute [local instance] asciiTables

def grantedByManifest : Approvals where
  whitelist := new.replaceManifestDomains "demo".toList ["manifest.example".toList]
  table := ∅

def working : Services where
  hasConfigService := true
  running := true
  write := .saved

def revocation (domain : String) : Step := .decide "demo".toList domain.toList false working

theorem grantedByManifest_agrees : Agrees grantedByManifest := by
  intro plugin _
  have nothing : (grantedByManifest.whitelist.approved.domains plugin) = [] := rfl
  rw [nothing]
  simp [grantedByManifest, ApprovalTable.Approves]

theorem normal_new : Normal new where
  approved := by
    intro plugin other mem
    cases mem
  manifestApproved := by
    intro plugin other mem
    cases mem
  pending := by
    intro plugin other mem
    cases mem

theorem grantedByManifest_normal : Normal grantedByManifest.whitelist :=
  normal_new.replaceManifestDomains asciiTables_lowercaseLaws _ _

/-- A domain that the manifest grants is still allowed after it was revoked. -/
theorem revoked_allowed_by_manifest : ¬ ∀ revoked ∈
    (run (.start grantedByManifest) [revocation "manifest.example"]).revoked,
      (run (.start grantedByManifest) [revocation "manifest.example"]).approvals.whitelist.check
        (settledPluginId revoked.1) revoked.2 ≠ .allowed := by
  decide +kernel

def askedApprovedRevoked : List Step :=
  [.request "demo".toList "asked.example".toList,
    .decide "demo".toList "asked.example".toList true working, revocation "asked.example"]

theorem askedApprovedRevoked_meets : AllMeet (.start grantedByManifest) askedApprovedRevoked := by
  refine ⟨trivial, ⟨id, fun wrong => ?_⟩, ⟨id, fun _ _ => ?_⟩, trivial⟩
  · cases wrong
  · unfold ManifestGrants
    decide +kernel

/-- The domain is not allowed then. -/
theorem asked_denied_after_revocation : (run (.start grantedByManifest)
    askedApprovedRevoked).approvals.whitelist.check
      (settledPluginId "demo".toList) "asked.example".toList ≠ .allowed :=
  (revoked_denied_of_run asciiTables_lowercaseLaws grantedByManifest_normal
    grantedByManifest_agrees askedApprovedRevoked_meets).1
    ("demo".toList, "asked.example".toList) (by decide +kernel)

end

end Arclain.DomainApprovals
