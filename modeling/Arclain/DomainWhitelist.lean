import Arclain.KeyedMap
import Arclain.Text

namespace Arclain.Network

/-!
# The domain whitelist

Which domains each plugin may access.  The whitelist has three layers: what the user
approved, what the manifest of the loaded plugin grants, and what the plugin asked for in
vain.

Hash sets are lists of domains whose order no function depends on.
-/

open List Text CharTables

/-- Lower-casing once is enough, and it neither adds nor removes white space at the ends. -/
structure LowercaseLaws [CharTables] : Prop where
  idempotent : ∀ text : Str, toLowercase (toLowercase text) =
    toLowercase text
  trimmed : ∀ text : Str, toLowercase (trim text) = trim (toLowercase text)
  ascii : ∀ text : Str, toLowercase (toAsciiLowercase text) = toLowercase text

theorem isWhitespace_of_letters {char : Char} (above : 65 ≤ char.toNat) (below : char.toNat ≤ 122) :
    isWhitespace char = false := by
  simp [isWhitespace]
  omega

theorem isWhitespace_toLower (char : Char) : isWhitespace char.toLower = isWhitespace char := by
  have value := toNat_toLower char
  by_cases upper : 65 ≤ char.toNat ∧ char.toNat ≤ 90
  · rw [if_pos upper] at value
    rw [isWhitespace_of_letters (by omega) (by omega),
      isWhitespace_of_letters (by omega) (by omega)]
  · rw [if_neg upper] at value
    rw [Char.toNat_inj.mp value]

theorem asciiTables_lowercaseLaws : @LowercaseLaws asciiTables :=
  letI := asciiTables
  have twice (text : Str) : (text.map Char.toLower).map Char.toLower = text.map Char.toLower :=
    map_map.trans (map_congr_left fun char _ => toLower_toLower char)
  { idempotent := twice
    trimmed := fun text => by
      have same : isWhitespace ∘ Char.toLower = isWhitespace := funext isWhitespace_toLower
      simp [toLowercase, trim, trimEndMatches, trimStartMatches, dropWhile_map, ← map_reverse, same]
    ascii := twice }

inductive AccessCheck where
  | allowed
  | needsApproval
  | notWhitelisted
  deriving DecidableEq

structure WhitelistEntry where
  pluginId : Str
  domain : Str
  approved : Bool
  deriving DecidableEq

/-- One layer: the domains of each plugin. -/
abbrev DomainLayer := KeyedMap Str (List Str)

namespace DomainLayer

section

variable (layer : DomainLayer)

def domains (pluginId : Str) : List Str := (layer.lookup pluginId).getD []

/-- `entry(plugin_id).or_default().insert(domain)`. -/
def add (pluginId domain : Str) : DomainLayer :=
  layer.insert pluginId ((layer.domains pluginId).insert domain)

/-- `get_mut(plugin_id)`, with the domains that satisfy a test retained. -/
def retain (pluginId : Str) (keep : Str → Bool) : DomainLayer :=
  match layer.lookup pluginId with
  | some domains => layer.insert pluginId (domains.filter keep)
  | none => layer

/-- `get_mut(plugin_id)`, with a domain removed. -/
def remove (pluginId domain : Str) : DomainLayer :=
  layer.retain pluginId fun other => other ≠ domain

def whitelistEntries (approved : Bool) : List WhitelistEntry :=
  layer.entries.flatMap fun ⟨pluginId, domains⟩ =>
    domains.map fun domain => ⟨pluginId, domain, approved⟩

end

end DomainLayer

structure DomainWhitelist where
  approved : DomainLayer
  manifestApproved : DomainLayer
  pending : DomainLayer

namespace DomainWhitelist

def new : DomainWhitelist where
  approved := ∅
  manifestApproved := ∅
  pending := ∅

def getPending (whitelist : DomainWhitelist) : List WhitelistEntry :=
  whitelist.pending.whitelistEntries false

def getApproved (whitelist : DomainWhitelist) : List WhitelistEntry :=
  whitelist.approved.whitelistEntries true

def getAllEntries (whitelist : DomainWhitelist) : List WhitelistEntry :=
  let approved := whitelist.getApproved
  approved ++ (whitelist.manifestApproved.whitelistEntries true).filter (· ∉ approved) ++
    whitelist.getPending

section

variable [CharTables]

def normalizeDomain (domain : Str) : Str := trim (CharTables.toLowercase domain)

section

variable (whitelist : DomainWhitelist) (pluginId domain : Str)

def check : AccessCheck :=
  let domain := normalizeDomain domain
  if domain ∈ whitelist.approved.domains pluginId then .allowed
  else if domain ∈ whitelist.manifestApproved.domains pluginId then .allowed
  else if domain ∈ whitelist.pending.domains pluginId then .needsApproval
  else .notWhitelisted

def addPending : DomainWhitelist :=
  { whitelist with
    pending := whitelist.pending.add pluginId (normalizeDomain domain) }

def approve : DomainWhitelist :=
  let domain := normalizeDomain domain
  { whitelist with
    pending := whitelist.pending.remove pluginId domain
    approved := whitelist.approved.add pluginId domain }

def revoke : DomainWhitelist :=
  { whitelist with
    approved := whitelist.approved.remove pluginId (normalizeDomain domain) }

end

def replaceManifestDomains (whitelist : DomainWhitelist) (pluginId : Str)
    (domains : List Str) : DomainWhitelist :=
  let domains := (domains.map normalizeDomain).dedup
  { whitelist with
    pending := whitelist.pending.retain pluginId fun domain => domain ∉ domains
    manifestApproved :=
      if domains = [] then whitelist.manifestApproved.erase pluginId
      else whitelist.manifestApproved.insert pluginId domains }

def clearManifestDomains (whitelist : DomainWhitelist) (pluginId : Str) : DomainWhitelist :=
  { whitelist with
    manifestApproved := whitelist.manifestApproved.erase pluginId }

end

end DomainWhitelist

namespace DomainLayer

variable {layer : DomainLayer} {pluginId domain plugin other : Str}

@[simp] theorem mem_domains_add : other ∈ (layer.add pluginId domain).domains plugin ↔
    (plugin = pluginId ∧ other = domain) ∨ other ∈ layer.domains plugin := by
  by_cases same : plugin = pluginId
  · subst plugin
    simp [add, domains]
  · simp [add, domains, AList.lookup_insert_ne same, same]

@[simp] theorem mem_domains_retain {pluginId plugin other : Str}
    {keep : Str → Bool} : other ∈ (layer.retain pluginId keep).domains plugin ↔
      other ∈ layer.domains plugin ∧ (plugin = pluginId → keep other = true) := by
  cases found : layer.lookup pluginId with
  | none =>
    rw [retain, found]
    by_cases same : plugin = pluginId
    · subst plugin
      simp [domains, found]
    · simp [same]
  | some =>
    rw [retain, found]
    by_cases same : plugin = pluginId
    · subst plugin
      simp [domains, found]
    · simp [domains, AList.lookup_insert_ne same, same]

@[simp] theorem mem_domains_remove : other ∈ (layer.remove pluginId domain).domains plugin ↔
    other ∈ layer.domains plugin ∧ ¬ (plugin = pluginId ∧ other = domain) := by
  simp [remove]

theorem mem_domains_erase {pluginId plugin other : Str} :
    other ∈ DomainLayer.domains (layer.erase pluginId) plugin ↔
      other ∈ layer.domains plugin ∧ plugin ≠ pluginId := by
  by_cases same : plugin = pluginId
  · subst plugin
    simp [domains]
  · simp [domains, AList.lookup_erase_ne same, same]

theorem mem_whitelistEntries {approved : Bool} {entry : WhitelistEntry} :
    entry ∈ layer.whitelistEntries approved ↔ entry.domain ∈ layer.domains entry.pluginId ∧
      entry.approved = approved := by
  simp only [whitelistEntries, mem_flatMap, mem_map]
  constructor
  · rintro ⟨⟨_, listed⟩, mem, _, domainMember, rfl⟩
    have found := KeyedMap.lookup_eq_some_iff_mem.mpr mem
    exact ⟨by simpa [domains, found] using domainMember, rfl⟩
  · rintro ⟨mem, rfl⟩
    cases found : layer.lookup entry.pluginId with
    | none => simp [domains, found] at mem
    | some listed =>
      refine ⟨⟨entry.pluginId, listed⟩,
        KeyedMap.lookup_eq_some_iff_mem.mp found, entry.domain, ?_, rfl⟩
      simpa [domains, found] using mem

end DomainLayer

namespace DomainWhitelist

variable [CharTables] {whitelist : DomainWhitelist}

theorem check_eq_allowed_iff {pluginId domain : Str} : whitelist.check pluginId domain = .allowed ↔
    normalizeDomain domain ∈ whitelist.approved.domains pluginId ∨
      normalizeDomain domain ∈ whitelist.manifestApproved.domains pluginId := by
  by_cases approved : normalizeDomain domain ∈ whitelist.approved.domains pluginId
  · simp [check, approved]
  · by_cases granted : normalizeDomain domain ∈ whitelist.manifestApproved.domains pluginId
    · simp [check, approved, granted]
    · by_cases pending : normalizeDomain domain ∈ whitelist.pending.domains pluginId
      · simp [check, approved, granted, pending]
      · simp [check, approved, granted, pending]

theorem mem_manifest_replaceManifestDomains {pluginId plugin domain : Str} {granted : List Str} :
    domain ∈ (whitelist.replaceManifestDomains pluginId granted).manifestApproved.domains plugin ↔
      if plugin = pluginId then domain ∈ granted.map normalizeDomain
      else
        domain ∈ whitelist.manifestApproved.domains plugin := by
  by_cases same : plugin = pluginId
  · subst plugin
    cases granted with
    | nil | cons => simp [replaceManifestDomains, DomainLayer.domains]
  · have other : DomainLayer.domains (whitelist.manifestApproved.erase pluginId) plugin =
        whitelist.manifestApproved.domains plugin := by
      rw [DomainLayer.domains, AList.lookup_erase_ne same, DomainLayer.domains]
    rw [replaceManifestDomains, if_neg same]
    dsimp only
    split
    · rw [other]
    · rw [DomainLayer.domains, AList.lookup_insert_ne same, DomainLayer.domains]

end DomainWhitelist

end Arclain.Network
