import Arclain.VaultCalls

namespace Arclain.Vault

/-!
# What the configured vault holds after it was moved or rekeyed

The configured vault is the file under the configured path, opened with the key
under the configured path of the key.
-/

open List FaultyCalls NamedFiles Text Option Disk DiskTriple Tables

variable {Key Sealed : Type}

def configured (disk : VaultDisk Key Sealed) (paths : DbPaths) : Option (Key × Tables Sealed) :=
  match disk.contentAt paths.configDb with
  | some (.config rows) =>
    match (rows.lookup keyFilePathKey).or paths.keyFile with
    | none => none
    | some keyPath =>
      match disk.contentAt keyPath, disk.contentAt
        ((rows.lookup secretsDbPathKey).getD paths.secretsDb) with
      | some (.key key), some (.vault tables) => some (key, tables)
      | _, _ => none
  | _ => none

/-- The files of a running application: its databases stand under its paths, and
the paths are those of its configuration. -/
structure Installed (paths : DbPaths) (keyPath : Str) (key : Key) (tables : Tables Sealed)
    (rows : KeyedMap Str Str) (disk : VaultDisk Key Sealed) : Prop where
  keyFile : paths.keyFile = some keyPath
  config : disk.contentAt paths.configDb = some (.config rows)
  cache : disk.contentAt paths.cacheDb = some .cache
  vault : disk.contentAt paths.secretsDb = some (.vault tables)
  key : disk.contentAt keyPath = some (.key key)
  secretsRow : (rows.lookup secretsDbPathKey).getD paths.secretsDb = paths.secretsDb
  keyRow : (rows.lookup keyFilePathKey).or paths.keyFile = some keyPath

/-- The two vaults hold the same named secrets and the same rules. -/
structure SameContents (cipher : Cipher Key Sealed) (oldKey : Key) (old : Tables Sealed)
    (newKey : Key) (new : Tables Sealed) : Prop where
  secrets : ∀ name, new.getSecret cipher newKey name = old.getSecret cipher oldKey name
  rules : new.listPassRules cipher newKey = old.listPassRules cipher oldKey

/-- The configuration leads to a vault with the same contents. -/
def KeepsContents (cipher : Cipher Key Sealed) (key : Key) (tables : Tables Sealed)
    (paths : DbPaths) (disk : VaultDisk Key Sealed) : Prop :=
  ∃ newKey new, configured disk paths = some (newKey, new) ∧
    SameContents cipher key tables newKey new

section

variable {cipher : Cipher Key Sealed} {key : Key} {tables : Tables Sealed} {rules : List PassRule}

theorem length_of_mapM {entries : List Sealed}
    (read : entries.mapM (readRule cipher key) = some rules) : rules.length = entries.length := by
  induction entries generalizing rules with
  | nil =>
    cases read
    rfl
  | cons _ _ ih =>
    rw [mapM_cons] at read
    obtain ⟨_, _, continued⟩ := bind_eq_some_iff.mp read
    obtain ⟨_, laterRead, joined⟩ := bind_eq_some_iff.mp continued
    cases joined
    rw [length_cons, length_cons, ih laterRead]

theorem getSecret_eq_none_iff {name : Str} : tables.getSecret cipher key name = some none ↔
    tables.metadata.lookup name = none := by
  unfold getSecret
  cases found : tables.metadata.lookup name with
  | none => simp
  | some entry => cases cipher.decrypt key entry <;> simp

theorem listPassRules_eq_nil_iff :
    tables.listPassRules cipher key = some [] ↔ tables.passRules = [] := by
  constructor
  · intro listed
    obtain ⟨rules, read, sorted⟩ := map_eq_some_iff.mp listed
    have lengths := length_of_mapM read
    have none : rules.length = 0 := by simpa [PassRule.sort] using congrArg List.length sorted
    exact eq_nil_of_length_eq_zero (lengths.symm.trans none)
  · intro none
    simp [Tables.listPassRules, none, PassRule.sort]

theorem sameContents_blank_iff {newKey : Key} : SameContents cipher key tables newKey .blank ↔
    tables.passRules = [] ∧ ∀ name, tables.metadata.lookup name = none := by
  have noSecret (name : Str) :
      (blank : Tables Sealed).getSecret cipher newKey name = some none :=
    rfl
  have noRules : (blank : Tables Sealed).listPassRules cipher newKey = some [] :=
    listPassRules_eq_nil_iff.mpr rfl
  constructor
  · intro same
    refine ⟨?_, fun name => ?_⟩
    · rw [← listPassRules_eq_nil_iff, ← same.rules]
      exact noRules
    · rw [← getSecret_eq_none_iff, ← same.secrets]
      exact noSecret name
  · rintro ⟨rules, secrets⟩
    refine ⟨fun name => ?_, ?_⟩
    · rw [noSecret, getSecret_eq_none_iff.mpr (secrets name)]
    · rw [noRules, listPassRules_eq_nil_iff.mpr rules]

theorem sameContents_rules_iff {newKey : Key} {drawn : Nat}
    (listed : tables.listPassRules cipher key = some rules) : SameContents cipher key tables newKey
      (blank.replaceAllPassRules cipher newKey drawn rules) ↔
      ∀ name, tables.metadata.lookup name = none := by
  have noSecret (name : Str) :
      (blank.replaceAllPassRules cipher newKey drawn rules).getSecret
        cipher newKey name = some none :=
    rfl
  constructor
  · intro same name
    rw [← getSecret_eq_none_iff, ← same.secrets]
    exact noSecret name
  · intro secrets
    refine ⟨fun name => ?_, ?_⟩
    · rw [noSecret, getSecret_eq_none_iff.mpr (secrets name)]
    · rw [listed]
      exact listPassRules_replaceAllPassRules listed

end

theorem configured_eq {disk : VaultDisk Key Sealed} {paths : DbPaths} {rows : KeyedMap Str Str}
    {keyPath vaultPath : Str} (config : disk.contentAt paths.configDb = some (.config rows))
    (keyRow : (rows.lookup keyFilePathKey).or paths.keyFile = some keyPath)
    (secretsRow : (rows.lookup secretsDbPathKey).getD paths.secretsDb = vaultPath) :
    configured disk paths =
      match disk.contentAt keyPath, disk.contentAt vaultPath with
      | some (.key key), some (.vault tables) => some (key, tables)
      | _, _ => none := by
  simp only [configured, config, keyRow, secretsRow]

section

variable {defaults : DbPaths} {dbPaths : Option DbPaths} {destination keyPath : Str} {key : Key}
  {tables : Tables Sealed}
  {rows : KeyedMap Str Str}
  {disk : VaultDisk Key Sealed}

/-- The disk once the vault was copied: `held` stands in the target, and the copy may have
overwritten another file. -/
structure Moving (paths : DbPaths) (destination keyPath : Str) (key : Key) (tables : Tables Sealed)
    (rows : KeyedMap Str Str) (held : File Key Sealed) (disk : VaultDisk Key Sealed) : Prop where
  target : disk.contentAt destination = some held
  kind : held = .vault tables ∨ held = .empty
  key : disk.contentAt keyPath = some (.key key) ∨ disk.contentAt keyPath = some (.vault tables)
  config : disk.contentAt paths.configDb = some (.config rows) ∨
    disk.contentAt paths.configDb = some (.vault tables)
  cache : disk.contentAt paths.cacheDb = some .cache ∨
    disk.contentAt paths.cacheDb = some (.vault tables)

variable {paths : DbPaths} {new : VaultDisk Key Sealed}

theorem Installed.moving {content : File Key Sealed}
    (installed : Installed paths keyPath key tables rows disk)
    (overwrites : Overwrites disk destination content new)
    (read : ¬ disk.SameFile destination paths.secretsDb →
      disk.contentAt paths.secretsDb = some content)
    (emptied : disk.SameFile destination paths.secretsDb → content = .empty) :
    Moving paths destination keyPath key tables rows content new := by
  have target := overwrites.written destination (.inl rfl)
  by_cases same : disk.SameFile destination paths.secretsDb
  · -- No other file is that of the vault, so only the vault was overwritten.
    have unchanged (name : Str) (different : disk.contentAt name ≠ some (.vault tables)) :
        new.contentAt name = disk.contentAt name := by
      refine overwrites.others name fun shared => different ?_
      rw [← shared.contentAt_eq, same.contentAt_eq]
      exact installed.vault
    refine ⟨target, .inr (emptied same), .inl ?_, .inl ?_, .inl ?_⟩
    · rw [unchanged keyPath (by simp [installed.key])]
      exact installed.key
    · rw [unchanged paths.configDb (by simp [installed.config])]
      exact installed.config
    · rw [unchanged paths.cacheDb (by simp [installed.cache])]
      exact installed.cache
  · have content_eq : content = .vault tables :=
      some.inj ((read same).symm.trans installed.vault)
    subst content_eq
    have either (name : Str) : new.contentAt name = disk.contentAt name ∨
        new.contentAt name = some (.vault tables) := by
      by_cases shared : disk.SameFile destination name
      · exact .inr (overwrites.written name shared)
      · exact .inl (overwrites.others name shared)
    refine ⟨target, .inl rfl, ?_, ?_, ?_⟩
    · exact (either keyPath).imp_left fun kept => kept.trans installed.key
    · exact (either paths.configDb).imp_left
        fun kept => kept.trans installed.config
    · exact (either paths.cacheDb).imp_left
        fun kept => kept.trans installed.cache

variable {held : File Key Sealed}

theorem Moving.solid (moving : Moving paths destination keyPath key tables rows held disk) :
    Solid disk paths.configDb ∧ Solid disk paths.cacheDb := by
  constructor
  · rcases moving.config with held | held
    · simp [Solid, held]
    · simp [Solid, held]
  · rcases moving.cache with held | held
    · simp [Solid, held]
    · simp [Solid, held]

theorem Moving.setConfig {found : KeyedMap Str Str} {name value : Str}
    (moving : Moving paths destination keyPath key tables rows held disk)
    (config : disk.contentAt paths.configDb = some (.config found))
    (stored : new = disk.store paths.configDb (.config (found.insert name value))) :
    Moving paths destination keyPath key tables (rows.insert name value) held new ∧
      new.contentAt paths.configDb = some (.config (rows.insert name value)) := by
  have found_eq : found = rows := by
    rcases moving.config with rowsHeld | vaultHeld
    · rw [config] at rowsHeld
      exact File.config.inj (some.inj rowsHeld)
    · rw [config] at vaultHeld
      cases vaultHeld
  subst found_eq
  have written : new.contentAt paths.configDb = some (.config (found.insert name value)) := by
    rw [stored]
    exact contentAt_store_self
  have unchanged := contentAt_of_stored config stored
  refine ⟨⟨?_, moving.kind, ?_, .inl written, ?_⟩, written⟩
  · rw [unchanged destination]
    · exact moving.target
    · rw [moving.target]
      rcases moving.kind with rfl | rfl
      · simp
      · simp
  · rw [unchanged keyPath]
    · exact moving.key
    · rcases moving.key with held | held
      · simp [held]
      · simp [held]
  · rw [unchanged paths.cacheDb]
    · exact moving.cache
    · rcases moving.cache with held | held
      · simp [held]
      · simp [held]

theorem Moving.configured_of_opened {moved : Tables Sealed} {secrets : SecretsDb Key}
    (becomes : held = .vault moved ∨ held = .empty ∧ moved = .blank)
    (moving : Moving paths destination keyPath key tables rows held disk)
    (config : disk.contentAt paths.configDb = some (.config rows))
    (keyContent : disk.contentAt keyPath = some (.key key))
    (keyRow : (rows.lookup keyFilePathKey).or paths.keyFile = some keyPath)
    (secretsRow : rows.lookup secretsDbPathKey = some destination)
    (opened : Opened { paths with secretsDb := destination } key disk secrets new) :
    configured new paths = some (key, moved) := by
  obtain ⟨_, _, between, agree, cached, made⟩ := opened
  change AgreeOff paths.cacheDb disk between at agree
  change between.contentAt paths.cacheDb = some .cache at cached
  change OpensVault destination between new at made
  have notCache (name : Str) (different : disk.contentAt name ≠ some .cache ∧
      disk.contentAt name ≠ some (.vault tables)) :
      name ≠ paths.cacheDb := by
    rintro rfl
    rcases moving.cache with held | held
    · exact different.1 held
    · exact different.2 held
  have key_eq : between.contentAt keyPath = some (.key key) := by
    rw [(agree keyPath (notCache keyPath (by simp [keyContent]))).2]
    exact keyContent
  have config_eq : between.contentAt paths.configDb = some (.config rows) := by
    rw [(agree paths.configDb (notCache _ (by simp [config]))).2]
    exact config
  have target_eq : between.contentAt destination = some held := by
    by_cases same : destination = paths.cacheDb
    · -- Then the cache database took the place of the copy, which is no vault.
      rw [← same] at cached
      rcases made with ⟨⟨found, isVault⟩, _⟩ | ⟨isEmpty | isMissing, _⟩
      · rw [cached] at isVault
        cases isVault
      · rw [cached] at isEmpty
        cases isEmpty
      · rw [cached] at isMissing
        cases isMissing
    · rw [(agree destination same).2]
      exact moving.target
  have secretsRow' : (rows.lookup secretsDbPathKey).getD paths.secretsDb = destination := by
    rw [secretsRow]
    rfl
  rcases becomes with rfl | ⟨rfl, rfl⟩
  · have unchanged : new = between := by
      rcases made with ⟨_, same⟩ | ⟨isEmpty | isMissing, _⟩
      · exact same
      · rw [target_eq] at isEmpty
        cases isEmpty
      · rw [target_eq] at isMissing
        cases isMissing
    rw [unchanged, configured_eq config_eq keyRow secretsRow', key_eq, target_eq]
  · have created : new = between.store destination (.vault .blank) := by
      rcases made with ⟨⟨found, isVault⟩, _⟩ | ⟨_, same⟩
      · rw [target_eq] at isVault
        cases isVault
      · exact same
    have stillKey : new.contentAt keyPath = some (.key key) := by
      rw [created, contentAt_store_of_ne]
      · exact key_eq
      · simp [key_eq, target_eq]
    have stillConfig : new.contentAt paths.configDb = some (.config rows) := by
      rw [created, contentAt_store_of_ne]
      · exact config_eq
      · simp [config_eq, target_eq]
    have blank : new.contentAt destination = some (.vault .blank) := by
      rw [created]
      exact contentAt_store_self
    rw [configured_eq stillConfig keyRow secretsRow', stillKey, blank]

theorem moveVault_returns (destination : Str) (uses : dbPaths.getD defaults = paths)
    (installed : Installed paths keyPath key tables rows disk) :
    DiskTriple (fun found => found = disk) (moveVault defaults dbPaths destination) (fun _ new =>
      ∃ moved, configured new paths = some (key, moved) ∧
        (¬ disk.SameFile destination paths.secretsDb → moved = tables) ∧
        (disk.SameFile destination paths.secretsDb → moved = .blank))
      (fun _ => True) := by
  have outcome : ∃ (held : File Key Sealed) (moved : Tables Sealed),
      (held = .vault moved ∨ held = .empty ∧ moved = .blank) ∧ (∀ content : File Key Sealed,
        (¬ disk.SameFile destination paths.secretsDb →
          disk.contentAt paths.secretsDb = some content) →
        (disk.SameFile destination paths.secretsDb → content = .empty) → content = held) ∧
        (¬ disk.SameFile destination paths.secretsDb → moved = tables) ∧
        (disk.SameFile destination paths.secretsDb → moved = .blank) := by
    by_cases same : disk.SameFile destination paths.secretsDb
    · exact ⟨.empty, .blank, .inr ⟨rfl, rfl⟩, fun _ _ emptied => emptied same,
        absurd same, fun _ => rfl⟩
    · refine ⟨.vault tables, tables, .inl rfl, fun content read _ => ?_,
        fun _ => rfl, fun shared => absurd shared same⟩
      exact some.inj ((read same).symm.trans installed.vault)
  obtain ⟨held, moved, becomes, holds, kept, lost⟩ := outcome
  have copying : DiskTriple (fun found => found = disk) (copyFile paths.secretsDb destination)
      (fun _ => Moving paths destination keyPath key tables rows held)
      (fun _ => True) := by
    refine (copyFile_relates _ _).consequence (fun _ => id) ?_ (fun _ _ => trivial)
    rintro _ new ⟨content, overwrites, read, emptied⟩
    have content_eq := holds content read emptied
    subst content_eq
    exact installed.moving overwrites read emptied
  let newRows := rows.insert secretsDbPathKey destination
  have configuring : DiskTriple (fun disk =>
    Moving paths destination keyPath key tables rows held disk ∧
      ∃ found, disk.contentAt paths.configDb = some (.config found))
        (setConfig paths.configDb secretsDbPathKey destination)
        (fun _ disk =>
          Moving paths destination keyPath key tables newRows held disk ∧
            disk.contentAt paths.configDb = some (.config newRows))
        (fun _ => True) := by
    refine of_relation (fun _ _ => setConfig_relates _ _) ?_ (fun _ _ _ _ => trivial)
    rintro disk _ new ⟨moving, _⟩ ⟨found, config, stored⟩
    exact moving.setConfig config stored
  have reopening (loaded : Key) : DiskTriple (fun disk =>
    (Moving paths destination keyPath key tables newRows held disk ∧
      disk.contentAt paths.configDb = some (.config newRows)) ∧
      disk.contentAt keyPath = some (.key loaded)) (openDatabases
        { configDb := paths.configDb
          cacheDb := paths.cacheDb
          secretsDb := destination
          keyFile := paths.keyFile } loaded)
        (fun _ new => configured new paths = some (key, moved))
        (fun _ => True) := by
    refine of_relation (fun disk held =>
      openDatabases_relates loaded held.1.1.solid.1 held.1.1.solid.2) ?_
      (fun _ _ _ _ => trivial)
    rintro disk secrets new ⟨⟨moving, config⟩, loadedKey⟩ opened
    have loaded_eq : loaded = key := by
      rcases moving.key with held | held
      · rw [loadedKey] at held
        exact File.key.inj (some.inj held)
      · rw [loadedKey] at held
        cases held
    subst loaded_eq
    refine moving.configured_of_opened becomes config loadedKey ?_ ?_ opened
    · rw [AList.lookup_insert_ne (by decide)]
      exact installed.keyRow
    · exact AList.lookup_insert _
  have main : DiskTriple (fun found => found = disk) (moveVault defaults dbPaths destination)
      (fun _ new => configured new paths = some (key, moved))
      (fun _ => True) := by
    unfold moveVault
    simp only [uses, installed.keyFile]
    refine (createParent_keeps fun _ _ => trivial).bind fun _ => ?_
    refine copying.bind fun _ => ?_
    refine (attemptOnly_keeps fun _ _ => trivial).bind fun _ => ?_
    refine (openConfig_keeps (fun _ moving => moving.solid.1) fun _ _ => trivial).bind fun _ => ?_
    refine configuring.bind fun _ => ?_
    refine (loadFromFile_keeps fun _ _ => trivial).bind fun loaded => ?_
    refine DiskTriple.bind (reopening loaded) fun secrets => ?_
    exact pure fun _ => id
  exact main.consequence (fun _ => id)
    (fun _ new done => ⟨moved, done, kept, lost⟩) (fun _ => id)

end

section

variable {cipher : Cipher Key Sealed} {defaults paths : DbPaths} {dbPaths : Option DbPaths}
  {newKeyFile keyPath : Str}
  {key newKey : Key}
  {tables : Tables Sealed}
  {rows : KeyedMap Str Str}
  {disk new : VaultDisk Key Sealed}
  {lost : Prop}

/-- The file that `rekey_vault` copies the vault to. -/
def backupPath (paths : DbPaths) : Str := withExtension paths.secretsDb "redb.backup".toList

/-- The disk once the vault was copied to be rekeyed. The copy may have overwritten the new
key, the configuration or the cache. -/
structure Rekeying (paths : DbPaths) (newKeyFile : Str) (newKey : Key) (rows : KeyedMap Str Str)
    (lost : Prop) (disk : VaultDisk Key Sealed) : Prop where
  key : ¬ lost → disk.contentAt newKeyFile = some (.key newKey)
  noKey : lost → ∃ found, disk.contentAt newKeyFile = some (.vault found)
  config : disk.contentAt paths.configDb = some (.config rows) ∨
    ∃ found, disk.contentAt paths.configDb = some (.vault found)
  cache : disk.contentAt paths.cacheDb = some .cache ∨
    ∃ found, disk.contentAt paths.cacheDb = some (.vault found)

/-- The names of the files that a rekey goes through are different. -/
structure DistinctPaths (paths : DbPaths) (newKeyFile : Str) : Prop where
  keySecrets : newKeyFile ≠ paths.secretsDb
  keyCache : newKeyFile ≠ paths.cacheDb
  configSecrets : paths.configDb ≠ paths.secretsDb
  configCache : paths.configDb ≠ paths.cacheDb
  cacheSecrets : paths.cacheDb ≠ paths.secretsDb

theorem ne_of_contentAt (disk : VaultDisk Key Sealed) {first second : Str}
    (different : disk.contentAt first ≠ disk.contentAt second) : first ≠ second := by
  rintro rfl
  exact different rfl

theorem Installed.distinctPaths (installed : Installed paths keyPath key tables rows disk)
    (newKeyContent : disk.contentAt newKeyFile = some (.key newKey)) :
    DistinctPaths paths newKeyFile := by
  constructor
  · exact ne_of_contentAt disk (by simp [newKeyContent, installed.vault])
  · exact ne_of_contentAt disk (by simp [newKeyContent, installed.cache])
  · exact ne_of_contentAt disk (by simp [installed.config, installed.vault])
  · exact ne_of_contentAt disk (by simp [installed.config, installed.cache])
  · exact ne_of_contentAt disk (by simp [installed.cache, installed.vault])

theorem Installed.rekeying {content : File Key Sealed}
    (installed : Installed paths keyPath key tables rows disk)
    (newKeyContent : disk.contentAt newKeyFile = some (.key newKey))
    (overwrites : Overwrites disk (backupPath paths) content new)
    (read : ¬ disk.SameFile (backupPath paths) paths.secretsDb →
      disk.contentAt paths.secretsDb = some content) :
    Rekeying paths newKeyFile newKey rows (disk.SameFile (backupPath paths) newKeyFile) new := by
  -- A file that is not the vault's own is overwritten by a vault, if at all.
  have overwritten (name : Str) (different : disk.contentAt name ≠ some (.vault tables))
      (shared : disk.SameFile (backupPath paths) name) :
      new.contentAt name = some (.vault tables) := by
    rw [overwrites.written name shared, ← read, installed.vault]
    intro own
    apply different
    rw [← shared.contentAt_eq, own.contentAt_eq]
    exact installed.vault
  refine ⟨fun kept => ?_, fun shared => ⟨tables, ?_⟩, ?_, ?_⟩
  · rw [overwrites.others newKeyFile kept]
    exact newKeyContent
  · exact overwritten newKeyFile (by simp [newKeyContent]) shared
  · by_cases shared : disk.SameFile (backupPath paths) paths.configDb
    · exact .inr ⟨tables, overwritten _ (by simp [installed.config]) shared⟩
    · rw [overwrites.others _ shared]
      exact .inl installed.config
  · by_cases shared : disk.SameFile (backupPath paths) paths.cacheDb
    · exact .inr ⟨tables, overwritten _ (by simp [installed.cache]) shared⟩
    · rw [overwrites.others _ shared]
      exact .inl installed.cache

theorem Rekeying.solid (rekeying : Rekeying paths newKeyFile newKey rows lost disk) :
    Solid disk paths.configDb ∧ Solid disk paths.cacheDb := by
  constructor
  · rcases rekeying.config with held | ⟨found, held⟩
    · simp [Solid, held]
    · simp [Solid, held]
  · rcases rekeying.cache with held | ⟨found, held⟩
    · simp [Solid, held]
    · simp [Solid, held]

theorem Rekeying.of_contents (rekeying : Rekeying paths newKeyFile newKey rows lost disk)
    (key : new.contentAt newKeyFile = disk.contentAt newKeyFile)
    (config : new.contentAt paths.configDb = disk.contentAt paths.configDb)
    (cache : new.contentAt paths.cacheDb = disk.contentAt paths.cacheDb ∨
      new.contentAt paths.cacheDb = some .cache) :
    Rekeying paths newKeyFile newKey rows lost new := by
  refine ⟨?_, ?_, ?_, ?_⟩
  · rw [key]
    exact rekeying.key
  · rw [key]
    exact rekeying.noKey
  · rw [config]
    exact rekeying.config
  · rcases cache with same | cached
    · rw [same]
      exact rekeying.cache
    · exact .inl cached

theorem Rekeying.unlink (distinct : DistinctPaths paths newKeyFile)
    (rekeying : Rekeying paths newKeyFile newKey rows lost disk) :
    Rekeying paths newKeyFile newKey rows lost (disk.unlink paths.secretsDb) :=
  rekeying.of_contents (contentAt_unlink_of_ne distinct.keySecrets)
    (contentAt_unlink_of_ne distinct.configSecrets)
    (.inl (contentAt_unlink_of_ne distinct.cacheSecrets))

theorem Rekeying.opened {secrets : SecretsDb Key} (distinct : DistinctPaths paths newKeyFile)
    (rekeying : Rekeying paths newKeyFile newKey rows lost disk)
    (missing : disk.contentAt paths.secretsDb = none)
    (opened : Opened paths newKey disk secrets new) :
    Rekeying paths newKeyFile newKey rows lost new ∧
      new.contentAt paths.secretsDb = some (.vault .blank) := by
  obtain ⟨_, _, between, agree, cached, made⟩ := opened
  have stillMissing : between.contentAt paths.secretsDb = none := by
    rw [(agree _ distinct.cacheSecrets.symm).2]
    exact missing
  have created : new = between.store paths.secretsDb (.vault .blank) := by
    rcases made with ⟨⟨found, isVault⟩, _⟩ | ⟨_, same⟩
    · rw [stillMissing] at isVault
      cases isVault
    · exact same
  have solidBetween : Rekeying paths newKeyFile newKey rows lost between :=
    rekeying.of_contents (agree _ distinct.keyCache).2
      (agree _ distinct.configCache).2 (.inr cached)
  have unchanged (name : Str) (different : name ≠ paths.secretsDb) :
      new.contentAt name = between.contentAt name := by
    rw [created]
    refine contentAt_store_of_not_same ?_
    rintro (same | ⟨_, named, _⟩)
    · exact different same.symm
    · have present := contentAt_of_names named
      rw [stillMissing] at present
      cases present
  refine ⟨solidBetween.of_contents (unchanged _ distinct.keySecrets)
    (unchanged _ distinct.configSecrets) (.inl (unchanged _ distinct.cacheSecrets)), ?_⟩
  rw [created]
  exact contentAt_store_self

theorem Rekeying.write {file : Nat} {old changed : Tables Sealed}
    (rekeying : Rekeying paths newKeyFile newKey rows lost disk)
    (holds : disk.files file = .vault old) :
    Rekeying paths newKeyFile newKey rows lost (disk.write file (.vault changed)) := by
  have unchanged (name : Str) (noVault : ∀ found, disk.contentAt name ≠ some (.vault found)) :
      (disk.write file (.vault changed)).contentAt name = disk.contentAt name := by
    rw [contentAt_write, if_neg]
    intro named
    apply noVault old
    rw [contentAt_of_names named, holds]
  have stillVault (name : Str) (found : Tables Sealed)
      (isVault : disk.contentAt name = some (.vault found)) :
      ∃ found, (disk.write file (.vault changed)).contentAt name = some (.vault found) := by
    rw [contentAt_write]
    split
    · exact ⟨changed, rfl⟩
    · exact ⟨found, isVault⟩
  refine ⟨fun kept => ?_, fun gone => ?_, ?_, ?_⟩
  · have content := rekeying.key kept
    rw [unchanged newKeyFile (by simp [content])]
    exact content
  · obtain ⟨found, content⟩ := rekeying.noKey gone
    exact stillVault newKeyFile found content
  · rcases rekeying.config with content | ⟨found, content⟩
    · rw [unchanged paths.configDb (by simp [content])]
      exact .inl content
    · exact .inr (stillVault _ found content)
  · rcases rekeying.cache with content | ⟨found, content⟩
    · rw [unchanged paths.cacheDb (by simp [content])]
      exact .inl content
    · exact .inr (stillVault _ found content)

theorem Rekeying.configured_of_setConfig {found : KeyedMap Str Str} {rekeyed : Tables Sealed}
    (rekeying : Rekeying paths newKeyFile newKey rows lost disk)
    (secretsRow : (rows.lookup secretsDbPathKey).getD paths.secretsDb = paths.secretsDb)
    (vault : disk.contentAt paths.secretsDb = some (.vault rekeyed))
    (config : disk.contentAt paths.configDb = some (.config found))
    (stored : new = disk.store paths.configDb (.config (found.insert keyFilePathKey newKeyFile))) :
    (¬ lost → configured new paths = some (newKey, rekeyed)) ∧
      (lost → configured new paths = none) := by
  have found_eq : found = rows := by
    rcases rekeying.config with held | ⟨other, held⟩
    · rw [config] at held
      exact File.config.inj (some.inj held)
    · rw [config] at held
      cases held
  subst found_eq
  have unchanged := contentAt_of_stored config stored
  have configNow : new.contentAt paths.configDb =
      some (.config (found.insert keyFilePathKey newKeyFile)) := by
    rw [stored]
    exact contentAt_store_self
  have keyRow : ((found.insert keyFilePathKey newKeyFile).lookup keyFilePathKey).or
      paths.keyFile = some newKeyFile := by
    rw [AList.lookup_insert]
    rfl
  have secretsRow' : ((found.insert keyFilePathKey newKeyFile).lookup secretsDbPathKey).getD
      paths.secretsDb = paths.secretsDb := by
    rw [AList.lookup_insert_ne (by decide)]
    exact secretsRow
  have vaultNow : new.contentAt paths.secretsDb = some (.vault rekeyed) := by
    rw [unchanged _ (by simp [vault])]
    exact vault
  rw [configured_eq configNow keyRow secretsRow', vaultNow]
  constructor
  · intro kept
    have content := rekeying.key kept
    rw [unchanged newKeyFile (by simp [content]), content]
  · intro gone
    obtain ⟨other, content⟩ := rekeying.noKey gone
    rw [unchanged newKeyFile (by simp [content]), content]

theorem readOldVault_keeps (installed : Installed paths keyPath key tables rows disk) :
    DiskTriple (fun found => found = disk) (readOldVault cipher paths.secretsDb keyPath newKeyFile)
      (fun read found =>
        found = disk ∧ (disk.contentAt newKeyFile = some (.key read.1) ∧
          tables.listPassRules cipher key = some read.2))
      (fun found => found = disk) := by
  have loadingOld : DiskTriple (fun found => found = disk) (loadFromFile keyPath)
      (fun oldKey found => found = disk ∧ oldKey = key)
      (fun found => found = disk) := by
    refine (loadFromFile_keeps fun _ => id).consequence
      (fun _ => id) ?_ (fun _ => id)
    rintro oldKey _ ⟨rfl, content⟩
    rw [installed.key] at content
    exact ⟨rfl, (File.key.inj (some.inj content)).symm⟩
  have loadingNew : DiskTriple (fun found => found = disk) (loadFromFile newKeyFile)
      (fun newKey found => found = disk ∧ disk.contentAt newKeyFile = some (.key newKey))
      (fun found => found = disk) := by
    refine (loadFromFile_keeps fun _ => id).consequence
      (fun _ => id) ?_ (fun _ => id)
    rintro newKey _ ⟨rfl, content⟩
    exact ⟨rfl, content⟩
  have opening : DiskTriple (fun found => found = disk) (openSecrets paths.secretsDb key)
      (fun secrets found =>
        found = disk ∧ (secrets.key = key ∧ disk.files secrets.file = .vault tables))
      (fun found => found = disk) := by
    have present (impossible : disk.contentAt paths.secretsDb = some .empty ∨
        disk.contentAt paths.secretsDb = none) : False := by
      rw [installed.vault] at impossible
      rcases impossible with isEmpty | isMissing
      · cases isEmpty
      · cases isMissing
    refine (openSecrets_relates key).consequence (fun _ => id) ?_ ?_
    · rintro secrets new ⟨⟨key_eq, named⟩, ⟨_, rfl⟩ | ⟨impossible, _⟩⟩
      · have content := contentAt_of_names named
        rw [installed.vault] at content
        exact ⟨rfl, key_eq, (some.inj content).symm⟩
      · exact (present impossible).elim
    · rintro new (same | ⟨impossible, _⟩)
      · exact same
      · exact (present impossible).elim
  have listing (secrets : SecretsDb Key)
      (ofOld : secrets.key = key ∧ disk.files secrets.file = .vault tables) :
      DiskTriple (fun found => found = disk) (listPassRules cipher secrets) (fun rules found =>
        found = disk ∧ tables.listPassRules cipher key = some rules)
        (fun found => found = disk) := by
    refine (listPassRules_keeps fun _ => id).consequence
      (fun _ => id) ?_ (fun _ => id)
    rintro rules _ ⟨rfl, found, content, listed⟩
    rw [ofOld.2] at content
    obtain rfl := File.vault.inj content
    rw [ofOld.1] at listed
    exact ⟨rfl, listed⟩
  unfold readOldVault
  refine loadingOld.bind fun oldKey => assuming ?_
  rintro rfl
  refine loadingNew.bind fun newKey => assuming fun loaded => ?_
  refine opening.bind fun secrets => assuming fun ofOld => ?_
  refine (listing secrets ofOld).bind fun rules => pure ?_
  rintro found ⟨same, listed⟩
  exact ⟨same, loaded, listed⟩

theorem rekeyVault_returns (cipher : Cipher Key Sealed) (newKeyFile : Str)
    (uses : dbPaths.getD defaults = paths)
    (installed : Installed paths keyPath key tables rows disk) :
    DiskTriple (fun found => found = disk) (rekeyVault cipher defaults dbPaths newKeyFile)
      (fun _ new =>
        ∃ newKey rules drawn, tables.listPassRules cipher key = some rules ∧
          (¬ disk.SameFile (backupPath paths) newKeyFile → configured new paths = some (newKey,
            blank.replaceAllPassRules cipher newKey drawn rules)) ∧
          (disk.SameFile (backupPath paths) newKeyFile → configured new paths = none))
      (fun _ => True) := by
  let lost := disk.SameFile (backupPath paths) newKeyFile
  have copying (newKey : Key) (newKeyContent : disk.contentAt newKeyFile = some (.key newKey)) :
      DiskTriple (fun found => found = disk) (copyFile paths.secretsDb (backupPath paths))
        (fun _ => Rekeying paths newKeyFile newKey rows lost)
        (fun _ => True) := by
    refine (copyFile_relates _ _).consequence (fun _ => id) ?_ (fun _ _ => trivial)
    rintro _ new ⟨content, overwrites, read, _⟩
    exact installed.rekeying newKeyContent overwrites read
  have removing (newKey : Key) (distinct : DistinctPaths paths newKeyFile) :
      DiskTriple (Rekeying paths newKeyFile newKey rows lost)
        (removeFile .removeFile paths.secretsDb : Program Key Sealed Unit)
        (fun _ disk =>
          Rekeying paths newKeyFile newKey rows lost disk ∧ disk.contentAt paths.secretsDb = none)
        (fun _ => True) := by
    refine of_relation
      (fun _ _ => removeFile_relates .removeFile) ?_ (fun _ _ _ _ => trivial)
    rintro disk _ _ rekeying rfl
    exact ⟨rekeying.unlink distinct, contentAt_unlink_self _ _⟩
  have opening (newKey : Key) (distinct : DistinctPaths paths newKeyFile) :
      DiskTriple (fun disk : VaultDisk Key Sealed =>
        Rekeying paths newKeyFile newKey rows lost disk ∧ disk.contentAt paths.secretsDb = none)
        (openDatabases paths newKey)
        (fun secrets disk =>
          (Rekeying paths newKeyFile newKey rows lost disk ∧
            disk.files secrets.file = .vault .blank ∧
            disk.names paths.secretsDb = some secrets.file) ∧
          secrets.key = newKey)
        (fun _ => True) := by
    refine of_relation (fun disk held =>
      openDatabases_relates newKey held.1.solid.1 held.1.solid.2) ?_
      (fun _ _ _ _ => trivial)
    rintro disk secrets new ⟨rekeying, missing⟩ opened
    obtain ⟨still, content⟩ := rekeying.opened distinct missing opened
    rw [contentAt_of_names opened.named] at content
    exact ⟨⟨still, some.inj content, opened.named⟩, opened.key_eq⟩
  have replacing (newKey : Key) (rules : List PassRule)
      (secrets : SecretsDb Key) (key_eq : secrets.key = newKey) :
      DiskTriple (fun disk : VaultDisk Key Sealed =>
        Rekeying paths newKeyFile newKey rows lost disk ∧ disk.files secrets.file = .vault .blank ∧
          disk.names paths.secretsDb = some secrets.file)
        (replaceAllPassRules cipher secrets rules)
        (fun _ disk =>
          Rekeying paths newKeyFile newKey rows lost disk ∧
            ∃ drawn, disk.contentAt paths.secretsDb = some (.vault
              (blank.replaceAllPassRules cipher newKey drawn rules)))
        (fun _ => True) := by
    refine of_relation (fun _ _ => replaceAllPassRules_relates) ?_
      (fun _ _ _ _ => trivial)
    rintro disk _ new ⟨rekeying, blank, named⟩ ⟨found, drawn, content, written⟩
    rw [blank] at content
    obtain rfl := File.vault.inj content
    subst written
    refine ⟨rekeying.write blank, drawn, ?_⟩
    rw [contentAt_write, if_pos named, key_eq]
  have configuring (newKey : Key) (rules : List PassRule)
      (listed : tables.listPassRules cipher key = some rules) :
      DiskTriple (fun disk : VaultDisk Key Sealed =>
        (Rekeying paths newKeyFile newKey rows lost disk ∧
          ∃ drawn, disk.contentAt paths.secretsDb = some (.vault
            (blank.replaceAllPassRules cipher newKey drawn rules))) ∧
          ∃ found, disk.contentAt paths.configDb = some (.config found))
        (setConfig paths.configDb keyFilePathKey newKeyFile)
        (fun _ new =>
          ∃ newKey rules drawn, tables.listPassRules cipher key = some rules ∧
            (¬ lost → configured new paths = some (newKey,
              blank.replaceAllPassRules cipher newKey drawn rules)) ∧
            (lost → configured new paths = none))
        (fun _ => True) := by
    refine of_relation (fun _ _ => setConfig_relates _ _) ?_ (fun _ _ _ _ => trivial)
    rintro disk _ new ⟨⟨rekeying, drawn, vault⟩, _⟩ ⟨found, config, stored⟩
    exact ⟨newKey, rules, drawn, listed,
      rekeying.configured_of_setConfig installed.secretsRow vault config stored⟩
  unfold rekeyVault
  simp only [uses, installed.keyFile]
  refine ((readOldVault_keeps installed).consequence (fun _ => id)
    (fun _ _ => id) (fun _ _ => trivial)).bind fun read => ?_
  refine assuming ?_
  rintro ⟨loaded, listed⟩
  have distinct := installed.distinctPaths loaded
  refine (copying read.1 loaded).bind fun _ => ?_
  refine (removing read.1 distinct).bind fun _ => ?_
  refine (opening read.1 distinct).bind fun secrets => ?_
  refine assuming fun key_eq => ?_
  refine (replacing read.1 read.2 secrets key_eq).bind fun _ => ?_
  refine (openConfig_keeps (fun _ held => held.1.solid.1) fun _ _ => trivial).bind fun _ => ?_
  refine (configuring read.1 read.2 listed).bind fun _ => ?_
  exact pure fun _ => id

end

/-- Secrets and rules are kept exactly where no file was copied onto itself, and a rekeyed
vault had no secrets and its new key was spared. -/
theorem vault_contents_kept_iff (cipher : Cipher Key Sealed) (defaults paths : DbPaths)
    (dbPaths : Option DbPaths) (uses : dbPaths.getD defaults = paths) (keyPath : Str) (key : Key)
    (tables : Tables Sealed) (rows : KeyedMap Str Str) (app : App Key Sealed)
    (installed : Installed paths keyPath key tables rows app.disk) (fates : Fates VaultCall) :
    (∀ destination result after rest, moveVault defaults dbPaths destination app fates =
      .returned result after rest → (KeepsContents cipher key tables paths after.disk ↔
        ¬ app.disk.SameFile destination paths.secretsDb ∨ tables.passRules = [] ∧
          ∀ name, tables.metadata.lookup name = none)) ∧
      ∀ newKeyFile result after rest, rekeyVault cipher defaults dbPaths newKeyFile app fates =
        .returned result after rest → (KeepsContents cipher key tables paths after.disk ↔
          (∀ name, tables.metadata.lookup name = none) ∧
            ¬ app.disk.SameFile (backupPath paths) newKeyFile) := by
  constructor
  · intro destination result after rest returned
    have met := moveVault_returns destination uses installed app fates rfl
    rw [returned] at met
    obtain ⟨moved, leads, kept, lost⟩ := met
    have exactly : KeepsContents cipher key tables paths after.disk ↔
        SameContents cipher key tables key moved := by
      constructor
      · rintro ⟨newKey, new, found, same⟩
        rw [leads] at found
        cases found
        exact same
      · exact fun same => ⟨key, moved, leads, same⟩
    rw [exactly]
    by_cases shared : app.disk.SameFile destination paths.secretsDb
    · rw [lost shared, sameContents_blank_iff]
      simp [shared]
    · rw [kept shared]
      simp only [shared, not_false_eq_true, true_or, iff_true]
      exact ⟨fun _ => rfl, rfl⟩
  · intro newKeyFile result after rest returned
    have met := rekeyVault_returns cipher newKeyFile uses installed app fates rfl
    rw [returned] at met
    obtain ⟨newKey, rules, drawn, listed, kept, lost⟩ := met
    by_cases shared : app.disk.SameFile (backupPath paths) newKeyFile
    · have nothing := lost shared
      constructor
      · rintro ⟨other, new, found, _⟩
        rw [nothing] at found
        cases found
      · exact fun impossible => absurd shared impossible.2
    · have leads := kept shared
      have exactly : KeepsContents cipher key tables paths after.disk ↔
          SameContents cipher key tables newKey
            (blank.replaceAllPassRules cipher newKey drawn rules) := by
        constructor
        · rintro ⟨other, new, found, same⟩
          rw [leads] at found
          cases found
          exact same
        · exact fun same => ⟨newKey, _, leads, same⟩
      rw [exactly, sameContents_rules_iff listed]
      simp [shared]

def plainCipher : Cipher Nat (Nat × Str) where
  encrypt key _ text := (key, text)
  decrypt key entry := if entry.1 = key then some entry.2 else none
  decrypt_encrypt _ _ _ := if_pos rfl

def profilePaths : DbPaths where
  configDb := "databases/config.sqlite".toList
  cacheDb := "databases/metadata.sqlite".toList
  secretsDb := "secrets/pass.redb".toList
  keyFile := some "secrets/master.key".toList

def proxyVault : Tables (Nat × Str) where
  passRules := []
  metadata := (∅ : KeyedMap Str (Nat × Str)).insert "proxy:socks5".toList (1, "secret".toList)

def profileDisk : VaultDisk Nat (Nat × Str) :=
  let nothing : VaultDisk Nat (Nat × Str) :=
    { names := fun _ => none
      files := fun _ => .other
      next := 0
      bounded := by
        intro name file found
        cases found }
  ((((nothing.create profilePaths.configDb (.config ∅)).create profilePaths.cacheDb .cache).create
    profilePaths.secretsDb (.vault proxyVault)).create
    "secrets/master.key".toList (.key 1)).create
    "secrets/new.key".toList (.key 2)

def profileApp : App Nat (Nat × Str) where
  disk := profileDisk
  session :=
    { dbPaths := some profilePaths
      dbs := some ⟨0, 2, 1⟩
      passRules := []
      revision := 0 }
  closed := []
  nextSlot := 1
  drawn := 0

theorem profile_installed : Installed profilePaths "secrets/master.key".toList 1 proxyVault ∅
    profileApp.disk where
  keyFile := rfl
  config := rfl
  cache := rfl
  vault := rfl
  key := rfl
  secretsRow := rfl
  keyRow := rfl

theorem exists_of_hasReturned {Value : Type}
    {ending : Ending VaultCall (App Key Sealed) VaultError Value}
    (returned : ending.hasReturned = true) :
    ∃ value after rest, ending = .returned value after rest := by
  cases ending with
  | returned value after rest => exact ⟨value, after, rest, rfl⟩
  | failed _ after rest | crashed after => cases returned

/-- Rekeying the vault returns and loses the proxy password. -/
theorem rekey_loses_named_secrets : ∃ result after rest,
    rekeyVault plainCipher profilePaths none "secrets/new.key".toList
      profileApp .allWork = .returned result after rest ∧
      ¬ KeepsContents plainCipher 1 proxyVault profilePaths after.disk := by
  obtain ⟨result, after, rest, returned⟩ :=
    exists_of_hasReturned (show (rekeyVault plainCipher profilePaths none
      "secrets/new.key".toList profileApp .allWork).hasReturned = true by rfl)
  refine ⟨result, after, rest, returned, ?_⟩
  have uses : (none : Option DbPaths).getD profilePaths = profilePaths := rfl
  have met :=
    rekeyVault_returns plainCipher "secrets/new.key".toList uses
      profile_installed profileApp .allWork rfl
  rw [returned] at met
  obtain ⟨_, _, _, listed, kept, _⟩ := met
  have noBackup : ¬ profileApp.disk.SameFile (backupPath profilePaths)
      "secrets/new.key".toList := by
    rintro (same | ⟨_, named, _⟩)
    · revert same
      decide
    · cases named
  rintro ⟨_, new, leads, same⟩
  rw [kept noBackup] at leads
  cases leads
  have missing := (sameContents_rules_iff listed).mp same "proxy:socks5".toList
  cases missing

/-- Moving the vault to a path without a file keeps it. -/
theorem move_keeps_proxy_password : ∃ result after rest,
    moveVault profilePaths none "backup/pass.redb".toList profileApp
      .allWork = .returned result after rest ∧
      KeepsContents plainCipher 1 proxyVault profilePaths after.disk := by
  obtain ⟨result, after, rest, returned⟩ :=
    exists_of_hasReturned (show (moveVault profilePaths none "backup/pass.redb".toList profileApp
      .allWork).hasReturned = true by rfl)
  refine ⟨result, after, rest, returned, ?_⟩
  refine ((vault_contents_kept_iff plainCipher profilePaths profilePaths none
    rfl "secrets/master.key".toList 1 proxyVault ∅ profileApp profile_installed
    .allWork).1 _ result after rest returned).mpr (.inl ?_)
  rintro (same | ⟨_, unnamed, _⟩)
  · revert same
    decide
  · cases unnamed

end Arclain.Vault
