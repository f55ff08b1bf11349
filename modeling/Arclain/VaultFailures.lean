import Arclain.VaultContents

namespace Arclain.Vault

/-!
# What is left when moving or rekeying the vault fails

A failed operation does not open the handle again.
-/

open FaultyCalls NamedFiles Text Disk DiskTriple Preserves

variable {Key Sealed Value : Type}

/-- A path names none of the files of a running application. -/
structure Apart (disk : VaultDisk Key Sealed) (paths : DbPaths) (keyPath target : Str) : Prop where
  vault : ¬ disk.SameFile target paths.secretsDb
  key : ¬ disk.SameFile target keyPath
  config : ¬ disk.SameFile target paths.configDb
  cache : ¬ disk.SameFile target paths.cacheDb

theorem MayHaveOpened.refl (paths : DbPaths) (disk : VaultDisk Key Sealed) :
    MayHaveOpened paths disk disk :=
  ⟨disk, .refl _ _, .inl rfl⟩

section

variable {paths : DbPaths} {keyPath target : Str} {key : Key} {tables : Tables Sealed}
  {rows : KeyedMap Str Str}
  {disk new : VaultDisk Key Sealed}

theorem Installed.leads (installed : Installed paths keyPath key tables rows disk) :
    configured disk paths = some (key, tables) := by
  rw [configured_eq installed.config installed.keyRow installed.secretsRow,
    installed.key, installed.vault]

theorem Installed.overwrites {content : File Key Sealed}
    (installed : Installed paths keyPath key tables rows disk)
    (apart : Apart disk paths keyPath target) (overwrites : Overwrites disk target content new) :
    Installed paths keyPath key tables rows new := by
  refine { installed with config := ?_, cache := ?_, vault := ?_, key := ?_ }
  · rw [overwrites.others _ apart.config]
    exact installed.config
  · rw [overwrites.others _ apart.cache]
    exact installed.cache
  · rw [overwrites.others _ apart.vault]
    exact installed.vault
  · rw [overwrites.others _ apart.key]
    exact installed.key

theorem copyFile_backs_up (installed : Installed paths keyPath key tables rows disk)
    (apart : Apart disk paths keyPath target) :
    DiskTriple (fun found => found = disk) (copyFile paths.secretsDb target) (fun _ new =>
      Installed paths keyPath key tables rows new ∧ new.contentAt target = some (.vault tables))
      (Installed paths keyPath key tables rows) := by
  refine (copyFile_relates _ _).consequence (fun _ => id) ?_ ?_
  · rintro _ new ⟨content, overwrites, read, _⟩
    refine ⟨installed.overwrites apart overwrites, ?_⟩
    rw [overwrites.written target (.inl rfl), ← read apart.vault]
    exact installed.vault
  · rintro new (rfl | ⟨content, overwrites⟩)
    · exact installed
    · exact installed.overwrites apart overwrites

end

section

variable {defaults paths : DbPaths} {dbPaths : Option DbPaths} {destination keyPath : Str}
  {key : Key}
  {tables : Tables Sealed}
  {rows : KeyedMap Str Str}
  {disk new : VaultDisk Key Sealed}

theorem Installed.setConfig {found : KeyedMap Str Str}
    (installed : Installed paths keyPath key tables rows disk)
    (copied : disk.contentAt destination = some (.vault tables))
    (config : disk.contentAt paths.configDb = some (.config found))
    (stored : new = disk.store paths.configDb
      (.config (found.insert secretsDbPathKey destination))) :
    Installed { paths with secretsDb := destination } keyPath key tables
      (rows.insert secretsDbPathKey destination) new := by
  have found_eq : found = rows :=
    File.config.inj (Option.some.inj (config.symm.trans installed.config))
  subst found_eq
  have unchanged := contentAt_of_stored config stored
  refine ⟨installed.keyFile, ?_, ?_, ?_, ?_, ?_, ?_⟩
  · rw [stored]
    exact contentAt_store_self
  · rw [unchanged _ (by simp [installed.cache])]
    exact installed.cache
  · rw [unchanged _ (by simp [copied])]
    exact copied
  · rw [unchanged _ (by simp [installed.key])]
    exact installed.key
  · rw [AList.lookup_insert]
    rfl
  · rw [AList.lookup_insert_ne (by decide)]
    exact installed.keyRow

theorem Installed.contents_of_mayHaveOpened
    (installed : Installed paths keyPath key tables rows disk)
    (opened : MayHaveOpened paths disk new) :
    new.contentAt paths.configDb = some (.config rows) ∧ new.contentAt keyPath = some (.key key) ∧
      new.contentAt paths.secretsDb = some (.vault tables) := by
  obtain ⟨between, agree, made⟩ := opened
  have config : between.contentAt paths.configDb = some (.config rows) := by
    rw [(agree _ (ne_of_contentAt disk (by simp [installed.config, installed.cache]))).2]
    exact installed.config
  have keyContent : between.contentAt keyPath = some (.key key) := by
    rw [(agree _ (ne_of_contentAt disk (by simp [installed.key, installed.cache]))).2]
    exact installed.key
  have vault : between.contentAt paths.secretsDb = some (.vault tables) := by
    rw [(agree _ (ne_of_contentAt disk (by simp [installed.vault, installed.cache]))).2]
    exact installed.vault
  have same : new = between := by
    rcases made with same | ⟨_, same⟩ | ⟨isEmpty | isMissing, _⟩
    · exact same
    · exact same
    · rw [vault] at isEmpty
      cases isEmpty
    · rw [vault] at isMissing
      cases isMissing
  rw [same]
  exact ⟨config, keyContent, vault⟩

theorem Installed.leads_of_mayHaveOpened (moved :
    Installed { paths with secretsDb := destination } keyPath key tables rows disk)
    (row : rows.lookup secretsDbPathKey = some destination)
    (opened : MayHaveOpened { paths with secretsDb := destination } disk new) :
    configured new paths = some (key, tables) := by
  obtain ⟨config, keyContent, vault⟩ := moved.contents_of_mayHaveOpened opened
  have keyRow : (rows.lookup keyFilePathKey).or paths.keyFile = some keyPath := moved.keyRow
  change new.contentAt paths.configDb = some (.config rows) at config
  change new.contentAt destination = some (.vault tables) at vault
  have secretsRow : (rows.lookup secretsDbPathKey).getD paths.secretsDb = destination := by
    rw [row]
    rfl
  rw [configured_eq config keyRow secretsRow, keyContent, vault]

theorem moveVault_keeps_configured (uses : dbPaths.getD defaults = paths)
    (installed : Installed paths keyPath key tables rows disk)
    (apart : Apart disk paths keyPath destination) :
    DiskTriple (fun found => found = disk) (moveVault defaults dbPaths destination)
      (fun _ new => configured new paths = some (key, tables))
      (fun new => configured new paths = some (key, tables)) := by
  have untouched (new : VaultDisk Key Sealed)
      (still : Installed paths keyPath key tables rows new) :
      configured new paths = some (key, tables) :=
    still.leads
  let newRows := rows.insert secretsDbPathKey destination
  let newPaths := { paths with secretsDb := destination }
  have newRow : newRows.lookup secretsDbPathKey = some destination := AList.lookup_insert _
  have configuring : DiskTriple (fun disk =>
    (Installed paths keyPath key tables rows disk ∧
      disk.contentAt destination = some (.vault tables)) ∧
      ∃ found, disk.contentAt paths.configDb = some (.config found))
        (setConfig paths.configDb secretsDbPathKey destination)
        (fun _ => Installed newPaths keyPath key tables newRows)
        (fun new => configured new paths = some (key, tables)) := by
    refine of_relation (fun _ _ => setConfig_relates _ _) ?_ ?_
    · rintro disk _ new ⟨⟨still, copied⟩, _⟩ ⟨found, config, stored⟩
      exact still.setConfig copied config stored
    · rintro disk new ⟨⟨still, copied⟩, _⟩ (rfl | ⟨found, config, stored⟩)
      · exact still.leads
      · exact (still.setConfig copied config stored).leads_of_mayHaveOpened newRow (.refl _ _)
  have reopening (loaded : Key) : DiskTriple (fun disk =>
    Installed newPaths keyPath key tables newRows disk ∧
      disk.contentAt keyPath = some (.key loaded)) (openDatabases newPaths loaded)
        (fun _ new => configured new paths = some (key, tables))
        (fun new => configured new paths = some (key, tables)) := by
    refine of_relation (fun disk held =>
      openDatabases_relates loaded
        (by simp [Solid, held.1.config]) (by simp [Solid, held.1.cache])) ?_ ?_
    · rintro disk secrets new ⟨moved, _⟩ ⟨_, _, between, agree, _, made⟩
      exact moved.leads_of_mayHaveOpened newRow ⟨between, agree, .inr made⟩
    · exact fun _ _ held => held.1.leads_of_mayHaveOpened newRow
  unfold moveVault
  simp only [uses, installed.keyFile]
  refine (createParent_keeps fun _ same => same ▸ installed.leads).bind fun _ => ?_
  refine ((copyFile_backs_up installed apart).consequence (fun _ => id)
    (fun _ _ => id) untouched).bind fun _ => ?_
  refine (attemptOnly_keeps fun new held => untouched new held.1).bind fun _ => ?_
  refine (openConfig_keeps (fun _ held => by simp [held.1.config])
    fun new held => untouched new held.1).bind fun _ => ?_
  refine configuring.bind fun _ => ?_
  refine (loadFromFile_keeps fun _ moved =>
    moved.leads_of_mayHaveOpened newRow (.refl _ _)).bind fun loaded => ?_
  refine DiskTriple.bind (reopening loaded) fun secrets => ?_
  exact DiskTriple.pure fun _ => id

end

section

variable {cipher : Cipher Key Sealed} {defaults paths : DbPaths} {dbPaths : Option DbPaths}
  {newKeyFile keyPath : Str}
  {key newKey : Key}
  {tables : Tables Sealed}
  {rows : KeyedMap Str Str}
  {disk new : VaultDisk Key Sealed}

/-- The vault stands in its backup, and its key is there. -/
structure BackedUp (paths : DbPaths) (keyPath : Str) (key : Key) (tables : Tables Sealed)
    (disk : VaultDisk Key Sealed) : Prop where
  vault : disk.contentAt (backupPath paths) = some (.vault tables)
  key : disk.contentAt keyPath = some (.key key)

/-- The old vault was removed after it was copied. -/
structure Removed (paths : DbPaths) (keyPath : Str) (key : Key) (tables : Tables Sealed)
    (rows : KeyedMap Str Str) (disk : VaultDisk Key Sealed) : Prop where
  backedUp : BackedUp paths keyPath key tables disk
  config : disk.contentAt paths.configDb = some (.config rows)
  cache : disk.contentAt paths.cacheDb = some .cache
  missing : disk.names paths.secretsDb = none
  backupCache : backupPath paths ≠ paths.cacheDb

theorem Installed.removed (installed : Installed paths keyPath key tables rows disk)
    (backup : disk.contentAt (backupPath paths) = some (.vault tables))
    (backupVault : backupPath paths ≠ paths.secretsDb)
    (backupCache : backupPath paths ≠ paths.cacheDb) :
    Removed paths keyPath key tables rows (disk.unlink paths.secretsDb) := by
  have kept (name : Str) (different : disk.contentAt name ≠ some (.vault tables)) :
      (disk.unlink paths.secretsDb).contentAt name = disk.contentAt name := by
    refine contentAt_unlink_of_ne ?_
    rintro rfl
    exact different installed.vault
  refine ⟨⟨?_, ?_⟩, ?_, ?_, ?_, backupCache⟩
  · rw [contentAt_unlink_of_ne backupVault]
    exact backup
  · rw [kept _ (by simp [installed.key])]
    exact installed.key
  · rw [kept _ (by simp [installed.config])]
    exact installed.config
  · rw [kept _ (by simp [installed.cache])]
    exact installed.cache
  · exact Function.update_self _ _ _

theorem Removed.opened (removed : Removed paths keyPath key tables rows disk)
    (opened : MayHaveOpened paths disk new) :
    (BackedUp paths keyPath key tables new ∧ new.contentAt paths.configDb = some (.config rows)) ∧
      ∀ name, name = backupPath paths ∨ name = keyPath ∨ name = paths.configDb →
        ¬ new.SameFile paths.secretsDb name := by
  obtain ⟨between, agree, made⟩ := opened
  obtain ⟨⟨backup, keyContent⟩, config, cache, missing, backupCache⟩ := removed
  -- None of the three names is that of the cache or that of the vault.
  have watched (name : Str) (isWatched : name = backupPath paths ∨ name = keyPath ∨
      name = paths.configDb) :
      name ≠ paths.cacheDb ∧ name ≠ paths.secretsDb := by
    have unnamed : disk.contentAt paths.secretsDb = none := by
      rw [contentAt, missing]
      rfl
    rcases isWatched with rfl | rfl | rfl
    · exact ⟨backupCache, ne_of_contentAt disk (by simp [backup, unnamed])⟩
    · exact ⟨ne_of_contentAt disk (by simp [keyContent, cache]),
        ne_of_contentAt disk (by simp [keyContent, unnamed])⟩
    · exact ⟨ne_of_contentAt disk (by simp [config, cache]),
        ne_of_contentAt disk (by simp [config, unnamed])⟩
  have vaultCache : paths.secretsDb ≠ paths.cacheDb := by
    refine ne_of_contentAt disk ?_
    rw [contentAt, missing, cache]
    simp
  have stillMissing : between.names paths.secretsDb = none := by
    rw [(agree _ vaultCache).1]
    exact missing
  have different (name : Str) (isWatched : name = backupPath paths ∨ name = keyPath ∨
      name = paths.configDb) :
      ¬ between.SameFile paths.secretsDb name := by
    rintro (same | ⟨_, named, _⟩)
    · exact (watched name isWatched).2 same.symm
    · rw [stillMissing] at named
      cases named
  have outcome : new = between ∨ new = between.store paths.secretsDb (.vault .blank) := by
    rcases made with same | ⟨_, same⟩ | ⟨_, same⟩
    · exact .inl same
    · exact .inl same
    · exact .inr same
  have unchanged (name : Str) (isWatched : name = backupPath paths ∨ name = keyPath ∨
      name = paths.configDb) :
      new.contentAt name = disk.contentAt name ∧ ¬ new.SameFile paths.secretsDb name := by
    have before := (agree name (watched name isWatched).1).2
    rcases outcome with rfl | rfl
    · exact ⟨before, different name isWatched⟩
    · refine ⟨?_, ?_⟩
      · rw [contentAt_store_of_not_same (different name isWatched)]
        exact before
      · rw [sameFile_store]
        exact different name isWatched
  refine ⟨⟨⟨?_, ?_⟩, ?_⟩, fun name isWatched => (unchanged name isWatched).2⟩
  · rw [(unchanged _ (.inl rfl)).1]
    exact backup
  · rw [(unchanged _ (.inr (.inl rfl))).1]
    exact keyContent
  · rw [(unchanged _ (.inr (.inr rfl))).1]
    exact config

theorem BackedUp.store {content : File Key Sealed}
    (backedUp : BackedUp paths keyPath key tables disk)
    (config : disk.contentAt paths.configDb = some (.config rows)) :
    BackedUp paths keyPath key tables (disk.store paths.configDb content) := by
  refine ⟨?_, ?_⟩
  · rw [contentAt_store_of_ne (by simp [backedUp.vault, config])]
    exact backedUp.vault
  · rw [contentAt_store_of_ne (by simp [backedUp.key, config])]
    exact backedUp.key

theorem rekeyVault_keeps_vault (uses : dbPaths.getD defaults = paths)
    (installed : Installed paths keyPath key tables rows disk)
    (apart : Apart disk paths keyPath (backupPath paths)) :
    DiskTriple (fun found => found = disk) (rekeyVault cipher defaults dbPaths newKeyFile)
      (fun _ => BackedUp paths keyPath key tables)
      (fun new =>
        configured new paths = some (key, tables) ∨ BackedUp paths keyPath key tables new) := by
  let safe (new : VaultDisk Key Sealed) : Prop :=
    configured new paths = some (key, tables) ∨ BackedUp paths keyPath key tables new
  let backed (new : VaultDisk Key Sealed) : Prop :=
    BackedUp paths keyPath key tables new ∧ new.contentAt paths.configDb = some (.config rows)
  have untouched (new : VaultDisk Key Sealed)
      (still : Installed paths keyPath key tables rows new) : safe new :=
    .inl still.leads
  have backupVault : backupPath paths ≠ paths.secretsDb := fun same => apart.vault (.inl same)
  have backupCache : backupPath paths ≠ paths.cacheDb := fun same => apart.cache (.inl same)
  have removing : DiskTriple (fun disk =>
    Installed paths keyPath key tables rows disk ∧
      disk.contentAt (backupPath paths) = some (.vault tables))
        (removeFile .removeFile paths.secretsDb)
        (fun _ => Removed paths keyPath key tables rows) safe := by
    refine of_relation (fun _ _ => removeFile_relates .removeFile) ?_ ?_
    · rintro disk _ _ ⟨still, backup⟩ rfl
      exact still.removed backup backupVault backupCache
    · rintro disk new ⟨still, backup⟩ (rfl | rfl)
      · exact .inl still.leads
      · exact .inr (still.removed backup backupVault backupCache).backedUp
  -- The rules are written to a file that none of the names stands for.
  let filled (secrets : SecretsDb Key) (disk : VaultDisk Key Sealed) : Prop :=
    backed disk ∧ ∀ name, name = backupPath paths ∨ name = keyPath ∨ name = paths.configDb →
      disk.names name ≠ some secrets.file
  have opening (newKey : Key) : DiskTriple (Removed paths keyPath key tables rows)
      (openDatabases paths newKey) filled safe := by
    refine of_relation (fun disk held =>
      openDatabases_relates newKey
        (by simp [Solid, held.config]) (by simp [Solid, held.cache])) ?_ ?_
    · rintro disk secrets new removed ⟨_, named, between, agree, _, made⟩
      obtain ⟨kept, different⟩ := removed.opened ⟨between, agree, .inr made⟩
      refine ⟨kept, fun name isWatched shares => ?_⟩
      exact different name isWatched (.inr ⟨_, named, shares⟩)
    · exact fun disk new removed opened => .inr (removed.opened opened).1.1
  have written (secrets : SecretsDb Key) (disk : VaultDisk Key Sealed)
      (content : File Key Sealed) (held : filled secrets disk) :
      backed (disk.write secrets.file content) := by
    obtain ⟨⟨backedUp, config⟩, different⟩ := held
    refine ⟨⟨?_, ?_⟩, ?_⟩
    · rw [contentAt_write, if_neg (different _ (.inl rfl))]
      exact backedUp.vault
    · rw [contentAt_write, if_neg (different _ (.inr (.inl rfl)))]
      exact backedUp.key
    · rw [contentAt_write, if_neg (different _ (.inr (.inr rfl)))]
      exact config
  have replacing (secrets : SecretsDb Key) (rules : List PassRule) :
      DiskTriple (filled secrets) (replaceAllPassRules cipher secrets rules) (fun _ => backed)
        safe := by
    refine of_relation (fun _ _ => replaceAllPassRules_relates) ?_ ?_
    · rintro disk _ _ held ⟨found, _, _, rfl⟩
      exact written secrets disk _ held
    · rintro disk _ held (rfl | ⟨content, rfl⟩)
      · exact .inr held.1.1
      · exact .inr (written secrets disk content held).1
  have configuring : DiskTriple (fun disk =>
    backed disk ∧ ∃ found, disk.contentAt paths.configDb = some (.config found))
        (setConfig paths.configDb keyFilePathKey newKeyFile)
        (fun _ => BackedUp paths keyPath key tables) safe := by
    refine of_relation (fun _ _ => setConfig_relates _ _) ?_ ?_
    · rintro disk _ _ ⟨⟨backedUp, config⟩, _⟩ ⟨found, _, rfl⟩
      exact backedUp.store config
    · rintro disk _ ⟨⟨backedUp, config⟩, _⟩ (rfl | ⟨found, _, rfl⟩)
      · exact .inr backedUp
      · exact .inr (backedUp.store config)
  unfold rekeyVault
  simp only [uses, installed.keyFile]
  refine ((readOldVault_keeps installed).consequence (fun _ => id) (fun _ _ held => held.1)
    (fun _ same => .inl (same ▸ installed.leads))).bind fun read => ?_
  refine ((copyFile_backs_up installed apart).consequence (fun _ => id)
    (fun _ _ => id) untouched).bind fun _ => ?_
  refine removing.bind fun _ => ?_
  refine (opening read.1).bind fun secrets => ?_
  refine (replacing secrets read.2).bind fun _ => ?_
  refine (openConfig_keeps (fun _ held => by simp [held.2])
    fun _ held => .inr held.1).bind fun _ => ?_
  refine configuring.bind fun _ => ?_
  exact DiskTriple.pure fun _ => id

end

section

variable {cipher : Cipher Key Sealed}

/-- What the application knows of its vault, and the handles that were closed. -/
def vaultSession (app : App Key Sealed) (_ : Fates VaultCall) : Session Key × List Nat :=
  (app.session, app.closed)

/-- No call but the removal of the old vault changes the observation. -/
class Unseen {Seen : Type} (observe : App Key Sealed → Fates VaultCall → Seen) : Prop where
  spent : ∀ label ≠ .removeFile, ∀ app fates, observe app (fates.spend label) = observe app fates
  changed : ∀ (app : App Key Sealed) disk nextSlot drawn fates,
    observe { app with disk, nextSlot, drawn } fates = observe app fates

instance : Unseen (@vaultSession Key Sealed) :=
  ⟨fun _ _ _ _ => rfl, fun _ _ _ _ _ => rfl⟩

instance : Unseen (fun (_ : App Key Sealed) fates => fates .removeFile) :=
  ⟨fun _ other _ _ => Function.update_of_ne other.symm _ _, fun _ _ _ _ _ => rfl⟩

variable {Seen : Type} {observe : App Key Sealed → Fates VaultCall → Seen} [Unseen observe]

theorem preserves_onDisk_of {label : VaultCall}
    {effect : VaultDisk Key Sealed → Option Value × VaultDisk Key Sealed}
    (spent : ∀ app fates, observe app (fates.spend label) = observe app fates) :
    Preserves observe (onDisk label effect) := by
  refine Preserves.bind (call spent fun app =>
    Unseen.changed app _ app.nextSlot app.drawn) fun value => ?_
  cases value with
  | none => exact throw _
  | some value => exact Preserves.pure value

theorem preserves_onDisk {label : VaultCall}
    {effect : VaultDisk Key Sealed → Option Value × VaultDisk Key Sealed}
    (other : label != .removeFile) : Preserves observe (onDisk label effect) :=
  preserves_onDisk_of (Unseen.spent label (bne_iff_ne.mp other))

variable {path : Str}

theorem preserves_openCache :
    Preserves observe (openCache path : Program Key Sealed Unit) := by
  refine (preserves_onDisk rfl).attempt.bind fun result => ?_
  cases result with
  | ok => exact Preserves.pure _
  | error =>
    have looking : Preserves observe (pathExists path : Program Key Sealed Bool) :=
      fun _ _ => rfl
    refine looking.bind fun isThere => ?_
    cases isThere with
    | true => exact (preserves_onDisk rfl).bind fun _ => preserves_onDisk rfl
    | false =>
      change Preserves observe (openCacheFile .reopenCache path)
      exact preserves_onDisk rfl

theorem preserves_openSecrets {key : Key} : Preserves observe
    (openSecrets path key : Program Key Sealed (SecretsDb Key)) :=
  (preserves_onDisk rfl).bind fun _ app => Unseen.changed app app.disk _ app.drawn

theorem preserves_openDatabases {paths : DbPaths} {key : Key} : Preserves observe
    (openDatabases paths key : Program Key Sealed (SecretsDb Key)) := by
  unfold openDatabases
  refine (preserves_onDisk rfl).bind fun _ => ?_
  refine (preserves_onDisk rfl).bind fun _ => ?_
  refine preserves_openCache.bind fun _ => ?_
  refine (preserves_onDisk rfl).bind fun _ => ?_
  refine preserves_openSecrets.bind fun secrets => ?_
  exact (preserves_onDisk rfl).bind fun _ => Preserves.pure secrets

theorem preserves_copyFile {source target : Str} : Preserves observe
    (copyFile source target : Program Key Sealed Unit) :=
  (preserves_onDisk rfl).bind fun _ => preserves_onDisk rfl

theorem preserves_createParent :
    Preserves observe (createParent path : Program Key Sealed Unit) := by
  unfold createParent
  split
  · exact preserves_onDisk rfl
  · exact Preserves.pure ()

theorem preserves_replaceAllPassRules {secrets : SecretsDb Key} {rules : List PassRule} :
    Preserves observe (replaceAllPassRules cipher secrets rules) := by
  have drawing : Preserves observe (fun app fates =>
    .returned app.drawn { app with drawn := app.drawn + rules.length }
      fates : Program Key Sealed Nat) :=
    fun app => Unseen.changed app app.disk app.nextSlot _
  exact drawing.bind fun _ => preserves_onDisk rfl

variable {defaults : DbPaths} {dbPaths : Option DbPaths}

theorem preserves_moveVault {destination : Str} :
    Preserves observe (moveVault defaults dbPaths destination :
      Program Key Sealed (DbPaths × SecretsDb Key)) := by
  unfold moveVault
  refine preserves_createParent.bind fun _ => ?_
  refine preserves_copyFile.bind fun _ => ?_
  refine (preserves_onDisk rfl).bind fun _ => ?_
  refine (preserves_onDisk rfl).bind fun _ => ?_
  refine (preserves_onDisk rfl).bind fun _ => ?_
  dsimp only
  split
  · exact throw _
  · refine (preserves_onDisk rfl).bind fun key => ?_
    exact preserves_openDatabases.bind fun _ => Preserves.pure _

theorem preserves_readOldVault {secretsDb oldKeyPath newKeyFile : Str} :
    Preserves observe (readOldVault cipher secretsDb oldKeyPath newKeyFile) := by
  refine (preserves_onDisk rfl).bind fun oldKey => ?_
  refine (preserves_onDisk rfl).bind fun newKey => ?_
  refine preserves_openSecrets.bind fun secrets => ?_
  exact (preserves_onDisk rfl).bind fun _ => Preserves.pure _

theorem preserves_rekeyVault {newKeyFile : Str} :
    Preserves vaultSession (rekeyVault cipher defaults dbPaths newKeyFile) := by
  unfold rekeyVault
  dsimp only
  split
  · exact throw _
  · refine preserves_readOldVault.bind fun read => ?_
    refine preserves_copyFile.bind fun _ => ?_
    refine (preserves_onDisk_of fun _ _ => rfl).bind fun _ => ?_
    refine preserves_openDatabases.bind fun secrets => ?_
    refine preserves_replaceAllPassRules.bind fun _ => ?_
    refine (preserves_onDisk rfl).bind fun _ => ?_
    exact (preserves_onDisk rfl).bind fun _ => Preserves.pure _

/-- The application is as before but for its vault, whose handles are closed. -/
structure HandleClosed (before after : App Key Sealed) : Prop where
  session : after.session = { before.session with dbs := none }
  closed : ∀ secrets, before.session.dbs = some secrets → secrets.slot ∈ after.closed

theorem Triple.of_preserves {app : App Key Sealed} {program : Program Key Sealed Value}
    (preserves : Preserves vaultSession program) : Triple (HandleClosed app) program
      ⟨fun _ => HandleClosed app, fun _ => HandleClosed app, fun _ => True⟩ := by
  have moved {state after : App Key Sealed} {fates rest : Fates VaultCall}
      (holds : HandleClosed app state)
      (seen : vaultSession after rest = vaultSession state fates) :
      HandleClosed app after := by
    obtain ⟨sameSession, sameClosed⟩ := Prod.mk.inj seen
    refine ⟨sameSession.trans holds.session, fun secrets live => ?_⟩
    rw [sameClosed]
    exact holds.closed secrets live
  intro state fates holds
  have seen := preserves state fates
  cases ended : program state fates with
  | returned _ after rest | failed _ after rest =>
    rw [ended] at seen
    exact moved holds seen
  | crashed after => trivial

theorem closeVaultHandle_closes (app : App Key Sealed) :
    Triple (fun found => found = app) closeVaultHandle
      ⟨fun _ => HandleClosed app, fun _ => HandleClosed app, fun _ => True⟩ := by
  rintro found _ rfl
  unfold closeVaultHandle
  cases live : found.session.dbs with
  | none =>
    refine ⟨?_, fun secrets found => ?_⟩
    · rw [← live]
    · rw [live] at found
      cases found
  | some secrets =>
    refine ⟨rfl, fun other found => ?_⟩
    rw [live] at found
    cases found
    exact List.mem_cons_self

theorem currentDbPaths_open (app : App Key Sealed) :
    Triple (fun found => found = app) currentDbPaths
      ⟨fun _ found => found = app, fun _ => HandleClosed app, fun _ => True⟩ :=
  fun _ _ => id

theorem runMoveVault_closes (cipher : Cipher Key Sealed) (defaults : DbPaths) (destination : Str)
    (app : App Key Sealed) :
    Triple (fun found => found = app) (runMoveVault cipher defaults destination)
      ⟨fun _ _ => True, fun _ => HandleClosed app, fun _ => True⟩ := by
  refine (currentDbPaths_open app).bind fun dbPaths => ?_
  refine (closeVaultHandle_closes app).bind fun _ => ?_
  refine (Triple.of_preserves (preserves_onDisk rfl)).bind fun _ => ?_
  refine (Triple.of_preserves preserves_moveVault.mapError).bind fun moved => ?_
  refine (Triple.of_preserves (preserves_onDisk rfl)).bind fun _ => ?_
  refine (Triple.of_preserves (preserves_onDisk rfl)).bind fun rules => ?_
  exact fun _ _ _ => trivial

theorem runRekeyVault_closes (cipher : Cipher Key Sealed) (defaults : DbPaths) (keyFile : Str)
    (app : App Key Sealed) :
    Triple (fun found => found = app) (runRekeyVault cipher defaults keyFile)
      ⟨fun _ _ => True, fun _ => HandleClosed app, fun _ => True⟩ := by
  refine (currentDbPaths_open app).bind fun dbPaths => ?_
  refine (closeVaultHandle_closes app).bind fun _ => ?_
  refine (Triple.of_preserves (preserves_onDisk rfl)).bind fun _ => ?_
  refine (Triple.of_preserves preserves_rekeyVault.mapError).bind fun rekeyed => ?_
  refine (Triple.of_preserves (preserves_onDisk rfl)).bind fun _ => ?_
  exact fun _ _ _ => trivial

end

section

variable {cipher : Cipher Key Sealed} {defaults paths : DbPaths} {keyPath : Str} {key : Key}
  {tables : Tables Sealed}
  {rows : KeyedMap Str Str}
  {app : App Key Sealed}
variable {failed : VaultError → App Key Sealed → Prop} {crashed : App Key Sealed → Prop}

theorem currentDbPaths_reads (app : App Key Sealed) :
    Triple (fun found => found = app) currentDbPaths ⟨fun dbPaths found =>
      found = app ∧ dbPaths = app.session.dbPaths, failed, crashed⟩ := by
  rintro _ _ rfl
  exact ⟨rfl, rfl⟩

theorem closeVaultHandle_keeps {dbPaths : Option DbPaths} :
    Triple (fun found => found = app ∧ dbPaths = app.session.dbPaths) closeVaultHandle
      ⟨fun _ found => found.disk = app.disk ∧ dbPaths = app.session.dbPaths, failed, crashed⟩ := by
  rintro _ fates ⟨rfl, read⟩
  unfold closeVaultHandle
  split
  · exact ⟨rfl, read⟩
  · exact ⟨rfl, read⟩

theorem runMoveVault_keeps_configured (cipher : Cipher Key Sealed) (destination : Str)
    (uses : app.session.dbPaths.getD defaults = paths)
    (installed : Installed paths keyPath key tables rows app.disk)
    (apart : Apart app.disk paths keyPath destination) :
    Triple (fun found => found = app) (runMoveVault cipher defaults destination) ⟨fun _ _ => True,
      fun _ found => configured found.disk paths = some (key, tables),
      fun found => configured found.disk paths = some (key, tables)⟩ := by
  refine (currentDbPaths_reads app).bind fun dbPaths => ?_
  refine closeVaultHandle_keeps.bind fun _ => ?_
  refine DiskTriple.assuming (?_ : dbPaths = app.session.dbPaths →
    DiskTriple (fun disk => disk = app.disk) _ (fun _ _ => True)
      fun disk => configured disk paths = some (key, tables))
  rintro rfl
  refine (attemptOnly_keeps fun _ same => same ▸ installed.leads).bind fun _ => ?_
  refine (moveVault_keeps_configured uses installed apart).mapError.bind fun moved => ?_
  refine (attemptOnly_keeps fun _ => id).bind fun _ => ?_
  refine (listPassRules_keeps fun _ => id).bind fun rules => ?_
  exact fun _ _ _ => trivial

theorem runRekeyVault_keeps_vault (cipher : Cipher Key Sealed) (keyFile : Str)
    (uses : app.session.dbPaths.getD defaults = paths)
    (installed : Installed paths keyPath key tables rows app.disk)
    (apart : Apart app.disk paths keyPath (backupPath paths)) :
    Triple (fun found => found = app) (runRekeyVault cipher defaults keyFile)
      ⟨fun _ _ => True, fun _ found =>
        configured found.disk paths = some (key, tables) ∨
          BackedUp paths keyPath key tables found.disk,
        fun found =>
          configured found.disk paths = some (key, tables) ∨
            BackedUp paths keyPath key tables found.disk⟩ := by
  refine (currentDbPaths_reads app).bind fun dbPaths => ?_
  refine closeVaultHandle_keeps.bind fun _ => ?_
  refine DiskTriple.assuming (?_ : dbPaths = app.session.dbPaths →
    DiskTriple (fun disk => disk = app.disk) _ (fun _ _ => True) fun disk =>
      configured disk paths = some (key, tables) ∨ BackedUp paths keyPath key tables disk)
  rintro rfl
  refine (attemptOnly_keeps fun _ same => .inl (same ▸ installed.leads)).bind fun _ => ?_
  refine (rekeyVault_keeps_vault uses installed apart).mapError.bind fun rekeyed => ?_
  refine (attemptOnly_keeps fun _ => .inr).bind fun _ => ?_
  exact fun _ _ _ => trivial

/-- Before the old vault is removed, the configuration leads to it. -/
theorem rekeyVault_spends {disk : VaultDisk Key Sealed} {dbPaths : Option DbPaths}
    {newKeyFile : Str} (uses : dbPaths.getD defaults = paths)
    (installed : Installed paths keyPath key tables rows disk)
    (apart : Apart disk paths keyPath (backupPath paths)) :
    Spends .removeFile (fun app => app.disk = disk)
      (fun app => configured app.disk paths = some (key, tables))
      (rekeyVault cipher defaults dbPaths newKeyFile) := by
  unfold rekeyVault
  simp only [uses, installed.keyFile]
  refine .after (Triple.leaving (readOldVault_keeps installed) fun _ same =>
    same ▸ installed.leads) preserves_readOldVault fun read => ?_
  refine .after (Triple.consequence (copyFile_backs_up installed apart) (fun _ held => held.1)
    (fun _ _ => id) (fun _ _ still => still.leads) fun _ still => still.leads)
    preserves_copyFile fun _ => ?_
  refine .andThen (Spends.call.andThen fun value => ?_) fun _ => ?_
  · cases value with
    | none => exact throw _
    | some => exact Preserves.pure _
  · refine preserves_openDatabases.bind fun secrets => ?_
    refine preserves_replaceAllPassRules.bind fun _ => ?_
    refine (preserves_onDisk rfl).bind fun _ => ?_
    exact (preserves_onDisk rfl).bind fun _ => Preserves.pure _

theorem runRekeyVault_spends (cipher : Cipher Key Sealed) (keyFile : Str)
    (uses : app.session.dbPaths.getD defaults = paths)
    (installed : Installed paths keyPath key tables rows app.disk)
    (apart : Apart app.disk paths keyPath (backupPath paths)) :
    Spends .removeFile (fun found => found = app)
      (fun found => configured found.disk paths = some (key, tables))
      (runRekeyVault cipher defaults keyFile) := by
  have closing : Preserves (fun _ fates => fates .removeFile)
      (closeVaultHandle : Program Key Sealed Unit) := by
    intro state fates
    unfold closeVaultHandle
    cases state.session.dbs with
    | none | some => rfl
  have starting : DiskTriple (fun disk => disk = app.disk) (attemptOnly .tokioHandle)
      (fun _ disk => disk = app.disk) (fun disk => configured disk paths = some (key, tables)) :=
    attemptOnly_keeps fun _ same => same ▸ installed.leads
  refine .after (currentDbPaths_reads app) (fun _ _ => rfl) fun dbPaths => ?_
  refine .after closeVaultHandle_keeps closing fun _ => ?_
  refine .assuming (?_ : dbPaths = app.session.dbPaths → _)
  rintro rfl
  refine .after starting (preserves_onDisk rfl) fun _ => ?_
  refine .andThen (rekeyVault_spends uses installed apart).mapError fun _ => ?_
  exact (preserves_onDisk rfl).bind fun _ _ _ => rfl

end

/-- After a failed move or rekey the configuration leads to the vault, or a rekey has come as
far as the removal of the old vault, and that stands in its backup. -/
theorem failed_operation_keeps_vault (cipher : Cipher Key Sealed) (defaults paths : DbPaths)
    (keyPath : Str) (key : Key) (tables : Tables Sealed) (rows : KeyedMap Str Str)
    (app : App Key Sealed) (uses : app.session.dbPaths.getD defaults = paths)
    (installed : Installed paths keyPath key tables rows app.disk) (fates : Fates VaultCall) :
    (∀ destination error after rest, runMoveVault cipher defaults destination app fates =
      .failed error after rest →
        HandleClosed app after ∧ (Apart app.disk paths keyPath destination →
          configured after.disk paths = some (key, tables))) ∧
      ∀ keyFile error after rest, runRekeyVault cipher defaults keyFile app fates =
        .failed error after rest →
          HandleClosed app after ∧ (Apart app.disk paths keyPath (backupPath paths) →
            configured after.disk paths = some (key, tables) ∨
              BackedUp paths keyPath key tables after.disk ∧
                rest .removeFile = (fates .removeFile).tail) := by
  constructor
  · intro destination error after rest failed
    have closes := runMoveVault_closes cipher defaults destination app app fates rfl
    rw [failed] at closes
    refine ⟨closes, fun apart => ?_⟩
    have keeps :=
      runMoveVault_keeps_configured cipher destination uses installed apart app fates rfl
    rw [failed] at keeps
    exact keeps
  · intro keyFile error after rest failed
    have closes := runRekeyVault_closes cipher defaults keyFile app app fates rfl
    rw [failed] at closes
    refine ⟨closes, fun apart => ?_⟩
    have keeps := runRekeyVault_keeps_vault cipher keyFile uses installed apart app fates rfl
    have spends := runRekeyVault_spends cipher keyFile uses installed apart app fates rfl
    rw [failed] at keeps spends
    exact or_and_left.mpr ⟨keeps, spends⟩

theorem exists_of_hasFailed {Value : Type}
    {ending : Ending VaultCall (App Key Sealed) VaultError Value}
    (failed : ending.hasFailed = true) : ∃ error after rest, ending = .failed error after rest := by
  cases ending with
  | failed error after rest => exact ⟨error, after, rest, rfl⟩
  | returned _ after rest | crashed after => cases failed

/-- A key file that does not exist costs the application its handle. -/
theorem failed_rekey_loses_handle : profileApp.session.dbs.isSome = true ∧ ∃ error after rest,
    runRekeyVault plainCipher profilePaths "secrets/none.key".toList
      profileApp .allWork = .failed error after rest ∧ after.session.dbs = none := by
  refine ⟨rfl, ?_⟩
  obtain ⟨error, after, rest, failed⟩ :=
    exists_of_hasFailed (show (runRekeyVault plainCipher profilePaths "secrets/none.key".toList
      profileApp .allWork).hasFailed = true by rfl)
  refine ⟨error, after, rest, failed, ?_⟩
  have closes :=
    runRekeyVault_closes plainCipher profilePaths "secrets/none.key".toList
      profileApp profileApp .allWork rfl
  rw [failed] at closes
  rw [closes.session]

/-- The new key of the rekeyed vault cannot be configured. -/
def configRefused : Fates VaultCall := Function.update Fates.allWork .setConfig [.fails]

/-- The old vault of that rekey stands in its backup. -/
theorem refused_rekey_leaves_backup : ∃ error after rest,
    runRekeyVault plainCipher profilePaths "secrets/new.key".toList profileApp
      configRefused = .failed error after rest ∧
      HandleClosed profileApp after ∧ (configured after.disk profilePaths = some (1, proxyVault) ∨
        BackedUp profilePaths "secrets/master.key".toList 1 proxyVault after.disk) := by
  obtain ⟨error, after, rest, failed⟩ :=
    exists_of_hasFailed (show (runRekeyVault plainCipher profilePaths "secrets/new.key".toList
      profileApp configRefused).hasFailed = true by rfl)
  have unnamed (name : Str) (distinct : backupPath profilePaths ≠ name) :
      ¬ profileApp.disk.SameFile (backupPath profilePaths) name := by
    rintro (same | ⟨_, named, _⟩)
    · exact distinct same
    · cases named
  obtain ⟨closes, keeps⟩ :=
    (failed_operation_keeps_vault plainCipher profilePaths profilePaths
      "secrets/master.key".toList 1 proxyVault ∅ profileApp rfl profile_installed
      configRefused).2 _ error after rest failed
  have outcome := keeps ⟨unnamed _ (by decide), unnamed _ (by decide), unnamed _ (by decide),
    unnamed _ (by decide)⟩
  exact ⟨error, after, rest, failed, closes, outcome.imp_right And.left⟩

end Arclain.Vault
