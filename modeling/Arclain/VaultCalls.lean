import Arclain.VaultService

namespace Arclain.Vault

/-!
# What the calls on the disk leave behind

One lemma for each call: what holds when it returns, and what holds otherwise.
The lemmas speak of what is read through the names, since all of the files that
matter differ in what they hold.
-/

open FaultyCalls NamedFiles Text Option Disk

variable {Key Sealed Value Result : Type}

abbrev VaultDisk (Key Sealed : Type) := Disk Str (File Key Sealed)

def DiskTriple (before : VaultDisk Key Sealed → Prop) (program : Program Key Sealed Value)
    (returned : Value → VaultDisk Key Sealed → Prop)
    (otherwise : VaultDisk Key Sealed → Prop) : Prop :=
  Triple (fun app => before app.disk) program
    ⟨fun value app => returned value app.disk, fun _ app => otherwise app.disk,
      fun app => otherwise app.disk⟩

section

variable {before otherwise : VaultDisk Key Sealed → Prop}
  {returned : Value → VaultDisk Key Sealed → Prop}

theorem DiskTriple.bind {first : Program Key Sealed Value}
    {second : Value → Program Key Sealed Result} {finally_ : Result → VaultDisk Key Sealed → Prop}
    (firstMeets : DiskTriple before first returned otherwise)
    (secondMeets : ∀ value, DiskTriple (returned value) (second value) finally_ otherwise) :
    DiskTriple before (first >>= second) finally_ otherwise :=
  Triple.bind firstMeets secondMeets

theorem DiskTriple.pure {value : Value} (meets : ∀ disk, before disk → returned value disk) :
    DiskTriple before (Pure.pure value) returned otherwise :=
  Triple.pure fun app => meets app.disk

variable {program : Program Key Sealed Value}

theorem DiskTriple.mapError {reword : VaultError → VaultError}
    (meets : DiskTriple before program returned otherwise) :
    DiskTriple before (program.mapError reword) returned otherwise :=
  Triple.mapError meets

theorem DiskTriple.attempt (meets : DiskTriple before program returned otherwise) :
    DiskTriple before (Faulty.attempt program) (fun result disk =>
      match result with
      | .ok value => returned value disk
      | .error _ => otherwise disk)
      otherwise :=
  Triple.attempt meets

theorem DiskTriple.consequence {stronger weaker : VaultDisk Key Sealed → Prop}
    {finally_ : Value → VaultDisk Key Sealed → Prop}
    (meets : DiskTriple before program returned otherwise)
    (strengthens : ∀ disk, stronger disk → before disk)
    (returns : ∀ value disk, returned value disk → finally_ value disk)
    (ends : ∀ disk, otherwise disk → weaker disk) : DiskTriple stronger program finally_ weaker :=
  Triple.consequence meets (fun app => strengthens app.disk)
    (fun value app => returns value app.disk)
    (fun _ app => ends app.disk) (fun app => ends app.disk)

theorem DiskTriple.assuming {fact : Prop}
    (meets : fact → DiskTriple before program returned otherwise) :
    DiskTriple (fun disk => before disk ∧ fact) program returned otherwise :=
  fun app fates holds => meets holds.2 app fates holds.1

theorem DiskTriple.of_relation
    {returnsWith : VaultDisk Key Sealed → Value → VaultDisk Key Sealed → Prop}
    {endsWith : VaultDisk Key Sealed → VaultDisk Key Sealed → Prop} (relates : ∀ disk, before disk →
      DiskTriple (fun found => found = disk) program (returnsWith disk) (endsWith disk))
    (returns : ∀ disk value new, before disk → returnsWith disk value new → returned value new)
    (ends : ∀ disk new, before disk → endsWith disk new → otherwise new) :
    DiskTriple before program returned otherwise := by
  intro app fates holds
  have related :=
    (relates app.disk holds).consequence (fun _ => id)
      (fun value new => returns app.disk value new holds)
      (fun new => ends app.disk new holds)
  exact related app fates rfl

variable {label : VaultCall} {effect : VaultDisk Key Sealed → Option Value × VaultDisk Key Sealed}

theorem onDisk_keeps (works : ∀ disk value, before disk → (effect disk).1 = some value →
    returned value (effect disk).2) (after : ∀ disk, before disk → otherwise (effect disk).2)
    (unchanged : ∀ disk, before disk → otherwise disk) :
    DiskTriple before (onDisk label effect) returned otherwise := by
  have calling : Triple (fun app : App Key Sealed => before app.disk)
      (.call label (.call label) fun app =>
        ((effect app.disk).1, { app with disk := (effect app.disk).2 }) :
          Program Key Sealed (Option Value))
      ⟨fun value app => ∃ disk, before disk ∧ effect disk = (value, app.disk),
        fun _ app => otherwise app.disk,
        fun app => otherwise app.disk⟩ := by
    refine Triple.call ?_ ?_ ?_ ?_ ?_
    · exact fun app holds => ⟨app.disk, holds, rfl⟩
    · exact fun app => unchanged app.disk
    · exact fun app => after app.disk
    · exact fun app => unchanged app.disk
    · exact fun app => after app.disk
  refine calling.bind fun value => ?_
  cases value with
  | none =>
    refine Triple.throw ?_
    rintro app ⟨disk, holds, ran⟩
    have ended := after disk holds
    rw [ran] at ended
    exact ended
  | some value =>
    refine Triple.pure ?_
    rintro app ⟨disk, holds, ran⟩
    have done := works disk value holds (congrArg Prod.fst ran)
    rw [ran] at done
    exact done

theorem onDisk_reads {read : VaultDisk Key Sealed → Option Value}
    (reads : ∀ disk, before disk → effect disk = (read disk, disk))
    (unchanged : ∀ disk, before disk → otherwise disk) : DiskTriple before (onDisk label effect)
      (fun value disk => before disk ∧ read disk = some value) otherwise := by
  refine onDisk_keeps ?_ ?_ unchanged
  · intro disk value holds found
    rw [reads disk holds] at found ⊢
    exact ⟨holds, found⟩
  · intro disk holds
    rw [reads disk holds]
    exact unchanged disk holds

theorem attemptOnly_keeps (unchanged : ∀ disk, before disk → otherwise disk) :
    DiskTriple before (attemptOnly label) (fun _ => before) otherwise :=
  (onDisk_reads (fun _ _ => rfl) unchanged).consequence
    (fun _ => id) (fun _ _ held => held.1) (fun _ => id)

theorem createParent_keeps {path : Str} (unchanged : ∀ disk, before disk → otherwise disk) :
    DiskTriple before (createParent path) (fun _ => before) otherwise := by
  unfold createParent
  split
  · exact attemptOnly_keeps unchanged
  · exact DiskTriple.pure fun _ => id

end

section

variable {disk : VaultDisk Key Sealed} {path other : Str} {content : File Key Sealed}

theorem contentAt_store_of_ne (different : disk.contentAt other ≠ disk.contentAt path) :
    (disk.store path content).contentAt other = disk.contentAt other :=
  contentAt_store_of_not_same (not_sameFile_of_contentAt different.symm)

theorem contentAt_of_stored {held file : File Key Sealed} {new : VaultDisk Key Sealed}
    (holds : disk.contentAt path = some held) (stored : new = disk.store path file) (other : Str)
    (different : disk.contentAt other ≠ some held) :
    new.contentAt other = disk.contentAt other := by
  rw [stored]
  refine contentAt_store_of_ne ?_
  rw [holds]
  exact different

theorem contentAt_store_self : (disk.store path content).contentAt path = some content :=
  contentAt_store_of_same (.inl rfl)

theorem contentAt_of_names {file : Nat} (named : disk.names path = some file) :
    disk.contentAt path = some (disk.files file) := by
  rw [contentAt, named]
  rfl

end

/-- A file was overwritten through one of its names. -/
structure Overwrites (old : VaultDisk Key Sealed) (target : Str) (content : File Key Sealed)
    (new : VaultDisk Key Sealed) : Prop where
  written : ∀ name, old.SameFile target name → new.contentAt name = some content
  others : ∀ name, ¬ old.SameFile target name → new.contentAt name = old.contentAt name
  names : ∀ name, name ≠ target → new.names name = old.names name

theorem overwrites_store (disk : VaultDisk Key Sealed) (path : Str) (content : File Key Sealed) :
    Overwrites disk path content (disk.store path content) :=
  ⟨fun _ => contentAt_store_of_same,
    fun _ => contentAt_store_of_not_same,
    fun _ => names_store_of_ne⟩

/-- The disks differ in what one name stands for. -/
def AgreeOff (path : Str) (old new : VaultDisk Key Sealed) : Prop :=
  ∀ name, name ≠ path → new.names name = old.names name ∧ new.contentAt name = old.contentAt name

section

variable {before otherwise : VaultDisk Key Sealed → Prop} {disk : VaultDisk Key Sealed} {path : Str}

theorem loadFromFile_keeps (unchanged : ∀ disk, before disk → otherwise disk) :
    DiskTriple before (loadFromFile path)
      (fun key disk => before disk ∧ disk.contentAt path = some (.key key))
      otherwise := by
  refine onDisk_keeps ?_ ?_ unchanged
  · intro disk key holds found
    split at found
    next content =>
      cases found
      simp only [content]
      exact ⟨holds, trivial⟩
    · cases found
  · intro disk holds
    split
    · exact unchanged disk holds
    · exact unchanged disk holds

theorem openConfig_keeps (solid : ∀ disk, before disk →
    disk.contentAt path ≠ none ∧ disk.contentAt path ≠ some .empty)
    (unchanged : ∀ disk, before disk → otherwise disk) :
    DiskTriple before (openConfig path) (fun _ disk =>
      before disk ∧ ∃ rows, disk.contentAt path = some (.config rows)) otherwise := by
  refine onDisk_keeps ?_ ?_ unchanged
  · intro disk _ holds _
    obtain ⟨present, nonempty⟩ := solid disk holds
    split
    next rows content => exact ⟨holds, rows, content⟩
    · contradiction
    · contradiction
    next content => simp_all
  · intro disk holds
    obtain ⟨present, nonempty⟩ := solid disk holds
    split
    · exact unchanged disk holds
    · contradiction
    · contradiction
    · exact unchanged disk holds

theorem setConfig_relates (key value : Str) :
    DiskTriple (fun found => found = disk) (setConfig path key value) (fun _ new =>
      ∃ rows, disk.contentAt path = some (.config rows) ∧
        new = disk.store path (.config (rows.insert key value)))
      (fun new =>
        new = disk ∨ ∃ rows, disk.contentAt path = some (.config rows) ∧
          new = disk.store path (.config (rows.insert key value))) := by
  refine onDisk_keeps ?_ ?_ (fun _ => .inl)
  · rintro _ _ rfl found
    split at found
    next rows content =>
      simp only [content]
      exact ⟨rows, rfl, rfl⟩
    · cases found
  · rintro _ rfl
    split
    next rows content => exact .inr ⟨rows, content, rfl⟩
    · exact .inl rfl

theorem removeFile_relates (label : VaultCall) :
    DiskTriple (fun found => found = disk) (removeFile label path)
      (fun _ new => new = disk.unlink path)
      (fun new => new = disk ∨ new = disk.unlink path) := by
  refine onDisk_keeps ?_ ?_ (fun _ => .inl)
  · rintro _ _ rfl found
    split at found
    · cases found
    next file named => simp only
  · rintro _ rfl
    split
    · exact .inl rfl
    · exact .inr rfl

variable {cipher : Cipher Key Sealed} {secrets : SecretsDb Key}

theorem listPassRules_keeps (unchanged : ∀ disk, before disk → otherwise disk) :
    DiskTriple before (listPassRules cipher secrets) (fun rules disk =>
      before disk ∧ ∃ tables, disk.files secrets.file = .vault tables ∧
        tables.listPassRules cipher secrets.key = some rules)
      otherwise := by
  refine onDisk_keeps ?_ ?_ unchanged
  · intro disk rules holds found
    split at found
    next tables content =>
      simp only [content]
      exact ⟨holds, tables, rfl, found⟩
    · cases found
  · intro disk holds
    split
    · exact unchanged disk holds
    · exact unchanged disk holds

theorem replaceAllPassRules_relates {rules : List PassRule} :
    DiskTriple (fun found => found = disk) (replaceAllPassRules cipher secrets rules) (fun _ new =>
      ∃ tables drawn, disk.files secrets.file = .vault tables ∧
        new = disk.write secrets.file (.vault
          (tables.replaceAllPassRules cipher secrets.key drawn rules)))
      (fun new => new = disk ∨ ∃ content, new = disk.write secrets.file content) := by
  have drawing : DiskTriple (fun found => found = disk) (fun app fates =>
    .returned app.drawn { app with drawn := app.drawn + rules.length }
      fates : Program Key Sealed Nat) (fun _ found => found = disk) (fun new =>
        new = disk ∨ ∃ content, new = disk.write secrets.file content) :=
    fun _ _ => id
  refine drawing.bind fun drawn => onDisk_keeps ?_ ?_ (fun _ => .inl)
  · rintro _ _ rfl found
    split at found
    next tables content =>
      simp only [content]
      exact ⟨tables, drawn, rfl, rfl⟩
    · cases found
  · rintro _ rfl
    split
    · exact .inr ⟨_, rfl⟩
    · exact .inl rfl

theorem copyFile_relates (source target : Str) :
    DiskTriple (fun found => found = disk) (copyFile source target) (fun _ new =>
      ∃ content, Overwrites disk target content new ∧ (¬ disk.SameFile target source →
        disk.contentAt source = some content) ∧ (disk.SameFile target source → content = .empty))
      (fun new => new = disk ∨ ∃ content, Overwrites disk target content new) := by
  refine DiskTriple.bind (?_ : DiskTriple (fun found => found = disk) _ (fun opened new =>
    new = disk.store target .empty ∧ disk.names source = some opened.1 ∧
      new.names target = some opened.2)
    (fun new => new = disk ∨ ∃ content, Overwrites disk target content new)) fun opened => ?_
  · refine onDisk_keeps ?_ ?_ (fun _ => .inl)
    · rintro _ opened rfl found
      split at found
      · cases found
      next file named =>
        obtain ⟨written, target, rfl⟩ := map_eq_some_iff.mp found
        exact ⟨rfl, named, target⟩
    · rintro _ rfl
      split
      · exact .inl rfl
      · exact .inr ⟨_, overwrites_store _ _ _⟩
  obtain ⟨read, written⟩ := opened
  -- The target is named by the written file only through the names of its file.
  have named (emptied : VaultDisk Key Sealed) (name : Str)
      (isStored : emptied = disk.store target .empty)
      (target_eq : emptied.names target = some written) :
      emptied.names name = some written ↔ disk.SameFile target name := by
    rw [← sameFile_store .empty, ← isStored]
    constructor
    · exact fun shares => .inr ⟨written, target_eq, shares⟩
    · rintro (rfl | ⟨file, first, second⟩)
      · exact target_eq
      · rw [target_eq] at first
        exact second.trans first.symm
  have copies (emptied : VaultDisk Key Sealed) (content : File Key Sealed)
      (isStored : emptied = disk.store target .empty)
      (target_eq : emptied.names target = some written) :
      Overwrites disk target content (emptied.write written content) := by
    refine ⟨fun name same => ?_, fun name different => ?_, fun name distinct => ?_⟩
    · rw [contentAt_write, if_pos ((named emptied name isStored target_eq).mpr same)]
    · rw [contentAt_write, if_neg fun shares =>
        different ((named emptied name isStored target_eq).mp shares),
        isStored]
      exact contentAt_store_of_not_same different
    · change emptied.names name = _
      rw [isStored]
      exact names_store_of_ne distinct
  refine onDisk_keeps ?_ ?_ ?_
  · rintro emptied _ ⟨isStored, source_eq, target_eq⟩ _
    refine ⟨_, copies emptied _ isStored target_eq, ?_, ?_⟩
    · intro different
      have distinct : source ≠ target := fun same => different (.inl same.symm)
      have still : emptied.names source = some read := by
        rw [isStored, names_store_of_ne distinct]
        exact source_eq
      rw [← contentAt_of_names still, isStored]
      exact (contentAt_store_of_not_same different).symm
    · intro same
      have still : emptied.names source = some read := by
        by_cases distinct : source = target
        · subst distinct
          rw [isStored, store, source_eq]
          exact source_eq
        · rw [isStored, names_store_of_ne distinct]
          exact source_eq
      have emptiedSource : (disk.store target .empty).contentAt source = some .empty :=
        contentAt_store_of_same same
      rw [← isStored, contentAt_of_names still] at emptiedSource
      exact some.inj emptiedSource
  · rintro emptied ⟨isStored, _, target_eq⟩
    exact .inr ⟨_, copies emptied _ isStored target_eq⟩
  · rintro emptied ⟨isStored, _, _⟩
    rw [isStored]
    exact .inr ⟨_, overwrites_store _ _ _⟩

theorem openSecrets_relates (key : Key) :
    let made (new : VaultDisk Key Sealed) :=
      (disk.contentAt path = some .empty ∨ disk.contentAt path = none) ∧
        new = disk.store path (.vault .blank)
    DiskTriple (fun found => found = disk) (openSecrets path key) (fun secrets new =>
      (secrets.key = key ∧ new.names path = some secrets.file) ∧
        ((∃ tables, disk.contentAt path = some (.vault tables)) ∧ new = disk ∨ made new))
      (fun new => new = disk ∨ made new) := by
  intro made
  refine DiskTriple.bind (?_ : DiskTriple (fun found => found = disk) _ (fun file new =>
    new.names path = some file ∧
      ((∃ tables, disk.contentAt path = some (.vault tables)) ∧ new = disk ∨ made new))
    (fun new => new = disk ∨ made new)) fun file => ?_
  · refine onDisk_keeps ?_ ?_ (fun _ => .inl)
    · rintro _ file rfl found
      split at found
      next tables content =>
        simp only [content]
        exact ⟨found, .inl ⟨⟨tables, rfl⟩, trivial⟩⟩
      next content =>
        simp only [content]
        exact ⟨found, .inr ⟨.inl content, rfl⟩⟩
      next content =>
        simp only [content]
        exact ⟨found, .inr ⟨.inr content, rfl⟩⟩
      · cases found
    · rintro _ rfl
      split
      · exact .inl rfl
      next content => exact .inr ⟨.inl content, rfl⟩
      next content => exact .inr ⟨.inr content, rfl⟩
      · exact .inl rfl
  intro _ _ holds
  exact ⟨⟨rfl, holds.1⟩, holds.2⟩

theorem AgreeOff.refl (path : Str) (disk : VaultDisk Key Sealed) : AgreeOff path disk disk :=
  fun _ _ => ⟨rfl, rfl⟩

theorem agreeOff_unlink : AgreeOff path disk (disk.unlink path) := by
  intro _ distinct
  refine ⟨?_, contentAt_unlink_of_ne distinct⟩
  simp [unlink, distinct]

theorem AgreeOff.store {new : VaultDisk Key Sealed} {content : File Key Sealed}
    (agree : AgreeOff path disk new) (missing : new.contentAt path = none) :
    AgreeOff path disk (new.store path content) := by
  intro name distinct
  obtain ⟨names, contents⟩ := agree name distinct
  have unnamed : new.names path = none := map_eq_none_iff.mp missing
  have different : ¬ new.SameFile path name := by
    rintro (same | ⟨_, named, _⟩)
    · exact distinct same.symm
    · rw [unnamed] at named
      cases named
  rw [names_store_of_ne distinct, contentAt_store_of_not_same different]
  exact ⟨names, contents⟩

theorem openCache_relates (solid : disk.contentAt path ≠ none ∧ disk.contentAt path ≠ some .empty) :
    DiskTriple (fun found => found = disk) (openCache path) (fun _ new =>
      AgreeOff path disk new ∧ new.contentAt path = some .cache) (AgreeOff path disk) := by
  obtain ⟨present, _⟩ := solid
  have opening : DiskTriple (fun found => found = disk) (openCacheFile .openCache path)
      (fun _ new => new = disk ∧ disk.contentAt path = some .cache)
      (fun found => found = disk) := by
    refine onDisk_keeps ?_ ?_ (fun _ => id)
    · rintro _ _ rfl found
      split at found
      next content =>
        simp only [content]
        exact ⟨trivial, trivial⟩
      · contradiction
      · contradiction
      · cases found
    · rintro _ rfl
      split
      · rfl
      · contradiction
      · contradiction
      · rfl
  have reopening : DiskTriple (fun found => found = disk.unlink path)
      (openCacheFile .reopenCache path)
      (fun _ new => AgreeOff path disk new ∧ new.contentAt path = some .cache)
      (AgreeOff path disk) := by
    have missing : (disk.unlink path).contentAt path = none := contentAt_unlink_self disk path
    refine onDisk_keeps ?_ ?_ ?_
    · rintro _ _ rfl _
      simp only [missing]
      exact ⟨agreeOff_unlink.store missing, contentAt_store_self⟩
    · rintro _ rfl
      simp only [missing]
      exact agreeOff_unlink.store missing
    · rintro _ rfl
      exact agreeOff_unlink
  have removing : DiskTriple (fun found => found = disk) (removeFile .removeCache path)
      (fun _ new => new = disk.unlink path) (AgreeOff path disk) := by
    refine (removeFile_relates .removeCache).consequence (fun _ => id)
      (fun _ _ => id) ?_
    rintro new (rfl | rfl)
    · exact .refl path _
    · exact agreeOff_unlink
  have looking : DiskTriple (fun found => found = disk) (pathExists path)
      (fun isThere new => new = disk ∧ isThere = true) (AgreeOff path disk) := by
    rintro app fates rfl
    refine ⟨rfl, ?_⟩
    cases named : app.disk.names path with
    | some => rfl
    | none => exact absurd (map_eq_none_iff.mpr named) present
  refine (opening.attempt.consequence (fun _ => id) (fun _ _ => id)
    ?_).bind fun result => ?_
  · rintro _ rfl
    exact .refl path _
  · cases result with
    | ok =>
      refine DiskTriple.pure ?_
      rintro _ ⟨rfl, cached⟩
      exact ⟨.refl path _, cached⟩
    | error =>
      refine looking.bind fun isThere => ?_
      cases isThere with
      | true =>
        refine (removing.consequence (fun _ held => held.1)
          (fun _ _ => id) (fun _ => id)).bind fun _ => reopening
      | false =>
        rintro app fates ⟨_, impossible⟩
        cases impossible

/-- A file stands under the name and is not empty. -/
def Solid (disk : VaultDisk Key Sealed) (path : Str) : Prop :=
  disk.contentAt path ≠ none ∧ disk.contentAt path ≠ some .empty

def OpensVault (path : Str) (disk new : VaultDisk Key Sealed) : Prop :=
  (∃ tables, disk.contentAt path = some (.vault tables)) ∧ new = disk ∨
    (disk.contentAt path = some .empty ∨ disk.contentAt path = none) ∧
      new = disk.store path (.vault .blank)

structure Opened (paths : DbPaths) (key : Key) (disk : VaultDisk Key Sealed)
    (secrets : SecretsDb Key) (new : VaultDisk Key Sealed) : Prop where
  key_eq : secrets.key = key
  named : new.names paths.secretsDb = some secrets.file
  through : ∃ opened, AgreeOff paths.cacheDb disk opened ∧
    opened.contentAt paths.cacheDb = some .cache ∧ OpensVault paths.secretsDb opened new

/-- The databases of a disk were opened in part. -/
def MayHaveOpened (paths : DbPaths) (disk new : VaultDisk Key Sealed) : Prop :=
  ∃ opened, AgreeOff paths.cacheDb disk opened ∧
    (new = opened ∨ OpensVault paths.secretsDb opened new)

theorem openDatabases_relates {paths : DbPaths} (key : Key) (config : Solid disk paths.configDb)
    (cache : Solid disk paths.cacheDb) :
    DiskTriple (fun found => found = disk) (openDatabases paths key)
      (Opened paths key disk) (MayHaveOpened paths disk) := by
  have untouched (new : VaultDisk Key Sealed) (same : new = disk) : MayHaveOpened paths disk new :=
    ⟨disk, .refl _ _, .inl same⟩
  have agreed (new : VaultDisk Key Sealed) (agree : AgreeOff paths.cacheDb disk new) :
      MayHaveOpened paths disk new :=
    ⟨new, agree, .inl rfl⟩
  have openingVault : DiskTriple (fun opened =>
    AgreeOff paths.cacheDb disk opened ∧ opened.contentAt paths.cacheDb = some .cache)
      (openSecrets paths.secretsDb key) (Opened paths key disk)
      (MayHaveOpened paths disk) := by
    refine DiskTriple.of_relation (fun _ _ => openSecrets_relates key) ?_ ?_
    · rintro opened secrets new ⟨agree, cached⟩ ⟨⟨key_eq, named⟩, made⟩
      exact ⟨key_eq, named, opened, agree, cached, made⟩
    · rintro opened new ⟨agree, _⟩ (same | created)
      · exact ⟨opened, agree, .inl same⟩
      · exact ⟨opened, agree, .inr (.inr created)⟩
  unfold openDatabases
  refine ((openConfig_keeps (fun _ same => same ▸ config) untouched).consequence
    (fun _ => id) (fun _ _ held => held.1)
    (fun _ => id)).bind fun _ => ?_
  refine (attemptOnly_keeps untouched).bind fun _ => ?_
  refine ((openCache_relates cache).consequence (fun _ => id)
    (fun _ _ => id) agreed).bind fun _ => ?_
  refine (attemptOnly_keeps fun new held => agreed new held.1).bind fun _ => ?_
  refine openingVault.bind fun secrets => ?_
  refine (attemptOnly_keeps ?_).bind fun _ => DiskTriple.pure fun _ => id
  rintro new ⟨_, _, opened, agree, _, made⟩
  exact ⟨opened, agree, .inr made⟩

end

end Arclain.Vault
