import Arclain.ResourcePuts

namespace Arclain.Cache

/-!
# Owners and keys do not mix

A get answers with bytes that were put for its owner and its key.  A key of the host that
looks like an encoded one is left out here, and so are resources whose fallback file has the
name of another one.
-/

open List Option ActionRun FaultyCalls Text Coupled Fates Faulty

def readNames (owner : CacheOwner) (key : Str) : List Str :=
  owner.scopedKey key ::
    match owner with
    | .host => [key]
    | .plugin _ => []

def SameRowAmong (addresses : Str → Prop) (first second : Row) : Prop :=
  SameRow first second ∧ addresses first.contentHash

/-- Two stores show the same under some names, and have the same blobs under some
addresses. -/
structure SameView (names : List Str) (addresses : Str → Prop) (first second : Stores) : Prop where
  memory : ∀ name ∈ names, first.memory.lookup name = second.memory.lookup name
  files : ∀ name ∈ names, first.files.lookup (sanitizeKey name) =
    second.files.lookup (sanitizeKey name)
  rows : ∀ name ∈ names, Option.Rel (SameRowAmong addresses) (first.rows.lookup name)
    (second.rows.lookup name)
  blobs : ∀ contentHash, addresses contentHash →
    first.blobs.lookup contentHash = second.blobs.lookup contentHash

section

variable {names : List Str} {addresses : Str → Prop} {name : Str}

section

variable (mem : name ∈ names)
include mem

theorem updateLastAccessed_coupled (now : Nat) :
    Coupled (SameView names addresses) Eq (updateLastAccessed name now)
      (updateLastAccessed name now) := by
  refine call fun first second same => ?_
  have rows := same.rows name mem
  cases found : first.rows.lookup name with
  | none =>
    cases otherFound : second.rows.lookup name with
    | none => exact ⟨rfl, same⟩
    | some other =>
      rw [found, otherFound] at rows
      cases rows
  | some =>
    cases otherFound : second.rows.lookup name with
    | none =>
      rw [found, otherFound] at rows
      cases rows
    | some other =>
      rw [found, otherFound] at rows
      cases rows with
      | some sameRow =>
        refine ⟨rfl, same.memory, same.files, ?_, same.blobs⟩
        intro looked among
        rw [KeyedMap.lookup_insert_ite, KeyedMap.lookup_insert_ite]
        split
        · exact .some sameRow
        · exact same.rows looked among

theorem getRow_coupled :
    Coupled (SameView names addresses) (Option.Rel (SameRowAmong addresses))
      (getRow name) (getRow name) :=
  call fun _ _ same => ⟨same.rows name mem, same⟩

theorem hasRow_coupled :
    Coupled (SameView names addresses) Eq (hasRow name) (hasRow name) := by
  refine call fun first second same => ⟨?_, same⟩
  have rows := same.rows name mem
  change (first.rows.lookup name).isSome = (second.rows.lookup name).isSome
  generalize first.rows.lookup name = found at rows
  generalize second.rows.lookup name = otherFound at rows
  cases rows with
  | none | some => rfl

theorem getIndexedWithLimit_coupled {cache : ContentCache} (limit now : Nat) :
    Coupled (SameView names addresses) Eq (cache.getIndexedWithLimit name limit now)
      (cache.getIndexedWithLimit name limit now) := by
  refine (getRow_coupled mem).bind fun found other rows => ?_
  cases rows with
  | none => exact pure rfl
  | some sameRow =>
    rename_i row otherRow
    obtain ⟨⟨sameHash, sameSize⟩, among⟩ := sameRow
    dsimp only
    rw [← sameHash, ← sameSize]
    split
    · exact throw _
    · split
      · exact pure rfl
      · split
        · have opens : Coupled (SameView names addresses) Eq (perform .content fun stores =>
            (stores.blobs.lookup row.contentHash, stores)) (perform .content fun stores =>
              (stores.blobs.lookup row.contentHash, stores)) :=
            call fun _ _ same => ⟨same.blobs _ among, same⟩
          refine opens.bind fun found other isSame => ?_
          subst isSame
          cases found with
          | none => exact pure rfl
          | some =>
            dsimp only
            split
            · exact throw _
            · split
              · have touches : Coupled (SameView names addresses) (fun _ _ => True)
                    (attempt (updateLastAccessed name now))
                    (attempt (updateLastAccessed name now)) :=
                  (updateLastAccessed_coupled mem now).attempt
                    (fun _ _ _ => trivial) fun _ => trivial
                exact touches.bind fun _ _ _ => pure rfl
              · exact throw _
        · exact pure rfl

end

variable {manager : ResourceManager} (owner : CacheOwner) (key : Str)

theorem getCached_coupled (limit now : Nat) :
    Coupled (SameView (readNames owner key) addresses) Eq (manager.getCached owner key limit now)
      (manager.getCached owner key limit now) := by
  unfold ResourceManager.getCached
  cases manager.cache with
  | none => exact pure rfl
  | some cache =>
    have gets : Coupled (SameView (readNames owner key) addresses) Eq
        (cache.getWithLimitForOwner owner key limit now)
        (cache.getWithLimitForOwner owner key limit now) := by
      refine (getIndexedWithLimit_coupled mem_cons_self limit now).bind fun found other same => ?_
      subst same
      cases found with
      | some => exact pure rfl
      | none =>
        cases owner with
        | plugin => exact pure rfl
        | host =>
          have raw : key ∈ readNames .host key := mem_cons_of_mem _ mem_cons_self
          refine (hasRow_coupled raw).bind fun isLegacy other same => ?_
          subst same
          cases isLegacy with
          | true => exact getIndexedWithLimit_coupled raw limit now
          | false => exact pure rfl
    have attempts : Coupled (SameView (readNames owner key) addresses) Eq
        (attempt (cache.getWithLimitForOwner owner key limit now))
        (attempt (cache.getWithLimitForOwner owner key limit now)) :=
      gets.attempt (fun _ _ same => congrArg Except.ok same) fun _ => rfl
    refine attempts.bind fun result other same => ?_
    subst same
    cases result with
    | ok found | error error => exact pure rfl

theorem filePath_cases (stores : Stores) (owner : CacheOwner) (key : Str) :
    stores.filePath owner key = sanitizeKey (owner.scopedKey key) ∨
      owner = .host ∧ stores.filePath owner key = sanitizeKey key := by
  unfold Stores.filePath
  cases owner with
  | plugin =>
    left
    simp
  | host =>
    cases found : stores.files.lookup (sanitizeKey (CacheOwner.scopedKey .host key))
    · right
      simp [found]
    · left
      simp [found]

theorem filePath_eq {owner : CacheOwner} {key : Str} {first second : Stores}
    (same : SameView (readNames owner key) addresses first second) :
    first.filePath owner key = second.filePath owner key ∧ ∃ name ∈ readNames owner key,
      first.filePath owner key = sanitizeKey name := by
  have sameScoped := same.files (owner.scopedKey key) mem_cons_self
  refine ⟨?_, ?_⟩
  · simp only [Stores.filePath, sameScoped]
  · rcases filePath_cases first owner key with isScoped | ⟨rfl, isRaw⟩
    · exact ⟨_, mem_cons_self, isScoped⟩
    · exact ⟨_, mem_cons_of_mem _ mem_cons_self, isRaw⟩

theorem getFile_coupled (limit : Nat) : Coupled (SameView (readNames owner key) addresses) Eq
    (manager.getFile owner key limit) (manager.getFile owner key limit) := by
  unfold ResourceManager.getFile
  split
  · exact pure rfl
  · have finds : Coupled (SameView (readNames owner key) addresses) (fun path other =>
      path = other ∧ ∃ name ∈ readNames owner key, path = sanitizeKey name)
        (Faulty.inspect fun stores => stores.filePath owner key : Program Str)
        (Faulty.inspect fun stores => stores.filePath owner key) :=
      Coupled.inspect fun _ _ => filePath_eq
    refine finds.bind fun path other isPath => ?_
    obtain ⟨rfl, name, mem, rfl⟩ := isPath
    have measures : Coupled (SameView (readNames owner key) addresses) Eq
        (Faulty.inspect fun stores =>
          (stores.files.lookup (sanitizeKey name)).any
            fun data => decide (limit < data.length) : Program Bool)
        (Faulty.inspect fun stores =>
          (stores.files.lookup (sanitizeKey name)).any fun data => decide (limit < data.length)) :=
      Coupled.inspect fun first second same => by rw [same.files name mem]
    refine measures.bind fun isOversize other same => ?_
    subst same
    cases isOversize with
    | true => exact pure rfl
    | false =>
      have reads : Coupled (SameView (readNames owner key) addresses) Eq
          (perform .file fun stores => (stores.files.lookup (sanitizeKey name), stores))
          (perform .file fun stores =>
            (stores.files.lookup (sanitizeKey name), stores)) :=
        call fun _ _ same => ⟨same.files name mem, same⟩
      have attempts : Coupled (SameView (readNames owner key) addresses) Eq
          (attempt (perform .file fun stores =>
            (stores.files.lookup (sanitizeKey name), stores)))
          (attempt (perform .file fun stores =>
            (stores.files.lookup (sanitizeKey name), stores))) :=
        reads.attempt (fun _ _ same => congrArg Except.ok same) fun _ => rfl
      refine attempts.bind fun result other same => ?_
      subst same
      cases result with
      | ok | error error => exact pure rfl

theorem getWithLimitForOwner_coupled
    (limit now : Nat) : Coupled (SameView (readNames owner key) addresses) Eq
      (manager.getWithLimitForOwner owner key limit now)
      (manager.getWithLimitForOwner owner key limit now) := by
  have stored (limit : Nat) : Coupled (SameView (readNames owner key) addresses) Eq
      (manager.getStored owner key limit now)
      (manager.getStored owner key limit now) := by
    refine (getCached_coupled owner key limit now).bind fun found other same => ?_
    subst same
    cases found with
    | some data => exact pure rfl
    | none =>
      refine (getFile_coupled owner key limit).bind fun file other same => ?_
      subst same
      exact pure rfl
  have remembered : Coupled (SameView (readNames owner key) addresses) Eq
      (Faulty.inspect fun stores => stores.inMemory owner key : Program (Option Bytes))
      (Faulty.inspect fun stores => stores.inMemory owner key) := by
    refine Coupled.inspect fun first second same => ?_
    have sameScoped := same.memory (owner.scopedKey key) mem_cons_self
    unfold Stores.inMemory
    rw [← sameScoped]
    cases owner with
    | plugin id =>
      cases first.memory.lookup (CacheOwner.scopedKey (.plugin id) key) with
      | none | some data => rfl
    | host => rw [same.memory key (mem_cons_of_mem _ mem_cons_self)]
  refine remembered.bind fun found other same => ?_
  subst same
  cases found with
  | none => exact stored _
  | some data =>
    dsimp only
    split
    · exact pure rfl
    · exact stored _

end

/-- A key of the host that does not look like an encoded one; plugins have no other
keys. -/
def Plain (owner : CacheOwner) (key : Str) : Prop := owner = .host → looksEncoded key = false

def CollisionFree (digest : Addressing) (puts : List Put) : Prop :=
  ∀ first ∈ puts, ∀ second ∈ puts, digest.address first.data = digest.address second.data →
    first.data = second.data

def OwnFile (owner : CacheOwner) (key : Str) (puts : List Put) : Prop :=
  ∀ put ∈ puts, put.target = some .disk → put.path = sanitizeKey (owner.scopedKey key) →
    put.owner = owner ∧ put.key = key

section

variable {digest : Addressing} {system : System} {owner : CacheOwner} {key : Str}

theorem Plain.ne_scopedKey (plain : Plain owner key) (isHost : owner = .host) (other : CacheOwner)
    (otherKey : Str) : key ≠ other.scopedKey otherKey := by
  rintro rfl
  have encoded := looksEncoded_scopedKey other otherKey
  rw [plain isHost] at encoded
  cases encoded

theorem Plain.ne_path (plain : Plain owner key) (isHost : owner = .host) (other : CacheOwner)
    (otherKey : Str) : sanitizeKey key ≠ sanitizeKey (other.scopedKey otherKey) := by
  intro same
  have encoded := looksEncoded_of_sanitizeKey same
  rw [plain isHost] at encoded
  cases encoded

theorem Sound.not_reads_plain {bytes : Bytes} (sound : Sound digest system)
    (plain : Plain owner key) (isHost : owner = .host) :
    ¬ ContentCache.Reads digest system.stores key bytes := by
  rintro ⟨row, found, _⟩
  obtain ⟨other, otherKey, _, isName, _⟩ := sound.rows key row found
  exact plain.ne_scopedKey isHost other otherKey isName

theorem Sound.leftBy {bytes : Bytes} {source : ResourceSource} (sound : Sound digest system)
    (plain : Plain owner key) (distinct : CollisionFree digest system.puts)
    (ownFile : OwnFile owner key system.puts)
    (answers : Answers digest system.stores owner key bytes source) :
    LeftBy source owner key system.puts bytes := by
  cases source with
  | memory =>
    have remembered (name : Str) (found : system.stores.memory.lookup name = some bytes) :
        ∃ other otherKey, name = other.scopedKey otherKey ∧
          LeftBy .memory other otherKey system.puts bytes :=
      sound.memory name bytes found
    change system.stores.inMemory owner key = some bytes at answers
    unfold Stores.inMemory at answers
    split at answers
    next data found =>
      cases answers
      obtain ⟨other, otherKey, isName, left⟩ := remembered _ found
      obtain ⟨rfl, rfl⟩ := scopedKey_injective isName
      exact left
    · obtain ⟨other, otherKey, isName, _⟩ := remembered _ answers
      exact absurd isName (plain.ne_scopedKey rfl other otherKey)
    · cases answers
  | cache =>
    rcases answers with ⟨row, found, blob, address⟩ | ⟨isHost, reads⟩
    · obtain ⟨other, otherKey, data, isName, isAddress, left⟩ := sound.rows _ row found
      obtain ⟨rfl, rfl⟩ := scopedKey_injective isName
      obtain ⟨_, first, firstMember, rfl⟩ := sound.blobs _ bytes blob
      obtain ⟨second, secondMember, rfl⟩ := left.exists_data (by decide)
      have same := distinct first firstMember second secondMember (address.trans isAddress)
      rw [same]
      exact left
    · exact absurd reads (sound.not_reads_plain plain isHost)
  | disk =>
    have filed (path : Str) (found : system.stores.files.lookup path = some bytes) :
        ∃ other otherKey, path = sanitizeKey (other.scopedKey otherKey) ∧
          LeftBy .disk other otherKey system.puts bytes :=
      sound.files path bytes found
    change system.stores.files.lookup (system.stores.filePath owner key) = some bytes at answers
    obtain ⟨other, otherKey, isPath, left⟩ := filed _ answers
    rcases filePath_cases system.stores owner key with isScoped | ⟨isHost, isRaw⟩
    · rw [isScoped] at isPath
      obtain ⟨put, mem, rfl, rfl, isDisk⟩ := left.exists_put
      obtain ⟨sameOwner, sameKey⟩ := ownFile put mem isDisk isPath.symm
      rw [sameOwner, sameKey] at left
      exact left
    · rw [isRaw] at isPath
      exact absurd isPath (plain.ne_path isHost other otherKey)

end

def Stores.forget (stores : Stores) (owner : CacheOwner) (key : Str) : Stores :=
  { stores with rows := stores.rows.erase (owner.scopedKey key) }

section

variable {manager : ResourceManager} {digest : Addressing} {system : System} {after : Stores}
  {owner : CacheOwner}
  {key : Str}

def sameBlob (first second : Stores) (contentHash : Str) : Prop :=
  first.blobs.lookup contentHash = second.blobs.lookup contentHash

theorem Sound.plain_nothing (sound : Sound digest system) (plain : Plain owner key)
    (isHost : owner = .host) :
    system.stores.memory.lookup key = none ∧ system.stores.files.lookup (sanitizeKey key) = none ∧
      system.stores.rows.lookup key = none := by
  refine ⟨?_, ?_, ?_⟩
  · cases found : system.stores.memory.lookup key with
    | none => rfl
    | some bytes =>
      obtain ⟨other, otherKey, isName, _⟩ := sound.memory key bytes found
      exact absurd isName (plain.ne_scopedKey isHost other otherKey)
  · cases found : system.stores.files.lookup (sanitizeKey key) with
    | none => rfl
    | some bytes =>
      obtain ⟨other, otherKey, isName, _⟩ := sound.files _ bytes found
      exact absurd isName (plain.ne_path isHost other otherKey)
  · cases found : system.stores.rows.lookup key with
    | none => rfl
    | some row =>
      obtain ⟨other, otherKey, _, isName, _⟩ := sound.rows key row found
      exact absurd isName (plain.ne_scopedKey isHost other otherKey)

theorem sameView_of_scoped {first second : Stores} {puts nextPuts : List Put}
    (sound : Sound digest ⟨first, puts⟩) (soundNext : Sound digest ⟨second, nextPuts⟩)
    (plain : Plain owner key) (memory : first.memory.lookup (owner.scopedKey key) =
      second.memory.lookup (owner.scopedKey key))
    (files : first.files.lookup (sanitizeKey (owner.scopedKey key)) =
      second.files.lookup (sanitizeKey (owner.scopedKey key)))
    (rows : Option.Rel (SameRowAmong (sameBlob first second))
      (first.rows.lookup (owner.scopedKey key)) (second.rows.lookup (owner.scopedKey key))) :
    SameView (readNames owner key) (sameBlob first second) first
      second := by
  have onNames {holds : Str → Prop} (isScoped : holds (owner.scopedKey key))
      (isRaw : owner = .host → holds key) :
      ∀ name ∈ readNames owner key, holds name := by
    intro name mem
    rcases mem_cons.mp mem with rfl | raw
    · exact isScoped
    · cases owner with
      | plugin id => cases raw
      | host =>
        rw [mem_singleton.mp raw]
        exact isRaw rfl
  refine ⟨onNames memory ?_, onNames files ?_, onNames rows ?_, fun _ => id⟩
  · intro isHost
    rw [(sound.plain_nothing plain isHost).1, (soundNext.plain_nothing plain isHost).1]
  · intro isHost
    rw [(sound.plain_nothing plain isHost).2.1, (soundNext.plain_nothing plain isHost).2.1]
  · intro isHost
    rw [(sound.plain_nothing plain isHost).2.2, (soundNext.plain_nothing plain isHost).2.2]
    exact .none

theorem Moved.row_cases {puts : List Put} {resource : Option Put} {before : Stores} {name : Str}
    (sound : Sound digest ⟨before, puts⟩)
    (moved : Moved digest (resource.toList.map fun put => ⟨put.name, put.data⟩) before after)
    (distinct : CollisionFree digest (resource.toList ++ puts))
    (different : ∀ put ∈ resource, name ≠ put.name) :
    Option.Rel (SameRowAmong (sameBlob before after)) (before.rows.lookup name)
      (after.rows.lookup name) ∨ after.rows.lookup name = none := by
  cases found : after.rows.lookup name with
  | none => exact .inr rfl
  | some row =>
    left
    rcases moved.rows name row found with
      ⟨old, oldFound, same⟩ | ⟨put, mem, isName, _⟩
    · rw [oldFound]
      refine .some ⟨same, ?_⟩
      -- The blob is the old one, or it was written again.
      have backed := moved.backed name row found
      obtain ⟨bytes, blob⟩ := ne_none_iff_exists'.mp backed
      rw [← same.1] at blob
      unfold sameBlob
      rw [blob]
      rcases moved.blobs _ bytes blob with oldBlob | ⟨written, mem, isHash, rfl⟩
      · exact oldBlob
      · obtain ⟨put, isPut, rfl⟩ := mem_map.mp mem
        obtain ⟨_, oldBlob⟩ := ne_none_iff_exists'.mp (sound.backed name old oldFound)
        obtain ⟨address, other, otherMember, rfl⟩ := sound.blobs _ _ oldBlob
        rw [oldBlob]
        refine congrArg some (distinct other ?_ put ?_ (address.trans isHash))
        · exact mem_append_right _ otherMember
        · exact mem_append_left _ isPut
    · obtain ⟨put, isPut, rfl⟩ := mem_map.mp mem
      exact absurd isName (different put (mem_toList.mp isPut))

theorem Moved.row_kept {puts : List Put} {before : Stores} {name : Str}
    (sound : Sound digest ⟨before, puts⟩) (moved : Moved digest [] before after)
    (distinct : CollisionFree digest puts) (kept : ContentCache.RowKept name before after) :
    Option.Rel (SameRowAmong (sameBlob before after)) (before.rows.lookup name)
      (after.rows.lookup name) := by
  have cases_ :=
    @Moved.row_cases digest after puts none before name sound moved distinct
      nofun
  rcases cases_ with same | gone
  · exact same
  · cases found : before.rows.lookup name with
    | none =>
      rw [gone]
      exact .none
    | some row =>
      obtain ⟨_, currentFound, _⟩ := kept row found
      rw [gone] at currentFound
      cases currentFound

def ShownTo (owner : CacheOwner) (key : Str) (mayEvict : Prop) (before after : Stores) : Prop :=
  SameView (readNames owner key) (sameBlob before after) before after ∨
    mayEvict ∧ SameView (readNames owner key)
      (sameBlob (before.forget owner key) after) (before.forget owner key) after

theorem Sound.put_shown {put : Put} (sound : Sound digest system)
    (changes : PutChanges digest put system.stores after) (plain : Plain owner key)
    (distinct : CollisionFree digest (put :: system.puts))
    (ownFile : OwnFile owner key (put :: system.puts))
    (different : ¬ (put.owner = owner ∧ put.key = key)) :
    ShownTo owner key (put.target = some .cache) system.stores after := by
  have soundNext := sound.put changes
  have otherName : owner.scopedKey key ≠ put.name := by
    intro same
    obtain ⟨rfl, rfl⟩ := scopedKey_injective same
    exact different ⟨rfl, rfl⟩
  have sameRow (row : Option Row) : Option.Rel
      (SameRowAmong (sameBlob system.stores system.stores)) row row := by
    cases row with
    | none => exact .none
    | some row => exact .some ⟨⟨rfl, rfl⟩, rfl⟩
  cases changes with
  | unchanged nothing => exact .inl (sameView_of_scoped sound soundNext plain rfl rfl (sameRow _))
  | remembered _ succeeded =>
    refine .inl (sameView_of_scoped sound soundNext plain ?_ rfl (sameRow _))
    exact (AList.lookup_insert_ne otherName).symm
  | written _ isDisk =>
    refine .inl (sameView_of_scoped sound soundNext plain rfl ?_ (sameRow _))
    refine (AList.lookup_insert_ne ?_).symm
    intro same
    exact different (ownFile put mem_cons_self isDisk same.symm)
  | cached isCache moved succeeded =>
    have cases_ :=
      @Moved.row_cases digest after system.puts (some put) system.stores
        (owner.scopedKey key) sound moved distinct fun other isPut => by
          cases isPut
          exact otherName
    have memory : system.stores.memory.lookup (owner.scopedKey key) =
        after.memory.lookup (owner.scopedKey key) := by
      rw [moved.memory]
    have files : system.stores.files.lookup (sanitizeKey (owner.scopedKey key)) =
        after.files.lookup (sanitizeKey (owner.scopedKey key)) := by
      rw [moved.files]
    rcases cases_ with same | gone
    · exact .inl (sameView_of_scoped sound soundNext plain memory files same)
    · have forgotten : Sound digest { system with stores := system.stores.forget owner key } :=
        sound.moved ((Moved.refl sound.backed).eraseRow _)
      refine .inr ⟨isCache, sameView_of_scoped forgotten soundNext plain memory files ?_⟩
      have nothing : (system.stores.forget owner key).rows.lookup (owner.scopedKey key) = none :=
        AList.lookup_erase _ _
      rw [nothing, gone]
      exact .none

def Action.subject : Action → Option (CacheOwner × Str)
  | .put owner key _ _ _ _ _ | .get owner key _ _ _ | .remove owner key _ => some (owner, key)
  | .deleteFromDisk key _ => some (.host, key)
  | .restart _ _ => none

def Action.target (manager : ResourceManager) : Action → Option ResourceSource
  | .put _ _ _ request _ _ _ => manager.target request
  | _ => none

theorem Sound.step_shown {action : Action} {next : System} {other : CacheOwner} {otherKey : Str}
    (sound : Sound manager.addressing system) (taken : Cache.step manager system action = some next)
    (isSubject : action.subject = some (other, otherKey)) (plain : Plain owner key)
    (otherPlain : Plain other otherKey) (distinct : CollisionFree manager.addressing next.puts)
    (ownFile : OwnFile owner key next.puts) (different : ¬ (other = owner ∧ otherKey = key)) :
    ShownTo owner key (action.target manager = some .cache) system.stores next.stores := by
  have soundNext := sound.step taken
  cases action with
  | put _ _ _ _ now freeSpace fates =>
    cases isSubject
    obtain ⟨⟨stores, ending⟩, finished, rfl⟩ := map_eq_some_iff.mp taken
    have ready := sound.withFreeSpace freeSpace
    rcases ready.put_shown (putForOwner_changes ready.backed finished) plain
        distinct ownFile different with same | ⟨isCache, same⟩
    · exact .inl { same with }
    · exact .inr ⟨isCache, same.memory, same.files, same.rows, same.blobs⟩
  | get getOwner getKey limit now fates =>
    obtain ⟨⟨stores, ending⟩, finished, rfl⟩ := map_eq_some_iff.mp taken
    have undisturbed :=
      finish_keeps (getWithLimitForOwner_undisturbed getOwner getKey limit now)
        ⟨.refl sound.backed, fun _ row found => ⟨row, found, rfl, rfl⟩⟩ finished
    refine .inl (sameView_of_scoped sound soundNext plain ?_ ?_ ?_)
    · rw [undisturbed.1.memory]
    · rw [undisturbed.1.files]
    · exact Moved.row_kept sound undisturbed.1 distinct (undisturbed.2 _)
  | remove _ _ fates =>
    cases isSubject
    simp only [Cache.step] at taken
    split at taken
    · cases taken
    next isCache =>
      obtain ⟨⟨stores, ending⟩, finished, rfl⟩ := map_eq_some_iff.mp taken
      obtain ⟨limits, _, rfl⟩ := map_eq_some_iff.mp isCache
      have removes : Keeps (fun stores =>
        Moved manager.addressing [] system.stores stores ∧
          ContentCache.RowKept (owner.scopedKey key) system.stores stores)
            (ContentCache.removeForOwner ⟨manager.addressing, limits⟩ other otherKey) := by
        refine ContentCache.removeForOwner_keeps ?_ ?_
        · intro name isName stores held
          refine ⟨held.1.eraseRow name, held.2.eraseRow ?_⟩
          rcases isName with rfl | ⟨isHost, rfl⟩
          · intro same
            obtain ⟨rfl, rfl⟩ := scopedKey_injective same
            exact different ⟨rfl, rfl⟩
          · exact (otherPlain.ne_scopedKey isHost owner key).symm
        · intro _ stores held unreferenced
          exact ⟨held.1.eraseBlob unreferenced, held.2⟩
      have removed :=
        finish_keeps removes ⟨.refl sound.backed, fun row found => ⟨row, found, rfl, rfl⟩⟩ finished
      refine .inl (sameView_of_scoped sound soundNext plain ?_ ?_ ?_)
      · rw [removed.1.memory]
      · rw [removed.1.files]
      · exact Moved.row_kept sound removed.1 distinct removed.2
  | deleteFromDisk _ fates =>
    cases isSubject
    obtain ⟨⟨stores, ending⟩, finished, rfl⟩ := map_eq_some_iff.mp taken
    have deletes : Keeps (fun stores =>
      stores.memory.lookup (owner.scopedKey key) =
        system.stores.memory.lookup (owner.scopedKey key) ∧
        stores.files.lookup (sanitizeKey (owner.scopedKey key)) =
          system.stores.files.lookup (sanitizeKey (owner.scopedKey key)) ∧
        stores.rows = system.stores.rows ∧
        stores.blobs = system.stores.blobs) (manager.deleteFromDisk otherKey) := by
      refine (Keeps.update fun stores held => ?_).bind fun _ => ?_
      · refine ⟨?_, held.2⟩
        exact (AList.lookup_erase_ne (otherPlain.ne_scopedKey rfl owner key).symm).trans held.1
      · split
        · exact Keeps.pure _
        · refine (Keeps.call fun stores held => ?_).attempt.bind fun _ => Keeps.pure _
          refine ⟨held.1, ?_, held.2.2⟩
          exact (AList.lookup_erase_ne (otherPlain.ne_path rfl owner key).symm).trans held.2.1
    obtain ⟨memory, files, rows, blobs⟩ := finish_keeps deletes ⟨rfl, rfl, rfl, rfl⟩ finished
    refine .inl (sameView_of_scoped sound soundNext plain memory.symm files.symm ?_)
    dsimp only
    rw [rows]
    cases system.stores.rows.lookup (owner.scopedKey key) with
    | none => exact .none
    | some row =>
      refine .some ⟨⟨rfl, rfl⟩, ?_⟩
      unfold sameBlob
      rw [blobs]
  | restart now fates => cases isSubject

end

/-- A get answers with the last successful put for its owner and key; other calls change the
answer only by eviction. -/
theorem resources_isolated (manager : ResourceManager) (actions : List Action) (system : System)
    (ran : run (step manager) .initial actions = some system) (owner : CacheOwner) (key : Str)
    (plain : Plain owner key) :
    (CollisionFree manager.addressing system.puts → OwnFile owner key system.puts →
      ∀ limit now fates bytes source after rest,
        manager.getWithLimitForOwner owner key limit now system.stores fates =
          .returned (some (bytes, source)) after rest → LeftBy source owner key system.puts bytes) ∧
      ∀ action next other otherKey, step manager system action = some next →
        action.subject = some (other, otherKey) → ¬ (other = owner ∧ otherKey = key) →
        Plain other otherKey → CollisionFree manager.addressing next.puts →
        OwnFile owner key next.puts →
        ∀ limit now fates, (manager.getWithLimitForOwner owner key limit now next.stores
          fates).result =
            (manager.getWithLimitForOwner owner key limit now system.stores fates).result ∨
            action.target manager = some .cache ∧
              (manager.getWithLimitForOwner owner key limit now next.stores fates).result =
                (manager.getWithLimitForOwner owner key limit now
                  (system.stores.forget owner key) fates).result := by
  have sound : Sound manager.addressing system :=
    run_preserves (Sound manager.addressing)
      (fun sound => sound.step) Sound.initially ran
  constructor
  · intro distinct ownFile limit now fates bytes source after rest returned
    have answers :=
      @getWithLimitForOwner_answers manager system.stores owner key limit now system.stores fates
        ⟨.refl sound.backed, fun _ row found => ⟨row, found, rfl, rfl⟩⟩
    rw [returned] at answers
    exact sound.leftBy plain distinct ownFile (answers.2 bytes source rfl)
  · intro action next other otherKey taken isSubject different otherPlain distinct
      ownFile limit now fates
    rcases sound.step_shown taken isSubject plain otherPlain distinct ownFile
        different with same | ⟨isCache, same⟩
    · exact .inl (getWithLimitForOwner_coupled owner key limit now _ _ fates same).result_eq.symm
    · exact .inr ⟨isCache, (getWithLimitForOwner_coupled owner key limit now _ _ fates
        same).result_eq.symm⟩

/-- The SHA-256 addresses of two contents; others get a number. -/
def exampleAddressing : Addressing where
  address data :=
    if data = [1] then "sha256-S/USLzRFVMU73i67jNK349FgCtYxw4Wl18ziPHeFRZo=".toList
    else if data = [2] then "sha256-28G0yQD/5I1XW12lxjgEASX2XbD+PiRJS3bqmGRX2YY=".toList
    else "sha256-".toList ++ data.flatMap fun byte => decimal byte.toNat ++ ['+']
  isIntegrity text := startsWith text "sha256-".toList

/-- A cache for one object, with fallback files. -/
def exampleManager : ResourceManager where
  addressing := exampleAddressing
  cacheLimits := some
    { maxObjectBytes := 100
      maxOwnerPartialBytes := 100
      maxOwnerPartialObjects := 10
      maxOwnerCommittedBytes := 100
      maxOwnerCommittedObjects := 10
      maxGlobalBytes := 100
      maxGlobalPartialObjects := 10
      maxGlobalCommittedObjects := 1
      minFreeSpaceBytes := 0
      partialTtlSecs := 60 }
  config :=
    { defaultStrategy := .cache
      fallbackDir := some "fallback".toList
      maxResourceSize := some 50 }

/-- One of the two plugins of the examples. -/
def pluginA : CacheOwner := .plugin ⟨['a'], by decide⟩

@[inherit_doc pluginA]
def pluginB : CacheOwner := .plugin ⟨['b'], by decide⟩

def examplePut (owner : CacheOwner) (strategy : StorageStrategy) (byte : UInt8)
    (now : Nat) : Action :=
  .put owner ['k'] [byte] { resourceType := .binary, storageOverride := some strategy }
    now [1000] allWork

/-- The answer to a get after some calls, if these all succeed. -/
def exampleAnswer (actions : List Action) (owner : CacheOwner)
    (key : Str) : Option (Option (Bytes × ResourceSource)) :=
  (run (step exampleManager) .initial actions).bind fun system =>
    if system.puts.all fun put => put.ending = .succeeded then
      match exampleManager.getWithLimitForOwner owner key 50 9 system.stores allWork with
      | .returned found _ _ => some found
      | _ => none
    else none

/-- A put evicts another plugin's, a cached put is hidden by the memory, and the host finds
a plugin's bytes under the encoded key. -/
theorem answer_changed_by_other_put : exampleAnswer [examplePut pluginA .cache 1 1] pluginA ['k'] =
    some (some ([1], .cache)) ∧
      exampleAnswer [examplePut pluginA .cache 1 1, examplePut pluginB .cache 2 2] pluginA ['k'] =
        some none ∧
      exampleAnswer [examplePut pluginA .memory 1 1, examplePut pluginA .cache 2 2] pluginA ['k'] =
        some (some ([1], .memory)) ∧
      exampleAnswer [examplePut pluginA .memory 1 1] .host (pluginA.scopedKey ['k']) =
        some (some ([1], .memory)) := by
  decide

/-- Two puts of plugin A, into a file and into the cache. -/
def exampleActions : List Action := [examplePut pluginA .disk 1 1, examplePut pluginA .cache 2 2]

def exampleSystem : System := (run (step exampleManager) .initial exampleActions).get (by decide)

/-- The state after plugin B has put something into the memory. -/
def exampleNext : System :=
  (step exampleManager exampleSystem (examplePut pluginB .memory 1 3)).get (by decide)

/-- The bytes of the last put are answered, also when plugin B puts something. -/
theorem answer_kept_by_other_put : Plain pluginA ['k'] ∧
    run (step exampleManager) .initial exampleActions = some exampleSystem ∧
    LeftBy .cache pluginA ['k'] exampleSystem.puts [2] ∧
    ((exampleManager.getWithLimitForOwner pluginA ['k'] 50 9 exampleNext.stores
      allWork).result = (exampleManager.getWithLimitForOwner pluginA ['k'] 50 9
        exampleSystem.stores allWork).result ∨
      (examplePut pluginB .memory 1 3).target exampleManager = some .cache ∧
        (exampleManager.getWithLimitForOwner pluginA ['k'] 50 9
          exampleNext.stores allWork).result =
          (exampleManager.getWithLimitForOwner pluginA ['k'] 50 9
            (exampleSystem.stores.forget pluginA ['k']) allWork).result) := by
  have ran : run (step exampleManager) .initial exampleActions = some exampleSystem :=
    (some_get _).symm
  have taken : step exampleManager exampleSystem (examplePut pluginB .memory 1 3) =
      some exampleNext :=
    (some_get _).symm
  have plain : Plain pluginA ['k'] := nofun
  have distinct : CollisionFree exampleManager.addressing exampleSystem.puts := by
    unfold CollisionFree
    decide
  have ownFile : OwnFile pluginA ['k'] exampleSystem.puts := by
    unfold OwnFile
    decide
  have distinctNext : CollisionFree exampleManager.addressing exampleNext.puts := by
    unfold CollisionFree
    decide
  have ownFileNext : OwnFile pluginA ['k'] exampleNext.puts := by
    unfold OwnFile
    decide
  have answered : (exampleManager.getWithLimitForOwner pluginA ['k'] 50 9
      exampleSystem.stores allWork).result.bind Except.toOption =
        some (some ([2], .cache)) := by
    decide
  obtain ⟨lefts, kept⟩ :=
    resources_isolated exampleManager exampleActions exampleSystem ran pluginA ['k'] plain
  refine ⟨plain, ran, ?_, ?_⟩
  · obtain ⟨outcome, ended, isOk⟩ := bind_eq_some_iff.mp answered
    cases outcome with
    | error => cases isOk
    | ok =>
      cases isOk
      obtain ⟨_, _, returned⟩ := Ending.returned_of_result ended
      exact lefts distinct ownFile 50 9 allWork _ _ _ _ returned
  · exact kept _ _ pluginB ['k'] taken rfl (by decide)
      nofun distinctNext ownFileNext 50 9 allWork

end Arclain.Cache
