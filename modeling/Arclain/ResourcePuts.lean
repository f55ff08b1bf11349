import Arclain.ActionRun
import Arclain.ContentCacheEffects
import Arclain.ResourceManager

namespace Arclain.Cache

/-!
# What the stores hold

Everything that the memory, the cache and the fallback files hold for an owner and
a key comes from the last successful put for them that went there, or from one
after it in which an access has failed.
-/

open KeyedMap List Option ActionRun FaultyCalls Text ContentCache ResourceManager

/-- The bytes may be those that the puts, the last one first, have left in one of
the stores for an owner and a key. -/
def LeftBy (target : ResourceSource) (owner : CacheOwner) (key : Str) : List Put → Bytes → Prop
  | [], _ => False
  | put :: earlier, bytes =>
    if put.owner = owner ∧ put.key = key ∧ put.target = some target then
      match put.ending with
      | .succeeded => bytes = put.data
      | .refused => LeftBy target owner key earlier bytes
      | .broken =>
        -- A file whose writing failed holds some first part of the bytes.
        bytes = put.data ∨ target = .disk ∧ bytes <+: put.data ∨
          LeftBy target owner key earlier bytes
    else LeftBy target owner key earlier bytes

section

variable {target : ResourceSource} {owner : CacheOwner} {key : Str} {put : Put} {puts : List Put}
  {bytes : Bytes}

theorem LeftBy.cons (left : LeftBy target owner key puts bytes) (elsewhere :
    put.ending = .succeeded → put.target = some target → ¬ (put.owner = owner ∧ put.key = key)) :
    LeftBy target owner key (put :: puts) bytes := by
  unfold LeftBy
  split
  next own =>
    cases ending : put.ending with
    | succeeded => exact absurd ⟨own.1, own.2.1⟩ (elsewhere ending own.2.2)
    | refused => exact left
    | broken => exact .inr (.inr left)
  · exact left

theorem LeftBy.written (isTarget : put.target = some target) (notRefused : put.ending ≠ .refused) :
    LeftBy target put.owner put.key (put :: puts) put.data := by
  unfold LeftBy
  rw [if_pos ⟨rfl, rfl, isTarget⟩]
  cases ending : put.ending with
  | succeeded => rfl
  | refused => exact absurd ending notRefused
  | broken => exact .inl rfl

theorem LeftBy.begun (isTarget : put.target = some .disk) (broken : put.ending = .broken)
    (firstPart : bytes <+: put.data) : LeftBy .disk put.owner put.key (put :: puts) bytes := by
  unfold LeftBy
  rw [if_pos ⟨rfl, rfl, isTarget⟩, broken]
  exact .inr (.inl ⟨rfl, firstPart⟩)

theorem LeftBy.exists_put (left : LeftBy target owner key puts bytes) :
    ∃ put ∈ puts, put.owner = owner ∧ put.key = key ∧ put.target = some target := by
  induction puts with
  | nil => cases left
  | cons put puts ih =>
    unfold LeftBy at left
    split at left
    next own => exact ⟨put, mem_cons_self, own⟩
    · obtain ⟨earlier, mem, isPut⟩ := ih left
      exact ⟨earlier, mem_cons_of_mem _ mem, isPut⟩

theorem LeftBy.exists_data (left : LeftBy target owner key puts bytes) (notDisk : target ≠ .disk) :
    ∃ put ∈ puts, put.data = bytes := by
  induction puts with
  | nil => cases left
  | cons put puts ih =>
    have earlier (left : LeftBy target owner key puts bytes) :
        ∃ other ∈ put :: puts, other.data = bytes := by
      obtain ⟨other, mem, same⟩ := ih left
      exact ⟨other, mem_cons_of_mem _ mem, same⟩
    unfold LeftBy at left
    split at left
    · split at left
      · exact ⟨put, mem_cons_self, left.symm⟩
      · exact earlier left
      · rcases left with same | ⟨isDisk, _⟩ | left
        · exact ⟨put, mem_cons_self, same.symm⟩
        · exact absurd isDisk notDisk
        · exact earlier left
    · exact earlier left

end

def Put.name (put : Put) : Str := put.owner.scopedKey put.key

def Put.path (put : Put) : Str := sanitizeKey put.name

inductive PutChanges (digest : Addressing) (put : Put) (before : Stores) : Stores → Prop where
  | unchanged (nothing : put.ending = .refused ∨ put.target = none ∨
      put.target = some .disk ∧ put.ending = .broken) :
      PutChanges digest put before before
  | remembered (isMemory : put.target = some .memory) (succeeded : put.ending = .succeeded) :
      PutChanges digest put before
        { before with memory := before.memory.insert put.name put.data }
  | cached {after : Stores} (isCache : put.target = some .cache)
      (moved : Moved digest [⟨put.name, put.data⟩] before after)
      (succeeded : put.ending = .succeeded →
        ContentCache.Holds digest ⟨put.name, put.data⟩ after)
      (refused : put.ending = .refused → Moved digest [] before after) :
      PutChanges digest put before after
  | written (content : Bytes) (isDisk : put.target = some .disk) (isContent :
      content = put.data ∧ put.ending ≠ .refused ∨
        content <+: put.data ∧ put.ending = .broken) :
      PutChanges digest put before { before with files := before.files.insert put.path content }

theorem finish_cases {Value : Type} {program : Program Value} {holds crashed : Stores → Prop}
    {returned : Value → Stores → Prop} {failed : CacheError → Stores → Prop} {stores after : Stores}
    {fates : Fates CacheCall} {ending : CallEnding}
    (meets : Triple holds program ⟨returned, failed, crashed⟩) (held : holds stores)
    (finished : finish program stores fates = some (after, ending)) :
    (ending = .succeeded ∧ ∃ value, returned value after) ∨ (ending = .broken ∧ failed .io after) ∨
      (ending = .refused ∧ ∃ message, failed (.refused message) after) := by
  have met := meets stores fates held
  unfold finish at finished
  split at finished
  next value _ _ ended =>
    cases finished
    rw [ended] at met
    exact .inl ⟨rfl, value, met⟩
  next ended =>
    cases finished
    rw [ended] at met
    exact .inr (.inl ⟨rfl, met⟩)
  next message _ _ ended =>
    cases finished
    rw [ended] at met
    exact .inr (.inr ⟨rfl, message, met⟩)
  · cases finished

theorem finish_keeps {Value : Type} {program : Program Value} {holds : Stores → Prop}
    {stores after : Stores} {fates : Fates CacheCall} {ending : CallEnding}
    (keeps : Keeps holds program) (held : holds stores)
    (finished : finish program stores fates = some (after, ending)) : holds after := by
  rcases finish_cases keeps held finished with
    ⟨_, _, met⟩ | ⟨_, met⟩ | ⟨_, _, met⟩
  · exact met
  · exact met
  · exact met

section

variable {manager : ResourceManager} {before after : Stores}

def Stores.withFile (stores : Stores) (path : Str) (content : Bytes) : Stores :=
  { stores with files := stores.files.insert path content }

/-- A failed write leaves the stores as they were, or some first part of the bytes. -/
def FailedWrite (path : Str) (data : Bytes) (before : Stores) (error : CacheError)
    (stores : Stores) : Prop :=
  error = .io ∧ (stores = before ∨ ∃ part, part <+: data ∧ stores = before.withFile path part)

theorem setFile_writes (path : Str) (data old part : Bytes) (oldPart : old <+: data)
    (newPart : part <+: data) :
    Triple (fun stores => stores = before.withFile path old) (setFile path part)
      ⟨fun _ stores => stores = before.withFile path part,
        FailedWrite path data before, fun _ => True⟩ := by
  have overwritten : (before.withFile path old).withFile path part = before.withFile path part := by
    simp [Stores.withFile]
  refine Triple.call ?_ ?_ ?_ (fun _ _ => trivial) fun _ _ => trivial
  · rintro _ rfl
    exact overwritten
  · rintro _ rfl
    exact ⟨rfl, .inr ⟨old, oldPart, rfl⟩⟩
  · rintro _ rfl
    exact ⟨rfl, .inr ⟨part, newPart, overwritten⟩⟩

theorem writeAll_writes (path : Str) (written rest : Bytes) :
    Triple (fun stores => stores = before.withFile path written) (writeAll path written rest)
      ⟨fun _ stores => stores = before.withFile path (written ++ rest),
        FailedWrite path (written ++ rest) before, fun _ => True⟩ := by
  induction rest generalizing written with
  | nil =>
    refine Triple.pure ?_
    rintro _ rfl
    rw [append_nil]
  | cons byte rest ih =>
    have grown : written ++ byte :: rest = written ++ [byte] ++ rest := by
      rw [append_assoc, singleton_append]
    have writes := @setFile_writes before path (written ++ byte :: rest) written
      (written ++ [byte]) (prefix_append _ _) (grown ▸ prefix_append _ _)
    refine writes.bind fun _ => ?_
    rw [grown]
    exact ih (written ++ [byte])

theorem writeFile_writes (path : Str) (data : Bytes) :
    Triple (fun stores => stores = before) (writeFile path data)
      ⟨fun _ stores => stores = before.withFile path data,
        FailedWrite path data before, fun _ => True⟩ := by
  have empties : Triple (fun stores => stores = before) (setFile path [])
      ⟨fun _ stores => stores = before.withFile path [],
        FailedWrite path data before, fun _ => True⟩ := by
    refine Triple.call ?_ ?_ ?_ (fun _ _ => trivial) fun _ _ => trivial
    · rintro _ rfl
      rfl
    · rintro _ rfl
      exact ⟨rfl, .inl rfl⟩
    · rintro _ rfl
      exact ⟨rfl, .inr ⟨[], nil_prefix, rfl⟩⟩
  exact empties.bind fun _ => writeAll_writes path [] data

theorem storeToDiskForOwner_changes {owner : CacheOwner} {key : Str} {data : Bytes}
    {fates : Fates CacheCall} {ending : CallEnding}
    (finished : finish (manager.storeToDiskForOwner owner key data) before fates =
      some (after, ending)) :
    PutChanges manager.addressing ⟨owner, key, data, some .disk, ending⟩ before after := by
  unfold storeToDiskForOwner at finished
  split at finished
  · cases finished
    exact .unchanged (.inl rfl)
  · have creates : Triple (fun stores => stores = before)
        (perform .file fun stores => ((), stores) : Program Unit)
        ⟨fun _ stores => stores = before,
          FailedWrite (sanitizeKey (owner.scopedKey key)) data before,
          fun _ => True⟩ :=
      Triple.call (fun _ => id) (fun _ same => ⟨rfl, .inl same⟩)
        (fun _ same => ⟨rfl, .inl same⟩) (fun _ _ => trivial) fun _ _ => trivial
    have meets := creates.bind fun _ => writeFile_writes _ data
    rcases finish_cases meets rfl finished with
      ⟨rfl, _, rfl⟩ | ⟨rfl, _, left⟩ | ⟨rfl, _, isIo, _⟩
    · exact .written data rfl (.inl ⟨rfl, nofun⟩)
    · rcases left with rfl | ⟨part, firstPart, rfl⟩
      · exact .unchanged (.inr (.inr ⟨rfl, rfl⟩))
      · exact .written part rfl (.inr ⟨firstPart, rfl⟩)
    · cases isIo

theorem putForOwner_changes {owner : CacheOwner} {key : Str} {data : Bytes}
    {request : ResourceRequest} {now : Nat} {fates : Fates CacheCall} {ending : CallEnding}
    (backed : Backed before)
    (finished : finish (manager.putForOwner owner key data request now) before fates =
      some (after, ending)) :
    PutChanges manager.addressing
      ⟨owner, key, data, manager.target request, ending⟩ before after := by
  unfold ResourceManager.putForOwner at finished
  split at finished
  · cases finished
    exact .unchanged (.inl rfl)
  · cases isTarget : manager.target request with
    | none =>
      rw [isTarget] at finished
      cases finished
      exact .unchanged (.inr (.inl rfl))
    | some target =>
      rw [isTarget] at finished
      cases target with
      | memory =>
        cases finished
        exact .remembered rfl rfl
      | disk => exact storeToDiskForOwner_changes finished
      | cache =>
        have enabled : manager.cacheLimits.isSome = true := by
          unfold target at isTarget
          split at isTarget
          · split at isTarget
            · assumption
            · cases isTarget
          · cases isTarget
          · cases isTarget
          · cases isTarget
        obtain ⟨limits, isLimits⟩ := isSome_iff_exists.mp enabled
        simp only [cache, isLimits, map_some] at finished
        let cache : ContentCache := ⟨manager.addressing, limits⟩
        let resource : Resource := ⟨owner.scopedKey key, data⟩
        have stores : Triple (Moved cache.addressing [] before) (do
          let _ ← cache.putForOwner owner key data now
          pure () : Program Unit) ⟨fun _ stores =>
            Moved cache.addressing [resource] before stores ∧
              ContentCache.Holds cache.addressing resource stores,
            ContentCache.FailedPut cache.addressing resource before,
            Moved cache.addressing [resource] before⟩ :=
          (putForOwner_stores owner key data now).bind
            fun _ => Triple.pure fun _ => id
        rcases finish_cases stores (.refl backed) finished with
          ⟨rfl, _, moved, held⟩ | ⟨rfl, moved, _⟩ | ⟨rfl, _, moved, refused⟩
        · exact .cached rfl moved (fun _ => held) (by simp)
        · refine .cached rfl moved ?_ ?_
          · simp
          · simp
        · refine .cached rfl moved ?_ ?_
          · simp
          · exact fun _ => refused (by simp)

end

/-- Everything that is stored was left by the puts. -/
structure Sound (digest : Addressing) (system : System) : Prop where
  backed : Backed system.stores
  blobs : ∀ contentHash bytes, system.stores.blobs.lookup contentHash = some bytes →
    digest.address bytes = contentHash ∧ ∃ put ∈ system.puts, put.data = bytes
  memory : ∀ name bytes, system.stores.memory.lookup name = some bytes →
    ∃ owner key, name = owner.scopedKey key ∧ LeftBy .memory owner key system.puts bytes
  rows : ∀ name row, system.stores.rows.lookup name = some row →
    ∃ owner key data, name = owner.scopedKey key ∧ row.contentHash = digest.address data ∧
      LeftBy .cache owner key system.puts data
  files : ∀ name bytes, system.stores.files.lookup name = some bytes →
    ∃ owner key, name = sanitizeKey (owner.scopedKey key) ∧ LeftBy .disk owner key system.puts bytes

namespace Sound

variable {digest : Addressing} {system : System} {after : Stores}

theorem initially : Sound digest .initial := by
  refine ⟨?_, ?_, ?_, ?_, ?_⟩
  · intro _ row found
    cases found
  · intro _ bytes found
    cases found
  · intro name bytes found
    cases found
  · intro name row found
    cases found
  · intro name bytes found
    cases found

theorem shrinks (sound : Sound digest system) (memory :
    ∀ name bytes, after.memory.lookup name = some bytes →
      system.stores.memory.lookup name = some bytes)
    (files : ∀ name bytes, after.files.lookup name = some bytes →
      system.stores.files.lookup name = some bytes)
    (rows : ∀ name row, after.rows.lookup name = some row →
      ∃ old, system.stores.rows.lookup name = some old ∧ SameRow old row)
    (blobs : ∀ contentHash bytes, after.blobs.lookup contentHash = some bytes →
      system.stores.blobs.lookup contentHash = some bytes)
    (backed : Backed after) : Sound digest { system with stores := after } where
  backed := backed
  blobs contentHash bytes found := sound.blobs contentHash bytes (blobs contentHash bytes found)
  memory name bytes found := sound.memory name bytes (memory name bytes found)
  rows name row found := by
    obtain ⟨old, oldFound, same⟩ := rows name row found
    obtain ⟨owner, key, data, isName, address, left⟩ := sound.rows name old oldFound
    exact ⟨owner, key, data, isName, same.1.symm.trans address, left⟩
  files name bytes found := sound.files name bytes (files name bytes found)

theorem moved (sound : Sound digest system) (moved : Moved digest [] system.stores after) :
    Sound digest { system with stores := after } := by
  refine sound.shrinks ?_ ?_ ?_ ?_ moved.backed
  · intro name bytes found
    rw [moved.memory] at found
    exact found
  · intro name bytes found
    rw [moved.files] at found
    exact found
  · intro name row found
    rcases moved.rows name row found with old | ⟨_, mem, _⟩
    · exact old
    · cases mem
  · intro contentHash bytes found
    rcases moved.blobs contentHash bytes found with old | ⟨_, mem, _⟩
    · exact old
    · cases mem

theorem withFreeSpace (sound : Sound digest system) (freeSpace : List Nat) : Sound digest
    { system with stores := { system.stores with freeSpace := freeSpace } } :=
  { sound with }

theorem put {put : Put} (sound : Sound digest system)
    (changes : PutChanges digest put system.stores after) :
    Sound digest { stores := after, puts := put :: system.puts } := by
  have blobs (contentHash : Str) (bytes : Bytes)
      (found : system.stores.blobs.lookup contentHash = some bytes) :
      digest.address bytes = contentHash ∧
        ∃ other ∈ put :: system.puts, other.data = bytes := by
    obtain ⟨address, other, mem, same⟩ := sound.blobs contentHash bytes found
    exact ⟨address, other, mem_cons_of_mem _ mem, same⟩
  -- What the put does not overwrite in the memory, the index or the files.
  have memory (notThis : put.target = some .memory → put.ending ≠ .succeeded)
      (name : Str) (bytes : Bytes)
      (found : system.stores.memory.lookup name = some bytes) :
      ∃ owner key, name = owner.scopedKey key ∧
        LeftBy .memory owner key (put :: system.puts) bytes := by
    obtain ⟨owner, key, isName, left⟩ := sound.memory name bytes found
    exact ⟨owner, key, isName,
      left.cons fun succeeded isTarget => absurd succeeded (notThis isTarget)⟩
  have rows (notThis : put.target = some .cache → put.ending ≠ .succeeded) (name : Str) (row : Row)
      (found : system.stores.rows.lookup name = some row) :
      ∃ owner key data, name = owner.scopedKey key ∧ row.contentHash = digest.address data ∧
        LeftBy .cache owner key (put :: system.puts) data := by
    obtain ⟨owner, key, data, isName, address, left⟩ := sound.rows name row found
    exact ⟨owner, key, data, isName, address,
      left.cons fun succeeded isTarget => absurd succeeded (notThis isTarget)⟩
  have files (notThis : put.target = some .disk → put.ending ≠ .succeeded)
      (name : Str) (bytes : Bytes)
      (found : system.stores.files.lookup name = some bytes) :
      ∃ owner key, name = sanitizeKey (owner.scopedKey key) ∧
        LeftBy .disk owner key (put :: system.puts) bytes := by
    obtain ⟨owner, key, isName, left⟩ := sound.files name bytes found
    exact ⟨owner, key, isName,
      left.cons fun succeeded isTarget => absurd succeeded (notThis isTarget)⟩
  cases changes with
  | unchanged nothing =>
    have notThis (target : ResourceSource) (isTarget : put.target = some target) :
        put.ending ≠ .succeeded := by
      rcases nothing with refused | isNone | ⟨_, broken⟩
      · rw [refused]
        exact nofun
      · rw [isNone] at isTarget
        cases isTarget
      · rw [broken]
        exact nofun
    exact ⟨sound.backed, blobs, memory (notThis _), rows (notThis _), files (notThis _)⟩
  | remembered isMemory succeeded =>
    have elsewhere (target : ResourceSource) (other : target ≠ .memory)
        (isTarget : put.target = some target) : put.ending ≠ .succeeded := by
      rw [isMemory] at isTarget
      exact absurd (some.inj isTarget).symm other
    refine ⟨sound.backed, blobs, ?_, rows (elsewhere _ (by decide)),
      files (elsewhere _ (by decide))⟩
    intro name bytes found
    rw [lookup_insert_ite] at found
    split at found
    next isName =>
      cases found
      refine ⟨put.owner, put.key, isName, .written isMemory ?_⟩
      rw [succeeded]
      exact nofun
    next notName =>
      obtain ⟨owner, key, isName, left⟩ := sound.memory name bytes found
      refine ⟨owner, key, isName, left.cons ?_⟩
      rintro _ _ ⟨rfl, rfl⟩
      exact notName isName
  | cached isCache moved succeeded refused =>
    have elsewhere (target : ResourceSource) (other : target ≠ .cache)
        (isTarget : put.target = some target) : put.ending ≠ .succeeded := by
      rw [isCache] at isTarget
      exact absurd (some.inj isTarget).symm other
    refine ⟨moved.backed, ?_, ?_, ?_, ?_⟩
    · intro contentHash bytes found
      rcases moved.blobs contentHash bytes found with old | ⟨_, mem, rfl, rfl⟩
      · exact blobs contentHash bytes old
      · obtain rfl := mem_singleton.mp mem
        exact ⟨rfl, put, mem_cons_self, rfl⟩
    · rw [moved.memory]
      exact memory (elsewhere _ (by decide))
    · intro name row found
      have ofOld (old : Row) (same : SameRow old row)
          (oldFound : system.stores.rows.lookup name = some old)
          (notThis : put.ending = .succeeded → name ≠ put.name) :
          ∃ owner key data, name = owner.scopedKey key ∧ row.contentHash = digest.address data ∧
            LeftBy .cache owner key (put :: system.puts) data := by
        obtain ⟨owner, key, data, isName, address, left⟩ := sound.rows name old oldFound
        refine ⟨owner, key, data, isName, same.1.symm.trans address, left.cons ?_⟩
        rintro isSucceeded _ ⟨rfl, rfl⟩
        exact notThis isSucceeded isName
      by_cases isRefused : put.ending = .refused
      · rcases (refused isRefused).rows name row found with
          ⟨old, oldFound, same⟩ | ⟨_, mem, _⟩
        · refine ofOld old same oldFound fun isSucceeded => ?_
          rw [isRefused] at isSucceeded
          cases isSucceeded
        · cases mem
      · by_cases own : put.ending = .succeeded ∧ name = put.name
        · obtain ⟨held, heldFound, address⟩ := succeeded own.1
          have isHeld : some row = some held := found.symm.trans (own.2 ▸ heldFound)
          cases isHeld
          exact ⟨put.owner, put.key, put.data, own.2, address, .written isCache isRefused⟩
        · rcases moved.rows name row found with
            ⟨old, oldFound, same⟩ | ⟨_, mem, isName, address, _⟩
          · exact ofOld old same oldFound fun isSucceeded isName => own ⟨isSucceeded, isName⟩
          · obtain rfl := mem_singleton.mp mem
            exact ⟨put.owner, put.key, put.data, isName, address, .written isCache isRefused⟩
    · rw [moved.files]
      exact files (elsewhere _ (by decide))
  | written _ isDisk isContent =>
    have elsewhere (target : ResourceSource) (other : target ≠ .disk)
        (isTarget : put.target = some target) : put.ending ≠ .succeeded := by
      rw [isDisk] at isTarget
      exact absurd (some.inj isTarget).symm other
    refine ⟨sound.backed, blobs, memory (elsewhere _ (by decide)),
      rows (elsewhere _ (by decide)), ?_⟩
    intro name bytes found
    rw [lookup_insert_ite] at found
    split at found
    next isPath =>
      cases found
      refine ⟨put.owner, put.key, isPath, ?_⟩
      rcases isContent with ⟨rfl, notRefused⟩ | ⟨firstPart, broken⟩
      · exact .written isDisk notRefused
      · exact .begun isDisk broken firstPart
    next notPath =>
      obtain ⟨owner, key, isName, left⟩ := sound.files name bytes found
      refine ⟨owner, key, isName, left.cons ?_⟩
      rintro _ _ ⟨rfl, rfl⟩
      exact notPath isName

end Sound

section

variable {manager : ResourceManager} {system next : System} {action : Action}

def Answers (digest : Addressing) (stores : Stores) (owner : CacheOwner) (key : Str)
    (bytes : Bytes) : ResourceSource → Prop
  | .memory => stores.inMemory owner key = some bytes
  | .cache =>
    ContentCache.Reads digest stores (owner.scopedKey key) bytes ∨
      owner = .host ∧ ContentCache.Reads digest stores key bytes
  | .disk => stores.files.lookup (stores.filePath owner key) = some bytes

variable {before : Stores}

variable (owner : CacheOwner) (key : Str)

theorem getCached_answers (limit now : Nat) :
    Finds (Undisturbed manager.addressing before)
      (Answers manager.addressing before owner key · .cache)
      (manager.getCached owner key limit now) := by
  unfold getCached cache
  cases manager.cacheLimits with
  | none => exact Finds.nothing fun _ => id
  | some limits =>
    exact (@ContentCache.getWithLimitForOwner_reads ⟨manager.addressing, limits⟩ before owner key
      limit now).orNothing (fun _ => rfl) fun _ => rfl

theorem getFile_answers (limit : Nat) :
    Finds (Undisturbed manager.addressing before)
      (Answers manager.addressing before owner key · .disk) (manager.getFile owner key limit) := by
  have samePath (stores : Stores)
      (held : Undisturbed manager.addressing before stores) :
      stores.filePath owner key = before.filePath owner key := by
    simp [Stores.filePath, held.1.files]
  unfold getFile
  split
  · exact Finds.nothing fun _ => id
  · have finds : Triple (Undisturbed manager.addressing before)
        (Faulty.inspect fun stores => stores.filePath owner key : Program Str)
        ⟨fun path stores =>
          Undisturbed manager.addressing before stores ∧
            path = before.filePath owner key,
          fun _ => Undisturbed manager.addressing before,
          Undisturbed manager.addressing before⟩ :=
      fun stores _ held => ⟨held, samePath stores held⟩
    refine finds.bind fun path => Triple.assuming fun isPath => ?_
    subst isPath
    refine Triple.bind (Keeps.inspect _) fun isOversize => ?_
    cases isOversize with
    | true => exact Finds.nothing fun _ => id
    | false =>
      have reads : Finds (Undisturbed manager.addressing before)
          (Answers manager.addressing before owner key · .disk) (perform .file fun stores =>
            (stores.files.lookup (before.filePath owner key), stores)) := by
        refine (look_returns _ _).returning fun found stores held => ⟨held.1, fun bytes same => ?_⟩
        have isFile := held.2.symm
        rw [held.1.1.files] at isFile
        exact isFile.trans same
      exact reads.orNothing (fun _ => rfl) fun _ => rfl

theorem getWithLimitForOwner_answers (owner : CacheOwner) (key : Str) (limit now : Nat) :
    Triple (Undisturbed manager.addressing before)
      (manager.getWithLimitForOwner owner key limit now)
      ⟨fun found stores =>
        Undisturbed manager.addressing before stores ∧
          ∀ bytes source, found = some (bytes, source) →
            Answers manager.addressing before owner key bytes source,
        fun _ => Undisturbed manager.addressing before,
        Undisturbed manager.addressing before⟩ := by
  have stored (limit : Nat) : Triple (Undisturbed manager.addressing before)
      (manager.getStored owner key limit now)
      ⟨fun found stores =>
        Undisturbed manager.addressing before stores ∧
          ∀ bytes source, found = some (bytes, source) →
            Answers manager.addressing before owner key bytes source,
        fun _ => Undisturbed manager.addressing before,
        Undisturbed manager.addressing before⟩ := by
    refine (getCached_answers owner key limit now).bind fun found => ?_
    cases found with
    | some data =>
      refine Triple.pure fun _ held => ⟨held.1, ?_⟩
      rintro bytes source ⟨⟩
      exact held.2 _ rfl
    | none =>
      refine Triple.bind ((getFile_answers owner key limit).of_stronger fun _ held => held.1)
        fun file => Triple.pure fun _ held => ⟨held.1, ?_⟩
      intro bytes source same
      obtain ⟨data, isFile, isAnswer⟩ := map_eq_some_iff.mp same
      cases isAnswer
      exact held.2 _ isFile
  have looks : Triple (Undisturbed manager.addressing before)
      (Faulty.inspect fun stores => stores.inMemory owner key : Program (Option Bytes))
      ⟨fun found stores =>
        Undisturbed manager.addressing before stores ∧
          found = before.inMemory owner key,
        fun _ => Undisturbed manager.addressing before,
        Undisturbed manager.addressing before⟩ := by
    intro stores _ held
    refine ⟨held, ?_⟩
    simp [Stores.inMemory, held.1.memory]
  refine looks.bind fun found => Triple.assuming fun isFound => ?_
  cases found with
  | none => exact stored _
  | some data =>
    dsimp only
    split
    · refine Triple.pure fun _ held => ⟨held, ?_⟩
      rintro bytes source ⟨⟩
      exact isFound.symm
    · exact stored _

theorem getWithLimitForOwner_undisturbed (limit now : Nat) :
    Keeps (Undisturbed manager.addressing before)
      (manager.getWithLimitForOwner owner key limit now) :=
  (getWithLimitForOwner_answers owner key limit now).returning (fun _ _ held => held.1)

theorem Sound.keeps {Value : Type} {program : Program Value} (moves :
    ∀ before, Keeps (Moved manager.addressing [] before) program) :
    Keeps (fun stores => Sound manager.addressing { system with stores := stores }) program := by
  intro stores fates held
  have met := moves stores stores fates (.refl held.backed)
  cases ended : program stores fates with
  | returned _ after rest | failed _ after rest | crashed after =>
    rw [ended] at met
    exact held.moved met

theorem Sound.forgetful (sound : Sound manager.addressing system) : Sound manager.addressing
    { system with stores := { system.stores with memory := ∅ } } := by
  refine sound.shrinks ?_ (fun _ _ => id)
    (fun _ row found => ⟨row, found, rfl, rfl⟩) (fun _ _ => id)
    sound.backed
  intro _ _ found
  cases found

theorem Sound.step (sound : Sound manager.addressing system)
    (taken : step manager system action = some next) : Sound manager.addressing next := by
  cases action with
  | put owner key _ _ now freeSpace fates =>
    obtain ⟨⟨stores, ending⟩, finished, rfl⟩ := map_eq_some_iff.mp taken
    exact (sound.withFreeSpace freeSpace).put (putForOwner_changes sound.backed finished)
  | get owner key limit now fates =>
    obtain ⟨⟨stores, ending⟩, finished, rfl⟩ := map_eq_some_iff.mp taken
    have undisturbed :=
      finish_keeps (getWithLimitForOwner_undisturbed owner key limit now)
        ⟨.refl sound.backed, fun _ row found => ⟨row, found, rfl, rfl⟩⟩ finished
    exact sound.moved undisturbed.1
  | remove owner key fates =>
    simp only [Cache.step] at taken
    split at taken
    · cases taken
    next isCache =>
      obtain ⟨⟨stores, ending⟩, finished, rfl⟩ := map_eq_some_iff.mp taken
      obtain ⟨limits, _, rfl⟩ := map_eq_some_iff.mp isCache
      have removes : Keeps (fun stores => Sound manager.addressing { system with stores := stores })
          (removeForOwner ⟨manager.addressing, limits⟩ owner key) :=
        Sound.keeps fun _ =>
          removeForOwner_keeps (fun name _ _ moved => moved.eraseRow name)
            fun _ _ moved => moved.eraseBlob
      exact finish_keeps removes sound finished
  | deleteFromDisk key fates =>
    obtain ⟨⟨stores, ending⟩, finished, rfl⟩ := map_eq_some_iff.mp taken
    have erases : Keeps (fun stores => Sound manager.addressing { system with stores := stores })
        (manager.deleteFromDisk key) := by
      refine (Keeps.update fun stores held => ?_).bind fun _ => ?_
      · refine held.shrinks ?_ (fun _ _ => id)
          (fun _ row found => ⟨row, found, rfl, rfl⟩) (fun _ _ => id)
          held.backed
        intro name bytes found
        exact lookup_of_erase found
      · split
        · exact Keeps.pure _
        · refine (Keeps.call fun stores held => ?_).attempt.bind fun _ => Keeps.pure _
          refine held.shrinks (fun _ _ => id) ?_
            (fun _ row found => ⟨row, found, rfl, rfl⟩) (fun _ _ => id)
            held.backed
          intro name bytes found
          exact lookup_of_erase found
    exact finish_keeps erases sound finished
  | restart now fates =>
    obtain ⟨⟨stores, ending⟩, finished, rfl⟩ := map_eq_some_iff.mp taken
    have restarts : Keeps (fun stores => Sound manager.addressing { system with stores := stores })
        (manager.restart now) := by
      refine (Keeps.update fun _ held => held.forgetful).bind fun _ => ?_
      unfold cache
      cases manager.cacheLimits with
      | none => exact Keeps.pure _
      | some limits =>
        refine Sound.keeps fun _ => Keeps.bind ?_ fun _ =>
          reconcilePhysicalBlobs_keeps Moved.shrinks
        exact Keeps.call fun _ moved => moved.of_same rfl rfl rfl rfl
    exact finish_keeps restarts sound finished

end

end Arclain.Cache
