import Arclain.ContentCache

namespace Arclain.Cache

/-!
# Stores that shrink

Whatever fails, making room in the cache only takes rows away and blobs that no
row has.  What such losses do not take away is kept by every part of it.
-/

open KeyedMap List FaultyCalls Text

def Unreferenced (contentHash : Str) (stores : Stores) : Prop :=
  ∀ key row, stores.rows.lookup key = some row → row.contentHash ≠ contentHash

/-- A property not lost with a row, with a blob without rows, or with an answer about free
space. -/
structure Shrinks (holds : Stores → Prop) : Prop where
  eraseRow : ∀ stores key, holds stores → holds { stores with rows := stores.rows.erase key }
  eraseBlob : ∀ stores contentHash, holds stores → Unreferenced contentHash stores →
    holds { stores with blobs := stores.blobs.erase contentHash }
  answers : ∀ stores answers, holds stores → holds { stores with freeSpace := answers }

theorem Shrinks.and {first second : Stores → Prop} (firstShrinks : Shrinks first)
    (secondShrinks : Shrinks second) :
    Shrinks fun stores => first stores ∧ second stores where
  eraseRow stores key held :=
    ⟨firstShrinks.eraseRow stores key held.1, secondShrinks.eraseRow stores key held.2⟩
  eraseBlob stores contentHash held unreferenced :=
    ⟨firstShrinks.eraseBlob stores contentHash held.1 unreferenced,
      secondShrinks.eraseBlob stores contentHash held.2 unreferenced⟩
  answers stores answers held :=
    ⟨firstShrinks.answers stores answers held.1, secondShrinks.answers stores answers held.2⟩

section

variable {digest : Addressing}

variable {holds : Stores → Prop}

theorem keeps_look {Value : Type} (call : CacheCall) (read : Stores → Value) :
    Keeps holds (perform call fun stores => (read stores, stores)) :=
  Keeps.call fun _ => id

theorem look_returns {Value : Type} (call : CacheCall) (read : Stores → Value) :
    Triple holds (perform call fun stores => (read stores, stores))
      ⟨fun value stores => holds stores ∧ value = read stores, fun _ => holds, holds⟩ :=
  Triple.call (fun _ held => ⟨held, rfl⟩) (fun _ => id)
    (fun _ => id) (fun _ => id) (fun _ => id)

theorem deleteRow_keeps (shrinks : Shrinks holds) (key : Str) : Keeps holds (deleteRow key) :=
  Keeps.call fun stores => shrinks.eraseRow stores key

variable {contentHash : Str}

theorem unreferenced_of_hasContentHash {stores : Stores} (absent : (stores.rows.entries.any
    fun entry => entry.2.contentHash = contentHash) = false) :
    Unreferenced contentHash stores := by
  intro key row found same
  have mem := lookup_eq_some_iff_mem.mp found
  have differs := any_eq_false.mp absent ⟨key, row⟩ mem
  exact differs (decide_eq_true same)

theorem removePhysicalBlob_keeps {holds kept : Stores → Prop} (erased : ∀ stores, holds stores →
    kept { stores with blobs := stores.blobs.erase contentHash })
    (weakens : ∀ stores, holds stores → kept stores) :
    Triple holds (removePhysicalBlob digest contentHash)
      ⟨fun _ => kept, fun _ => kept, kept⟩ := by
  unfold removePhysicalBlob
  split
  · exact Triple.call erased weakens erased weakens erased
  · exact Triple.pure weakens

theorem discardBlobIfUnreferenced_keeps (contentHash : Str) (erased :
    ∀ stores, holds stores → Unreferenced contentHash stores →
      holds { stores with blobs := stores.blobs.erase contentHash }) :
    Keeps holds (discardBlobIfUnreferenced digest contentHash) := by
  unfold discardBlobIfUnreferenced
  refine Triple.bind (look_returns _ _) fun isReferenced => ?_
  cases isReferenced with
  | true => exact Triple.pure fun _ held => held.1
  | false =>
    refine removePhysicalBlob_keeps ?_ fun _ held => held.1
    intro stores held
    exact erased stores held.1 (unreferenced_of_hasContentHash held.2.symm)

theorem deleteRows_keeps (kept : ∀ stores key, holds stores →
    holds { stores with rows := stores.rows.erase key })
    (keys : List Str) :
    Triple holds (deleteRows keys) ⟨fun _ stores =>
      holds stores ∧ ∀ key ∈ keys, stores.rows.lookup key = none, fun _ => holds, holds⟩ := by
  induction keys generalizing holds with
  | nil => exact Triple.pure fun _ held => ⟨held, nofun⟩
  | cons key keys ih =>
    -- Deleting the other rows does not bring this one back.
    have later :=
      @ih (fun stores => holds stores ∧ stores.rows.lookup key = none) (fun stores other held => by
        refine ⟨kept stores other held.1, ?_⟩
        rw [lookup_erase_ite, held.2, ite_self])
    have deleted : Triple holds (do
      let _ ← deleteRow key
      pure () : Program Unit)
        ⟨fun _ stores => holds stores ∧ stores.rows.lookup key = none, fun _ => holds, holds⟩ :=
      Triple.bind (Triple.call (fun stores held => ⟨kept stores key held, AList.lookup_erase _ _⟩)
        (fun _ => id) (fun stores => kept stores key)
        (fun _ => id) fun stores => kept stores key)
        fun _ => Triple.pure fun _ => id
    refine Triple.bind deleted fun _ => ?_
    refine later.consequence (fun _ => id) ?_ (fun _ _ held => held.1) fun _ held => held.1
    intro _ stores held
    refine ⟨held.1.1, ?_⟩
    intro other mem
    rcases mem_cons.mp mem with rfl | mem
    · exact held.1.2
    · exact held.2 other mem

theorem upsertWithRetry_keeps {scopedKey contentHash : Str} {sizeBytes now : Nat}
    (written : ∀ stores row, holds stores → row.contentHash = contentHash →
      row.sizeBytes = some (sizeBytes : Int) →
        holds { stores with rows := stores.rows.insert scopedKey row })
    (attempts : Nat) :
    Keeps holds (ContentCache.upsertWithRetry scopedKey contentHash sizeBytes now attempts) := by
  induction attempts with
  | zero => exact Keeps.pure _
  | succ attempts ih =>
    have upserts : Keeps holds (upsert scopedKey contentHash (some sizeBytes) now) :=
      Keeps.call fun stores held => written stores _ held rfl rfl
    refine upserts.attempt.bind fun result => ?_
    cases result with
    | ok => exact Keeps.pure _
    | error error =>
      dsimp only
      split
      · exact Keeps.pure _
      · exact ih

end

/-! ## Reconciliation -/

def Listed (entries : List CacheEntry) (stores : Stores) : Prop :=
  ∀ key row, stores.rows.lookup key = some row →
    ∃ entry ∈ entries, entry.key = key ∧ entry.contentHash = row.contentHash

theorem listed_entriesLru (stores : Stores) : Listed stores.entriesLru stores := by
  intro key row found
  have mem := lookup_eq_some_iff_mem.mp found
  refine ⟨_, mem_map.mpr ⟨⟨key, row⟩, (mem_insertionSort _).mpr mem, rfl⟩, rfl, rfl⟩

section

variable {digest : Addressing} {holds : Stores → Prop}

theorem loadEntriesLru_lists : Triple holds loadEntriesLru
    ⟨fun entries stores => holds stores ∧ Listed entries stores, fun _ => holds, holds⟩ :=
  (look_returns .index Stores.entriesLru).returning fun _ stores held =>
    ⟨held.1, held.2 ▸ listed_entriesLru stores⟩

def Referenced (referenced : List Str) (entries : List CacheEntry) (stores : Stores) : Prop :=
  ∀ key row, stores.rows.lookup key = some row → row.contentHash ∈ referenced ∨
    ∃ entry ∈ entries, entry.key = key ∧ entry.contentHash = row.contentHash

/-- What `reconcile_physical_blobs` finds is all that the rows refer to. -/
theorem reconcileRows_finds (shrinks : Shrinks holds) (entries : List CacheEntry)
    (referenced : List Str) :
    Triple (fun stores => holds stores ∧ Referenced referenced entries stores)
      (reconcileRows digest entries referenced)
      ⟨fun found stores => holds stores ∧ Referenced found [] stores, fun _ => holds, holds⟩ := by
  induction entries generalizing referenced with
  | nil => exact Triple.pure fun _ => id
  | cons entry entries ih =>
    refine Triple.bind (Keeps.inspect _ |>.leaving fun _ held => held.1) fun isFile => ?_
    cases isFile with
    | true =>
      refine (ih (entry.contentHash :: referenced)).of_stronger ?_
      intro stores held
      refine ⟨held.1, fun key row found => ?_⟩
      rcases held.2 key row found with known | ⟨other, mem, own, same⟩
      · exact .inl (mem_cons_of_mem _ known)
      · rcases mem_cons.mp mem with rfl | later
        · exact .inl (same ▸ mem_cons_self)
        · exact .inr ⟨other, later, own, same⟩
    | false =>
      -- The row of this entry goes, so no other row is left to its entry.
      have deleted (stores : Stores) (held :
          holds stores ∧ Referenced referenced (entry :: entries) stores) :
          holds { stores with rows := stores.rows.erase entry.key } ∧ Referenced referenced entries
            { stores with rows := stores.rows.erase entry.key } := by
        refine ⟨shrinks.eraseRow stores entry.key held.1, fun key row found => ?_⟩
        rw [lookup_erase_ite] at found
        split at found
        · cases found
        next different =>
          rcases held.2 key row found with known | ⟨other, mem, own, same⟩
          · exact .inl known
          · rcases mem_cons.mp mem with rfl | later
            · exact absurd own.symm different
            · exact .inr ⟨other, later, own, same⟩
      refine Triple.bind ?_ fun _ => ih referenced
      exact Triple.call deleted (fun _ held => held.1)
        (fun stores held => (deleted stores held).1) (fun _ held => held.1)
        fun stores held => (deleted stores held).1

/-- `reconcile_physical_blobs`, once the entries are listed. -/
def reconcileListed (digest : Addressing) (entries : List CacheEntry) : Program Unit := do
  let referenced ← reconcileRows digest entries []
  let physicalFiles ← perform .content fun stores => (stores.blobs.keys, stores)
  let unindexed := physicalFiles.filter fun path => path ∉ referenced
  Faulty.forEach (fun path =>
    perform .content fun stores => ((), { stores with blobs := stores.blobs.erase path }))
    unindexed

theorem reconcileListed_keeps (shrinks : Shrinks holds) (entries : List CacheEntry) :
    Triple (fun stores => holds stores ∧ Listed entries stores) (reconcileListed digest entries)
      ⟨fun _ => holds, fun _ => holds, holds⟩ := by
  refine Triple.bind ((reconcileRows_finds shrinks entries []).of_stronger ?_)
    fun referenced => ?_
  · intro stores held
    exact ⟨held.1, fun key row found => .inr (held.2 key row found)⟩
  · refine Triple.bind ((keeps_look .content fun stores => stores.blobs.keys).leaving
      fun _ held => held.1) fun physicalFiles => ?_
    have removed (paths : List Str) (unindexed : ∀ path ∈ paths, path ∉ referenced) :
        Keeps (fun stores => holds stores ∧ Referenced referenced [] stores)
          (Faulty.forEach (fun path =>
            (perform .content fun stores =>
              ((), { stores with blobs := stores.blobs.erase path }) :
              Program Unit))
            paths) := by
      induction paths with
      | nil => exact Keeps.pure _
      | cons path paths ih =>
        refine Keeps.bind (Keeps.call ?_) fun _ =>
          ih fun other mem => unindexed other (mem_cons_of_mem _ mem)
        intro stores held
        refine ⟨shrinks.eraseBlob stores path held.1 fun key row found same => ?_, held.2⟩
        rcases held.2 key row found with known | ⟨entry, mem, _⟩
        · exact unindexed path mem_cons_self (same ▸ known)
        · cases mem
    refine (removed _ ?_).consequence (fun _ => id) (fun _ _ held => held.1)
      (fun _ _ held => held.1) fun _ held => held.1
    intro path mem
    exact of_decide_eq_true (mem_filter.mp mem).2

theorem reconcilePhysicalBlobs_keeps (shrinks : Shrinks holds) :
    Keeps holds (reconcilePhysicalBlobs digest) := by
  change Keeps holds (loadEntriesLru >>= reconcileListed digest)
  exact Triple.bind loadEntriesLru_lists fun entries => reconcileListed_keeps shrinks entries

end

end Arclain.Cache
