import Arclain.MerkleTree

namespace Arclain.Merkle

/-!
# What the root hash commits to

The leaf of a file encodes its normalized path, its size and its content hash.  Fields of
variable length are length-prefixed.
-/

open List HashTree HashTree.Coding MerkleTree

/-! ## Lengths of normalized paths -/

def weight (components : List Bytes) : Nat :=
  (components.map fun component => component.length + 1).sum

@[simp] theorem weight_nil : weight [] = 0 := rfl

@[simp] theorem weight_cons (component : Bytes) (rest : List Bytes) :
    weight (component :: rest) = component.length + 1 + weight rest := by
  simp [weight]

@[simp] theorem weight_append (first second : List Bytes) :
    weight (first ++ second) = weight first + weight second := by
  simp [weight]

theorem weight_le_of_sublist {fewer components : List Bytes} (sublist : fewer.Sublist components) :
    weight fewer ≤ weight components := by
  induction sublist with
  | slnil => exact Nat.le_refl _
  | cons component _ ih =>
    rw [weight_cons]
    exact Nat.le_trans ih (Nat.le_add_left _ _)
  | cons_cons component _ ih =>
    rw [weight_cons, weight_cons]
    exact Nat.add_le_add_left ih _

theorem length_join {components : List Bytes} (nonempty : components ≠ []) :
    (join components).length + 1 = weight components := by
  induction components with
  | nil => exact absurd rfl nonempty
  | cons _ rest ih =>
    cases rest with
    | nil => simp [join]
    | cons _ rest =>
      have length := ih (cons_ne_nil _ _)
      rw [join_cons (cons_ne_nil _ _), length_append, length_cons, weight_cons, ← length]
      omega

theorem length_join_le (components : List Bytes) :
    (join components).length ≤ weight components := by
  cases components with
  | nil => simp [join]
  | cons first rest =>
    rw [← length_join (cons_ne_nil first rest)]
    exact Nat.le_succ _

variable (path : Bytes)

theorem weight_splitOn : weight (path.splitOn slash) = path.length + 1 := by
  have joined : join (path.splitOn slash) = path := intercalate_splitOn slash
  rw [← length_join (splitOn_ne_nil _ _), joined]

theorem weight_pushComponent (components : List Bytes) (component : Bytes) :
    weight (pushComponent components component) ≤ weight components + (component.length + 1) := by
  have pushed : weight (components ++ [component]) =
      weight components + (component.length + 1) := by
    simp
  unfold pushComponent
  split
  · exact Nat.le_add_right _ _
  · split
    · split
      · split
        · exact Nat.le_trans (weight_le_of_sublist (dropLast_sublist _)) (Nat.le_add_right _ _)
        · exact Nat.le_of_eq pushed
      · exact Nat.le_of_eq pushed
    · exact Nat.le_of_eq pushed

theorem weight_foldl_pushComponent (read kept : List Bytes) :
    weight (read.foldl pushComponent kept) ≤ weight kept + weight read := by
  induction read generalizing kept with
  | nil => simp
  | cons component _ ih =>
    have step := weight_pushComponent kept component
    have later := ih (pushComponent kept component)
    rw [foldl_cons, weight_cons]
    omega

theorem length_normalizeComponents : (normalizeComponents path).length ≤ path.length + 1 := by
  refine Nat.le_trans (length_join_le _) ?_
  refine Nat.le_trans (weight_foldl_pushComponent _ _) ?_
  rw [weight_splitOn, weight_nil, Nat.zero_add]

theorem length_normalizeUncPath : (normalizeUncPath path).length ≤ path.length + 5 := by
  unfold normalizeUncPath
  extract_lets components authorityLength authority tail
  have read : weight components ≤ path.length + 1 := by
    rw [← weight_splitOn]
    exact weight_le_of_sublist filter_sublist
  have split : weight (components.take authorityLength) + weight (components.drop authorityLength) =
      weight components := by
    rw [← weight_append, take_append_drop]
  have authorityFits : authority.length ≤ weight (components.take authorityLength) :=
    length_join_le _
  have tailFits : tail.length ≤ weight (components.drop authorityLength) + 1 :=
    Nat.le_trans (length_normalizeComponents _) (Nat.add_le_add_right (length_join_le _) 1)
  have slashes : (ascii "//").length = 2 := rfl
  split
  · omega
  · split
    · rw [length_append]
      omega
    · simp only [length_append, length_singleton]
      omega

theorem length_trimSlashes : (trimSlashes path).length ≤ path.length :=
  (dropWhile_sublist _).length_le

theorem length_normalizeDrivePath (portable : Bytes) :
    (normalizeDrivePath portable).value.length ≤ portable.length + 5 := by
  unfold normalizeDrivePath
  extract_lets drive remainder rooted normalized
  have driveLength : drive.length ≤ 2 := length_take_le 2 portable
  have rest : remainder.length ≤ portable.length := (drop_sublist 2 portable).length_le
  have trimmed := length_trimSlashes remainder
  have length : normalized.length ≤ (trimSlashes remainder).length + 1 :=
    length_normalizeComponents _
  split
  · dsimp only
    split
    · simp only [length_append, length_singleton]
      omega
    · simp only [length_append, length_singleton]
      omega
  · simp only [length_append]
    omega

theorem length_normalizeRelativePath :
    (normalizeRelativePath path).value.length ≤ path.length + 5 := by
  unfold normalizeRelativePath
  split
  · simp
  extract_lets portable rooted relative
  have length : portable.length = path.length := length_map _
  have trimmed := length_trimSlashes portable
  have rootedLength : rooted.length ≤ (trimSlashes portable).length + 1 :=
    length_normalizeComponents _
  have relativeLength : relative.length ≤ portable.length + 1 := length_normalizeComponents _
  split
  · rw [← length]
    exact length_normalizeDrivePath portable
  split
  · have normalized := length_normalizeUncPath (trimSlashes portable)
    dsimp only
    omega
  split
  · dsimp only
    split
    · simp
    · simp only [length_append, length_singleton]
      omega
  split
  · have dot : (ascii ".").length = 1 := rfl
    dsimp only
    omega
  · dsimp only
    omega

/-! ## Encodings -/

def prefixed (field : Bytes) : Bytes := LittleEndian.ofNat 8 field.length ++ field

theorem prefixed_inj {field other rest otherRest : Bytes} (fits : field.length < 2 ^ 64)
    (otherFits : other.length < 2 ^ 64)
    (same : prefixed field ++ rest = prefixed other ++ otherRest) :
    field = other ∧ rest = otherRest := by
  rw [prefixed, prefixed, append_assoc, append_assoc] at same
  obtain ⟨sameLength, sameRest⟩ := append_inj same (by simp)
  have length : field.length = other.length := by
    rw [← @LittleEndian.toNat_ofNat 8 _ fits, ← @LittleEndian.toNat_ofNat 8 _ otherFits, sameLength]
  exact append_inj sameRest length

theorem leafEncoding_eq (path : NormalizedPath) (size : UInt64) (hash : Hash)
    (algorithm : Algorithm) : leafEncoding path size hash algorithm = prefixed leafDomain ++
      (merkleEncodingVersion :: algorithmTag algorithm ::
        path.pathNamespace.tag :: (prefixed path.value ++ (LittleEndian.ofNat 8 size.toNat ++
          (algorithmTag hash.algorithm :: (prefixed hash.bytes.bytes ++ []))))) := by
  simp [leafEncoding, appendLengthPrefixed, prefixed]

variable (algorithm : Algorithm)

theorem nodeEncoding_eq (left right : Hash) :
    nodeEncoding algorithm left right = prefixed nodeDomain ++
      (merkleEncodingVersion :: algorithmTag algorithm ::
        algorithmTag left.algorithm :: (prefixed left.bytes.bytes ++
          (algorithmTag right.algorithm :: (prefixed right.bytes.bytes ++ [])))) := by
  simp [nodeEncoding, appendLengthPrefixed, prefixed]

theorem tag_injective : Function.Injective PathNamespace.tag := by
  intro first second same
  cases first <;> cases second <;> first | rfl | cases same

theorem algorithmTag_injective : Function.Injective algorithmTag := by
  intro first second same
  cases first <;> cases second <;> first | rfl | cases same

theorem Buffer.fits_prefix (buffer : Buffer) : buffer.bytes.length < 2 ^ 64 :=
  Nat.lt_trans buffer.fits (by decide)

theorem Buffer.eq_of_bytes {first second : Buffer} (same : first.bytes = second.bytes) :
    first = second := by
  cases first
  cases second
  cases same
  rfl

theorem Hash.eq_of_fields {first second : Hash}
    (tag : algorithmTag first.algorithm = algorithmTag second.algorithm)
    (bytes : first.bytes.bytes = second.bytes.bytes) : first = second := by
  cases first
  cases second
  obtain rfl := algorithmTag_injective tag
  obtain rfl := Buffer.eq_of_bytes bytes
  rfl

/-- The identity of a file: what its leaf commits to. -/
structure FileIdentity where
  path : NormalizedPath
  size : UInt64
  hash : Hash
  fits : path.value.length < 2 ^ 64

def fileIdentity (file : FileHashResult) : FileIdentity where
  path := normalizeRelativePath file.relativePath.bytes
  size := file.size
  hash := file.hash
  fits := by
    have length := length_normalizeRelativePath file.relativePath.bytes
    have fits := file.relativePath.fits
    omega

theorem leafEncoding_injective {first second : FileIdentity}
    (same : leafEncoding first.path first.size first.hash algorithm =
      leafEncoding second.path second.size second.hash algorithm) :
    first = second := by
  rw [leafEncoding_eq, leafEncoding_eq] at same
  have fields := append_cancel_left same
  simp only [cons.injEq, true_and] at fields
  obtain ⟨tag, fields⟩ := fields
  obtain ⟨value, fields⟩ := prefixed_inj first.fits second.fits fields
  obtain ⟨size, fields⟩ := append_inj fields (by simp)
  obtain ⟨hashTag, fields⟩ := cons.inj fields
  obtain ⟨bytes, -⟩ :=
    prefixed_inj first.hash.bytes.fits_prefix second.hash.bytes.fits_prefix fields
  have sameSize : first.size = second.size := by
    rw [← UInt64.toNat_inj, ← @LittleEndian.toNat_ofNat 8 _ (UInt64.toNat_lt first.size),
      ← @LittleEndian.toNat_ofNat 8 _ (UInt64.toNat_lt second.size), size]
  have sameHash := Hash.eq_of_fields hashTag bytes
  obtain ⟨⟨_, pathValue⟩, _, _, _⟩ := first
  obtain ⟨⟨_, otherValue⟩, _, _, _⟩ := second
  obtain rfl := tag_injective tag
  obtain rfl : pathValue = otherValue := value
  obtain rfl := sameSize
  obtain rfl := sameHash
  rfl

theorem nodeEncoding_injective {left right otherLeft otherRight : Hash}
    (same : nodeEncoding algorithm left right = nodeEncoding algorithm otherLeft otherRight) :
    left = otherLeft ∧ right = otherRight := by
  rw [nodeEncoding_eq, nodeEncoding_eq] at same
  have fields := append_cancel_left same
  simp only [cons.injEq, true_and] at fields
  obtain ⟨leftTag, fields⟩ := fields
  obtain ⟨leftBytes, fields⟩ :=
    prefixed_inj left.bytes.fits_prefix otherLeft.bytes.fits_prefix fields
  obtain ⟨rightTag, fields⟩ := cons.inj fields
  obtain ⟨rightBytes, -⟩ := prefixed_inj right.bytes.fits_prefix otherRight.bytes.fits_prefix fields
  exact ⟨Hash.eq_of_fields leftTag leftBytes, Hash.eq_of_fields rightTag rightBytes⟩

theorem leafEncoding_ne_nodeEncoding (identity : FileIdentity) (algorithm : Algorithm)
    (left right : Hash) : leafEncoding identity.path identity.size identity.hash algorithm ≠
      nodeEncoding algorithm left right := by
  intro same
  rw [leafEncoding_eq, nodeEncoding_eq] at same
  have domains := (prefixed_inj (by decide) (by decide) same).1
  exact absurd domains (by decide)

def coding (algorithm : Algorithm) : HashTree.Coding FileIdentity Hash Bytes where
  leaf identity := leafEncoding identity.path identity.size identity.hash algorithm
  node := nodeEncoding algorithm
  leaf_injective _ _ := leafEncoding_injective algorithm
  node_injective := nodeEncoding_injective algorithm
  apart identity := leafEncoding_ne_nodeEncoding identity algorithm

/-! ## Roots -/

section

variable (digests : Digests) (algorithm : Algorithm)

def sortedIdentities (files : List FileHashResult) : List FileIdentity :=
  (sortedEntries files).map fun entry => fileIdentity entry.2

/-- Every encoding `from_file_hashes` hashes. -/
def hashedEncodings (files : List FileHashResult) : List Bytes :=
  (coding algorithm).hashed (fun encoded => hashEncoded digests encoded algorithm)
    (sortedIdentities files)

def rootHash (files : List FileHashResult) : Hash :=
  (fromFileHashes digests files algorithm).root

variable (files : List FileHashResult)

theorem sortedEntries_perm : (sortedEntries files).Perm (files.map fun file =>
  (normalizeRelativePath file.relativePath.bytes, file)) :=
  perm_insertionSort _ _

theorem path_of_mem_sortedEntries {files : List FileHashResult}
    {entry : NormalizedPath × FileHashResult} (mem : entry ∈ sortedEntries files) :
    entry.1 = normalizeRelativePath entry.2.relativePath.bytes := by
  obtain ⟨_, -, rfl⟩ := mem_map.mp ((sortedEntries_perm files).mem_iff.mp mem)
  rfl

theorem sortedIdentities_perm : (sortedIdentities files).Perm (files.map fileIdentity) := by
  have perm := (sortedEntries_perm files).map fun entry => fileIdentity entry.2
  rw [map_map] at perm
  exact perm

theorem length_sortedIdentities : (sortedIdentities files).length = files.length := by
  rw [(sortedIdentities_perm files).length_eq, length_map]

theorem leaves_eq : (sortedEntries files).map (fun entry =>
  hashLeaf digests entry.1 entry.2 algorithm) =
    (coding algorithm).leaves (fun encoded => hashEncoded digests encoded algorithm)
      (sortedIdentities files) := by
  rw [leaves, sortedIdentities, map_map]
  apply map_congr_left
  intro entry mem
  rw [path_of_mem_sortedEntries mem]
  rfl

theorem rootHash_eq : rootHash digests algorithm files = ((coding algorithm).root
    (fun encoded => hashEncoded digests encoded algorithm)
    (sortedIdentities files)).getD (empty algorithm).root := by
  unfold rootHash fromFileHashes
  split
  next empty =>
    subst files
    have noIdentities : sortedIdentities [] = [] := rfl
    rw [noIdentities, root_nil, Option.getD_none]
  · dsimp only
    rw [leaves_eq]
    rfl

theorem hashEncoded_ne_empty (encoded : Bytes) :
    hashEncoded digests encoded algorithm ≠ (empty algorithm).root := by
  intro same
  have bytes := congrArg (fun hash => hash.bytes.bytes.length) same
  have length := digests.length_bytes encoded algorithm
  simp only [hashEncoded, empty, length_nil] at bytes
  rw [bytes] at length
  cases algorithm <;> cases length

variable {digests algorithm}

theorem rootHash_eq_iff {first second : List FileHashResult} :
    rootHash digests algorithm first = rootHash digests algorithm second ↔ (coding algorithm).root
      (fun encoded => hashEncoded digests encoded algorithm)
      (sortedIdentities first) =
        (coding algorithm).root (fun encoded => hashEncoded digests encoded algorithm)
          (sortedIdentities second) := by
  rw [rootHash_eq, rootHash_eq]
  refine ⟨fun same => ?_, fun same => by rw [same]⟩
  have onTop (files : List FileHashResult) (hash : Hash) (isRoot : (coding algorithm).root
      (fun encoded => hashEncoded digests encoded algorithm)
      (sortedIdentities files) = some hash) :
      hash ≠ (empty algorithm).root := by
    obtain ⟨code, rfl⟩ := exists_code_of_root isRoot
    exact hashEncoded_ne_empty digests algorithm code
  have onTopOfFirst := onTop first
  have onTopOfSecond := onTop second
  -- The two roots are any values that are not the empty tree's.
  generalize (coding algorithm).root _ (sortedIdentities first) = firstRoot at *
  generalize (coding algorithm).root _ (sortedIdentities second) = secondRoot at *
  cases firstRoot with
  | none =>
    cases secondRoot with
    | none => rfl
    | some other => exact absurd same.symm (onTopOfSecond other rfl)
  | some hash =>
    cases secondRoot with
    | none => exact absurd same (onTopOfFirst hash rfl)
    | some other => exact congrArg some same

/-- Without collisions one root hash means one completion of the sorted identities. -/
theorem root_commits_to_completion {first second : List FileHashResult}
    (collisionFree : HashTree.Coding.CollisionFree
      (fun encoded => hashEncoded digests encoded algorithm)
      (hashedEncodings digests algorithm first ++ hashedEncodings digests algorithm second)) :
    (rootHash digests algorithm first = rootHash digests algorithm second ↔
      completed (sortedIdentities first) = completed (sortedIdentities second)) ∧
      (rootHash digests algorithm first = rootHash digests algorithm second →
        first.length = second.length ∨
          ((first.map fileIdentity).Nodup ∧ (second.map fileIdentity).Nodup) →
        (first.map fileIdentity).Perm (second.map fileIdentity)) := by
  have completions : rootHash digests algorithm first = rootHash digests algorithm second ↔
      completed (sortedIdentities first) = completed (sortedIdentities second) :=
    rootHash_eq_iff.trans (root_eq_iff collisionFree)
  refine ⟨completions, fun same comparable => ?_⟩
  have sameCompletion := completions.mp same
  have sameIdentities : sortedIdentities first = sortedIdentities second := by
    rcases comparable with sameLength | ⟨firstDistinct, secondDistinct⟩
    · apply eq_of_completed_of_length sameCompletion
      rw [length_sortedIdentities, length_sortedIdentities, sameLength]
    · exact eq_of_completed_of_nodup sameCompletion
        ((sortedIdentities_perm first).nodup_iff.mpr firstDistinct)
        ((sortedIdentities_perm second).nodup_iff.mpr secondDistinct)
  have perm := (sortedIdentities_perm first).symm
  rw [sameIdentities] at perm
  exact perm.trans (sortedIdentities_perm second)

end

def crc32Bit (crc : Nat) : Nat := if crc % 2 = 1 then (crc / 2) ^^^ 0xEDB88320 else crc / 2

/-- What `crc32fast::hash` computes. -/
def crc32 (encoded : Bytes) : UInt32 :=
  let crc := encoded.foldl (fun crc byte => crc32Bit^[8] (crc ^^^ byte.toNat)) 0xFFFFFFFF
  UInt32.ofNat (crc ^^^ 0xFFFFFFFF)

example : crc32 (ascii "123456789") = 0xCBF43926 := by decide +kernel

def crcDigests : Digests where
  crc32 := crc32
  xxh3 _ := 0
  sha256 _ := Vector.replicate 32 0

/-- A file with a CRC-32 of four equal bytes. -/
def hashedFile (path : Buffer) (byte : UInt8) (size : UInt64) : FileHashResult where
  relativePath := path
  hash :=
    { algorithm := .crc32
      bytes := { bytes := [byte, byte, byte, byte], fits := by simp } }
  size := size

def fileA : FileHashResult := hashedFile { bytes := ascii "a.txt", fits := by decide } 1 100

def fileB : FileHashResult := hashedFile { bytes := ascii "sub\\b.txt", fits := by decide } 2 200

def fileC : FileHashResult := hashedFile { bytes := ascii "./sub/c.txt", fits := by decide } 3 300

/-- Two orders of two files have one root, and so the same identities. -/
theorem root_commits_to_two_files : rootHash crcDigests .crc32 [fileB, fileA] =
    rootHash crcDigests .crc32 [fileA, fileB] ∧
      ([fileB, fileA].map fileIdentity).Perm ([fileA, fileB].map fileIdentity) := by
  have same : rootHash crcDigests .crc32 [fileB, fileA] =
      rootHash crcDigests .crc32 [fileA, fileB] := by
    decide +kernel
  have commits :=
    @root_commits_to_completion crcDigests .crc32 [fileB, fileA] [fileA, fileB] (by decide +kernel)
  exact ⟨same, commits.2 same (.inl rfl)⟩

/-- Three files have the root of the four files in which the last is repeated:
the odd third leaf is paired with itself. -/
theorem repeated_file_same_root : ¬ ∀ (digests : Digests) (algorithm : Algorithm)
    (first second : List FileHashResult),
      HashTree.Coding.CollisionFree (fun encoded => hashEncoded digests encoded algorithm)
        (hashedEncodings digests algorithm first ++ hashedEncodings digests algorithm second) →
      rootHash digests algorithm first = rootHash digests algorithm second →
      (first.map fileIdentity).Perm (second.map fileIdentity) := by
  intro claimed
  have perm := claimed crcDigests .crc32 [fileA, fileB, fileC] [fileA, fileB, fileC, fileC]
    (by decide +kernel) (by decide +kernel)
  have lengths := perm.length_eq
  cases lengths

end Arclain.Merkle
