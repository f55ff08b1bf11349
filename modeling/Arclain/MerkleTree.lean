import Arclain.HashTree
import Arclain.LittleEndian
import Mathlib.Data.List.Sort

namespace Arclain.Merkle

open HashTree LittleEndian

/-!
# The Merkle tree over hashed files

`from_file_hashes` normalizes the path of every file, sorts the files by their identity,
hashes one leaf for each, and folds the leaves level by level.  Text is its UTF-8 bytes.
The three digest functions are third-party code.
-/

abbrev Bytes := List UInt8

def ascii (text : String) : Bytes := text.toList.map Char.toUInt8

/-- What a `Vec<u8>` or a `String` holds: no allocation is longer than
`isize::MAX` bytes. -/
structure Buffer where
  bytes : Bytes
  fits : bytes.length < 2 ^ 63
  deriving DecidableEq

inductive Algorithm where
  | crc32
  | xxHash
  | sha256
  deriving DecidableEq

structure Hash where
  algorithm : Algorithm
  bytes : Buffer
  deriving DecidableEq

/-- Result of hashing a single file within a folder. -/
structure FileHashResult where
  relativePath : Buffer
  hash : Hash
  size : UInt64

/-- The digest functions of the third-party crates. -/
structure Digests where
  /-- `crc32fast::hash` -/
  crc32 : Bytes → UInt32
  /-- `xxhash_rust::xxh3::xxh3_64` -/
  xxh3 : Bytes → UInt64
  /-- `sha2::Sha256::digest` -/
  sha256 : Bytes → Vector UInt8 32

def merkleEncodingVersion : UInt8 := 2

def leafDomain : Bytes := ascii "arclain-merkle-leaf"

def nodeDomain : Bytes := ascii "arclain-merkle-node"

inductive PathNamespace where
  | empty
  | current
  | relative
  | rooted
  | unc
  | driveRelative
  | driveRooted
  deriving DecidableEq, Ord

def PathNamespace.tag : PathNamespace → UInt8
  | .empty => 0
  | .current => 1
  | .relative => 2
  | .rooted => 3
  | .unc => 4
  | .driveRelative => 5
  | .driveRooted => 6

structure NormalizedPath where
  pathNamespace : PathNamespace
  value : Bytes
  deriving DecidableEq

def algorithmTag : Algorithm → UInt8
  | .crc32 => 0
  | .xxHash => 1
  | .sha256 => 2

/-- `append_length_prefixed`: the length is cast to a `u64`. -/
def appendLengthPrefixed (encoded field : Bytes) : Bytes :=
  encoded ++ ofNat 8 field.length ++ field

def Digests.bytes (digests : Digests) (encoded : Bytes) : Algorithm → Bytes
  | .crc32 => ofNat 4 (digests.crc32 encoded).toNat
  | .xxHash => ofNat 8 (digests.xxh3 encoded).toNat
  | .sha256 => (digests.sha256 encoded).toList

theorem Digests.length_bytes (digests : Digests) (encoded : Bytes) (algorithm : Algorithm) :
    (digests.bytes encoded algorithm).length =
      match algorithm with
      | .crc32 => 4
      | .xxHash => 8
      | .sha256 => 32 := by
  cases algorithm with
  | crc32 | xxHash => exact length_ofNat _ _
  | sha256 => exact (digests.sha256 encoded).length_toList

def hashEncoded (digests : Digests) (encoded : Bytes) (algorithm : Algorithm) : Hash where
  algorithm := algorithm
  bytes :=
    { bytes := digests.bytes encoded algorithm
      fits := by
        rw [digests.length_bytes]
        cases algorithm <;> decide }

/-! ## Normalized paths -/

def slash : UInt8 := '/'.toUInt8
def backslash : UInt8 := '\\'.toUInt8
def colon : UInt8 := ':'.toUInt8

/-- One step of the loop of `normalize_components`. -/
def pushComponent (components : List Bytes) (component : Bytes) : List Bytes :=
  if component = [] ∨ component = ascii "." then components
  else if component = ascii ".." then
    match components.getLast? with
    | some previous =>
      if previous ≠ ascii ".." then components.dropLast
      else components ++ [component]
    | none => components ++ [component]
  else components ++ [component]

/-- `components.join("/")` -/
def join (components : List Bytes) : Bytes := [slash].intercalate components

theorem join_cons {component : Bytes} {rest : List Bytes} (more : rest ≠ []) :
    join (component :: rest) = component ++ slash :: join rest := by
  simp [join, List.intercalate_cons_of_ne_nil more]

def normalizeComponents (path : Bytes) : Bytes := join ((path.splitOn slash).foldl pushComponent [])

def normalizeUncPath (path : Bytes) : Bytes :=
  let components :=
    (path.splitOn slash).filter fun component => component ≠ [] ∧ component ≠ ascii "."
  let authorityLength := min components.length 2
  let authority := join (components.take authorityLength)
  let tail := normalizeComponents (join (components.drop authorityLength))
  if authority = [] then ascii "//"
  else if tail = [] then ascii "//" ++ authority
  else ascii "//" ++ authority ++ [slash] ++ tail

/-- `u8::is_ascii_alphabetic` -/
def isAsciiAlphabetic (byte : UInt8) : Bool :=
  ('a'.toUInt8 ≤ byte && byte ≤ 'z'.toUInt8) || ('A'.toUInt8 ≤ byte && byte ≤ 'Z'.toUInt8)

def hasDrivePrefix : Bytes → Bool
  | first :: second :: _ => isAsciiAlphabetic first && second == colon
  | _ => false

/-- `trim_start_matches('/')` -/
def trimSlashes (path : Bytes) : Bytes := path.dropWhile (· == slash)

/-- The branch of `normalize_relative_path` for a path with a drive. -/
def normalizeDrivePath (portable : Bytes) : NormalizedPath :=
  let drive := portable.take 2
  let remainder := portable.drop 2
  let rooted := [slash].isPrefixOf remainder
  let normalized := normalizeComponents (trimSlashes remainder)
  if rooted then
    { pathNamespace := .driveRooted
      value :=
        if normalized = [] then drive ++ [slash]
        else drive ++ [slash] ++ normalized }
  else
    { pathNamespace := .driveRelative
      value := drive ++ normalized }

def normalizeRelativePath (path : Bytes) : NormalizedPath :=
  if path = [] then { pathNamespace := .empty, value := [] }
  else
    let portable := path.map fun byte => if byte = backslash then slash else byte
    if hasDrivePrefix portable then normalizeDrivePath portable
    else if (ascii "//").isPrefixOf portable then
      { pathNamespace := .unc
        value := normalizeUncPath (trimSlashes portable) }
    else if [slash].isPrefixOf portable then
      let normalized := normalizeComponents (trimSlashes portable)
      { pathNamespace := .rooted
        value := if normalized = [] then [slash] else [slash] ++ normalized }
    else
      let normalized := normalizeComponents portable
      if normalized = [] then { pathNamespace := .current, value := ascii "." }
      else { pathNamespace := .relative, value := normalized }

/-! ## The tree -/

/-- The encoding `hash_leaf` hashes. -/
def leafEncoding (normalizedPath : NormalizedPath) (size : UInt64) (hash : Hash)
    (algorithm : Algorithm) : Bytes :=
  let encoded := appendLengthPrefixed [] leafDomain
  let encoded := encoded ++ [merkleEncodingVersion]
  let encoded := encoded ++ [algorithmTag algorithm]
  let encoded := encoded ++ [normalizedPath.pathNamespace.tag]
  let encoded := appendLengthPrefixed encoded normalizedPath.value
  let encoded := encoded ++ ofNat 8 size.toNat
  let encoded := encoded ++ [algorithmTag hash.algorithm]
  appendLengthPrefixed encoded hash.bytes.bytes

def hashLeaf (digests : Digests) (normalizedPath : NormalizedPath) (file : FileHashResult)
    (algorithm : Algorithm) : Hash :=
  hashEncoded digests (leafEncoding normalizedPath file.size file.hash algorithm) algorithm

/-- The encoding `combine_hashes` hashes. -/
def nodeEncoding (algorithm : Algorithm) (left right : Hash) : Bytes :=
  let encoded := appendLengthPrefixed [] nodeDomain
  let encoded := encoded ++ [merkleEncodingVersion]
  let encoded := encoded ++ [algorithmTag algorithm]
  let encoded := encoded ++ [algorithmTag left.algorithm]
  let encoded := appendLengthPrefixed encoded left.bytes.bytes
  let encoded := encoded ++ [algorithmTag right.algorithm]
  appendLengthPrefixed encoded right.bytes.bytes

def combineHashes (digests : Digests) (algorithm : Algorithm) (left right : Hash) : Hash :=
  hashEncoded digests (nodeEncoding algorithm left right) algorithm

/-- `build_next_level`: chunks of two, an odd node with itself. -/
def buildNextLevel (digests : Digests) (current : List Hash) (algorithm : Algorithm) : List Hash :=
  nextLevel (combineHashes digests algorithm) current

theorem levels_of_several (digests : Digests) {current : List Hash} (algorithm : Algorithm)
    (several : 1 < current.length) :
    levels (combineHashes digests algorithm) current = current ::
      levels (combineHashes digests algorithm)
        (buildNextLevel digests current algorithm) :=
  HashTree.levels_of_several several

def entryOrdering (first second : NormalizedPath × FileHashResult) : Ordering :=
  (compare first.1.value second.1.value).then <|
    (compare first.1.pathNamespace second.1.pathNamespace).then <|
      (compare first.2.size second.2.size).then <| (compare (algorithmTag first.2.hash.algorithm)
        (algorithmTag second.2.hash.algorithm)).then <|
        compare first.2.hash.bytes.bytes second.2.hash.bytes.bytes

def sortedEntries (files : List FileHashResult) : List (NormalizedPath × FileHashResult) :=
  (files.map fun file =>
    (normalizeRelativePath file.relativePath.bytes, file)).insertionSort
    fun first second => (entryOrdering first second).isLE

/-- A Merkle tree for file integrity verification. -/
structure MerkleTree where
  root : Hash
  nodes : List (List Hash)
  contentHashes : List Hash
  filePaths : List Bytes
  fileCount : Nat
  algorithm : Algorithm

namespace MerkleTree

def empty (algorithm : Algorithm) : MerkleTree where
  root := { algorithm := algorithm, bytes := { bytes := [], fits := by decide } }
  nodes := []
  contentHashes := []
  filePaths := []
  fileCount := 0
  algorithm := algorithm

/-- `MerkleTree::from_file_hashes`. The loop appends a level while the last one has several
nodes. -/
def fromFileHashes (digests : Digests) (files : List FileHashResult)
    (algorithm : Algorithm) : MerkleTree :=
  if files = [] then empty algorithm
  else
    let entries := sortedEntries files
    let filePaths := entries.map fun entry => entry.1.value
    let leaves := entries.map fun entry => hashLeaf digests entry.1 entry.2 algorithm
    let nodes := levels (combineHashes digests algorithm) leaves
    { root := (nodes.getLast?.bind List.head?).getD (empty algorithm).root
      nodes := nodes
      contentHashes := entries.map fun entry => entry.2.hash
      filePaths := filePaths
      fileCount := filePaths.length
      algorithm := algorithm }

end MerkleTree

end Arclain.Merkle
