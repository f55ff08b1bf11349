import Arclain.MerkleCommitment

namespace Arclain.Merkle

/-!
# The order of the files, and proofs

The comparison of the entries reads the identity of a file and nothing else, and two
identities it finds equal are one identity.  So the sorted identities do not depend on the
order of the files, and every field of the tree is read off them.
-/

open List HashTree MerkleTree

/-! ## The order of the files -/

/-- The comparison of the entries, read off the identities. -/
def identityOrdering : FileIdentity → FileIdentity → Ordering :=
  compareLex (compareOn fun identity => identity.path.value) <|
    compareLex (compareOn fun identity => identity.path.pathNamespace.tag) <|
      compareLex (compareOn fun identity => identity.size) <|
        compareLex (compareOn fun identity => algorithmTag identity.hash.algorithm) <|
          compareOn fun identity => identity.hash.bytes.bytes

theorem compare_eq_compare_tag (first second : PathNamespace) :
    compare first second = compare first.tag second.tag := by
  cases first <;> cases second <;> rfl

variable {first second : FileIdentity}

theorem eq_of_identityOrdering (same : identityOrdering first second = .eq) : first = second := by
  simp only [identityOrdering, compareLex, compareOn, Ordering.then_eq_eq,
    Std.LawfulEqOrd.compare_eq_iff_eq] at same
  obtain ⟨value, tag, size, hashTag, bytes⟩ := same
  have hash := Hash.eq_of_fields hashTag bytes
  obtain ⟨⟨_, pathValue⟩, _, _, _⟩ := first
  obtain ⟨⟨_, otherValue⟩, _, _, _⟩ := second
  obtain rfl := tag_injective tag
  obtain rfl : pathValue = otherValue := value
  obtain rfl := size
  obtain rfl := hash
  rfl

instance : Std.TransCmp identityOrdering := by
  unfold identityOrdering
  infer_instance

def identityLe (first second : FileIdentity) : Prop := (identityOrdering first second).isLE

instance : DecidableRel identityLe := fun first second =>
  inferInstanceAs (Decidable ((identityOrdering first second).isLE = true))

instance : Std.Total identityLe where
  total first second := by
    unfold identityLe
    rw [@Std.OrientedCmp.eq_swap _ identityOrdering _ second first]
    cases identityOrdering first second <;> simp

instance : IsTrans FileIdentity identityLe where
  trans _ _ _ := Std.TransCmp.isLE_trans

theorem identityLe_antisymm (le : identityLe first second)
    (ge : identityLe second first) : first = second :=
  eq_of_identityOrdering (Std.OrientedCmp.isLE_antisymm le ge)

theorem sortedIdentities_eq (files : List FileHashResult) :
    sortedIdentities files = (files.map fileIdentity).insertionSort identityLe := by
  unfold sortedIdentities sortedEntries
  rw [map_insertionSort _ identityLe, map_map]
  · rfl
  intro _ mem _ otherMember
  obtain ⟨_, -, rfl⟩ := mem_map.mp mem
  obtain ⟨_, -, rfl⟩ := mem_map.mp otherMember
  simp only [entryOrdering, compare_eq_compare_tag]
  exact Iff.rfl

theorem sortedIdentities_of_perm {files reordered : List FileHashResult}
    (perm : files.Perm reordered) : sortedIdentities files = sortedIdentities reordered := by
  rw [sortedIdentities_eq, sortedIdentities_eq]
  refine List.Perm.eq_of_pairwise (fun _ _ _ _ => identityLe_antisymm)
    (pairwise_insertionSort _ _) (pairwise_insertionSort _ _) ?_
  exact (perm_insertionSort _ _).trans ((perm.map fileIdentity).trans (perm_insertionSort _ _).symm)

section

variable (digests : Digests) (algorithm : Algorithm)

theorem fromFileHashes_eq {files : List FileHashResult} (nonempty : files ≠ []) :
    fromFileHashes digests files algorithm =
      { root := rootHash digests algorithm files
        nodes :=
          levels (combineHashes digests algorithm) <| (coding algorithm).leaves
            (fun encoded => hashEncoded digests encoded algorithm)
            (sortedIdentities files)
        contentHashes := (sortedIdentities files).map FileIdentity.hash
        filePaths := (sortedIdentities files).map fun identity => identity.path.value
        fileCount := (sortedIdentities files).length
        algorithm := algorithm } := by
  have paths : (sortedEntries files).map (fun entry => entry.1.value) =
      (sortedIdentities files).map fun identity => identity.path.value := by
    rw [sortedIdentities, map_map]
    refine map_congr_left fun entry mem => ?_
    rw [path_of_mem_sortedEntries mem]
    rfl
  unfold rootHash fromFileHashes
  rw [if_neg nonempty, ← leaves_eq]
  dsimp only
  rw [paths]
  simp only [sortedIdentities, map_map, length_map]
  rfl

/--
Two orders of the files build one tree, whichever paths are spelled alike.
-/
theorem tree_of_perm {files reordered : List FileHashResult} (perm : files.Perm reordered) :
    fromFileHashes digests files algorithm =
      fromFileHashes digests reordered algorithm := by
  by_cases empty : files = []
  · subst files
    rw [nil_perm.mp perm]
  · have nonempty : reordered ≠ [] := by
      rintro rfl
      exact empty (perm_nil.mp perm)
    rw [fromFileHashes_eq digests algorithm empty,
      fromFileHashes_eq digests algorithm nonempty, rootHash_eq, rootHash_eq,
      sortedIdentities_of_perm perm]

end

/-- Two spellings of one path, of files of different sizes. -/
theorem tree_of_swapped_spellings :
    let dotted := hashedFile { bytes := ascii "./a.txt", fits := by decide } 1 200
    (fileIdentity dotted).path = (fileIdentity fileA).path ∧
      fromFileHashes crcDigests [fileA, dotted] .crc32 =
        fromFileHashes crcDigests [dotted, fileA] .crc32 :=
  ⟨by decide, tree_of_perm crcDigests .crc32 (List.Perm.swap _ _ [])⟩

/-! ## Proofs -/

def MerkleTree.getProof (tree : MerkleTree) (fileIndex : Nat) : Option (List Hash) :=
  if tree.contentHashes.length ≤ fileIndex ∨ tree.nodes = [] then none
  else some (siblings tree.nodes.dropLast fileIndex)

/--
The proof of a file, folded over the commitment of its leaf, yields the root.
There is no proof outside the list.
-/
theorem proof_yields_root (digests : Digests) (algorithm : Algorithm) (files : List FileHashResult)
    (index : Nat) :
    (index < files.length → ∃ entry proof, (sortedEntries files)[index]? = some entry ∧
      (fromFileHashes digests files algorithm).getProof index = some proof ∧
      climb (combineHashes digests algorithm)
        (hashLeaf digests entry.1 entry.2 algorithm) index proof =
        (fromFileHashes digests files algorithm).root) ∧
      (files.length ≤ index →
        (fromFileHashes digests files algorithm).getProof index = none) := by
  have length : (sortedEntries files).length = files.length := by
    rw [(sortedEntries_perm files).length_eq, length_map]
  refine ⟨fun inside => ?_, fun outside => ?_⟩
  · have nonempty : files ≠ [] := ne_nil_of_length_pos (Nat.zero_lt_of_lt inside)
    obtain ⟨entry, found⟩ : ∃ entry, (sortedEntries files)[index]? = some entry :=
      ⟨_, List.getElem?_eq_getElem (length ▸ inside)⟩
    let leaves := (sortedEntries files).map fun entry => hashLeaf digests entry.1 entry.2 algorithm
    have leaf : leaves[index]? = some (hashLeaf digests entry.1 entry.2 algorithm) := by
      rw [List.getElem?_map, found, Option.map_some]
    let levels := levels (combineHashes digests algorithm) leaves
    have climbed := @HashTree.climb_siblings _ _ (combineHashes digests algorithm) _ _ leaf
    refine ⟨entry, siblings levels.dropLast index, found, ?_, ?_⟩
    · unfold getProof fromFileHashes
      rw [if_neg nonempty]
      refine if_neg ?_
      simp only [length_map, length, not_or]
      exact ⟨Nat.not_le.mpr inside, levels_ne_nil _ _⟩
    · unfold fromFileHashes
      rw [if_neg nonempty]
      dsimp only
      rw [← top, ← climbed, Option.getD_some]
  · unfold getProof
    refine if_pos (Or.inl ?_)
    unfold fromFileHashes
    split
    · exact Nat.zero_le index
    · rw [length_map, length]
      exact outside

end Arclain.Merkle
