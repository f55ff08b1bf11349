import Arclain.MetadataMap
import Arclain.OsPath

namespace Arclain.Conversion

/-!
# The folders of nested archives

Every nested archive is extracted into a folder named after it.  On request the
prefix all names share is left out, for the whole batch or for none of it.
-/

open List Text MetadataMap OsPath CharTables

/-! ## The prefix names share -/

/-- How many characters two texts have in common at their start. -/
def commonCount (first name : Str) : Nat :=
  ((first.zip name).takeWhile fun pair => pair.1 = pair.2).length

/-- The loop of `longest_common_prefix`, or nothing where it returns early. -/
def sharedCount (first : Str) : Nat → List Str → Option Nat
  | prefixLen, [] => some prefixLen
  | prefixLen, name :: names =>
    let prefixLen := min prefixLen (commonCount first name)
    if prefixLen = 0 then none else sharedCount first prefixLen names

/-- `longest_common_prefix`.  The last test counts bytes. -/
def longestCommonPrefix : List Str → Str
  | first :: second :: rest =>
    match sharedCount first (byteLength first) (second :: rest) with
    | none => []
    | some prefixLen =>
      let leading := first.take prefixLen
      if byteLength leading < 5 then [] else leading
  | _ => []

structure IsLongestShared (names : List Str) (shared : Str) : Prop where
  leads : ∀ name ∈ names, shared <+: name
  longest : ∀ other, (∀ name ∈ names, other <+: name) → other.length ≤ shared.length

theorem length_le_byteLength (text : Str) : text.length ≤ byteLength text := by
  induction text with
  | nil => exact Nat.le_refl 0
  | cons char =>
    have positive := char.utf8Size_pos
    simp only [byteLength, map_cons, sum_cons, length_cons] at *
    omega

theorem prefix_iff_le_commonCount {first shared : Str} (name : Str) (own : shared <+: first) :
    shared <+: name ↔ shared.length ≤ commonCount first name := by
  induction shared generalizing first name with
  | nil => simp
  | cons char rest ih =>
    obtain ⟨tail, rfl⟩ := own
    cases name with
    | nil => simp [commonCount]
    | cons other name =>
      have deeper := ih name (prefix_append rest tail)
      by_cases same : char = other
      · subst other
        simp only [cons_prefix_cons, true_and, deeper]
        simp [commonCount]
      · simp [commonCount, same]

variable (first : Str) (names : List Str)

theorem le_foldl_commonCount {count prefixLen : Nat} :
    count ≤ names.foldl (fun prefixLen name => min prefixLen (commonCount first name)) prefixLen ↔
      count ≤ prefixLen ∧ ∀ name ∈ names, count ≤ commonCount first name := by
  induction names generalizing prefixLen with
  | nil => simp
  | cons name names ih => simp [ih, and_assoc]

theorem sharedCount_eq (prefixLen : Nat) : (sharedCount first prefixLen names).getD 0 =
    names.foldl (fun prefixLen name => min prefixLen (commonCount first name)) prefixLen := by
  induction names generalizing prefixLen with
  | nil => rfl
  | cons name names ih =>
    rw [sharedCount, foldl_cons]
    split
    next stops =>
      rw [stops]
      exact (Nat.le_zero.mp ((le_foldl_commonCount first names).mp (Nat.le_refl _)).1).symm
    · exact ih _

/-- The start of the first name the loop settles on. -/
def sharedStart (first : Str) (names : List Str) : Str :=
  first.take ((sharedCount first (byteLength first) names).getD 0)

theorem prefix_sharedStart_iff {first shared : Str} (own : shared <+: first) :
    (∀ name ∈ names, shared <+: name) ↔ shared <+: sharedStart first names := by
  have fits := Nat.le_trans own.length_le (length_le_byteLength first)
  have counted : (∀ name ∈ names, shared <+: name) ↔
      shared.length ≤ (sharedCount first (byteLength first) names).getD 0 := by
    rw [sharedCount_eq, le_foldl_commonCount, and_iff_right fits]
    exact forall₂_congr fun name _ => prefix_iff_le_commonCount name own
  rw [counted, sharedStart, prefix_take_iff, and_iff_right own]

theorem isLongestShared_sharedStart :
    IsLongestShared (first :: names) (sharedStart first names) := by
  have own : sharedStart first names <+: first := take_prefix _ _
  constructor
  · rw [forall_mem_cons]
    exact ⟨own, (prefix_sharedStart_iff names own).mpr prefix_rfl⟩
  · intro _ leads
    rw [forall_mem_cons] at leads
    exact ((prefix_sharedStart_iff names leads.1).mp leads.2).length_le

theorem IsLongestShared.unique {name shared other : Str} {names : List Str}
    (longest : IsLongestShared (name :: names) shared)
    (otherLongest : IsLongestShared (name :: names) other) : shared = other := by
  have length :=
    Nat.le_antisymm (otherLongest.longest shared longest.leads)
      (longest.longest other otherLongest.leads)
  exact (prefix_of_prefix_length_le (longest.leads name mem_cons_self)
    (otherLongest.leads name mem_cons_self) (Nat.le_of_eq length)).eq_of_length length

theorem longestCommonPrefix_eq (first second : Str) (rest : List Str) :
    longestCommonPrefix (first :: second :: rest) =
      if byteLength (sharedStart first (second :: rest)) < 5 then []
      else sharedStart first (second :: rest) := by
  rw [longestCommonPrefix, sharedStart]
  cases sharedCount first (byteLength first) (second :: rest) with
  | none => exact (ite_self _).symm
  | some => rfl

/-- The result is the longest shared text of five characters or more, and empty
when there is none or fewer than two names. -/
def ReturnsShared (names : List Str) : Prop :=
  if 2 ≤ names.length then
    ∃ shared, IsLongestShared names shared ∧
      longestCommonPrefix names = if 5 ≤ shared.length then shared else []
  else longestCommonPrefix names = []

/--
The result is the shared text the names call for unless that text has five bytes
in fewer than five characters.
-/
theorem returnsShared_iff (names : List Str) : ReturnsShared names ↔ (2 ≤ names.length →
    ∀ shared, IsLongestShared names shared → 5 ≤ byteLength shared → 5 ≤ shared.length) := by
  match names with
  | [] | [name] => simp [ReturnsShared, longestCommonPrefix]
  | first :: second :: rest =>
    have several : 2 ≤ (first :: second :: rest).length := by simp
    have isLongest := isLongestShared_sharedStart first (second :: rest)
    rw [ReturnsShared, if_pos several, longestCommonPrefix_eq]
    constructor
    · rintro ⟨shared, longest, returned⟩ - other otherLongest
      obtain rfl := otherLongest.unique longest
      obtain rfl := otherLongest.unique isLongest
      intro manyBytes
      rw [if_neg (Nat.not_lt.mpr manyBytes)] at returned
      by_contra few
      rw [if_neg few] at returned
      rw [returned] at manyBytes
      simp [byteLength] at manyBytes
    · intro counted
      refine ⟨_, isLongest, ?_⟩
      have length := length_le_byteLength (sharedStart first (second :: rest))
      by_cases few : byteLength (sharedStart first (second :: rest)) < 5
      · rw [if_pos few, if_neg (by omega)]
      · rw [if_neg few, if_pos (counted several _ isLongest (Nat.not_lt.mp few))]

/-- Two names that share two characters of three bytes each. -/
theorem two_characters_returned : ¬ ∀ names, ReturnsShared names := by
  intro claimed
  obtain ⟨_, longest, returned⟩ := claimed ["日本A".toList, "日本B".toList]
  obtain rfl := longest.unique (isLongestShared_sharedStart _ _)
  exact absurd returned (by decide)

theorem longestCommonPrefix_leads {names : List Str} {name : Str} (mem : name ∈ names) :
    longestCommonPrefix names <+: name := by
  match names with
  | [] => cases mem
  | [other] => exact nil_prefix
  | first :: second :: rest =>
    rw [longestCommonPrefix_eq]
    split
    · exact nil_prefix
    · exact (isLongestShared_sharedStart first (second :: rest)).leads name mem

/-! ## Folder names -/

/-- `ARCHIVE_EXTENSIONS`, each behind its dot. -/
def archiveSuffixes : List Str :=
  [".rar".toList, ".zip".toList, ".7z".toList, ".tar".toList, ".tgz".toList]

section

variable [CharTables]

/-- `strip_archive_extension`. Only one character has each of these ASCII letters as its
lower case, so bytes are characters. -/
def stripArchiveExtension (name : Str) : Str :=
  match archiveSuffixes.find? fun suffix =>
    endsWith (toLowercase name) suffix with
  | some suffix => name.take (name.length - suffix.length)
  | none => name

def wouldProduceBrokenNames (names : List Str) (leading : Str) : Bool :=
  names.any fun name =>
    startsWith name leading &&
      match name.drop leading.length with
      | [] => true
      | char :: _ => !isAlphanumeric char

/-- The prefix `target_folder_names` leaves out. -/
def strippedPrefix (baseNames : List Str) (stripPrefix : Bool) : Str :=
  if stripPrefix then
    let candidate := longestCommonPrefix baseNames
    if candidate ≠ [] ∧ wouldProduceBrokenNames baseNames candidate then [] else candidate
  else []

def folderName (leading base : Str) : Str :=
  if leading ≠ [] ∧ startsWith base leading then
    let stripped := base.drop leading.length
    if stripped = [] then base else stripped
  else base

def baseName (archive : OsString) : Option Str :=
  ((OsPath.fileName archive).bind OsPath.toStr).map stripArchiveExtension

def targetFolderNames (archives : List OsString) (stripPrefix : Bool) : List (OsString × Str) :=
  let baseNames := archives.filterMap baseName
  let leading := strippedPrefix baseNames stripPrefix
  (archives.zip baseNames).map fun pair => (pair.1, folderName leading pair.2)

variable {baseNames : List Str}

theorem strippedPrefix_spec {stripPrefix : Bool}
    (nonempty : strippedPrefix baseNames stripPrefix ≠ []) {base : Str}
    (mem : base ∈ baseNames) :
    ∃ char rest, base = strippedPrefix baseNames stripPrefix ++ char :: rest ∧
      isAlphanumeric char = true := by
  unfold strippedPrefix at nonempty ⊢
  cases stripPrefix with
  | false => exact absurd rfl nonempty
  | true =>
    simp only [if_true] at nonempty ⊢
    split at nonempty
    · exact absurd rfl nonempty
    next kept =>
      rw [if_neg kept]
      obtain ⟨tail, rfl⟩ := longestCommonPrefix_leads mem
      have sound : ¬ wouldProduceBrokenNames baseNames (longestCommonPrefix baseNames) :=
        fun broken => kept ⟨nonempty, broken⟩
      rw [wouldProduceBrokenNames, any_eq_true] at sound
      have fine := fun breaks => sound ⟨_, mem, breaks⟩
      cases tail with
      | nil => simp [startsWith] at fine
      | cons char rest =>
        refine ⟨char, rest, rfl, ?_⟩
        simpa [startsWith] using fine

theorem folderName_spec (stripPrefix : Bool) {base : Str}
    (mem : base ∈ baseNames) : base = strippedPrefix baseNames stripPrefix ++
      folderName (strippedPrefix baseNames stripPrefix) base := by
  by_cases nonempty : strippedPrefix baseNames stripPrefix = []
  · simp [nonempty, folderName]
  · obtain ⟨_, _, shape, -⟩ := strippedPrefix_spec nonempty mem
    generalize strippedPrefix baseNames stripPrefix = leading at *
    subst shape
    simp [folderName, nonempty, startsWith]

theorem zip_baseNames {archives : List OsString}
    (utf8 : ∀ archive ∈ archives, ((fileName archive).bind toStr).isSome) :
    (archives.zip (archives.filterMap baseName)).map Prod.fst = archives ∧
      ∀ pair ∈ archives.zip (archives.filterMap baseName), baseName pair.1 = some pair.2 := by
  induction archives with
  | nil => exact ⟨rfl, fun pair mem => by cases mem⟩
  | cons archive archives ih =>
    rw [forall_mem_cons] at utf8
    obtain ⟨name, isName⟩ := Option.isSome_iff_exists.mp utf8.1
    have isBase : baseName archive = some (stripArchiveExtension name) := by
      rw [baseName, isName, Option.map_some]
    obtain ⟨first, second⟩ := ih utf8.2
    rw [filterMap_cons_some isBase, zip_cons_cons, map_cons, first, forall_mem_cons]
    exact ⟨rfl, isBase, second⟩

/-- All archives keep their base names, or one prefix is removed from all; different base
names give different names. -/
theorem folder_names_kept_or_stripped (archives : List OsString) (stripPrefix : Bool)
    (utf8 : ∀ archive ∈ archives, ((fileName archive).bind toStr).isSome) :
    (targetFolderNames archives stripPrefix).map Prod.fst = archives ∧
      ((∀ named ∈ targetFolderNames archives stripPrefix, baseName named.1 = some named.2) ∨
        ∃ leading ≠ [], ∀ named ∈ targetFolderNames archives stripPrefix,
          baseName named.1 = some (leading ++ named.2) ∧ ∃ char rest,
            named.2 = char :: rest ∧ isAlphanumeric char = true) ∧
      ∀ named ∈ targetFolderNames archives stripPrefix,
        ∀ other ∈ targetFolderNames archives stripPrefix,
          baseName named.1 ≠ baseName other.1 → named.2 ≠ other.2 := by
  let baseNames := archives.filterMap baseName
  obtain ⟨allPaired, isBaseName⟩ := zip_baseNames utf8
  have paired : ∀ named ∈ targetFolderNames archives stripPrefix,
      ∃ base ∈ baseNames, baseName named.1 = some base ∧
        named.2 = folderName (strippedPrefix baseNames stripPrefix) base := by
    intro named mem
    obtain ⟨⟨archive, base⟩, zipped, rfl⟩ := mem_map.mp mem
    exact ⟨base, (of_mem_zip zipped).2, isBaseName _ zipped, rfl⟩
  refine ⟨?_, ?_, ?_⟩
  · rw [targetFolderNames, map_map]
    exact allPaired
  · by_cases kept : strippedPrefix baseNames stripPrefix = []
    · refine .inl fun named mem => ?_
      obtain ⟨base, -, isBase, isName⟩ := paired named mem
      rw [isBase, isName, kept, folderName, if_neg fun leads => leads.1 rfl]
    · refine .inr ⟨_, kept, fun named mem => ?_⟩
      obtain ⟨base, isMember, isBase, isName⟩ := paired named mem
      have split := folderName_spec stripPrefix isMember
      obtain ⟨char, rest, shape, alphanumeric⟩ := strippedPrefix_spec kept isMember
      rw [isBase, isName, ← split]
      refine ⟨rfl, char, rest, ?_, alphanumeric⟩
      exact append_cancel_left (split.symm.trans shape)
  · intro named mem other otherMember differ same
    obtain ⟨base, isMember, isBase, isName⟩ := paired named mem
    obtain ⟨_, otherIsMember, otherIsBase, otherIsName⟩ := paired other otherMember
    apply differ
    rw [isBase, otherIsBase, folderName_spec stripPrefix isMember,
      folderName_spec stripPrefix otherIsMember, ← isName, ← otherIsName, same]

end

def variants : List OsString :=
  [ofStr "pack/Texture A.zip".toList, ofStr "pack/Texture B.rar".toList]

/-- The text the names of the pack share is left out. -/
theorem variants_stripped : (@targetFolderNames asciiTables variants true).map Prod.fst = variants ∧
    (@targetFolderNames asciiTables variants true).map Prod.snd = ["A".toList, "B".toList] :=
  ⟨(@folder_names_kept_or_stripped asciiTables variants true (by decide +kernel)).1,
    by decide +kernel⟩

end Arclain.Conversion
