import Arclain.ContentRootScore

namespace Arclain.ContentRoot

/-!
# Which folder is chosen

The chosen folder is the one with the highest score, and the smallest path among those;
below a score of two it is the common folder of all entries.
-/

open List Text UnixPath Option Bool

theorem smallest_spec (names : List Str) :
    (smallest names = none ↔ names = []) ∧ ∀ name, smallest names = some name →
      name ∈ names ∧ ∀ other ∈ names, name ≤ other := by
  induction names using List.reverseRecOn with
  | nil =>
    refine ⟨⟨fun _ => rfl, fun _ => rfl⟩, ?_⟩
    intro name found
    cases found
  | append_singleton names last ih =>
    obtain ⟨emptyIff, least⟩ := ih
    have step : smallest (names ++ [last]) = some (if last < (smallest names).getD last then last
        else (smallest names).getD last) := by
      rw [smallest, foldl_append]
      rfl
    rw [step]
    refine ⟨by simp, ?_⟩
    intro name found
    cases found
    cases earlier : smallest names with
    | none =>
      have empty := emptyIff.mp earlier
      subst empty
      simp
    | some known =>
      obtain ⟨mem, below⟩ := least known earlier
      rw [getD_some]
      split
      next less =>
        refine ⟨by simp, ?_⟩
        intro other listed
        rcases mem_append.mp listed with before | isLast
        · exact less.le.trans (below other before)
        · rw [mem_singleton.mp isLast]
      next notLess =>
        refine ⟨by simp [mem], ?_⟩
        intro other listed
        rcases mem_append.mp listed with before | isLast
        · exact below other before
        · rw [mem_singleton.mp isLast]
          exact not_lt.mp notLess

theorem smallest_perm {first second : List Str} (same : first.Perm second) :
    smallest first = smallest second := by
  obtain ⟨firstEmpty, firstLeast⟩ := smallest_spec first
  obtain ⟨secondEmpty, secondLeast⟩ := smallest_spec second
  cases foundFirst : smallest first with
  | none =>
    have empty := firstEmpty.mp foundFirst
    rw [empty] at same
    exact (secondEmpty.mpr same.nil_eq.symm).symm
  | some name =>
    cases foundSecond : smallest second with
    | none =>
      have empty := secondEmpty.mp foundSecond
      rw [empty] at same
      rw [firstEmpty.mpr same.eq_nil] at foundFirst
      cases foundFirst
    | some other =>
      obtain ⟨mem, least⟩ := firstLeast name foundFirst
      obtain ⟨otherMember, otherLeast⟩ := secondLeast other foundSecond
      rw [le_antisymm (least other (same.mem_iff.mpr otherMember))
        (otherLeast name (same.mem_iff.mp mem))]

section

variable [CharTables]

theorem length_evidence (entries : List ArchiveEntry) (dir : Str) :
    (evidence entries dir).length = score entries dir := by
  rw [evidence, score, length_append, length_append, length_map,
    length_map, length_insertionSort, length_insertionSort]
  congr 2
  cases found : smallest (executablesIn entries dir) with
  | none =>
    rw [if_pos ((smallest_spec _).1.mp found)]
    rfl
  | some =>
    rw [if_neg]
    · rfl
    · intro empty
      rw [(smallest_spec _).1.mpr empty] at found
      cases found

variable {first second : List ArchiveEntry}

theorem evidence_perm (same : first.Perm second) (dir : Str) :
    evidence first dir = evidence second dir := by
  have sameIndicators : (indicators first dir).Perm (indicators second dir) :=
    (same.filterMap (directName dir)).filter isIndicator
  have sameExecutables : (executablesIn first dir).Perm (executablesIn second dir) :=
    ((same.filter _).filterMap (directName dir)).filter _
  have sameSubfolders : (subfolders first dir).Perm (subfolders second dir) :=
    (same.filterMap (subfolder dir)).dedup.filter isIndicator
  rw [evidence, evidence, insertionSort_perm sameIndicators,
    smallest_perm sameExecutables, insertionSort_perm sameSubfolders]

theorem score_perm (same : first.Perm second) (dir : Str) : score first dir = score second dir := by
  rw [← length_evidence, ← length_evidence, evidence_perm same]

end

/-! ## The common folder -/

section

variable {entries : List ArchiveEntry} (canonical : ∀ entry ∈ entries, Canonical entry.path)

include canonical

/-- The common folder of the entries: the longest names that the names of the
first entry's folder and of every further entry begin with. -/
theorem commonRoot_spec {first : ArchiveEntry} {rest : List ArchiveEntry}
    (split : entries = first :: rest) :
    ∃ kept, commonRoot entries = render kept ∧ kept <+: (namesOf first.path).dropLast ∧
      (∀ other ∈ rest, kept <+: namesOf other.path) ∧
      ∀ front, front <+: (namesOf first.path).dropLast →
        (∀ other ∈ rest, front <+: namesOf other.path) → front <+: kept := by
  subst split
  have popped : ∀ (others : List ArchiveEntry) (common : List Str), others ⊆ first :: rest →
      (∀ name ∈ common, IsName name) →
      ∃ kept, others.foldl (fun common other =>
        popUntilAbove (common.length + 1) common other.path) (render common) = render kept ∧
          kept <+: common ∧
          (∀ other ∈ others, kept <+: namesOf other.path) ∧
          ∀ front, front <+: common → (∀ other ∈ others, front <+: namesOf other.path) →
            front <+: kept := by
    intro others
    induction others with
    | nil =>
      intro common _ _
      exact ⟨common, rfl, prefix_refl _, by simp, fun _ begins _ => begins⟩
    | cons other others ih =>
      intro common among areNames
      obtain ⟨-, areOther, written⟩ :=
        namesOf_canonical (canonical other (among mem_cons_self))
      have enough : common.length < (render common).length + 1 :=
        Nat.lt_succ_of_le (length_le_render areNames)
      obtain ⟨shorter, isShorter, beginsCommon, beginsOther, longest⟩ :=
        popUntilAbove_render areNames areOther enough
      rw [← written] at isShorter
      obtain ⟨kept, folded, beginsShorter, beginsOthers, longestKept⟩ :=
        ih shorter (fun _ mem => among (mem_cons_of_mem other mem))
          fun name mem => areNames name (beginsCommon.subset mem)
      refine ⟨kept, ?_, beginsShorter.trans beginsCommon, ?_, ?_⟩
      · rw [foldl_cons, isShorter, folded]
      · exact forall_mem_cons.mpr ⟨beginsShorter.trans beginsOther, beginsOthers⟩
      · intro front begins beginsAll
        obtain ⟨beginsThis, beginsRest⟩ := forall_mem_cons.mp beginsAll
        exact longestKept front (longest front begins beginsThis) beginsRest
  obtain ⟨nonempty, areNames, written⟩ := namesOf_canonical (canonical first mem_cons_self)
  have isParent := parent_render areNames nonempty
  rw [← written] at isParent
  rw [commonRoot, isParent, getD_some]
  exact popped rest _ (subset_cons_self first rest)
    fun name mem => areNames name (mem_of_mem_dropLast mem)

def NoneAbove (entries : List ArchiveEntry) : Prop :=
  ∀ first ∈ entries, ∀ second ∈ entries, ¬ first.path ++ ['/'] <+: second.path

section

variable (noneAbove : NoneAbove entries)
include noneAbove

theorem not_prefix_dropLast {first second : ArchiveEntry}
    (firstMember : first ∈ entries) (secondMember : second ∈ entries) :
    ¬ namesOf first.path <+: (namesOf second.path).dropLast := by
  rintro ⟨rest, begins⟩
  obtain ⟨nonempty, -, written⟩ := namesOf_canonical (canonical first firstMember)
  obtain ⟨secondNonempty, -, secondWritten⟩ := namesOf_canonical (canonical second secondMember)
  refine noneAbove first firstMember second secondMember ?_
  have names : namesOf second.path = namesOf first.path ++
      (rest ++ [(namesOf second.path).getLast secondNonempty]) := by
    rw [← append_assoc, begins, dropLast_append_getLast]
  have text := congrArg render names
  rw [← secondWritten, render_append nonempty (by simp), ← written] at text
  rw [text]
  exact ⟨_, by rw [append_assoc]; rfl⟩

theorem commonRoot_iff (nonempty : entries ≠ []) :
    ∃ kept, commonRoot entries = render kept ∧ (∀ name ∈ kept, IsName name) ∧
      ∀ front, front <+: kept ↔ ∀ entry ∈ entries, front <+: (namesOf entry.path).dropLast := by
  obtain ⟨first, rest, split⟩ := exists_cons_of_ne_nil nonempty
  obtain ⟨kept, written, beginsFirst, beginsOthers, longest⟩ := commonRoot_spec canonical split
  have firstMember : first ∈ entries := by simp [split]
  have restMember {other : ArchiveEntry} (mem : other ∈ rest) :
      other ∈ entries := by simp [split, mem]
  obtain ⟨-, areNames, -⟩ := namesOf_canonical (canonical first firstMember)
  refine ⟨kept, written, fun name mem =>
    areNames name (mem_of_mem_dropLast (beginsFirst.subset mem)), ?_⟩
  intro front
  constructor
  · intro begins entry mem
    rw [split] at mem
    rcases mem_cons.mp mem with rfl | later
    · exact begins.trans beginsFirst
    · obtain ⟨otherNonempty, -, -⟩ := namesOf_canonical (canonical entry (restMember later))
      have beginsEntry := begins.trans (beginsOthers entry later)
      rw [← dropLast_append_getLast otherNonempty] at beginsEntry
      rcases prefix_concat_iff.mp beginsEntry with whole | shorter
      · rw [dropLast_append_getLast] at whole
        rw [whole] at begins
        exact absurd (begins.trans beginsFirst)
          (not_prefix_dropLast canonical noneAbove (restMember later) firstMember)
      · exact shorter
  · intro beginsAll
    refine longest front (beginsAll first firstMember) fun other mem => ?_
    exact (beginsAll other (restMember mem)).trans <| dropLast_prefix _

theorem commonRoot_perm {other : List ArchiveEntry}
    (same : other.Perm entries) : commonRoot other = commonRoot entries := by
  by_cases empty : entries = []
  · rw [empty] at same
    rw [empty, same.eq_nil]
  · have otherNonempty : other ≠ [] := by
      rintro rfl
      exact empty same.nil_eq.symm
    have otherCanonical : ∀ entry ∈ other, Canonical entry.path :=
      fun entry mem => canonical entry (same.mem_iff.mp mem)
    have otherNoneAbove : NoneAbove other :=
      fun first firstMember second secondMember =>
        noneAbove first (same.mem_iff.mp firstMember) second (same.mem_iff.mp secondMember)
    obtain ⟨kept, written, -, begins⟩ := commonRoot_iff canonical noneAbove empty
    obtain ⟨otherKept, otherWritten, -, otherBegins⟩ :=
      commonRoot_iff otherCanonical otherNoneAbove otherNonempty
    have sameBegins (front : List Str) : front <+: kept ↔ front <+: otherKept := by
      rw [begins, otherBegins]
      simp only [same.mem_iff]
    have shorter := (sameBegins kept).mp (prefix_refl _)
    have longer := (sameBegins otherKept).mpr (prefix_refl _)
    rw [written, otherWritten,
      shorter.eq_of_length (Nat.le_antisymm shorter.length_le longer.length_le)]

theorem commonRoot_above {entry : ArchiveEntry} (mem : entry ∈ entries) :
    commonRoot entries = [] ∨ commonRoot entries ++ ['/'] <+: entry.path := by
  obtain ⟨kept, written, _, begins⟩ :=
    commonRoot_iff canonical noneAbove (ne_nil_of_mem mem)
  obtain ⟨nonempty, -, path⟩ := namesOf_canonical (canonical entry mem)
  obtain ⟨rest, names⟩ := (begins kept).mp (prefix_refl _) entry mem
  rw [written]
  by_cases atTop : kept = []
  · exact .inl (by rw [atTop, render_nil])
  · have whole : namesOf entry.path =
        kept ++ (rest ++ [(namesOf entry.path).getLast nonempty]) := by
      rw [← append_assoc, names, dropLast_append_getLast]
    have text := congrArg render whole
    rw [← path, render_append atTop (by simp)] at text
    rw [text]
    exact .inr ⟨_, by rw [append_assoc]; rfl⟩

end

end

/-! ## The choice -/

theorem ranksBefore_total (first second : Str × List Str) :
    ranksBefore first second = true ∨ ranksBefore second first = true := by
  have paths := pathLe_total first.1 second.1
  simp only [ranksBefore, or_eq_true, and_eq_true, decide_eq_true_eq]
  rcases Nat.lt_trichotomy first.2.length second.2.length with less | same | more
  · exact .inr (.inl less)
  · rcases paths with before | after
    · exact .inl (.inr ⟨same, before⟩)
    · exact .inr (.inr ⟨same.symm, after⟩)
  · exact .inl (.inl more)

theorem ranksBefore_trans {first second third : Str × List Str}
    (before : ranksBefore first second = true) (after : ranksBefore second third = true) :
    ranksBefore first third = true := by
  have paths := @pathLe_trans first.1 second.1 third.1
  simp only [ranksBefore, or_eq_true, and_eq_true, decide_eq_true_eq] at before after ⊢
  rcases before with more | ⟨same, firstLe⟩
  · rcases after with evenMore | ⟨sameAfter, -⟩
    · exact .inl (by omega)
    · exact .inl (by omega)
  · rcases after with more | ⟨sameAfter, secondLe⟩
    · exact .inl (by omega)
    · exact .inr ⟨by omega, paths firstLe secondLe⟩

section

variable [CharTables]

/-- A folder that scores at least as much as every other one, and is the smallest
path among those that score as much. -/
def IsBest (entries : List ArchiveEntry) (dir : Str) : Prop :=
  ∀ other, score entries other < score entries dir ∨
    score entries other = score entries dir ∧ pathLe dir other = true

variable {entries : List ArchiveEntry} (canonical : ∀ entry ∈ entries, Canonical entry.path)

include canonical

theorem detectContentRoot_spec : (∃ dir, Rendered dir ∧ 2 ≤ score entries dir ∧ IsBest entries dir ∧
    detectContentRoot entries =
      { path := dir
        score := score entries dir
        evidence := evidence entries dir }) ∨
    (∀ dir, score entries dir < 2) ∧ detectContentRoot entries =
      { path := commonRoot entries, score := 0, evidence := [] } := by
  obtain ⟨keyed, values⟩ := scoredFolders_spec canonical
  have listed {dir : Str} {found : List Str} : (dir, found) ∈ scoredFolders entries ↔
      found = evidence entries dir ∧ found ≠ [] := by
    rw [mem_iff_valueAt keyed, values, noted]
    split
    next empty => simp [empty]
    next nonempty =>
      constructor
      · intro same
        cases same
        exact ⟨rfl, nonempty⟩
      · rintro ⟨rfl, -⟩
        rfl
  have scored {dir : Str} (positive : 0 < score entries dir) :
      (dir, evidence entries dir) ∈ scoredFolders entries := by
    refine listed.mpr ⟨rfl, ?_⟩
    rw [← length_pos_iff, length_evidence]
    exact positive
  have total : Std.Total fun first second : Str × List Str =>
    ranksBefore first second = true := ⟨ranksBefore_total⟩
  have transitive : IsTrans (Str × List Str) fun first second =>
    ranksBefore first second = true := ⟨fun _ _ _ => ranksBefore_trans⟩
  have ordered :=
    pairwise_insertionSort (fun first second : Str × List Str => ranksBefore first second = true)
      (scoredFolders entries)
  have ranked (folder : Str × List Str) : folder ∈ (scoredFolders entries).insertionSort
      (fun first second => ranksBefore first second) ↔ folder ∈ scoredFolders entries :=
    mem_insertionSort _
  rw [detectContentRoot]
  split
  next dir found others ranking =>
    rw [ranking] at ordered ranked
    obtain ⟨rfl, -⟩ := listed.mp ((ranked (dir, found)).mp mem_cons_self)
    have best : IsBest entries dir := by
      intro other
      by_cases positive : 0 < score entries other
      · rcases mem_cons.mp ((ranked _).mpr (scored positive)) with same | later
        · obtain ⟨rfl, -⟩ := Prod.mk.inj same
          rcases pathLe_total other other with own | own
          · exact .inr ⟨rfl, own⟩
          · exact .inr ⟨rfl, own⟩
        · have before := (pairwise_cons.mp ordered).1 _ later
          simp only [ranksBefore, length_evidence, or_eq_true,
            and_eq_true, decide_eq_true_eq] at before
          exact before.imp_right fun tie => ⟨tie.1.symm, tie.2⟩
      · have own : 0 < score entries dir := by
          rw [← length_evidence, length_pos_iff]
          exact (listed.mp ((ranked _).mp mem_cons_self)).2
        exact .inl (by omega)
    rw [length_evidence]
    split
    next convincing =>
      exact .inl ⟨dir, keyed.rendered _ ((ranked _).mp mem_cons_self), convincing, best, rfl⟩
    next unconvincing =>
      refine .inr ⟨fun other => ?_, rfl⟩
      rcases best other with less | ⟨same, -⟩
      · omega
      · omega
  next ranking =>
    refine .inr ⟨fun dir => ?_, rfl⟩
    by_contra convincing
    have positive : 0 < score entries dir := by omega
    have mem := (ranked _).mpr (scored positive)
    rw [ranking] at mem
    cases mem

theorem detectContentRoot_perm (noneAbove : NoneAbove entries) {other : List ArchiveEntry}
    (same : other.Perm entries) : detectContentRoot other = detectContentRoot entries := by
  have otherCanonical : ∀ entry ∈ other, Canonical entry.path :=
    fun entry mem => canonical entry (same.mem_iff.mp mem)
  rcases detectContentRoot_spec canonical with
    ⟨dir, isRendered, convincing, best, chosen⟩ | ⟨unconvincing, chosen⟩
  · rcases detectContentRoot_spec otherCanonical with
      ⟨otherDir, otherRendered, -, otherBest, otherChosen⟩ | ⟨otherUnconvincing, -⟩
    · have sameDir : otherDir = dir := by
        have forward := best otherDir
        have backward := otherBest dir
        rw [score_perm same, score_perm same] at backward
        obtain ⟨_, areNames, rfl⟩ := isRendered
        obtain ⟨_, areOtherNames, rfl⟩ := otherRendered
        rcases forward with less | ⟨tie, before⟩
        · rcases backward with more | ⟨tie, -⟩
          · omega
          · omega
        · rcases backward with more | ⟨-, after⟩
          · omega
          · rw [pathLe_antisymm areNames areOtherNames before after]
      rw [chosen, otherChosen, sameDir, score_perm same, evidence_perm same]
    · have less := otherUnconvincing dir
      rw [score_perm same] at less
      omega
  · rcases detectContentRoot_spec otherCanonical with
      ⟨otherDir, -, convincing, -, -⟩ | ⟨-, otherChosen⟩
    · have less := unconvincing otherDir
      rw [score_perm same] at convincing
      omega
    · rw [chosen, otherChosen, commonRoot_perm canonical noneAbove same]

end

end Arclain.ContentRoot
