import Arclain.TabListing
import Mathlib.Data.List.Chain

namespace Arclain

/-!
# The history of a browsed archive

Where the arrows of a tab lead, in every run of presses.  The root is not recorded, so an
arrow back returns to it only while the history is empty.
-/

open Text List ArchivePath

namespace ArchivePath

/-- The root, or a path that is accepted and has no empty name. -/
def Tidy (path : ArchivePath) : Prop :=
  path = root ∨ parse path.value = .ok path ∧ [] ∉ path.value.splitOn '/'

variable {path : ArchivePath}

theorem value_eq_nil_iff : path.value = [] ↔ path = root :=
  ⟨fun empty => eq_of_value empty, fun isRoot => isRoot ▸ rfl⟩

theorem value_of_parse {raw : Str} (parsed : parse raw = .ok path) :
    path.value = forwardSlashes raw := by
  unfold parse at parsed
  split at parsed
  · cases parsed
  · cases parsed
    rfl

theorem parse_value (clean : '\\' ∉ path.value) : parse path.value = .ok path := by
  have same := forwardSlashes_eq_self clean
  unfold parse
  split
  next fault =>
    rw [same, path.sound] at fault
    cases fault
  · exact congrArg Except.ok (eq_of_value same)

theorem Tidy.clean (tidy : path.Tidy) : '\\' ∉ path.value := by
  rcases tidy with rfl | ⟨accepted, _⟩
  · exact not_mem_nil
  · rw [value_of_parse accepted]
    exact backslash_notMem_forwardSlashes _

theorem Tidy.named (tidy : path.Tidy) (inner : path ≠ root) : [] ∉ path.value.splitOn '/' :=
  (tidy.resolve_left inner).2

theorem tidy_of_parse {raw : Str} (clean : '\\' ∉ raw) (named : raw ≠ [] → [] ∉ raw.splitOn '/')
    (parsed : parse raw = .ok path) : path.Tidy := by
  have isRaw := value_of_parse parsed
  rw [forwardSlashes_eq_self clean] at isRaw
  subst isRaw
  by_cases isRoot : path = root
  · exact .inl isRoot
  · exact .inr ⟨parsed, named (isRoot ∘ value_eq_nil_iff.mp)⟩

theorem Tidy.parent (tidy : path.Tidy) : path.parent.Tidy := by
  have canonical := EntryIndex.canonical_entryParent ⟨path.sound, tidy.clean⟩
  have isParent : path.parent.value = entryParent path.value := value_parseOrRoot canonical
  rcases EntryIndex.entryParent_cases path.value with ⟨_, isRoot⟩ | ⟨split, _⟩
  · exact .inl (value_eq_nil_iff.mp (isParent.trans isRoot))
  · refine .inr ⟨parse_value (isParent.symm ▸ canonical.2), fun empty => ?_⟩
    refine tidy.named (fun isRoot => ?_) ?_
    · rw [isRoot] at split
      cases (append_eq_nil_iff.mp split.symm).2
    · rw [split, splitOn_append_cons_self, ← isParent]
      exact mem_append_left _ empty

end ArchivePath

theorem clean_normalizeFragment (path : Str) : '\\' ∉ normalizeFragment path ∧
    (normalizeFragment path ≠ [] → [] ∉ (normalizeFragment path).splitOn '/') := by
  have segment {piece : Str}
      (mem : piece ∈ (path.splitOnP fun char => char = '/' ∨ char = '\\').filter (· ≠ [])) :
      piece ≠ [] ∧ ∀ char ∈ piece, char ≠ '/' ∧ char ≠ '\\' := by
    obtain ⟨isPiece, nonempty⟩ := mem_filter.mp mem
    exact ⟨of_decide_eq_true nonempty, fun char inside => by
      simpa using false_of_mem_splitOnP isPiece inside⟩
  unfold normalizeFragment
  generalize (path.splitOnP _).filter _ = segments at segment
  by_cases nothing : segments = []
  · simp [nothing]
  · have split : (['/'].intercalate segments).splitOn '/' = segments :=
      splitOn_intercalate '/' (fun piece mem slash => ((segment mem).2 _ slash).1 rfl) nothing
    refine ⟨fun inside => ?_, fun _ empty => (segment (split ▸ empty)).1 rfl⟩
    have passes := all_splitOn (fun char : Char => char ≠ '\\')
      (show decide ('/' ≠ '\\') = true by decide) (['/'].intercalate segments)
    rw [split, all_eq_true.mpr fun piece mem => all_eq_true.mpr fun char within =>
      decide_eq_true ((segment mem).2 char within).2] at passes
    simpa using all_eq_true.mp passes.symm _ inside

namespace ArchiveNavigation

/-- What can be pressed while an archive is browsed. -/
inductive Press where
  | descend (folder : Str)
  | goTo (path : Str)
  | up
  | back
  | forward
  deriving DecidableEq

def Press.perform : Press → ArchiveNavigation → Option ArchiveNavigation
  | descend folder, navigation => navigation.descend folder
  | goTo path, navigation => navigation.goTo path
  | up, navigation => navigation.up
  | back, navigation => navigation.goBack
  | forward, navigation => navigation.goForward

/-- A press that is not an arrow. -/
def Press.Fresh (press : Press) : Prop := press ≠ back ∧ press ≠ forward

/-- The navigation after these presses.  One that reports no move leaves it as it is. -/
def browse (presses : List Press) : ArchiveNavigation :=
  presses.foldl (fun navigation press => (press.perform navigation).getD navigation) {}

/-- The history with the directory that is shown, from the oldest on. -/
def trail (navigation : ArchiveNavigation) : List ArchivePath :=
  navigation.back.reverse ++ navigation.current :: navigation.forward

/-- The root is never next to itself in a history. -/
structure Sound (navigation : ArchiveNavigation) : Prop where
  tidy : ∀ directory ∈ navigation.trail, directory.Tidy
  apart : navigation.trail.IsChain fun first second => first = .root → second ≠ .root

/-- A move to another directory, as `descend` and `go_to` make one. -/
def MovedTo (navigation next : ArchiveNavigation) (directory : ArchivePath) : Prop :=
  next = navigation.moveTo directory ∧ directory ≠ navigation.current ∧ directory.Tidy

variable {navigation next : ArchiveNavigation}

theorem movedTo_of_descend {folder : Str} (tidy : navigation.current.Tidy)
    (moved : navigation.descend folder = some next) :
    ∃ directory, navigation.MovedTo next directory := by
  obtain ⟨cleanFolder, namedFolder⟩ := clean_normalizeFragment folder
  unfold descend at moved
  dsimp only at moved
  generalize normalizeFragment folder = segment at moved cleanFolder namedFolder
  split at moved
  · cases moved
  next nonempty =>
    generalize isJoined : (if navigation.current.value = [] then segment
      else navigation.current.value ++ '/' :: segment) = joined at moved
    split at moved
    · cases moved
    next directory parsed =>
      cases moved
      have cleanJoined : '\\' ∉ joined := by
        rw [← isJoined]
        split
        · exact cleanFolder
        · simp [tidy.clean, cleanFolder]
      have isValue := value_of_parse parsed
      rw [forwardSlashes_eq_self cleanJoined] at isValue
      refine ⟨directory, rfl, ?_, tidy_of_parse cleanJoined ?_ parsed⟩
      · rintro rfl
        have lengths := congrArg List.length (isValue.trans isJoined.symm)
        split at lengths
        next isRoot => exact nonempty (length_eq_zero_iff.mp (by simpa [isRoot] using lengths.symm))
        · simp at lengths
      · rw [← isJoined]
        split
        · exact fun _ => namedFolder nonempty
        next inner =>
          intro _ empty
          rw [splitOn_append_cons_self] at empty
          rcases mem_append.mp empty with before | behind
          · exact tidy.named (inner ∘ value_eq_nil_iff.mpr) before
          · exact namedFolder nonempty behind

theorem movedTo_of_goTo {path : Str} (moved : navigation.goTo path = some next) :
    ∃ directory, navigation.MovedTo next directory := by
  obtain ⟨clean, named⟩ := clean_normalizeFragment path
  unfold goTo goToDirectory at moved
  split at moved
  · cases moved
  next directory parsed =>
    split at moved
    · cases moved
    next other =>
      cases moved
      exact ⟨directory, rfl, other, tidy_of_parse clean named parsed⟩

theorem trail_moveTo (directory : ArchivePath) : (navigation.moveTo directory).trail =
    navigation.back.reverse ++
      if navigation.current = .root then [directory] else [navigation.current, directory] := by
  unfold moveTo pushHistory trail
  by_cases isRoot : navigation.current = .root
  · simp [isRoot, root]
  · simp [isRoot, mt value_eq_nil_iff.mp isRoot]

theorem trail_up (moved : navigation.up = some next) : navigation.current ≠ .root ∧
    next.trail = navigation.back.reverse ++ [navigation.current, navigation.current.parent] ∧
      next.goBack.map current = some navigation.current := by
  unfold up at moved
  split at moved
  · cases moved
  next inner =>
    cases moved
    exact ⟨inner ∘ value_eq_nil_iff.mpr, by simp [trail], rfl⟩

theorem trail_goForward (moved : navigation.goForward = some next) :
    next.trail = navigation.trail := by
  unfold goForward at moved
  split at moved
  next isForward =>
    cases moved
    simp [trail, isForward]
  · cases moved

theorem trail_goBack (moved : navigation.goBack = some next) :
    (next.trail = navigation.trail ∨ navigation.current ≠ .root ∧
      navigation.trail = navigation.current :: navigation.forward ∧
      next.trail = .root :: navigation.trail) ∧
      next.goForward.map current = some navigation.current := by
  unfold goBack at moved
  split at moved
  next isBack =>
    cases moved
    exact ⟨.inl (by simp [trail, isBack]), rfl⟩
  next isBack =>
    split at moved
    · cases moved
    next inner =>
      cases moved
      exact ⟨.inr ⟨inner ∘ value_eq_nil_iff.mpr, by simp [trail, isBack],
        by simp [trail, isBack]⟩, rfl⟩

theorem Sound.moveTo {directory : ArchivePath} (sound : navigation.Sound)
    (moved : navigation.MovedTo next directory) : next.Sound := by
  obtain ⟨rfl, other, _⟩ := moved
  obtain ⟨inHistory, apart⟩ := sound
  rw [trail, isChain_append] at apart
  by_cases isRoot : navigation.current = .root
  · constructor
    · intro shown mem
      rw [trail_moveTo, if_pos isRoot] at mem
      rcases mem_append.mp mem with earlier | now
      · exact inHistory shown (mem_append_left _ earlier)
      · rwa [mem_singleton.mp now]
    · rw [trail_moveTo, if_pos isRoot, isChain_append]
      exact ⟨apart.1, .singleton _, by simp [isRoot ▸ other]⟩
  · constructor
    · intro shown mem
      rw [trail_moveTo, if_neg isRoot] at mem
      rcases mem_append.mp mem with earlier | now
      · exact inHistory shown (mem_append_left _ earlier)
      · rcases mem_cons.mp now with rfl | last
        · exact inHistory _ (by simp [trail])
        · rwa [mem_singleton.mp last]
    · rw [trail_moveTo, if_neg isRoot, isChain_append]
      exact ⟨apart.1, by simp [isRoot], by simp [isRoot]⟩

theorem Sound.up (sound : navigation.Sound) (moved : navigation.up = some next) : next.Sound := by
  obtain ⟨inner, isTrail, _⟩ := trail_up moved
  obtain ⟨inHistory, apart⟩ := sound
  rw [trail, isChain_append] at apart
  constructor
  · intro shown mem
    rw [isTrail] at mem
    rcases mem_append.mp mem with earlier | now
    · exact inHistory shown (mem_append_left _ earlier)
    · have tidy := inHistory navigation.current (by simp [trail])
      rcases mem_cons.mp now with rfl | last
      · exact tidy
      · rw [mem_singleton.mp last]
        exact tidy.parent
  · rw [isTrail, isChain_append]
    exact ⟨apart.1, by simp [inner], by simp [inner]⟩

theorem Sound.perform {press : Press} (sound : navigation.Sound)
    (moved : press.perform navigation = some next) : next.Sound := by
  have current := sound.tidy navigation.current (by simp [trail])
  cases press with
  | descend =>
    obtain ⟨_, movedTo⟩ := movedTo_of_descend current moved
    exact sound.moveTo movedTo
  | goTo =>
    obtain ⟨_, movedTo⟩ := movedTo_of_goTo moved
    exact sound.moveTo movedTo
  | up => exact sound.up moved
  | back =>
    rcases (trail_goBack moved).1 with same | ⟨inner, isTrail, longer⟩
    · exact ⟨same ▸ sound.tidy, same ▸ sound.apart⟩
    · constructor
      · rw [longer]
        exact forall_mem_cons.mpr ⟨.inl rfl, sound.tidy⟩
      · rw [longer, isTrail, isChain_cons_cons, ← isTrail]
        exact ⟨fun _ => inner, sound.apart⟩
  | forward =>
    have same := trail_goForward moved
    exact ⟨same ▸ sound.tidy, same ▸ sound.apart⟩

theorem sound_browse (presses : List Press) : (browse presses).Sound := by
  induction presses using List.reverseRecOn with
  | nil => exact ⟨by simp [browse, trail, ArchivePath.Tidy], .singleton _⟩
  | append_singleton earlier press ih =>
    rw [browse, foldl_append]
    change ((press.perform (browse earlier)).getD (browse earlier)).Sound
    cases moved : press.perform (browse earlier) with
    | none => exact ih
    | some => exact ih.perform moved

theorem goBack_of_movedTo {directory : ArchivePath} (sound : navigation.Sound)
    (moved : navigation.MovedTo next directory) :
    next.goBack.map current = some navigation.current ↔
      (navigation.current = .root → navigation.back = []) := by
  obtain ⟨rfl, other, _⟩ := moved
  by_cases isRoot : navigation.current = .root
  · rw [isRoot] at other
    cases isBack : navigation.back with
    | nil =>
      simp [goBack, moveTo, pushHistory, isRoot, isBack, value_eq_nil_iff, other]
    | cons previous =>
      have apart := sound.apart
      rw [trail, isChain_append, isBack, isRoot] at apart
      have another : previous ≠ .root := fun same => apart.2.2 previous (by simp) _ rfl same rfl
      simp [goBack, moveTo, pushHistory, isRoot, isBack, value_eq_nil_iff, another]
  · simp [goBack, moveTo, pushHistory, mt value_eq_nil_iff.mp isRoot, isRoot]

/-- Where the arrows lead, in every run.  What `descend` and `go_to` leave is shown again by an
arrow back, unless that is the root and the history is not empty. -/
theorem browse_returns (presses : List Press) :
    (∀ (press : Press) next, press.Fresh → press.perform (browse presses) = some next →
      (next.goBack.map current = some (browse presses).current ↔
        ((browse presses).current = .root → (browse presses).back = []))) ∧
      (∀ previous, (browse presses).goBack = some previous →
        previous.goForward.map current = some (browse presses).current) ∧
      (browse presses).current.Tidy := by
  have sound := sound_browse presses
  have isCurrent := sound.tidy _ (mem_append_right _ mem_cons_self)
  refine ⟨fun press next fresh moved => ?_, fun previous moved => (trail_goBack moved).2, isCurrent⟩
  cases press with
  | descend =>
    obtain ⟨_, movedTo⟩ := movedTo_of_descend isCurrent moved
    exact goBack_of_movedTo sound movedTo
  | goTo =>
    obtain ⟨_, movedTo⟩ := movedTo_of_goTo moved
    exact goBack_of_movedTo sound movedTo
  | up =>
    obtain ⟨inner, _, returns⟩ := trail_up moved
    exact iff_of_true returns fun isRoot => absurd isRoot inner
  | back => exact absurd rfl fresh.1
  | forward => exact absurd rfl fresh.2

/-- From the root, reached by `go_to` after `a`, a descent into `b` returns to `a`. -/
theorem browse_returns_elsewhere :
    let navigation := browse [.descend ['a'], .goTo []]
    navigation.current = .root ∧ ∃ next, navigation.descend ['b'] = some next ∧
      next.goBack.map current ≠ some .root := by
  decide

/-- However the arrows are pressed, they lose no directory and add at most the root in front. -/
theorem arrows_keep_trail (presses : List Press) {arrows : List Press}
    (onlyArrows : ∀ press ∈ arrows, ¬press.Fresh) :
    let before := (browse presses).trail
    let after := (browse (presses ++ arrows)).trail
    after = before ∨ after = .root :: before := by
  induction arrows using List.reverseRecOn with
  | nil => exact .inl (by rw [append_nil])
  | append_singleton arrows press ih =>
    have isArrow := onlyArrows press (mem_append_right _ (mem_singleton_self press))
    have kept := ih fun press mem => onlyArrows press (mem_append_left _ mem)
    have last : browse (presses ++ arrows ++ [press]) =
        (press.perform (browse _)).getD (browse _) :=
      foldl_concat _ _ _ _
    rw [← append_assoc, last]
    generalize browse (presses ++ arrows) = navigation at kept ⊢
    cases moved : press.perform navigation with
    | none => exact kept
    | some next =>
      cases press with
      | back =>
        rcases (trail_goBack moved).1 with same | ⟨inner, isTrail, longer⟩
        · exact same ▸ kept
        · rcases kept with whole | rooted
          · exact .inr (whole ▸ longer)
          · exact absurd (cons.inj (isTrail.symm.trans rooted)).1 inner
      | forward => exact trail_goForward moved ▸ kept
      | _ => exact absurd ⟨by simp, by simp⟩ isArrow

/-- An arrow back from the second directory leads to the first. -/
theorem arrows_keep_two :
    let before := (browse [.descend ['a'], .descend ['b']]).trail
    let after := (browse ([.descend ['a'], .descend ['b']] ++ [.back])).trail
    after = before ∨ after = .root :: before :=
  arrows_keep_trail _ (by simp [Press.Fresh])

end ArchiveNavigation

end Arclain
