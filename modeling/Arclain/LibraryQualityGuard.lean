import Arclain.LibraryListCache

namespace Arclain.LibraryService

/-!
# The quality guard of `save_metadata`

A save compares its row with the row it has read and writes it in a later call to the
database.
-/

open KeyedMap Option ActionRun Library Text Bool

variable {Source : Type}

structure NotWorse (old new : ProductMetadata Source) : Prop where
  unblocked : old.geoBlocked = false → new.geoBlocked = false
  complete : old.completenessScore ≤ new.completenessScore

namespace NotWorse

theorem refl (row : ProductMetadata Source) : NotWorse row row := ⟨id, UInt32.le_refl _⟩

theorem trans {first second third : ProductMetadata Source} (earlier : NotWorse first second)
    (later : NotWorse second third) : NotWorse first third :=
  ⟨fun free => later.unblocked (earlier.unblocked free),
    UInt32.le_trans earlier.complete later.complete⟩

theorem of_not_refuses {row existing : ProductMetadata Source}
    (passes : System.refuses row existing = false) : NotWorse existing row := by
  simp only [System.refuses, or_eq_false_iff, and_eq_false_iff,
    not_eq_false', decide_eq_false_iff_not] at passes
  obtain ⟨blocked, score⟩ := passes
  constructor
  · intro free
    rcases blocked with unblocked | impossible
    · exact unblocked
    · rw [free] at impossible
      cases impossible
  · exact UInt32.not_lt.mp score

end NotWorse

/-- A save past its guards was not refused by the row it read. -/
def Phase.Checked : Phase Source → Prop
  | .writing row (some (some existing)) => System.refuses row existing = false
  | _ => True

variable [DecidableEq Source]

namespace System

/-- A step inserts the row of a save, removes the row of a delete, or leaves the table. -/
inductive Changes (system next : System Source) : Action Source → Prop where
  | none {action : Action Source} (same : next.rows = system.rows) : Changes system next action
  | write {thread : Nat} {row : ProductMetadata Source}
      {read : Option (Option (ProductMetadata Source))}
      (found : system.threads.lookup thread = some (.writing row read))
      (inserts : next.rows = system.rows.insert row.id row) :
      Changes system next (.advance thread true)
  | erase {thread : Nat} {id : Str} (found : system.threads.lookup thread = some (.deleting id))
      (erases : next.rows = system.rows.erase id) :
      Changes system next (.advance thread true)

/-- A thread enters a phase, past the guards only with a row not refused, or its call
returns. -/
inductive Moves (system next : System Source) : Prop where
  | enters {thread : Nat} {phase : Phase Source}
      (inserts : next.threads = system.threads.insert thread phase)
      (checked : phase.Checked)
  | leaves {thread : Nat} (erases : next.threads = system.threads.erase thread)

/-- Every save past its guards was not refused. -/
def AllChecked (system : System Source) : Prop :=
  ∀ thread phase, system.threads.lookup thread = some phase → phase.Checked

/-- The condition on a step: a write of the product finds the row that its save
has read, and the read did not fail. -/
def writesWhatWasRead (product : Str) (system : System Source) : Action Source → Bool
  | .advance thread true =>
    match system.threads.lookup thread with
    | some (.writing row read) => row.id != product || read == some (system.rows.lookup row.id)
    | _ => true
  | _ => true

def deletesOther (product : Str) (system : System Source) : Action Source → Bool
  | .advance thread true =>
    match system.threads.lookup thread with
    | some (.deleting id) => id != product
    | _ => true
  | _ => true

section

variable {listIds : ListIds Source} {system next : System Source} {action : Action Source}

omit [DecidableEq Source] in
@[simp] theorem rows_commit (rows : Rows Source) (thread : Nat) (phase : Phase Source) :
    ((system.commit rows).enter thread phase).rows = rows :=
  Function.update_self _ _ _

theorem step_cases (taken : system.step listIds action = some next) :
    Changes system next action ∧ Moves system next := by
  cases action with
  | save thread row | delete thread id =>
    obtain ⟨_, ⟨⟩⟩ := ite_none_right_eq_some.mp taken
    exact ⟨.none rfl, .enters rfl trivial⟩
  | list thread source =>
    obtain ⟨_, ⟨⟩⟩ := ite_none_right_eq_some.mp taken
    unfold startList
    split
    · exact ⟨.none rfl, .enters rfl trivial⟩
    · exact ⟨.none rfl, .enters rfl trivial⟩
  | advance thread =>
    obtain ⟨phase, found, advanced⟩ := bind_eq_some_iff.mp taken
    cases phase with
    | saving row =>
      cases advanced
      unfold readExisting
      split
      · split
        · split
          · exact ⟨.none rfl, .leaves rfl⟩
          next passes => exact ⟨.none rfl, .enters rfl (eq_false_iff.mpr passes)⟩
        · exact ⟨.none rfl, .enters rfl trivial⟩
      · exact ⟨.none rfl, .enters rfl trivial⟩
    | writing row =>
      simp only [advance] at advanced
      split at advanced
      next worked =>
        cases advanced
        subst worked
        exact ⟨.write found (rows_commit _ _ _), .enters rfl trivial⟩
      · cases advanced
        exact ⟨.none rfl, .leaves rfl⟩
    | deleting id =>
      simp only [advance] at advanced
      split at advanced
      next worked =>
        cases advanced
        subst worked
        exact ⟨.erase found (rows_commit _ _ _), .enters rfl trivial⟩
      · cases advanced
        exact ⟨.none rfl, .leaves rfl⟩
    | clearing version =>
      cases advanced
      exact ⟨.none rfl, .enters rfl trivial⟩
    | bumping version =>
      cases advanced
      exact ⟨.none rfl, .leaves rfl⟩
    | querying since source epoch =>
      simp only [advance] at advanced
      split at advanced
      · cases advanced
        exact ⟨.none rfl, .enters rfl trivial⟩
      · cases advanced
        exact ⟨.none rfl, .leaves rfl⟩
    | inserting since source epoch _ ids =>
      cases advanced
      unfold insertList
      split
      · exact ⟨.none rfl, .enters rfl trivial⟩
      · exact ⟨.none rfl, .enters rfl trivial⟩
    | listed since source ids => cases advanced

theorem AllChecked.step (checked : system.AllChecked)
    (taken : system.step listIds action = some next) : next.AllChecked := by
  intro other phase found
  rcases (step_cases taken).2 with ⟨inserts, passes⟩ | ⟨erases⟩
  · rw [inserts, lookup_insert_ite] at found
    split at found
    · cases found
      exact passes
    · exact checked other phase found
  · rw [erases, lookup_erase_ite] at found
    split at found
    · cases found
    · exact checked other phase found

theorem notWorse_of_step {product : Str} {old : ProductMetadata Source}
    (checked : system.AllChecked) (reads : system.writesWhatWasRead product action)
    (keeps : system.deletesOther product action) (taken : system.step listIds action = some next)
    (stored : system.rows.lookup product = some old) :
    ∃ new, next.rows.lookup product = some new ∧ NotWorse old new := by
  cases (step_cases taken).1 with
  | none same =>
    rw [same]
    exact ⟨old, stored, .refl old⟩
  | @write thread row read found inserts =>
    rw [inserts, lookup_insert_ite]
    split
    next written =>
      refine ⟨row, rfl, ?_⟩
      simp only [writesWhatWasRead, found, or_eq_true, bne_iff_ne, beq_iff_eq] at reads
      have read_eq : read = some (some old) := by
        rw [reads.resolve_left fun different => different written.symm, ← written, stored]
      subst read_eq
      exact .of_not_refuses (checked thread _ found)
    · exact ⟨old, stored, .refl old⟩
  | @erase thread id found erases =>
    simp only [deletesOther, found, bne_iff_ne] at keeps
    rw [erases, lookup_erase_ite, if_neg keeps.symm]
    exact ⟨old, stored, .refl old⟩

end

/-- Where every write finds the row its save has read, a stored row never gets blocked and
its score does not decrease. -/
theorem stored_row_never_gets_worse (listIds : ListIds Source) (rows : Rows Source) (product : Str)
    (earlier later : List (Action Source)) (between final : System Source)
    (ranEarlier : run (step listIds) (initial rows) earlier = some between)
    (reads : Guarded (step listIds) (fun system action => system.writesWhatWasRead product action)
      between later)
    (keeps : Guarded (step listIds) (fun system action => system.deletesOther product action)
      between later)
    (ranLater : run (step listIds) between later = some final) (old : ProductMetadata Source)
    (stored : between.rows.lookup product = some old) :
    ∃ new, final.rows.lookup product = some new ∧
      (old.geoBlocked = false → new.geoBlocked = false) ∧
      old.completenessScore ≤ new.completenessScore := by
  have checked : between.AllChecked :=
    run_preserves (fun system => system.AllChecked) (fun checked taken => checked.step taken)
      (fun _ _ found => by cases found) ranEarlier
  have kept : final.AllChecked ∧
      ∃ new, final.rows.lookup product = some new ∧ NotWorse old new := by
    refine run_preserves_of_guarded (fun system =>
      system.AllChecked ∧ ∃ new, system.rows.lookup product = some new ∧ NotWorse old new)
      ?_ ⟨checked, old, stored, .refl old⟩ (reads.and keeps) ranLater
    rintro system action next ⟨checked, _, holds, better⟩ ⟨read, kept⟩ taken
    obtain ⟨new, holdsNow, stillBetter⟩ := notWorse_of_step checked read kept taken holds
    exact ⟨checked.step taken, new, holdsNow, better.trans stillBetter⟩
  obtain ⟨_, new, holds, better⟩ := kept
  exact ⟨new, holds, better.unblocked, better.complete⟩

/-- Two saves of one product: both read before either writes, and the one that is
blocked and has no title writes last. -/
theorem stored_row_gets_worse :
    let titled := { bareRow with title := some "Real Title".toList }
    let blocked := { bareRow with geoBlocked := true }
    ((run (step idsOf) (initial ∅)
      [.save 1 titled, .save 2 blocked, .advance 1 true, .advance 2 true,
        .advance 1 true]).elim false fun between =>
      between.rows.lookup bareRow.id == some titled &&
        (run (step idsOf) between [.advance 2 true]).elim false fun final =>
          final.rows.lookup bareRow.id == some blocked) = true := by
  decide

/-- A save that reads after the other has written: the blocked row is refused. -/
theorem stored_row_survives_blocked_save :
    let titled := { bareRow with title := some "Real Title".toList }
    let blocked := { bareRow with geoBlocked := true }
    let earlier := [.save 1 titled, .save 2 blocked, .advance 1 true, .advance 1 true]
    let later := [.advance 2 true]
    ∃ between final new, run (step idsOf) (initial ∅) earlier = some between ∧
      run (step idsOf) between later = some final ∧
      between.rows.lookup bareRow.id = some titled ∧
      final.rows.lookup bareRow.id = some new ∧
      new.geoBlocked = false := by
  intro titled blocked earlier later
  have meets : (run (step idsOf) (initial ∅) earlier).elim false (fun between =>
    decide (between.rows.lookup bareRow.id = some titled) &&
      decide (Guarded (step idsOf) (fun system action =>
        system.writesWhatWasRead bareRow.id action) between later) &&
      decide (Guarded (step idsOf) (fun system action =>
        system.deletesOther bareRow.id action) between later) &&
      (run (step idsOf) between later).isSome) = true := by
    decide
  cases ranEarlier : run (step idsOf) (initial ∅) earlier with
  | none =>
    rw [ranEarlier] at meets
    cases meets
  | some between =>
    rw [ranEarlier] at meets
    simp only [elim_some, and_eq_true, decide_eq_true_eq] at meets
    obtain ⟨⟨⟨stored, reads⟩, keeps⟩, ran⟩ := meets
    obtain ⟨final, ranLater⟩ := isSome_iff_exists.mp ran
    obtain ⟨new, holds, unblocked, _⟩ :=
      stored_row_never_gets_worse idsOf ∅ bareRow.id earlier later between
        final ranEarlier reads keeps ranLater titled stored
    exact ⟨between, final, new, rfl, ranLater, stored, holds, unblocked rfl⟩

end System

end Arclain.LibraryService
