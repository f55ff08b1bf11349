import Mathlib.Data.List.Basic
import Mathlib.Data.List.Nodup
import Mathlib.Logic.Function.Basic

namespace Arclain.FileStore

/-!
# Stores of files under paths

A store says what stands at each path.  Its only changes are `move`, the effect
of a successful rename, and `create`, the effect of writing a new file.
-/

abbrev Store (Path Content : Type*) := Path → Option Content

section

variable {Path Content : Type*} [DecidableEq Path]

def move (store : Store Path Content) (source target : Path) : Store Path Content :=
  fun path =>
    if path = source then none
    else if path = target then store source
    else store path

def create (store : Store Path Content) (path : Path) (content : Content) : Store Path Content :=
  fun other => if other = path then some content else store other

@[simp] theorem move_source (store : Store Path Content) (source target : Path) :
    move store source target source = none := by
  simp [move]

variable {store : Store Path Content} {source target : Path}

theorem move_target (different : target ≠ source) :
    move store source target target = store source := by
  simp [move, different]

theorem move_other {source target path : Path} (notSource : path ≠ source)
    (notTarget : path ≠ target) : move store source target path = store path := by
  simp [move, notSource, notTarget]

theorem move_back (different : target ≠ source) (vacant : store target = none) :
    move (move store source target) target source = store := by
  funext path
  by_cases atSource : path = source
  · subst atSource
    simp [move, different, different.symm]
  · by_cases atTarget : path = target
    · subst atTarget
      simp [move, vacant]
    · simp [move, atSource, atTarget]

@[simp] theorem create_same (store : Store Path Content) (path : Path) (content : Content) :
    create store path content path = some content := by
  simp [create]

theorem create_other {path other : Path} {content : Content} (different : other ≠ path) :
    create store path content other = store other := by
  simp [create, different]

end

end Arclain.FileStore
