import Arclain.Text

namespace Arclain

/-!
# Checked relative paths

A portable, non-empty relative path that cannot lexically escape a root.  A
`CheckedRelativePath` carries the proof that each of its slash-separated components passed
the portability check.
-/

open Text

/-- Why a text is not a checked relative path. -/
inductive PathError where
  | empty
  | notRelative (raw : Str)
  | unsafeComponent (component raw : Str)
  | nonPortableComponent (component : Str)
  | reservedComponent (component : Str)
  deriving DecidableEq

/-- The characters no portable component may contain. -/
def reservedCharacters : Str := ['<', '>', ':', '\\', '"', '|', '?', '*']

def deviceDigits : List Str :=
  [['1'], ['2'], ['3'], ['4'], ['5'], ['6'], ['7'], ['8'], ['9'], ['¹'], ['²'], ['³']]

def isReservedComponent (component : Str) : Bool :=
  let stem := toAsciiUppercase (component.takeWhile (· ≠ '.'))
  let numberedDeviceSuffix := (stem.dropPrefix? "COM".toList).or (stem.dropPrefix? "LPT".toList)
  stem ∈ ["CON".toList, "PRN".toList, "AUX".toList, "NUL".toList] ||
    match numberedDeviceSuffix with
    | some suffix => suffix ∈ deviceDigits
    | none => false

/-- The first fault of one component, in the order the source checks them. -/
def componentFault (raw component : Str) : Option PathError :=
  if component = [] ∨ component = ['.'] ∨ component = ['.', '.'] then
    some (.unsafeComponent component raw)
  else if endsWith component ['.'] ∨ endsWith component [' '] ∨ component.any fun char =>
    isControl char || char ∈ reservedCharacters then
    some (.nonPortableComponent component)
  else if isReservedComponent component then some (.reservedComponent component)
  else none

/-- A path every component of which passed the check. -/
structure CheckedRelativePath where
  path : Str
  portable : ∀ component ∈ path.splitOn '/', ∀ raw, componentFault raw component = none

namespace CheckedRelativePath

def components (checked : CheckedRelativePath) : List Str := checked.path.splitOn '/'

end CheckedRelativePath

theorem componentFault_eq_none_iff {first second component : Str} :
    componentFault first component = none ↔ componentFault second component = none := by
  unfold componentFault
  split
  · simp
  · split
    · simp
    · split <;> simp

namespace CheckedRelativePath

def new (raw : Str) : Except PathError CheckedRelativePath :=
  if raw = [] then .error .empty
  else
    let normalized := forwardSlashes raw
    if startsWith normalized ['/'] ∨ containsText normalized ['/', '/'] then
      .error (.notRelative raw)
    else
      match faults : (normalized.splitOn '/').findSome? (componentFault raw) with
      | some fault => .error fault
      | none =>
        .ok {
          path := normalized
          portable := by
            intro component mem other
            have clean := List.findSome?_eq_none_iff.mp faults
            exact componentFault_eq_none_iff.mp (clean component mem) }

theorem path_of_new {raw : Str} {checked : CheckedRelativePath} (accepted : new raw = .ok checked) :
    checked.path = forwardSlashes raw := by
  unfold new at accepted
  split at accepted
  · simp at accepted
  · simp only at accepted
    split at accepted
    · simp at accepted
    · split at accepted
      · simp at accepted
      · obtain rfl := Except.ok.inj accepted
        rfl

theorem component_ne (checked : CheckedRelativePath) {component : Str}
    (mem : component ∈ checked.components) : component ≠ [] ∧ component ≠ ['.'] := by
  have clean := checked.portable component mem []
  constructor
  · rintro rfl
    simp [componentFault] at clean
  · rintro rfl
    simp [componentFault] at clean

end CheckedRelativePath

end Arclain
