import Arclain.Text

namespace Arclain.OsPath

/-!
# Paths of the operating system

A file name on Unix is a sequence of bytes that need not be UTF-8.  An `OsString` keeps what
decoding makes of it: characters, and the maximal invalid sequences.  Two paths are equal
when their components agree.
-/

open List Text

/-- A character, or one maximal invalid sequence. -/
inductive OsChar where
  | char (char : Char)
  | invalid (bytes : List UInt8)
  deriving DecidableEq

/-- `OsString`, and the text of a `PathBuf`. -/
abbrev OsString := List OsChar

def ofStr (text : Str) : OsString := text.map .char

/-- `OsStr::to_str`: nothing where the bytes are not UTF-8. -/
def toStr : OsString → Option Str
  | [] => some []
  | .char char :: rest => (toStr rest).map fun text => char :: text
  | .invalid _ :: _ => none

/-- `OsStr::to_string_lossy`: one replacement character for each invalid
sequence. -/
def toStringLossy (text : OsString) : Str :=
  text.map fun
    | .char char => char
    | .invalid _ => '\uFFFD'

def isUtf8 (text : OsString) : Bool :=
  text.all fun
    | .char _ => true
    | .invalid _ => false

def slash : OsChar := .char '/'

def dot : OsChar := .char '.'

inductive Component where
  | rootDir
  | curDir
  | parentDir
  | normal (name : OsString)
  deriving DecidableEq

/-- A piece of a path that names no component. -/
def isIgnored (piece : OsString) : Bool := piece = [] || piece = [dot]

/-- The leading root or current-directory mark, and the text after it. -/
def splitHead : OsString → OsString × OsString
  | [] => ([], [])
  | first :: rest =>
    if first = slash then ([slash], rest)
    else if first = dot ∧ (rest = [] ∨ rest.head? = some slash) then ([dot], rest)
    else ([], first :: rest)

def headComponents (head : OsString) : List Component :=
  if head = [slash] then [.rootDir]
  else if head = [dot] then [.curDir]
  else []

def pieceComponent (piece : OsString) : Component :=
  if piece = [dot, dot] then .parentDir else .normal piece

def pieceComponents (body : OsString) : List Component :=
  ((body.splitOn slash).filter fun piece => !isIgnored piece).map pieceComponent

/-- `Path::components`. -/
def components (path : OsString) : List Component :=
  headComponents (splitHead path).1 ++ pieceComponents (splitHead path).2

/-- `Path::file_name`. -/
def fileName (path : OsString) : Option OsString :=
  match (components path).getLast? with
  | some (.normal name) => some name
  | _ => none

/-- `Path::parent`. -/
def parent (path : OsString) : Option OsString :=
  let (head, body) := splitHead path
  match (body.splitOn slash).reverse.dropWhile isIgnored with
  | [] => if head = [dot] then some [] else none
  | _ :: earlier => some (head ++ [slash].intercalate (earlier.dropWhile isIgnored).reverse)

/-- `Path::file_stem`: the name up to its last dot, or the whole name where none comes after
the first character. -/
def fileStem (path : OsString) : Option OsString :=
  (fileName path).map fun name =>
    match name.reverse.dropWhile fun char => char ≠ dot with
    | [] | [_] => name
    | _ :: before => before.reverse

/-- `PathBuf::push`. -/
def push (base name : OsString) : OsString :=
  if name.head? = some slash then name
  else if base = [] ∨ base.getLast? = some slash then base ++ name
  else base ++ slash :: name

/-- Two texts are one path when their components agree. -/
def samePath (first second : OsString) : Bool := components first = components second

@[simp] theorem isUtf8_ofStr (text : Str) : isUtf8 (ofStr text) = true := by simp [isUtf8, ofStr]

variable (first second : OsString)

@[simp] theorem isUtf8_append : isUtf8 (first ++ second) = (isUtf8 first && isUtf8 second) := by
  simp [isUtf8]

theorem ofStr_toStringLossy_iff {text : OsString} :
    ofStr (toStringLossy text) = text ↔ isUtf8 text = true := by
  induction text with
  | nil => simp [ofStr, toStringLossy, isUtf8]
  | cons first _ ih =>
    cases first with
    | char char => simpa [ofStr, toStringLossy, isUtf8] using ih
    | invalid => simp [ofStr, toStringLossy, isUtf8]

theorem pieceComponents_append_slash : pieceComponents (first ++ slash :: second) =
      pieceComponents first ++ pieceComponents second := by
  simp [pieceComponents, splitOn_append_cons_self]

@[simp] theorem pieceComponents_nil : pieceComponents [] = [] := by
  simp [pieceComponents, isIgnored]

theorem splitHead_joined (path : OsString) : (splitHead path).1 ++ (splitHead path).2 = path := by
  cases path with
  | nil => rfl
  | cons =>
    simp only [splitHead]
    split
    next rooted => simp [rooted]
    · split
      next dotted => simp [dotted.1]
      · rfl

theorem splitHead_append {base rest : OsString} (present : base ≠ [])
    (apart : base = [dot] → rest = [] ∨ rest.head? = some slash) :
    splitHead (base ++ rest) = ((splitHead base).1, (splitHead base).2 ++ rest) := by
  have unlike : dot ≠ slash := by decide
  obtain ⟨first, after, rfl⟩ := exists_cons_of_ne_nil present
  by_cases rooted : first = slash
  · simp [splitHead, rooted]
  · by_cases dotted : first = dot
    · cases after with
      | nil =>
        have separated := apart (by rw [dotted])
        simp [splitHead, dotted, unlike, separated]
      | cons second =>
        by_cases marked : second = slash
        · simp [splitHead, dotted, marked, unlike]
        · simp [splitHead, dotted, marked, unlike]
    · simp [splitHead, rooted, dotted]

theorem getLast?_splitHead {path : OsString} (present : (splitHead path).2 ≠ []) :
    (splitHead path).2.getLast? = path.getLast? := by
  conv_rhs => rw [← splitHead_joined path]
  rw [List.getLast?_append, List.getLast?_eq_getLast_of_ne_nil present]
  rfl

variable {base name : OsString}

theorem components_push (present : base ≠ []) (relative : name.head? ≠ some slash) :
    components (push base name) = components base ++ pieceComponents name := by
  unfold push
  rw [if_neg relative]
  by_cases closed : base.getLast? = some slash
  · rw [if_pos (.inr closed), components, components, splitHead_append present ?_]
    · simp only [append_assoc, append_cancel_left_eq]
      by_cases bare : (splitHead base).2 = []
      · simp [bare]
      · have ending := (getLast?_splitHead bare).trans closed
        obtain ⟨_, whole⟩ := List.getLast?_eq_some_iff.mp ending
        rw [whole, append_assoc, singleton_append,
          pieceComponents_append_slash, pieceComponents_append_slash]
        simp
    · intro dotted
      simp [dotted, dot, slash] at closed
  · rw [if_neg (by simp [present, closed]), components, components,
      splitHead_append present (fun _ => .inr rfl)]
    rw [pieceComponents_append_slash, append_assoc]

theorem isUtf8_of_push (relative : name.head? ≠ some slash)
    (clean : isUtf8 (push base name) = true) : isUtf8 base = true ∧ isUtf8 name = true := by
  unfold push at clean
  rw [if_neg relative] at clean
  split at clean
  · simpa using clean
  · rw [isUtf8_append, ← singleton_append, isUtf8_append] at clean
    simp only [Bool.and_eq_true] at clean
    exact ⟨clean.1, clean.2.2⟩

/-! ## Paths that are UTF-8 -/

def Component.isUtf8 : Component → Bool
  | .normal name => OsPath.isUtf8 name
  | _ => true

theorem isUtf8_eq_all_pieces (text : OsString) : isUtf8 text = (text.splitOn slash).all isUtf8 :=
  (Text.all_splitOn _ (by rfl) text).symm

theorem isUtf8_of_isIgnored {piece : OsString} (ignored : isIgnored piece = true) :
    isUtf8 piece = true := by
  simp only [isIgnored, Bool.or_eq_true, decide_eq_true_eq] at ignored
  cases ignored with
  | inl empty =>
    rw [empty]
    rfl
  | inr dotted =>
    rw [dotted]
    rfl

@[simp] theorem isUtf8_pieceComponent (piece : OsString) :
    (pieceComponent piece).isUtf8 = isUtf8 piece := by
  unfold pieceComponent
  split
  next dotted =>
    rw [dotted]
    rfl
  · rfl

theorem isUtf8_eq_all_components (path : OsString) :
    isUtf8 path = (components path).all Component.isUtf8 := by
  have headClean : isUtf8 (splitHead path).1 = true ∧
      (headComponents (splitHead path).1).all Component.isUtf8 = true := by
    unfold splitHead
    split
    · exact ⟨rfl, rfl⟩
    · split
      · exact ⟨rfl, rfl⟩
      · split <;> exact ⟨rfl, rfl⟩
  have pieces : (pieceComponents (splitHead path).2).all Component.isUtf8 =
      isUtf8 (splitHead path).2 := by
    rw [isUtf8_eq_all_pieces, pieceComponents, all_map, all_filter]
    refine all_congr rfl fun piece => ?_
    cases ignored : isIgnored piece with
    | true => simp [isUtf8_of_isIgnored ignored]
    | false => simp
  rw [components, all_append, headClean.2, Bool.true_and, pieces]
  conv_lhs => rw [← splitHead_joined path, isUtf8_append, headClean.1]
  rfl

theorem isUtf8_of_samePath {first second : OsString} (same : samePath first second = true) :
    isUtf8 first = isUtf8 second := by
  rw [samePath, decide_eq_true_eq] at same
  rw [isUtf8_eq_all_components, isUtf8_eq_all_components, same]

end Arclain.OsPath
