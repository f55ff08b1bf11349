import Arclain.Layout
import Arclain.ModInfo

namespace Arclain

/-!
# Resolving a layout to its named outputs

The first half of resolving a layout: how many outputs an archive produces, where the
content of each starts inside the input, and what each is called.
-/

open List Text Fallible

/-- One output the layout produces, located and named. -/
structure ResolvedOutput where
  root : Str
  name : Str
  values : Variables

/-- Every output a layout resolved to, and every one it could not. -/
structure ResolvedOutputs where
  outputs : List ResolvedOutput
  skipped : List (Str × Str)

inductive Resolution where
  | named (output : ResolvedOutput)
  | unnameable (reason : Str)

namespace OutputResolution

/-- Every directory strictly above a root, outermost first. -/
def ancestorsOf (root : Str) : List Str :=
  if root = [] then []
  else
    [] :: (((range root.length).filter fun index => root[index]? = some '/').map
      fun index => root.take index).filter fun ancestor => ancestor ≠ []

def markedRoot (marker : Str) (entry : ArchiveEntry) : Option Str :=
  if entry.isDir then none
  else
    let path := forwardSlashes entry.path
    if path = marker then some []
    else (path.dropSuffix? marker).bind fun root => root.dropSuffix? ['/']

def refuseNestedRoots (roots : List Str) : Except PlanError Unit :=
  match roots.findSome? fun root =>
    ((ancestorsOf root).find? fun ancestor => ancestor ∈ roots).map
      fun ancestor => PlanError.nestedRoots root ancestor with
  | some error => .error error
  | none => .ok ()

/-- The directories the selector picks out, in lexicographic order. -/
def selectRoots (selector : OutputSelector)
    (entries : List ArchiveEntry) : Except PlanError (List Str) :=
  match selector with
  | .whole => .ok [[]]
  | .perDirectoryContaining marker => do
    let roots := sortedSet (entries.filterMap (markedRoot marker))
    refuseNestedRoots roots
    .ok roots

def joinPath (root relative : Str) : Str :=
  if root = [] then relative
  else root ++ ['/'] ++ relative

section

variable [CharTables]

/-- The text so far, the unset tokens so far, and the token being read after a dollar sign,
if any. -/
structure Expansion where
  expanded : Str
  missing : List Str
  token : Option Str

/-- End the token being read: fill it in, or leave it standing. -/
def closeToken (values : Variables) (expansion : Expansion) : Expansion :=
  match expansion.token with
  | none => expansion
  | some [] =>
    { expansion with
      expanded := expansion.expanded ++ ['$']
      token := none }
  | some token =>
    match values.lookup token with
    | some value =>
      { expansion with
        expanded := expansion.expanded ++ value
        token := none }
    | none =>
      { expanded := expansion.expanded ++ ['$'] ++ token
        missing :=
          if token ∈ expansion.missing then expansion.missing
          else expansion.missing ++ [token]
        token := none }

def expandChar (values : Variables) (expansion : Expansion) (char : Char) : Expansion :=
  match expansion.token with
  | some token =>
    if CharTables.isAlphanumeric char ∨ char = '_' then
      { expansion with token := some (token ++ [char]) }
    else
      let closed := closeToken values expansion
      if char = '$' then { closed with token := some [] }
      else { closed with expanded := closed.expanded ++ [char] }
  | none =>
    if char = '$' then { expansion with token := some [] }
    else { expansion with expanded := expansion.expanded ++ [char] }

/-- `expand`: the filled template and every token without a value, in order. -/
def expand (template : Str) (values : Variables) : Str × List Str :=
  let final := closeToken values (template.foldl (expandChar values)
      { expanded := [], missing := [], token := none })
  (final.expanded, final.missing)

def dollarTokens (tokens : List Str) : Str :=
  join ", ".toList (tokens.map fun token => '$' :: token)

/-- `String::from_utf8`. -/
def fromUtf8 (bytes : ByteArray) : Option Str := bytes.utf8Decode?.map Array.toList

def readFileVariable (path : Str) (fileVariable : FileVariable) (key : ModInfoKey)
    (readEntry : ReadEntry) : Except Str Str :=
  match readEntry path with
  | none =>
    .error ('$' :: fileVariable.asName ++ " comes from ".toList ++ path ++
      ", which the archive does not hold".toList)
  | some bytes =>
    match fromUtf8 bytes with
    | none =>
      .error ('$' :: fileVariable.asName ++ " comes from ".toList ++ path ++
        ", which is not valid UTF-8".toList)
    | some text =>
      match key.take (ModInfo.parseStr text) with
      | some value => .ok value
      | none =>
        .error ('$' :: fileVariable.asName ++ " comes from the ".toList ++ fileVariable.key ++
          " of ".toList ++ path ++ ", which does not set one".toList)

/-- Read one wanted variable into the map, or note why it has no value. -/
def readWanted (root : Str) (readEntry : ReadEntry) (read : Variables × List Str)
    (wanted : FileVariable × ModInfoKey) : Variables × List Str :=
  match readFileVariable (joinPath root wanted.1.file) wanted.1 wanted.2 readEntry with
  | .ok value => (read.1.insert wanted.1.asName value, read.2)
  | .error reason => (read.1, read.2 ++ [reason])

def resolveOne (nameTemplate : Str) (wanted : List (FileVariable × ModInfoKey)) (root : Str)
    (baseVariables : Variables) (readEntry : ReadEntry) : Resolution :=
  let (values, unresolved) := wanted.foldl (readWanted root readEntry) (baseVariables, [])
  let (name, missing) := expand nameTemplate values
  if unresolved ≠ [] then .unnameable (join "; ".toList unresolved)
  else if missing ≠ [] then
    .unnameable ("the name needs ".toList ++ dollarTokens missing ++ ", which nothing set".toList)
  else .named { root := root, name := name, values := values }

/-- Check the keys of the layout's file variables. -/
def wantedKeys (fileVariables : List FileVariable) :
    Except PlanError (List (FileVariable × ModInfoKey)) :=
  fileVariables.mapM fun fileVariable =>
    match ModInfoKey.parse fileVariable.key with
    | some key => .ok (fileVariable, key)
    | none => .error (.notAModInfoKey fileVariable.asName fileVariable.key)

/-- Claim a text under its upper-cased form, refusing a second text that
wants the same one. -/
def claimUppercase (same : Str → PlanError) (mergeable : Str → Str → PlanError)
    (claimed : KeyedMap Str Str) (text : Str) : Except PlanError (KeyedMap Str Str) :=
  match claimed.lookup (uppercase text) with
  | none => .ok (claimed.insert (uppercase text) text)
  | some first =>
    if first = text then .error (same text)
    else .error (mergeable first text)

def claimName (claimed : KeyedMap Str Str)
    (output : ResolvedOutput) : Except PlanError (KeyedMap Str Str) :=
  claimUppercase .sameName .mergeableNames claimed output.name

def namedOutputs (resolve : Str → Resolution) (roots : List Str) : List ResolvedOutput :=
  roots.filterMap fun root =>
    match resolve root with
    | .named output => some output
    | .unnameable _ => none

def skippedOutputs (resolve : Str → Resolution) (roots : List Str) : List (Str × Str) :=
  roots.filterMap fun root =>
    match resolve root with
    | .named _ => none
    | .unnameable reason => some (root, reason)

def resolveOutputs (layout : Layout) (entries : List ArchiveEntry) (baseVariables : Variables)
    (readEntry : ReadEntry) : Except PlanError ResolvedOutputs := do
  let wanted ← wantedKeys layout.fileVariables
  let roots ← selectRoots layout.outputs entries
  if layout.name = [] ∧ roots.length > 1 then .error (.outputsWithoutName roots.length)
  else
    let resolve := fun root => resolveOne layout.name wanted root baseVariables readEntry
    let outputs := namedOutputs resolve roots
    if outputs.length > 1 ∧ outputs.any fun output => output.name = [] then
      .error (.unnamedOutput outputs.length)
    else
      let _ ← outputs.foldlM claimName ∅
      .ok { outputs := outputs, skipped := skippedOutputs resolve roots }

end

/-- A root claims the files below it; the empty root claims every file. -/
def Covers (root path : Str) : Prop := root = [] ∨ root ++ ['/'] <+: path

theorem mem_ancestorsOf {shorter longer : Str} (nonempty : longer ≠ [])
    (covers : Covers shorter longer) : shorter ∈ ancestorsOf longer := by
  rw [ancestorsOf, if_neg nonempty]
  by_cases empty : shorter = []
  · simp [empty]
  · obtain ⟨_, rfl⟩ := covers.resolve_left empty
    apply mem_cons_of_mem
    simp only [ne_eq, decide_not, mem_filter, mem_map, mem_range, decide_eq_true_eq]
    refine ⟨⟨shorter.length, ⟨?_, ?_⟩, ?_⟩, by simp [empty]⟩
    · simp
    · simp
    · simp

theorem covers_of_common_descendant {shorter longer path : Str}
    (shorterPrefix : shorter ++ ['/'] <+: path) (longerPrefix : longer ++ ['/'] <+: path)
    (different : shorter ≠ longer) (bound : shorter.length ≤ longer.length) :
    Covers shorter longer := by
  have nested : shorter ++ ['/'] <+: longer ++ ['/'] :=
    prefix_of_prefix_length_le shorterPrefix longerPrefix (by simpa using bound)
  have strict : shorter.length < longer.length := by
    refine Nat.lt_of_le_of_ne bound fun sameLength => different ?_
    have whole := nested.eq_of_length (by simp [sameLength])
    exact append_cancel_right whole
  exact .inr (prefix_of_prefix_length_le nested (prefix_append ..)
    (by simpa [Nat.succ_le_iff] using strict))

variable {first second path : Str}

theorem eq_of_covers (notAbove : first ∉ ancestorsOf second) (notBelow : second ∉ ancestorsOf first)
    (firstCovers : Covers first path) (secondCovers : Covers second path) : first = second := by
  by_contra different
  by_cases firstEmpty : first = []
  · subst firstEmpty
    exact notAbove (mem_ancestorsOf (Ne.symm different) (.inl rfl))
  by_cases secondEmpty : second = []
  · subst secondEmpty
    exact notBelow (mem_ancestorsOf different (.inl rfl))
  have firstPrefix := firstCovers.resolve_left firstEmpty
  have secondPrefix := secondCovers.resolve_left secondEmpty
  rcases Nat.le_total first.length second.length with bound | bound
  · exact notAbove (mem_ancestorsOf secondEmpty
      (covers_of_common_descendant firstPrefix secondPrefix different bound))
  · exact notBelow (mem_ancestorsOf firstEmpty
      (covers_of_common_descendant secondPrefix firstPrefix (Ne.symm different) bound))

variable {roots : List Str}

theorem unnested_of_refuseNestedRoots (accepted : refuseNestedRoots roots = .ok ())
    (firstMember : first ∈ roots) (secondMember : second ∈ roots) : first ∉ ancestorsOf second := by
  intro above
  unfold refuseNestedRoots at accepted
  split at accepted
  · simp at accepted
  next clean =>
    have none := findSome?_eq_none_iff.mp clean second secondMember
    simp only [Option.map_eq_none_iff, find?_eq_none, decide_eq_true_eq] at none
    exact none first above firstMember

theorem forwardSlashes_of_markedRoot {marker root : Str} {entry : ArchiveEntry}
    (marked : markedRoot marker entry = some root) : forwardSlashes root = root := by
  unfold markedRoot at marked
  split at marked
  · simp at marked
  · simp only at marked
    split at marked
    · cases marked
      rfl
    · obtain ⟨_, outer, inner⟩ := Option.bind_eq_some_iff.mp marked
      obtain ⟨_, path, -⟩ := dropSuffix?_eq_some_iff.mp outer
      obtain ⟨_, whole, -⟩ := dropSuffix?_eq_some_iff.mp inner
      apply forwardSlashes_eq_self
      intro backslash
      apply backslash_notMem_forwardSlashes entry.path
      rw [path, whole]
      simp [backslash]

/-- What planning relies on about the selected roots. -/
structure Selection (roots : List Str) : Prop where
  distinct : roots.Nodup
  slashed : ∀ root ∈ roots, forwardSlashes root = root
  unnested : ∀ first ∈ roots, ∀ second ∈ roots, first ∉ ancestorsOf second

theorem selection_of_selectRoots {selector : OutputSelector} {entries : List ArchiveEntry}
    (selected : selectRoots selector entries = .ok roots) : Selection roots := by
  cases selector with
  | whole =>
    obtain rfl := Except.ok.inj selected
    constructor
    · simp
    · simp [forwardSlashes, replaceChar]
    · simp [ancestorsOf]
  | perDirectoryContaining =>
    obtain ⟨⟨⟩, accepted, done⟩ := bind_eq_ok.mp selected
    obtain rfl := Except.ok.inj done
    constructor
    · exact nodup_sortedSet _
    · intro _ mem
      obtain ⟨_, -, marked⟩ := mem_filterMap.mp (mem_sortedSet.mp mem)
      exact forwardSlashes_of_markedRoot marked
    · intro _ firstMember _ secondMember
      exact unnested_of_refuseNestedRoots accepted firstMember secondMember

theorem Selection.eq_of_covers (selection : Selection roots) (firstMember : first ∈ roots)
    (secondMember : second ∈ roots) (firstCovers : Covers first path)
    (secondCovers : Covers second path) : first = second :=
  OutputResolution.eq_of_covers (selection.unnested first firstMember second secondMember)
    (selection.unnested second secondMember first firstMember)
    firstCovers secondCovers

section

variable [CharTables] {baseVariables : Variables} {readEntry : ReadEntry}

variable {wanted : List (FileVariable × ModInfoKey)}

theorem root_of_resolveOne {nameTemplate root : Str} {output : ResolvedOutput}
    (named : resolveOne nameTemplate wanted root baseVariables readEntry = .named output) :
    output.root = root := by
  unfold resolveOne at named
  simp only at named
  split at named
  · simp at named
  · split at named
    · simp at named
    · obtain rfl := Resolution.named.inj named
      rfl

variable {same : Str → PlanError} {mergeable : Str → Str → PlanError}
variable {claimed next : KeyedMap Str Str}

theorem collects_of_claimUppercase {text : Str}
    (accepted : claimUppercase same mergeable claimed text = .ok next) :
    Collects [uppercase text] claimed.keys next.keys := by
  unfold claimUppercase at accepted
  split at accepted
  next fresh =>
    obtain rfl := Except.ok.inj accepted
    rw [KeyedMap.keys_insert_fresh fresh]
    exact Collects.single (KeyedMap.notMem_keys_iff.mpr fresh)
  · split at accepted
    · simp at accepted
    · simp at accepted

theorem fresh_of_claimUppercase {text : Str}
    (accepted : claimUppercase same mergeable claimed text = .ok next) :
    uppercase text ∉ claimed.keys := by
  unfold claimUppercase at accepted
  split at accepted
  next fresh => exact KeyedMap.notMem_keys_iff.mpr fresh
  · split at accepted
    · simp at accepted
    · simp at accepted

theorem resolveOutputs_spec {layout : Layout} {entries : List ArchiveEntry}
    {resolved : ResolvedOutputs}
    (succeeded : resolveOutputs layout entries baseVariables readEntry = .ok resolved) :
    ∃ wanted roots, wantedKeys layout.fileVariables = .ok wanted ∧
      selectRoots layout.outputs entries = .ok roots ∧
      resolved.outputs = namedOutputs (fun root =>
        resolveOne layout.name wanted root baseVariables readEntry) roots ∧
      (resolved.outputs.map fun output => uppercase output.name).Nodup ∧
      (resolved.outputs.length > 1 → ∀ output ∈ resolved.outputs, output.name ≠ []) := by
  obtain ⟨wanted, checked, succeeded⟩ := bind_eq_ok.mp succeeded
  obtain ⟨roots, selected, succeeded⟩ := bind_eq_ok.mp succeeded
  refine ⟨wanted, roots, checked, selected, ?_⟩
  split at succeeded
  · simp at succeeded
  · simp only at succeeded
    split at succeeded
    · simp at succeeded
    next wrapped =>
      obtain ⟨_, looped, done⟩ := bind_eq_ok.mp succeeded
      obtain rfl := Except.ok.inj done
      refine ⟨rfl, ?_, ?_⟩
      · have collected :=
          Collects.foldlM_single AList.keys (fun output : ResolvedOutput => uppercase output.name)
            (fun _ => collects_of_claimUppercase) looped
        exact collected.nodup
      · intro several output mem empty
        apply wrapped
        refine ⟨several, any_eq_true.mpr ⟨output, mem, ?_⟩⟩
        simp [empty]

theorem namedOutputs_roots {nameTemplate : Str} (roots : List Str) :
    ((namedOutputs (fun root => resolveOne nameTemplate wanted root baseVariables readEntry)
      roots).map ResolvedOutput.root).Sublist roots := by
  induction roots with
  | nil => exact .slnil
  | cons root _ ih =>
    unfold namedOutputs at ih ⊢
    cases resolution : resolveOne nameTemplate wanted root baseVariables readEntry with
    | named =>
      simp only [filterMap_cons, resolution, map_cons, root_of_resolveOne resolution]
      exact ih.cons_cons root
    | unnameable =>
      simp only [filterMap_cons, resolution]
      exact ih.cons root

end

end OutputResolution

end Arclain
