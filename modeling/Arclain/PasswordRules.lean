import Arclain.UnixPath
import Arclain.VaultStore

namespace Arclain.Vault

/-!
# Which password rule is tried

The settings operations edit the rules in the order they have, and write them to the
vault in that order.  A reload sorts them also by name.
-/

open List Text PassRule

section

variable {α : Type} {before : α → α → Bool} {test : α → Bool} {list : List α} {first : α}

/-- The element that a stable sort puts in front. -/
def Foremost (before : α → α → Bool) (list : List α) (first : α) : Prop :=
  ∃ earlier later, list = earlier ++ first :: later ∧
    (∀ other ∈ earlier, before other first = false) ∧ ∀ other ∈ later, before first other = true

theorem foremost_cons {head : α} : Foremost before (head :: list) first ↔
    (head = first ∧ ∀ other ∈ list, before first other = true) ∨
      before head first = false ∧ Foremost before list first := by
  constructor
  · rintro ⟨earlier, later, split, ahead, behind⟩
    cases earlier with
    | nil =>
      obtain ⟨rfl, rfl⟩ := List.cons.inj split
      exact .inl ⟨rfl, behind⟩
    | cons other earlier =>
      obtain ⟨rfl, rfl⟩ := List.cons.inj split
      obtain ⟨here, ahead⟩ := forall_mem_cons.mp ahead
      exact .inr ⟨here, earlier, later, rfl, ahead, behind⟩
  · rintro (⟨rfl, behind⟩ | ⟨here, earlier, later, rfl, ahead, behind⟩)
    · exact ⟨[], list, rfl, nofun, behind⟩
    · exact ⟨head :: earlier, later, rfl, forall_mem_cons.mpr ⟨here, ahead⟩, behind⟩

theorem Foremost.mem (foremost : Foremost before list first) : first ∈ list := by
  obtain ⟨_, _, rfl, -⟩ := foremost
  exact mem_append_right _ mem_cons_self

theorem find_mergeSort_iff (trans : ∀ first second third, before first second = true →
    before second third = true → before first third = true)
    (total : ∀ first second, (before first second || before second first) = true) :
    (list.mergeSort before).find? test = some first ↔ Foremost before (list.filter test) first := by
  induction list generalizing first with
  | nil => simp [Foremost]
  | cons head list ih =>
    obtain ⟨left, right, sorted, without, behind⟩ := mergeSort_cons trans total head list
    have ordered := pairwise_mergeSort trans total (head :: list)
    rw [sorted] at ordered ⊢
    simp only [without, find?_append] at ih
    rw [find?_append, find?_cons]
    by_cases passes : test head
    · rw [filter_cons_of_pos passes, foremost_cons, passes, ← ih]
      cases found : left.find? test with
      | some other =>
        have strictly := behind other (mem_of_find?_eq_some found)
        have listed := (ih.mp (by rw [found]; rfl)).mem
        simp only [Bool.not_eq_true'] at strictly
        simp only [Option.some_or, Option.some.injEq]
        constructor
        · rintro rfl
          exact .inr ⟨strictly, rfl⟩
        · rintro (⟨rfl, all⟩ | ⟨-, same⟩)
          · exact absurd (all other listed) (by simp [strictly])
          · exact same
      | none =>
        have least : ∀ other ∈ list.filter test, before head other = true := by
          intro other mem
          obtain ⟨mem, holds⟩ := mem_filter.mp mem
          have inSorted : other ∈ left ++ right :=
            without ▸ mem_mergeSort.mpr mem
          rcases mem_append.mp inSorted with inLeft | inRight
          · exact absurd holds (find?_eq_none.mp found other inLeft)
          · exact rel_of_pairwise_cons (pairwise_append.mp ordered).2.1 inRight
        simp only [Option.none_or, Option.some.injEq]
        constructor
        · rintro rfl
          exact .inl ⟨rfl, least⟩
        · rintro (⟨rfl, -⟩ | ⟨strictly, same⟩)
          · rfl
          · rw [← Option.none_or (o := right.find? test), ← found, ih] at same
            exact absurd (least first same.mem) (by simp [strictly])
    · rw [filter_cons_of_neg passes, ← ih]
      simp [passes]

theorem find_mergeSort_eq_none_iff :
    (list.mergeSort before).find? test = none ↔ list.filter test = [] := by
  simp [find?_eq_none]

end

/-! ## The rules and their operations -/

/-- `Regex::new`: nothing stands for a pattern that is refused. -/
abbrev Regex := Str → Option (Str → Bool)

def byPriority (first second : PassRule) : Bool := second.priority ≤ first.priority

def PassRule.matches (regex : Regex) (archivePath : Option Str) (filenames : List Str)
    (rule : PassRule) : Bool :=
  match regex rule.pattern with
  | none => false
  | some isMatch =>
    (match archivePath with
      | none => false
      | some archive => isMatch ((UnixPath.fileName archive).getD archive)) ||
    filenames.any isMatch

def autoPasswordFor (regex : Regex) (rules : List PassRule) (archivePath : Option Str)
    (filenames : List Str) : Option Str :=
  let sortedRules := (rules.filter enabled).mergeSort byPriority
  (sortedRules.find? (PassRule.matches regex archivePath filenames)).map PassRule.password

inductive RuleError where
  | emptyName
  | emptyPattern
  | invalidPattern
  | nameNotUnique
  | originalNameNotFound
  | originalNameNotUnique
  | passwordRequired
  | ruleNotFound

structure PasswordRuleInput where
  originalName : Option Str
  name : Str
  pattern : Str
  priority : UInt32
  enabled : Bool
  password : Option Str

def PasswordRuleInput.rule (input : PasswordRuleInput) (password : Str) : PassRule :=
  ⟨input.name, input.pattern, password, input.priority, input.enabled⟩

def validatePasswordRuleFields (regex : Regex) (name pattern : Str) : Except RuleError Unit :=
  if trim name = [] then .error .emptyName
  else if trim pattern = [] then .error .emptyPattern
  else if regex pattern = none then .error .invalidPattern
  else .ok ()

/-- `run_upsert_password_rule` up to the write, which has no original name. -/
def upsertPasswordRule (regex : Regex) (input : PasswordRuleInput) (rules : List PassRule) :
    Except RuleError (List PassRule) := do
  validatePasswordRuleFields regex input.name input.pattern
  match rules.findIdx? (·.name = input.name), input.password with
  | none, none => .error .passwordRequired
  | none, some password => .ok (rules ++ [input.rule password])
  | some index, password =>
    let kept := (rules[index]?.map PassRule.password).getD []
    .ok (rules.set index (input.rule (password.getD kept)))

/-- The loop of `validate_password_rule_edit_inputs`. -/
def validateEdits (regex : Regex) (existing : List Str) :
    List PasswordRuleInput → List Str → List Str → Except RuleError Unit
  | [], _, _ => .ok ()
  | edit :: edits, names, originals => do
    validatePasswordRuleFields regex edit.name edit.pattern
    if edit.name ∈ names then .error .nameNotUnique
    else
      match edit.originalName with
      | some original =>
        if original ∉ existing then .error .originalNameNotFound
        else if original ∈ originals then .error .originalNameNotUnique
        else validateEdits regex existing edits (edit.name :: names) (original :: originals)
      | none =>
        if edit.password = none then .error .passwordRequired
        else validateEdits regex existing edits (edit.name :: names) originals

def replacePasswordRules (regex : Regex) (edits : List PasswordRuleInput)
    (rules : List PassRule) : Except RuleError (List PassRule) := do
  validateEdits regex (rules.map name) edits [] []
  edits.mapM fun edit =>
    match edit.password, edit.originalName with
    | some password, _ => .ok (edit.rule password)
    | none, none => .error .passwordRequired
    | none, some original =>
      match rules.reverse.find? (·.name = original) with
      | none => .error .originalNameNotFound
      | some existing => .ok (edit.rule existing.password)

def deletePasswordRule (name : Str) (rules : List PassRule) : Except RuleError (List PassRule) :=
  match rules.findIdx? (·.name = name) with
  | none => .error .ruleNotFound
  | some index => .ok (rules.eraseIdx index)

inductive RuleOperation where
  | upsert (input : PasswordRuleInput)
  | replace (edits : List PasswordRuleInput)
  | delete (name : Str)

def RuleOperation.edit (regex : Regex) : RuleOperation → List PassRule →
    Except RuleError (List PassRule)
  | .upsert input => upsertPasswordRule regex input
  | .replace edits => replacePasswordRules regex edits
  | .delete name => deletePasswordRule name

section

variable {Key Sealed : Type}

/-- The rules in memory, and the tables of the vault. -/
structure LiveRules (Sealed : Type) where
  passRules : List PassRule
  vault : Tables Sealed

/-- An operation; without a number to draw from, its write fails. -/
def LiveRules.step (cipher : Cipher Key Sealed) (key : Key) (regex : Regex)
    (live : LiveRules Sealed) (call : RuleOperation × Option Nat) : LiveRules Sealed :=
  match call.1.edit regex live.passRules, call.2 with
  | .ok rules, some drawn => ⟨rules, live.vault.replaceAllPassRules cipher key drawn rules⟩
  | _, _ => live

def LiveRules.run (cipher : Cipher Key Sealed) (key : Key) (regex : Regex)
    (live : LiveRules Sealed) (calls : List (RuleOperation × Option Nat)) : LiveRules Sealed :=
  calls.foldl (LiveRules.step cipher key regex) live

variable {cipher : Cipher Key Sealed} {key : Key} {regex : Regex} {live : LiveRules Sealed}

theorem LiveRules.run_reloads (loaded : live.vault.listPassRules cipher key = some live.passRules)
    (calls : List (RuleOperation × Option Nat)) :
    (live.run cipher key regex calls).vault.listPassRules cipher key =
      some (sort (live.run cipher key regex calls).passRules) := by
  suffices ∀ live : LiveRules Sealed,
      live.vault.listPassRules cipher key = some (sort live.passRules) →
      (live.run cipher key regex calls).vault.listPassRules cipher key =
        some (sort (live.run cipher key regex calls).passRules) by
    obtain ⟨_, -, sorted⟩ := Option.map_eq_some_iff.mp loaded
    refine this live (loaded.trans ?_)
    rw [← sorted, sort_sort]
  induction calls with
  | nil => exact fun _ => id
  | cons _ calls ih =>
    refine fun live reloads => ih _ ?_
    rw [step]
    split
    · rw [Tables.listPassRules, Tables.replaceAllPassRules, mapM_sealRules, Option.map_some]
    · exact reloads

section

variable (regex : Regex) (archivePath : Option Str) (filenames : List Str) (rules : List PassRule)

/-- The enabled rules that match. -/
def candidates : List PassRule :=
  (rules.filter PassRule.enabled).filter (PassRule.matches regex archivePath filenames)

/-- Of the matching rules of the highest priority, the first in the list and the one of the
least name have the same password. -/
def TiesAgree : Prop :=
  ∀ seen named, Foremost byPriority (candidates regex archivePath filenames rules) seen →
    Foremost notAfter (candidates regex archivePath filenames rules) named →
    seen.password = named.password

end

theorem byPriority_trans (first second third : PassRule) (earlier : byPriority first second = true)
    (later : byPriority second third = true) : byPriority first third = true := by
  rw [byPriority, decide_eq_true_eq] at earlier later ⊢
  exact UInt32.le_trans later earlier

theorem byPriority_total (first second : PassRule) :
    (byPriority first second || byPriority second first) = true := by
  simp only [byPriority, Bool.or_eq_true, decide_eq_true_eq]
  exact UInt32.le_total second.priority first.priority

theorem byPriority_of_notAfter {first second : PassRule}
    (ordered : notAfter first second = true) : byPriority first second = true := by
  rw [byPriority, decide_eq_true_eq]
  rcases notAfter_iff.mp ordered with higher | ⟨same, -⟩
  · exact UInt32.le_of_lt higher
  · exact UInt32.le_of_eq same.symm

theorem autoPasswordFor_sort_iff (regex : Regex) (archivePath : Option Str) (filenames : List Str)
    (rules : List PassRule) : autoPasswordFor regex rules archivePath filenames =
      autoPasswordFor regex (sort rules) archivePath filenames ↔
    TiesAgree regex archivePath filenames rules := by
  have live (rule : PassRule) : ((rules.filter PassRule.enabled).mergeSort byPriority).find?
      (PassRule.matches regex archivePath filenames) = some rule ↔
        Foremost byPriority (candidates regex archivePath filenames rules) rule :=
    find_mergeSort_iff byPriority_trans byPriority_total
  have noLive : ((rules.filter PassRule.enabled).mergeSort byPriority).find?
      (PassRule.matches regex archivePath filenames) = none ↔
        candidates regex archivePath filenames rules = [] :=
    find_mergeSort_eq_none_iff
  have both : rules.filter (fun rule => rule.enabled &&
      rule.matches regex archivePath filenames) = candidates regex archivePath filenames rules := by
    rw [candidates, filter_filter]
    exact filter_congr fun _ _ => Bool.and_comm _ _
  let applies : PassRule → Bool :=
    fun rule => rule.enabled && rule.matches regex archivePath filenames
  have reloaded (rule : PassRule) := @find_mergeSort_iff _ notAfter applies rules rule
    notAfter_trans notAfter_total
  have noReloaded := @find_mergeSort_eq_none_iff _ notAfter applies rules
  have sorted : ((sort rules).filter enabled).mergeSort byPriority =
      (sort rules).filter enabled := by
    refine mergeSort_of_pairwise (Pairwise.filter _ ?_)
    exact (pairwise_mergeSort notAfter_trans notAfter_total rules).imp
      byPriority_of_notAfter
  have merged : ((PassRule.sort rules).filter PassRule.enabled).find?
      (PassRule.matches regex archivePath filenames) = (rules.mergeSort PassRule.notAfter).find?
        (fun rule => rule.enabled && rule.matches regex archivePath filenames) := by
    rw [find?_filter]
    exact congrArg (find? · _) (funext fun _ => by simp)
  rw [both] at reloaded noReloaded
  simp only [autoPasswordFor, sorted, merged]
  unfold TiesAgree
  simp only [← live, ← reloaded]
  generalize ((rules.filter enabled).mergeSort byPriority).find? _ = seen at noLive ⊢
  generalize (rules.mergeSort notAfter).find? _ = named at noReloaded ⊢
  cases seen with
  | none =>
    rw [noReloaded.mpr (noLive.mp rfl)]
    simp
  | some =>
    cases named with
    | none => cases noLive.mpr (noReloaded.mp rfl)
    | some => simp

/-- A restart changes the password that is tried exactly where the ties disagree. -/
theorem LiveRules.run_auto_password_iff
    (loaded : live.vault.listPassRules cipher key = some live.passRules)
    (calls : List (RuleOperation × Option Nat)) (archivePath : Option Str) (filenames : List Str) :
    ((live.run cipher key regex calls).vault.listPassRules cipher key).map (fun reloaded =>
      autoPasswordFor regex reloaded archivePath filenames) =
        some (autoPasswordFor regex (live.run cipher key regex calls).passRules archivePath
          filenames) ↔
    TiesAgree regex archivePath filenames (live.run cipher key regex calls).passRules := by
  rw [run_reloads loaded, Option.map_some, Option.some_inj, eq_comm]
  exact autoPasswordFor_sort_iff regex archivePath filenames _

end

/-- A cipher that leaves the text as it is. -/
def bareCipher : Cipher Unit Str where
  encrypt _ _ text := text
  decrypt _ sealed := some sealed
  decrypt_encrypt _ _ _ := rfl

/-- The upsert of a rule for every archive, with its name for a password. -/
def upsertNamed (name : Str) : RuleOperation × Option Nat :=
  (.upsert ⟨none, name, "^".toList, 0, true, some name⟩, some 0)

def newLiveRules : LiveRules Str := ⟨[], .blank⟩

theorem newLiveRules_loaded :
    newLiveRules.vault.listPassRules bareCipher () = some newLiveRules.passRules := by
  simp [newLiveRules, Tables.listPassRules, Tables.blank, sort]

def runNamed (names : List Str) : LiveRules Str :=
  newLiveRules.run bareCipher () (fun _ => some fun _ => true) (names.map upsertNamed)

/-- Two rules with one priority, the second the first by name, and one password. -/
def runTied : LiveRules Str :=
  newLiveRules.run bareCipher () (fun _ => some fun _ => true)
    ([['b'], ['a']].map fun name => (.upsert ⟨none, name, "^".toList, 0, true, some ['p']⟩, some 0))

/-- A restart changes which of the two rules is tried, not the password. -/
theorem tied_rules_keep_password : (runTied.vault.listPassRules bareCipher ()).map
    (fun reloaded => autoPasswordFor (fun _ => some fun _ => true) reloaded (some ['x']) []) =
      some (autoPasswordFor (fun _ => some fun _ => true) runTied.passRules (some ['x']) []) := by
  refine (LiveRules.run_auto_password_iff newLiveRules_loaded _ _ _).mpr ?_
  intro _ _ first second
  have passwords : ∀ rule ∈ candidates (fun _ => some fun _ => true) (some ['x']) []
      runTied.passRules, rule.password = ['p'] := by
    decide
  exact (passwords _ first.mem).trans (passwords _ second.mem).symm

/-- Of two rules with one priority the first is tried, and after a restart the other. -/
theorem tied_rules_change : ¬ ∀ names,
    ((runNamed names).vault.listPassRules bareCipher ()).map (fun reloaded =>
      autoPasswordFor (fun _ => some fun _ => true) reloaded (some ['x']) []) =
        some (autoPasswordFor (fun _ => some fun _ => true) (runNamed names).passRules
          (some ['x']) []) := by
  intro all
  have same := all [['b'], ['a']]
  rw [runNamed, LiveRules.run_reloads newLiveRules_loaded, Option.map_some, Option.some_inj,
    eq_comm, autoPasswordFor_sort_iff] at same
  have listed : candidates (fun _ => some fun _ => true) (some ['x']) []
      (runNamed [['b'], ['a']]).passRules =
        [⟨['b'], "^".toList, ['b'], 0, true⟩, ⟨['a'], "^".toList, ['a'], 0, true⟩] := by
    decide
  have passwords := same ⟨['b'], "^".toList, ['b'], 0, true⟩ ⟨['a'], "^".toList, ['a'], 0, true⟩
    (listed ▸ ⟨[], [_], rfl, nofun, by decide⟩) (listed ▸ ⟨[_], [], rfl, by decide, nofun⟩)
  exact absurd passwords (by decide)

end Arclain.Vault
