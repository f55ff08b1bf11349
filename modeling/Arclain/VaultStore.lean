import Arclain.KeyedMap
import Arclain.TextFormat

namespace Arclain.Vault

/-!
# The vault and the files it stands among

A vault file holds two tables: the password rules, in the order of their numbers,
and the named secrets.  Every entry is sealed with the key.

A path is a name of a file, and two paths may name the same file.  A SQLite
database and its side files count as one file here.
-/

open List Text Option TextFormat

/-- AES-256-GCM.  The drawn number stands for the random nonce. -/
structure Cipher (Key Sealed : Type) where
  encrypt : Key → Nat → Str → Sealed
  decrypt : Key → Sealed → Option Str
  decrypt_encrypt : ∀ key drawn text, decrypt key (encrypt key drawn text) = some text

/-- `PassRule`, with the fields of its stored payload. -/
structure PassRule where
  name : Str
  pattern : Str
  password : Str
  priority : UInt32
  enabled : Bool
  deriving DecidableEq

namespace PassRule

/-- The text of a `RulePayload`, as its derived `Serialize` writes it. -/
def format : TextFormat.Format PassRule :=
  ((string.after "\x7b\"name\":".toList).seq
    ((string.after ",\"pattern\":".toList).seq
      ((string.after ",\"password\":".toList).seq
        ((uint32AndComma.after ",\"priority\":".toList).seq
          ((TextFormat.bool.after "\"enabled\":".toList).followedBy "\x7d".toList))))).convert
    (fun (name, pattern, password, priority, enabled) =>
      ⟨name, pattern, password, priority, enabled⟩)
    (fun rule => (rule.name, rule.pattern, rule.password, rule.priority, rule.enabled))
    (fun _ => rfl)

/-- Rules come by priority, the highest first, and then by name. -/
def notAfter (first second : PassRule) : Bool :=
  decide (second.priority < first.priority) ||
    (first.priority == second.priority && decide (first.name ≤ second.name))

/-- The stable sort of `list_pass_rules`. -/
def sort (rules : List PassRule) : List PassRule := rules.mergeSort notAfter

theorem notAfter_iff {first second : PassRule} : notAfter first second = true ↔
    second.priority < first.priority ∨
      first.priority = second.priority ∧ first.name ≤ second.name := by
  simp [notAfter]

theorem notAfter_trans (first second third : PassRule) (earlier : notAfter first second = true)
    (later : notAfter second third = true) : notAfter first third = true := by
  rw [notAfter_iff] at earlier later ⊢
  rcases earlier with higher | ⟨same, named⟩
  · rcases later with stillHigher | ⟨same, _⟩
    · exact .inl (UInt32.lt_trans stillHigher higher)
    · exact .inl (same ▸ higher)
  · rcases later with higher | ⟨stillSame, stillNamed⟩
    · exact .inl (same ▸ higher)
    · exact .inr ⟨same.trans stillSame, le_trans named stillNamed⟩

theorem notAfter_total (first second : PassRule) :
    (notAfter first second || notAfter second first) = true := by
  rw [Bool.or_eq_true, notAfter_iff, notAfter_iff]
  rcases Nat.lt_trichotomy first.priority.toNat second.priority.toNat with
    lower | sameNumber | higher
  · exact .inr (.inl lower)
  · have same := UInt32.toNat_inj.mp sameNumber
    rcases le_total first.name second.name with named | named
    · exact .inl (.inr ⟨same, named⟩)
    · exact .inr (.inr ⟨same.symm, named⟩)
  · exact .inl (.inl higher)

theorem sort_sort (rules : List PassRule) : sort (sort rules) = sort rules :=
  mergeSort_of_pairwise (pairwise_mergeSort notAfter_trans notAfter_total rules)

end PassRule

section

variable {Key Sealed : Type}

structure Tables (Sealed : Type) where
  passRules : List Sealed
  metadata : KeyedMap Str Sealed

/-- The tables of a vault that was just created. -/
def Tables.blank : Tables Sealed where
  passRules := []
  metadata := ∅

def readRule (cipher : Cipher Key Sealed) (key : Key) (entry : Sealed) : Option PassRule :=
  (cipher.decrypt key entry).bind PassRule.format.readAll

/-- `list_pass_rules`; nothing stands for an error. -/
def Tables.listPassRules (tables : Tables Sealed) (cipher : Cipher Key Sealed)
    (key : Key) : Option (List PassRule) :=
  (tables.passRules.mapM (readRule cipher key)).map PassRule.sort

/-- `get_secret`; nothing stands for an error. -/
def Tables.getSecret (tables : Tables Sealed) (cipher : Cipher Key Sealed) (key : Key)
    (name : Str) : Option (Option Str) :=
  match tables.metadata.lookup name with
  | some entry => (cipher.decrypt key entry).map some
  | none => some none

/-- The entries that `replace_all_pass_rules` writes. -/
def sealRules (cipher : Cipher Key Sealed) (key : Key) (drawn : Nat)
    (rules : List PassRule) : List Sealed :=
  rules.mapIdx fun index rule => cipher.encrypt key (drawn + index) (PassRule.format.write rule)

def Tables.replaceAllPassRules (tables : Tables Sealed) (cipher : Cipher Key Sealed) (key : Key)
    (drawn : Nat) (rules : List PassRule) : Tables Sealed :=
  { tables with passRules := sealRules cipher key drawn rules }

theorem mapM_sealRules (cipher : Cipher Key Sealed) (key : Key) (drawn : Nat)
    (rules : List PassRule) :
    (sealRules cipher key drawn rules).mapM (readRule cipher key) = some rules := by
  induction rules generalizing drawn with
  | nil => rfl
  | cons rule rest ih =>
    have later := ih (drawn + 1)
    have shifted : sealRules cipher key (drawn + 1) rest = rest.mapIdx fun index rule =>
      cipher.encrypt key (drawn + (index + 1)) (PassRule.format.write rule) := by
      unfold sealRules
      congr 1
      funext index rule
      congr 1
      omega
    rw [shifted] at later
    rw [sealRules, mapIdx_cons, mapM_cons, later]
    simp [readRule, cipher.decrypt_encrypt]

theorem listPassRules_replaceAllPassRules {cipher : Cipher Key Sealed} {oldKey newKey : Key}
    {old tables : Tables Sealed} {rules : List PassRule} {drawn : Nat}
    (listed : old.listPassRules cipher oldKey = some rules) :
    (tables.replaceAllPassRules cipher newKey drawn rules).listPassRules cipher newKey =
      some rules := by
  obtain ⟨_, _, rfl⟩ := map_eq_some_iff.mp listed
  unfold Tables.listPassRules Tables.replaceAllPassRules
  rw [mapM_sealRules, map_some, PassRule.sort_sort]

end

end Arclain.Vault
