import Mathlib.Algebra.Order.BigOperators.Group.List
import Mathlib.Algebra.Order.Group.Nat
import Arclain.ArchiveIndex
import Arclain.PluginManager

namespace Arclain.Plugins

/-!
# Limits on the settings of a plugin

A whole map is validated entry by entry, as the guest sets them.  What is
accepted does not depend on the order of the entries.
-/

open KeyedMap List Option AList Except

def maxSettingEntries : Nat := 128

def maxSettingKeyBytes : Nat := 128

def maxSettingValueBytes : Nat := 64 * 1024

def maxSettingTotalBytes : Nat := 1024 * 1024

abbrev SettingsMap := KeyedMap String String

inductive PluginSettingsValidationError where
  | tooManyEntries
  | keyTooLong
  | valueTooLong
  | totalTooLarge

def entryBytes (entry : Σ _ : String, String) : Nat :=
  entry.1.utf8ByteSize + entry.2.utf8ByteSize

def totalBytes (entries : List (Σ _ : String, String)) : Nat := (entries.map entryBytes).sum

section

variable (settings : SettingsMap)

def validateSettingEntry (key value : String) :
    Except PluginSettingsValidationError Unit :=
  if maxSettingKeyBytes < key.utf8ByteSize then .error .keyTooLong
  else if maxSettingValueBytes < value.utf8ByteSize then .error .valueTooLong
  else
    let oldEntryBytes := ((settings.lookup key).map fun old => entryBytes ⟨key, old⟩).getD 0
    if (settings.lookup key).isNone ∧ maxSettingEntries ≤ settings.entries.length then
      .error .tooManyEntries
    else
      let retainedBytes := totalBytes settings.entries
      let nextBytes := saturatingAdd
        (saturatingAdd (retainedBytes - oldEntryBytes) key.utf8ByteSize) value.utf8ByteSize
      if maxSettingTotalBytes < nextBytes then .error .totalTooLarge else .ok ()

def insertValidated (entry : Σ _ : String, String) :
    Except PluginSettingsValidationError SettingsMap := do
  validateSettingEntry settings entry.1 entry.2
  pure (settings.insert entry.1 entry.2)

/-- The entries in the order of their keys. -/
def byKey : List (Σ _ : String, String) :=
  settings.entries.insertionSort fun first second => first.1 ≤ second.1

def validatePluginSettings :
    Except PluginSettingsValidationError SettingsMap :=
  (byKey settings).foldlM insertValidated ∅

def insertBoundedSetting (key value : String) : Bool × SettingsMap :=
  match validateSettingEntry settings key value with
  | .error _ => (false, settings)
  | .ok () => (true, settings.insert key value)

def boundedInitialSettings : SettingsMap :=
  (byKey settings).foldl (fun bounded entry => (insertBoundedSetting bounded entry.1 entry.2).2) ∅

end

/-- The settings of a running guest; `dirty` tells the manager to read them again. -/
structure HostSettings where
  settings : SettingsMap
  dirty : Bool

def HostSettings.set (host : HostSettings) (key value : String) : HostSettings :=
  let (inserted, settings) := insertBoundedSetting host.settings key value
  if inserted then { settings := settings, dirty := true } else host

def HostSettings.run (host : HostSettings) (calls : List (String × String)) : HostSettings :=
  calls.foldl (fun host call => host.set call.1 call.2) host

structure InitialPluginSettings where
  originalId : String
  values : SettingsMap

def insertPersisted [Wirt] (normalized : KeyedMap PluginIdentityKey InitialPluginSettings)
    (entry : Σ _ : String, SettingsMap) :
    Except PluginError (KeyedMap PluginIdentityKey InitialPluginSettings) := do
  let key ← Wirt.parseIdentity entry.1
  if (normalized.lookup key).isSome then
    .error (.invalidManifest ("Duplicate persisted settings identity: " ++ entry.1))
  else pure (normalized.insert key ⟨entry.1, boundedInitialSettings entry.2⟩)

/-- The settings that `PluginManager::new` keeps for the plugins it will load. -/
def normalizedInitialSettings [Wirt] (persisted : KeyedMap String SettingsMap) :
    Except PluginError (KeyedMap PluginIdentityKey InitialPluginSettings) :=
  persisted.entries.foldlM insertPersisted ∅

structure WithinLimits (entries : List (Σ _ : String, String)) : Prop where
  count : entries.length ≤ maxSettingEntries
  keys : ∀ entry ∈ entries, entry.1.utf8ByteSize ≤ maxSettingKeyBytes
  values : ∀ entry ∈ entries, entry.2.utf8ByteSize ≤ maxSettingValueBytes
  total : totalBytes entries ≤ maxSettingTotalBytes

section

variable {settings validated : SettingsMap} {entries others : List (Σ _ : String, String)}

theorem WithinLimits.sublist (within : WithinLimits entries) (shorter : others.Sublist entries) :
    WithinLimits others where
  count := Nat.le_trans shorter.length_le within.count
  keys entry mem := within.keys entry (shorter.subset mem)
  values entry mem := within.values entry (shorter.subset mem)
  total := Nat.le_trans ((shorter.map entryBytes).sum_le_sum fun _ _ => Nat.zero_le _) within.total

theorem WithinLimits.perm (within : WithinLimits entries) (same : entries.Perm others) :
    WithinLimits others where
  count := same.length_eq ▸ within.count
  keys entry mem := within.keys entry (same.mem_iff.mpr mem)
  values entry mem := within.values entry (same.mem_iff.mpr mem)
  total := Nat.le_trans (Nat.le_of_eq (same.map entryBytes).sum_eq.symm) within.total

variable {entry : Σ _ : String, String}

theorem withinLimits_cons (within : WithinLimits entries) :
    WithinLimits (entry :: entries) ↔ entry.1.utf8ByteSize ≤ maxSettingKeyBytes ∧
      entry.2.utf8ByteSize ≤ maxSettingValueBytes ∧ entries.length < maxSettingEntries ∧
      totalBytes entries + entryBytes entry ≤ maxSettingTotalBytes := by
  constructor
  · intro whole
    have total := whole.total
    rw [totalBytes, map_cons, sum_cons, Nat.add_comm] at total
    exact ⟨whole.keys _ mem_cons_self, whole.values _ mem_cons_self, whole.count, total⟩
  · rintro ⟨key, value, count, total⟩
    refine ⟨count, forall_mem_cons.mpr ⟨key, within.keys⟩, forall_mem_cons.mpr
      ⟨value, within.values⟩, ?_⟩
    rw [totalBytes, map_cons, sum_cons, Nat.add_comm]
    exact total

theorem kerase_entries (settings : SettingsMap) (key : String) :
    (settings.entries.kerase key).length +
      (if (settings.lookup key).isSome then 1 else 0) = settings.entries.length ∧
      totalBytes (settings.entries.kerase key) +
        ((settings.lookup key).map fun old => entryBytes ⟨key, old⟩).getD 0 =
          totalBytes settings.entries := by
  cases bound : settings.lookup key with
  | none =>
    rw [kerase_of_notMem_keys (notMem_keys_iff.mpr bound)]
    exact ⟨rfl, rfl⟩
  | some old =>
    have listed := lookup_eq_some_iff_mem.mp bound
    obtain ⟨other, _, _, -, whole, rest⟩ := exists_of_kerase (mem_keys_of_mem listed)
    obtain rfl : other = old := by
      have found : settings.lookup key = some other :=
        lookup_eq_some_iff_mem.mpr (by simp [whole])
      exact some_inj.mp (found.symm.trans bound)
    rw [rest, whole]
    simp only [totalBytes, length_append, length_cons, map_append, map_cons, sum_append, sum_cons,
      isSome_some, if_true, map_some, getD_some]
    omega

section

variable (within : WithinLimits settings.entries)
include within

theorem validateSettingEntry_ok_iff (key value : String) :
    validateSettingEntry settings key value = .ok () ↔
      WithinLimits (settings.insert key value).entries := by
  obtain ⟨count, _⟩ := kerase_entries settings key
  rw [entries_insert, withinLimits_cons (within.sublist (kerase_sublist key _)),
    validateSettingEntry]
  have counted := within.count
  have bounded := within.total
  generalize ((settings.lookup key).map fun old => entryBytes ⟨key, old⟩).getD 0 = oldBytes at *
  have representable : maxSettingTotalBytes < 2 ^ 64 - 1 := by decide
  simp only [entryBytes]
  split
  next long => simp [long]
  next short =>
    split
    next long => simp [long]
    next shortValue =>
      have fits := Nat.le_of_not_lt short
      have fitsValue := Nat.le_of_not_lt shortValue
      simp only [fits, fitsValue, true_and]
      by_cases full : (settings.lookup key).isNone ∧ maxSettingEntries ≤ settings.entries.length
      · rw [if_pos full]
        refine iff_of_false nofun fun both => ?_
        rw [if_neg (by simp [isNone_iff_eq_none.mp full.1])] at count
        omega
      · have remains : (settings.entries.kerase key).length < maxSettingEntries := by
          cases bound : settings.lookup key with
          | none =>
            rw [bound] at full count
            simp at full count
            omega
          | some old =>
            rw [bound, isSome_some, if_pos rfl] at count
            omega
        rw [if_neg full]
        simp only [remains, true_and]
        split
        next exceeded =>
          simp only [saturatingAdd] at exceeded
          exact iff_of_false nofun (by omega)
        next fitting =>
          simp only [saturatingAdd] at fitting
          exact iff_of_true rfl (by omega)

theorem insertValidated_ok_iff (fresh : entry.1 ∉ settings.entries.keys) :
    insertValidated settings entry = .ok validated ↔ WithinLimits (entry :: settings.entries) ∧
      validated = settings.insert entry.1 entry.2 := by
  have inserted : (settings.insert entry.1 entry.2).entries = entry :: settings.entries :=
    entries_insert_of_notMem fresh
  have valid := validateSettingEntry_ok_iff within entry.1 entry.2
  rw [inserted] at valid
  rw [insertValidated, ← valid]
  cases validateSettingEntry settings entry.1 entry.2 with
  | error => exact iff_of_false nofun (fun both => nomatch both.1)
  | ok => exact ⟨fun same => ⟨rfl, (ok.inj same).symm⟩, fun both => congrArg _ both.2.symm⟩

theorem foldlM_insertValidated_ok_iff (distinct : (entries.reverse ++ settings.entries).NodupKeys) :
    entries.foldlM insertValidated settings = .ok validated ↔
      WithinLimits (entries.reverse ++ settings.entries) ∧
        validated.entries = entries.reverse ++ settings.entries := by
  induction entries generalizing settings with
  | nil =>
    exact ⟨fun same => ⟨within, congrArg entries (ok.inj same).symm⟩,
      fun both => congrArg ok (AList.ext both.2.symm)⟩
  | cons entry entries ih =>
    rw [reverse_cons, append_assoc, singleton_append] at distinct ⊢
    have rest : (entry :: settings.entries).NodupKeys :=
      distinct.sublist (sublist_append_right _ _)
    have fresh := (nodupKeys_cons.mp rest).1
    have inserted : (settings.insert entry.1 entry.2).entries = entry :: settings.entries :=
      entries_insert_of_notMem fresh
    rw [← inserted] at distinct ⊢
    rw [foldlM_cons]
    cases step : insertValidated settings entry with
    | error =>
      refine iff_of_false nofun fun both => ?_
      have shorter := both.1.sublist (sublist_append_right _ _)
      rw [inserted] at shorter
      cases step.symm.trans ((insertValidated_ok_iff within fresh).mpr ⟨shorter, rfl⟩)
    | ok =>
      obtain ⟨shorter, rfl⟩ := (insertValidated_ok_iff within fresh).mp step
      exact ih (inserted ▸ shorter) distinct

end

theorem foldl_of_foldlM (accepted : entries.foldlM insertValidated settings = .ok validated) :
    entries.foldl (fun bounded entry => (insertBoundedSetting bounded entry.1 entry.2).2) settings =
      validated := by
  induction entries generalizing settings with
  | nil => exact ok.inj accepted
  | cons entry entries ih =>
    rw [foldlM_cons, insertValidated] at accepted
    rw [foldl_cons, insertBoundedSetting]
    cases valid : validateSettingEntry settings entry.1 entry.2 with
    | error => rw [valid] at accepted; cases accepted
    | ok =>
      rw [valid] at accepted
      exact ih accepted

theorem withinLimits_nil : WithinLimits [] where
  count := Nat.zero_le _
  keys := nofun
  values := nofun
  total := Nat.zero_le _

theorem byKey_perm (settings : SettingsMap) : (byKey settings).Perm settings.entries :=
  perm_insertionSort _ _

theorem validatePluginSettings_ok_iff (settings : SettingsMap) :
    validatePluginSettings settings = .ok validated ↔ WithinLimits settings.entries ∧
      validated.entries = (byKey settings).reverse := by
  have whole := (reverse_perm (byKey settings)).trans (byKey_perm settings)
  have distinct : (byKey settings).reverse.NodupKeys :=
    (perm_nodupKeys whole).mpr settings.nodupKeys
  have folded := @foldlM_insertValidated_ok_iff ∅ validated (byKey settings) withinLimits_nil
    (by simpa using distinct)
  rw [empty_entries, append_nil] at folded
  rw [validatePluginSettings, folded]
  exact and_congr_left fun _ => ⟨(·.perm whole), (·.perm whole.symm)⟩

theorem boundedInitialSettings_perm (within : WithinLimits settings.entries) :
    (boundedInitialSettings settings).entries.Perm settings.entries := by
  have accepted := (@validatePluginSettings_ok_iff ⟨(byKey settings).reverse,
    (perm_nodupKeys ((reverse_perm _).trans (byKey_perm settings))).mpr settings.nodupKeys⟩
    settings).mpr ⟨within, rfl⟩
  rw [boundedInitialSettings, foldl_of_foldlM accepted]
  exact (reverse_perm _).trans (byKey_perm settings)

variable {host : HostSettings}

theorem HostSettings.set_withinLimits
    (within : WithinLimits host.settings.entries) (key value : String) :
    WithinLimits (host.set key value).settings.entries := by
  have valid := validateSettingEntry_ok_iff within key value
  rw [set, insertBoundedSetting]
  cases accepted : validateSettingEntry host.settings key value with
  | error => exact within
  | ok => exact valid.mp accepted

theorem HostSettings.run_withinLimits
    (within : WithinLimits host.settings.entries) (calls : List (String × String)) :
    WithinLimits (host.run calls).settings.entries := by
  induction calls generalizing host with
  | nil => exact within
  | cons call calls ih => exact ih (set_withinLimits within call.1 call.2)

theorem boundedInitialSettings_lookup (within : WithinLimits settings.entries) (key : String) :
    (boundedInitialSettings settings).lookup key = settings.lookup key :=
  perm_lookup (boundedInitialSettings_perm within)

theorem lookup_of_insertPersisted [Wirt] {persisted : List (Σ _ : String, SettingsMap)}
    {normalized initial : KeyedMap PluginIdentityKey InitialPluginSettings}
    (folded : persisted.foldlM insertPersisted normalized = .ok initial) :
    (∀ key entry, normalized.lookup key = some entry → initial.lookup key = some entry) ∧
      ∀ entry ∈ persisted, ∃ key, Wirt.parseIdentity entry.1 = .ok key ∧
        initial.lookup key = some ⟨entry.1, boundedInitialSettings entry.2⟩ := by
  induction persisted generalizing normalized with
  | nil =>
    obtain rfl := ok.inj folded
    exact ⟨fun _ _ => id, nofun⟩
  | cons first persisted ih =>
    rw [foldlM_cons, insertPersisted] at folded
    cases parsed : Wirt.parseIdentity first.1 with
    | error => rw [parsed] at folded; cases folded
    | ok identity =>
      rw [parsed] at folded
      change (if (normalized.lookup identity).isSome then _ else _ : Except PluginError _) >>=
        _ = _ at folded
      split at folded
      · cases folded
      next fresh =>
        obtain ⟨kept, restored⟩ := ih folded
        refine ⟨fun key entry found => kept key entry ?_, forall_mem_cons.mpr
          ⟨⟨identity, parsed, kept identity _ (lookup_insert normalized)⟩, restored⟩⟩
        rw [lookup_insert_ite, if_neg]
        · exact found
        · rintro rfl
          rw [found] at fresh
          exact fresh rfl

/-- What is accepted stays accepted under the guest's calls, and is restored as it
was persisted. -/
theorem accepted_settings_restored [Wirt] (settings : SettingsMap) :
    ((∃ validated, validatePluginSettings settings = .ok validated) ↔
      WithinLimits settings.entries) ∧
    (WithinLimits settings.entries →
      (∀ dirty calls, WithinLimits (HostSettings.run ⟨settings, dirty⟩ calls).settings.entries) ∧
      (∀ key, (boundedInitialSettings settings).lookup key = settings.lookup key) ∧
      ∀ persisted initial id, normalizedInitialSettings persisted = .ok initial →
        persisted.lookup id = some settings → ∃ key entry, Wirt.parseIdentity id = .ok key ∧
          initial.lookup key = some entry ∧ entry.originalId = id ∧
            ∀ name, (boundedInitialSettings entry.values).lookup name = settings.lookup name) := by
  constructor
  · constructor
    · rintro ⟨validated, accepted⟩
      exact ((validatePluginSettings_ok_iff settings).mp accepted).1
    · intro within
      exact ⟨⟨(byKey settings).reverse, (perm_nodupKeys ((reverse_perm _).trans
        (byKey_perm settings))).mpr settings.nodupKeys⟩,
        (validatePluginSettings_ok_iff settings).mpr ⟨within, rfl⟩⟩
  · intro within
    refine ⟨fun _ => HostSettings.run_withinLimits within, boundedInitialSettings_lookup within, ?_⟩
    intro persisted initial id normalized found
    obtain ⟨key, parsed, restored⟩ := (lookup_of_insertPersisted normalized).2 _
      (lookup_eq_some_iff_mem.mp found)
    refine ⟨key, _, parsed, restored, rfl, fun name => ?_⟩
    rw [boundedInitialSettings_lookup (within.perm (boundedInitialSettings_perm within).symm),
      boundedInitialSettings_lookup within]

end

/-- Two settings of a plugin. -/
def savedSettings : SettingsMap := (∅ : SettingsMap).insert "lang" "ja" |>.insert "token" ""

/-- Both settings are restored from what was persisted under the id of the plugin. -/
theorem saved_settings_restored : ∃ key entry,
    sampleWirt.parseIdentity "ui-demo" = .ok key ∧
      (@normalizedInitialSettings sampleWirt (.insert "ui-demo" savedSettings ∅)).toOption.bind
        (·.lookup key) = some entry ∧ entry.originalId = "ui-demo" ∧
      ∀ name, (boundedInitialSettings entry.values).lookup name = savedSettings.lookup name := by
  have within : WithinLimits savedSettings.entries :=
    ⟨by decide, by decide, by decide, by decide⟩
  obtain ⟨key, entry, parsed, found, restored⟩ :=
    ((@accepted_settings_restored sampleWirt savedSettings).2 within).2.2
      (.insert "ui-demo" savedSettings ∅) _ "ui-demo" rfl rfl
  exact ⟨key, entry, parsed, found, restored⟩

end Arclain.Plugins
