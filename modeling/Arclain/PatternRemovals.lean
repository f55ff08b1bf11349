import Arclain.KeySlices
import Arclain.ReferencedBlobs

namespace Arclain.Cache

/-!
# Removal by pattern

The pattern of a caller is put behind the prefix of its owner, and the index compares the
whole text with `LIKE`.  A star stands for any text also where it is part of a plugin's id,
and the case of ASCII letters is not told apart, neither in the pattern nor in the prefix.
-/

open List Option FaultyCalls Text TextFormat Bool CacheOwner Char ContentCache Faulty

theorem eq_append_of_readLiteral {literal text rest : Str}
    (read : Format.readLiteral literal text = some rest) : text = literal ++ rest := by
  induction literal generalizing text with
  | nil =>
    cases text with
    | nil | cons _ text =>
      cases read
      rfl
  | cons _ literal ih =>
    cases text with
    | nil => cases read
    | cons _ text =>
      rw [Format.readLiteral] at read
      split at read
      next same => rw [same, ih read, cons_append]
      · cases read

theorem eq_append_of_splitOnce {separator : Char} {text before after : Str}
    (split : splitOnce separator text = some (before, after)) :
    text = before ++ separator :: after ∧ separator ∉ before := by
  unfold splitOnce at split
  split at split
  next mem =>
    obtain ⟨_, second, rfl, absent⟩ := eq_append_cons_of_mem mem
    have known := splitOnce_append absent second
    rw [splitOnce, if_pos mem] at known
    rw [known] at split
    cases split
    exact ⟨rfl, absent⟩
  · cases split

/-- A character is told apart from every other, also by `LIKE`. -/
def Caseless (char : Char) : Prop := ∀ other : Char, other.toLower = char.toLower → other = char

theorem eq_of_caseless {text literal : Str} (caseless : ∀ char ∈ literal, Caseless char)
    (alike : text.map toLower = literal.map toLower) : text = literal := by
  induction literal generalizing text with
  | nil => exact map_eq_nil_iff.mp alike
  | cons char literal ih =>
    cases text with
    | nil => cases alike
    | cons other text =>
      rw [map_cons, map_cons, cons.injEq] at alike
      have rest := ih (fun later mem => caseless later (mem_cons_of_mem _ mem)) alike.2
      rw [caseless char mem_cons_self other alike.1, rest]

section

theorem likeMatches_append {literal : Str} (noStar : '*' ∉ literal) (pattern key : Str) :
    likeMatches (literal ++ pattern) key = true ↔ ∃ head rest, key = head ++ rest ∧
      head.map toLower = literal.map toLower ∧ likeMatches pattern rest = true := by
  induction literal generalizing key with
  | nil =>
    constructor
    · intro isMatch
      exact ⟨[], key, rfl, rfl, isMatch⟩
    · rintro ⟨head, rest, rfl, alike, isMatch⟩
      obtain rfl := map_eq_nil_iff.mp alike
      exact isMatch
  | cons char literal ih =>
    have notStar : char ≠ '*' := fun same => noStar (same ▸ mem_cons_self)
    have tailFree : '*' ∉ literal := fun mem => noStar (mem_cons_of_mem _ mem)
    cases key with
    | nil => simp [likeMatches]
    | cons other key =>
      have step : likeMatches (char :: literal ++ pattern) (other :: key) =
          (char.toLower = other.toLower && likeMatches (literal ++ pattern) key) := by
        rw [cons_append, likeMatches]
        exact notStar
      rw [step, and_eq_true, decide_eq_true_eq, ih tailFree]
      constructor
      · rintro ⟨same, head, rest, rfl, alike, isMatch⟩
        exact ⟨other :: head, rest, rfl, by simp [same, alike], isMatch⟩
      · rintro ⟨head, rest, parts, alike, isMatch⟩
        cases head with
        | nil => cases alike
        | cons _ head =>
          cases parts
          rw [map_cons, map_cons, cons.injEq] at alike
          exact ⟨alike.1.symm, head, rest, rfl, alike.2, isMatch⟩

theorem caseless_of_lt {char : Char} (below : char.toNat < 65) : Caseless char := by
  intro _ same
  have numbers := congrArg Char.toNat same
  rw [toNat_toLower, toNat_toLower, if_neg (show ¬ (65 ≤ char.toNat ∧ _) by omega)] at numbers
  split at numbers
  · omega
  · exact toNat_inj.mp numbers

theorem caseless_length {number : Nat} {char : Char} (mem : char ∈ decimal number ++ [':']) :
    Caseless char := by
  refine caseless_of_lt ?_
  rcases mem_append.mp mem with digit | colon
  · have isDigit : char.isDigit = true := Nat.isDigit_of_mem_toDigits (by decide) (by decide) digit
    have bounds := isDigit_iff_toNat.mp isDigit
    have nine : '9'.toNat = 57 := rfl
    omega
  · obtain rfl := mem_singleton.mp colon
    decide

def deletes (owner : CacheOwner) (pattern key : Str) : Bool :=
  likeMatches (owner.scopedKey pattern) key || decide (owner = .host) && likeMatches pattern key

/-- A row taken from another owner: a plugin's by the host's bare pattern, or one that
matches only by the rules of `LIKE`. -/
def Strays (owner : CacheOwner) (pattern key : Str) : Prop :=
  match owner with
  | .host =>
    likeMatches pattern key = true ∧ ∃ id rawKey, parseScopedKey key = some (.plugin id, rawKey)
  | .plugin id =>
    likeMatches ((plugin id).scopedKey pattern) key = true ∧
      ¬ (plugin id).scopedKey [] <+: key

variable {id : PluginId}

theorem shape_of_parseScopedKey {key rawKey : Str}
    (parsed : parseScopedKey key = some (.plugin id, rawKey)) :
    ∃ length, ':' ∉ length ∧ key = scopedKeyPrefix ++ ("p:".toList ++
      (length ++ (':' :: (id.1 ++ (':' :: rawKey))))) := by
  unfold parseScopedKey at parsed
  obtain ⟨_, inPrefix, parsed⟩ := bind_eq_some_iff.mp parsed
  split at parsed
  · cases parsed
  · unfold parsePluginKey at parsed
    obtain ⟨_, isPlugin, parsed⟩ := bind_eq_some_iff.mp parsed
    obtain ⟨⟨length, _⟩, split, parsed⟩ := bind_eq_some_iff.mp parsed
    obtain ⟨_, _, parsed⟩ := bind_eq_some_iff.mp parsed
    obtain ⟨⟨_, _⟩, parts, parsed⟩ := bind_eq_some_iff.mp parsed
    obtain ⟨_, isColon, parsed⟩ := bind_eq_some_iff.mp parsed
    split at parsed
    · cases parsed
      obtain ⟨lengthParts, absent⟩ := eq_append_of_splitOnce split
      refine ⟨length, absent, ?_⟩
      rw [eq_append_of_readLiteral inPrefix, eq_append_of_readLiteral isPlugin,
        lengthParts, (eq_append_of_splitBytes parts).1, eq_append_of_readLiteral isColon]
      rfl
    · cases parsed

variable {key : Str}

theorem entryOwner_eq_plugin : entryOwner key = .plugin id ↔
    ∃ rawKey, parseScopedKey key = some (.plugin id, rawKey) := by
  unfold entryOwner
  cases parsed : parseScopedKey key with
  | none => simp
  | some parts =>
    obtain ⟨_, rawKey⟩ := parts
    simp

theorem parts_of_likeMatches {first second pattern key : Str} (firstFree : '*' ∉ first)
    (secondFree : '*' ∉ second) (isMatch : likeMatches (first ++ (second ++ pattern)) key = true) :
    ∃ firstText secondText rest, key = firstText ++ (secondText ++ rest) ∧
      firstText.length = first.length ∧ secondText.map toLower = second.map toLower := by
  rw [likeMatches_append firstFree] at isMatch
  obtain ⟨firstText, _, rfl, firstAlike, isMatch⟩ := isMatch
  rw [likeMatches_append secondFree] at isMatch
  obtain ⟨secondText, rest, rfl, secondAlike, _⟩ := isMatch
  refine ⟨firstText, secondText, rest, rfl, ?_, secondAlike⟩
  have lengths := congrArg List.length firstAlike
  rw [length_map, length_map] at lengths
  exact lengths

theorem star_notMem_length (number : Nat) : '*' ∉ decimal number ++ [':'] := by
  intro mem
  rcases mem_append.mp mem with digit | colon
  · have isDigit : ('*').isDigit = true := Nat.isDigit_of_mem_toDigits (by decide) (by decide) digit
    cases isDigit
  · cases mem_singleton.mp colon

variable {pattern : Str}

theorem entryOwner_of_likeMatches
    (isMatch : likeMatches ((plugin id).scopedKey pattern) key = true) :
    entryOwner key = .plugin id ↔ (plugin id).scopedKey [] <+: key := by
  constructor
  · intro isOwn
    obtain ⟨rawKey, parsed⟩ := entryOwner_eq_plugin.mp isOwn
    obtain ⟨length, absent, shape⟩ := shape_of_parseScopedKey parsed
    have regrouped : (plugin id).scopedKey pattern = (scopedKeyPrefix ++ "p:".toList) ++
        ((decimal (utf8Len id.1) ++ [':']) ++ (id.1 ++ (':' :: pattern))) := by
      simp [scopedKey]
    rw [regrouped] at isMatch
    obtain ⟨firstText, _, rest, parts, lengths, alike⟩ :=
      parts_of_likeMatches (by decide) (star_notMem_length _) isMatch
    obtain rfl := eq_of_caseless (fun _ => caseless_length) alike
    have sameKey : (scopedKeyPrefix ++ "p:".toList) ++
        (length ++ (':' :: (id.1 ++ (':' :: rawKey)))) =
          firstText ++ ((decimal (utf8Len id.1) ++ [':']) ++ rest) := by
      rw [← parts, shape, append_assoc]
    obtain ⟨_, behind⟩ := append_inj sameKey lengths.symm
    have digits : ':' ∉ decimal (utf8Len id.1) := by
      intro mem
      have isDigit : (':').isDigit = true :=
        Nat.isDigit_of_mem_toDigits (by decide) (by decide) mem
      cases isDigit
    have split := splitOnce_append absent (id.1 ++ (':' :: rawKey))
    rw [behind, append_assoc, singleton_append, splitOnce_append digits] at split
    cases split
    refine ⟨rawKey, ?_⟩
    rw [shape]
    simp [scopedKey]
  · rintro ⟨rawKey, rfl⟩
    have whole : (plugin id).scopedKey [] ++ rawKey =
        (plugin id).scopedKey rawKey := by
      simp [scopedKey]
    rw [whole, entryOwner, parseScopedKey_scopedKey]
    rfl

theorem entryOwner_of_hostMatches
    (isMatch : likeMatches (host.scopedKey pattern) key = true) :
    entryOwner key = .host := by
  cases found : entryOwner key with
  | host => rfl
  | plugin =>
    obtain ⟨_, parsed⟩ := entryOwner_eq_plugin.mp found
    obtain ⟨_, _, shape⟩ := shape_of_parseScopedKey parsed
    obtain ⟨_, secondText, _, parts, lengths, alike⟩ :=
      parts_of_likeMatches (by decide) (by decide) isMatch
    rw [shape] at parts
    obtain ⟨_, behind⟩ := append_inj parts lengths.symm
    cases secondText with
    | nil => cases alike
    | cons char secondText =>
      have isP : 'p' = char := (cons.inj behind).1
      have isH : char.toLower = 'h'.toLower := (cons.inj alike).1
      subst char
      exact absurd isH (by decide)

theorem strays_iff {owner : CacheOwner} {pattern key : Str} : Strays owner pattern key ↔
    deletes owner pattern key = true ∧ entryOwner key ≠ owner := by
  cases owner with
  | host =>
    have notHost : entryOwner key ≠ .host ↔
        ∃ id rawKey, parseScopedKey key = some (.plugin id, rawKey) := by
      constructor
      · intro different
        cases found : entryOwner key with
        | host => exact absurd found different
        | plugin id => exact ⟨id, entryOwner_eq_plugin.mp found⟩
      · rintro ⟨id, parsed⟩ isHost
        rw [entryOwner_eq_plugin.mpr parsed] at isHost
        cases isHost
    rw [notHost]
    constructor
    · rintro ⟨isMatch, foreign⟩
      exact ⟨by simp [deletes, isMatch], foreign⟩
    · rintro ⟨deleted, foreign⟩
      refine ⟨?_, foreign⟩
      rcases or_eq_true_iff.mp deleted with inScope | bare
      · exact absurd (entryOwner_of_hostMatches inScope) (notHost.mpr foreign)
      · exact (and_eq_true_iff.mp bare).2
  | plugin id =>
    constructor
    · rintro ⟨isMatch, notLetterForLetter⟩
      refine ⟨by simp [deletes, isMatch], ?_⟩
      exact (entryOwner_of_likeMatches isMatch).not.mpr notLetterForLetter
    · rintro ⟨deleted, foreign⟩
      have isMatch : likeMatches ((plugin id).scopedKey pattern) key = true := by
        simpa [deletes] using deleted
      exact ⟨isMatch, (entryOwner_of_likeMatches isMatch).not.mp foreign⟩

end

section

variable {cache : ContentCache}

variable {pattern key : Str} {row : Option Row}

theorem deleteByPattern_keeps_row (kept : row = none ∨ likeMatches pattern key = false) :
    Keeps (fun stores => stores.rows.lookup key = row) (deleteByPattern pattern) := by
  refine Keeps.call ?_
  intro stores held
  refine Option.ext fun other => ?_
  change (stores.rows.retainKeys _).lookup key = some other ↔ _
  rw [KeyedMap.lookup_retainKeys_eq_some, held]
  rcases kept with rfl | missed
  · simp
  · simp [missed]

theorem discards_keep_row (contentHashes : List Str) :
    Keeps (fun stores => stores.rows.lookup key = row)
      (forEach (discardBlobIfUnreferenced cache.addressing) contentHashes) :=
  Keeps.forEach (fun contentHash =>
    discardBlobIfUnreferenced_keeps contentHash fun _ held _ => held)
    contentHashes

variable {owner : CacheOwner}

theorem restOfRemoval_keeps_row (kept :
    row = none ∨ (decide (owner = .host) && likeMatches pattern key) = false)
    (candidates : List Str) (removed : Nat) :
    Keeps (fun stores => stores.rows.lookup key = row) (do
      let unscoped ← onlyIf (owner = .host) (deleteByPattern pattern) 0
      forEach (discardBlobIfUnreferenced cache.addressing) candidates
      pure (saturatingAdd removed unscoped)) := by
  have bareKeeps : Keeps (fun stores => stores.rows.lookup key = row)
      (onlyIf (owner = .host) (deleteByPattern pattern) 0) := by
    unfold onlyIf
    split
    next isHost =>
      refine deleteByPattern_keeps_row (kept.imp_right fun bareMissed => ?_)
      simpa [of_decide_eq_true isHost] using bareMissed
    · exact Keeps.pure _
  refine bareKeeps.bind fun unscoped => ?_
  exact (discards_keep_row candidates).bind fun _ => Keeps.pure _

theorem removeByPatternForOwner_keeps_row (missed : deletes owner pattern key = false) :
    Keeps (fun stores => stores.rows.lookup key = row)
      (cache.removeByPatternForOwner owner pattern) := by
  obtain ⟨scopedMissed, bareMissed⟩ := or_eq_false_iff.mp missed
  unfold removeByPatternForOwner
  refine (keeps_look .index _).bind fun candidates => ?_
  refine (deleteByPattern_keeps_row (.inr scopedMissed)).bind fun removed => ?_
  exact restOfRemoval_keeps_row (.inr bareMissed) candidates removed

theorem lookup_deleteByPattern {stores : Stores} (reached : likeMatches pattern key = true) :
    (stores.rows.retainKeys fun other => !likeMatches pattern other).lookup key = none := by
  refine eq_none_iff_forall_ne_some.mpr fun row found => ?_
  rw [KeyedMap.lookup_retainKeys_eq_some, reached] at found
  cases found.2

theorem lookup_removeByPatternForOwner (reached : deletes owner pattern key = true)
    (stores : Stores) :
    (cache.removeByPatternForOwner owner pattern stores .allWork).state.rows.lookup key = none := by
  have listed : ∃ hashes, contentHashes stores .allWork = .returned hashes stores .allWork :=
    ⟨_, perform_allWork _ _ _⟩
  have deleted (text : Str) (before : Stores) :
      ∃ removed, deleteByPattern text before .allWork = .returned removed
        { before with
          rows := before.rows.retainKeys fun other => !likeMatches text other }
        .allWork :=
    ⟨_, perform_allWork _ _ _⟩
  obtain ⟨hashes, listed⟩ := listed
  obtain ⟨removed, deletedScoped⟩ := deleted (owner.scopedKey pattern) stores
  unfold removeByPatternForOwner
  rw [run_bind_of_returned listed, run_bind_of_returned deletedScoped]
  rcases or_eq_true_iff.mp reached with inScope | bare
  · exact (restOfRemoval_keeps_row (.inl rfl) _ _).ending (lookup_deleteByPattern inScope) _
  · obtain ⟨isHost, bareReached⟩ := and_eq_true_iff.mp bare
    obtain ⟨_, deletedBare⟩ := deleted pattern
      { stores with
        rows := stores.rows.retainKeys fun other => !likeMatches (owner.scopedKey pattern) other }
    rw [onlyIf, if_pos isHost, run_bind_of_returned deletedBare]
    exact ((discards_keep_row _).bind fun _ => Keeps.pure _).ending
      (lookup_deleteByPattern bareReached) _

end

/-- A removal leaves the rows of other owners alone exactly where no row strays. -/
theorem removeByPattern_confined_iff (cache : ContentCache) (owner : CacheOwner) (pattern : Str)
    (stores : Stores) :
    (∀ fates key row, stores.rows.lookup key = some row → entryOwner key ≠ owner →
      (cache.removeByPatternForOwner owner pattern stores fates).state.rows.lookup key = some row) ↔
      ∀ key ∈ stores.rows.keys, ¬ Strays owner pattern key := by
  constructor
  · intro confined key mem strays
    obtain ⟨reached, foreign⟩ := strays_iff.mp strays
    obtain ⟨row, found⟩ := isSome_iff_exists.mp (AList.lookup_isSome.mpr (AList.mem_keys.mp mem))
    have kept := confined .allWork key row found foreign
    rw [lookup_removeByPatternForOwner reached stores] at kept
    cases kept
  · intro settled fates key row found foreign
    have mem : key ∈ stores.rows.keys :=
      AList.mem_keys.mpr (AList.lookup_isSome.mp (found ▸ rfl))
    have missed : deletes owner pattern key = false := by
      refine eq_false_iff.mpr fun reached => ?_
      exact settled key mem (strays_iff.mpr ⟨reached, foreign⟩)
    exact (removeByPatternForOwner_keeps_row missed).ending found fates

def pluginLower : CacheOwner := .plugin ⟨['p'], by decide⟩

/-- A plugin whose id differs from it in the case of a letter. -/
def pluginUpper : CacheOwner := .plugin ⟨['P'], by decide⟩

def upperStores : Stores :=
  { Stores.empty with
    rows := AList.insert (pluginUpper.scopedKey ['k']) ⟨0, "sha256-x".toList, some 1, 0⟩ ∅ }

/-- A removal of the first plugin, or of the host, takes the row of the second. -/
theorem removal_takes_foreign_row : upperStores.rows.lookup (pluginUpper.scopedKey ['k']) ≠ none ∧
    entryOwner (pluginUpper.scopedKey ['k']) ≠ pluginLower ∧
    entryOwner (pluginUpper.scopedKey ['k']) ≠ .host ∧
    (SharedCache.ampleCache.removeByPatternForOwner pluginLower ['*']
      upperStores .allWork).state.rows.lookup (pluginUpper.scopedKey ['k']) = none ∧
    (SharedCache.ampleCache.removeByPatternForOwner .host ['*']
      upperStores .allWork).state.rows.lookup (pluginUpper.scopedKey ['k']) = none := by
  decide +kernel

end Arclain.Cache
