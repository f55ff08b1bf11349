import Arclain.MetadataMap

namespace Arclain.MetadataMap

/-!
# The title filter

The replacement pairs come out of a hash map, so they are applied one after
another in no particular order.  After that every character is mapped by itself,
and the text is trimmed and cut at a number of bytes.
-/

open List Text Option

/-! ## Replacing -/

/-- No match of a pattern begins inside a text, whatever stands behind it. -/
def Clear (text pattern : Str) : Prop :=
  ∀ rest ∈ text.tails, rest ≠ [] → ¬ rest <+: pattern ∧ ¬ pattern <+: rest

instance (text pattern : Str) : Decidable (Clear text pattern) :=
  inferInstanceAs (Decidable (∀ rest ∈ text.tails, _))

variable {char : Char}

theorem clear_cons {text pattern : Str} : Clear (char :: text) pattern ↔
    (¬ (char :: text) <+: pattern ∧ ¬ pattern <+: (char :: text)) ∧ Clear text pattern := by
  simp [Clear, tails]

/-- Applying the first pair neither destroys nor creates a match of the second. -/
structure Spares (pair other : Str × Str) : Prop where
  nonempty : pair.1 ≠ []
  replaced : Clear pair.1 other.1
  replacing : Clear pair.2 other.1
  behind : Clear other.1.tail pair.2

instance (pair other : Str × Str) : Decidable (Spares pair other) :=
  decidable_of_iff
    (pair.1 ≠ [] ∧ Clear pair.1 other.1 ∧ Clear pair.2 other.1 ∧ Clear other.1.tail pair.2)
    ⟨fun ⟨a, b, c, d⟩ => ⟨a, b, c, d⟩, fun ⟨a, b, c, d⟩ => ⟨a, b, c, d⟩⟩

/-- Replacing from the start of a text, when the pattern is not empty. -/
abbrev replaceAll (pair : Str × Str) (text : Str) : Str := replaceFrom pair.1 pair.2 0 text

theorem replaceFrom_skip (old new : Str) (skip : Nat) (text : Str) :
    replaceFrom old new skip text = replaceFrom old new 0 (text.drop skip) := by
  induction skip generalizing text with
  | zero => rfl
  | succ skip ih =>
    cases text with
    | nil => rfl
    | cons _ rest => exact ih rest

variable {pair : Str × Str}

theorem replaceAll_match (nonempty : pair.1 ≠ []) (rest : Str) :
    replaceAll pair (pair.1 ++ rest) = pair.2 ++ replaceAll pair rest := by
  obtain ⟨old, _⟩ := pair
  cases old with
  | nil => exact absurd rfl nonempty
  | cons char old =>
    have leads : startsWith (char :: (old ++ rest)) (char :: old) = true := by simp [startsWith]
    simp only [replaceAll, cons_append, replaceFrom, leads, if_true]
    rw [replaceFrom_skip]
    simp

theorem replaceAll_other {rest : Str} (other : ¬ pair.1 <+: char :: rest) :
    replaceAll pair (char :: rest) = char :: replaceAll pair rest := by
  have differs : ¬ startsWith (char :: rest) pair.1 = true := by simpa [startsWith] using other
  rw [replaceAll, replaceFrom, if_neg differs]

theorem replaceAll_clear {text : Str} (clear : Clear text pair.1) (rest : Str) :
    replaceAll pair (text ++ rest) = text ++ replaceAll pair rest := by
  induction text with
  | nil => rfl
  | cons char text ih =>
    obtain ⟨⟨shorter, longer⟩, later⟩ := clear_cons.mp clear
    rw [cons_append, replaceAll_other, ih later, cons_append]
    intro leads
    rcases prefix_or_prefix_of_prefix leads (prefix_append (char :: text) rest) with
      inside | beyond
    · exact longer inside
    · exact shorter beyond

theorem prefix_of_prefix_replaceAll {pattern text : Str} (nonempty : pair.1 ≠ [])
    (clear : Clear pattern pair.2) (leads : pattern <+: replaceAll pair text) :
    pattern <+: text := by
  induction pattern generalizing text with
  | nil => exact nil_prefix
  | cons _ pattern ih =>
    obtain ⟨⟨shorter, longer⟩, later⟩ := clear_cons.mp clear
    by_cases matched : pair.1 <+: text
    · obtain ⟨_, rfl⟩ := matched
      rw [replaceAll_match nonempty] at leads
      rcases prefix_or_prefix_of_prefix leads (prefix_append pair.2 _) with
        inside | beyond
      · exact absurd inside shorter
      · exact absurd beyond longer
    · cases text with
      | nil => exact absurd (prefix_nil.mp leads) (cons_ne_nil _ _)
      | cons _ text =>
        rw [replaceAll_other matched, cons_prefix_cons] at leads
        rw [cons_prefix_cons]
        exact ⟨leads.1, ih later leads.2⟩

theorem Spares.not_prefix {pair other : Str × Str} (spares : Spares pair other)
    (nonempty : other.1 ≠ []) {rest : Str} (unmatched : ¬ other.1 <+: char :: rest) :
    ¬ other.1 <+: char :: replaceAll pair rest := by
  have behind := spares.behind
  obtain ⟨_, _, shape⟩ := exists_cons_of_ne_nil nonempty
  rw [shape] at unmatched behind ⊢
  rw [cons_prefix_cons] at unmatched ⊢
  rintro ⟨same, leads⟩
  exact unmatched ⟨same, prefix_of_prefix_replaceAll spares.nonempty behind leads⟩

theorem replaceAll_comm {pair other : Str × Str} (spares : Spares pair other)
    (spared : Spares other pair) (text : Str) :
    replaceAll other (replaceAll pair text) = replaceAll pair (replaceAll other text) := by
  induction size : text.length using Nat.strong_induction_on generalizing text with
  | h _ ih =>
    subst size
    by_cases matched : pair.1 <+: text
    · obtain ⟨rest, rfl⟩ := matched
      have shorter : rest.length < (pair.1 ++ rest).length := by
        rw [length_append]
        exact Nat.lt_add_of_pos_left (length_pos_iff.mpr spares.nonempty)
      rw [replaceAll_match spares.nonempty, replaceAll_clear spares.replacing,
        replaceAll_clear spares.replaced, replaceAll_match spares.nonempty, ih _ shorter rest rfl]
    by_cases otherMatched : other.1 <+: text
    · obtain ⟨rest, rfl⟩ := otherMatched
      have shorter : rest.length < (other.1 ++ rest).length := by
        rw [length_append]
        exact Nat.lt_add_of_pos_left (length_pos_iff.mpr spared.nonempty)
      rw [replaceAll_match spared.nonempty, replaceAll_clear spared.replacing,
        replaceAll_clear spared.replaced, replaceAll_match spared.nonempty, ih _ shorter rest rfl]
    cases text with
    | nil => rfl
    | cons _ rest =>
      rw [replaceAll_other matched, replaceAll_other otherMatched,
        replaceAll_other (spares.not_prefix spared.nonempty otherMatched),
        replaceAll_other (spared.not_prefix spares.nonempty matched),
        ih _ (Nat.lt_succ_self _) rest rfl]

theorem replaceText_eq (nonempty : pair.1 ≠ []) (text : Str) :
    replaceText text pair.1 pair.2 = replaceAll pair text :=
  if_neg nonempty

def applyReplacements (pairs : List (Str × Str)) (title : Str) : Str :=
  pairs.foldl (fun text pair => replaceText text pair.1 pair.2) title

theorem applyReplacements_of_perm {pairs reordered : List (Str × Str)} (perm : pairs.Perm reordered)
    (spare : ∀ pair ∈ pairs, ∀ other ∈ pairs, pair ≠ other → Spares pair other) (title : Str) :
    applyReplacements pairs title = applyReplacements reordered title := by
  refine perm.foldl_eq' (fun pair mem other otherMember text => ?_) title
  by_cases same : pair = other
  · rw [same]
  · have spares := spare pair mem other otherMember same
    have spared := spare other otherMember pair mem (Ne.symm same)
    rw [replaceText_eq spares.nonempty, replaceText_eq spared.nonempty,
      replaceText_eq spared.nonempty, replaceText_eq spares.nonempty]
    exact replaceAll_comm spares spared text

/-! ## The filter -/

def substitute (config : TitleFilterConfig) (char : Char) : Char :=
  if char ∈ config.invalidChars || isControl char then config.replacement.head?.getD '_'
  else char

def filtered (config : TitleFilterConfig) (title : Str) : Str :=
  let mapped := (applyReplacements config.replacements title).map (substitute config)
  if config.trimWhitespace then trim mapped else mapped

/-- The filtered text cut, or nothing where the cut falls inside a character. -/
def cut (config : TitleFilterConfig) (text : Str) : Option Str :=
  if byteLength text > config.maxLength then truncate config.maxLength text else some text

theorem sanitizeTitle_eq (config : TitleFilterConfig) (title : Str) : sanitizeTitle config title =
    match cut config (filtered config title) with
    | some kept => .ok (if kept = [] then "untitled".toList else kept)
    | none => .error .truncateInsideCharacter := by
  unfold sanitizeTitle cut
  change (if byteLength (filtered config title) > config.maxLength then _ else _) = _
  split
  · change (match truncate config.maxLength (filtered config title) with
      | some kept => _
      | none => _) = _
    cases truncate config.maxLength (filtered config title) with
    | none | some kept => rfl
  · rfl

/--
Pairs of which none destroys or creates a match of another give one title in
every order.
-/
theorem title_of_reordered (config : TitleFilterConfig) {reordered : List (Str × Str)}
    (perm : config.replacements.Perm reordered)
    (spare : ∀ pair ∈ config.replacements, ∀ other ∈ config.replacements,
      pair ≠ other → Spares pair other)
    (title : Str) :
    sanitizeTitle config title = sanitizeTitle { config with replacements := reordered } title := by
  have same := applyReplacements_of_perm perm spare title
  rw [sanitizeTitle_eq, sanitizeTitle_eq, filtered, same]
  rfl

/-- The pairs every installation is seeded with, and the default settings. -/
def defaultConfig : TitleFilterConfig where
  replacements :=
    [("【".toList, "[".toList), ("】".toList, "]".toList), ("～".toList, "~".toList),
      ("（".toList, "(".toList), ("）".toList, ")".toList)]
  invalidChars := "/:*?\"<>|\\".toList
  replacement := "_".toList
  maxLength := 255
  trimWhitespace := true

/-- The default pairs may be applied in either direction. -/
theorem default_title_of_reordered : sanitizeTitle defaultConfig "【完】（再）".toList = sanitizeTitle
    { defaultConfig with replacements := defaultConfig.replacements.reverse }
    "【完】（再）".toList :=
  title_of_reordered defaultConfig (reverse_perm _).symm (by decide +kernel) _

/-- A replacement that the next pair replaces again. -/
theorem chained_replacements_depend_on_order :
    ¬ ∀ (config : TitleFilterConfig) (reordered : List (Str × Str)) (title : Str),
      config.replacements.Perm reordered → sanitizeTitle config title =
        sanitizeTitle { config with replacements := reordered } title := by
  intro claimed
  let config : TitleFilterConfig :=
    { defaultConfig with
      replacements := [("a".toList, "b".toList), ("b".toList, "c".toList)] }
  have same := congrArg Except.toOption
    (claimed config _ "a".toList (List.Perm.swap ("b".toList, "c".toList) _ []))
  exact absurd same (by decide +kernel)

/-! ## The cut -/

@[simp] theorem byteLength_cons (char : Char) (text : Str) :
    byteLength (char :: text) = char.utf8Size + byteLength text := by
  simp [byteLength]

variable {text kept : Str}

theorem truncate_eq_some_iff {bytes : Nat} (long : bytes ≤ byteLength text) :
    truncate bytes text = some kept ↔ kept <+: text ∧ byteLength kept = bytes := by
  induction text generalizing bytes kept with
  | nil =>
    obtain rfl : bytes = 0 := Nat.le_zero.mp long
    simp only [truncate, some.injEq, prefix_nil]
    constructor
    · rintro rfl
      exact ⟨rfl, rfl⟩
    · exact fun empty => empty.1.symm
  | cons char _ ih =>
    have positive := char.utf8Size_pos
    cases kept with
    | nil =>
      cases bytes with
      | zero => simp [truncate, byteLength]
      | succ bytes =>
        simp only [truncate]
        split <;> simp [byteLength]
    | cons first kept =>
      rw [cons_prefix_cons, byteLength_cons]
      cases bytes with
      | zero =>
        simp only [truncate, some.injEq, nil_eq, reduceCtorEq, false_iff]
        rintro ⟨-, length⟩
        have firstPositive := first.utf8Size_pos
        omega
      | succ bytes =>
        rw [byteLength_cons] at long
        simp only [truncate]
        split
        next fits =>
          rw [map_eq_some_iff]
          constructor
          · rintro ⟨_, truncated, same⟩
            obtain ⟨rfl, rfl⟩ := cons.inj same
            obtain ⟨leads, length⟩ := (ih (by omega)).mp truncated
            exact ⟨⟨rfl, leads⟩, by omega⟩
          · rintro ⟨⟨rfl, leads⟩, length⟩
            exact ⟨kept, (ih (by omega)).mpr ⟨leads, by omega⟩, rfl⟩
        next wide =>
          simp only [reduceCtorEq, false_iff]
          rintro ⟨⟨rfl, -⟩, length⟩
          omega

variable {config : TitleFilterConfig}

theorem cut_eq_some_iff : cut config text = some kept ↔
    kept <+: text ∧ byteLength kept = min (byteLength text) config.maxLength := by
  unfold cut
  split
  next long => rw [truncate_eq_some_iff (Nat.le_of_lt long), Nat.min_eq_right (Nat.le_of_lt long)]
  next short =>
    rw [Nat.min_eq_left (Nat.not_lt.mp short), some.injEq]
    constructor
    · rintro rfl
      exact ⟨prefix_rfl, rfl⟩
    · rintro ⟨⟨rest, rfl⟩, length⟩
      cases rest with
      | nil => exact append_nil kept
      | cons char rest =>
        have positive := char.utf8Size_pos
        simp only [byteLength, map_append, sum_append, map_cons, sum_cons] at length
        omega

def Forbidden (config : TitleFilterConfig) (char : Char) : Prop :=
  char ∈ config.invalidChars ∨ isControl char = true

/-- A title fit for a folder.  A forbidden character stands in it only where the
configured replacement is that character. -/
structure Sanitized (config : TitleFilterConfig) (title : Str) : Prop where
  nonempty : title ≠ []
  fits : title = "untitled".toList ∨ byteLength title ≤ config.maxLength
  clean : ∀ char ∈ title, Forbidden config char → config.replacement.head? = some char

theorem substitute_of_forbidden {title : Str}
    (mem : char ∈ filtered config title) (forbidden : Forbidden config char) :
    char = config.replacement.head?.getD '_' := by
  have mapped : char ∈ (applyReplacements config.replacements title).map (substitute config) := by
    unfold filtered at mem
    dsimp only at mem
    split at mem
    · exact ((dropWhile_sublist _).mem <| mem_reverse.mp <|
        (dropWhile_sublist _).mem <| mem_reverse.mp mem)
    · exact mem
  obtain ⟨_, -, rfl⟩ := mem_map.mp mapped
  unfold substitute at forbidden ⊢
  split
  · rfl
  next allowed =>
    rw [if_neg allowed] at forbidden
    simp only [Bool.or_eq_true, decide_eq_true_eq] at allowed
    exact absurd forbidden allowed

/-- The title is fit exactly when the cut falls between characters, the fallback is allowed,
and no underscore fills an empty replacement. -/
theorem sanitized_title_iff (config : TitleFilterConfig) (title : Str) :
    (∃ result, sanitizeTitle config title = .ok result ∧ Sanitized config result) ↔
      ∃ kept, kept <+: filtered config title ∧
        byteLength kept = min (byteLength (filtered config title)) config.maxLength ∧
        (kept = [] → ∀ char ∈ "untitled".toList,
          char ∈ config.invalidChars → config.replacement.head? = some char) ∧
        (config.replacement = [] → '_' ∈ config.invalidChars → '_' ∉ kept) := by
  have safe : ∀ char ∈ "untitled".toList, isControl char = false := by simp [isControl]
  have underscore : isControl '_' = false := by decide
  constructor
  · rintro ⟨result, returned, sanitized⟩
    rw [sanitizeTitle_eq] at returned
    cases isCut : cut config (filtered config title) with
    | none =>
      rw [isCut] at returned
      cases returned
    | some kept =>
      rw [isCut] at returned
      obtain ⟨leads, length⟩ := cut_eq_some_iff.mp isCut
      have same := Except.ok.inj returned
      refine ⟨kept, leads, length, ?_, ?_⟩
      · rintro rfl char mem invalid
        rw [if_pos rfl] at same
        subst result
        exact sanitized.clean char mem (.inl invalid)
      · intro empty invalid mem
        rw [if_neg (ne_nil_of_mem mem)] at same
        subst result
        have introduced := sanitized.clean '_' mem (.inl invalid)
        rw [empty] at introduced
        cases introduced
  · rintro ⟨kept, leads, length, fallback, standsIn⟩
    have isCut := cut_eq_some_iff.mpr ⟨leads, length⟩
    rw [sanitizeTitle_eq, isCut]
    refine ⟨_, rfl, ?_⟩
    by_cases empty : kept = []
    · rw [if_pos empty]
      refine ⟨by decide, .inl rfl, fun char mem forbidden => ?_⟩
      refine fallback empty char mem (forbidden.resolve_right ?_)
      rw [safe char mem]
      exact Bool.false_ne_true
    · rw [if_neg empty]
      refine ⟨empty, .inr (length ▸ Nat.min_le_right _ _), fun char mem forbidden => ?_⟩
      have substituted := substitute_of_forbidden (leads.mem mem) forbidden
      cases replaced : config.replacement with
      | nil =>
        rw [replaced] at substituted
        subst substituted
        refine absurd mem (standsIn replaced (forbidden.resolve_right ?_))
        rw [head?_nil, getD_none, underscore]
        exact Bool.false_ne_true
      | cons =>
        rw [replaced] at substituted
        exact congrArg some substituted.symm

/-- A title of 256 bytes, of which the first 255 end inside a character. -/
theorem cut_inside_character : ¬ ∀ (config : TitleFilterConfig) (title : Str),
    ∃ result, sanitizeTitle config title = .ok result ∧ Sanitized config result := by
  intro claimed
  obtain ⟨result, returned, -⟩ := claimed defaultConfig ('a' :: replicate 85 'あ')
  have failed : (sanitizeTitle defaultConfig ('a' :: replicate 85 'あ')).toOption = none := by
    decide +kernel
  rw [returned] at failed
  cases failed

end Arclain.MetadataMap
