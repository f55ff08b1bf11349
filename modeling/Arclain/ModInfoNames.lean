import Arclain.CheckedRelativePath
import Arclain.ModInfo

namespace Arclain.ModInfo

/-!
# Sanitized names

`sanitize_modinfo_name` trims whitespace once, then dots at the end, then dots at the start.
What a later trim exposes is not trimmed again.
-/

open List Option Text

/-- The replacement of a character that a file system may refuse. -/
def safeChar (char : Char) : Char :=
  if char ∈ ['<', '>', ':', '"', '/', '\\', '|', '?', '*'] then '_'
  else if char.toNat < 0x20 then '_'
  else char

section

variable {test : Char → Bool}

structure Bare (test : Char → Bool) (text : Str) : Prop where
  start : ∀ char ∈ text.head?, test char = false
  ended : ∀ char ∈ text.getLast?, test char = false

/-- A text around a core, all of which passes a test. -/
structure Framed (test : Char → Bool) (text before core after : Str) : Prop where
  whole : text = before ++ core ++ after
  before : ∀ char ∈ before, test char = true
  after : ∀ char ∈ after, test char = true
  bare : Bare test core

namespace Bare

variable {other : Char → Bool} {text : Str}

theorem imp (bare : Bare test text) (stronger : ∀ char, other char = true → test char = true) :
    Bare other text where
  start char isHead := by
    by_contra passes
    have stops := bare.start char isHead
    rw [stronger char (by simpa using passes)] at stops
    cases stops
  ended char isLast := by
    by_contra passes
    have stops := bare.ended char isLast
    rw [stronger char (by simpa using passes)] at stops
    cases stops

theorem or (bare : Bare test text) (otherBare : Bare other text) :
    Bare (fun char => test char || other char) text where
  start char isHead := by
    rw [bare.start char isHead, otherBare.start char isHead]
    rfl
  ended char isLast := by
    rw [bare.ended char isLast, otherBare.ended char isLast]
    rfl

theorem map_iff {change : Char → Char} :
    Bare test (text.map change) ↔ Bare (fun char => test (change char)) text := by
  constructor
  · intro bare
    refine ⟨fun char isHead => bare.start _ ?_, fun char isLast => bare.ended _ ?_⟩
    · rw [head?_map]
      exact mem_map_of_mem change isHead
    · rw [getLast?_map]
      exact mem_map_of_mem change isLast
  · intro bare
    refine ⟨fun char isHead => ?_, fun char isLast => ?_⟩
    · rw [head?_map] at isHead
      obtain ⟨source, mem, rfl⟩ := mem_map.mp isHead
      exact bare.start source mem
    · rw [getLast?_map] at isLast
      obtain ⟨source, mem, rfl⟩ := mem_map.mp isLast
      exact bare.ended source mem

end Bare

theorem trimStartMatches_of_bare {before core : Str} (passes : ∀ char ∈ before, test char = true)
    (start : ∀ char ∈ core.head?, test char = false) :
    trimStartMatches test (before ++ core) = core := by
  rw [trimStartMatches, dropWhile_append_of_pos passes]
  cases core with
  | nil => rfl
  | cons char =>
    have stops := start char rfl
    rw [dropWhile_cons, if_neg (by simp [stops])]

theorem trimEndMatches_of_bare {core after : Str} (passes : ∀ char ∈ after, test char = true)
    (ended : ∀ char ∈ core.getLast?, test char = false) :
    trimEndMatches test (core ++ after) = core := by
  have reversed : trimStartMatches test (after.reverse ++ core.reverse) = core.reverse := by
    refine trimStartMatches_of_bare ?_ ?_
    · simpa using passes
    · simpa using ended
  rw [trimEndMatches, reverse_append]
  exact (congrArg reverse reversed).trans core.reverse_reverse

theorem exists_framed (test : Char → Bool) (text : Str) :
    ∃ before core after, Framed test text before core after := by
  refine ⟨text.takeWhile test, (text.dropWhile test).rdropWhile test,
    (text.dropWhile test).rtakeWhile test, ?_, ?_, ?_, ?_, ?_⟩
  · rw [append_assoc, rdropWhile_append_rtakeWhile, takeWhile_append_dropWhile]
  · exact fun _ => mem_takeWhile_imp
  · exact fun _ => mem_rtakeWhile_imp
  · intro char isHead
    obtain ⟨_, shape⟩ := rdropWhile_prefix test (text.dropWhile test)
    have stops := head?_dropWhile_not test text
    rw [← shape, head?_append, mem_def.mp isHead] at stops
    simpa using stops
  · intro char isLast
    have nonempty := ne_nil_of_mem (mem_of_getLast? isLast)
    have stops := rdropWhile_last_not test (text.dropWhile test) nonempty
    rw [getLast?_eq_some_getLast nonempty] at isLast
    rw [← some.inj isLast]
    simpa using stops

namespace Framed

variable {text before core after : Str}

theorem all_of_nil (framed : Framed test text before [] after) :
    ∀ char ∈ text, test char = true := by
  intro char mem
  rw [framed.whole, append_nil] at mem
  rcases mem_append.mp mem with inBefore | inAfter
  · exact framed.before char inBefore
  · exact framed.after char inAfter

theorem trimEnd_trimStart (framed : Framed test text before core after) :
    trimEndMatches test (trimStartMatches test text) = core := by
  by_cases nonempty : core = []
  · subst nonempty
    have nothing : trimStartMatches test text = [] :=
      dropWhile_eq_nil_iff.mpr framed.all_of_nil
    rw [nothing]
    rfl
  · have trimmed : trimStartMatches test text = core ++ after := by
      rw [framed.whole, append_assoc]
      refine trimStartMatches_of_bare framed.before ?_
      rw [head?_append_of_ne_nil _ nonempty]
      exact framed.bare.start
    rw [trimmed]
    exact trimEndMatches_of_bare framed.after framed.bare.ended

theorem trimStart_trimEnd (framed : Framed test text before core after) :
    trimStartMatches test (trimEndMatches test text) = core := by
  by_cases nonempty : core = []
  · subst nonempty
    have nothing : trimEndMatches test text = [] := rdropWhile_eq_nil_iff.mpr framed.all_of_nil
    rw [nothing]
    rfl
  · have trimmed : trimEndMatches test text = before ++ core := by
      rw [framed.whole]
      refine trimEndMatches_of_bare framed.after ?_
      rw [getLast?_append_of_ne_nil _ nonempty]
      exact framed.bare.ended
    rw [trimmed]
    exact trimStartMatches_of_bare framed.before framed.bare.start

end Framed

theorem Bare.framed {text : Str} (bare : Bare test text) : Framed test text [] text [] where
  whole := by simp
  before := by simp
  after := by simp
  bare := bare

theorem Framed.eq_of_length {text before core after : Str}
    (framed : Framed test text before core after) (short : text.length ≤ core.length) :
    core = text := by
  have length := congrArg length framed.whole
  simp only [length_append] at length
  have noBefore : before = [] := length_eq_zero_iff.mp (by omega)
  have noAfter : after = [] := length_eq_zero_iff.mp (by omega)
  rw [framed.whole, noBefore, noAfter, nil_append, append_nil]

end

theorem sanitizeModinfoName_eq (name : Str) : sanitizeModinfoName name = trimStartMatches (· = '.')
    (trimEndMatches (· = '.') (trim (name.map safeChar))) :=
  rfl

theorem sanitizeModinfoName_of_framed {name spaces middle spacesAfter dots core dotsAfter : Str}
    (outer : Framed isWhitespace (name.map safeChar) spaces middle spacesAfter)
    (inner : Framed (· = '.') middle dots core dotsAfter) : sanitizeModinfoName name = core := by
  rw [sanitizeModinfoName_eq, trim, outer.trimEnd_trimStart, inner.trimStart_trimEnd]

section

/-- Whitespace that is still whitespace once the characters are replaced. -/
def isOuterSpace (char : Char) : Bool := isWhitespace char && decide (0x20 ≤ char.toNat)

def isLateControl (char : Char) : Bool := 0x7F ≤ char.toNat && char.toNat ≤ 0x9F

variable (char : Char)

theorem safeChar_cases : (safeChar char = char ∧ 0x20 ≤ char.toNat ∧
    char ∉ ['<', '>', ':', '"', '/', '\\', '|', '?', '*']) ∨
      (safeChar char = '_' ∧ isOuterSpace char = false ∧
        isLateControl char = false ∧ char ≠ '.') := by
  unfold safeChar
  split
  next illegal =>
    refine .inr ⟨rfl, ?_⟩
    simp only [mem_cons, not_mem_nil, or_false] at illegal
    rcases illegal with rfl | rfl | rfl | rfl | rfl | rfl | rfl | rfl | rfl <;> decide
  next legal =>
    split
    next control =>
      refine .inr ⟨rfl, ?_, ?_, ?_⟩
      · simp [isOuterSpace, control]
      · simp [isLateControl]
        omega
      · rintro rfl
        exact absurd control (by decide)
    · exact .inl ⟨rfl, by omega, legal⟩

@[simp] theorem safeChar_safeChar : safeChar (safeChar char) = safeChar char := by
  rcases safeChar_cases char with ⟨kept, -⟩ | ⟨replaced, -⟩
  · rw [kept, kept]
  · rw [replaced]
    decide

@[simp] theorem isWhitespace_safeChar : isWhitespace (safeChar char) = isOuterSpace char := by
  rcases safeChar_cases char with ⟨kept, printable, -⟩ | ⟨replaced, outer, -⟩
  · rw [kept, isOuterSpace, decide_eq_true printable, Bool.and_true]
  · rw [replaced, outer]
    decide

@[simp] theorem safeChar_eq_dot_iff {char : Char} : safeChar char = '.' ↔ char = '.' := by
  rcases safeChar_cases char with ⟨kept, -⟩ | ⟨replaced, -, -, other⟩
  · rw [kept]
  · rw [replaced]
    simp [other]

@[simp] theorem isControl_safeChar : isControl (safeChar char) = isLateControl char := by
  rcases safeChar_cases char with ⟨kept, printable, -⟩ | ⟨replaced, -, late, -⟩
  · have printed : ¬ char.toNat < 0x20 := by omega
    rw [kept, isControl, isLateControl]
    simp [printed]
  · rw [replaced, late]
    decide

theorem safeChar_portable : safeChar char ≠ '/' ∧ safeChar char ∉ reservedCharacters := by
  rcases safeChar_cases char with ⟨kept, -, legal⟩ | ⟨replaced, -⟩
  · rw [kept]
    simp only [mem_cons, not_mem_nil, or_false, not_or] at legal
    simp [reservedCharacters, legal]
  · rw [replaced]
    decide

end

/-- What `CheckedRelativePath::new` asks of the characters and of the ends of a
single component. -/
structure ComponentChars (component : Str) : Prop where
  nonempty : component ≠ []
  noSeparator : '/' ∉ component
  noReserved : ∀ char ∈ component, char ∉ reservedCharacters
  noControl : ∀ char ∈ component, isControl char = false
  noDotAtEnd : endsWith component ['.'] = false
  noSpaceAtEnd : endsWith component [' '] = false
  notCurrent : component ≠ ['.']
  notParent : component ≠ ['.', '.']

/-- Names that neither begin nor end with whitespace or a dot inside dots, and contain no
control character behind ASCII. -/
def Sanitizable (name : Str) : Prop :=
  ∃ spaces dots core dotsAfter spacesAfter,
    name = spaces ++ (dots ++ core ++ dotsAfter) ++ spacesAfter ∧
      (∀ char ∈ spaces ++ spacesAfter, isOuterSpace char = true) ∧
      (∀ char ∈ dots ++ dotsAfter, char = '.') ∧
      Bare (fun char => isOuterSpace char || decide (char = '.')) core ∧
      ∀ char ∈ core, isLateControl char = false

theorem endsWith_singleton_eq_false {text : Str} {last : Char}
    (different : ∀ char ∈ text.getLast?, char ≠ last) : endsWith text [last] = false := by
  by_contra ends
  rw [Bool.not_eq_false, endsWith, isSuffixOf_iff_suffix] at ends
  obtain ⟨_, rfl⟩ := ends
  exact different last (by simp) rfl

theorem map_safeChar_map (text : Str) : (text.map safeChar).map safeChar = text.map safeChar := by
  rw [List.map_map]
  exact map_congr_left fun char _ => safeChar_safeChar char

theorem bare_map_safeChar_iff {text : Str} :
    (Bare isWhitespace (text.map safeChar) ∧ Bare (· = '.') (text.map safeChar)) ↔
      Bare (fun char => isOuterSpace char || decide (char = '.')) text := by
  rw [Bare.map_iff, Bare.map_iff]
  simp only [isWhitespace_safeChar, safeChar_eq_dot_iff]
  constructor
  · exact fun both => both.1.or both.2
  · exact fun bare =>
      ⟨bare.imp fun char outer => by simp [outer],
        bare.imp fun char dot => by simp [of_decide_eq_true dot]⟩

theorem componentChars_of_bare {core : Str} (nonempty : core ≠ [])
    (spaceBare : Bare isWhitespace (core.map safeChar))
    (dotBare : Bare (· = '.') (core.map safeChar))
    (printable : ∀ char ∈ core, isLateControl char = false) :
    ComponentChars (core.map safeChar) where
  nonempty := by simpa using nonempty
  noSeparator := by
    intro mem
    obtain ⟨char, -, same⟩ := mem_map.mp mem
    exact (safeChar_portable char).1 same
  noReserved := by
    intro replaced mem
    obtain ⟨char, -, rfl⟩ := mem_map.mp mem
    exact (safeChar_portable char).2
  noControl := by
    intro replaced mem
    obtain ⟨char, inCore, rfl⟩ := mem_map.mp mem
    rw [isControl_safeChar, printable char inCore]
  noDotAtEnd := by
    refine endsWith_singleton_eq_false fun char isLast => ?_
    simpa using dotBare.ended char isLast
  noSpaceAtEnd := by
    refine endsWith_singleton_eq_false fun char isLast => ?_
    rintro rfl
    exact absurd (spaceBare.ended ' ' isLast) (by decide)
  notCurrent := by
    intro current
    rw [current] at dotBare
    exact absurd (dotBare.start '.' rfl) (by decide)
  notParent := by
    intro parent
    rw [parent] at dotBare
    exact absurd (dotBare.start '.' rfl) (by decide)

theorem sanitizeModinfoName_of_bare {core : Str} (spaceBare : Bare isWhitespace (core.map safeChar))
    (dotBare : Bare (· = '.') (core.map safeChar)) :
    sanitizeModinfoName (core.map safeChar) = core.map safeChar := by
  have outer : Framed isWhitespace ((core.map safeChar).map safeChar) []
      (core.map safeChar) [] := by
    rw [map_safeChar_map]
    exact spaceBare.framed
  exact sanitizeModinfoName_of_framed outer dotBare.framed

theorem bare_middle {dots core dotsAfter : Str} (areDots : ∀ char ∈ dots ++ dotsAfter, char = '.')
    (bare : Bare isWhitespace (core.map safeChar)) :
    Bare isWhitespace ((dots ++ core ++ dotsAfter).map safeChar) := by
  have dotted (char : Char) (mem : char ∈ dots ++ dotsAfter) :
      isWhitespace (safeChar char) = false := by
    rw [areDots char mem]
    decide
  rw [Bare.map_iff] at bare ⊢
  refine ⟨fun char isHead => ?_, fun char isLast => ?_⟩
  · rw [append_assoc, head?_append, head?_append] at isHead
    rcases or_eq_some_iff.mp isHead with inDots | ⟨-, isHead⟩
    · exact dotted char (mem_append_left _ (mem_of_head? inDots))
    · rcases or_eq_some_iff.mp isHead with inCore | ⟨-, inAfter⟩
      · exact bare.start char inCore
      · exact dotted char (mem_append_right _ (mem_of_head? inAfter))
  · rw [append_assoc, getLast?_append, getLast?_append] at isLast
    rcases or_eq_some_iff.mp isLast with isLast | ⟨-, inDots⟩
    · rcases or_eq_some_iff.mp isLast with inAfter | ⟨-, inCore⟩
      · exact dotted char (mem_append_right _ (mem_of_getLast? inAfter))
      · exact bare.ended char inCore
    · exact dotted char (mem_append_left _ (mem_of_getLast? inDots))

theorem bare_of_sanitized_twice {core : Str}
    (again : sanitizeModinfoName (core.map safeChar) = core.map safeChar) :
    Bare isWhitespace (core.map safeChar) := by
  obtain ⟨_, middle, _, outer⟩ :=
    exists_framed isWhitespace ((core.map safeChar).map safeChar)
  obtain ⟨_, _, _, inner⟩ := exists_framed (· = '.') middle
  rw [sanitizeModinfoName_of_framed outer inner] at again
  have shorter := congrArg length inner.whole
  simp only [length_append] at shorter
  have same := outer.eq_of_length (by
    rw [map_safeChar_map, ← again]
    omega)
  rw [map_safeChar_map] at same
  rw [← same]
  exact outer.bare

/-- A name is sanitized to nothing or to a good component, and once and for all,
exactly if it is one of these names. -/
theorem sanitized_name_iff (name : Str) : ((sanitizeModinfoName name = [] ∨
    ComponentChars (sanitizeModinfoName name)) ∧
      sanitizeModinfoName (sanitizeModinfoName name) = sanitizeModinfoName name) ↔
      Sanitizable name := by
  constructor
  · rintro ⟨valid, again⟩
    obtain ⟨spaces, middle, spacesAfter, outer⟩ := exists_framed isWhitespace (name.map safeChar)
    obtain ⟨dots, core, dotsAfter, inner⟩ := exists_framed (· = '.') middle
    have whole := outer.whole
    simp only [inner.whole, append_assoc] at whole
    obtain ⟨spaces, _, rfl, rfl, afterSpacesIs⟩ := map_eq_append_iff.mp whole
    obtain ⟨dots, _, rfl, rfl, afterDotsIs⟩ := map_eq_append_iff.mp afterSpacesIs
    obtain ⟨core, _, rfl, rfl, afterCoreIs⟩ := map_eq_append_iff.mp afterDotsIs
    obtain ⟨dotsAfter, spacesAfter, rfl, rfl, rfl⟩ := map_eq_append_iff.mp afterCoreIs
    rw [sanitizeModinfoName_of_framed outer inner] at valid again
    refine ⟨spaces, dots, core, dotsAfter, spacesAfter, by simp, ?_, ?_,
      bare_map_safeChar_iff.mp ⟨bare_of_sanitized_twice again, inner.bare⟩, ?_⟩
    · intro char mem
      rw [← isWhitespace_safeChar]
      rcases mem_append.mp mem with before | after
      · exact outer.before _ (mem_map_of_mem before)
      · exact outer.after _ (mem_map_of_mem after)
    · intro char mem
      rw [← safeChar_eq_dot_iff]
      rcases mem_append.mp mem with before | after
      · simpa using inner.before _ (mem_map_of_mem before)
      · simpa using inner.after _ (mem_map_of_mem after)
    · intro char mem
      rw [← isControl_safeChar]
      rcases valid with empty | chars
      · rw [map_eq_nil_iff.mp empty] at mem
        cases mem
      · exact chars.noControl _ (mem_map_of_mem mem)
  · rintro ⟨spaces, dots, core, dotsAfter, spacesAfter, rfl, areSpaces, areDots, bare, printable⟩
    obtain ⟨spaceBare, dotBare⟩ := bare_map_safeChar_iff.mpr bare
    have outer : Framed isWhitespace
        ((spaces ++ (dots ++ core ++ dotsAfter) ++ spacesAfter).map safeChar)
        (spaces.map safeChar) ((dots ++ core ++ dotsAfter).map safeChar)
        (spacesAfter.map safeChar) := by
      refine ⟨by simp, ?_, ?_, bare_middle areDots spaceBare⟩
      · simpa using fun char mem => areSpaces char (mem_append_left _ mem)
      · simpa using fun char mem => areSpaces char (mem_append_right _ mem)
    have inner : Framed (· = '.') ((dots ++ core ++ dotsAfter).map safeChar)
        (dots.map safeChar) (core.map safeChar) (dotsAfter.map safeChar) := by
      refine ⟨by simp, ?_, ?_, dotBare⟩
      · simpa using fun char mem => areDots char (mem_append_left _ mem)
      · simpa using fun char mem => areDots char (mem_append_right _ mem)
    rw [sanitizeModinfoName_of_framed outer inner]
    refine ⟨?_, sanitizeModinfoName_of_bare spaceBare dotBare⟩
    by_cases empty : core = []
    · exact .inl (by rw [empty]; rfl)
    · exact .inr (componentChars_of_bare empty spaceBare dotBare printable)

/-- A dot behind a space leaves the space at the end. -/
theorem space_before_dot_wrong : ¬ ∀ name, (sanitizeModinfoName name = [] ∨
    ComponentChars (sanitizeModinfoName name)) ∧
      sanitizeModinfoName (sanitizeModinfoName name) = sanitizeModinfoName name := by
  intro claimed
  have again := (claimed "Mod .".toList).2
  exact absurd again (by decide)

end Arclain.ModInfo
