import Arclain.OutputResolution

namespace Arclain.TemplateExpansion

/-!
# Filling in templates

The loop of `expand` jumps from one dollar sign to the next.  What it is for
is said without positions: a template is a sequence of pieces, and every piece
is filled in by itself.
-/

open List Text OutputResolution

/-- A character that stands for itself, a dollar sign that starts no token, or a token. -/
inductive Piece where
  | literal (char : Char)
  | loneDollar
  | token (name : Str)

namespace Piece

def text : Piece → Str
  | .literal char => [char]
  | .loneDollar => ['$']
  | .token name => '$' :: name

def filled (values : Variables) : Piece → Str
  | .literal char => [char]
  | .loneDollar => ['$']
  | .token name => (values.lookup name).getD ('$' :: name)

def unset (values : Variables) : Piece → Option Str
  | .token name => if (values.lookup name).isNone then some name else none
  | _ => none

end Piece

def addMissing (missing names : List Str) : List Str :=
  names.foldl (fun missing name => if name ∈ missing then missing else missing ++ [name]) missing

theorem addMissing_eq (missing names : List Str) : addMissing missing names =
    missing ++ (names.filter (· ∉ missing)).eraseDups := by
  induction names generalizing missing with
  | nil => simp [addMissing]
  | cons name names ih =>
    have step : addMissing missing (name :: names) = addMissing
        (if name ∈ missing then missing else missing ++ [name]) names :=
      rfl
    rw [step, ih]
    by_cases known : name ∈ missing
    · simp [known]
    · have fresh : (name :: names).filter (· ∉ missing) = name :: names.filter (· ∉ missing) := by
        simp [known]
      rw [if_neg known, fresh, eraseDups_cons, filter_filter, append_assoc, singleton_append]
      congr 3
      apply filter_congr
      intro other _
      by_cases same : other = name
      · simp [same]
      · simp [same]

theorem nodup_addMissing {missing names : List Str} (distinct : missing.Nodup) :
    (addMissing missing names).Nodup := by
  induction names generalizing missing with
  | nil => exact distinct
  | cons _ names ih =>
    refine ih ?_
    dsimp only
    split
    · exact distinct
    next fresh =>
      rw [← concat_eq_append]
      exact distinct.concat fresh

theorem nodup_eraseDups (names : List Str) : names.eraseDups.Nodup := by
  have listed := addMissing_eq [] names
  simp only [not_mem_nil, not_false_eq_true, decide_true, filter_true, nil_append] at listed
  rw [← listed]
  exact nodup_addMissing nodup_nil

variable (values : Variables)

theorem flatMap_filled_literals (text : Str) :
    (text.map Piece.literal).flatMap (Piece.filled values) = text := by
  rw [flatMap_map]
  exact flatMap_singleton' text

theorem filterMap_unset_literals (text : Str) :
    (text.map Piece.literal).filterMap (Piece.unset values) = [] := by
  rw [filterMap_map]
  exact filterMap_eq_nil_iff.mpr fun _ _ => rfl

theorem flatMap_filled_empty (pieces : List Piece) :
    pieces.flatMap (Piece.filled ∅) = pieces.flatMap Piece.text :=
  rfl

theorem exists_unset_iff {values : Variables} {pieces : List Piece} {name : Str} :
    (∃ piece ∈ pieces, piece.unset values = some name) ↔
      Piece.token name ∈ pieces ∧ values.lookup name = none := by
  constructor
  · rintro ⟨piece, mem, unset⟩
    cases piece with
    | literal | loneDollar => cases unset
    | token =>
      simp only [Piece.unset, Option.isNone_iff_eq_none,
        Option.ite_none_right_eq_some, Option.some.injEq] at unset
      obtain ⟨noValue, rfl⟩ := unset
      exact ⟨mem, noValue⟩
  · rintro ⟨mem, noValue⟩
    exact ⟨_, mem, by simp [Piece.unset, noValue]⟩

theorem token_closeToken (expansion : Expansion) : (closeToken values expansion).token = none := by
  obtain ⟨_, _, token⟩ := expansion
  match token with
  | none | some [] => rfl
  | some (char :: token) =>
    unfold closeToken
    dsimp only
    split
    · rfl
    · rfl

theorem closeToken_of_none {expansion : Expansion}
    (none : expansion.token = none) : closeToken values expansion = expansion := by
  rw [closeToken, none]

theorem closeToken_token (written : Str) (missing : List Str) {name : Str} (nonempty : name ≠ []) :
    closeToken values ⟨written, missing, some name⟩ = ⟨written ++ (Piece.token name).filled values,
      addMissing missing ((Piece.token name).unset values).toList, none⟩ := by
  obtain ⟨char, rest, rfl⟩ := exists_cons_of_ne_nil nonempty
  unfold closeToken
  dsimp only
  cases bound : values.lookup (char :: rest) with
  | some | none => simp [Piece.filled, Piece.unset, bound, addMissing]

section

variable [CharTables]

def isTokenChar (char : Char) : Bool := CharTables.isAlphanumeric char || char = '_'

/-- The loop of `expand`, from what is left of the template and what was
written so far. -/
def expandRest (values : Variables) (rest expanded : Str) (missing : List Str) : Str × List Str :=
  match _found : rest.dropWhile (· ≠ '$') with
  | [] => (expanded ++ rest, missing)
  | _ :: after =>
    let expanded := expanded ++ rest.takeWhile (· ≠ '$')
    let token := after.takeWhile isTokenChar
    let left := after.dropWhile isTokenChar
    if token = [] then expandRest values left (expanded ++ ['$']) missing
    else
      match values.lookup token with
      | some value => expandRest values left (expanded ++ value) missing
      | none =>
        expandRest values left (expanded ++ ['$'] ++ token)
          (if token ∈ missing then missing else missing ++ [token])
termination_by rest.length
decreasing_by
  all_goals
    have shorter := (dropWhile_suffix isTokenChar : _ <:+ after).length_le
    have suffix := (dropWhile_suffix (· ≠ '$') : _ <:+ rest).length_le
    rw [_found, length_cons] at suffix
    exact Nat.lt_of_le_of_lt shorter suffix

/-- `expand`: the filled template and every token that had no value. -/
def expand (template : Str) (values : Variables) : Str × List Str :=
  expandRest values template [] []

namespace Piece

/-- A token ends only where no token character follows. -/
def Fits (following : Str) : Piece → Prop
  | .literal char => char ≠ '$'
  | .loneDollar => following.takeWhile isTokenChar = []
  | .token name => name ≠ [] ∧ (name ++ following).takeWhile isTokenChar = name

end Piece

/-- The pieces are the template, split into maximal tokens and literal text. -/
inductive Splits : Str → List Piece → Prop
  | nil : Splits [] []
  | cons {following : Str} {pieces : List Piece} (piece : Piece) (fits : piece.Fits following)
      (rest : Splits following pieces) :
      Splits (piece.text ++ following) (piece :: pieces)

namespace Splits

variable {pieces : List Piece}

theorem literals {before following : Str}
    (literal : ∀ char ∈ before, char ≠ '$') (rest : Splits following pieces) :
    Splits (before ++ following) (before.map Piece.literal ++ pieces) := by
  induction before with
  | nil => exact rest
  | cons char before ih =>
    have later := ih fun other mem => literal other (mem_cons_of_mem char mem)
    exact .cons (.literal char) (literal char mem_cons_self) later

variable {template : Str}

theorem text_eq (splits : Splits template pieces) : pieces.flatMap Piece.text = template := by
  induction splits with
  | nil => rfl
  | cons _ _ _ ih => rw [flatMap_cons, ih]

theorem head_eq {piece other : Piece} {following otherFollowing : Str} (fits : piece.Fits following)
    (otherFits : other.Fits otherFollowing)
    (same : piece.text ++ following = other.text ++ otherFollowing) : piece = other := by
  cases piece with
  | literal char =>
    cases other with
    | literal =>
      have head := (List.cons.inj same).1
      rw [head]
    | loneDollar | token name => exact absurd (List.cons.inj same).1 fits
  | loneDollar =>
    cases other with
    | literal char => exact absurd (List.cons.inj same).1.symm otherFits
    | loneDollar => rfl
    | token name =>
      have tail : following = name ++ otherFollowing := (List.cons.inj same).2
      have none : following.takeWhile isTokenChar = name := by
        rw [tail]
        exact otherFits.2
      exact absurd (none.symm.trans fits) otherFits.1
  | token name =>
    cases other with
    | literal char => exact absurd (List.cons.inj same).1.symm otherFits
    | loneDollar =>
      have tail : name ++ following = otherFollowing := (List.cons.inj same).2
      have none : otherFollowing.takeWhile isTokenChar = name := by
        rw [← tail]
        exact fits.2
      exact absurd (none.symm.trans otherFits) fits.1
    | token otherName =>
      have tail := (List.cons.inj same).2
      have names : name = otherName := by
        rw [← fits.2, ← otherFits.2]
        exact congrArg _ tail
      rw [names]

theorem unique {pieces others : List Piece} (splits : Splits template pieces)
    (otherSplits : Splits template others) : pieces = others := by
  induction splits generalizing others with
  | nil =>
    generalize whole : ([] : Str) = text at otherSplits
    cases otherSplits with
    | nil => rfl
    | cons other fits rest => cases other <;> simp [Piece.text] at whole
  | @cons following pieces piece fits rest ih =>
    generalize whole : piece.text ++ following = text at otherSplits
    cases otherSplits with
    | nil => cases piece <;> simp [Piece.text] at whole
    | cons other otherFits otherRest =>
      obtain rfl := head_eq fits otherFits whole
      obtain rfl := append_cancel_left whole
      rw [ih otherRest]

end Splits

variable {pieces : List Piece}

theorem Splits.of_found {rest after following : Str} {head : Char}
    (found : rest.dropWhile (· ≠ '$') = head :: after) (piece : Piece) (fits : piece.Fits following)
    (text : '$' :: after = piece.text ++ following) (later : Splits following pieces) :
    Splits rest ((rest.takeWhile (· ≠ '$')).map Piece.literal ++ piece :: pieces) := by
  have isDollar : head = '$' := by
    have stops := List.head?_dropWhile_not (fun char : Char => char ≠ '$') rest
    rw [found] at stops
    simpa using stops
  have whole : rest = rest.takeWhile (· ≠ '$') ++ (piece.text ++ following) := by
    rw [← text]
    conv_lhs => rw [← takeWhile_append_dropWhile (p := (· ≠ '$')) (l := rest)]
    rw [found, isDollar]
  have literal : ∀ char ∈ rest.takeWhile (· ≠ '$'), char ≠ '$' := by
    intro char mem
    simpa using mem_takeWhile_imp mem
  have splits := Splits.literals literal (Splits.cons piece fits later)
  rwa [← whole] at splits

variable (values : Variables)

theorem expandRest_eq (rest expanded : Str) (missing : List Str) :
    ∃ pieces, Splits rest pieces ∧ expandRest values rest expanded missing =
      (expanded ++ pieces.flatMap (Piece.filled values),
        addMissing missing (pieces.filterMap (Piece.unset values))) := by
  fun_induction expandRest values rest expanded missing with
  | case1 rest expanded missing found =>
    have literal : ∀ char ∈ rest, char ≠ '$' := by simpa using dropWhile_eq_nil_iff.mp found
    have splits := Splits.literals literal .nil
    refine ⟨rest.map Piece.literal, by simpa using splits, ?_⟩
    rw [flatMap_filled_literals, filterMap_unset_literals]
    rfl
  | case2 rest written missing head after found expanded token left empty ih =>
    obtain ⟨pieces, later, result⟩ := ih
    have same : left = after := by
      rw [← takeWhile_append_dropWhile (p := isTokenChar) (l := after)]
      exact (congrArg (· ++ left) empty).symm
    have fits : Piece.loneDollar.Fits left := by
      rw [same]
      exact empty
    refine ⟨_, .of_found found .loneDollar fits (by rw [same]; rfl) later, ?_⟩
    rw [result, flatMap_append, filterMap_append, flatMap_filled_literals, filterMap_unset_literals]
    have silent : Piece.unset values .loneDollar = none := rfl
    simp [expanded, Piece.filled, silent]
  | case3 rest written missing head after found expanded token left named _ set ih =>
    obtain ⟨pieces, later, result⟩ := ih
    have whole : token ++ left = after := takeWhile_append_dropWhile
    have fits : (Piece.token token).Fits left :=
      ⟨named, congrArg (List.takeWhile isTokenChar) whole⟩
    refine ⟨_, .of_found found (.token token) fits (by rw [← whole]; rfl) later, ?_⟩
    rw [result, flatMap_append, filterMap_append, flatMap_filled_literals, filterMap_unset_literals]
    simp [expanded, Piece.filled, Piece.unset, set]
  | case4 rest written missing head after found expanded token left named unset ih =>
    obtain ⟨pieces, later, result⟩ := ih
    have whole : token ++ left = after := takeWhile_append_dropWhile
    have fits : (Piece.token token).Fits left :=
      ⟨named, congrArg (List.takeWhile isTokenChar) whole⟩
    refine ⟨_, .of_found found (.token token) fits (by rw [← whole]; rfl) later, ?_⟩
    rw [flatMap_append, filterMap_append, flatMap_filled_literals, filterMap_unset_literals]
    simp only [dite_eq_ite] at result ⊢
    rw [result]
    simp [expanded, Piece.filled, Piece.unset, unset, addMissing]

variable (expansion : Expansion)

theorem expandChar_closeToken {char : Char} (outside : isTokenChar char = false) :
    expandChar values expansion char = expandChar values (closeToken values expansion) char := by
  have other : ¬ (CharTables.isAlphanumeric char ∨ char = '_') := by
    simpa [isTokenChar] using outside
  have closed := token_closeToken values expansion
  obtain ⟨written, missing, token⟩ := expansion
  cases token with
  | none => rfl
  | some token =>
    generalize after : closeToken values ⟨written, missing, some token⟩ = expansion at closed
    rw [expandChar, expandChar, closed]
    simp only [if_neg other, after]
    rw [closed]

theorem closeToken_before {following : Str} (ended : following.takeWhile isTokenChar = []) :
    closeToken values (following.foldl (expandChar values) expansion) = closeToken values
      (following.foldl (expandChar values) (closeToken values expansion)) := by
  cases following with
  | nil => exact (closeToken_of_none values (token_closeToken values expansion)).symm
  | cons char following =>
    have outside : isTokenChar char = false := by
      by_contra inside
      simp [inside] at ended
    rw [foldl_cons, foldl_cons, expandChar_closeToken values expansion outside]

theorem foldl_token (written : Str) (missing : List Str) {name : Str}
    (token : ∀ char ∈ name, isTokenChar char = true) (read : Str) :
    name.foldl (expandChar values) ⟨written, missing, some read⟩ =
      ⟨written, missing, some (read ++ name)⟩ := by
  induction name generalizing read with
  | nil => simp
  | cons char name ih =>
    have inside : CharTables.isAlphanumeric char ∨ char = '_' := by
      simpa [isTokenChar] using token char mem_cons_self
    have step : expandChar values ⟨written, missing, some read⟩ char =
        ⟨written, missing, some (read ++ [char])⟩ := by
      rw [expandChar]
      simp only [if_pos inside]
    rw [foldl_cons, step, ih fun other mem =>
      token other (mem_cons_of_mem char mem)]
    simp

variable {template : Str}

theorem closeToken_foldl (splits : Splits template pieces) (written : Str) (missing : List Str) :
    closeToken values (template.foldl (expandChar values) ⟨written, missing, none⟩) =
      ⟨written ++ pieces.flatMap (Piece.filled values),
        addMissing missing (pieces.filterMap (Piece.unset values)), none⟩ := by
  induction splits generalizing written missing with
  | nil => simp [closeToken, addMissing]
  | @cons following pieces piece fits rest ih =>
    cases piece with
    | literal char =>
      have step : expandChar values ⟨written, missing, none⟩ char =
          ⟨written ++ [char], missing, none⟩ :=
        if_neg fits
      change closeToken values (following.foldl (expandChar values)
          (expandChar values ⟨written, missing, none⟩ char)) = _
      rw [step, ih, filterMap_cons, flatMap_cons, append_assoc]
      rfl
    | loneDollar =>
      change closeToken values (following.foldl (expandChar values) ⟨written, missing, some []⟩) = _
      rw [closeToken_before values _ fits]
      change closeToken values (following.foldl (expandChar values)
          ⟨written ++ ['$'], missing, none⟩) = _
      rw [ih, filterMap_cons, flatMap_cons, append_assoc]
      rfl
    | token name =>
      obtain ⟨nonempty, maximal⟩ := fits
      have token : ∀ char ∈ name, isTokenChar char = true := by
        intro char mem
        rw [← maximal] at mem
        exact mem_takeWhile_imp mem
      have ended : following.takeWhile isTokenChar = [] := by
        rw [takeWhile_append_of_pos token] at maximal
        simpa using maximal
      change closeToken values ((name ++ following).foldl (expandChar values)
          ⟨written, missing, some []⟩) = _
      rw [foldl_append, foldl_token values written missing token,
        closeToken_before values _ ended, nil_append,
        closeToken_token values written missing nonempty, ih, flatMap_cons, append_assoc]
      congr 1
      cases unset : (Piece.token name).unset values with
      | none => rw [filterMap_cons_none unset]; rfl
      | some => rw [filterMap_cons_some unset]; rfl

theorem expand_eq (splits : Splits template pieces) :
    expand template values = (pieces.flatMap (Piece.filled values),
      (pieces.filterMap (Piece.unset values)).eraseDups) := by
  obtain ⟨_, foundSplits, result⟩ := expandRest_eq values template [] []
  obtain rfl := foundSplits.unique splits
  rw [expand, result, addMissing_eq]
  simp

theorem expand_eq_loop (template : Str) (values : Variables) :
    OutputResolution.expand template values = expand template values := by
  obtain ⟨_, splits, result⟩ := expandRest_eq values template [] []
  rw [OutputResolution.expand, expand, result, closeToken_foldl values splits [] []]

/-- A template splits in one way into tokens and text, and each piece is filled in by itself. -/
theorem expand_fills_pieces (template : Str) : ∃ pieces, Splits template pieces ∧
    (∀ others, Splits template others → others = pieces) ∧
    (∀ values, expand template values = (pieces.flatMap (Piece.filled values),
      (pieces.filterMap (Piece.unset values)).eraseDups) ∧
        (expand template values).2.Nodup ∧ ∀ name, name ∈ (expand template values).2 ↔
          Piece.token name ∈ pieces ∧ values.lookup name = none) ∧
    (expand template ∅).1 = template := by
  obtain ⟨pieces, splits, -⟩ := expandRest_eq ∅ template [] []
  refine ⟨pieces, splits, fun _ other => other.unique splits, ?_, ?_⟩
  · intro values
    have filled := expand_eq values splits
    refine ⟨filled, ?_, ?_⟩
    · rw [filled]
      exact nodup_eraseDups _
    · intro name
      rw [filled, mem_eraseDups, mem_filterMap]
      exact exists_unset_iff
  · rw [expand_eq ∅ splits]
    exact (flatMap_filled_empty pieces).trans splits.text_eq

end

end Arclain.TemplateExpansion
