import Arclain.ModifiedTime
import Arclain.TextFormat

namespace Arclain.Cache

/-!
# The names of cached resources

A resource belongs to an owner and has a key, both written into one text.  The length of a
plugin's id stands before the id, so that the text can be read back.

The fallback files have these texts as names, without the characters that a file name must
not have.
-/

open List Text TextFormat

def utf8Len (text : Str) : Nat := (text.map Char.utf8Size).sum

/-- The id of a plugin; its length is a `usize`. -/
abbrev PluginId := { id : Str // utf8Len id < 2 ^ 64 }

inductive CacheOwner where
  | host
  | plugin (id : PluginId)
  deriving DecidableEq

def scopedKeyPrefix : Str := "\x01arclain-cache:v1:".toList

def CacheOwner.scopedKey : CacheOwner → Str → Str
  | .host, key => scopedKeyPrefix ++ ("h:0::".toList ++ key)
  | .plugin id, key =>
    scopedKeyPrefix ++ ("p:".toList ++ (decimal (utf8Len id.1) ++ (':' :: (id.1 ++ (':' :: key)))))

/-- A text split behind a number of bytes, if a character ends there. -/
def splitBytes : Nat → Str → Option (Str × Str)
  | 0, text => some ([], text)
  | _ + 1, [] => none
  | count + 1, char :: rest =>
    if char.utf8Size ≤ count + 1 then
      (splitBytes (count + 1 - char.utf8Size) rest).map fun (before, after) =>
        (char :: before, after)
    else none

/-- `str::parse::<usize>`. -/
def parseUsize : Str → Option Nat
  | '+' :: digits => (parseDigits digits).filter (· < 2 ^ 64)
  | digits => (parseDigits digits).filter (· < 2 ^ 64)

/-- The part of `parse_scoped_key` for the key of a plugin. -/
def parsePluginKey (encoded : Str) : Option (CacheOwner × Str) := do
  let lengthAndRest ← Format.readLiteral "p:".toList encoded
  let (length, ownerAndKey) ← splitOnce ':' lengthAndRest
  let ownerLen ← parseUsize length
  let (owner, separatorAndKey) ← splitBytes ownerLen ownerAndKey
  let rawKey ← Format.readLiteral [':'] separatorAndKey
  if bounded : utf8Len owner < 2 ^ 64 then some (.plugin ⟨owner, bounded⟩, rawKey)
  else none

def parseScopedKey (key : Str) : Option (CacheOwner × Str) := do
  let encoded ← Format.readLiteral scopedKeyPrefix key
  match Format.readLiteral "h:0::".toList encoded with
  | some rawKey => some (.host, rawKey)
  | none => parsePluginKey encoded

def entryOwner (key : Str) : CacheOwner := ((parseScopedKey key).map Prod.fst).getD .host

theorem splitBytes_append (text rest : Str) :
    splitBytes (utf8Len text) (text ++ rest) = some (text, rest) := by
  induction text with
  | nil => cases rest <;> rfl
  | cons char text ih =>
    have positive : 0 < char.utf8Size := Char.utf8Size_pos char
    have split : utf8Len (char :: text) = (char.utf8Size - 1 + utf8Len text) + 1 := by
      simp only [utf8Len, map_cons, sum_cons]
      omega
    have remains : char.utf8Size - 1 + utf8Len text + 1 - char.utf8Size = utf8Len text := by omega
    rw [split, cons_append, splitBytes, if_pos (by omega), remains, ih]
    rfl

theorem parseUsize_decimal {number : Nat} (bounded : number < 2 ^ 64) :
    parseUsize (decimal number) = some number := by
  have value := parseDigits_paddedDecimal 0 number
  rw [← decimal_eq_paddedDecimal] at value
  unfold parseUsize
  split
  next signed =>
    have plus : ('+').isDigit = true :=
      Nat.isDigit_of_mem_toDigits (by decide) (by decide) (signed ▸ mem_cons_self)
    cases plus
  · rw [value, Option.filter_some, decide_eq_true bounded]
    rfl

variable (owner : CacheOwner)

theorem parseScopedKey_scopedKey (key : Str) :
    parseScopedKey (owner.scopedKey key) = some (owner, key) := by
  cases owner with
  | host => simp [CacheOwner.scopedKey, parseScopedKey, Format.readLiteral]
  | plugin id =>
    have digits : ':' ∉ decimal (utf8Len id.1) := by
      intro mem
      have isDigit : (':').isDigit = true :=
        Nat.isDigit_of_mem_toDigits (by decide) (by decide) mem
      cases isDigit
    have split : splitOnce ':' (decimal (utf8Len id.1) ++ (':' :: (id.1 ++ (':' :: key)))) =
        some (decimal (utf8Len id.1), id.1 ++ (':' :: key)) :=
      splitOnce_append digits _
    simp [CacheOwner.scopedKey, parseScopedKey, parsePluginKey, split,
      parseUsize_decimal id.2, splitBytes_append, Format.readLiteral]
    exact id.2

theorem scopedKey_injective {owner other : CacheOwner} {key otherKey : Str}
    (same : owner.scopedKey key = other.scopedKey otherKey) : owner = other ∧ key = otherKey := by
  have read := parseScopedKey_scopedKey owner key
  rw [same, parseScopedKey_scopedKey] at read
  cases read
  exact ⟨rfl, rfl⟩

def sanitizeKey (key : Str) : Str :=
  key.map fun char => if char ∈ "/\\:*?\"<>|".toList then '_' else char

def looksEncoded (key : Str) : Bool := startsWith (sanitizeKey key) (sanitizeKey scopedKeyPrefix)

theorem looksEncoded_scopedKey (key : Str) : looksEncoded (owner.scopedKey key) = true := by
  obtain ⟨rest, shape⟩ : ∃ rest, owner.scopedKey key = scopedKeyPrefix ++ rest := by
    cases owner with
    | host | plugin => exact ⟨_, rfl⟩
  rw [looksEncoded, startsWith, isPrefixOf_iff_prefix, shape, sanitizeKey, sanitizeKey, map_append]
  exact prefix_append _ _

theorem looksEncoded_of_sanitizeKey {raw : Str} {owner : CacheOwner} {key : Str}
    (same : sanitizeKey raw = sanitizeKey (owner.scopedKey key)) : looksEncoded raw = true := by
  have encoded := looksEncoded_scopedKey owner key
  unfold looksEncoded at encoded ⊢
  rw [same]
  exact encoded

end Arclain.Cache
