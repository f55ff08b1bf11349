import Arclain.ModifiedTime

namespace Arclain.Library

/-!
# Product metadata

The rows of the metadata library, and the score by which two rows of one product
are compared.
-/

open List Text UInt32

/-- A JSON value.  A number is kept as its literal. -/
inductive Json where
  | null
  | bool (value : Bool)
  | number (literal : Str)
  | string (text : Str)
  | array (items : List Json)
  | object (members : List (Str × Json))
  deriving Repr

namespace Json

mutual

def decEq : (first second : Json) → Decidable (first = second)
  | .null, .null => isTrue rfl
  | .bool first, .bool second => decidable_of_iff (first = second) (by simp)
  | .number first, .number second => decidable_of_iff (first = second) (by simp)
  | .string first, .string second => decidable_of_iff (first = second) (by simp)
  | .array first, .array second =>
    have := decEqItems first second
    decidable_of_iff (first = second) (by simp)
  | .object first, .object second =>
    have := decEqMembers first second
    decidable_of_iff (first = second) (by simp)
  | .null, .bool _ | .null, .number _ | .null, .string _ | .null, .array _
  | .null, .object _ | .bool _, .null | .bool _, .number _ | .bool _, .string _
  | .bool _, .array _ | .bool _, .object _ | .number _, .null
  | .number _, .bool _ | .number _, .string _ | .number _, .array _
  | .number _, .object _ | .string _, .null | .string _, .bool _
  | .string _, .number _ | .string _, .array _ | .string _, .object _
  | .array _, .null | .array _, .bool _ | .array _, .number _
  | .array _, .string _ | .array _, .object _ | .object _, .null
  | .object _, .bool _ | .object _, .number _ | .object _, .string _
  | .object _, .array _ => isFalse (by simp)

def decEqItems : (first second : List Json) → Decidable (first = second)
  | [], [] => isTrue rfl
  | [], _ :: _ | _ :: _, [] => isFalse (by simp)
  | item :: first, other :: second =>
    have := decEq item other
    have := decEqItems first second
    decidable_of_iff (item = other ∧ first = second) (by simp)

def decEqMembers : (first second : List (Str × Json)) → Decidable (first = second)
  | [], [] => isTrue rfl
  | [], _ :: _ | _ :: _, [] => isFalse (by simp)
  | (key, value) :: first, (name, other) :: second =>
    have := decEq value other
    have := decEqMembers first second
    decidable_of_iff ((key = name ∧ value = other) ∧ first = second) (by simp)

end

instance : DecidableEq Json := decEq

def asObject : Json → Option (List (Str × Json))
  | .object members => some members
  | _ => none

def asArray : Json → Option (List Json)
  | .array items => some items
  | _ => none

def asStr : Json → Option Str
  | .string text => some text
  | _ => none

def asBool : Json → Option Bool
  | .bool value => some value
  | _ => none

/-- `Value::as_i64`.  A zero with a minus sign is a float. -/
def asI64 : Json → Option Int
  | .number ('-' :: digits) =>
    ((parseDigits digits).filter fun value => 0 < value ∧ value ≤ 2 ^ 63).map
      fun value => -(value : Int)
  | .number digits => ((parseDigits digits).filter (· < 2 ^ 63)).map Int.ofNat
  | _ => none

/-- `Value::as_f64`, as the literal of the number. -/
def asF64 : Json → Option Str
  | .number literal => some literal
  | _ => none

/-- The value under a key, `null` if there is none. -/
def index (value : Json) (key : Str) : Json := (value.asObject.bind (List.lookup key)).getD .null

variable (members : List (Str × Json))

@[simp] theorem asObject_object : (object members).asObject = some members :=
  rfl

@[simp] theorem index_object (key : Str) :
    (object members).index key = (members.lookup key).getD .null :=
  rfl

theorem eq_object_of_asObject {value : Json} {members : List (Str × Json)}
    (isObject : value.asObject = some members) : value = object members := by
  cases value with
  | object => exact congrArg object (Option.some.inj isObject)
  | _ => cases isObject

/-- `Map::insert`. -/
def insertMember (key : Str) (value : Json) (members : List (Str × Json)) : List (Str × Json) :=
  (key, value) :: members.filter fun mem => mem.1 ≠ key

def mergeNonnullInto (target source : List (Str × Json)) : List (Str × Json) :=
  source.foldl (fun target mem =>
    if mem.2 = .null then target else insertMember mem.1 mem.2 target)
    target

theorem lookup_insertMember (key other : Str) (value : Json) (members : List (Str × Json)) :
    (insertMember key value members).lookup other =
      if other = key then some value else members.lookup other := by
  by_cases same : other = key
  · subst same
    simp [insertMember]
  · have differs : (other == key) = false := beq_false_of_ne same
    rw [if_neg same, insertMember, lookup_cons, differs]
    induction members with
    | nil => rfl
    | cons mem members ih =>
      obtain ⟨name, _⟩ := mem
      by_cases isKey : name = key
      · subst isKey
        simpa [lookup_cons, differs] using ih
      · simp only [ne_eq, isKey, not_false_eq_true, decide_true, filter_cons_of_pos, lookup_cons]
        split
        · rfl
        · exact ih

theorem lookup_mergeNonnullInto {key : Str} {source : List (Str × Json)}
    (absent : key ∉ source.map Prod.fst) (target : List (Str × Json)) :
    (mergeNonnullInto target source).lookup key = target.lookup key := by
  induction source generalizing target with
  | nil => rfl
  | cons mem source ih =>
    obtain ⟨_, _⟩ := mem
    simp only [map_cons, mem_cons, not_or] at absent
    rw [mergeNonnullInto, foldl_cons, ← mergeNonnullInto, ih absent.2]
    split
    · rfl
    · rw [lookup_insertMember, if_neg absent.1]

end Json

/-- `ProductMetadata`.  The rating is kept as the literal of its number. -/
structure ProductMetadata (Source : Type) where
  id : Str
  source : Source
  externalId : Str
  title : Option Str
  creator : Option Str
  description : Option Str
  releaseDate : Option Str
  price : Option Int
  currency : Option Str
  rating : Option Str
  ratingCount : Option Int
  purchaseCount : Option Int
  favoriteCount : Option Int
  reviewCount : Option Int
  fileSize : Option Str
  fileFormat : Option Str
  ageRating : Option Str
  genres : List Str
  tags : List Str
  languages : List Str
  extras : Json
  rawApiResponse : Option Str
  rawHtml : Option Str
  geoBlocked : Bool
  cachedAt : Int
  updatedAt : Option Int
  deriving DecidableEq

namespace ProductMetadata

variable {Source : Type}

/-- What a field that is there adds to a score. -/
def present {Value : Type} (field : Option Value) (points : UInt32) : UInt32 :=
  if field.isSome then points else 0

/-- What the members of `extras` add. -/
def extrasScore (members : List (Str × Json)) : UInt32 :=
  present (members.lookup "series".toList) 2 + present (members.lookup "illustrator".toList) 2 +
    present (members.lookup "miscellaneous".toList) 1 +
    present (members.lookup "update_info".toList) 1 +
    (((members.lookup "voice_actors".toList).bind Json.asArray).elim 0
      fun actors => ofNat actors.length) +
    (((members.lookup "product_formats".toList).bind Json.asArray).elim 0
      fun formats => ofNat formats.length) +
    (((members.lookup "rankings".toList).bind Json.asObject).elim 0
      fun rankings => ofNat rankings.length)

/-- `completeness_score`, with the wrapping sums of 32-bit numbers. -/
def completenessScore (row : ProductMetadata Source) : UInt32 :=
  present row.title 10 + present row.creator 10 +
    present row.description 5 + present row.releaseDate 2 +
    present row.price 1 + present row.fileSize 1 + present row.fileFormat 1 +
    present row.ageRating 2 + present row.rating 2 +
    present row.ratingCount 1 + present row.purchaseCount 1 +
    present row.favoriteCount 1 + present row.reviewCount 1 +
    ofNat row.genres.length * 2 + ofNat row.tags.length +
    ofNat row.languages.length +
    row.extras.asObject.elim 0 extrasScore +
    present row.rawApiResponse 5 + present row.rawHtml 3

end ProductMetadata

end Arclain.Library
