import Arclain.ArchiveListing
import Arclain.CacheKeys
import Arclain.ModInfoNames

namespace Arclain.SevenZipCli

/-!
# Reading the listing of the 7-Zip CLI

`7z l -slt` prints the properties of the archive and then one block for each entry.  One
loop reads both, and decides by its state and by the key what a property belongs to.
-/

open List Text ModInfo

inductive Line where
  | separator
  | property (key value : Str)
  | blank
  | other

/-- `str::split_once` by a text. -/
def splitOnceText (separator : Str) : Str → Option (Str × Str)
  | [] => if separator = [] then some ([], []) else none
  | char :: rest =>
    if startsWith (char :: rest) separator then some ([], (char :: rest).drop separator.length)
    else (splitOnceText separator rest).map fun parts => (char :: parts.1, parts.2)

def readLine (line : Str) : Line :=
  let line := trimEndMatches isWhitespace line
  if startsWith line "----------".toList then .separator
  else
    match splitOnceText " = ".toList line with
    | some (key, value) => .property (trim key) (trim value)
    | none => if line = [] then .blank else .other

/-- The value that a map holds after some properties were inserted. -/
def lastValue : List (Str × Str) → Str → Option Str
  | [], _ => none
  | (key, value) :: rest, wanted =>
    (lastValue rest wanted).or (if key = wanted then some value else none)

def isHeaderKey (key : Str) : Bool :=
  key ∈ ["Headers Encrypted".toList, "Encryption".toList, "Encrypted".toList,
    "Header Encryption".toList, "Characteristics".toList]

inductive ArchiveKind where
  | zip
  | sevenZ
  | rar
  | unknown (name : Str)

structure ArchiveInfo where
  archivePath : Str
  archiveKind : ArchiveKind
  entries : List ArchiveEntry
  encrypted : Bool
  headersEncrypted : Bool
  encryptionMethod : Option Str

def normalizePath (path : Str) : Str :=
  let path := forwardSlashes (if startsWith path "./".toList then path.drop 2 else path)
  if endsWith path ['/'] ∧ 1 < path.length then trimEndMatches (fun char => char = '/') path
  else path

section

variable [CharTables] (fromCliText : Str → Option Str)

def parseKind (slt : Str) : ArchiveKind :=
  let types := (lines slt).filterMap fun line => line.dropPrefix? "Type = ".toList
  match types.head?.map fun rest => CharTables.toLowercase (trim rest) with
  | some kind =>
    if kind = "zip".toList then .zip
    else if kind = "7z".toList then .sevenZ
    else if kind = "rar".toList then .rar
    else .unknown kind
  | none => .unknown "unknown".toList

def readCrc (text : Str) : Option Str :=
  (some (Text.uppercase (trim text))).filter fun crc => crc ≠ []

/-- The entry of a block and, if it is encrypted, its method: `flush`. -/
def readBlock (cur : List (Str × Str)) : Option (ArchiveEntry × List Str) :=
  let value (key : String) := lastValue cur key.toList
  match value "Path" with
  | none => none
  | some path =>
    if (value "Attributes").isNone ∧ (value "Folder").isNone then none
    else
      let encrypted := decide (value "Encrypted" = some ['+'])
      some
        ({ path := normalizePath path
           size := ((value "Size").bind Cache.parseUsize).getD 0
           packedSize := ((value "Packed Size").bind Cache.parseUsize).getD 0
           modified := (value "Modified").bind fromCliText
           isDir := decide (value "Folder" = some ['+']) ||
             (value "Attributes").any fun attributes => 'D' ∈ attributes
           encrypted := encrypted
           crc32 := (value "CRC").bind readCrc },
          if encrypted then ((value "Method").map trim).toList.filter fun method => method ≠ []
          else [])

structure Listing where
  entries : List ArchiveEntry := []
  cur : List (Str × Str) := []
  headerProps : List (Str × Str) := []
  inEntries : Bool := false
  encryptedMethods : List Str := []

namespace Listing

def flush (listing : Listing) : Listing :=
  match readBlock fromCliText listing.cur with
  | some (entry, methods) =>
    { listing with
      entries := listing.entries ++ [entry]
      cur := []
      encryptedMethods := listing.encryptedMethods ++ methods }
  | none => { listing with cur := [] }

def step (listing : Listing) (line : Str) : Listing :=
  match readLine line with
  | .separator => { listing with inEntries := true }
  | .property key value =>
    if key = "Path".toList then
      { listing.flush fromCliText with inEntries := true, cur := [(key, value)] }
    else if listing.inEntries ∧ listing.cur ≠ [] ∧ isHeaderKey key = false then
      { listing with cur := listing.cur ++ [(key, value)] }
    else { listing with headerProps := listing.headerProps ++ [(key, value)] }
  | .blank => listing.flush fromCliText
  | .other => listing

def read (listing : Listing) (lines : List Str) : Listing := lines.foldl (step fromCliText) listing

end Listing

def stated (properties : List (Str × Str)) (key : String) : Option Str :=
  ((lastValue properties key.toList).map trim).filter fun value => value ≠ []

def affirms (properties : List (Str × Str)) (key : String) : Bool :=
  (lastValue properties key.toList).any fun value =>
    value = ['+'] ∨ eqIgnoreAsciiCase value "yes".toList

def mentions (properties : List (Str × Str)) (text : String) : Bool :=
  (lastValue properties "Characteristics".toList).any fun value =>
    containsText (CharTables.toLowercase value) text.toList

def parseListSlt (archivePath slt : Str) : ArchiveInfo :=
  let listing := (Listing.read fromCliText {} (lines slt)).flush fromCliText
  let header := listing.headerProps
  let encrypted :=
    listing.entries.any ArchiveEntry.encrypted || affirms header "Encrypted" ||
      (stated header "Encryption").isSome || mentions header "encrypted"
  let headersEncrypted :=
    affirms header "Headers Encrypted" || (stated header "Header Encryption").isSome ||
      mentions header "headers encrypted" || mentions header "encrypted headers"
  let methods :=
    listing.encryptedMethods ++ (stated header "Encryption").toList ++
      (stated header "Header Encryption").toList
  { archivePath := archivePath
    archiveKind := parseKind slt
    entries := listing.entries
    encrypted := encrypted
    headersEncrypted := headersEncrypted
    encryptionMethod :=
      if encrypted || headersEncrypted then
        if methods ≠ [] then some (join ", ".toList (sortedSet methods))
        else lastValue header "Method".toList
      else none }

end

/-! ## What 7-Zip prints -/

/-- One `Key = value`. -/
def printLine (property : Str × Str) : Str := property.1 ++ (" = ".toList ++ property.2)

/-- An entry with the attributes and the method that are printed for it. -/
structure Block where
  entry : ArchiveEntry
  attributes : Str
  method : Str
  sizes : entry.size < 2 ^ 64 ∧ entry.packedSize < 2 ^ 64
  directory : entry.isDir = decide ('D' ∈ attributes)
  oneLine : ∀ value ∈ [entry.path, entry.modified.getD [], attributes, entry.crc32.getD [], method],
    '\n' ∉ value ∧ '\r' ∉ value

namespace Block

def properties (block : Block) : List (Str × Str) :=
  [("Path".toList, block.entry.path), ("Size".toList, decimal block.entry.size),
    ("Packed Size".toList, decimal block.entry.packedSize),
    ("Modified".toList, block.entry.modified.getD []),
    ("Attributes".toList, block.attributes), ("CRC".toList, block.entry.crc32.getD []),
    ("Encrypted".toList, if block.entry.encrypted then ['+'] else ['-']),
    ("Method".toList, block.method)]

/-- The lines of a block, with the blank line behind it. -/
def lines (block : Block) : List Str := block.properties.map printLine ++ [[]]

end Block

/-- What is printed about the archive itself: nothing that an entry has. -/
structure Header where
  lines : List Str
  oneLine : ∀ line ∈ lines, '\n' ∉ line ∧ '\r' ∉ line
  noEntry : ∀ line ∈ lines, ∀ key value, readLine line = .property key value →
    key ≠ "Attributes".toList ∧ key ≠ "Folder".toList

def printedLines (header : Header) (blocks : List Block) : List Str :=
  header.lines ++ [[], "----------".toList] ++ blocks.flatMap Block.lines

/-- The output of `7z l -slt`. -/
def printed (header : Header) (blocks : List Block) : Str :=
  join ['\n'] (printedLines header blocks ++ [[]])

/-! ## Reading lines -/

def printedKeys : List Str :=
  ["Path".toList, "Size".toList, "Packed Size".toList, "Modified".toList,
    "Attributes".toList, "CRC".toList, "Encrypted".toList, "Method".toList]

theorem trim_decimal (number : Nat) : trim (decimal number) = decimal number := by
  have digits : ∀ char ∈ decimal number, isWhitespace char = false := by
    intro char mem
    have isDigit : char.isDigit = true := Nat.isDigit_of_mem_toDigits (by decide) (by decide) mem
    simp only [Char.isDigit, Bool.and_eq_true, decide_eq_true_eq, UInt32.le_iff_toNat_le,
      ge_iff_le] at isDigit
    have above : 48 ≤ char.toNat := isDigit.1
    have below : char.toNat ≤ 57 := isDigit.2
    simp [isWhitespace]
    omega
  have framed : Framed isWhitespace (decimal number) [] (decimal number) [] :=
    ⟨(append_nil _).symm, fun _ mem => (by cases mem), fun _ mem => (by cases mem),
      fun char isHead => digits char (mem_of_mem_head? isHead),
      fun char isLast => digits char (mem_of_getLast? isLast)⟩
  exact framed.trimEnd_trimStart

theorem mem_trim_iff {char : Char} (visible : isWhitespace char = false) (text : Str) :
    char ∈ trim text ↔ char ∈ text := by
  obtain ⟨_, core, _, framed⟩ := exists_framed isWhitespace text
  have trimmed : trim text = core := framed.trimEnd_trimStart
  rw [trimmed, framed.whole, mem_append, mem_append]
  refine ⟨fun inCore => .inl (.inr inCore), fun among => ?_⟩
  rcases among with (inBefore | inCore) | inAfter
  · rw [framed.before char inBefore] at visible
    cases visible
  · exact inCore
  · rw [framed.after char inAfter] at visible
    cases visible

theorem readTrimmed_key : ∀ key ∈ printedKeys, ∀ rest,
    startsWith (key ++ (" = ".toList ++ rest)) "----------".toList = false ∧
      splitOnceText " = ".toList (key ++ (" = ".toList ++ rest)) = some (key, rest) := by
  simp only [printedKeys, forall_mem_cons]
  refine ⟨fun rest => ⟨rfl, rfl⟩, fun rest => ⟨rfl, rfl⟩, fun rest => ⟨rfl, rfl⟩,
    fun rest => ⟨rfl, rfl⟩, fun rest => ⟨rfl, rfl⟩, fun rest => ⟨rfl, rfl⟩,
    fun rest => ⟨rfl, rfl⟩, fun rest => ⟨rfl, rfl⟩, ?_⟩
  exact nofun

theorem readTrimmed_blank : ∀ key ∈ printedKeys,
    trim key = key ∧ startsWith (key ++ " =".toList) "----------".toList = false ∧
      splitOnceText " = ".toList (key ++ " =".toList) = none := by
  decide

theorem readLine_key {key : Str} (isKey : key ∈ printedKeys) (value : Str) :
    readLine (key ++ (" = ".toList ++ value)) =
      if trim value = [] then .other else .property key (trim value) := by
  obtain ⟨sameKey, noDashes, noValue⟩ := readTrimmed_blank key isKey
  obtain ⟨before, core, after, framed⟩ := exists_framed isWhitespace value
  have trimmed : trim value = core := framed.trimEnd_trimStart
  have ended {text : Str} {last : Char} (stops : isWhitespace last = false) :
      ∀ char ∈ (text ++ [last]).getLast?, isWhitespace char = false := by
    simpa using stops
  rw [trimmed]
  unfold readLine
  by_cases blank : core = []
  · subst blank
    have line :
        trimEndMatches isWhitespace (key ++ (" = ".toList ++ value)) = key ++ " =".toList := by
      have whole : key ++ (" = ".toList ++ value) = (key ++ [' '] ++ ['=']) ++ (' ' :: value) := by
        simp
      rw [whole, trimEndMatches_of_bare _ (ended (by decide))]
      · simp
      · exact forall_mem_cons.mpr ⟨by decide, framed.all_of_nil⟩
    dsimp only
    rw [line, noDashes, noValue, if_pos rfl]
    simp
  · have line : trimEndMatches isWhitespace (key ++ (" = ".toList ++ value)) =
        key ++ (" = ".toList ++ (before ++ core)) := by
      have whole :
          key ++ (" = ".toList ++ value) = (key ++ (" = ".toList ++ before) ++ core) ++ after := by
        rw [framed.whole]
        simp
      rw [whole, trimEndMatches_of_bare framed.after]
      · simp
      · rw [List.getLast?_append_of_ne_nil _ blank]
        exact framed.bare.ended
    have inner : Framed isWhitespace (before ++ core) before core [] :=
      ⟨(append_nil _).symm, framed.before, fun _ mem => (by cases mem), framed.bare⟩
    have sameValue : trim (before ++ core) = core := inner.trimEnd_trimStart
    obtain ⟨noDashes, split⟩ := readTrimmed_key key isKey (before ++ core)
    dsimp only
    rw [line, noDashes, split, if_neg blank]
    simp [sameKey, sameValue]

theorem Block.oneLine_properties (block : Block) : ∀ property ∈ block.properties,
    property.1 ∈ printedKeys ∧ '\n' ∉ property.2 ∧ '\r' ∉ property.2 := by
  have digits (number : Nat) : '\n' ∉ decimal number ∧ '\r' ∉ decimal number := by
    rw [decimal_eq_paddedDecimal]
    exact ⟨fun mem => (by cases isDigit_of_mem_paddedDecimal mem),
      fun mem => (by cases isDigit_of_mem_paddedDecimal mem)⟩
  have mark : ∀ mark : Bool, '\n' ∉ (if mark then ['+'] else ['-']) ∧
      '\r' ∉ (if mark then ['+'] else ['-']) := by
    decide
  have texts := block.oneLine
  simp only [forall_mem_cons] at texts
  obtain ⟨path, modified, attributes, crc, method, -⟩ := texts
  simp only [properties, forall_mem_cons]
  exact ⟨⟨by decide, path⟩, ⟨by decide, digits _⟩, ⟨by decide, digits _⟩, ⟨by decide, modified⟩,
    ⟨by decide, attributes⟩, ⟨by decide, crc⟩, ⟨by decide, mark _⟩, ⟨by decide, method⟩,
    nofun⟩

theorem lines_printed (header : Header) (blocks : List Block) :
    Text.lines (printed header blocks) = printedLines header blocks := by
  have clean : ∀ line ∈ printedLines header blocks, '\n' ∉ line ∧ '\r' ∉ line := by
    intro line among
    rcases mem_append.mp among with ofHeader | ofBlocks
    · rcases mem_append.mp ofHeader with listed | behind
      · exact header.oneLine line listed
      · have fixed : ∀ line ∈ [[], "----------".toList], '\n' ∉ line ∧ '\r' ∉ line := by decide
        exact fixed line behind
    · obtain ⟨block, -, ofBlock⟩ := mem_flatMap.mp ofBlocks
      rcases mem_append.mp ofBlock with printed | last
      · obtain ⟨property, listed, rfl⟩ := mem_map.mp printed
        obtain ⟨isKey, value⟩ := block.oneLine_properties property listed
        have key : ∀ key ∈ printedKeys,
            '\n' ∉ key ++ " = ".toList ∧ '\r' ∉ key ++ " = ".toList := by
          decide
        have apart := key _ isKey
        simp only [printLine, ← append_assoc]
        exact ⟨fun among => (mem_append.mp among).elim apart.1 value.1,
          fun among => (mem_append.mp among).elim apart.2 value.2⟩
      · rw [mem_singleton.mp last]
        exact ⟨not_mem_nil, not_mem_nil⟩
  have split : (printed header blocks).splitOn '\n' = printedLines header blocks ++ [[]] := by
    refine splitOn_intercalate '\n' (fun line mem => ?_) (by simp)
    rcases mem_append.mp mem with among | last
    · exact (clean line among).1
    · rw [mem_singleton.mp last]
      exact not_mem_nil
  have kept (line : Str) (among : line ∈ printedLines header blocks) :
      (line.dropSuffix? ['\r']).getD line = line := by
    cases dropped : line.dropSuffix? ['\r'] with
    | none => rfl
    | some =>
      obtain ⟨last, whole, same⟩ := List.dropSuffix?_eq_some_iff.mp dropped
      refine absurd ?_ (clean line among).2
      rw [whole, eq_of_beq same]
      simp
  rw [Text.lines, split, List.getLast?_concat, if_pos rfl, dropLast_concat,
    map_congr_left kept, map_id']

end Arclain.SevenZipCli
