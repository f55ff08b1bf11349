import Arclain.SevenZipListing

namespace Arclain.SevenZipCli

/-!
# The blocks of a listing

The loop keeps the block that it is in, so blocks are read one by one: the properties behind
a path are those of the block, and the blank line ends it.
-/

open List Option Text ModInfo ArchiveEntry Block Listing

/-! ## The loop -/

theorem lastValue_append (first second : List (Str × Str)) (key : Str) :
    lastValue (first ++ second) key = (lastValue second key).or (lastValue first key) := by
  induction first with
  | nil => rw [nil_append, lastValue, or_none]
  | cons _ _ ih => rw [cons_append, lastValue, lastValue, ih, Option.or_assoc]

variable {properties : List (Str × Str)}

theorem lastValue_eq_none {key : Str}
    (absent : ∀ property ∈ properties, property.1 ≠ key) : lastValue properties key = none := by
  induction properties with
  | nil => rfl
  | cons property _ ih =>
    obtain ⟨first, others⟩ := forall_mem_cons.mp absent
    rw [lastValue, ih others, if_neg first]
    rfl

/-- The part of the properties of a block that the loop takes for the block. -/
def kept (property : Str × Str) : List (Str × Str) :=
  if trim property.2 = [] ∨ isHeaderKey property.1 = true then []
  else [(property.1, trim property.2)]

variable {property : Str × Str}

theorem lastValue_kept (distinct : (properties.map Prod.fst).Nodup)
    (mem : property ∈ properties) :
    lastValue (properties.flatMap kept) property.1 = lastValue (kept property) property.1 := by
  have foreign {other : Str × Str} {key : Str} (different : other.1 ≠ key) :
      lastValue (kept other) key = none := by
    refine lastValue_eq_none fun found among => ?_
    unfold kept at among
    split at among
    · cases among
    · rw [mem_singleton.mp among]
      exact different
  induction properties with
  | nil => cases mem
  | cons first rest ih =>
    obtain ⟨fresh, distinctRest⟩ := nodup_cons.mp distinct
    rw [flatMap_cons, lastValue_append]
    rcases mem_cons.mp mem with rfl | later
    · have none : lastValue (rest.flatMap kept) property.1 = none := by
        refine lastValue_eq_none fun found among same => ?_
        obtain ⟨other, listed, ofOther⟩ := mem_flatMap.mp among
        unfold kept at ofOther
        split at ofOther
        · cases ofOther
        · rw [mem_singleton.mp ofOther] at same
          change other.1 = property.1 at same
          exact fresh (same ▸ mem_map_of_mem listed)
      rw [none, none_or]
    · have different : first.1 ≠ property.1 := fun same => fresh (same ▸ mem_map_of_mem later)
      rw [foreign different, or_none]
      exact ih distinctRest later

theorem Block.distinct_keys (block : Block) : (block.properties.map Prod.fst).Nodup :=
  show printedKeys.Nodup by decide

theorem value_of_property {block : Block} {key value : Str}
    (mem : (key, value) ∈ block.properties) (notHeader : isHeaderKey key = false) :
    lastValue (block.properties.flatMap kept) key =
      if trim value = [] then none else some (trim value) := by
  refine (lastValue_kept block.distinct_keys mem).trans ?_
  rw [kept, notHeader]
  by_cases blank : trim value = []
  · rw [if_pos (.inl blank), if_pos blank]
    rfl
  · rw [if_neg (by simp [blank]), if_neg blank, lastValue, if_pos rfl]
    rfl

def propertiesOf (lines : List Str) : List (Str × Str) :=
  lines.flatMap fun line =>
    match readLine line with
    | .property key value => [(key, value)]
    | _ => []

theorem mem_of_lastValue {key value : Str}
    (found : lastValue properties key = some value) : (key, value) ∈ properties := by
  induction properties with
  | nil => cases found
  | cons _ _ ih =>
    rw [lastValue, or_eq_some_iff] at found
    rcases found with later | ⟨-, first⟩
    · exact .tail _ (ih later)
    · obtain ⟨same, value⟩ := ite_none_right_eq_some.mp first
      rw [← same, ← some.inj value]
      exact .head _

theorem lastValue_ne_none
    (mem : property ∈ properties) : lastValue properties property.1 ≠ none := by
  induction properties with
  | nil => cases mem
  | cons _ _ ih =>
    rw [lastValue, ne_eq, or_eq_none_iff, not_and_or]
    rcases mem_cons.mp mem with rfl | later
    · exact .inr (by simp)
    · exact .inl (ih later)

variable {blocks : List Block}

theorem mem_propertiesOf_blocks {found : Str × Str} :
    found ∈ propertiesOf (blocks.flatMap Block.lines) ↔
      ∃ block ∈ blocks, ∃ property ∈ block.properties,
        trim property.2 ≠ [] ∧ (property.1, trim property.2) = found := by
  have one (block : Block) {property : Str × Str} (listed : property ∈ block.properties) :
      found ∈ propertiesOf [printLine property] ↔
        trim property.2 ≠ [] ∧ (property.1, trim property.2) = found := by
    rw [propertiesOf, flatMap_singleton, printLine,
      readLine_key (block.oneLine_properties property listed).1]
    by_cases blank : trim property.2 = []
    · rw [if_pos blank]
      exact iff_of_false not_mem_nil fun present => present.1 blank
    · rw [if_neg blank, mem_singleton, eq_comm]
      exact (and_iff_right blank).symm
  have singles (lines : List Str) :
      found ∈ propertiesOf lines ↔ ∃ line ∈ lines, found ∈ propertiesOf [line] := by
    simp only [propertiesOf, flatMap_singleton]
    exact mem_flatMap
  rw [singles]
  constructor
  · rintro ⟨line, among, read⟩
    obtain ⟨block, listed, ofBlock⟩ := mem_flatMap.mp among
    rcases mem_append.mp ofBlock with printed | last
    · obtain ⟨property, ofProperties, rfl⟩ := mem_map.mp printed
      exact ⟨block, listed, property, ofProperties, (one block ofProperties).mp read⟩
    · rw [mem_singleton.mp last] at read
      cases read
  · rintro ⟨block, listed, property, ofProperties, present⟩
    refine ⟨printLine property, mem_flatMap.mpr ⟨block, listed, ?_⟩,
      (one block ofProperties).mpr present⟩
    exact mem_append_left _ (mem_map_of_mem ofProperties)

theorem mark_of_blocks (nonempty : blocks ≠ [])
    (unencrypted : ∀ block ∈ blocks, block.entry.encrypted = false) :
    lastValue (propertiesOf (blocks.flatMap Block.lines)) "Encrypted".toList = some ['-'] := by
  have listed (block : Block) :
      ("Encrypted".toList, if block.entry.encrypted then ['+'] else ['-']) ∈ block.properties :=
    .tail _ (.tail _ (.tail _ (.tail _ (.tail _ (.tail _ (.head _))))))
  obtain ⟨first, among⟩ := exists_mem_of_ne_nil blocks nonempty
  have some :=
    lastValue_ne_none (mem_propertiesOf_blocks.mpr
      ⟨first, among, _, listed first, by rw [unencrypted first among]; decide, rfl⟩)
  obtain ⟨_, found⟩ := ne_none_iff_exists'.mp some
  obtain ⟨block, mem, _, ofBlock, -, same⟩ :=
    mem_propertiesOf_blocks.mp (mem_of_lastValue found)
  obtain ⟨key, trimmed⟩ := Prod.mk.inj same
  have mark := inj_on_of_nodup_map block.distinct_keys ofBlock (listed block) key
  rw [mark, unencrypted block mem] at trimmed
  rw [found, ← trimmed]
  rfl

theorem map_filterMap_eq_iff {Item Read Seen : Type} {read : Item → Option Read} {see : Read → Seen}
    {shown : Item → Seen} (items : List Item) : (items.filterMap read).map see = items.map shown ↔
      ∀ item ∈ items, (read item).map see = some (shown item) := by
  induction items with
  | nil => exact iff_of_true rfl nofun
  | cons item rest ih =>
    rw [forall_mem_cons, filterMap_cons, map_cons]
    cases read item with
    | none =>
      refine iff_of_false (fun same => ?_) fun all => by cases all.1
      change (rest.filterMap read).map see = shown item :: rest.map shown at same
      have fewer := length_filterMap_le read rest
      have lengths := congrArg List.length same
      rw [length_map, length_cons, length_map] at lengths
      omega
    | some => rw [map_cons, cons.injEq, ih, map_some, some.injEq]

section

variable [CharTables] {fromCliText : Str → Option Str}

theorem read_append (listing : Listing) (first second : List Str) :
    listing.read fromCliText (first ++ second) =
      (listing.read fromCliText first).read fromCliText second :=
  foldl_append

theorem flush_headerProps (listing : Listing) :
    (listing.flush fromCliText).headerProps = listing.headerProps := by
  unfold flush
  split
  · rfl
  · rfl

theorem headerProps_read {key : Str} (isHeader : isHeaderKey key = true) (lines : List Str)
    (listing : Listing) : lastValue (listing.read fromCliText lines).headerProps key =
      (lastValue (propertiesOf lines) key).or (lastValue listing.headerProps key) := by
  induction lines generalizing listing with
  | nil => rfl
  | cons line rest ih =>
    have step : lastValue (listing.step fromCliText line).headerProps key =
        (lastValue (propertiesOf [line]) key).or (lastValue listing.headerProps key) := by
      unfold step propertiesOf
      rw [flatMap_singleton]
      cases readLine line with
      | separator => rfl
      | blank => exact congrArg (lastValue · key) (flush_headerProps listing)
      | other => rfl
      | property found value =>
        have other (notHeader : isHeaderKey found = false) :
            lastValue [(found, value)] key = none := by
          refine lastValue_eq_none fun property mem same => ?_
          rw [mem_singleton.mp mem] at same
          rw [← same, notHeader] at isHeader
          cases isHeader
        dsimp only
        split
        next isPath =>
          rw [other (isPath ▸ by decide)]
          exact congrArg (lastValue · key) (flush_headerProps listing)
        · split
          next inBlock =>
            rw [other inBlock.2.2]
            rfl
          · exact lastValue_append _ _ _
    have whole : propertiesOf (line :: rest) = propertiesOf [line] ++ propertiesOf rest := by
      unfold propertiesOf
      rw [flatMap_cons, flatMap_singleton]
    rw [Listing.read, foldl_cons, whole, lastValue_append, Option.or_assoc, ← step]
    exact ih _

theorem read_header (header : Header) :
    (read fromCliText {} (header.lines ++ [[], "----------".toList])).entries = [] ∧
      (read fromCliText {} (header.lines ++ [[], "----------".toList])).cur = [] := by
  let EntryFree (listing : Listing) : Prop :=
    listing.entries = [] ∧ ∀ property ∈ listing.cur,
      property.1 ≠ "Attributes".toList ∧ property.1 ≠ "Folder".toList
  have flushed {listing : Listing} (free : EntryFree listing) :
      listing.flush fromCliText = { listing with cur := [] } := by
    have attributes := lastValue_eq_none fun property among => (free.2 property among).1
    have folder := lastValue_eq_none fun property among => (free.2 property among).2
    have nothing : readBlock fromCliText listing.cur = none := by
      unfold readBlock
      dsimp only
      split
      · rfl
      · exact if_pos ⟨by rw [attributes]; rfl, by rw [folder]; rfl⟩
    rw [flush, nothing]
  have reads (lines : List Str) (among : lines ⊆ header.lines) (listing : Listing)
      (free : EntryFree listing) : EntryFree (listing.read fromCliText lines) := by
    induction lines generalizing listing with
    | nil => exact free
    | cons line _ ih =>
      obtain ⟨listed, others⟩ := cons_subset.mp among
      refine ih others _ ?_
      unfold step
      cases found : readLine line with
      | separator => exact free
      | blank =>
        dsimp only
        rw [flushed free]
        exact ⟨free.1, nofun⟩
      | other => exact free
      | property key value =>
        have noEntry := header.noEntry line listed key value found
        have more {properties : List (Str × Str)} (earlier : ∀ property ∈ properties,
            property.1 ≠ "Attributes".toList ∧ property.1 ≠ "Folder".toList) :
            ∀ property ∈ properties ++ [(key, value)],
              property.1 ≠ "Attributes".toList ∧ property.1 ≠ "Folder".toList :=
          forall_mem_append.mpr ⟨earlier, forall_mem_singleton.mpr noEntry⟩
        dsimp only
        split
        · rw [flushed free]
          exact ⟨free.1, forall_mem_singleton.mpr noEntry⟩
        · split
          · exact ⟨free.1, more free.2⟩
          · exact free
  have free := reads header.lines (List.Subset.refl _) {} ⟨rfl, nofun⟩
  have ended (listing : Listing) : listing.read fromCliText [[], "----------".toList] =
      { listing.flush fromCliText with inEntries := true } :=
    rfl
  rw [read_append, ended, flushed free]
  exact ⟨free.1, rfl⟩

variable {listing : Listing} {fields : List (Str × Str)}

theorem read_fields_outside (areFields :
    ∀ field ∈ fields, field.1 ∈ printedKeys ∧ field.1 ≠ "Path".toList)
    (outside : listing.cur = []) :
    (listing.read fromCliText (fields.map printLine)).entries = listing.entries ∧
      (listing.read fromCliText (fields.map printLine)).cur = [] := by
  induction fields generalizing listing with
  | nil => exact ⟨rfl, outside⟩
  | cons field _ ih =>
    obtain ⟨⟨isKey, noPath⟩, others⟩ := forall_mem_cons.mp areFields
    have stepped : (listing.step fromCliText (printLine field)).entries = listing.entries ∧
        (listing.step fromCliText (printLine field)).cur = [] := by
      rw [step, printLine, readLine_key isKey]
      by_cases blank : trim field.2 = []
      · rw [if_pos blank]
        exact ⟨rfl, outside⟩
      · rw [if_neg blank]
        dsimp only
        rw [if_neg noPath, if_neg fun inBlock => inBlock.2.1 outside]
        exact ⟨rfl, outside⟩
    rw [← stepped.1]
    exact ih others stepped.2

theorem read_fields_inside (areFields :
    ∀ field ∈ fields, field.1 ∈ printedKeys ∧ field.1 ≠ "Path".toList)
    (inEntries : listing.inEntries = true) (inside : listing.cur ≠ []) :
    (listing.read fromCliText (fields.map printLine)).entries = listing.entries ∧
      (listing.read fromCliText (fields.map printLine)).cur =
        listing.cur ++ fields.flatMap kept := by
  induction fields generalizing listing with
  | nil => exact ⟨rfl, (append_nil _).symm⟩
  | cons field rest ih =>
    obtain ⟨⟨isKey, noPath⟩, others⟩ := forall_mem_cons.mp areFields
    have stepped : (listing.step fromCliText (printLine field)).entries = listing.entries ∧
        (listing.step fromCliText (printLine field)).inEntries = true ∧
        (listing.step fromCliText (printLine field)).cur = listing.cur ++ kept field := by
      rw [step, printLine, readLine_key isKey, kept]
      by_cases blank : trim field.2 = []
      · rw [if_pos blank, if_pos (.inl blank)]
        exact ⟨rfl, inEntries, (append_nil _).symm⟩
      · rw [if_neg blank]
        dsimp only
        rw [if_neg noPath]
        cases isHeader : isHeaderKey field.1 with
        | true =>
          rw [if_neg (fun inBlock => by cases inBlock.2.2), if_pos (.inr rfl)]
          exact ⟨rfl, inEntries, (append_nil _).symm⟩
        | false =>
          rw [if_pos ⟨inEntries, inside, rfl⟩, if_neg (by simp [blank])]
          exact ⟨rfl, inEntries, rfl⟩
    obtain ⟨entries, stays, cur⟩ := stepped
    have rest := ih others stays (by simp [cur, inside])
    rw [flatMap_cons, ← append_assoc, ← cur, ← entries]
    exact rest

theorem flush_spec (listing : Listing) : (listing.flush fromCliText).cur = [] ∧
    (listing.flush fromCliText).entries =
      listing.entries ++ ((readBlock fromCliText listing.cur).map Prod.fst).toList := by
  unfold flush
  cases readBlock fromCliText listing.cur with
  | none => exact ⟨rfl, (append_nil _).symm⟩
  | some => exact ⟨rfl, rfl⟩

def Block.readEntry (fromCliText : Str → Option Str) (block : Block) : Option ArchiveEntry :=
  if trim block.entry.path = [] then none
  else (readBlock fromCliText (block.properties.flatMap kept)).map Prod.fst

theorem read_block (block : Block) (outside : listing.cur = []) :
    (listing.read fromCliText block.lines).cur = [] ∧
      (listing.read fromCliText block.lines).entries =
        listing.entries ++ (block.readEntry fromCliText).toList := by
  have areFields :
      ∀ field ∈ block.properties.tail, field.1 ∈ printedKeys ∧ field.1 ≠ "Path".toList := by
    simp only [properties, tail_cons, forall_mem_cons]
    decide
  have whole : listing.read fromCliText block.lines =
      ((listing.step fromCliText (printLine ("Path".toList, block.entry.path))).read fromCliText
        (block.properties.tail.map printLine)).flush fromCliText := by
    have first : block.properties = ("Path".toList, block.entry.path) :: block.properties.tail :=
      rfl
    have blank : readLine [] = .blank := rfl
    rw [Block.lines, read_append, first, map_cons, tail_cons, Listing.read,
      foldl_cons, foldl_nil, step, blank]
    rfl
  have nothing : listing.flush fromCliText = { listing with cur := [] } := by
    rw [flush, outside]
    rfl
  rw [whole, step, printLine, @readLine_key "Path".toList (by decide), readEntry]
  refine ⟨(flush_spec _).1, (flush_spec _).2.trans ?_⟩
  by_cases blank : trim block.entry.path = []
  · rw [if_pos blank, if_pos blank]
    obtain ⟨entries, cur⟩ := read_fields_outside areFields outside
    rw [entries, cur]
    rfl
  · rw [if_neg blank, if_neg blank]
    dsimp only
    rw [if_pos rfl, nothing]
    obtain ⟨entries, cur⟩ :=
      @read_fields_inside _ fromCliText
        { listing with inEntries := true, cur := [("Path".toList, trim block.entry.path)] }
        _ areFields rfl (cons_ne_nil _ _)
    have ofPath : kept ("Path".toList, block.entry.path) =
        [("Path".toList, trim block.entry.path)] :=
      if_neg (not_or.mpr ⟨blank, show ¬ isHeaderKey "Path".toList = true by decide⟩)
    rw [entries, cur, ← ofPath]
    rfl

theorem read_blocks (blocks : List Block) (outside : listing.cur = []) :
    (listing.read fromCliText (blocks.flatMap Block.lines)).cur = [] ∧
      (listing.read fromCliText (blocks.flatMap Block.lines)).entries =
        listing.entries ++ blocks.filterMap (readEntry fromCliText) := by
  induction blocks generalizing listing with
  | nil => exact ⟨outside, (append_nil _).symm⟩
  | cons block _ ih =>
    obtain ⟨cur, entries⟩ := @read_block _ fromCliText _ block outside
    obtain ⟨restCur, restEntries⟩ := ih cur
    rw [flatMap_cons, read_append, restEntries, entries, append_assoc]
    refine ⟨restCur, congrArg _ ?_⟩
    rw [filterMap_cons]
    cases block.readEntry fromCliText with
    | none | some => rfl

theorem entries_parseListSlt (archivePath : Str) (header : Header) (blocks : List Block) :
    (parseListSlt fromCliText archivePath (printed header blocks)).entries =
      blocks.filterMap (readEntry fromCliText) := by
  obtain ⟨none, outside⟩ := @read_header _ fromCliText header
  obtain ⟨cur, entries⟩ := @read_blocks _ fromCliText _ blocks outside
  have flushed := (@flush_spec _ fromCliText
    (read fromCliText {} (printedLines header blocks))).2
  rw [printedLines, read_append, cur, entries, none] at flushed
  change ((read fromCliText {} (Text.lines (printed header blocks))).flush
    fromCliText).entries = _
  rw [lines_printed, printedLines, read_append, flushed]
  exact append_nil _

/-- Everything but the time, which is not printed as it is read. -/
def summary (entry : ArchiveEntry) : ArchiveEntry := { entry with modified := none }

theorem summary_readEntry (block : Block) : (block.readEntry fromCliText).map summary =
    if trim block.entry.path = [] ∨ trim block.attributes = [] then none
    else
      some
        { path := normalizePath (trim block.entry.path)
          size := block.entry.size
          packedSize := block.entry.packedSize
          isDir := block.entry.isDir
          encrypted := false
          crc32 := readCrc (block.entry.crc32.getD []) } := by
  unfold readEntry
  by_cases blank : trim block.entry.path = []
  · rw [if_pos blank, if_pos (.inl blank)]
    rfl
  have absent {key : Str} (foreign : key ∉ printedKeys) :
      lastValue (block.properties.flatMap kept) key = none := by
    refine lastValue_eq_none fun property among same => ?_
    obtain ⟨printed, listed, ofPrinted⟩ := mem_flatMap.mp among
    unfold kept at ofPrinted
    split at ofPrinted
    · cases ofPrinted
    · rw [mem_singleton.mp ofPrinted] at same
      exact foreign (same ▸ (block.oneLine_properties printed listed).1)
  have number {key : Str} {number : Nat} (mem : (key, decimal number) ∈ block.properties)
      (notHeader : isHeaderKey key = false) (small : number < 2 ^ 64) :
      (lastValue (block.properties.flatMap kept) key).bind Cache.parseUsize = some number := by
    have some : decimal number ≠ [] := Nat.toDigits_ne_nil
    rw [value_of_property mem notHeader, trim_decimal, if_neg some]
    exact Cache.parseUsize_decimal small
  have path := @value_of_property block "Path".toList _ (.head _) (by decide)
  have size := @number "Size".toList _ (.tail _ (.head _)) (by decide) block.sizes.1
  have packed :=
    @number "Packed Size".toList _ (.tail _ (.tail _ (.head _))) (by decide) block.sizes.2
  have attributes :=
    @value_of_property block "Attributes".toList _
      (.tail _ (.tail _ (.tail _ (.tail _ (.head _))))) (by decide)
  have crc :=
    @value_of_property block "CRC".toList _
      (.tail _ (.tail _ (.tail _ (.tail _ (.tail _ (.head _)))))) (by decide)
  have folder := @absent "Folder".toList (by decide)
  have unmarked :
      decide (lastValue (block.properties.flatMap kept) "Encrypted".toList = some ['+']) =
        false := by
    have archiveKey (value : Str) : kept ("Encrypted".toList, value) = [] :=
      if_pos (.inr (show isHeaderKey "Encrypted".toList = true by decide))
    have taken :=
      lastValue_kept block.distinct_keys
        (.tail _ (.tail _ (.tail _ (.tail _ (.tail _ (.tail _ (.head _)))))))
    rw [archiveKey] at taken
    exact decide_eq_false fun marked => by cases taken.symm.trans marked
  have noFolder : decide (lastValue (block.properties.flatMap kept) "Folder".toList = some ['+']) =
      false :=
    decide_eq_false fun marked => by cases folder.symm.trans marked
  rw [if_neg blank] at path ⊢
  unfold readBlock
  dsimp only
  rw [path]
  dsimp only
  by_cases noAttributes : trim block.attributes = []
  · rw [if_pos noAttributes] at attributes
    rw [if_pos ⟨by rw [attributes]; rfl, by rw [folder]; rfl⟩, if_pos (.inr noAttributes)]
    rfl
  · rw [if_neg noAttributes] at attributes
    rw [if_neg fun without => (by rw [attributes] at without; cases without.1),
      if_neg (not_or.mpr ⟨blank, noAttributes⟩)]
    have crc32 : (lastValue (block.properties.flatMap kept) "CRC".toList).bind readCrc =
        readCrc (block.entry.crc32.getD []) := by
      rw [crc]
      unfold readCrc
      by_cases noCrc : trim (block.entry.crc32.getD []) = []
      · rw [if_pos noCrc, noCrc]
        rfl
      · rw [if_neg noCrc, bind_some, trim_trim]
    refine congrArg some ?_
    rw [summary, ArchiveEntry.mk.injEq]
    refine ⟨rfl, ?_, ?_, rfl, ?_, unmarked, crc32⟩
    · rw [size]
      rfl
    · rw [packed]
      rfl
    · rw [noFolder, attributes, Bool.false_or, any_some, block.directory]
      exact decide_eq_decide.mpr (mem_trim_iff (by decide) _)

structure Block.IsPlain (block : Block) : Prop where
  path : trim block.entry.path ≠ []
  normalized : normalizePath (trim block.entry.path) = block.entry.path
  attributes : trim block.attributes ≠ []
  crc32 : readCrc (block.entry.crc32.getD []) = block.entry.crc32
  unencrypted : block.entry.encrypted = false

theorem summary_eq_iff (block : Block) :
    (block.readEntry fromCliText).map summary = some (summary block.entry) ↔ block.IsPlain := by
  rw [summary_readEntry]
  constructor
  · intro read
    split at read
    · cases read
    next present =>
      obtain ⟨path, attributes⟩ := not_or.mp present
      have fields := some.inj read
      rw [summary, ArchiveEntry.mk.injEq] at fields
      obtain ⟨normalized, -, -, -, -, unencrypted, crc32⟩ := fields
      exact ⟨path, normalized, attributes, crc32, unencrypted.symm⟩
  · rintro ⟨path, normalized, attributes, crc32, unencrypted⟩
    rw [if_neg (not_or.mpr ⟨path, attributes⟩), normalized, crc32, summary, unencrypted]

/-! ## The archive -/

/-- The header says that the archive is encrypted, or would if there were no block. -/
def Header.claimsEncryption (header : Header) (blocks : List Block) : Bool :=
  (stated (propertiesOf header.lines) "Encryption").isSome ||
    mentions (propertiesOf header.lines) "encrypted" ||
    (blocks.isEmpty && affirms (propertiesOf header.lines) "Encrypted")

theorem headerProps_printed {key : Str} (isHeader : isHeaderKey key = true) (header : Header)
    (blocks : List Block) :
    lastValue ((read fromCliText {} (printedLines header blocks)).flush
      fromCliText).headerProps key = (lastValue (propertiesOf (blocks.flatMap Block.lines)) key).or
        (lastValue (propertiesOf header.lines) key) := by
  have fixed : propertiesOf [[], "----------".toList] = [] := by rfl
  have apart (first second : List Str) :
      propertiesOf (first ++ second) = propertiesOf first ++ propertiesOf second :=
    flatMap_append
  rw [flush_headerProps, headerProps_read isHeader, printedLines, apart, apart, fixed,
    append_nil, lastValue_append]
  exact or_none

/-- One entry for each block, with what the block says, of an encrypted archive exactly when
a block is encrypted. -/
def ReadsBlocks (fromCliText : Str → Option Str) (archivePath : Str) (header : Header)
    (blocks : List Block) : Prop :=
  let info := parseListSlt fromCliText archivePath (printed header blocks)
  info.entries.map summary = (blocks.map fun block => summary block.entry) ∧
    (info.encrypted = true ↔ ∃ block ∈ blocks, block.entry.encrypted = true)

/-- Blocks are read back exactly when none is encrypted, their fields are plain, and the
header claims no encryption. -/
theorem reads_blocks_iff (fromCliText : Str → Option Str) (archivePath : Str) (header : Header)
    (blocks : List Block) : ReadsBlocks fromCliText archivePath header blocks ↔
      (∀ block ∈ blocks, block.IsPlain) ∧ header.claimsEncryption blocks = false := by
  have entries := @entries_parseListSlt _ fromCliText archivePath header blocks
  have each : ((blocks.filterMap (readEntry fromCliText)).map summary =
      blocks.map fun block => summary block.entry) ↔ ∀ block ∈ blocks, block.IsPlain :=
    (map_filterMap_eq_iff blocks).trans (forall₂_congr fun block _ => summary_eq_iff block)
  unfold ReadsBlocks
  dsimp only
  rw [entries, each]
  refine and_congr_right fun plain => ?_
  have noneEncrypted : ¬ ∃ block ∈ blocks, block.entry.encrypted = true := by
    rintro ⟨block, listed, encrypted⟩
    rw [(plain block listed).unencrypted] at encrypted
    cases encrypted
  rw [iff_false_right noneEncrypted, Bool.not_eq_true]
  have noEntry :
      ((blocks.filterMap (readEntry fromCliText)).any encrypted) = false := by
    have summarized := congrArg (·.any encrypted) (each.mpr plain)
    simp only [List.any_map] at summarized
    refine Eq.trans summarized (List.any_eq_false.mpr fun block listed => ?_)
    rw [Function.comp_apply, summary, (plain block listed).unencrypted]
    exact Bool.false_ne_true
  let listing := (read fromCliText {} (Text.lines (printed header blocks))).flush fromCliText
  have stands {key : Str} (isHeader : isHeaderKey key = true) : lastValue listing.headerProps key =
      (lastValue (propertiesOf (blocks.flatMap Block.lines)) key).or
        (lastValue (propertiesOf header.lines) key) := by
    simp only [listing, lines_printed]
    exact headerProps_printed isHeader header blocks
  have ofHeader {key : Str} (isHeader : isHeaderKey key = true) (foreign : key ∉ printedKeys) :
      lastValue listing.headerProps key = lastValue (propertiesOf header.lines) key := by
    have absent : lastValue (propertiesOf (blocks.flatMap Block.lines)) key = none := by
      refine lastValue_eq_none fun found mem same => ?_
      obtain ⟨block, -, property, listed, -, rfl⟩ := mem_propertiesOf_blocks.mp mem
      exact foreign (same ▸ (block.oneLine_properties property listed).1)
    rw [stands isHeader, absent, none_or]
  have marked : affirms listing.headerProps "Encrypted" =
      (blocks.isEmpty && affirms (propertiesOf header.lines) "Encrypted") := by
    unfold affirms
    rw [stands (by decide)]
    by_cases empty : blocks = []
    · rw [empty]
      rfl
    · rw [mark_of_blocks empty fun block listed => (plain block listed).unencrypted,
        isEmpty_eq_false_iff.mpr empty]
      rfl
  have flag : (parseListSlt fromCliText archivePath (printed header blocks)).encrypted =
      (listing.entries.any encrypted || affirms listing.headerProps "Encrypted" ||
        (stated listing.headerProps "Encryption").isSome ||
        mentions listing.headerProps "encrypted") :=
    rfl
  have listed : listing.entries = blocks.filterMap (readEntry fromCliText) := entries
  rw [flag, listed, noEntry, marked, Header.claimsEncryption, stated, stated, mentions, mentions,
    ofHeader (by decide) (by decide), ofHeader (by decide) (by decide), Bool.false_or,
    Bool.or_assoc, Bool.or_comm]

end

def lockedBlock : Block where
  entry :=
    { path := ['a']
      size := 1
      packedSize := 1
      isDir := false
      encrypted := true
      crc32 := none }
  attributes := ['A']
  method := "7zAES".toList
  sizes := by decide
  directory := by decide
  oneLine := by decide

/-- A block with `Encrypted = +` gives no entry. -/
theorem encrypted_entry_missed : ¬ ∀ fromCliText archivePath header blocks,
    @ReadsBlocks asciiTables fromCliText archivePath header blocks := by
  intro always
  let header : Header := ⟨[], fun _ mem => (by cases mem), nofun⟩
  obtain ⟨entries, -⟩ := always (fun _ => none) [] header [lockedBlock]
  rw [@entries_parseListSlt asciiTables, @map_filterMap_eq_iff] at entries
  have read := (@summary_eq_iff asciiTables _ lockedBlock).mp (entries _ (.head _))
  exact absurd (@Block.IsPlain.unencrypted asciiTables lockedBlock read) (by decide)

end Arclain.SevenZipCli
