import Arclain.DataService

namespace Arclain.HostMetadata

/-!
# The host functions that reach the metadata library

A plugin emits metadata, asks for that of a product, requests data or has it fetched into
the cache.  An emission goes through the write budget and gets the plugin's name; a look-up
takes the row over from the raw responses, or repairs it.
-/

open Cache FaultyCalls Library LibraryService Text

/-- The capabilities of a plugin that these functions check. -/
inductive PluginCapability where
  | archiveMetadataRead
  | archiveMetadataWrite
  | fileRead
  | fileWrite
  | network
  deriving DecidableEq

inductive HostMode where
  | normal
  | metadataValidation
  deriving DecidableEq

/-- `HostFunctions`: what stays the same from call to call. -/
structure HostFunctions where
  mode : HostMode
  pluginId : Str
  capabilities : List PluginCapability
  /-- `library_service` is set, and with it the resolver of the metadata store. -/
  hasLibrary : Bool
  materializationLimit : Nat

namespace MetadataWriteBudget

/-- `MAX_METADATA_WRITES_PER_MINUTE`. -/
def maxWritesPerMinute : Nat := 120

/-- `MAX_METADATA_DISTINCT_IDS_PER_SESSION`. -/
def maxDistinctIds : Nat := 1024

/-- `MAX_METADATA_BYTES_PER_SESSION`. -/
def maxBytes : Nat := 64 * 1024 * 1024

/-- `METADATA_WRITE_WINDOW`. -/
def writeWindow : Nat := 60 * 1000000000

/-- `MetadataWriteBudget::default`. -/
def initial (now : Nat) : MetadataWriteBudget where
  windowStarted := now
  writesInWindow := 0
  acceptedBytes := 0
  distinctIds := []

def renewed (budget : MetadataWriteBudget) (now : Nat) : MetadataWriteBudget :=
  if budget.windowStarted ≤ now ∧ writeWindow ≤ now - budget.windowStarted then
    { budget with windowStarted := now, writesInWindow := 0 }
  else budget

/-- `admit_at`: whether one more write may proceed, and the budget after it. -/
def admitAt (budget : MetadataWriteBudget) (id : Str)
    (bytes now : Nat) : Bool × MetadataWriteBudget :=
  let budget := budget.renewed now
  if maxWritesPerMinute ≤ budget.writesInWindow then (false, budget)
  else if id ∉ budget.distinctIds ∧ maxDistinctIds ≤ budget.distinctIds.length then (false, budget)
  else if 2 ^ 64 ≤ budget.acceptedBytes + bytes then (false, budget)
  else if maxBytes < budget.acceptedBytes + bytes then (false, budget)
  else
    (true,
      { budget with
        writesInWindow := budget.writesInWindow + 1
        acceptedBytes := budget.acceptedBytes + bytes
        distinctIds := budget.distinctIds.insert id })

end MetadataWriteBudget

/-- `MetadataWriteBudget::admit` for the budget of the plugin's instance. -/
def admitWrite {Source : Type} (id : Str) (bytes now : Nat) : Program Source Bool :=
  Faulty.update fun world =>
    let (admitted, budget) := world.budget.admitAt id bytes now
    (admitted, { world with budget })

def maxMetadataProductIdBytes : Nat := 256

def maxMetadataSourceBytes : Nat := 256

def isRawMetadataCacheKey (key : Str) : Bool :=
  match splitOnce ':' key with
  | none => false
  | some (keySpace, remainder) =>
    match splitOnce ':' remainder with
    | none => false
    | some (kind, payload) =>
      !keySpace.isEmpty && !payload.isEmpty &&
        ["json".toList, "html".toList, "metadata".toList].any (eqIgnoreAsciiCase kind)

inductive RequestedSource where
  | metadataCache
  | contentCache
  | localFile
  | memory
  | network
  deriving DecidableEq

/-- The kinds of resources that a plugin can name. -/
inductive RequestedType where
  | binary
  | image
  | json
  deriving DecidableEq

/-- The `DataRequest` of a plugin. -/
structure PluginRequest where
  key : Str
  url : Option Str
  resourceType : RequestedType
  sources : List RequestedSource

section

variable {Source : Type} (outside : Outside Source)

def parseMetadataSource (source : Str) : Option Source :=
  if source.isEmpty || maxMetadataSourceBytes < utf8Len source then none
  else outside.fromStr source

/-- The strings of an array; none if the value is no array. -/
def strings (value : Json) : List Str := (value.asArray.getD []).filterMap Json.asStr

/-- `json!` of an optional value. -/
def orNull {Value : Type} (wrap : Value → Json) (value : Option Value) : Json :=
  (value.map wrap).getD .null

def integerLiteral (value : Int) : Str :=
  if value < 0 then '-' :: decimal value.natAbs else decimal value.natAbs

/-- `str::parse::<u64>` and the cast to `i64`. -/
def parsePrice (text : Str) : Option Int := (parseUsize text).map fun price => wrapI64 price

/-- Without `sample_images`, the `screenshots` if the first of them is a string. -/
def screenshotsOf (parsed : Json) : List Json :=
  let screenshots :=
    (parsed.index "sample_images".toList).asArray.or
      ((parsed.index "screenshots".toList).asArray.filter fun items =>
        (items.head?.map fun item => item.asStr.isSome).getD true)
  (screenshots.getD []).filter fun item => item.asStr.isSome

def dlsiteExtras (parsed : Json) : List (Str × Json) :=
  let text (key : Str) := orNull .string (parsed.index key).asStr
  let array (key : Str) := orNull .array (parsed.index key).asArray
  [("cover_image".toList, text "cover_image".toList),
    ("screenshots".toList, .array (screenshotsOf parsed)),
    ("update_date".toList, text "update_date".toList), ("authors".toList, array "authors".toList),
    ("illustrators".toList, array "illustrators".toList),
    ("scenarios".toList, array "scenarios".toList), ("musicians".toList, array "musicians".toList),
    ("writers".toList, array "writers".toList), ("brand".toList, text "brand".toList),
    ("publisher".toList, text "publisher".toList),
    ("page_count".toList, orNull (fun count => .number (integerLiteral count))
      (parsed.index "page_count".toList).asI64),
    ("series".toList, orNull .string ((parsed.index "series_name".toList).asStr.or
      (((parsed.index "dlsite".toList).index "series".toList).index "name".toList).asStr)),
    ("illustrator".toList, text "illustrator".toList),
    ("voice_actors".toList, array "voice_actors".toList),
    ("product_formats".toList, array "product_formats".toList),
    ("miscellaneous".toList, text "miscellaneous".toList),
    ("update_info".toList, text "update_info".toList),
    ("rankings".toList, orNull .object (parsed.index "rankings".toList).asObject)]

/-- The member of the extras that the host controls. -/
def provenanceKey : Str := "_arclain".toList

def provenance (pluginId : Str) : Json := .object [("emitted_by_plugin".toList, .string pluginId)]

def emittedExtras [DecidableEq Source] (pluginId : Str) (source : Source)
    (parsed : Json) : List (Str × Json) :=
  let extras :=
    Json.insertMember provenanceKey (provenance pluginId)
      ((parsed.index "extras".toList).asObject.getD [])
  if source = outside.dlsite then Json.mergeNonnullInto extras (dlsiteExtras parsed)
  else extras

/-- The row that `impl_save_cached_metadata` makes of an emission. -/
def emittedRow [DecidableEq Source] (pluginId : Str) (source : Source) (id json : Str)
    (parsed : Json) (unixTime : Int) : ProductMetadata Source :=
  let text (key : Str) := (parsed.index key).asStr
  let dlsite (key : Str) := (parsed.index "dlsite".toList).index key
  let title := (text "title".toList).getD "Unknown".toList
  let extras := Json.object (emittedExtras outside pluginId source parsed)
  if (parsed.index "geo_blocked".toList).asBool.getD false then
    { outside.newMetadata source id with
      title := some title
      geoBlocked := true
      extras
      rawApiResponse := some json
      cachedAt := unixTime }
  else
    { id := outside.asStr source ++ ':' :: id
      source
      externalId := id
      title := some title
      creator := (text "creator".toList).or (text "circle".toList)
      description := text "description".toList
      releaseDate := text "release_date".toList
      price := (dlsite "price".toList).asStr.bind parsePrice
      currency := (text "currency".toList).or
        (if source = outside.dlsite then some "JPY".toList else none)
      rating := (parsed.index "rating".toList).asF64.or (dlsite "rate_average_2dp".toList).asF64
      ratingCount := (parsed.index "rating_count".toList).asI64.or
        (dlsite "rate_count".toList).asI64
      purchaseCount := (parsed.index "purchase_count".toList).asI64.or
        (dlsite "dl_count".toList).asI64
      favoriteCount := (parsed.index "favorite_count".toList).asI64.or
        (dlsite "wishlist_count".toList).asI64
      reviewCount := (parsed.index "review_count".toList).asI64.or
        (dlsite "review_count".toList).asI64
      fileSize := (text "file_size".toList).or (dlsite "file_size".toList).asStr
      fileFormat := text "file_format".toList
      ageRating := (text "age_rating".toList).or (dlsite "age_category".toList).asStr
      genres := strings (parsed.index "genres".toList)
      tags := strings (parsed.index "tags".toList)
      languages := strings (parsed.index "languages".toList)
      extras
      rawApiResponse := some json
      rawHtml := none
      geoBlocked := false
      cachedAt := unixTime
      updatedAt := none }

def fullIdOf [CharTables] (source productId : Str) : Str :=
  CharTables.toLowercase source ++ ':' :: productId

def firstWord (text : Str) : Str :=
  let word := (trimStartMatches isWhitespace text).takeWhile (!isWhitespace ·)
  if word.isEmpty then text else word

def parseDlsiteJsonToMetadata [CharTables] (productId source json : Str)
    (unixTime : Int) : Option (ProductMetadata Source) :=
  (outside.parseJson json).map fun value =>
    let data := value.asArray.elim value fun items => items.head?.getD value
    let text (key : Str) := (data.index key).asStr
    { id := fullIdOf source productId
      source := outside.dlsite
      externalId := productId
      title := text "work_name".toList
      creator := text "maker_name".toList
      description := text "intro_s".toList
      releaseDate := (text "regist_date".toList).map firstWord
      price := (data.index "price".toList).asI64.or ((text "price".toList).bind parseI64)
      currency := some "JPY".toList
      rating := (data.index "rate_average_2dp".toList).asF64
      ratingCount := (data.index "rate_count".toList).asI64
      purchaseCount := (data.index "dl_count".toList).asI64
      favoriteCount := (data.index "wishlist_count".toList).asI64
      reviewCount := (data.index "review_count".toList).asI64
      fileSize := text "file_size".toList
      fileFormat := text "file_type".toList
      ageRating := text "age_category_string".toList
      genres := ((data.index "genre".toList).asArray.getD []).filterMap
        fun genre => (genre.index "name".toList).asStr
      tags := []
      languages := []
      extras := .null
      rawApiResponse := some json
      rawHtml := none
      geoBlocked := false
      cachedAt := unixTime
      updatedAt := none }

def scrapedExtras (scraped : ScrapedMetadata) : List (Str × Json) :=
  [("cover_image".toList, scraped.coverImage), ("screenshots".toList, scraped.screenshots),
    ("authors".toList, scraped.authors), ("illustrators".toList, scraped.illustrators),
    ("scenarios".toList, scraped.scenarios), ("musicians".toList, scraped.musicians),
    ("writers".toList, scraped.writers), ("brand".toList, scraped.brand),
    ("publisher".toList, scraped.publisher), ("page_count".toList, scraped.pageCount),
    ("update_date".toList, scraped.updateDate), ("voice_actors".toList, scraped.voiceActors),
    ("series".toList, scraped.series)]

def parseDlsiteHtmlToMetadata [CharTables] (productId source : Str) (html : Body)
    (unixTime : Int) : Option (ProductMetadata Source) :=
  (outside.parseHtml html).map fun scraped =>
    { id := fullIdOf source productId
      source := outside.dlsite
      externalId := productId
      title := scraped.title
      creator := scraped.circle
      description := scraped.description
      releaseDate := scraped.releaseDate
      price := none
      currency := none
      rating := none
      ratingCount := none
      purchaseCount := none
      favoriteCount := none
      reviewCount := none
      fileSize := scraped.fileSize
      fileFormat := none
      ageRating := none
      genres := scraped.genres
      tags := scraped.tags
      languages := []
      extras := .object (scrapedExtras scraped)
      rawApiResponse := none
      rawHtml := none
      geoBlocked := scraped.geoBlocked
      cachedAt := unixTime
      updatedAt := none }

end

namespace HostFunctions

variable {Source : Type} [DecidableEq Source] [CharTables] (outside : Outside Source)
  (host : HostFunctions)

def checkCapability (capability : PluginCapability) : Bool := host.capabilities.contains capability

def dataService (answers : Answers) : DataService where
  hasLibrary := host.hasLibrary
  answers := answers
  materializationLimit := host.materializationLimit

def jsonLimit : Nat := min host.materializationLimit outside.maxPluginMetadataBytes

def readsContentCache (isMetadata : Bool) (key : Str) : Bool :=
  host.checkCapability .fileRead && (!isMetadata && !isRawMetadataCacheKey key ||
    host.checkCapability .archiveMetadataRead)

def allowedSource (isMetadata : Bool) (key : Str) : RequestedSource → Option DataSource
  | .metadataCache =>
    if host.checkCapability .archiveMetadataRead then some .metadataStore else none
  | .contentCache => if host.readsContentCache isMetadata key then some .contentCache else none
  | .localFile => if host.checkCapability .fileRead then some .localFile else none
  | .memory => some .memory
  | .network => if host.checkCapability .network then some .network else none

def defaultSources (isMetadata : Bool) (key : Str) : List DataSource :=
  (if isMetadata && host.checkCapability .archiveMetadataRead then [.metadataStore] else []) ++
    (if host.readsContentCache isMetadata key then [.contentCache] else []) ++
    (if host.checkCapability .network then [.network] else [])

/-- The stores that the response of the network may be written back to. -/
def storeSources (request : PluginRequest) : List DataSource :=
  let isMetadata : Bool := request.resourceType = .json
  let wantsMetadataStore :=
    if request.sources.isEmpty then isMetadata
    else request.sources.contains .metadataCache
  let wantsContentCache := request.sources.isEmpty || request.sources.contains .contentCache
  (if wantsMetadataStore && host.checkCapability .archiveMetadataWrite then [.metadataStore]
    else []) ++
    (if wantsContentCache && host.checkCapability .fileWrite &&
      (!isMetadata && !isRawMetadataCacheKey request.key ||
        host.checkCapability .archiveMetadataWrite) then
      [.contentCache]
    else []) ++
    (if request.sources.contains .memory then [.memory] else [])

/-- `build_data_request`; nothing if no source is allowed. -/
def buildDataRequest (request : PluginRequest) : Option DataRequest :=
  let isMetadata : Bool := request.resourceType = .json
  let sources :=
    if request.sources.isEmpty then host.defaultSources isMetadata request.key
    else (request.sources.filterMap (host.allowedSource isMetadata request.key)).eraseDups
  if sources.isEmpty then none
  else
    some
      { key := request.key
        url := request.url
        sources
        storeSources := some (host.storeSources request) }

def readableCacheRequest (key : Str) : DataRequest where
  key := key
  url := none
  sources :=
    (if host.checkCapability .archiveMetadataRead then [.metadataStore] else []) ++
      (if host.checkCapability .fileRead && (!isRawMetadataCacheKey key ||
        host.checkCapability .archiveMetadataRead) then
        [.contentCache]
      else []) ++
      [.memory]
  storeSources := some []

/-- `impl_save_cached_metadata`; the signal to the tabs is left out. -/
def implSaveCachedMetadata (source : Source) (id json : Str) (parsed : Json)
    (unixTime : Int) : Program Source Bool :=
  let row := emittedRow outside host.pluginId source id json parsed unixTime
  match serializeWithLimit outside row (host.jsonLimit outside) with
  | none => pure false
  | some text => do
    let _ ← Faulty.attempt ((host.dataService fun _ _ => none).saveData outside id (utf8Bytes text))
    pure true

def implEmitMetadataForSourceParsed (source json : Str) (parsed : Json) (now : Nat)
    (unixTime : Int) : Program Source Bool :=
  match parseMetadataSource outside source with
  | none => pure false
  | some kind =>
    if (parsed.index "source".toList).asStr.any fun payloadSource =>
      parseMetadataSource outside payloadSource ≠ some kind then
      pure false
    else
      match (parsed.index "product_id".toList).asStr with
      | none => pure false
      | some id =>
        if id.isEmpty || maxMetadataProductIdBytes < utf8Len id then pure false
        else do
          let admitted ← admitWrite (outside.asStr kind ++ ':' :: id) (utf8Len json) now
          if admitted then host.implSaveCachedMetadata outside kind id json parsed unixTime
          else pure false

/-- `emit_metadata` and `emit_metadata_for_source`; the first takes the source of the
payload. -/
def emitMetadata (source : Option Str) (json : Str) (now : Nat)
    (unixTime : Int) : Program Source Bool :=
  if host.mode = .metadataValidation || !host.checkCapability .archiveMetadataWrite then pure false
  else if outside.maxPluginMetadataBytes < utf8Len json then pure false
  else
    match outside.parseJson json with
    | none => pure false
    | some parsed =>
      host.implEmitMetadataForSourceParsed outside
        (source.getD ((parsed.index "source".toList).asStr.getD "dlsite".toList))
        json parsed now unixTime

/-- A row that was made of a raw response is saved, if the plugin may. -/
def saveIfAllowed (row : ProductMetadata Source) : Program Source PUnit :=
  if host.checkCapability .archiveMetadataWrite && host.hasLibrary then do
    let _ ← Faulty.attempt (saveMetadata outside row)
    pure ⟨⟩
  else pure ⟨⟩

/-- A row of the library with what a parsed page adds to it. -/
def repairedRow (row repaired : ProductMetadata Source) : ProductMetadata Source :=
  { row with
    extras :=
      match row.extras.asObject with
      | some members =>
        repaired.extras.asObject.elim row.extras fun found =>
          .object (Json.mergeNonnullInto members found)
      | none => repaired.extras
    tags := if row.tags.isEmpty then repaired.tags else row.tags }

def tryRepairExtrasFromHtml (row : ProductMetadata Source) (productId source : Str)
    (answers : Answers) (unixTime : Int) : Program Source (ProductMetadata Source) :=
  if (row.extras.index "cover_image".toList).asStr.isSome then pure row
  else do
    let key := CharTables.toLowercase source ++ ":html:".toList ++ productId
    let html ← (host.dataService answers).getDataForRequest outside (host.readableCacheRequest key)
    match html.bind fun html =>
      parseDlsiteHtmlToMetadata outside productId source html unixTime with
    | none => pure row
    | some repaired => do
      host.saveIfAllowed outside (repairedRow row repaired)
      pure (repairedRow row repaired)

/-- The row that is made of a raw response in the caches, if there is one. -/
def migrate (key : Str) (parse : Body → Option (ProductMetadata Source))
    (answers : Answers) : Program Source (Option (ProductMetadata Source)) := do
  let found ← (host.dataService answers).getDataForRequest outside (host.readableCacheRequest key)
  match found.bind parse with
  | none => pure none
  | some row => do
    host.saveIfAllowed outside row
    pure (some row)

/-- What the metadata server answers: the JSON text of a product, nothing, or an error; or
no permit. -/
structure GametaAnswers where
  get : Option (Except PUnit (Option Str))
  fetch : Option (Except PUnit (Option Str))

/-- The part of `impl_get_product_metadata` that asks the metadata server. -/
def askGameta (gameta : Option GametaAnswers) : Option Str :=
  let fits (json : Str) := decide (utf8Len json ≤ host.jsonLimit outside)
  if host.checkCapability .network then
    gameta.bind fun answers =>
      match answers.get with
      | some (.ok (some json)) => (some json).filter fits
      | some (.ok none) =>
        match answers.fetch with
        | some (.ok (some json)) => (some json).filter fits
        | _ => none
      | _ => none
  else none

def storedRow (id : Str) : Program Source (Option (ProductMetadata Source)) :=
  if host.hasLibrary then do
    let found ← Faulty.attempt (getMetadata outside id)
    pure found.toOption.join
  else pure none

/-- The part of `impl_get_product_metadata` for a row of the library. -/
def answerStored (kind : Source) (row : ProductMetadata Source) (productId : Str)
    (answers : Answers) (unixTime : Int) : Program Source (Option Str) :=
  if kind = outside.dlsite then do
    let row ← host.tryRepairExtrasFromHtml outside row productId
      (outside.asStr kind) answers unixTime
    pure (serializeWithLimit outside row (host.jsonLimit outside))
  else pure (serializeWithLimit outside row (host.jsonLimit outside))

/-- The part of `impl_get_product_metadata` that looks for raw responses of DLSite
and asks the metadata server last. -/
def answerMigrated (kind : Source) (productId : Str) (answers : Answers)
    (gameta : Option GametaAnswers) (unixTime : Int) : Program Source (Option Str) :=
  let name := outside.asStr kind
  if kind = outside.dlsite then do
    match ← host.migrate outside (name ++ ":json:".toList ++ productId)
      (fun bytes => (textOfBody bytes).bind fun json =>
        parseDlsiteJsonToMetadata outside productId name json unixTime)
      answers with
    | some row => pure (serializeWithLimit outside row (host.jsonLimit outside))
    | none =>
      match ← host.migrate outside (name ++ ":html:".toList ++ productId) (fun html =>
        parseDlsiteHtmlToMetadata outside productId name html unixTime) answers with
      | some row => pure (serializeWithLimit outside row (host.jsonLimit outside))
      | none => pure (host.askGameta outside gameta)
  else pure (host.askGameta outside gameta)

section

variable (productId source : Str) (answers : Answers) (gameta : Option GametaAnswers)
  (unixTime : Int)

def implGetProductMetadata : Program Source (Option Str) :=
  if maxMetadataProductIdBytes < utf8Len productId || maxMetadataSourceBytes < utf8Len source then
    pure none
  else
    match parseMetadataSource outside source with
    | none => pure none
    | some kind => do
      match ← host.storedRow outside (fullIdOf (outside.asStr kind) productId) with
      | some row => host.answerStored outside kind row productId answers unixTime
      | none => host.answerMigrated outside kind productId answers gameta unixTime

def getProductMetadata : Program Source (Option Str) :=
  if host.mode = .metadataValidation || !host.checkCapability .archiveMetadataRead then pure none
  else host.implGetProductMetadata outside productId source answers gameta unixTime

end

/-- `request_data`: the result that a later poll returns, if the request was not
denied. -/
def requestData (request : PluginRequest) (answers : Answers) :
    Program Source (Option (Except Str Body)) :=
  if host.mode = .metadataValidation then pure none
  else
    match host.buildDataRequest request with
    | none => pure none
    | some built => do
      let result ← (host.dataService answers).resolve outside built
      pure (some result)

/-- `fetch_to_cache`. `streamed` says how a download straight into the content cache ends. -/
def fetchToCache (request : PluginRequest) (answers : Answers)
    (streamed : Option Bool) : Program Source Bool :=
  if host.mode = .metadataValidation ||
    !(host.checkCapability .network && host.checkCapability .fileWrite) then
    pure false
  else if (request.resourceType = .json || isRawMetadataCacheKey request.key) &&
    !host.checkCapability .archiveMetadataWrite then
    pure false
  else
    match host.buildDataRequest request with
    | none => pure false
    | some built =>
      if !built.sources.contains .network then pure false
      else
        match built.url, streamed with
        | some _, some succeeded => pure succeeded
        | _, _ => do
          let result ← (host.dataService answers).resolve outside built
          pure result.isOk

def getData (key : Str) (answers : Answers) : Program Source (Option Body) :=
  if host.mode = .metadataValidation then pure none
  else do
    let found ← (host.dataService answers).getDataForRequest outside (host.readableCacheRequest key)
    pure (found.filter fun data => decide (data.length ≤ outside.maxPluginGuestDataBytes))

end HostFunctions

/-- A host call, with what it meets outside, or a change of the library between two calls. -/
inductive HostCall (Source : Type) where
  | emitMetadata (source : Option Str) (json : Str) (now : Nat) (unixTime : Int)
      (fates : Fates LibraryCall)
  | getProductMetadata (productId source : Str) (answers : Answers)
      (gameta : Option HostFunctions.GametaAnswers) (unixTime : Int)
      (fates : Fates LibraryCall)
  | requestData (request : PluginRequest) (answers : Answers) (fates : Fates LibraryCall)
  | fetchToCache (request : PluginRequest) (answers : Answers)
      (streamed : Option Bool) (fates : Fates LibraryCall)
  | getData (key : Str) (answers : Answers) (fates : Fates LibraryCall)
  | others (rows : Rows Source)

namespace World

variable {Source : Type} [DecidableEq Source] [CharTables] (outside : Outside Source)
  (host : HostFunctions)

/-- The library before the first call of an instance that starts at a moment. -/
def initial (rows : Rows Source) (now : Nat) : World Source where
  rows := rows
  budget := .initial now
  written := []

/-- The library and the budget after a call, however it ends. -/
def step (world : World Source) : HostCall Source → World Source
  | .emitMetadata source json now unixTime fates =>
    (host.emitMetadata outside source json now unixTime world fates).state
  | .getProductMetadata productId source answers gameta unixTime fates =>
    (host.getProductMetadata outside productId source answers gameta unixTime world fates).state
  | .requestData request answers fates =>
    (host.requestData outside request answers world fates).state
  | .fetchToCache request answers streamed fates =>
    (host.fetchToCache outside request answers streamed world fates).state
  | .getData key answers fates => (host.getData outside key answers world fates).state
  | .others rows => { world with rows }

def run (world : World Source) (calls : List (HostCall Source)) : World Source :=
  calls.foldl (step outside host) world

end World

end Arclain.HostMetadata
