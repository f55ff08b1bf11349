import Arclain.CacheKeys
import Arclain.FaultyCalls
import Arclain.LibraryService

namespace Arclain.HostMetadata

/-!
# The data service and the metadata store

The data service looks for the bytes of a key in one source after the other, and writes what
came from the network back to the stores that a request names.

`written` has the rows that were written to the database, the last one first.
-/

open Cache FaultyCalls Library LibraryService Text TextFormat Faulty

abbrev Body := List UInt8

def utf8Bytes (text : Str) : Body := text.flatMap String.utf8EncodeChar

/-- `String::from_utf8`. -/
def textOfBody (bytes : Body) : Option Str :=
  (ByteArray.mk bytes.toArray).utf8Decode?.map Array.toList

/-- What the parser of a DLSite page finds. The fields that go to the extras are JSON values. -/
structure ScrapedMetadata where
  title : Option Str
  circle : Option Str
  description : Option Str
  releaseDate : Option Str
  fileSize : Option Str
  tags : List Str
  genres : List Str
  geoBlocked : Bool
  coverImage : Json
  screenshots : Json
  authors : Json
  illustrators : Json
  scenarios : Json
  musicians : Json
  writers : Json
  brand : Json
  publisher : Json
  pageCount : Json
  updateDate : Json
  voiceActors : Json
  series : Json

/-- The code of other repositories: the types of the metadata providers, the JSON
library and the limits of the plugin runtime. -/
structure Outside (Source : Type) where
  /-- `MetadataSource::from_str`. -/
  fromStr : Str → Option Source
  /-- `MetadataSource::as_str`. -/
  asStr : Source → Str
  /-- `MetadataSource::DLSite`. -/
  dlsite : Source
  /-- `ProductMetadata::new`. -/
  newMetadata : Source → Str → ProductMetadata Source
  /-- `serde_json::from_str` for a JSON value. -/
  parseJson : Str → Option Json
  /-- `serde_json::to_writer` for a row. -/
  writeMetadata : ProductMetadata Source → Str
  /-- `serde_json::from_slice` for a row. -/
  readMetadata : Body → Except Str (ProductMetadata Source)
  /-- `gameta_lib::parsers::dlsite::parse_html` for the text that
  `String::from_utf8_lossy` makes of the bytes. -/
  parseHtml : Body → Option ScrapedMetadata
  /-- The text of an error of the database. -/
  databaseError : Str
  /-- `MAX_PLUGIN_METADATA_BYTES`. -/
  maxPluginMetadataBytes : Nat
  /-- `MAX_PLUGIN_GUEST_DATA_BYTES`. -/
  maxPluginGuestDataBytes : Nat

inductive DataSource where
  | metadataStore
  | contentCache
  | localFile
  | memory
  | network
  | gametaServer
  deriving DecidableEq

def DataSource.debug : DataSource → Str
  | .metadataStore => "MetadataStore".toList
  | .contentCache => "ContentCache".toList
  | .localFile => "LocalFile".toList
  | .memory => "Memory".toList
  | .network => "Network".toList
  | .gametaServer => "GametaServer".toList

/-- `DataRequest`, without what only the resolvers of other sources read. -/
structure DataRequest where
  key : Str
  url : Option Str
  sources : List DataSource
  storeSources : Option (List DataSource)

def DataRequest.allowsStoreTo (request : DataRequest) (source : DataSource) : Bool :=
  request.storeSources.all (·.contains source)

inductive ResolveError where
  | notFound
  | notConfigured
  | ioError (message : Str)

/-- What the other sources answer for a key; nothing if a source has no
resolver. -/
abbrev Answers := DataSource → Str → Option (Except ResolveError Body)

/-- `MetadataWriteBudget`.  Moments are counted in nanoseconds. -/
structure MetadataWriteBudget where
  windowStarted : Nat
  writesInWindow : Nat
  acceptedBytes : Nat
  distinctIds : List Str
  deriving DecidableEq

/-- The library and the budget of the plugin. -/
structure World (Source : Type) where
  rows : Rows Source
  budget : MetadataWriteBudget
  written : List (ProductMetadata Source)

inductive LibraryCall where
  | read
  | write
  deriving DecidableEq

/-- A computation over the library. -/
abbrev Program (Source Value : Type) := Faulty LibraryCall (World Source) ResolveError Value

section

variable {Source : Type} (outside : Outside Source)

def getMetadata (id : Str) : Program Source (Option (ProductMetadata Source)) :=
  call .read (.ioError outside.databaseError) fun world => (world.rows.lookup id, world)

/-- The call of `save_metadata` that writes to the database. -/
def writeRow (row : ProductMetadata Source) : Program Source PUnit :=
  call .write (.ioError outside.databaseError) fun world =>
    (⟨⟩, { world with
      rows := world.rows.insert row.id row
      written := row :: world.written })

def saveMetadata (row : ProductMetadata Source) : Program Source PUnit := do
  match ← attempt (getMetadata outside row.id) with
  | .ok (some existing) =>
    if System.refuses row existing then pure ⟨⟩
    else writeRow outside row
  | _ => writeRow outside row

/-- `serialize_json_with_limit` and `serialize_metadata_json`: nothing if the text
is too long. -/
def serializeWithLimit (row : ProductMetadata Source) (limit : Nat) : Option Str :=
  let text := outside.writeMetadata row
  if utf8Len text ≤ limit then some text else none

def isRawKey (key : Str) : Bool :=
  startsWith key "dlsite:json:".toList || startsWith key "dlsite:html:".toList

def keyToId (key : Str) : Str :=
  let productId :=
    ((Format.readLiteral "dlsite:json:".toList key).or
      (Format.readLiteral "dlsite:html:".toList key)).getD key
  if productId.contains ':' then productId else "dlsite:".toList ++ productId

/-- `MetadataStoreResolver::try_resolve_with_limit`, for a resolver without a
resource manager. -/
def tryResolve (key : Str) (limit : Nat) : Program Source Body :=
  if startsWith key "dlsite:html:".toList then throw .notFound
  else do
    match ← attempt (getMetadata outside (keyToId key)) with
    | .ok (some row) =>
      match serializeWithLimit outside row limit with
      | some text => pure (utf8Bytes text)
      | none =>
        throw (.ioError ("metadata response exceeds the ".toList ++
          decimal limit ++ "-byte materialized read limit".toList))
    | _ => throw .notFound

def tryStore (key : Str) (data : Body) : Program Source PUnit :=
  if isRawKey key then pure ⟨⟩
  else
    match outside.readMetadata data with
    | .error message => throw (.ioError ("Invalid metadata JSON: ".toList ++ message))
    | .ok row => saveMetadata outside row

end

/-- `DataService`, with what its resolvers answer during one call. -/
structure DataService where
  /-- There is a resolver for the metadata store. -/
  hasLibrary : Bool
  answers : Answers
  defaultChain : List DataSource := [.contentCache, .network]
  materializationLimit : Nat

namespace DataService

variable {Source : Type} (outside : Outside Source) (service : DataService)

def hasResolver (key : Str) (source : DataSource) : Bool :=
  if source = .metadataStore then service.hasLibrary
  else (service.answers source key).isSome

def snapshotResolvers (key : Str) (sources : List DataSource) : List DataSource :=
  sources.filter (service.hasResolver key)

/-- `try_resolve_with_limit` of the resolver of a source. -/
def tryResolveFrom (key : Str) (source : DataSource) : Program Source Body :=
  if source = .metadataStore then tryResolve outside key service.materializationLimit
  else
    match service.answers source key with
    | some (.ok data) => pure data
    | some (.error error) => throw error
    | none => throw .notConfigured

/-- `save_data` for the metadata store. -/
def saveData (key : Str) (data : Body) : Program Source PUnit :=
  if service.hasLibrary then tryStore outside key data
  else throw .notConfigured

/-- `try_store` of a source's resolver, its errors dropped. Only the metadata store's writes
to the library. -/
def storeTo (request : DataRequest) (data : Body) (source : DataSource) : Program Source PUnit :=
  if source = .network || !request.allowsStoreTo source then pure ⟨⟩
  else if source = .metadataStore then do
    let _ ← attempt (tryStore outside request.key data)
    pure ⟨⟩
  else pure ⟨⟩

def storeToCaches (request : DataRequest) (data : Body)
    (stores : List DataSource) : Program Source PUnit :=
  if containsText request.key ":search:".toList then pure ⟨⟩
  else forEach (storeTo outside request data) stores

def failure (key : Str) : Option (DataSource × Str) → Str
  | some (source, message) =>
    "Failed to fetch '".toList ++ key ++ "' (".toList ++ source.debug ++ "): ".toList ++ message
  | none => "No source could provide data for '".toList ++ key ++ "'".toList

/-- The loop of `resolve`, with the first I/O error so far. -/
def resolveFrom (request : DataRequest) (stores : List DataSource) :
    List DataSource → Option (DataSource × Str) → Program Source (Except Str Body)
  | [], ioError => pure (.error (failure request.key ioError))
  | source :: rest, ioError => do
    match ← attempt (service.tryResolveFrom outside request.key source) with
    | .ok data =>
      if source = .network then storeToCaches outside request data stores
      pure (.ok data)
    | .error (.ioError message) =>
      resolveFrom request stores rest (ioError.or (some (source, message)))
    | .error _ => resolveFrom request stores rest ioError

def resolve (request : DataRequest) : Program Source (Except Str Body) :=
  let sources := if request.sources.isEmpty then service.defaultChain else request.sources
  let resolvers := service.snapshotResolvers request.key sources
  let stores := (request.storeSources.map (service.snapshotResolvers request.key)).getD resolvers
  service.resolveFrom outside request stores resolvers none

def getDataForRequest (request : DataRequest) : Program Source (Option Body) :=
  if request.sources.isEmpty then pure none
  else do
    let found ← service.resolve outside { request with storeSources := some [] }
    pure found.toOption

end DataService

end Arclain.HostMetadata
