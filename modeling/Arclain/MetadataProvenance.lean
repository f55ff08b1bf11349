import Arclain.HostFunctions

namespace Arclain.HostMetadata

/-!
# Where the rows of the library come from

Every row that a plugin's calls write is an emission that the budget admitted, a raw
response that a look-up took over, a stored row that one repaired, or a response of the
network.  Only emissions are charged and stamped.
-/

open List Option Cache FaultyCalls Library LibraryService Text DataService HostFunctions Json Triple

/-- Every member is a string, so that nothing is rounded when it is read back. -/
def isTextual : Json → Bool
  | .object members => members.all fun mem => mem.2.asStr.isSome
  | _ => false

/-- A new row's id is made of its source and its id, and a row written as JSON is read back. -/
structure Outside.Reliable {Source : Type} (outside : Outside Source) : Prop where
  newId : ∀ source id, (outside.newMetadata source id).id = outside.asStr source ++ ':' :: id
  readsId : ∀ {row back}, outside.readMetadata (utf8Bytes (outside.writeMetadata row)) = .ok back →
    back.id = row.id
  readsTextual : ∀ {row back} key,
    outside.readMetadata (utf8Bytes (outside.writeMetadata row)) = .ok back →
    isTextual (row.extras.index key) = true → back.extras.index key = row.extras.index key

/-- The plugin that `_arclain.emitted_by_plugin` names. -/
def emittedBy {Source : Type} (row : ProductMetadata Source) : Option Str :=
  ((row.extras.index provenanceKey).index "emitted_by_plugin".toList).asStr

def HostCall.dataRequest {Source : Type} : HostCall Source → Option (PluginRequest × Answers)
  | .requestData request answers _ | .fetchToCache request answers _ _ => some (request, answers)
  | _ => none

/-- Where a row comes from that a call has written. -/
inductive Origin {Source : Type} [CharTables] (outside : Outside Source) (host : HostFunctions)
    (before : World Source) : HostCall Source → ProductMetadata Source → Prop where
  /-- An emission, admitted by the budget for its id and stamped. -/
  | emitted {source : Option Str} {json : Str} {now : Nat} {unixTime : Int}
      {fates : Fates LibraryCall}
      {row : ProductMetadata Source}
      (admitted : (before.budget.admitAt row.id (utf8Len json) now).1 = true)
      (stamped : emittedBy row = some host.pluginId) :
      Origin outside host before (.emitMetadata source json now unixTime fates) row
  /-- A raw response in the caches for the product that was asked for. -/
  | migrated {productId source : Str} {answers : Answers}
      {gameta : Option HostFunctions.GametaAnswers}
      {unixTime : Int}
      {fates : Fates LibraryCall}
      {row : ProductMetadata Source}
      (asked : parseMetadataSource outside source = some outside.dlsite)
      (named : row.id = fullIdOf (outside.asStr outside.dlsite) productId)
      (unstamped : emittedBy row = none) :
      Origin outside host before
        (.getProductMetadata productId source answers gameta unixTime fates) row
  /-- The stored row of the product, with other extras and tags.  A stamp stays. -/
  | repaired {productId source : Str} {answers : Answers}
      {gameta : Option HostFunctions.GametaAnswers}
      {unixTime : Int}
      {fates : Fates LibraryCall}
      {row stored : ProductMetadata Source}
      (asked : parseMetadataSource outside source = some outside.dlsite)
      (found : before.rows.lookup (fullIdOf (outside.asStr outside.dlsite) productId) = some stored)
      (sameRow : row = { stored with extras := row.extras, tags := row.tags })
      (sameStamp : stored.extras.asObject.isSome → emittedBy row = emittedBy stored) :
      Origin outside host before
        (.getProductMetadata productId source answers gameta unixTime fates) row
  /-- A response of the network to a request that may store metadata. -/
  | writtenBack {call : HostCall Source} {request : PluginRequest} {answers : Answers} {data : Body}
      {row : ProductMetadata Source}
      (requested : call.dataRequest = some (request, answers))
      (allowed : .metadataStore ∈ host.storeSources request)
      (online : host.checkCapability .network = true)
      (answered : answers .network request.key = some (.ok data))
      (read : outside.readMetadata data = .ok row) :
      Origin outside host before call row

/-- An emission that comes before the budget: the id of its row, its bytes and the moment. -/
structure Emission where
  id : Str
  bytes : Nat
  now : Nat

/-- The source, the product and the payload of an emission that passes every check in front of
the budget. -/
def HostFunctions.emissionOf {Source : Type} [DecidableEq Source] (outside : Outside Source)
    (host : HostFunctions) (source : Option Str) (json : Str) : Option (Source × Str × Json) :=
  if host.mode = .metadataValidation || !host.checkCapability .archiveMetadataWrite then none
  else if outside.maxPluginMetadataBytes < utf8Len json then none
  else
    (outside.parseJson json).bind fun parsed =>
      let payloadSource := (parsed.index "source".toList).asStr
      (parseMetadataSource outside (source.getD (payloadSource.getD "dlsite".toList))).bind
        fun kind =>
          if payloadSource.any fun named => parseMetadataSource outside named ≠ some kind then none
          else
            (parsed.index "product_id".toList).asStr.bind fun id =>
              if id.isEmpty || maxMetadataProductIdBytes < utf8Len id then none
              else some (kind, id, parsed)

def HostCall.emission {Source : Type} [DecidableEq Source] (outside : Outside Source)
    (host : HostFunctions) : HostCall Source → Option Emission
  | .emitMetadata source json now _ _ =>
    (host.emissionOf outside source json).map fun emission =>
      ⟨outside.asStr emission.1 ++ ':' :: emission.2.1, utf8Len json, now⟩
  | _ => none

/-- What the budget is after a call that may bring an emission before it. -/
def MetadataWriteBudget.charged (budget : MetadataWriteBudget)
    (emission : Option Emission) : MetadataWriteBudget :=
  emission.elim budget fun emission =>
    (budget.admitAt emission.id emission.bytes emission.now).2

/-- The emission of a call, if the budget admits it. -/
def MetadataWriteBudget.admitted (budget : MetadataWriteBudget)
    (emission : Option Emission) : List Emission :=
  emission.elim [] fun emission =>
    if (budget.admitAt emission.id emission.bytes emission.now).1 then [emission] else []

/-- The emissions that are admitted in a run, in their order. -/
def World.admitted {Source : Type} [DecidableEq Source] [CharTables] (outside : Outside Source)
    (host : HostFunctions) (world : World Source) : List (HostCall Source) → List Emission
  | [] => []
  | call :: calls =>
    world.budget.admitted (call.emission outside host) ++
      admitted outside host (world.step outside host call) calls

/-- The rows that were written fit, and the budget is what it was. -/
structure Effect {Source : Type} (before : World Source) (fits : ProductMetadata Source → Prop)
    (world : World Source) : Prop where
  wrote : ∃ added, world.written = added ++ before.written ∧ ∀ row ∈ added, fits row
  budget : world.budget = before.budget

namespace Effect

variable {Source : Type} {before world : World Source} {fits : ProductMetadata Source → Prop}

theorem refl : Effect before fits before :=
  ⟨⟨[], rfl, fun _ mem => absurd mem not_mem_nil⟩, rfl⟩

theorem write {row : ProductMetadata Source} (effect : Effect before fits world) (isFit : fits row)
    (rows : Rows Source) :
    Effect before fits { world with rows := rows, written := row :: world.written } := by
  obtain ⟨added, isAdded, allFit⟩ := effect.wrote
  refine ⟨⟨row :: added, ?_, ?_⟩, effect.budget⟩
  · rw [cons_append, isAdded]
  · intro other mem
    rcases mem_cons.mp mem with rfl | earlier
    · exact isFit
    · exact allFit other earlier

theorem of_keeps {Value : Type} {program : Program Source Value}
    (keeps : Keeps (Effect before fits) program) (fates : Fates LibraryCall) :
    Effect before fits (program before fates).state :=
  ending keeps refl fates

end Effect

section

variable {Source : Type} {outside : Outside Source} {before : World Source}
  {fits : ProductMetadata Source → Prop}
variable (id : Str)

theorem getMetadata_keeps : Keeps (Effect before fits) (getMetadata outside id) :=
  Keeps.call fun _ effect => effect

theorem getMetadata_finds : Triple (· = before) (Faulty.attempt (getMetadata outside id))
    ⟨fun found world => Effect before fits world ∧
      ∀ row, found = .ok (some row) → before.rows.lookup id = some row,
      fun _ => Effect before fits, Effect before fits⟩ := by
  refine Triple.attempt (Triple.call ?_ ?_ ?_ ?_ ?_)
  · rintro _ rfl
    exact ⟨.refl, fun row found => some.inj (Except.ok.inj found ▸ rfl)⟩
  · rintro _ rfl
    exact ⟨.refl, fun row found => by cases found⟩
  · rintro _ rfl
    exact ⟨.refl, fun row found => by cases found⟩
  · rintro _ rfl
    exact .refl
  · rintro _ rfl
    exact .refl

theorem saveMetadata_keeps {row : ProductMetadata Source} (isFit : fits row) :
    Keeps (Effect before fits) (saveMetadata outside row) := by
  have writes : Keeps (Effect before fits) (writeRow outside row) :=
    Keeps.call fun _ effect => effect.write isFit _
  refine Keeps.bind (getMetadata_keeps row.id).attempt ?_
  intro _
  split
  · exact Keeps.ite (Keeps.pure _) writes
  · exact writes

theorem admitWrite_charges (bytes now : Nat) : Triple (· = before)
    (admitWrite id bytes now : Program Source Bool)
    ⟨fun admitted world =>
      Effect { before with budget := (before.budget.admitAt id bytes now).2 } fits world ∧
        admitted = (before.budget.admitAt id bytes now).1,
      fun _ => Effect { before with budget := (before.budget.admitAt id bytes now).2 } fits,
      Effect { before with budget := (before.budget.admitAt id bytes now).2 } fits⟩ := by
  refine update ?_
  rintro _ rfl
  exact ⟨.refl, rfl⟩

theorem tryResolve_keeps (key : Str) (limit : Nat) :
    Keeps (Effect before fits) (tryResolve outside key limit) := by
  refine Keeps.ite (Keeps.throw _) (Keeps.bind (getMetadata_keeps _).attempt ?_)
  intro _
  split
  · split
    · exact Keeps.pure _
    · exact Keeps.throw _
  · exact Keeps.throw _

theorem tryStore_keeps {key : Str} {data : Body}
    (allFit : ∀ row, outside.readMetadata data = .ok row → fits row) :
    Keeps (Effect before fits) (tryStore outside key data) := by
  refine Keeps.ite (Keeps.pure _) ?_
  split
  · exact Keeps.throw _
  next row isRow => exact saveMetadata_keeps (allFit row isRow)

end

namespace DataService

variable {Source : Type} {outside : Outside Source} {service : DataService} {before : World Source}
  {fits : ProductMetadata Source → Prop}

theorem tryResolveFrom_keeps (key : Str) (source : DataSource) :
    Keeps (Effect before fits) (service.tryResolveFrom outside key source) := by
  refine Keeps.ite (tryResolve_keeps key _) ?_
  split
  · exact Keeps.pure _
  · exact Keeps.throw _
  · exact Keeps.throw _

theorem tryResolveFrom_network (key : Str) : Triple (Effect before fits)
    (Faulty.attempt (service.tryResolveFrom outside key .network))
    ⟨fun found world => Effect before fits world ∧
      ∀ data, found = .ok data → service.answers .network key = some (.ok data),
      fun _ => Effect before fits, Effect before fits⟩ := by
  refine Triple.attempt ?_
  simp only [tryResolveFrom, reduceCtorEq, if_false]
  split
  next data answered =>
    refine Triple.pure fun world effect => ⟨effect, ?_⟩
    rintro _ ⟨⟩
    exact answered
  · exact Triple.throw fun world effect => ⟨effect, fun data found => by cases found⟩
  · exact Triple.throw fun world effect => ⟨effect, fun data found => by cases found⟩

variable {request : DataRequest}

theorem storeTo_keeps {data : Body} (allFit : request.allowsStoreTo .metadataStore = true →
    ∀ row, outside.readMetadata data = .ok row → fits row)
    (source : DataSource) : Keeps (Effect before fits) (storeTo outside request data source) := by
  unfold storeTo
  split
  · exact Keeps.pure _
  next notSkipped =>
    split
    next isStore =>
      subst isStore
      have allowed : request.allowsStoreTo .metadataStore = true := by simpa using notSkipped
      exact Keeps.bind (tryStore_keeps (allFit allowed)).attempt fun _ => Keeps.pure _
    · exact Keeps.pure _

theorem resolveFrom_keeps (stores sources : List DataSource) (allFit :
    .network ∈ sources → request.allowsStoreTo .metadataStore = true →
      ∀ data row, service.answers .network request.key = some (.ok data) →
        outside.readMetadata data = .ok row → fits row)
    (ioError : Option (DataSource × Str)) :
    Keeps (Effect before fits) (service.resolveFrom outside request stores sources ioError) := by
  induction sources generalizing ioError with
  | nil => exact Keeps.pure _
  | cons source _ ih =>
    have laterFit := fun mem => allFit (mem_cons_of_mem source mem)
    by_cases isNetwork : source = .network
    · subst isNetwork
      refine Triple.bind (tryResolveFrom_network request.key) ?_
      intro found
      refine assuming ?_
      intro answered
      split
      next data =>
        refine Keeps.bind ?_ fun _ => Keeps.pure _
        refine Keeps.ite (Keeps.pure _) (Keeps.forEach ?_ stores)
        exact storeTo_keeps fun allowed row =>
          allFit mem_cons_self allowed data row (answered data rfl)
      · exact ih laterFit _
      · exact ih laterFit _
    · refine Keeps.bind (tryResolveFrom_keeps request.key source).attempt ?_
      intro found
      split
      · rw [if_neg isNetwork]
        exact Keeps.bind (Keeps.pure _) fun _ => Keeps.pure _
      · exact ih laterFit _
      · exact ih laterFit _

theorem resolve_keeps (named : request.sources.isEmpty = false) (allFit :
    .network ∈ request.sources → request.allowsStoreTo .metadataStore = true →
      ∀ data row, service.answers .network request.key = some (.ok data) →
        outside.readMetadata data = .ok row → fits row) :
    Keeps (Effect before fits) (service.resolve outside request) := by
  refine resolveFrom_keeps _ _ ?_ none
  intro mem
  rw [named] at mem
  exact allFit (mem_of_mem_filter mem)

theorem getDataForRequest_keeps (request : DataRequest) :
    Keeps (Effect before fits) (service.getDataForRequest outside request) := by
  unfold getDataForRequest
  split
  · exact Keeps.pure _
  next named =>
    refine Keeps.bind (resolve_keeps (by simpa using named) ?_) fun _ => Keeps.pure _
    intro _ allowed
    cases allowed

end DataService

section

variable {Source : Type} {outside : Outside Source}

theorem lookup_emittedExtras [DecidableEq Source] (pluginId : Str) (source : Source)
    (parsed : Json) : (emittedExtras outside pluginId source parsed).lookup provenanceKey =
      some (provenance pluginId) := by
  have inserted : (insertMember provenanceKey (provenance pluginId)
      ((parsed.index "extras".toList).asObject.getD [])).lookup provenanceKey =
        some (provenance pluginId) := by
    rw [lookup_insertMember, if_pos rfl]
  unfold emittedExtras
  split
  · rw [lookup_mergeNonnullInto _ _]
    · exact inserted
    · -- The names are those of the literal list, none of which is the host's own.
      simp only [dlsiteExtras, map_cons, map_nil]
      decide
  · exact inserted

theorem emittedRow_stamped [DecidableEq Source] (reliable : outside.Reliable) (pluginId : Str)
    (source : Source) (id json : Str) (parsed : Json) (unixTime : Int) :
    (emittedRow outside pluginId source id json parsed unixTime).id =
      outside.asStr source ++ ':' :: id ∧
      (emittedRow outside pluginId source id json parsed unixTime).extras.index provenanceKey =
        provenance pluginId := by
  have stamped : (Json.object (emittedExtras outside pluginId source parsed)).index provenanceKey =
      provenance pluginId := by
    rw [index_object, lookup_emittedExtras, getD_some]
  unfold emittedRow
  split
  · exact ⟨reliable.newId source id, stamped⟩
  · exact ⟨rfl, stamped⟩

variable {row : ProductMetadata Source}

theorem emittedBy_eq_none
    (absent : row.extras.index provenanceKey = .null) : emittedBy row = none := by
  rw [emittedBy, absent]
  rfl

theorem provenanceKey_notMem_scrapedExtras (scraped : ScrapedMetadata) :
    provenanceKey ∉ (scrapedExtras scraped).map Prod.fst := by
  simp only [scrapedExtras, map_cons, map_nil]
  decide

variable {unixTime : Int}

theorem parseDlsiteJsonToMetadata_unstamped [CharTables] {productId source json : Str}
    (parsed : parseDlsiteJsonToMetadata outside productId source json unixTime = some row) :
    row.id = fullIdOf source productId ∧ emittedBy row = none := by
  obtain ⟨_, _, rfl⟩ := map_eq_some_iff.mp parsed
  exact ⟨rfl, rfl⟩

variable {productId source : Str}

theorem parseDlsiteHtmlToMetadata_unstamped [CharTables] {html : Body}
    (parsed : parseDlsiteHtmlToMetadata outside productId source html unixTime = some row) :
    row.id = fullIdOf source productId ∧ emittedBy row = none := by
  obtain ⟨scraped, _, rfl⟩ := map_eq_some_iff.mp parsed
  refine ⟨rfl, emittedBy_eq_none ?_⟩
  have absent : (scrapedExtras scraped).lookup provenanceKey = none := by
    refine lookup_eq_none_iff.mpr fun mem isMember => bne_iff_ne.mpr ?_
    intro isKey
    apply provenanceKey_notMem_scrapedExtras scraped
    rw [isKey]
    exact mem_map_of_mem isMember
  rw [index_object, absent, getD_none]

theorem emittedBy_repairedRow [CharTables] {html : Body} {repaired : ProductMetadata Source}
    (parsed : parseDlsiteHtmlToMetadata outside productId source html unixTime = some repaired)
    (row : ProductMetadata Source) (isObject : row.extras.asObject.isSome) :
    emittedBy (repairedRow row repaired) = emittedBy row := by
  obtain ⟨scraped, _, isRepaired⟩ := map_eq_some_iff.mp parsed
  have isExtras : repaired.extras = .object (scrapedExtras scraped) := by rw [← isRepaired]
  obtain ⟨members, hasMembers⟩ := isSome_iff_exists.mp isObject
  have isMembers := eq_object_of_asObject hasMembers
  have kept := lookup_mergeNonnullInto (provenanceKey_notMem_scrapedExtras scraped) members
  have same : (repairedRow row repaired).extras.index provenanceKey =
      row.extras.index provenanceKey := by
    simp [repairedRow, isMembers, isExtras, kept]
  rw [emittedBy, emittedBy, same]

end

/-- The row was written with the capability to write metadata, in a call of a plugin
that runs normally, and has an origin. -/
structure Accounted {Source : Type} [CharTables] (outside : Outside Source) (host : HostFunctions)
    (before : World Source) (call : HostCall Source) (row : ProductMetadata Source) : Prop where
  normal : host.mode = .normal
  mayWrite : host.checkCapability .archiveMetadataWrite = true
  origin : Origin outside host before call row

namespace HostFunctions

variable {Source : Type} {outside : Outside Source} {host : HostFunctions} {before : World Source}

theorem normal_of_ne (runs : host.mode ≠ .metadataValidation) : host.mode = .normal := by
  cases isMode : host.mode with
  | normal => rfl
  | metadataValidation => exact absurd isMode runs

variable {fits : ProductMetadata Source → Prop} {row : ProductMetadata Source}

theorem saveIfAllowed_keeps (isFit : host.checkCapability .archiveMetadataWrite = true → fits row) :
    Keeps (Effect before fits) (host.saveIfAllowed outside row) := by
  unfold saveIfAllowed
  split
  next allowed =>
    have mayWrite := (Bool.and_eq_true_iff.mp allowed).1
    exact Keeps.bind (saveMetadata_keeps (isFit mayWrite)).attempt fun _ => Keeps.pure _
  · exact Keeps.pure _

theorem tryRepairExtrasFromHtml_keeps [CharTables] {fits : ProductMetadata Source → Prop}
    {productId source : Str} {unixTime : Int}
    (allFit : ∀ html repaired, parseDlsiteHtmlToMetadata outside productId source html unixTime =
      some repaired →
        host.checkCapability .archiveMetadataWrite = true → fits (repairedRow row repaired))
    (answers : Answers) :
    Keeps (Effect before fits) (host.tryRepairExtrasFromHtml outside row productId source answers
      unixTime) := by
  unfold tryRepairExtrasFromHtml
  split
  · exact Keeps.pure _
  · refine Keeps.bind (getDataForRequest_keeps _) ?_
    intro _
    split
    · exact Keeps.pure _
    next repaired isParsed =>
      obtain ⟨html, _, parsed⟩ := bind_eq_some_iff.mp isParsed
      exact Keeps.bind (saveIfAllowed_keeps (allFit html repaired parsed)) fun _ => Keeps.pure _

theorem migrate_keeps {parse : Body → Option (ProductMetadata Source)} (allFit :
    ∀ bytes row, parse bytes = some row →
      host.checkCapability .archiveMetadataWrite = true → fits row)
    (key : Str) (answers : Answers) :
    Keeps (Effect before fits) (host.migrate outside key parse answers) := by
  refine Keeps.bind (getDataForRequest_keeps _) ?_
  intro _
  split
  · exact Keeps.pure _
  next row isParsed =>
    obtain ⟨bytes, _, parsed⟩ := bind_eq_some_iff.mp isParsed
    exact Keeps.bind (saveIfAllowed_keeps (allFit bytes row parsed)) fun _ => Keeps.pure _

theorem storedRow_finds (id : Str) : Triple (· = before) (host.storedRow outside id)
    ⟨fun found world => Effect before fits world ∧
      ∀ row, found = some row → before.rows.lookup id = some row,
      fun _ => Effect before fits, Effect before fits⟩ := by
  unfold storedRow
  split
  · refine Triple.bind (getMetadata_finds id) fun found => Triple.pure ?_
    rintro world ⟨effect, finds⟩
    refine ⟨effect, fun row isRow => finds row ?_⟩
    cases found with
    | error => cases isRow
    | ok found => exact congrArg Except.ok isRow
  · refine Triple.pure ?_
    rintro _ rfl
    exact ⟨.refl, fun row isRow => by cases isRow⟩

section

variable [DecidableEq Source] [CharTables] {productId source : Str} {answers : Answers}
  {gameta : Option GametaAnswers}
  {unixTime : Int}
  {fates : Fates LibraryCall}
  {kind : Source}

theorem answerStored_keeps {row : ProductMetadata Source} (normal : host.mode = .normal)
    (isKind : parseMetadataSource outside source = some kind)
    (found : before.rows.lookup (fullIdOf (outside.asStr kind) productId) = some row) :
    Keeps (Effect before (Accounted outside host before
      (.getProductMetadata productId source answers gameta unixTime fates)))
      (host.answerStored outside kind row productId answers unixTime) := by
  unfold answerStored
  split
  next isDlsite =>
    subst isDlsite
    refine Keeps.bind (tryRepairExtrasFromHtml_keeps ?_ answers) fun _ => Keeps.pure _
    intro _ _ parsed mayWrite
    exact ⟨normal, mayWrite, .repaired isKind found rfl (emittedBy_repairedRow parsed row)⟩
  · exact Keeps.pure _

theorem answerMigrated_keeps (normal : host.mode = .normal)
    (isKind : parseMetadataSource outside source = some kind) :
    Keeps (Effect before (Accounted outside host before
      (.getProductMetadata productId source answers gameta unixTime fates)))
      (host.answerMigrated outside kind productId answers gameta unixTime) := by
  unfold answerMigrated
  split
  next isDlsite =>
    subst isDlsite
    refine Keeps.bind (migrate_keeps ?_ _ answers) ?_
    · intro _ row isParsed mayWrite
      obtain ⟨_, _, parsed⟩ := bind_eq_some_iff.mp isParsed
      obtain ⟨named, unstamped⟩ := parseDlsiteJsonToMetadata_unstamped parsed
      exact ⟨normal, mayWrite, .migrated isKind named unstamped⟩
    · intro _
      split
      · exact Keeps.pure _
      · refine Keeps.bind (migrate_keeps ?_ _ answers) ?_
        · intro _ row parsed mayWrite
          obtain ⟨named, unstamped⟩ := parseDlsiteHtmlToMetadata_unstamped parsed
          exact ⟨normal, mayWrite, .migrated isKind named unstamped⟩
        · intro _
          split
          · exact Keeps.pure _
          · exact Keeps.pure _
  · exact Keeps.pure _

theorem getProductMetadata_effect : Effect before (Accounted outside host before
    (.getProductMetadata productId source answers gameta unixTime fates))
      (host.getProductMetadata outside productId source answers gameta unixTime
        before fates).state := by
  unfold getProductMetadata
  split
  · exact .refl
  next runs =>
    have normal : host.mode = .normal := by
      refine normal_of_ne fun isValidation => runs ?_
      rw [isValidation]
      rfl
    unfold implGetProductMetadata
    split
    · exact .refl
    · cases isKind : parseMetadataSource outside source with
      | none => exact .refl
      | some =>
        refine ending (Triple.bind (storedRow_finds _) ?_) rfl fates
        intro _
        refine assuming fun finds => ?_
        split
        · exact answerStored_keeps normal isKind (finds _ rfl)
        · exact answerMigrated_keeps normal isKind

end

section

variable [DecidableEq Source] {source : Option Str} {json : Str} {now : Nat} {unixTime : Int}
  {fates : Fates LibraryCall}

theorem emitted_readsBack {kind : Source} {id : Str} {parsed : Json} {back : ProductMetadata Source}
    (reliable : outside.Reliable) (read : outside.readMetadata (utf8Bytes (outside.writeMetadata
      (emittedRow outside host.pluginId kind id json parsed unixTime))) = .ok back) :
    back.id = outside.asStr kind ++ ':' :: id ∧ emittedBy back = some host.pluginId := by
  obtain ⟨isId, stamped⟩ := emittedRow_stamped reliable host.pluginId kind id json parsed unixTime
  have textual : isTextual ((emittedRow outside host.pluginId kind id json parsed
      unixTime).extras.index provenanceKey) = true := by
    rw [stamped]
    rfl
  have sameStamp := reliable.readsTextual provenanceKey read textual
  refine ⟨(reliable.readsId read).trans isId, ?_⟩
  rw [emittedBy, sameStamp, stamped]
  rfl

theorem implSaveCachedMetadata_keeps {fits : ProductMetadata Source → Prop} {kind : Source}
    {id : Str} {parsed : Json}
    (allFit : ∀ back, outside.readMetadata (utf8Bytes (outside.writeMetadata
      (emittedRow outside host.pluginId kind id json parsed unixTime))) = .ok back → fits back) :
    Keeps (Effect before fits)
      (host.implSaveCachedMetadata outside kind id json parsed unixTime) := by
  unfold implSaveCachedMetadata
  dsimp only
  split
  · exact Keeps.pure _
  next serialized =>
    obtain ⟨_, ⟨⟩⟩ := ite_none_right_eq_some.mp serialized
    refine Keeps.bind (Keeps.attempt ?_) fun _ => Keeps.pure _
    exact Keeps.ite (tryStore_keeps allFit) (Keeps.throw _)

theorem emissionOf_allowed {emission : Source × Str × Json}
    (found : host.emissionOf outside source json = some emission) :
    host.mode = .normal ∧ host.checkCapability .archiveMetadataWrite = true := by
  obtain ⟨runs, -⟩ := ite_none_left_eq_some.mp found
  have allowed : host.mode ≠ .metadataValidation ∧
      host.checkCapability .archiveMetadataWrite = true := by
    simpa using runs
  exact ⟨normal_of_ne allowed.1, allowed.2⟩

theorem emitMetadata_eq : host.emitMetadata outside source json now unixTime =
    (host.emissionOf outside source json).elim (pure false) fun emission => (do
      let admitted ←
        admitWrite (outside.asStr emission.1 ++ ':' :: emission.2.1) (utf8Len json) now
      if admitted then
        host.implSaveCachedMetadata outside emission.1 emission.2.1 json emission.2.2 unixTime
      else pure false) := by
  unfold emitMetadata emissionOf
  split
  · rfl
  · split
    · rfl
    · cases outside.parseJson json with
      | none => rfl
      | some parsed =>
        dsimp only [bind_some]
        unfold implEmitMetadataForSourceParsed
        cases parseMetadataSource outside
          (source.getD ((parsed.index "source".toList).asStr.getD "dlsite".toList)) with
        | none => rfl
        | some kind =>
          dsimp only [bind_some]
          split
          · rfl
          · cases (parsed.index "product_id".toList).asStr with
            | none => rfl
            | some id =>
              dsimp only [bind_some]
              split
              · rfl
              · rfl

theorem emitMetadata_effect [CharTables] (reliable : outside.Reliable) :
    Effect { before with
        budget := before.budget.charged
          ((HostCall.emitMetadata source json now unixTime fates).emission outside host) }
      (Accounted outside host before (.emitMetadata source json now unixTime fates))
      (host.emitMetadata outside source json now unixTime before fates).state := by
  rw [emitMetadata_eq]
  simp only [HostCall.emission]
  cases found : host.emissionOf outside source json with
  | none => exact .refl
  | some emission =>
    obtain ⟨normal, mayWrite⟩ := emissionOf_allowed found
    refine ending (Triple.bind (admitWrite_charges _ _ _) ?_) rfl fates
    intro _
    refine assuming fun isAdmitted => ?_
    split
    next admits =>
      refine implSaveCachedMetadata_keeps fun back read => ?_
      obtain ⟨isId, stamped⟩ := emitted_readsBack reliable read
      refine ⟨normal, mayWrite, .emitted ?_ stamped⟩
      rw [isId, ← isAdmitted, admits]
    · exact Keeps.pure _

end

section

variable {request : PluginRequest} {built : DataRequest}

theorem network_mem_sources (isBuilt : host.buildDataRequest request = some built)
    (mem : .network ∈ built.sources) : host.checkCapability .network = true := by
  obtain ⟨_, ⟨⟩⟩ := ite_none_left_eq_some.mp isBuilt
  dsimp only at mem
  split at mem
  · simpa [defaultSources] using mem
  · rw [mem_eraseDups, mem_filterMap] at mem
    obtain ⟨named, _, allowed⟩ := mem
    cases named with
    | network => simpa [allowedSource] using allowed
    | _ => simp [allowedSource] at allowed

theorem mayWrite_of_mem_storeSources (mem : .metadataStore ∈ host.storeSources request) :
    host.checkCapability .archiveMetadataWrite = true := by
  have both := mem
  simp only [storeSources, mem_append, mem_ite_nil_right] at both
  simp at both
  exact both.2

theorem resolve_accounted [CharTables] {call : HostCall Source} {answers : Answers}
    (normal : host.mode = .normal) (requested : call.dataRequest = some (request, answers))
    (isBuilt : host.buildDataRequest request = some built) :
    Keeps (Effect before (Accounted outside host before call))
      ((host.dataService answers).resolve outside built) := by
  have online := network_mem_sources isBuilt
  obtain ⟨named, ⟨⟩⟩ := ite_none_left_eq_some.mp isBuilt
  refine resolve_keeps (by simpa using named) ?_
  intro mem allowed _ _ answered read
  have stores : DataSource.metadataStore ∈ host.storeSources request := by
    simpa [DataRequest.allowsStoreTo] using allowed
  exact ⟨normal, mayWrite_of_mem_storeSources stores,
    .writtenBack requested stores (online mem) answered read⟩

variable (answers : Answers)

theorem requestData_effect [CharTables] (fates : Fates LibraryCall) :
    Effect before (Accounted outside host before (.requestData request answers fates))
      (host.requestData outside request answers before fates).state := by
  unfold requestData
  split
  · exact .refl
  next runs =>
    cases isBuilt : host.buildDataRequest request with
    | none => exact .refl
    | some =>
      refine Effect.of_keeps ?_ fates
      exact Keeps.bind (resolve_accounted (normal_of_ne runs) rfl isBuilt) fun _ => Keeps.pure _

theorem fetchToCache_effect [CharTables] (streamed : Option Bool) (fates : Fates LibraryCall) :
    Effect before (Accounted outside host before (.fetchToCache request answers streamed fates))
      (host.fetchToCache outside request answers streamed before fates).state := by
  unfold fetchToCache
  split
  · exact .refl
  next runs =>
    have normal : host.mode = .normal := by
      refine normal_of_ne fun isValidation => runs ?_
      rw [isValidation]
      rfl
    split
    · exact .refl
    · cases isBuilt : host.buildDataRequest request with
      | none => exact .refl
      | some =>
        dsimp only
        split
        · exact .refl
        · refine Effect.of_keeps ?_ fates
          split
          · exact Keeps.pure _
          · exact Keeps.bind (resolve_accounted normal rfl isBuilt) fun _ => Keeps.pure _

theorem getData_effect {fits : ProductMetadata Source → Prop} (key : Str) (answers : Answers)
    (fates : Fates LibraryCall) :
    Effect before fits (host.getData outside key answers before fates).state := by
  refine Effect.of_keeps (Keeps.ite (Keeps.pure _) ?_) fates
  exact Keeps.bind (getDataForRequest_keeps _) fun _ => Keeps.pure _

end

end HostFunctions

/-- The counters of a budget are those of the emissions it has admitted, and within their
limits. -/
structure Ledger (log : List Emission) (budget : MetadataWriteBudget) : Prop where
  bytes : (log.map Emission.bytes).sum = budget.acceptedBytes
  distinct : budget.distinctIds.Nodup
  ids : ∀ id, id ∈ budget.distinctIds ↔ id ∈ log.map Emission.id
  fewWrites : budget.writesInWindow ≤ 120
  fewBytes : budget.acceptedBytes ≤ 64 * 1024 * 1024
  fewIds : budget.distinctIds.length ≤ 1024

/-- The window stays and counts what is admitted, or a new one begins, a minute later or more. -/
def SameOrLaterWindow (budget : MetadataWriteBudget) (count : Nat)
    (after : MetadataWriteBudget) : Prop :=
  after.windowStarted = budget.windowStarted ∧
      after.writesInWindow = budget.writesInWindow + count ∨
    budget.windowStarted + 60 * 1000000000 ≤ after.windowStarted

namespace MetadataWriteBudget

variable {budget : MetadataWriteBudget}

theorem renewed_cases (budget : MetadataWriteBudget) (now : Nat) :
    budget.renewed now = budget ∨ budget.windowStarted + 60 * 1000000000 ≤ now ∧
      budget.renewed now = { budget with windowStarted := now, writesInWindow := 0 } := by
  unfold renewed
  split
  next elapsed =>
    refine .inr ⟨?_, rfl⟩
    unfold writeWindow at elapsed
    omega
  · exact .inl rfl

/-- A refused emission may begin a new window, and an admitted one is counted within the
limits. -/
theorem admitAt_cases (budget : MetadataWriteBudget) (id : Str) (bytes now : Nat) :
    budget.admitAt id bytes now = (false, budget.renewed now) ∨
      (budget.renewed now).writesInWindow < 120 ∧
        (id ∈ budget.distinctIds ∨ budget.distinctIds.length < 1024) ∧
        budget.acceptedBytes + bytes ≤ 64 * 1024 * 1024 ∧
        budget.admitAt id bytes now = (true, { budget.renewed now with
          writesInWindow := (budget.renewed now).writesInWindow + 1
          acceptedBytes := budget.acceptedBytes + bytes
          distinctIds := budget.distinctIds.insert id }) := by
  have kept : (budget.renewed now).distinctIds = budget.distinctIds ∧
      (budget.renewed now).acceptedBytes = budget.acceptedBytes := by
    rcases renewed_cases budget now with same | ⟨-, renewed⟩
    · rw [same]
      exact ⟨rfl, rfl⟩
    · rw [renewed]
      exact ⟨rfl, rfl⟩
  unfold admitAt
  dsimp only
  rw [kept.1, kept.2]
  split
  · exact .inl rfl
  next roomInWindow =>
    split
    · exact .inl rfl
    next roomForId =>
      split
      · exact .inl rfl
      · split
        · exact .inl rfl
        next roomForBytes =>
          refine .inr ⟨Nat.lt_of_not_le roomInWindow, ?_, Nat.le_of_not_lt roomForBytes, rfl⟩
          by_contra neither
          rw [not_or, Nat.not_lt] at neither
          exact roomForId neither

/-- What one emission does to the window. -/
theorem window_charged (budget : MetadataWriteBudget) (emission : Option Emission) :
    SameOrLaterWindow budget (budget.admitted emission).length (budget.charged emission) := by
  cases emission with
  | none => exact .inl ⟨rfl, rfl⟩
  | some emission =>
    obtain ⟨id, bytes, now⟩ := emission
    rcases renewed_cases budget now with same | ⟨elapsed, renewed⟩
    · rcases admitAt_cases budget id bytes now with refused | ⟨-, -, -, admits⟩
      · simp [SameOrLaterWindow, charged, admitted, refused, same]
      · simp [SameOrLaterWindow, charged, admitted, admits, same]
    · rcases admitAt_cases budget id bytes now with refused | ⟨-, -, -, admits⟩
      · exact .inr (by simpa [charged, refused, renewed] using elapsed)
      · exact .inr (by simpa [charged, admits, renewed] using elapsed)

end MetadataWriteBudget

theorem Ledger.charged {log : List Emission} {budget : MetadataWriteBudget}
    (ledger : Ledger log budget) (emission : Option Emission) :
    Ledger (log ++ budget.admitted emission) (budget.charged emission) := by
  cases emission with
  | none =>
    rw [show budget.admitted none = [] from rfl, append_nil]
    exact ledger
  | some emission =>
    obtain ⟨id, bytes, now⟩ := emission
    have renewed : Ledger log (budget.renewed now) := by
      rcases budget.renewed_cases now with same | ⟨-, renewed⟩
      · rw [same]
        exact ledger
      · rw [renewed]
        exact { ledger with fewWrites := Nat.zero_le _ }
    rcases budget.admitAt_cases id bytes now with refused | ⟨fewWrites, room, fewBytes, admits⟩
    · have none : budget.admitted (some ⟨id, bytes, now⟩) = [] := by
        simp [MetadataWriteBudget.admitted, refused]
      rw [none, append_nil]
      simpa [MetadataWriteBudget.charged, refused] using renewed
    · have one : budget.admitted (some ⟨id, bytes, now⟩) = [⟨id, bytes, now⟩] := by
        simp [MetadataWriteBudget.admitted, admits]
      rw [one]
      simp only [MetadataWriteBudget.charged, elim_some, admits]
      refine ⟨?_, ledger.distinct.insert, ?_, fewWrites, fewBytes, ?_⟩
      · simp [ledger.bytes]
      · intro other
        simp [ledger.ids, or_comm]
      · by_cases known : id ∈ budget.distinctIds
        · rw [insert_of_mem known]
          exact ledger.fewIds
        · rw [length_insert_of_not_mem known]
          exact room.resolve_left known

namespace World

variable {Source : Type} [DecidableEq Source] [CharTables] {outside : Outside Source}
  {host : HostFunctions}

theorem step_effect (reliable : outside.Reliable) (world : World Source) (call : HostCall Source) :
    Effect { world with budget := world.budget.charged (call.emission outside host) }
      (Accounted outside host world call) (world.step outside host call) := by
  cases call with
  | emitMetadata source _ _ unixTime fates => exact emitMetadata_effect reliable
  | getProductMetadata _ source answers _ unixTime fates =>
    exact getProductMetadata_effect
  | requestData request answers fates => exact requestData_effect answers fates
  | fetchToCache request answers streamed fates =>
    exact fetchToCache_effect answers streamed fates
  | getData key answers fates => exact getData_effect key answers fates
  | others => exact ⟨Effect.refl.wrote, rfl⟩

theorem run_concat (world : World Source) (calls : List (HostCall Source))
    (call : HostCall Source) : world.run outside host (calls ++ [call]) =
      (world.run outside host calls).step outside host call :=
  foldl_concat _ _ _ _

theorem admitted_append (world : World Source) (earlier later : List (HostCall Source)) :
    world.admitted outside host (earlier ++ later) = world.admitted outside host earlier ++
      (world.run outside host earlier).admitted outside host later := by
  induction earlier generalizing world with
  | nil => rfl
  | cons call earlier ih =>
    rw [cons_append, admitted, admitted, ih, append_assoc]
    rfl

theorem budget_step (reliable : outside.Reliable) (world : World Source) (call : HostCall Source) :
    (world.step outside host call).budget =
      world.budget.charged (call.emission outside host) :=
  (step_effect reliable world call).budget

theorem ledger_of_run (reliable : outside.Reliable) (rows : Rows Source) (start : Nat)
    (calls : List (HostCall Source)) : Ledger ((initial rows start).admitted outside host calls)
      ((initial rows start).run outside host calls).budget := by
  induction calls using List.reverseRecOn with
  | nil => exact ⟨rfl, nodup_nil, fun _ => Iff.rfl, Nat.zero_le _, Nat.zero_le _, Nat.zero_le _⟩
  | append_singleton calls call ih =>
    rw [run_concat, budget_step reliable, admitted_append]
    simpa only [admitted, append_nil] using ih.charged (call.emission outside host)

/-- A stretch of calls stays in its window and counts what is admitted, or ends in a later one. -/
theorem window_of_run (reliable : outside.Reliable) (world : World Source)
    (calls : List (HostCall Source)) :
    SameOrLaterWindow world.budget (world.admitted outside host calls).length
      (world.run outside host calls).budget := by
  induction calls using List.reverseRecOn with
  | nil => exact .inl ⟨rfl, rfl⟩
  | append_singleton calls call ih =>
    have last := (world.run outside host calls).budget.window_charged (call.emission outside host)
    rw [run_concat, budget_step reliable, admitted_append, length_append]
    simp only [admitted, append_nil]
    rcases ih with ⟨sameStart, counted⟩ | later
    · rcases last with ⟨stays, counts⟩ | renewed
      · exact .inl ⟨stays.trans sameStart, by omega⟩
      · exact .inr (sameStart ▸ renewed)
    · rcases last with ⟨stays, _⟩ | renewed
      · exact .inr (stays ▸ later)
      · exact .inr (by omega)

/-- In every run the emissions that are admitted stay within their limits: 64 MiB and 1024 ids
in all, and 120 in any stretch of calls within one window, which lasts a minute or more. -/
theorem run_keeps_budget
    (reliable : outside.Reliable)
    (rows : Rows Source)
    (start : Nat)
    (earlier later : List (HostCall Source)) :
    (((initial rows start).admitted outside host (earlier ++ later)).map Emission.bytes).sum ≤
        64 * 1024 * 1024 ∧
      (((initial rows start).admitted outside host (earlier ++ later)).map
        Emission.id).dedup.length ≤ 1024 ∧
      ((((initial rows start).run outside host earlier).admitted outside host later).length ≤ 120 ∨
        ((initial rows start).run outside host earlier).budget.windowStarted + 60 * 1000000000 ≤
          ((initial rows start).run outside host (earlier ++ later)).budget.windowStarted) := by
  have ledger : Ledger _ ((initial rows start).run outside host (earlier ++ later)).budget :=
    ledger_of_run reliable rows start (earlier ++ later)
  refine ⟨ledger.bytes ▸ ledger.fewBytes, ?_, ?_⟩
  · have same := (perm_ext_iff_of_nodup (nodup_dedup _) ledger.distinct).mpr fun id =>
      mem_dedup.trans (ledger.ids id).symm
    exact same.length_eq ▸ ledger.fewIds
  · have whole : (initial rows start).run outside host (earlier ++ later) =
        ((initial rows start).run outside host earlier).run outside host later :=
      foldl_append
    have few := ledger.fewWrites
    rw [whole] at few ⊢
    have window := @window_of_run _ _ _ outside host reliable
      ((initial rows start).run outside host earlier) later
    rcases window with ⟨_, counted⟩ | renewed
    · exact .inl (by omega)
    · exact .inr renewed

/-- Every row that a plugin's calls write is an admitted emission, made of a raw response,
repaired, or a network response. -/
theorem written_rows_accounted (reliable : outside.Reliable) (rows : Rows Source) (start : Nat)
    (calls : List (HostCall Source)) :
    ∀ row ∈ ((initial rows start).run outside host calls).written,
      ∃ earlier call later, calls = earlier ++ call :: later ∧
        Accounted outside host ((initial rows start).run outside host earlier) call row := by
  induction calls using List.reverseRecOn with
  | nil =>
    intro row mem
    cases mem
  | append_singleton calls call ih =>
    intro row mem
    rw [run_concat] at mem
    obtain ⟨_, isAdded, accounted⟩ := (step_effect reliable _ call).wrote
    rw [isAdded] at mem
    rcases mem_append.mp mem with now | before
    · exact ⟨calls, call, [], rfl, accounted row now⟩
    · obtain ⟨earlier, other, later, rfl, origin⟩ := ih row before
      exact ⟨earlier, other, later ++ [call], by simp, origin⟩

end World

inductive ExampleSource where
  | dlsite
  | steam
  deriving DecidableEq

def exampleNew (source : ExampleSource) (id : Str) : ProductMetadata ExampleSource where
  id := (match source with
    | .dlsite => "dlsite".toList
    | .steam => "steam".toList) ++ ':' :: id
  source := source
  externalId := id
  title := none
  creator := none
  description := none
  releaseDate := none
  price := none
  currency := none
  rating := none
  ratingCount := none
  purchaseCount := none
  favoriteCount := none
  reviewCount := none
  fileSize := none
  fileFormat := none
  ageRating := none
  genres := []
  tags := []
  languages := []
  extras := .null
  rawApiResponse := none
  rawHtml := none
  geoBlocked := false
  cachedAt := 0
  updatedAt := none

def exampleEmission : Str :=
  "\x7b\"product_id\":\"99\",\"source\":\"steam\",\"title\":\"Emitted\"\x7d".toList

def exampleRow : ProductMetadata ExampleSource :=
  { exampleNew .steam "99".toList with
    title := some "Emitted".toList
    extras := .object [(provenanceKey, provenance "steam-metadata".toList)]
    rawApiResponse := some exampleEmission }

def exampleText : Str :=
  "\x7b\"id\":\"steam:99\",\"source\":\"steam\",\"external_id\":\"99\",".toList ++
    "\"title\":\"Emitted\",\"creator\":null,\"description\":null,".toList ++
    "\"release_date\":null,\"price\":null,\"currency\":null,\"rating\":null,".toList ++
    "\"rating_count\":null,\"purchase_count\":null,\"favorite_count\":null,".toList ++
    "\"review_count\":null,\"file_size\":null,\"file_format\":null,".toList ++
    "\"age_rating\":null,\"genres\":[],\"tags\":[],\"languages\":[],".toList ++
    "\"extras\":\x7b\"_arclain\":\x7b\"emitted_by_plugin\":".toList ++
    "\"steam-metadata\"\x7d\x7d,\"raw_api_response\":\"\x7b\\\"product_id\\\":".toList ++
    "\\\"99\\\",\\\"source\\\":\\\"steam\\\",\\\"title\\\":\\\"Emitted\\\"\x7d\",".toList ++
    "\"raw_html\":null,\"geo_blocked\":false,\"cached_at\":0,".toList ++
    "\"updated_at\":null\x7d".toList

def exampleResponse : Str :=
  "\x7b\"work_name\":\"Cached title\",\"maker_name\":\"Cached circle\"\x7d".toList

def exampleOutside : Outside ExampleSource where
  fromStr text :=
    if text = "dlsite".toList then some .dlsite
    else if text = "steam".toList then some .steam
    else none
  asStr source :=
    match source with
    | .dlsite => "dlsite".toList
    | .steam => "steam".toList
  dlsite := .dlsite
  newMetadata := exampleNew
  parseJson text :=
    if text = exampleEmission then
      some (.object [("product_id".toList, .string "99".toList),
        ("source".toList, .string "steam".toList), ("title".toList, .string "Emitted".toList)])
    else if text = exampleResponse then
      some (.object [("work_name".toList, .string "Cached title".toList),
        ("maker_name".toList, .string "Cached circle".toList)])
    else none
  writeMetadata row := if row = exampleRow then exampleText else []
  readMetadata bytes :=
    if bytes = utf8Bytes exampleText then .ok exampleRow
    else .error "EOF while parsing a value at line 1 column 0".toList
  parseHtml _ := none
  databaseError := "database is locked".toList
  maxPluginMetadataBytes := 1024 * 1024
  maxPluginGuestDataBytes := 4 * 1024 * 1024

theorem exampleOutside_reads {row back : ProductMetadata ExampleSource} (read :
    exampleOutside.readMetadata (utf8Bytes (exampleOutside.writeMetadata row)) = .ok back) :
    back = row := by
  by_cases isRow : row = exampleRow
  · subst isRow
    simp only [exampleOutside, if_true] at read
    exact (Except.ok.inj read).symm
  · have differs : ¬ utf8Bytes [] = utf8Bytes exampleText := by decide +kernel
    simp only [exampleOutside, if_neg isRow, if_neg differs] at read
    cases read

theorem exampleOutside_reliable : exampleOutside.Reliable where
  newId source id := by
    cases source with
    | dlsite | steam => rfl
  readsId read := congrArg ProductMetadata.id (exampleOutside_reads read)
  readsTextual key read _ := by rw [exampleOutside_reads read]

/-- A plugin with the capabilities for metadata, files and the network. -/
def exampleHost (pluginId : Str) : HostFunctions where
  mode := .normal
  pluginId := pluginId
  capabilities := [.archiveMetadataRead, .archiveMetadataWrite, .fileRead, .network]
  hasLibrary := true
  materializationLimit := 4 * 1024 * 1024

/-- A look-up that finds a raw response in the cache of the plugin. -/
def exampleLookUp : HostCall ExampleSource :=
  .getProductMetadata "RJ000001".toList "dlsite".toList (fun source _ =>
    if source = .contentCache then some (.ok (utf8Bytes exampleResponse)) else none)
    none 0 Fates.allWork

def exampleRequest : HostCall ExampleSource :=
  .requestData
    { key := "steam:99".toList
      url := some "https://example.invalid/99".toList
      resourceType := .json
      sources := [] }
    (fun source _ => if source = .network then some (.ok (utf8Bytes exampleText)) else none)
    Fates.allWork

def exampleEmit : HostCall ExampleSource :=
  .emitMetadata (some "steam".toList) exampleEmission 5 0 Fates.allWork

def exampleRun (pluginId : Str) (calls : List (HostCall ExampleSource)) : World ExampleSource :=
  @World.run _ _ asciiTables exampleOutside (exampleHost pluginId) (World.initial ∅ 0) calls

/-- The plugins that the rows written by some calls name, and the budget after the
calls. -/
def exampleOutcome (calls : List (HostCall ExampleSource)) :
    List (Option Str) × MetadataWriteBudget :=
  let world := exampleRun ['p'] calls
  (world.written.map emittedBy, world.budget)

/-- A look-up writes a row that the budget never saw, and a request one that names another
plugin. -/
theorem unadmitted_rows_written : exampleOutcome [exampleLookUp] = ([none], .initial 0) ∧
    exampleOutcome [exampleRequest] = ([some "steam-metadata".toList], .initial 0) := by
  decide +kernel

/-- Two emissions of one product are admitted, and are within the limits. -/
theorem emissions_within_limits :
    ((@World.admitted _ _ asciiTables exampleOutside (exampleHost "steam-metadata".toList)
      (World.initial ∅ 0) ([exampleEmit] ++ [exampleEmit])).map Emission.id =
        ["steam:99".toList, "steam:99".toList]) ∧
      ((@World.admitted _ _ asciiTables exampleOutside (exampleHost "steam-metadata".toList)
        (World.initial ∅ 0) ([exampleEmit] ++ [exampleEmit])).map Emission.id).dedup.length ≤
          1024 := by
  refine ⟨by decide +kernel, ?_⟩
  exact (@World.run_keeps_budget _ _ asciiTables _ _ exampleOutside_reliable ∅ 0
    [exampleEmit] [exampleEmit]).2.1

/-- The row of an emission is accounted for. -/
theorem emitted_row_accounted :
    (exampleRun "steam-metadata".toList [exampleEmit]).written = [exampleRow] ∧
      ∃ earlier call later, [exampleEmit] = earlier ++ call :: later ∧
        @Accounted _ asciiTables exampleOutside (exampleHost "steam-metadata".toList)
          (exampleRun "steam-metadata".toList earlier) call exampleRow := by
  have written : (exampleRun "steam-metadata".toList [exampleEmit]).written = [exampleRow] := by
    decide +kernel
  refine ⟨written, ?_⟩
  exact @World.written_rows_accounted _ _ asciiTables _ _ exampleOutside_reliable ∅ 0
    [exampleEmit] exampleRow (written ▸ mem_singleton_self _)

end Arclain.HostMetadata
