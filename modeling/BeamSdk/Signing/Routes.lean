import BeamSdk.Signing.Agreement

/-! The handlers that sign a route again: what they check of a request against the plan, where the
multipart group comes from, and what they sign. The four do the same but for what is written per SDK
here. -/

namespace Beam.Signing
open Plan

structure RouteRecoverySignChunk extends MultipartCoordinates where
  sourceID : String
  destinationID : String
  chunkIndex : ℤ
  deliveryIndex : ℤ
  sourceOffset : ℤ
  chunkSize : ℤ
  logicalAttemptIndex : ℤ
  attemptSlot : ℤ
  routeGenerationID : String
  destinationMetadata : OrderedMap String Json

inductive ProviderSourceConfig
  | s3Compatible (bucket key : String)
  | hippius (bucket key : String)
  | huggingFace (repository path : String)
  | gcs
  | azure

inductive SourceURL
  | planned (url : String)
  | getObject (bucket key : String) (ifMatch versionID : Option String)
  | hippius (bucket key : String)
  | resolved (repository path : String)
deriving DecidableEq

structure SourceGrant where
  url : SourceURL
  rangeStart : ℤ
  rangeEnd : ℤ
  ifMatch : Option String
deriving DecidableEq

structure HuggingFaceUploadState where
  uploadHref : Option String
  chunkSize : Option ℤ
  partURLs : List String

structure MultipartGroupManifest where
  multipartGroupID : String
  sourceID : String
  destinationID : String
  finalObjectKey : String
  uploadID : String
  expectedObjectSize : ℤ
  expectedPartCount : ℤ
  maxPartNumber : ℤ
  completeURL : Grant
  abortURL : Grant
  listPageURLs : List Grant
  finalHeadURL : Grant
  -- the one member of `final_object_metadata`
  beamTransferID : String

structure MultipartUploadState where
  objectKey : String
  uploadID : String
  manifest : MultipartGroupManifest

abbrev Uploads := OrderedMap String MultipartUploadState

structure ProviderSession where
  transferID : String
  descriptor : CompactTransferPlanDescriptor
  sources : String → Option ProviderSourceConfig
  destinations : String → Option ProviderDestinationConfig
  huggingFace : String → Option HuggingFaceUploadState
  signSourceChunk : ProviderSourceConfig → ChunkSigningPlanItem → Except String SourceGrant

inductive UploadURL
  | s3 (grant : Grant)
  | hippius (bucket objectKey : String)
  | hub (href : String)

structure SignedChunkRoute where
  sourceID : String
  destinationID : String
  chunkIndex : ℤ
  source : SourceGrant
  destURL : UploadURL
  sourceOffset : ℤ
  chunkSize : ℤ
  metadata : OrderedMap String Json
  listPageURL : Option Grant

structure RecoveryRoute where
  route : SignedChunkRoute
  upload : Option MultipartUploadState
  recovered : Recovered

/-- The destination the worker is given: a staged upload takes the place of the part's. -/
def RecoveryRoute.destURL (recovery : RecoveryRoute) : UploadURL :=
  match recovery.recovered with
  | .staged _ (some grant) => .s3 grant
  | _ => recovery.route.destURL

def MultipartGroupManifest.grants (manifest : MultipartGroupManifest) : List Grant :=
  manifest.completeURL :: manifest.abortURL :: manifest.finalHeadURL :: manifest.listPageURLs

/-- Every S3 URL signed for a route: the controls of its group, its destination and what its
directive adds. -/
def RecoveryRoute.grants (recovery : RecoveryRoute) : List Grant :=
  (recovery.upload.map fun upload => upload.manifest.grants).getD []
    ++ (match recovery.route.destURL with
      | .s3 grant => [grant]
      | _ => [])
    ++ recovery.recovered.grants

def multipartGroupStateKey (transferID destinationID sourceID finalObjectKey : String) : String :=
  transferID ++ ":" ++ destinationID ++ ":" ++ sourceID ++ ":" ++ finalObjectKey

namespace Implementation
variable (implementation : Implementation)

def sdk : Implementation → Sdk
  | go => Plan.go
  | typescript => Plan.typescript
  | rust => Plan.rust
  | python => Plan.python

/-- What signing a group's controls says of a destination that has none; the SDKs do not all sign
the same one first. -/
def unsupported (destination : ProviderDestinationConfig) : String :=
  match implementation with
  | go | rust => "multipart list-parts is not supported for " ++ destination.providerName
  | typescript => "multipart completion is not supported for " ++ destination.providerName
  | python =>
      "multipart completion is not supported for destination: " ++ Python.className destination

def signMultipartGroupState (transferID multipartGroupID : String)
    (source : CompactTransferPlanSource)
    (destinationID : String) (destination : ProviderDestinationConfig)
    (finalObjectKey uploadID : String) :
    Except String MultipartUploadState := do
  if source.chunkCount < 1 then throw "source chunk_count must be a positive integer"
  let maxPartNumber ← multipartPartNumber (source.chunkCount - 1) 0
  let some settings := destination.s3Settings? | throw (implementation.unsupported destination)
  pure {
    objectKey := finalObjectKey
    uploadID
    manifest := {
      multipartGroupID
      sourceID := source.sourceID
      destinationID
      finalObjectKey
      uploadID
      expectedObjectSize := source.size
      expectedPartCount := source.chunkCount
      maxPartNumber
      completeURL := settings.sign finalObjectKey (.completeMultipartUpload uploadID)
      abortURL := settings.sign finalObjectKey (.abortMultipartUpload uploadID)
      -- All four leave the marker of the first page out here.
      listPageURLs := (pageMarkers maxPartNumber).map fun marker =>
        settings.sign finalObjectKey (.listParts uploadID 1000 (Go.partNumberMarker marker))
      finalHeadURL := settings.sign finalObjectKey .headObject
      beamTransferID := transferID } }

/-- The checks of TypeScript and Rust, whose presigned URLs are never empty and differ with their
markers. -/
def validateFields (largest : Option ℤ) (transferID : String)
    (group : MultipartGroupManifest) : Except String Unit := do
  let id := group.multipartGroupID
  if id = "" then throw ("multipart_group_id must be non-empty and unique: " ++ id)
  for (field, value) in [("source_id", group.sourceID), ("destination_id", group.destinationID),
      ("final_object_key", group.finalObjectKey), ("upload_id", group.uploadID)] do
    if value = "" then throw ("multipart group " ++ id ++ " requires " ++ field)
  if group.expectedPartCount < 1 ∨ 10000 < group.expectedPartCount then
    throw ("multipart group " ++ id ++ " has invalid expected_part_count")
  if group.maxPartNumber ≠ group.expectedPartCount ∨ 10000 < group.maxPartNumber then
    throw ("multipart group " ++ id ++ " has invalid max_part_number")
  if group.expectedObjectSize ≤ 0 ∨ (largest.any fun largest =>
    largest < group.expectedObjectSize) then
    throw ("multipart group " ++ id ++ " has invalid expected_object_size")
  let pages := (group.maxPartNumber + 999) / 1000
  if (group.listPageURLs.length : ℤ) ≠ pages then
    throw ("multipart group " ++ id ++ " requires " ++ toString pages ++ " unique list_page_urls")
  if group.beamTransferID ≠ transferID then
    throw ("multipart group " ++ id ++ " has invalid final_object_metadata")

def validateSignedRouteManifestContract (transferID : String)
    (group : MultipartGroupManifest) : Except String Unit := do
  let id := group.multipartGroupID
  if id = "" then throw "multipart_group_id is required"
  if group.sourceID = "" ∨ group.destinationID = "" ∨
    group.finalObjectKey = "" ∨ group.uploadID = "" then
    throw ("multipart group " ++ id ++ " has missing required controls")
  if group.expectedObjectSize ≤ 0 ∨ group.expectedPartCount < 1 ∨ multipartMaxSourceChunks <
    group.expectedPartCount then
    throw ("multipart group " ++ id ++ " has invalid expected object or part count")
  let expectedMaxPartNumber ← multipartPartNumber (group.expectedPartCount - 1) 0
  if group.maxPartNumber ≠ expectedMaxPartNumber then
    throw ("multipart group " ++ id ++ " max_part_number must equal its consecutive part count")
  let pages := (group.maxPartNumber + 999) / 1000
  if (group.listPageURLs.length : ℤ) ≠ pages then
    throw ("multipart group " ++ id ++ " requires " ++ toString pages ++ " unique list_page_urls")
  if group.beamTransferID ≠ transferID then
    throw ("multipart group " ++ id ++ " has invalid final_object_metadata")

def validateMultipartGroupManifest (transferID : String) (group : MultipartGroupManifest) :
    Except String Unit :=
  match implementation with
  | go => validateSignedRouteManifestContract transferID group
  | typescript => validateFields (some (2 ^ 53 - 1)) transferID group
  | rust => validateFields none transferID group
  | python =>
    if group.beamTransferID ≠ transferID then
      throw ("multipart group " ++ group.multipartGroupID ++ " has invalid final_object_metadata")
    else pure ()

/-- The group a request names: the one signed before, or one built again from what the request says
of it, which is then kept under its name. -/
def recoveryMultipartUploadState (session : ProviderSession) (uploads : Uploads)
    (destination : ProviderDestinationConfig) (requested : RouteRecoverySignChunk) :
    Except String (MultipartUploadState × Option (String × MultipartUploadState)) := do
  match uploads.get requested.multipartGroupID with
  | some existing =>
    if existing.uploadID ≠ requested.uploadID ∨ existing.objectKey ≠ requested.finalObjectKey
        ∨ existing.manifest.sourceID ≠ requested.sourceID
        ∨ existing.manifest.destinationID ≠ requested.destinationID then
      throw "route recovery multipart identity mismatch"
    pure (existing, none)
  | none =>
    if requested.uploadID = "" then throw "route recovery multipart upload id is required"
    let some source := session.descriptor.sources.find? fun candidate =>
      candidate.sourceID = requested.sourceID
      | throw "route recovery source plan is unavailable"
    if requested.multipartGroupID ≠
      multipartGroupStateKey session.transferID requested.destinationID requested.sourceID
        requested.finalObjectKey then
      throw "route recovery multipart group identity mismatch"
    let state ← implementation.signMultipartGroupState session.transferID
      requested.multipartGroupID source
      requested.destinationID destination requested.finalObjectKey requested.uploadID
    implementation.validateMultipartGroupManifest session.transferID state.manifest
    pure (state, some (requested.multipartGroupID, state))

def partRouteMetadataKeys : List String :=
  ["part_number", "logical_attempt_index", "attempt_slot", "route_generation_id", "delivery_index",
    "etag_required"]

def partRouteMetadata (metadata : OrderedMap String Json) : OrderedMap String Json :=
  metadata.filter fun entry => entry.1 ∈ partRouteMetadataKeys

def directPutRouteMetadata (metadata : OrderedMap String Json) : OrderedMap String Json :=
  (partRouteMetadata metadata).filter fun entry => entry.1 ≠ "part_number"

def lacksKey (objectKey : String) : Bool := objectKey = "" && !(implementation matches rust)

/-- The Hub presigns its own targets: one for the whole object, or one for each part. -/
def hubURL (state : HuggingFaceUploadState) (sourceChunkIndex : ℤ) : Option String :=
  match state.chunkSize with
  | none => state.uploadHref
  | some _ => state.partURLs[sourceChunkIndex.toNat]?

def signProviderRoute (session : ProviderSession)
    (chunk : ChunkSigningPlanItem) (target : ChunkDestinationSigningTarget)
    (destination : ProviderDestinationConfig)
    (upload : Option MultipartUploadState) (finalObjectKey : String)
    (partNumber : ℤ) (source : SourceGrant) : Except String SignedChunkRoute := do
  let route (destURL : UploadURL) (metadata : OrderedMap String Json)
    (listPageURL : Option Grant) : SignedChunkRoute := {
    sourceID := chunk.sourceID
    destinationID := target.destinationID
    chunkIndex := chunk.chunkIndex
    source
    destURL
    sourceOffset := chunk.sourceOffset
    chunkSize := chunk.chunkSize
    metadata
    listPageURL }
  match destination with
  | .huggingFace =>
    let some state := session.huggingFace target.destinationID
      | throw ("huggingface upload state is missing for " ++ target.destinationID)
    let href := (hubURL state chunk.sourceChunkIndex).getD ""
    if href = "" then
      throw ("the Hub issued no upload URL for chunk " ++ toString chunk.sourceChunkIndex)
    if implementation.lacksKey finalObjectKey
      then throw "destination signing target is missing object_key"
    pure (route (.hub href) (directPutRouteMetadata target.metadata) none)
  | .hippius bucket =>
    if implementation.lacksKey target.objectKey
      then throw "destination signing target is missing object_key"
    pure (route (.hippius bucket target.objectKey) (partRouteMetadata target.metadata) none)
  | .s3Compatible _ | .gcs | .azure =>
    let some upload := upload | throw "signed_url route is missing its multipart upload"
    if implementation matches go ∧ upload.uploadID = "" then
      throw "signed_url route is missing its multipart upload"
    if partNumber < 1 ∨ upload.manifest.maxPartNumber < partNumber then
      throw ("multipart part_number " ++ toString partNumber ++ " is outside group "
        ++ upload.manifest.multipartGroupID ++
          " range 1-" ++ toString upload.manifest.maxPartNumber)
    let listPageURL := upload.manifest.listPageURLs[((partNumber - 1) / 1000).toNat]?
    if implementation matches go ∧ listPageURL.isNone then
      throw ("multipart list_page_url missing for part_number " ++ toString partNumber)
    if implementation matches python ∧ listPageURL.isNone then throw "list index out of range"
    if implementation.lacksKey finalObjectKey
      then throw "destination signing target is missing object_key"
    let some settings := destination.s3Settings?
      | throw ("unsupported provider destination: " ++ destination.providerName)
    let operation :=
      if upload.uploadID ≠ "" then .uploadPart upload.uploadID partNumber else .putObject
    pure (route (.s3 (settings.sign finalObjectKey operation)) (partRouteMetadata target.metadata)
      listPageURL)

def decode (requested : RouteRecoverySignChunk) : Except String Unit :=
  if implementation matches rust ∧
    (requested.chunkIndex < 0 ∨ requested.deliveryIndex < 0 ∨ requested.sourceOffset < 0
      ∨ requested.chunkSize < 0 ∨ requested.logicalAttemptIndex < 0 ∨ requested.attemptSlot < 0
      ∨ requested.partNumber < 0 ∨ (requested.recovery.any fun request =>
        (Rust.decodeOperation request.operation).isNone || (Rust.decodeMode request.mode).isNone))
          then
    throw "invalid route recovery request"
  else pure ()

def requestedInt (fields : List (String × ℤ)) : Except String Unit :=
  if implementation matches python then
    fields.forM fun (key, value) =>
      if value < 0 then throw ("route recovery " ++ key ++ " must be a non-negative integer")
        else pure ()
  else pure ()

def chunkText (requested : RouteRecoverySignChunk) (failure : Failure) : String :=
  match implementation with
  | go => "plan chunk is outside source range: " ++ requested.sourceID ++ ":" ++
      toString requested.chunkIndex
  | _ => implementation.sdk.text requested.sourceID requested.chunkIndex failure

def hasDeliveryIndex (target : ChunkDestinationSigningTarget) (deliveryIndex : ℤ) : Bool :=
  match target.metadata.get "delivery_index" with
  | some (.number value) => value = deliveryIndex
  | _ => false

def plannedTarget (session : ProviderSession) (generation : String)
    (requested : RouteRecoverySignChunk) :
    Except String (ChunkSigningPlanItem × ChunkDestinationSigningTarget) := do
  if requested.routeGenerationID ≠ generation then throw "route recovery chunk generation mismatch"
  implementation.requestedInt [("chunk_index", requested.chunkIndex),
    ("delivery_index", requested.deliveryIndex),
    ("logical_attempt_index", requested.logicalAttemptIndex),
      ("attempt_slot", requested.attemptSlot),
    ("part_number", requested.partNumber)]
  if implementation matches python ∧ requested.attemptSlot ≠
    0 then throw "route recovery attempt_slot must be 0"
  let chunk ← (implementation.sdk.materializePlanChunk session.descriptor requested.sourceID
    requested.chunkIndex).mapError (implementation.chunkText requested)
  let partNumber ← (multipartPartNumber chunk.sourceChunkIndex
    requested.attemptSlot).mapError fun text =>
    if implementation matches go then "route recovery multipart slot mapping mismatch" else text
  if requested.partNumber ≠ partNumber then throw "route recovery multipart slot mapping mismatch"
  if implementation matches go ∧ requested.logicalAttemptIndex < 0 then
    throw "route recovery logical attempt index is invalid"
  implementation.requestedInt [("source_offset", requested.sourceOffset),
    ("chunk_size", requested.chunkSize)]
  if chunk.sourceOffset ≠ requested.sourceOffset ∨ chunk.chunkSize ≠ requested.chunkSize then
    throw "route recovery source coordinate mismatch"
  let some target := chunk.destinations.find? fun candidate =>
      candidate.destinationID = requested.destinationID &&
        hasDeliveryIndex candidate requested.deliveryIndex
    | throw "route recovery destination coordinate mismatch"
  pure (chunk, target)

/-- The target with the request's fields over the plan's. Only the Python SDK gives a direct upload
the final key. -/
def recoveryTarget (session : ProviderSession) (target : ChunkDestinationSigningTarget)
    (destination : ProviderDestinationConfig) (requested : RouteRecoverySignChunk) :
      ChunkDestinationSigningTarget where
  destinationID := target.destinationID
  provider := target.provider
  objectKey :=
    if destination.isDirectPutDestination && !(implementation matches python) then target.objectKey
    else requested.finalObjectKey
  metadata :=
    let fields : List (String × Json) :=
      requested.destinationMetadata ++ [("transfer_id", .string session.transferID),
      ("final_object_key", .string requested.finalObjectKey),
        ("upload_id", .string requested.uploadID),
      ("multipart_group_id", .string requested.multipartGroupID),
        ("delivery_index", .number requested.deliveryIndex),
      ("part_number", .number requested.partNumber),
        ("logical_attempt_index", .number requested.logicalAttemptIndex),
      ("attempt_slot", .number requested.attemptSlot),
        ("route_generation_id", .string requested.routeGenerationID)]
    fields.foldl (fun metadata (key, value) => metadata.set key value) target.metadata

def signRequested (unicode : Char → Char) (session : ProviderSession) (chunk : ChunkSigningPlanItem)
    (target : ChunkDestinationSigningTarget) (source : ProviderSourceConfig)
    (destination : ProviderDestinationConfig)
    (requested : RouteRecoverySignChunk)
    (upload : Option MultipartUploadState) : Except String RecoveryRoute := do
  let grant ← session.signSourceChunk source chunk
  let route ← implementation.signProviderRoute session chunk
    (implementation.recoveryTarget session target destination requested)
      destination upload requested.finalObjectKey
    requested.partNumber grant
  let recovered ← implementation.signMultipartRecovery unicode destination session.transferID
    requested.toMultipartCoordinates (upload.map fun upload => upload.manifest.expectedPartCount)
  pure { route, upload, recovered }

/-- One chunk of a request: its route or an error, and the group that was built for it. -/
def signRecoveryRoute (unicode : Char → Char) (session : ProviderSession) (uploads : Uploads)
    (generation : String)
    (requested : RouteRecoverySignChunk) : Except String RecoveryRoute ×
      Option (String × MultipartUploadState) :=
  let checked :
    Except String (ChunkSigningPlanItem × ChunkDestinationSigningTarget × ProviderSourceConfig
      × ProviderDestinationConfig) := do
    implementation.decode requested
    if generation = "" then throw "route recovery generation is required"
    let (chunk, target) ← implementation.plannedTarget session generation requested
    match session.sources requested.sourceID, session.destinations requested.destinationID with
    | some source, some destination => pure (chunk, target, source, destination)
    | _, _ => throw "route recovery provider configuration is unavailable"
  match checked with
  | .error text => (.error text, none)
  | .ok (chunk, target, source, destination) =>
    let sign :=
      implementation.signRequested unicode session chunk target source destination requested
    if destination.isDirectPutDestination then (sign none, none)
    else
      match implementation.recoveryMultipartUploadState session uploads destination requested with
      | .error text => (.error text, none)
      | .ok (upload, built) => (sign (some upload), built)

end Implementation
end Beam.Signing
