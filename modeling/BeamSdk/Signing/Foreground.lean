import BeamSdk.Signing.Inside

/-! The foreground stream of the Python SDK, and what a route that is signed again for one of its
chunks shares with the route it signed. -/

namespace Beam.Signing
open Plan

deriving instance DecidableEq for S3Operation
deriving instance DecidableEq for Grant
deriving instance DecidableEq for UploadURL

namespace Python

structure SourcePin where
  etag : Option String
  versionID : Option String

def sourceChunkGrant (pin : String → SourcePin) (source : ProviderSourceConfig)
    (chunk : ChunkSigningPlanItem) :
    Except String SourceGrant :=
  let rangeStart := max 0 chunk.sourceOffset
  let rangeEnd := rangeStart + max 1 chunk.chunkSize - 1
  match source with
  | .s3Compatible bucket key =>
    let ifMatch := (pin chunk.sourceID).etag.filter fun etag => etag ≠ ""
    let versionID := (pin chunk.sourceID).versionID.filter fun versionID => versionID ≠ ""
    pure ⟨.getObject bucket key ifMatch versionID, rangeStart, rangeEnd, ifMatch⟩
  -- Only S3 is asked for the pinned version.
  | .hippius bucket key => pure ⟨.hippius bucket key, rangeStart, rangeEnd, none⟩
  | .huggingFace repository path => pure ⟨.resolved repository path, rangeStart, rangeEnd, none⟩
  | .gcs | .azure => throw "source signing is not implemented for provider source"

/-- A session whose sources are signed as the SDK signs them, in the foreground and in recovery. -/
def session (pin : String → SourcePin) (session : ProviderSession) : ProviderSession :=
  { session with signSourceChunk := sourceChunkGrant pin }

def plannedObjectKey (target : ChunkDestinationSigningTarget) : String :=
  match target.metadata.get "final_object_key" with
  | some (.string key) => if key = "" then target.objectKey else key
  | _ => target.objectKey

def plannedPartNumber (chunk : ChunkSigningPlanItem) (target : ChunkDestinationSigningTarget) :
    Except String ℤ :=
  match target.metadata.get "part_number" with
  | some (.number value) =>
      if value.den = 1 then pure value.num else multipartPartNumber chunk.sourceChunkIndex 0
  | _ => multipartPartNumber chunk.sourceChunkIndex 0

/-- `group` is what the stream's waiters for the multipart groups come to. -/
def signPlannedRoute (session : ProviderSession) (group : String → Option MultipartUploadState)
    (chunk : ChunkSigningPlanItem) (target : ChunkDestinationSigningTarget) :
      Except String SignedChunkRoute := do
  let some destination := session.destinations target.destinationID
    | throw ("BeamCore returned unknown destination_id: " ++ target.destinationID)
  let some source := session.sources chunk.sourceID
    | throw ("BeamCore returned unknown source_id: " ++ chunk.sourceID)
  let finalObjectKey := plannedObjectKey target
  if finalObjectKey = "" then throw "destination signing target is missing object_key"
  let upload : Option MultipartUploadState :=
    if destination.isDirectPutDestination then none
    else group
      (multipartGroupStateKey session.transferID target.destinationID chunk.sourceID finalObjectKey)
  if destination.isDirectPutDestination = false ∧ upload.isNone then
    throw ("multipart group manifest is missing for " ++ chunk.sourceID ++ ":" ++
      target.destinationID)
  let partNumber ← plannedPartNumber chunk target
  let grant ← session.signSourceChunk source chunk
  Implementation.python.signProviderRoute session chunk target destination upload finalObjectKey
    partNumber grant

/-- The routes of the stream: for every chunk of every source, one for each of its targets. -/
structure Streams (session : ProviderSession) (group : String → Option MultipartUploadState)
    (chunk : ChunkSigningPlanItem) (target : ChunkDestinationSigningTarget)
    (route : SignedChunkRoute) : Prop where
  yielded : ∃ source ∈ session.descriptor.sources, ∃ sourceChunkIndex : ℕ,
    (sourceChunkIndex : ℤ) < source.chunkCount
    ∧ Plan.python.chunkAt session.descriptor source sourceChunkIndex = .ok chunk
  planned : target ∈ chunk.destinations
  -- an upload without an id is an error to `create_multipart_upload`
  created : ∀ name upload, group name = some upload → upload.uploadID ≠ ""
  signed : signPlannedRoute session group chunk target = .ok route

def stagedUpload (r : MultipartCoordinates) : Option String :=
  r.recovery.bind fun request =>
    if request.operation = "upload" ∧ request.mode ≠ "direct" then some request.attemptID else none

/-- The route signed again reads what the foreground's reads and writes where it writes. -/
structure Repeats (recovery : RecoveryRoute) (route : SignedChunkRoute) : Prop where
  source : recovery.route.source = route.source
  sourceOffset : recovery.route.sourceOffset = route.sourceOffset
  chunkSize : recovery.route.chunkSize = route.chunkSize
  destURL : recovery.destURL = route.destURL

def NamesDestination (session : ProviderSession) (group : String → Option MultipartUploadState)
    (requested : RouteRecoverySignChunk) (target : ChunkDestinationSigningTarget) : Prop :=
  match session.destinations requested.destinationID with
  | some (.s3Compatible _) =>
    stagedUpload requested.toMultipartCoordinates = none ∧
      requested.finalObjectKey = plannedObjectKey target
      ∧ ∃ upload,
        group (multipartGroupStateKey session.transferID requested.destinationID requested.sourceID
          (plannedObjectKey target)) = some upload ∧ requested.uploadID = upload.uploadID
  | some (.hippius _) => requested.finalObjectKey = target.objectKey
  | _ => True

end Python

section
variable {session : ProviderSession} {requested : RouteRecoverySignChunk} {unicode : Char → Char}

theorem materializePlanChunk_source {sdk : Sdk} {descriptor : CompactTransferPlanDescriptor}
    {sourceID : String}
    {chunkIndex : ℤ} {chunk : ChunkSigningPlanItem}
    (h : sdk.materializePlanChunk descriptor sourceID chunkIndex = .ok chunk) :
    chunk.sourceID = sourceID ∧ chunk.chunkIndex = chunkIndex := by
  unfold Sdk.materializePlanChunk at h
  cases hsource : descriptor.sources.find? fun candidate => candidate.sourceID = sourceID with
  | none =>
    simp only [hsource] at h
    cases h
  | some source =>
    simp only [hsource] at h
    obtain ⟨-, h⟩ := guard_eq_ok.mp h
    split at h
    · obtain ⟨_, -, h⟩ := bind_eq_ok.mp h
      obtain ⟨destinations, -, h⟩ := bind_eq_ok.mp h
      obtain rfl := Except.ok.inj h
      exact ⟨rfl, rfl⟩
    · obtain ⟨destinations, -, h⟩ := bind_eq_ok.mp h
      obtain rfl := Except.ok.inj h
      exact ⟨rfl, rfl⟩

theorem Python.Streams.materialized {group : String → Option MultipartUploadState}
    {chunk : ChunkSigningPlanItem}
    {target : ChunkDestinationSigningTarget} {route : SignedChunkRoute}
    (h : Python.Streams session group chunk target route) :
    Plan.python.materializePlanChunk session.descriptor chunk.sourceID chunk.chunkIndex =
      .ok chunk := by
  obtain ⟨source, -, sourceChunkIndex, -, hchunk⟩ := h.yielded
  unfold Sdk.chunkAt at hchunk
  simp only at hchunk
  split at hchunk
  · cases hchunk
  · rename_i item hitem
    obtain rfl := Except.ok.inj hchunk
    obtain ⟨hsource, hindex⟩ := materializePlanChunk_source hitem
    rw [hsource, hindex]
    exact hitem

theorem plannedTarget_fields {generation : String} {chunk : ChunkSigningPlanItem}
    {target : ChunkDestinationSigningTarget}
    (h : Implementation.python.plannedTarget session generation requested = .ok (chunk, target)) :
    Plan.python.materializePlanChunk session.descriptor requested.sourceID requested.chunkIndex =
      .ok chunk
      ∧ multipartPartNumber chunk.sourceChunkIndex 0 = .ok requested.partNumber
      ∧ target.destinationID = requested.destinationID := by
  unfold Implementation.plannedTarget at h
  obtain ⟨-, h⟩ := guard_eq_ok.mp h
  obtain ⟨_, -, h⟩ := bind_eq_ok.mp h
  obtain ⟨hslot, h⟩ := guard_eq_ok.mp h
  obtain ⟨planned, hplanned, h⟩ := bind_eq_ok.mp h
  obtain ⟨partNumber, hpart, h⟩ := bind_eq_ok.mp h
  obtain ⟨hsame, h⟩ := guard_eq_ok.mp h
  obtain ⟨-, h⟩ := guard_eq_ok.mp h
  obtain ⟨_, -, h⟩ := bind_eq_ok.mp h
  obtain ⟨-, h⟩ := guard_eq_ok.mp h
  have hslot : requested.attemptSlot = 0 := by simpa using hslot
  rw [hslot, ← not_not.mp hsame] at hpart
  split at h
  · rename_i found hfind
    obtain ⟨rfl, rfl⟩ := Prod.mk.inj (Except.ok.inj h)
    have hdestination := List.find?_some hfind
    rw [Bool.and_eq_true] at hdestination
    refine ⟨?_, ?_, of_decide_eq_true hdestination.1⟩
    · cases hmaterialized : Plan.python.materializePlanChunk session.descriptor requested.sourceID
          requested.chunkIndex with
      | error failure =>
        change (Except.mapError _ (Plan.python.materializePlanChunk _ _ _)) = _ at hplanned
        rw [hmaterialized] at hplanned
        cases hplanned
      | ok item =>
        change (Except.mapError _ (Plan.python.materializePlanChunk _ _ _)) = _ at hplanned
        rw [hmaterialized] at hplanned
        rw [Except.ok.inj hplanned]
    · cases hnumber : multipartPartNumber planned.sourceChunkIndex 0 with
      | error text =>
        rw [hnumber] at hpart
        cases hpart
      | ok number =>
        rw [hnumber] at hpart
        rw [Except.ok.inj hpart]
  · cases h

theorem plannedPartNumber_eq {descriptor : CompactTransferPlanDescriptor} {sourceID : String}
    {chunkIndex : ℤ}
    {chunk : ChunkSigningPlanItem} {target : ChunkDestinationSigningTarget}
    (h : Plan.python.materializePlanChunk descriptor sourceID chunkIndex = .ok chunk)
    (htarget : target ∈ chunk.destinations) :
    Python.plannedPartNumber chunk target = multipartPartNumber chunk.sourceChunkIndex 0 := by
  obtain ⟨destination, -, hplanned⟩ := (mapM_eq_ok (materialize_destinations h)).2 _ htarget
  unfold Sdk.target at hplanned
  cases hkey : destination.finalObjectKeys.get sourceID with
  | none =>
    simp only [hkey] at hplanned
    cases hplanned
  | some finalObjectKey =>
    simp only [hkey] at hplanned
    obtain ⟨-, hplanned⟩ := guard_eq_ok.mp hplanned
    obtain ⟨partNumber, hpart, hplanned⟩ := bind_eq_ok.mp hplanned
    obtain rfl := Except.ok.inj hplanned
    have hget :
        (chunkTarget Plan.python.isHippius descriptor.planNonce chunkIndex chunk.sourceChunkIndex
        (Plan.python.number (Plan.python.number (chunkIndex * descriptor.destinations.length)
          + destination.destinationIndex))
            partNumber finalObjectKey destination).metadata.get "part_number"
        = some (.number partNumber) := by
      simp only [chunkTarget]
      rw [OrderedMap.get_set_of_ne _ (by decide), OrderedMap.get_set_of_ne _ (by decide),
        OrderedMap.get_set_of_ne _ (by decide), OrderedMap.get_set_of_ne _ (by decide),
          OrderedMap.get_set_self]
    rw [Python.plannedPartNumber, hget]
    unfold Sdk.partNumber at hpart
    cases hnumber : multipartPartNumber chunk.sourceChunkIndex 0 with
    | error text =>
      simp only [hnumber] at hpart
      cases hpart
    | ok number =>
      simp only [hnumber] at hpart
      obtain rfl := Except.ok.inj hpart
      simp [pure, Except.pure]

theorem signProviderRoute_source {chunk : ChunkSigningPlanItem}
    {target : ChunkDestinationSigningTarget}
    {destination : ProviderDestinationConfig} {upload : Option MultipartUploadState}
    {finalObjectKey : String}
    {partNumber : ℤ} {grant : SourceGrant} {route : SignedChunkRoute}
    (h : Implementation.python.signProviderRoute session chunk target destination upload
      finalObjectKey partNumber grant
      = .ok route) :
    route.source = grant ∧ route.sourceOffset = chunk.sourceOffset ∧
      route.chunkSize = chunk.chunkSize := by
  unfold Implementation.signProviderRoute at h
  cases destination with
  | huggingFace =>
    simp only at h
    split at h
    · obtain ⟨-, h⟩ := guard_eq_ok.mp h
      obtain ⟨-, h⟩ := guard_eq_ok.mp h
      obtain rfl := Except.ok.inj h
      exact ⟨rfl, rfl, rfl⟩
    · cases h
  | hippius bucket =>
    simp only at h
    obtain ⟨-, h⟩ := guard_eq_ok.mp h
    obtain rfl := Except.ok.inj h
    exact ⟨rfl, rfl, rfl⟩
  | s3Compatible settings =>
    simp only at h
    split at h
    · simp only [ProviderDestinationConfig.s3Settings?] at h
      obtain ⟨-, h⟩ := guard_eq_ok.mp h
      obtain ⟨-, h⟩ := guard_eq_ok.mp h
      obtain ⟨-, h⟩ := guard_eq_ok.mp h
      obtain ⟨-, h⟩ := guard_eq_ok.mp h
      obtain ⟨-, h⟩ := guard_eq_ok.mp h
      obtain rfl := Except.ok.inj h
      exact ⟨rfl, rfl, rfl⟩
    · cases h
  | gcs | azure =>
    simp only at h
    split at h
    · simp only [ProviderDestinationConfig.s3Settings?] at h
      obtain ⟨-, h⟩ := guard_eq_ok.mp h
      obtain ⟨-, h⟩ := guard_eq_ok.mp h
      obtain ⟨-, h⟩ := guard_eq_ok.mp h
      obtain ⟨-, h⟩ := guard_eq_ok.mp h
      obtain ⟨-, h⟩ := guard_eq_ok.mp h
      cases h
    · cases h

theorem signProviderRoute_hub {chunk : ChunkSigningPlanItem}
    {target : ChunkDestinationSigningTarget}
    {upload : Option MultipartUploadState} {finalObjectKey : String} {partNumber : ℤ}
    {grant : SourceGrant}
    {route : SignedChunkRoute}
    (h : Implementation.python.signProviderRoute session chunk target .huggingFace upload
      finalObjectKey partNumber grant
      = .ok route) :
    ∃ state, session.huggingFace target.destinationID = some state
      ∧ route.destURL = .hub ((Implementation.hubURL state chunk.sourceChunkIndex).getD "") := by
  unfold Implementation.signProviderRoute at h
  simp only at h
  split at h
  · rename_i state hstate
    obtain ⟨-, h⟩ := guard_eq_ok.mp h
    obtain ⟨-, h⟩ := guard_eq_ok.mp h
    obtain rfl := Except.ok.inj h
    exact ⟨state, hstate, rfl⟩
  · cases h

theorem signProviderRoute_hippius {chunk : ChunkSigningPlanItem}
    {target : ChunkDestinationSigningTarget} {bucket : String}
    {upload : Option MultipartUploadState} {finalObjectKey : String} {partNumber : ℤ}
    {grant : SourceGrant}
    {route : SignedChunkRoute}
    (h : Implementation.python.signProviderRoute session chunk target
      (.hippius bucket) upload finalObjectKey partNumber
      grant = .ok route) : route.destURL = .hippius bucket target.objectKey := by
  unfold Implementation.signProviderRoute at h
  simp only at h
  obtain ⟨-, h⟩ := guard_eq_ok.mp h
  obtain rfl := Except.ok.inj h
  rfl

theorem signProviderRoute_unsupported {chunk : ChunkSigningPlanItem}
    {target : ChunkDestinationSigningTarget}
    {destination : ProviderDestinationConfig} {upload : Option MultipartUploadState}
    {finalObjectKey : String}
    {partNumber : ℤ} {grant : SourceGrant} {route : SignedChunkRoute}
    (h : Implementation.python.signProviderRoute session chunk target destination upload
      finalObjectKey partNumber grant
      = .ok route) : destination ≠ .gcs ∧ destination ≠ .azure := by
  refine ⟨?_, ?_⟩
  all_goals
    rintro rfl
    unfold Implementation.signProviderRoute at h
    simp only at h
    split at h
    · simp only [ProviderDestinationConfig.s3Settings?] at h
      obtain ⟨-, h⟩ := guard_eq_ok.mp h
      obtain ⟨-, h⟩ := guard_eq_ok.mp h
      obtain ⟨-, h⟩ := guard_eq_ok.mp h
      obtain ⟨-, h⟩ := guard_eq_ok.mp h
      obtain ⟨-, h⟩ := guard_eq_ok.mp h
      cases h
    · cases h

def partURL (settings : S3Settings) (uploadID finalObjectKey : String) (partNumber : ℤ) :
    UploadURL :=
  .s3 (settings.sign finalObjectKey (if uploadID ≠ "" then .uploadPart uploadID partNumber
    else .putObject))

theorem signProviderRoute_part {chunk : ChunkSigningPlanItem}
    {target : ChunkDestinationSigningTarget}
    {settings : S3Settings} {upload : Option MultipartUploadState} {finalObjectKey : String}
    {partNumber : ℤ}
    {grant : SourceGrant} {route : SignedChunkRoute}
    (h : Implementation.python.signProviderRoute session chunk target
      (.s3Compatible settings) upload finalObjectKey
      partNumber grant = .ok route) :
    ∃ state, upload = some state ∧
      route.destURL = partURL settings state.uploadID finalObjectKey partNumber := by
  unfold Implementation.signProviderRoute at h
  simp only at h
  split at h
  · rename_i state
    simp only [ProviderDestinationConfig.s3Settings?] at h
    obtain ⟨-, h⟩ := guard_eq_ok.mp h
    obtain ⟨-, h⟩ := guard_eq_ok.mp h
    obtain ⟨-, h⟩ := guard_eq_ok.mp h
    obtain ⟨-, h⟩ := guard_eq_ok.mp h
    obtain ⟨-, h⟩ := guard_eq_ok.mp h
    obtain rfl := Except.ok.inj h
    exact ⟨state, rfl, rfl⟩
  · cases h

theorem signPlannedRoute_parts {group : String → Option MultipartUploadState}
    {chunk : ChunkSigningPlanItem}
    {target : ChunkDestinationSigningTarget} {route : SignedChunkRoute}
    (h : Python.signPlannedRoute session group chunk target = .ok route) :
    ∃ destination source partNumber grant, session.destinations target.destinationID =
      some destination
      ∧ session.sources chunk.sourceID = some source ∧
        Python.plannedPartNumber chunk target = .ok partNumber
      ∧ session.signSourceChunk source chunk = .ok grant
      ∧ Implementation.python.signProviderRoute session chunk target destination
        (if destination.isDirectPutDestination then none
          else group (multipartGroupStateKey session.transferID target.destinationID chunk.sourceID
            (Python.plannedObjectKey target)))
        (Python.plannedObjectKey target) partNumber grant = .ok route := by
  unfold Python.signPlannedRoute at h
  cases hdestination : session.destinations target.destinationID with
  | none =>
    simp only [hdestination] at h
    cases h
  | some destination =>
    simp only [hdestination] at h
    cases hsource : session.sources chunk.sourceID with
    | none =>
      simp only [hsource] at h
      cases h
    | some source =>
      simp only [hsource] at h
      obtain ⟨-, h⟩ := guard_eq_ok.mp h
      obtain ⟨-, h⟩ := guard_eq_ok.mp h
      obtain ⟨partNumber, hpart, h⟩ := bind_eq_ok.mp h
      obtain ⟨grant, hgrant, h⟩ := bind_eq_ok.mp h
      exact ⟨destination, source, partNumber, grant, rfl, rfl, hpart, hgrant, h⟩

theorem python_recovered_part {settings : S3Settings} {transferID : String}
    {r : MultipartCoordinates}
    {expectedPartCount : Option ℤ} {recovered : Recovered}
    (h : Python.signMultipartRecovery unicode (.s3Compatible settings)
      transferID r expectedPartCount = .ok recovered)
    (route : SignedChunkRoute) (upload : Option MultipartUploadState) :
    RecoveryRoute.destURL ⟨route, upload, recovered⟩ = match Python.stagedUpload r with
      | none => route.destURL
      | some attemptID =>
          .s3 (settings.sign (Python.stagingKey transferID r attemptID) .putObject) := by
  unfold Python.signMultipartRecovery at h
  cases hrecovery : r.recovery with
  | none =>
    simp only [hrecovery] at h
    obtain rfl := Except.ok.inj h
    simp only [Python.stagedUpload, hrecovery, Option.bind_none, RecoveryRoute.destURL]
  | some request =>
    simp only [hrecovery] at h
    simp only [Python.stagedUpload, hrecovery, Option.bind_some]
    split at h
    · rename_i hrenew
      simp only [hrenew]
      unfold Python.renewal at h
      split at h
      · obtain ⟨-, h⟩ := guard_eq_ok.mp h
        simp only [ProviderDestinationConfig.s3Settings?] at h
        split at h
        · obtain rfl := Except.ok.inj h
          rfl
        · cases h
      · cases h
    · split at h
      · rename_i hmode
        obtain rfl := Except.ok.inj h
        simp only [hmode, ne_eq, not_true_eq_false, and_false, if_false, RecoveryRoute.destURL]
      · rename_i hmode
        unfold Python.staged at h
        simp only [ProviderDestinationConfig.s3Settings?] at h
        obtain ⟨-, h⟩ := guard_eq_ok.mp h
        obtain ⟨-, h⟩ := guard_eq_ok.mp h
        obtain ⟨-, h⟩ := guard_eq_ok.mp h
        split at h
        · rename_i hlist
          obtain rfl := Except.ok.inj h
          simp [hlist, RecoveryRoute.destURL]
        · split at h
          · rename_i hdelete
            obtain rfl := Except.ok.inj h
            simp [hdelete, RecoveryRoute.destURL]
          · obtain rfl := Except.ok.inj h
            by_cases hupload : request.operation = "upload" <;>
              simp [hupload, hmode, RecoveryRoute.destURL]

theorem python_recovered_direct {destination : ProviderDestinationConfig}
    (hdirect : destination.s3Settings? = none)
    {transferID : String} {r : MultipartCoordinates} {expectedPartCount : Option ℤ}
    {recovered : Recovered}
    (h : Python.signMultipartRecovery unicode destination transferID r expectedPartCount =
      .ok recovered)
    (route : SignedChunkRoute) (upload : Option MultipartUploadState) :
    RecoveryRoute.destURL ⟨route, upload, recovered⟩ = route.destURL := by
  unfold Python.signMultipartRecovery at h
  split at h
  · obtain rfl := Except.ok.inj h
    rfl
  · split at h
    · unfold Python.renewal at h
      rw [hdirect] at h
      split at h
      · obtain ⟨-, h⟩ := guard_eq_ok.mp h
        cases h
      · cases h
    · split at h
      · obtain rfl := Except.ok.inj h
        rfl
      · unfold Python.staged at h
        rw [hdirect] at h
        cases h

theorem signMultipartGroupState_uploadID {transferID multipartGroupID destinationID finalObjectKey
    uploadID : String}
    {source : CompactTransferPlanSource} {destination : ProviderDestinationConfig}
    {state : MultipartUploadState}
    (h : Implementation.python.signMultipartGroupState transferID multipartGroupID source
      destinationID destination
      finalObjectKey uploadID = .ok state) : state.uploadID = uploadID := by
  unfold Implementation.signMultipartGroupState at h
  obtain ⟨-, h⟩ := guard_eq_ok.mp h
  obtain ⟨_, -, h⟩ := bind_eq_ok.mp h
  split at h
  · obtain rfl := Except.ok.inj h
    rfl
  · cases h

theorem recoveryMultipartUploadState_uploadID {uploads : Uploads}
    {destination : ProviderDestinationConfig}
    {upload : MultipartUploadState} {built : Option (String × MultipartUploadState)}
    (h : Implementation.python.recoveryMultipartUploadState session uploads destination requested =
      .ok (upload, built)) :
    upload.uploadID = requested.uploadID := by
  unfold Implementation.recoveryMultipartUploadState at h
  cases hget : uploads.get requested.multipartGroupID with
  | some existing =>
    simp only [hget] at h
    obtain ⟨hidentity, h⟩ := guard_eq_ok.mp h
    obtain ⟨rfl, rfl⟩ := Prod.mk.inj (Except.ok.inj h)
    simp only [not_or, ne_eq, not_not] at hidentity
    exact hidentity.1
  | none =>
    simp only [hget] at h
    obtain ⟨-, h⟩ := guard_eq_ok.mp h
    split at h
    · obtain ⟨-, h⟩ := guard_eq_ok.mp h
      obtain ⟨state, hstate, h⟩ := bind_eq_ok.mp h
      obtain ⟨_, -, h⟩ := bind_eq_ok.mp h
      obtain ⟨rfl, rfl⟩ := Prod.mk.inj (Except.ok.inj h)
      exact signMultipartGroupState_uploadID hstate
    · cases h

theorem signRequested_parts {chunk : ChunkSigningPlanItem} {target : ChunkDestinationSigningTarget}
    {source : ProviderSourceConfig} {destination : ProviderDestinationConfig}
    {upload : Option MultipartUploadState}
    {recovery : RecoveryRoute}
    (h : Implementation.python.signRequested unicode session chunk target source destination
      requested upload
      = .ok recovery) :
    ∃ grant route recovered, session.signSourceChunk source chunk = .ok grant
      ∧ Implementation.python.signProviderRoute session chunk
        (Implementation.python.recoveryTarget session target destination requested)
          destination upload
        requested.finalObjectKey requested.partNumber grant = .ok route
      ∧ Python.signMultipartRecovery unicode destination session.transferID
        requested.toMultipartCoordinates
        (upload.map fun upload => upload.manifest.expectedPartCount) = .ok recovered
      ∧ recovery = ⟨route, upload, recovered⟩ := by
  unfold Implementation.signRequested at h
  obtain ⟨grant, hgrant, h⟩ := bind_eq_ok.mp h
  obtain ⟨route, hroute, h⟩ := bind_eq_ok.mp h
  obtain ⟨recovered, hrecovered, h⟩ := bind_eq_ok.mp h
  exact ⟨grant, route, recovered, hgrant, hroute, hrecovered, (Except.ok.inj h).symm⟩

/-- Both routes are signed for the same part of the same source, with the same configurations: the
foreground's for what the stream planned, the other for what the request names. -/
theorem signRecoveryRoute_parts {pin : String → Python.SourcePin} {uploads : Uploads}
    {generation : String}
    {recovery : RecoveryRoute}
    (haccepted : (Implementation.python.signRecoveryRoute unicode
      (Python.session pin session) uploads generation
      requested).1 = .ok recovery)
    {group : String → Option MultipartUploadState} {chunk : ChunkSigningPlanItem}
    {target : ChunkDestinationSigningTarget} {route : SignedChunkRoute}
    (hstreams : Python.Streams (Python.session pin session) group chunk target route)
    (hsource : requested.sourceID = chunk.sourceID)
    (hchunk : requested.chunkIndex = chunk.chunkIndex)
    (hdestination : requested.destinationID = target.destinationID) :
    ∃ destination grant found upload again recovered,
      session.destinations requested.destinationID = some destination
      ∧ found.destinationID = requested.destinationID
      ∧ Implementation.python.signProviderRoute (Python.session pin session)
        chunk target destination
        (if destination.isDirectPutDestination then none
          else group
            (multipartGroupStateKey session.transferID requested.destinationID requested.sourceID
            (Python.plannedObjectKey target)))
              (Python.plannedObjectKey target) requested.partNumber grant = .ok route
      ∧ Implementation.python.signProviderRoute (Python.session pin session) chunk
        (Implementation.python.recoveryTarget (Python.session pin session)
          found destination requested) destination upload
        requested.finalObjectKey requested.partNumber grant = .ok again
      ∧ Python.signMultipartRecovery unicode destination session.transferID
        requested.toMultipartCoordinates
        (upload.map fun upload => upload.manifest.expectedPartCount) = .ok recovered
      ∧ (∀ state, upload = some state → state.uploadID = requested.uploadID) ∧
        recovery = ⟨again, upload, recovered⟩ := by
  have hanswer : ∃ planned found source destination upload,
      Implementation.python.plannedTarget (Python.session pin session) generation requested =
        .ok (planned, found)
      ∧ session.sources requested.sourceID = some source ∧
        session.destinations requested.destinationID = some destination
      ∧ Implementation.python.signRequested unicode
        (Python.session pin session) planned found source destination requested
        upload = .ok recovery
      ∧ ∀ state, upload = some state → state.uploadID = requested.uploadID := by
    rcases signRecoveryRoute_cases unicode .python
      (Python.session pin session) uploads generation requested with
      ⟨text, hresult⟩ | ⟨planned, found, source, destination, hplanned, hsources, hconfig,
        ⟨-, hresult⟩ | ⟨-, state, built, hstate, hresult⟩⟩
    · rw [hresult] at haccepted
      cases haccepted
    · rw [hresult] at haccepted
      refine ⟨planned, found, source, destination, none, hplanned, hsources, hconfig, haccepted, ?_⟩
      rintro _ ⟨⟩
    · rw [hresult] at haccepted
      refine ⟨planned, found, source, destination, some state, hplanned, hsources, hconfig,
        haccepted, ?_⟩
      rintro _ ⟨⟩
      exact recoveryMultipartUploadState_uploadID hstate
  obtain ⟨planned, found, source, destination, upload, hplanned, hsources, hconfig, hsigned,
    hupload⟩ := hanswer
  obtain ⟨hmaterialized, hnumber, hfound⟩ := plannedTarget_fields hplanned
  obtain rfl : planned = chunk := by
    have hforeground := hstreams.materialized
    rw [← hsource, ← hchunk] at hforeground
    exact Except.ok.inj (hmaterialized.symm.trans hforeground)
  obtain ⟨grant, again, recovered, hgrant, hagain, hrecovered, hrecovery⟩ :=
    signRequested_parts hsigned
  obtain ⟨destination', source', partNumber, grant', hconfig', hsources', hpart, hgrant', hroute⟩ :=
    signPlannedRoute_parts hstreams.signed
  -- both find the same configurations, the same part number and the same source URL
  obtain rfl : destination = destination' := by
    rw [hdestination] at hconfig
    exact Option.some.inj (hconfig.symm.trans hconfig')
  obtain rfl : source = source' := by
    rw [hsource] at hsources
    exact Option.some.inj (hsources.symm.trans hsources')
  obtain rfl : grant = grant' := Except.ok.inj (hgrant.symm.trans hgrant')
  obtain rfl : partNumber = requested.partNumber := by
    rw [plannedPartNumber_eq hmaterialized hstreams.planned, hnumber] at hpart
    exact (Except.ok.inj hpart).symm
  rw [← hdestination, ← hsource] at hroute
  exact ⟨destination, grant, found, upload, again, recovered, hconfig, hfound, hroute, hagain,
    hrecovered, hupload,
    hrecovery⟩

theorem partURL_inj {settings : S3Settings}
    {uploadID uploadID' finalObjectKey finalObjectKey' : String} {partNumber : ℤ}
    (hcreated : uploadID' ≠ "") : partURL settings uploadID finalObjectKey partNumber =
      partURL settings uploadID' finalObjectKey' partNumber ↔
        finalObjectKey = finalObjectKey' ∧ uploadID = uploadID' := by
  unfold partURL S3Settings.sign
  rw [if_pos hcreated]
  constructor
  · intro h
    obtain ⟨-, hkey, hoperation⟩ := Grant.mk.inj (UploadURL.s3.inj h)
    refine ⟨hkey, ?_⟩
    split_ifs at hoperation
    exact (S3Operation.uploadPart.inj hoperation).1
  · rintro ⟨rfl, rfl⟩
    rw [if_pos hcreated]

/-- A route that is signed again reads the same bytes of the same source, and it writes where the
foreground's does exactly where the request names that: of an upload in parts its key and its id,
and at Hippius the key planned for the chunk. -/
theorem signRecoveryRoute_repeats_iff {pin : String → Python.SourcePin} {uploads : Uploads}
    {generation : String}
    {recovery : RecoveryRoute}
    (haccepted : (Implementation.python.signRecoveryRoute unicode
      (Python.session pin session) uploads generation
      requested).1 = .ok recovery)
    {group : String → Option MultipartUploadState} {chunk : ChunkSigningPlanItem}
    {target : ChunkDestinationSigningTarget} {route : SignedChunkRoute}
    (hstreams : Python.Streams (Python.session pin session) group chunk target route)
    (hsource : requested.sourceID = chunk.sourceID)
    (hchunk : requested.chunkIndex = chunk.chunkIndex)
    (hdestination : requested.destinationID = target.destinationID) :
    Python.Repeats recovery route ↔ Python.NamesDestination session group requested target := by
  obtain ⟨destination, grant, found, upload, again, recovered, hconfig, hfound, hroute, hagain,
    hrecovered, hupload, rfl⟩ :=
    signRecoveryRoute_parts haccepted hstreams hsource hchunk hdestination
  obtain ⟨hread, hoffset, hsize⟩ := signProviderRoute_source hagain
  obtain ⟨hread', hoffset', hsize'⟩ := signProviderRoute_source hroute
  have hrepeats : Python.Repeats ⟨again, upload, recovered⟩ route ↔
      RecoveryRoute.destURL ⟨again, upload, recovered⟩ = route.destURL :=
    ⟨Python.Repeats.destURL, fun hurl =>
      ⟨hread.trans hread'.symm, hoffset.trans hoffset'.symm, hsize.trans hsize'.symm, hurl⟩⟩
  rw [hrepeats]
  unfold Python.NamesDestination
  rw [hconfig]
  cases destination with
  | huggingFace =>
    refine iff_of_true ?_ trivial
    obtain ⟨state, hstate, hurl⟩ := signProviderRoute_hub hagain
    obtain ⟨state', hstate', hurl'⟩ := signProviderRoute_hub hroute
    obtain rfl : state = state' := by
      change session.huggingFace found.destinationID = some state at hstate
      rw [hfound, hdestination] at hstate
      exact Option.some.inj (hstate.symm.trans hstate')
    rw [python_recovered_direct rfl hrecovered]
    exact hurl.trans hurl'.symm
  | hippius bucket =>
    rw [python_recovered_direct rfl hrecovered, signProviderRoute_hippius hagain,
      signProviderRoute_hippius hroute,
      UploadURL.hippius.injEq]
    exact and_iff_right rfl
  | s3Compatible settings =>
    obtain ⟨part, rfl, hurl⟩ := signProviderRoute_part hagain
    obtain ⟨planned, hplanned, hurl'⟩ := signProviderRoute_part hroute
    have hcreated : planned.uploadID ≠ "" := hstreams.created _ _ hplanned
    rw [python_recovered_part hrecovered, hurl, hurl', hupload part rfl]
    cases hstaged : Python.stagedUpload requested.toMultipartCoordinates with
    | some attemptID =>
      -- what is staged is put whole, and the foreground's upload has an id
      refine iff_of_false (fun h => ?_) nofun
      obtain ⟨-, -, hoperation⟩ := Grant.mk.inj (UploadURL.s3.inj h)
      rw [if_pos hcreated] at hoperation
      cases hoperation
    | none =>
      rw [partURL_inj hcreated]
      simp only [true_and]
      refine and_congr_right fun _ => ⟨fun hid => ⟨planned, hplanned, hid⟩, ?_⟩
      rintro ⟨upload, hgroup, hid⟩
      rw [Option.some.inj (hplanned.symm.trans hgroup)]
      exact hid
  | gcs => exact absurd rfl (signProviderRoute_unsupported hroute).1
  | azure => exact absurd rfl (signProviderRoute_unsupported hroute).2

end

section Samples

def samplePin : String → Python.SourcePin := fun _ => ⟨none, none⟩

def sampleForeground (session : ProviderSession) (group : String → Option MultipartUploadState)
    (source : CompactTransferPlanSource) :
    Except String (ChunkSigningPlanItem × ChunkDestinationSigningTarget × SignedChunkRoute) := do
  let chunk ← Plan.python.chunkAt session.descriptor source (0 : ℕ)
  match chunk.destinations with
  | [] => throw "no target"
  | target :: _ =>
    let route ← Python.signPlannedRoute session group chunk target
    pure (chunk, target, route)

theorem sampleForeground_streams {session : ProviderSession}
    {group : String → Option MultipartUploadState}
    {source : CompactTransferPlanSource} {chunk : ChunkSigningPlanItem}
    {target : ChunkDestinationSigningTarget}
    {route : SignedChunkRoute} (hsource : source ∈ session.descriptor.sources)
    (hcount : 0 < source.chunkCount)
    (hcreated : ∀ name upload, group name = some upload → upload.uploadID ≠ "")
    (h : sampleForeground session group source = .ok (chunk, target, route)) :
    Python.Streams session group chunk target route := by
  unfold sampleForeground at h
  obtain ⟨chunk, hchunk, h⟩ := bind_eq_ok.mp h
  split at h
  · cases h
  · rename_i target targets htargets
    obtain ⟨route, hroute, h⟩ := bind_eq_ok.mp h
    cases h
    refine ⟨⟨source, hsource, 0, hcount, hchunk⟩, ?_, hcreated, hroute⟩
    rw [htargets]
    exact List.mem_cons_self

def hippiusSession : ProviderSession :=
  { sampleSession with
    descriptor := {
      planNonce := "n1"
      chunkSize := 10
      sources := [⟨"s1", "https://source", 20, 0, 2⟩]
      destinations := [⟨"d1", "hippius", [], 0, [("s1", "key")]⟩] }
    destinations := fun _ => some (.hippius "bucket") }

def hippiusRequested (chunkIndex : ℕ) : RouteRecoverySignChunk :=
  { sampleRequested "key" with
    partNumber := chunkIndex + 1
    multipartGroupID := ""
    uploadID := ""
    chunkIndex := chunkIndex
    deliveryIndex := chunkIndex
    sourceOffset := 10 * chunkIndex }

def hippiusAgain (chunkIndex : ℕ) : Except String RecoveryRoute :=
  (Implementation.python.signRecoveryRoute id (Python.session samplePin hippiusSession) [] "g1"
    (hippiusRequested chunkIndex)).1

/-- Each of the two chunks is written over the whole object. -/
theorem hippius_overwritten : ∃ recovery recovery' chunk target route,
    hippiusAgain 0 = .ok recovery ∧ hippiusAgain 1 = .ok recovery'
      ∧ Python.Streams (Python.session samplePin hippiusSession) (fun _ => none) chunk target route
      ∧ (chunk.sourceID = "s1" ∧ chunk.chunkIndex = 0 ∧ target.destinationID = "d1")
      ∧ route.destURL = .hippius "bucket" "key/n1/chunk-000000"
      ∧ recovery.destURL = .hippius "bucket" "key" ∧ recovery'.destURL = .hippius "bucket" "key"
      ∧ ¬ Python.Repeats recovery route := by
  have hforeground : ((sampleForeground (Python.session samplePin hippiusSession) (fun _ => none)
      ⟨"s1", "https://source", 20, 0, 2⟩).toOption.any fun signed =>
        decide ((signed.1.sourceID = "s1" ∧ signed.1.chunkIndex = 0 ∧
          signed.2.1.destinationID = "d1")
          ∧ signed.2.2.destURL = .hippius "bucket" "key/n1/chunk-000000")) = true := by
    decide +kernel
  have hagain : ∀ chunkIndex ∈ [0, 1], ((hippiusAgain chunkIndex).toOption.any fun recovery =>
      decide (recovery.destURL = .hippius "bucket" "key")) = true := by
    decide +kernel
  obtain ⟨⟨chunk, target, route⟩, hstreams, hroute⟩ := (Option.any_eq_true _ _).mp hforeground
  obtain ⟨recovery, hrecovery, hurl⟩ := (Option.any_eq_true _ _).mp (hagain 0 (by decide))
  obtain ⟨recovery', hrecovery', hurl'⟩ := (Option.any_eq_true _ _).mp (hagain 1 (by decide))
  rw [decide_eq_true_eq] at hroute hurl hurl'
  have hsource : ⟨"s1", "https://source", 20, 0, 2⟩ ∈
      (Python.session samplePin hippiusSession).descriptor.sources :=
    List.mem_singleton_self _
  refine ⟨recovery, recovery', chunk, target, route, ok_of_toOption hrecovery,
    ok_of_toOption hrecovery',
    sampleForeground_streams hsource (by decide) (by rintro _ _ ⟨⟩) (ok_of_toOption hstreams),
      hroute.1, hroute.2, hurl, hurl',
    fun hrepeats => ?_⟩
  have hsame := hrepeats.destURL
  rw [hurl, hroute.2] at hsame
  exact absurd hsame (by decide)

def sampleGroup (name : String) : Option MultipartUploadState :=
  if name = multipartGroupStateKey "t1" "d1" "s1" "key" then
    (Implementation.python.signMultipartGroupState "t1" name ⟨"s1", "https://source", 10, 0, 1⟩ "d1"
      (.s3Compatible ⟨"s3", "bucket"⟩) "key" "u1").toOption
  else none

theorem sampleGroup_uploadID {name : String} {upload : MultipartUploadState}
    (h : sampleGroup name = some upload) :
    upload.uploadID = "u1" := by
  unfold sampleGroup at h
  split_ifs at h
  exact signMultipartGroupState_uploadID (ok_of_toOption h)

def sampleAgain : Except String RecoveryRoute :=
  (Implementation.python.signRecoveryRoute id (Python.session samplePin sampleSession)
    [] "g1" (sampleRequested "key")).1

theorem sample_foreground_repeats : ∃ recovery chunk target route, sampleAgain = .ok recovery
    ∧ Python.Streams (Python.session samplePin sampleSession) sampleGroup chunk target route
    ∧ Python.Repeats recovery route := by
  have hforeground : ((sampleForeground (Python.session samplePin sampleSession) sampleGroup
      ⟨"s1", "https://source", 10, 0, 1⟩).toOption.any fun signed =>
        decide ((signed.1.sourceID = "s1" ∧ signed.1.chunkIndex = 0 ∧
          signed.2.1.destinationID = "d1")
          ∧ Python.plannedObjectKey signed.2.1 = "key")) = true := by
    decide +kernel
  have hagain : (sampleAgain.toOption.any fun _ => true) = true := by decide +kernel
  have hgroup : ((sampleGroup (multipartGroupStateKey "t1" "d1" "s1" "key")).any fun _ =>
      true) = true := by
    decide +kernel
  obtain ⟨⟨chunk, target, route⟩, hstreams, hplanned⟩ := (Option.any_eq_true _ _).mp hforeground
  obtain ⟨recovery, hrecovery, -⟩ := (Option.any_eq_true _ _).mp hagain
  obtain ⟨upload, hupload, -⟩ := (Option.any_eq_true _ _).mp hgroup
  rw [decide_eq_true_eq] at hplanned
  obtain ⟨⟨hsource, hchunk, hdestination⟩, hkey⟩ := hplanned
  have hsources : ⟨"s1", "https://source", 10, 0, 1⟩ ∈
      (Python.session samplePin sampleSession).descriptor.sources :=
    List.mem_singleton_self _
  have hforegroundStreams :
      Python.Streams (Python.session samplePin sampleSession) sampleGroup chunk target route := by
    refine sampleForeground_streams hsources (by decide) (fun name upload h => ?_)
      (ok_of_toOption hstreams)
    rw [sampleGroup_uploadID h]
    decide
  refine ⟨recovery, chunk, target, route, ok_of_toOption hrecovery, hforegroundStreams, ?_⟩
  refine (signRecoveryRoute_repeats_iff (ok_of_toOption hrecovery)
    hforegroundStreams hsource.symm hchunk.symm
    hdestination.symm).mpr ⟨rfl, hkey.symm, upload, ?_, (sampleGroup_uploadID hupload).symm⟩
  rw [hkey]
  exact hupload

end Samples
end Beam.Signing
