import Mathlib.Algebra.GroupWithZero.Nat
import Mathlib.Data.List.SplitLengths
import BeamSdk.Library.Json
import BeamSdk.Library.Run

/-! The sender of the Go client's route stream: it buffers routes and flushes them to a background
goroutine, which sends them in batches, one request after another. -/

namespace Beam.Go

structure SignedChunkRoute where
  sourceID : String
  destinationID : String
  chunkIndex : ℤ
  deliveryIndex : Option ℤ
  sourceURL : String
  destURL : String
  sourceOffset : ℤ
  chunkSize : ℤ
  expiresAt : String
  headers : Option (OrderedMap String String)
  destHeaders : OrderedMap String String
  metadata : OrderedMap String Json
  -- the metadata whose numbers are of the type `uint` or `uint64`
  unsigned : List String

/-- A whole number that `int` holds. An unsigned one past its range wraps there and back, so that
it compares equal. -/
def exactIntegerValue (unsigned : Bool) : Option Json → Option ℤ
  | some (.number value) =>
    if value.den = 1 ∧ -2 ^ 63 ≤ value.num ∧ value.num < 2 ^ 63 then some value.num
    else if unsigned ∧ value.den = 1 ∧ 2 ^ 63 ≤ value.num ∧
      value.num < 2 ^ 64 then some (value.num - 2 ^ 64)
    else none
  | _ => none

def stringValue : Option Json → String
  | some (.string value) => value
  | _ => ""

def signedRouteDeliveryIndex (route : SignedChunkRoute) : Option ℤ :=
  (exactIntegerValue (route.unsigned.contains "delivery_index")
    (OrderedMap.get route.metadata "delivery_index")).or
    route.deliveryIndex

def routeKeyForSignedRoute (route : SignedChunkRoute) : String :=
  s!"{route.sourceID}:{route.destinationID}:{route.chunkIndex}"

structure RouteKeysChecksum where
  bytes : BitVec 256
  count : ℕ
  deriving DecidableEq

namespace RouteKeysChecksum
variable (sha256 : String → BitVec 256)

def zero : RouteKeysChecksum := ⟨0, 0⟩

def add (c : RouteKeysChecksum) (routeKey : String) : RouteKeysChecksum :=
    ⟨c.bytes ^^^ sha256 routeKey, c.count + 1⟩

def combine (c c' : RouteKeysChecksum) : RouteKeysChecksum :=
    ⟨c.bytes ^^^ c'.bytes, c.count + c'.count⟩

def value (c : RouteKeysChecksum) : String :=
  s!"sha256-xor-v1:{c.count}:{String.ofList (Hex.digits 64 c.bytes.toNat)}"

end RouteKeysChecksum

section Checksums
variable (sha256 : String → BitVec 256)

def checksumForRoutes (routes : List SignedChunkRoute) : RouteKeysChecksum :=
  routes.foldl (fun c route => c.add sha256 (routeKeyForSignedRoute route)) .zero

def coordinateKey (route : SignedChunkRoute) : String :=
  match signedRouteDeliveryIndex route with
  | none => routeKeyForSignedRoute route ++ ":missing"
  | some deliveryIndex => s!"{routeKeyForSignedRoute route}:{deliveryIndex}"

def checksumForRouteCoordinates (routes : List SignedChunkRoute) : RouteKeysChecksum :=
  routes.foldl (fun c route => c.add sha256 (coordinateKey route)) .zero

end Checksums

structure CompactSource where
  sourceRef : ℕ
  sourceID : String
  chunkIndex : ℤ
  sourceURL : String
  sourceOffset : ℤ
  chunkSize : ℤ
  expiresAt : Option String
  headers : Option (OrderedMap String String)

structure CompactRoute where
  sourceRef : ℕ
  destinationID : String
  deliveryIndex : ℤ
  destURL : String
  expiresAt : Option String
  destHeaders : Option (OrderedMap String String)
  multipartGroupID : Option String
  metadata : Option (OrderedMap String Json)

structure SourceKey where
  sourceID : String
  chunkIndex : ℤ
  sourceURL : String
  sourceOffset : ℤ
  chunkSize : ℤ
  expiresAt : String
  headers : Option (List (String × String))
  deriving DecidableEq

def sourceKey (route : SignedChunkRoute) : SourceKey where
  sourceID := route.sourceID
  chunkIndex := route.chunkIndex
  sourceURL := route.sourceURL
  sourceOffset := route.sourceOffset
  chunkSize := route.chunkSize
  expiresAt := route.expiresAt
  headers := route.headers.map fun headers => headers.insertionSort fun a b => a.1 ≤ b.1

structure CompactBatch where
  sourceChunks : List CompactSource
  sourceRefs : OrderedMap SourceKey ℕ
  routes : List CompactRoute

def notEmpty (text : String) : Option String := if text = "" then none else some text

def notEmptyMap {ν : Type} (entries : OrderedMap String ν) : Option (OrderedMap String ν) :=
  if entries = [] then none else some entries

def routeAttemptMetadataKeys : List String :=
  ["etag_required", "part_number", "logical_attempt_index", "attempt_slot", "route_generation_id"]

def identityMetadataKeys : List String :=
  ["source_id", "destination_id", "chunk_index", "route_chunk_index", "delivery_index"]

def compactDeliveryIndex (routeIndex : ℕ) (route : SignedChunkRoute) : ℤ :=
  match route.deliveryIndex with
  | some deliveryIndex => deliveryIndex
  | none =>
    match exactIntegerValue (route.unsigned.contains "delivery_index")
      (OrderedMap.get route.metadata "delivery_index") with
    | some value => if 0 ≤ value then value else routeIndex
    | none => routeIndex

def compactMetadata (route : SignedChunkRoute) (groupID : String) : OrderedMap String Json :=
  let metadata := route.metadata.filter fun entry => entry.1 ∉ identityMetadataKeys
  if groupID ≠ "" then metadata.filter fun entry => entry.1 ∈ routeAttemptMetadataKeys else metadata

def compactRoute (sourceRef routeIndex : ℕ) (route : SignedChunkRoute) : CompactRoute :=
  let groupID := stringValue (OrderedMap.get route.metadata "multipart_group_id")
  { sourceRef
    destinationID := route.destinationID
    deliveryIndex := compactDeliveryIndex routeIndex route
    destURL := route.destURL
    expiresAt := notEmpty route.expiresAt
    destHeaders := notEmptyMap route.destHeaders
    multipartGroupID := notEmpty groupID
    metadata := notEmptyMap (compactMetadata route groupID) }

def compactSource (sourceRef : ℕ) (route : SignedChunkRoute) : CompactSource where
  sourceRef
  sourceID := route.sourceID
  chunkIndex := route.chunkIndex
  sourceURL := route.sourceURL
  sourceOffset := route.sourceOffset
  chunkSize := route.chunkSize
  expiresAt := notEmpty route.expiresAt
  headers := route.headers.bind notEmptyMap

def CompactBatch.addRoute (batch : CompactBatch) (route : SignedChunkRoute) : CompactBatch :=
  let routeIndex := batch.routes.length
  match batch.sourceRefs.get (sourceKey route) with
  | some sourceRef =>
      { batch with routes := batch.routes ++ [compactRoute sourceRef routeIndex route] }
  | none =>
    let sourceRef := batch.sourceChunks.length
    { sourceChunks := batch.sourceChunks ++ [compactSource sourceRef route]
      sourceRefs := batch.sourceRefs.set (sourceKey route) sourceRef
      routes := batch.routes ++ [compactRoute sourceRef routeIndex route] }

def compactSignedRoutes (routes : List SignedChunkRoute) : CompactBatch :=
    routes.foldl CompactBatch.addRoute ⟨[], [], []⟩

structure ScheduledChunk where
  batchIndex : ℕ
  routes : List SignedChunkRoute

def scheduledFrom (batchIndex : ℕ) (chunks : List (List SignedChunkRoute)) : List ScheduledChunk :=
  chunks.zipIdx.map fun chunk => ⟨batchIndex + chunk.2, chunk.1⟩

/-- The goroutine of a flush; `done` is what its channel holds. -/
inductive Sending
  | loop (scheduled : List ScheduledChunk)
  | waiting (item : ScheduledChunk) (scheduled : List ScheduledChunk)
  | done (error : Option String)

structure RouteStreamSender where
  transferID : String
  streamID : String
  routeGenerationID : String
  totalRoutes : ℤ
  checksum : RouteKeysChecksum
  batch : List SignedChunkRoute
  seenDeliveryIndices : List ℤ
  batchIndex : ℕ
  routeCount : ℕ
  sendTail : Option Sending

def newRouteStreamSender (transferID streamID routeGenerationID : String) (totalRoutes : ℤ) :
    RouteStreamSender :=
  ⟨transferID, streamID, routeGenerationID, totalRoutes, .zero, [], [], 0, 0, none⟩

def routeStreamBatchRoutes : ℕ := 1024

structure BatchPayload where
  transferID : String
  streamID : String
  routeGenerationID : String
  batchID : String
  batchIndex : ℕ
  routeBatch : CompactBatch
  routeCount : ℕ
  routeKeysChecksum : String
  idempotencyKey : String

structure CompletePayload where
  transferID : String
  streamID : String
  routeGenerationID : String
  expectedBatches : ℕ
  expectedRoutes : ℤ
  routeKeysChecksum : String
  idempotencyKey : String

inductive Event
  | batch (payload : BatchPayload)
  | acknowledged (payload : BatchPayload)
  | refused (payload : BatchPayload) (error : String)
  | complete (payload : CompletePayload)

/-- Where the caller is: between calls, or at a wait inside `addRoute` or `complete`. It makes no
call after one that failed. -/
inductive Caller
  | idle
  | adding
  | completing
  | finishing
  | completed
  | failed (error : String)
  deriving DecidableEq

structure SenderRun where
  sender : RouteStreamSender
  caller : Caller
  events : List Event

namespace RouteStreamSender
variable (sha256 : String → BitVec 256) (s : RouteStreamSender)

def batchPayload (item : ScheduledChunk) : BatchPayload :=
  let coordinateChecksum := (checksumForRouteCoordinates sha256 item.routes).value
  { transferID := s.transferID
    streamID := s.streamID
    routeGenerationID := s.routeGenerationID
    batchID := s!"{s.streamID}:{item.batchIndex}:{coordinateChecksum}"
    batchIndex := item.batchIndex
    routeBatch := compactSignedRoutes item.routes
    routeCount := item.routes.length
    routeKeysChecksum := (checksumForRoutes sha256 item.routes).value
    idempotencyKey :=
      s!"transfer:{s.transferID}:route-stream:{s.streamID}:batch:{item.batchIndex}:{coordinateChecksum}" }

def completePayload : CompletePayload where
  transferID := s.transferID
  streamID := s.streamID
  routeGenerationID := s.routeGenerationID
  expectedBatches := s.batchIndex
  expectedRoutes := s.totalRoutes
  routeKeysChecksum := s.checksum.value
  idempotencyKey := s!"transfer:{s.transferID}:route-stream:{s.streamID}:complete"

/-- The sender after the wait and the error that was waited for; none while the goroutine is not
done. -/
def waitForPendingSend : Option (RouteStreamSender × Option String) :=
  match s.sendTail with
  | none => some (s, none)
  | some (.done error) => some ({ s with sendTail := none }, error)
  | some _ => none

def take (route : SignedChunkRoute) (deliveryIndex : ℤ) : RouteStreamSender :=
  { s with
    seenDeliveryIndices := s.seenDeliveryIndices ++ [deliveryIndex]
    routeCount := s.routeCount + 1
    checksum := s.checksum.add sha256 (routeKeyForSignedRoute route)
    batch := s.batch ++ [{ route with deliveryIndex := some deliveryIndex }] }

def schedule (chunks : List (List SignedChunkRoute)) : RouteStreamSender :=
  { s with
    batch := []
    batchIndex := s.batchIndex + chunks.length
    sendTail := some (.loop (scheduledFrom s.batchIndex chunks)) }

end RouteStreamSender

namespace SenderRun
variable (sha256 : String → BitVec 256) (st : SenderRun)

def fail (error : String) : SenderRun := { st with caller := .failed error }

def addRoute (route : SignedChunkRoute) : SenderRun :=
  let s := st.sender
  match signedRouteDeliveryIndex route with
  | none => st.fail "route delivery_index is required"
  | some deliveryIndex =>
    if deliveryIndex < 0 ∨ s.totalRoutes ≤ deliveryIndex then
      st.fail s!"route delivery_index {deliveryIndex} is outside the declared route stream"
    else if deliveryIndex ∈ s.seenDeliveryIndices then
      st.fail s!"duplicate route delivery_index {deliveryIndex}"
    else
      let s := s.take sha256 route deliveryIndex
      { st with sender := s, caller := if routeStreamBatchRoutes ≤ s.batch.length then .adding
        else .idle }

/-- The rest of `enqueueFlush` once the pending send is over, with the lengths of the pieces that
`splitRoutes` cuts the batch into. -/
def flush (after : Caller) (split : Except String (List ℕ)) : Option SenderRun :=
  match st.sender.waitForPendingSend with
  | none => none
  | some (s, some error) => some ({ st with sender := s }.fail error)
  | some (s, none) =>
    match split with
    | .error error => some ({ st with sender := { s with batch := [] } }.fail error)
    | .ok lengths =>
      if lengths.sum = s.batch.length then
        some { st with sender := s.schedule (lengths.splitLengths s.batch), caller := after }
      else none

def complete : SenderRun :=
  let s := st.sender
  if (s.routeCount : ℤ) ≠ s.totalRoutes ∨ (s.seenDeliveryIndices.length : ℤ) ≠ s.totalRoutes then
    st.fail (s!"route stream has incomplete or duplicate delivery indices: received {s.routeCount} of " ++
      s!"{s.totalRoutes} routes")
  -- an empty batch is not flushed
  else { st with caller := if s.batch = [] then .finishing else .completing }

def finish : Option SenderRun :=
  match st.sender.waitForPendingSend with
  | none => none
  | some (s, some error) => some ({ st with sender := s }.fail error)
  | some (s, none) => some ⟨s, .completed, st.events ++ [.complete s.completePayload]⟩

def setTail (sendTail : Sending) : SenderRun :=
    { st with sender := { st.sender with sendTail := some sendTail } }

def emit (event : Event) : SenderRun := { st with events := st.events ++ [event] }

inductive Step
  | addRoute (route : SignedChunkRoute)
  | complete
  | flush (split : Except String (List ℕ))
  | finish
  | send
  | reply (error : Option String)

/-- A call of the caller's, the end of one of its waits, or the goroutine going on. -/
def step : Step → Option SenderRun
  | .addRoute route => if st.caller = .idle then some (st.addRoute sha256 route) else none
  | .complete => if st.caller = .idle then some st.complete else none
  | .flush split =>
    match st.caller with
    | .adding => st.flush .idle split
    | .completing => st.flush .finishing split
    | _ => none
  | .finish => if st.caller = .finishing then st.finish else none
  | .send =>
    match st.sender.sendTail with
    | some (.loop []) => some (st.setTail (.done none))
    | some (.loop (item :: scheduled)) =>
      some ((st.setTail (.waiting item scheduled)).emit
        (.batch (st.sender.batchPayload sha256 item)))
    | _ => none
  | .reply error =>
    match st.sender.sendTail, error with
    | some (.waiting item scheduled), none =>
      some ((st.setTail (.loop scheduled)).emit
        (.acknowledged (st.sender.batchPayload sha256 item)))
    | some (.waiting item _), some error =>
      some ((st.setTail (.done (some error))).emit
        (.refused (st.sender.batchPayload sha256 item) error))
    | _, _ => none

end SenderRun
end Beam.Go
