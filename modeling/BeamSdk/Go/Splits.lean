import BeamSdk.Go.Exactness
import BeamSdk.Library.Msgpack
import BeamSdk.Library.Packing

/-! The routes of a flush as they are split into batches, each the most whose estimated message
fits, and the messages that the batches go out in. -/

namespace Beam.Go.Splits
open Msgpack

inductive Scalar
  | int (value : ℤ)
  | int64 (value : ℤ)
  | metadata (value : Json)

abbrev Message := Value Scalar

abbrev Payload := OrderedMap String Message

def int (value : ℤ) : Message := .scalar (.int value)

def int64 (value : ℤ) : Message := .scalar (.int64 value)

def stringMap (entries : OrderedMap String String) : Message :=
    .map (entries.map fun entry => (entry.1, .string entry.2))

def sourceChunk (source : CompactSource) : Message :=
  .map ([("source_ref", int source.sourceRef), ("source_id", .string source.sourceID),
    ("chunk_index", int source.chunkIndex),
      ("source_url", .string source.sourceURL), ("source_offset", int64 source.sourceOffset),
      ("chunk_size", int64 source.chunkSize)] ++
    (source.expiresAt.toList.map fun expiresAt => ("expires_at", .string expiresAt)) ++
    source.headers.toList.map fun headers => ("headers", stringMap headers))

def routeEntry (route : CompactRoute) : Message :=
  .map ([("source_ref", int route.sourceRef), ("destination_id", .string route.destinationID),
      ("delivery_index", int route.deliveryIndex), ("dest_url", .string route.destURL)] ++
    (route.expiresAt.toList.map fun expiresAt => ("expires_at", .string expiresAt)) ++
    (route.destHeaders.toList.map fun headers => ("dest_headers", stringMap headers)) ++
    (route.multipartGroupID.toList.map fun groupID => ("multipart_group_id", .string groupID)) ++
    route.metadata.toList.map fun metadata =>
      ("metadata", .map (metadata.map fun entry => (entry.1, .scalar (.metadata entry.2)))))

def routeBatch (batch : CompactBatch) : Message :=
  .map [("source_chunks", .array (batch.sourceChunks.map sourceChunk)),
    ("routes", .array (batch.routes.map routeEntry))]

structure NatsControl where
  environment : String
  keyPrefix : String
  maxPayloadBytes : ℕ

def transferClientSchemaVersion : String := "transfer-client-control/v7"

def routeTargetPayloadBytes : ℕ := 4 * 1024 * 1024

def routeBatchAuthTokenEstimateBytes : ℕ := 64 * 1024

/-- How far the search for the next batch is: `accepted` routes fit, and no more than `high` can. -/
structure Search where
  low : ℕ
  high : ℕ
  accepted : ℕ
  count : ℕ
  low_pos : 0 < low
  between : low ≤ high → low ≤ count ∧ count ≤ high

namespace Search

def start (remaining : ℕ) : Search :=
    ⟨1, remaining, 0, remaining, Nat.one_pos, fun h => ⟨h, Nat.le_refl _⟩⟩

def turn (fits : ℕ → Bool) (s : Search) : Search :=
  if fits s.count then
    ⟨s.count + 1, s.high, s.count, (s.count + 1 + s.high) / 2, Nat.succ_pos _, fun _ => by omega⟩
  else ⟨s.low, s.count - 1, s.accepted, (s.low + (s.count - 1)) / 2, s.low_pos, fun _ => by omega⟩

def run (fits : ℕ → Bool) (s : Search) : ℕ :=
  if _h : s.low ≤ s.high then run fits (s.turn fits) else s.accepted
termination_by s.high + 1 - s.low
decreasing_by
  have hbetween := s.between _h
  have hpos := s.low_pos
  unfold turn
  split <;> simp only <;> omega

end Search

namespace NatsControl
variable (c : NatsControl)

def targetPayloadBytes : ℕ := min c.maxPayloadBytes routeTargetPayloadBytes

def authTokenEstimate : String :=
  String.ofList
    (List.replicate (min routeBatchAuthTokenEstimateBytes (max 512 (c.maxPayloadBytes / 128))) 'x')

def candidateMessage (messageType : String) (basePayload : Payload) (occurredAt : String)
    (candidate : List SignedChunkRoute) :
    Message :=
  .map [("schema_version", .string transferClientSchemaVersion),
    ("environment", .string c.environment),
    ("key_prefix", .string c.keyPrefix), ("shard_id", int 0), ("message_type", .string messageType),
    ("request_id", .string "00000000-0000-4000-8000-000000000000"),
      ("auth_token", .string c.authTokenEstimate),
    ("occurred_at", .string occurredAt), ("producer", .string "sdk"),
    ("payload", .map (basePayload.set "route_batch" (routeBatch (compactSignedRoutes candidate))))]

def messageID (messageType requestID : String) : String :=
  s!"{transferClientSchemaVersion}:{c.environment}:{c.keyPrefix}:{messageType}:{requestID}"

def requestMessage (messageType : String) (payload : Payload) (shardID : ℕ)
    (requestID occurredAt token : String) : Message :=
  .map [("message_id", .string (c.messageID messageType requestID)),
    ("schema_version", .string transferClientSchemaVersion), ("environment", .string c.environment),
    ("key_prefix", .string c.keyPrefix), ("shard_id", int shardID),
      ("message_type", .string messageType),
    ("request_id", .string requestID), ("auth_token", .string token),
      ("occurred_at", .string occurredAt),
    ("producer", .string "sdk"), ("payload", .map payload)]

variable (encoder : Encoder Scalar)

def encodedSize (messageType : String) (basePayload : Payload) (occurredAt : String)
    (candidate : List SignedChunkRoute) : ℕ :=
  encoder.size (c.candidateMessage messageType basePayload occurredAt candidate)

section
variable (size : List SignedChunkRoute → ℕ)

/-- How many of the routes the next batch takes, if it is not the first of them alone. -/
def accepted (routes : List SignedChunkRoute) : ℕ :=
  (Search.start routes.length).run fun count => size (routes.take count) ≤ c.targetPayloadBytes

def splitFrom : List SignedChunkRoute → Except String (List (List SignedChunkRoute))
  | [] => .ok []
  | route :: routes =>
    if c.accepted size (route :: routes) = 0 then
      if c.maxPayloadBytes < size [route] then
        .error s!"single signed route is {size [route]} bytes, above maxPayloadBytes={c.maxPayloadBytes}"
      else (splitFrom routes).map fun chunks => [route] :: chunks
    else
      (splitFrom ((route :: routes).drop (c.accepted size (route :: routes)))).map fun chunks =>
        (route :: routes).take (c.accepted size (route :: routes)) :: chunks
termination_by routes => routes.length
decreasing_by
  · exact Nat.lt_succ_self _
  · rw [List.length_drop, List.length_cons]
    omega

end

def splitRoutes (messageType : String) (basePayload : Payload) (occurredAt : String)
    (routes : List SignedChunkRoute) :
    Except String (List (List SignedChunkRoute)) :=
  c.splitFrom (c.encodedSize encoder messageType basePayload occurredAt) routes

end NatsControl

def estimatePayload (s : RouteStreamSender) : Payload :=
  [("transfer_id", .string s.transferID), ("stream_id", .string s.streamID),
    ("route_generation_id", .string s.routeGenerationID),
    ("batch_id", .string (s.streamID ++ ":estimate")), ("batch_index", int s.batchIndex)]

def messagePayload (payload : BatchPayload) : Payload :=
  [("transfer_id", .string payload.transferID), ("stream_id", .string payload.streamID),
    ("route_generation_id", .string payload.routeGenerationID),
      ("batch_id", .string payload.batchID),
    ("batch_index", int payload.batchIndex), ("route_batch", routeBatch payload.routeBatch),
      ("route_count", int payload.routeCount),
    ("route_keys_checksum", .string payload.routeKeysChecksum)]

structure RequestIdentity where
  shardID : ℕ
  requestID : String
  occurredAt : String

section
variable (sha256 : String → BitVec 256) (encoder : Encoder Scalar) (c : NatsControl)
    (s : RouteStreamSender)
  (occurredAt : String) (requests : ScheduledChunk → RequestIdentity)

def estimate (routes : List SignedChunkRoute) : ℕ :=
  c.encodedSize encoder "transfer.route_stream.batch" (estimatePayload s) occurredAt routes

def split : Except String (List (List SignedChunkRoute)) :=
  c.splitRoutes encoder "transfer.route_stream.batch" (estimatePayload s) occurredAt s.batch

def batchMessage (item : ScheduledChunk) (token : String) : Message :=
  c.requestMessage "transfer.route_stream.batch" (messagePayload (s.batchPayload sha256 item))
    (requests item).shardID
    (requests item).requestID (requests item).occurredAt token

structure WithinLimits : Prop where
  whole : ∀ chunks, split encoder c s occurredAt = .ok chunks → (∀ chunk ∈ chunks, chunk ≠ []) ∧
    chunks.flatten = s.batch
  sent : ∀ chunks, split encoder c s occurredAt = .ok chunks →
    ∀ item ∈ scheduledFrom s.batchIndex chunks, ∀ token : String,
    token.utf8ByteSize ≤ c.authTokenEstimate.utf8ByteSize →
      encoder.size (batchMessage sha256 c s requests item token) ≤ c.maxPayloadBytes
  failed : ∀ error, split encoder c s occurredAt = .error error →
    ∃ route ∈ s.batch, c.maxPayloadBytes < estimate encoder c s occurredAt [route]

/-- The bytes of what differs from the estimate where the batch is sent, and of what is only sent.
-/
def added (item : ScheduledChunk) : ℕ :=
  encoder.mapLen 11 + encoder.key "message_id" +
    encoder.key (c.messageID "transfer.route_stream.batch" (requests item).requestID) +
    encoder.size (int (requests item).shardID) + encoder.key (requests item).requestID +
      encoder.key (requests item).occurredAt +
    encoder.mapLen 8 + encoder.key (s.batchPayload sha256 item).batchID +
      encoder.size (int item.batchIndex) +
    encoder.key "route_count" + encoder.size (int item.routes.length) +
    encoder.key "route_keys_checksum" + encoder.key (checksumForRoutes sha256 item.routes).value

def replaced : ℕ :=
  encoder.mapLen 10 + encoder.size (int 0) + encoder.key "00000000-0000-4000-8000-000000000000" +
    encoder.key occurredAt +
    encoder.mapLen 6 + encoder.key (s.streamID ++ ":estimate") + encoder.size (int s.batchIndex)

/-- Of the longest batches whose estimates are within the target, one route alone is too large, or
each has room for what is added to it where it is sent. -/
def Roomy : Prop :=
  ∀ blocks, Packing.Packs (estimate encoder c s occurredAt) c.targetPayloadBytes s.batch blocks →
    (∃ route, [route] ∈ blocks ∧ c.maxPayloadBytes < estimate encoder c s occurredAt [route]) ∨
      ∀ item ∈ scheduledFrom s.batchIndex blocks,
        estimate encoder c s occurredAt item.routes + added sha256 encoder c s requests item ≤
          c.maxPayloadBytes + replaced encoder s occurredAt

end

namespace Search

structure Holds (fits : ℕ → Bool) (remaining : ℕ) (s : Search) : Prop where
  accepted : s.accepted + 1 = s.low
  passes : s.accepted = 0 ∨ fits s.accepted = true
  within : s.low ≤ s.high + 1 ∧ s.high ≤ remaining
  above : ∀ count, s.high < count → count ≤ remaining → fits count = false

variable {fits : ℕ → Bool} {remaining : ℕ} {s : Search}

theorem start_holds (fits : ℕ → Bool) (remaining : ℕ) : (start remaining).Holds fits remaining where
  accepted := rfl
  passes := .inl rfl
  within := ⟨Nat.le_add_left 1 remaining, Nat.le_refl _⟩
  above _ hlt hle := absurd hlt (Nat.not_lt.mpr hle)

theorem turn_holds (hdown : ∀ count count', count ≤ count' → fits count' = true → fits count = true)
    (h : s.Holds fits remaining) (hle : s.low ≤ s.high) : (s.turn fits).Holds fits remaining := by
  obtain ⟨hlow, hhigh⟩ := s.between hle
  have hpos := s.low_pos
  have hwithin := h.within
  unfold turn
  cases hfits : fits s.count with
  | true =>
    rw [if_pos rfl]
    exact ⟨rfl, .inr hfits, ⟨Nat.succ_le_succ hhigh, hwithin.2⟩, h.above⟩
  | false =>
    rw [if_neg Bool.false_ne_true]
    refine ⟨h.accepted, h.passes,
      ⟨by show s.low ≤ s.count - 1 + 1; omega, by show s.count - 1 ≤ remaining; omega⟩, ?_⟩
    intro count hlt _
    have hcount : s.count ≤ count := by
      have hlt : s.count - 1 < count := hlt
      omega
    exact Bool.eq_false_iff.mpr fun htrue => Bool.eq_false_iff.mp hfits (hdown _ _ hcount htrue)

theorem run_greatest (hdown : ∀ count count', count ≤ count' → fits count' = true →
    fits count = true)
    (h : s.Holds fits remaining) :
    s.run fits ≤ remaining ∧ (s.run fits = 0 ∨ fits (s.run fits) = true) ∧
      ∀ count, s.run fits < count → count ≤ remaining → fits count = false := by
  fun_induction run fits s with
  | case1 s hle ih => exact ih (turn_holds hdown h hle)
  | case2 s hgt =>
    have haccepted := h.accepted
    have hwithin := h.within
    refine ⟨by omega, h.passes, fun count hlt hle => h.above count (by omega) hle⟩

end Search

section
variable {encoder : Encoder Scalar}

theorem size_set_le {payload : Payload} {name : String} {message message' : Message}
    (h : encoder.size message ≤ encoder.size message') :
    encoder.size (.map (payload.set name message)) ≤
      encoder.size (.map (payload.set name message')) := by
  have hboth : (payload.set name message).length = (payload.set name message').length ∧
      encoder.sizeEntries (payload.set name message) ≤
        encoder.sizeEntries (payload.set name message') := by
    induction payload with
    | nil => exact ⟨rfl, Nat.add_le_add_right (Nat.add_le_add_left h _) _⟩
    | cons entry payload ih =>
      obtain ⟨other, value⟩ := entry
      by_cases heq : other = name
      · simp only [OrderedMap.set, if_pos heq, Encoder.sizeEntries, List.length_cons, true_and]
        exact Nat.add_le_add_right (Nat.add_le_add_left h _) _
      · simp only [OrderedMap.set, if_neg heq, Encoder.sizeEntries, List.length_cons]
        exact ⟨congrArg Nat.succ ih.1, Nat.add_le_add_left ih.2 _⟩
  rw [Encoder.size, Encoder.size, hboth.1]
  exact Nat.add_le_add_left hboth.2 _

theorem addRoute_grows (batch : CompactBatch) (route : SignedChunkRoute) :
    batch.sourceChunks <+: (batch.addRoute route).sourceChunks ∧
      batch.routes <+: (batch.addRoute route).routes := by
  unfold CompactBatch.addRoute
  split
  · exact ⟨List.prefix_refl _, List.prefix_append ..⟩
  · exact ⟨List.prefix_append .., List.prefix_append ..⟩

theorem compact_grows (routes more : List SignedChunkRoute) :
    (compactSignedRoutes routes).sourceChunks <+:
      (compactSignedRoutes (routes ++ more)).sourceChunks ∧
      (compactSignedRoutes routes).routes <+: (compactSignedRoutes (routes ++ more)).routes := by
  induction more using List.reverseRecOn with
  | nil =>
    rw [List.append_nil]
    exact ⟨List.prefix_refl _, List.prefix_refl _⟩
  | append_singleton more route ih =>
    have hlast := addRoute_grows (compactSignedRoutes (routes ++ more)) route
    rw [← List.append_assoc, compactSignedRoutes_snoc]
    exact ⟨ih.1.trans hlast.1, ih.2.trans hlast.2⟩

theorem encodedSize_mono (c : NatsControl) (messageType : String) (basePayload : Payload)
    (occurredAt : String)
    (routes more : List SignedChunkRoute) :
    c.encodedSize encoder messageType basePayload occurredAt routes ≤
      c.encodedSize encoder messageType basePayload occurredAt (routes ++ more) := by
  obtain ⟨⟨sources, hsources⟩, entries, hentries⟩ := compact_grows routes more
  have hbatch : encoder.size (routeBatch (compactSignedRoutes routes)) ≤
      encoder.size (routeBatch (compactSignedRoutes (routes ++ more))) := by
    have hsource := Encoder.array_le_append (e := encoder)
      ((compactSignedRoutes routes).sourceChunks.map sourceChunk)
      (sources.map sourceChunk)
    have hentry := Encoder.array_le_append (e := encoder)
      ((compactSignedRoutes routes).routes.map routeEntry)
      (entries.map routeEntry)
    unfold routeBatch
    rw [← hsources, ← hentries, List.map_append, List.map_append]
    simp only [Encoder.size, Encoder.sizeEntries, List.length_cons, List.length_nil]
      at hsource hentry ⊢
    omega
  have hpayload :
      encoder.size
        (.map (basePayload.set "route_batch" (routeBatch (compactSignedRoutes routes)))) ≤ _ :=
        size_set_le hbatch
  unfold NatsControl.encodedSize NatsControl.candidateMessage
  simp only [Encoder.size, Encoder.sizeEntries, List.length_cons, List.length_nil] at hpayload ⊢
  omega

end

section
variable {c : NatsControl} {size : List SignedChunkRoute → ℕ}

theorem accepted_greatest (hmono : ∀ routes more, size routes ≤ size (routes ++ more))
    (routes : List SignedChunkRoute) :
    c.accepted size routes ≤ routes.length ∧
      (c.accepted size routes = 0 ∨ size (routes.take (c.accepted size routes)) ≤
        c.targetPayloadBytes) ∧
      ∀ count, c.accepted size routes < count → count ≤ routes.length →
        c.targetPayloadBytes < size (routes.take count) := by
  have hdown : ∀ count count', count ≤ count' →
      decide (size (routes.take count') ≤ c.targetPayloadBytes) = true →
      decide (size (routes.take count) ≤ c.targetPayloadBytes) = true := by
    intro count count' hle hfits
    obtain ⟨more, hmore⟩ := List.take_prefix_take_left hle (l := routes)
    rw [decide_eq_true_iff, ← hmore] at hfits
    exact decide_eq_true ((hmono _ _).trans hfits)
  obtain ⟨hle, hpasses, habove⟩ := Search.run_greatest hdown (Search.start_holds _ routes.length)
  refine ⟨hle, hpasses.imp_right decide_eq_true_iff.mp, fun count hlt hcount => ?_⟩
  exact Nat.not_le.mp (decide_eq_false_iff_not.mp (habove count hlt hcount))

theorem longer_exceeds (hmono : ∀ routes more, size routes ≤ size (routes ++ more))
    {block rest more : List SignedChunkRoute}
    (hle : c.accepted size (block ++ rest) ≤ block.length) (hmore : more ≠ [])
    (hrest : more <+: rest) :
    c.targetPayloadBytes < size (block ++ more) := by
  obtain ⟨tail, rfl⟩ := hrest
  have habove :=
    (accepted_greatest (c := c) hmono (block ++ (more ++ tail))).2.2 (block ++ more).length
  have hpos := List.length_pos_iff.mpr hmore
  rw [← List.append_assoc, List.take_left, List.append_assoc] at habove
  simp only [List.length_append] at habove
  exact habove (by omega) (by omega)

theorem take_leads (hmono : ∀ routes more, size routes ≤ size (routes ++ more))
    {routes : List SignedChunkRoute}
    (hsome : c.accepted size routes ≠ 0) :
    Packing.Leads size c.targetPayloadBytes (routes.take (c.accepted size routes))
      (routes.drop (c.accepted size routes)) := by
  obtain ⟨hle, hpasses, -⟩ := accepted_greatest (c := c) hmono routes
  have hlength : (routes.take (c.accepted size routes)).length = c.accepted size routes :=
    List.length_take_of_le hle
  refine ⟨fun hnil => hsome ?_, .inl (hpasses.resolve_left hsome), fun more hmore hrest => ?_⟩
  · rw [← hlength, hnil, List.length_nil]
  · exact longer_exceeds hmono (by rw [List.take_append_drop, hlength]) hmore hrest

theorem single_leads (hmono : ∀ routes more, size routes ≤ size (routes ++ more))
    {route : SignedChunkRoute}
    {routes : List SignedChunkRoute} (hnone : c.accepted size (route :: routes) = 0) :
    Packing.Leads size c.targetPayloadBytes [route] routes :=
  have hle : c.accepted size ([route] ++ routes) ≤ [route].length := hnone ▸ Nat.zero_le _
  ⟨List.cons_ne_nil _ _, .inr rfl, fun _ => longer_exceeds hmono hle⟩

theorem exists_packs (hmono : ∀ routes more, size routes ≤ size (routes ++ more))
    (routes : List SignedChunkRoute) :
    ∃ blocks, Packing.Packs size c.targetPayloadBytes routes blocks := by
  refine Packing.exists_packs (fun routes hroutes => ?_) routes
  obtain ⟨route, routes, rfl⟩ := List.exists_cons_of_ne_nil hroutes
  by_cases hnone : c.accepted size (route :: routes) = 0
  · exact ⟨[route], routes, rfl, single_leads hmono hnone⟩
  · exact ⟨_, _, (List.take_append_drop _ _).symm, take_leads hmono hnone⟩

/-- The batches are the longest that fit, unless one of these is a route that alone is too large. -/
def Split (c : NatsControl) (size : List SignedChunkRoute → ℕ) (routes : List SignedChunkRoute)
    (blocks : List (List SignedChunkRoute)) :
    Prop :=
  (c.splitFrom size routes = .ok blocks ∧ ∀ block ∈ blocks, size block ≤ c.maxPayloadBytes) ∨
    ((∃ error, c.splitFrom size routes = .error error) ∧ ∃ route, [route] ∈ blocks ∧
      c.maxPayloadBytes < size [route])

theorem Split.cons {routes rest block : List SignedChunkRoute}
    {blocks : List (List SignedChunkRoute)} (h : Split c size rest blocks)
    (heq : c.splitFrom size routes = (c.splitFrom size rest).map fun chunks => block :: chunks)
    (hblock : size block ≤ c.maxPayloadBytes) : Split c size routes (block :: blocks) := by
  obtain ⟨hok, hall⟩ | ⟨⟨error, herror⟩, route, hroute, hlarge⟩ := h
  · refine .inl ⟨?_, List.forall_mem_cons.mpr ⟨hblock, hall⟩⟩
    rw [heq, hok]
    rfl
  · refine .inr ⟨⟨error, ?_⟩, route, List.mem_cons_of_mem _ hroute, hlarge⟩
    rw [heq, herror]
    rfl

theorem splitFrom_packs (hmono : ∀ routes more, size routes ≤ size (routes ++ more))
    (routes : List SignedChunkRoute) :
    ∃ blocks, Packing.Packs size c.targetPayloadBytes routes blocks ∧
      Split c size routes blocks := by
  induction hlength : routes.length using Nat.strongRecOn generalizing routes with
  | _ length ih =>
    subst hlength
    cases routes with
    | nil => exact ⟨[], .nil, .inl ⟨NatsControl.splitFrom.eq_1 .., fun _ => nofun⟩⟩
    | cons route routes =>
      have hstep := NatsControl.splitFrom.eq_2 c size route routes
      by_cases hnone : c.accepted size (route :: routes) = 0
      · rw [if_pos hnone] at hstep
        by_cases hlarge : c.maxPayloadBytes < size [route]
        · rw [if_pos hlarge] at hstep
          obtain ⟨blocks, packs⟩ := exists_packs (c := c) hmono routes
          exact ⟨[route] :: blocks, .cons (single_leads hmono hnone) packs,
            .inr ⟨⟨_, hstep⟩, route, List.mem_cons_self .., hlarge⟩⟩
        · rw [if_neg hlarge] at hstep
          obtain ⟨blocks, packs, hsplit⟩ := ih routes.length (Nat.lt_succ_self _) routes rfl
          exact ⟨[route] :: blocks, .cons (single_leads hmono hnone) packs,
            hsplit.cons hstep (Nat.not_lt.mp hlarge)⟩
      · rw [if_neg hnone] at hstep
        have hshorter : ((route :: routes).drop (c.accepted size (route :: routes))).length <
            (route :: routes).length := by
          rw [List.length_drop, List.length_cons]
          omega
        obtain ⟨blocks, packs, hsplit⟩ := ih _ hshorter _ rfl
        have leads := take_leads hmono hnone
        have hfits : size ((route :: routes).take (c.accepted size (route :: routes))) ≤
            c.maxPayloadBytes :=
          ((accepted_greatest hmono _).2.1.resolve_left hnone).trans (Nat.min_le_left _ _)
        have hpacks := Packing.Packs.cons leads packs
        rw [List.take_append_drop] at hpacks
        exact ⟨_, hpacks, hsplit.cons hstep hfits⟩

theorem split_of_packs (hmono : ∀ routes more, size routes ≤ size (routes ++ more))
    {routes : List SignedChunkRoute}
    {blocks : List (List SignedChunkRoute)}
    (h : Packing.Packs size c.targetPayloadBytes routes blocks) : Split c size routes blocks := by
  obtain ⟨blocks', packs, hsplit⟩ := splitFrom_packs (c := c) hmono routes
  rwa [h.unique packs]

end

section
variable {sha256 : String → BitVec 256} {encoder : Encoder Scalar} {c : NatsControl}
    {s : RouteStreamSender} {occurredAt : String}
  {requests : ScheduledChunk → RequestIdentity}

theorem message_size (item : ScheduledChunk) {token : String}
    (h : token.utf8ByteSize = c.authTokenEstimate.utf8ByteSize) :
    encoder.size (batchMessage sha256 c s requests item token) + replaced encoder s occurredAt =
      estimate encoder c s occurredAt item.routes + added sha256 encoder c s requests item := by
  have hpayload :
      (estimatePayload s).set "route_batch" (routeBatch (compactSignedRoutes item.routes)) =
      estimatePayload s ++ [("route_batch", routeBatch (compactSignedRoutes item.routes))] :=
        OrderedMap.set_new (by simp [estimatePayload]) _
  unfold estimate NatsControl.encodedSize NatsControl.candidateMessage batchMessage
    NatsControl.requestMessage added replaced
  rw [hpayload]
  simp only [estimatePayload, messagePayload, RouteStreamSender.batchPayload, Encoder.size,
    Encoder.sizeEntries, Encoder.key,
    List.length_cons, List.length_nil, Nat.reduceAdd, List.cons_append, List.nil_append, h]
  omega

theorem message_mono (item : ScheduledChunk) {token token' : String}
    (h : token.utf8ByteSize ≤ token'.utf8ByteSize) :
    encoder.size (batchMessage sha256 c s requests item token) ≤
      encoder.size (batchMessage sha256 c s requests item token') := by
  have htoken := encoder.string_mono h
  unfold batchMessage NatsControl.requestMessage
  simp only [Encoder.size, Encoder.sizeEntries, List.length_cons, List.length_nil]
  omega

theorem estimate_mono (routes more : List SignedChunkRoute) :
    estimate encoder c s occurredAt routes ≤ estimate encoder c s occurredAt (routes ++ more) :=
  encodedSize_mono c _ _ _ routes more

theorem batches_within_iff : WithinLimits sha256 encoder c s occurredAt requests ↔
    Roomy sha256 encoder c s occurredAt requests := by
  have hsplit : ∀ {blocks},
      Packing.Packs (estimate encoder c s occurredAt) c.targetPayloadBytes s.batch blocks →
      Split c (estimate encoder c s occurredAt) s.batch blocks := split_of_packs estimate_mono
  constructor
  · intro h blocks packs
    obtain ⟨hok, -⟩ | ⟨-, hlarge⟩ := hsplit packs
    · refine .inr fun item hitem => ?_
      have hsent := h.sent blocks hok item hitem c.authTokenEstimate (Nat.le_refl _)
      rw [← message_size item rfl]
      exact Nat.add_le_add_right hsent _
    · exact .inl hlarge
  · intro hroomy
    obtain ⟨blocks, packs⟩ : ∃ blocks,
        Packing.Packs (estimate encoder c s occurredAt) c.targetPayloadBytes s.batch blocks :=
      exists_packs estimate_mono s.batch
    have hchunks : ∀ chunks, split encoder c s occurredAt = .ok chunks →
        chunks = blocks ∧ ∀ block ∈ blocks,
          estimate encoder c s occurredAt block ≤ c.maxPayloadBytes := by
      intro chunks hok
      obtain ⟨hok', hall⟩ | ⟨⟨error, herror⟩, -⟩ := hsplit packs
      · exact ⟨Except.ok.inj (hok.symm.trans hok'), hall⟩
      · cases hok.symm.trans herror
    constructor
    · intro chunks hok
      obtain ⟨rfl, -⟩ := hchunks chunks hok
      exact ⟨packs.nonempty, packs.flatten⟩
    · intro chunks hok item hitem token htoken
      obtain ⟨rfl, hall⟩ := hchunks chunks hok
      obtain ⟨route, hmem, hlarge⟩ | hroom := hroomy chunks packs
      · exact absurd hlarge (Nat.not_lt.mpr (hall [route] hmem))
      · have hreserved := hroom item hitem
        rw [← message_size item rfl] at hreserved
        exact (message_mono item htoken).trans (Nat.le_of_add_le_add_right hreserved)
    · intro error herror
      obtain ⟨hok, -⟩ | ⟨-, route, hmem, hlarge⟩ := hsplit packs
      · cases herror.symm.trans hok
      · refine ⟨route, ?_, hlarge⟩
        rw [← packs.flatten]
        exact List.mem_flatten.mpr ⟨[route], hmem, List.mem_singleton_self route⟩

end

def smallRoute : SignedChunkRoute where
  sourceID := "src_0"
  destinationID := "dest_0"
  chunkIndex := 0
  deliveryIndex := some 0
  sourceURL := "https://storage.example/source"
  destURL := "https://storage.example/destination"
  sourceOffset := 0
  chunkSize := 1024
  expiresAt := ""
  headers := none
  destHeaders := []
  metadata := []
  unsigned := []

def oneRoute : RouteStreamSender :=
  { newRouteStreamSender "transfer-1" "00000000-0000-5000-8000-000000000001" "generation-1" 1 with
    batch := [smallRoute] }

def sizes : Encoder Scalar := .standard fun value =>
  match value with
  | .int value => Encoder.integer value
  | .int64 _ => 9
  | .metadata _ => 1

def tight : NatsControl := ⟨"prod", "beam_test", 1195⟩

/-- The route goes into a batch, and the message of the batch is larger than a message may be. -/
theorem batch_oversize : 0 < tight.maxPayloadBytes ∧
    ¬ WithinLimits (fun _ => 0) sizes tight oneRoute "2026-01-02T03:04:05Z"
    fun _ => ⟨0, "00000000-0000-5000-8000-000000000002", "2026-01-02T03:04:05Z"⟩ := by
  refine ⟨by decide, fun h => ?_⟩
  have packs : Packing.Packs (estimate sizes tight oneRoute "2026-01-02T03:04:05Z")
      tight.targetPayloadBytes [smallRoute]
    [[smallRoute]] := Packing.packs_singleton smallRoute
  obtain ⟨hok, -⟩ | ⟨-, route, hmem, hlarge⟩ := split_of_packs estimate_mono packs
  · have hsent := h.sent _ hok ⟨0, [smallRoute]⟩
      (List.mem_singleton_self _) tight.authTokenEstimate (Nat.le_refl _)
    exact absurd hsent (by decide +kernel)
  · obtain rfl : route = smallRoute := List.singleton_inj.mp (List.mem_singleton.mp hmem)
    exact absurd hlarge (by decide +kernel)

end Beam.Go.Splits
