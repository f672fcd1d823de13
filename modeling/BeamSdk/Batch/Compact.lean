import BeamSdk.Library.Interning
import BeamSdk.Library.Json

/-! Batches of signed routes as the SDKs send them: what the routes of one source chunk share is
sent once, under a number that they refer to. -/

namespace Beam.Batch

inductive Field (α : Type)
  | missing
  | null
  | value (a : α)
  deriving DecidableEq

namespace Field
variable {α : Type}

def get : Field α → Option α
  | value a => some a
  | _ => none

def present : Field α → Field α
  | null => missing
  | field => field

end Field

abbrev Headers := { members : OrderedMap String String // (members.map Prod.fst).Nodup }

def Headers.Same (headers headers' : Headers) : Prop := headers.1.Perm headers'.1

def Headers.sorted (headers : Headers) : List (String × String) :=
    headers.1.insertionSort fun a b => a.1 ≤ b.1

abbrev Metadata := OrderedMap String Json

/-- Whether a number stands for the same whole number in all languages, or for none. -/
def Exact (member : Option Json) : Prop :=
  ∀ value, member = some (.number value) → -2 ^ 53 < value ∧ value < 2 ^ 53

structure SignedChunkRoute where
  sourceID : String
  destinationID : String
  chunkIndex : ℕ
  deliveryIndex : Field ℕ
  sourceURL : String
  destURL : String
  sourceOffset : ℕ
  chunkSize : ℕ
  expiresAt : Field String
  headers : Field Headers
  destHeaders : Field Headers
  metadata : Field Metadata
  exact : Exact ((metadata.get.getD []).get "delivery_index")

def SignedChunkRoute.member (route : SignedChunkRoute) (name : String) : Option Json :=
    (route.metadata.get.getD []).get name

/-- The key of a source chunk. A JSON text stands here for its value, with the members of an object
in its order. -/
structure SourceKey where
  sourceID : String
  chunkIndex : ℕ
  sourceURL : String
  sourceOffset : ℕ
  chunkSize : ℕ
  expiresAt : Option String
  headers : Option (List (String × String))
  deriving DecidableEq

structure SourceChunk where
  sourceRef : ℕ
  sourceID : String
  chunkIndex : ℕ
  sourceURL : String
  sourceOffset : ℕ
  chunkSize : ℕ
  expiresAt : Field String
  headers : Field Headers

structure CompactRoute where
  sourceRef : ℕ
  destinationID : String
  deliveryIndex : Json
  destURL : String
  expiresAt : Field String
  destHeaders : Field Headers
  multipartGroupID : Option String
  metadata : Option Metadata

structure CompactSignedRouteBatch where
  sourceChunks : List SourceChunk
  routes : List CompactRoute

def routeAttemptMetadataKeys : List String :=
  ["part_number", "logical_attempt_index", "attempt_slot", "etag_required", "route_generation_id"]

def routeIdentityMetadataKeys : List String :=
  ["source_id", "destination_id", "chunk_index", "route_chunk_index", "delivery_index"]

def withoutIdentity (metadata : Metadata) : Metadata :=
    metadata.filter fun entry => entry.1 ∉ routeIdentityMetadataKeys

def attemptOnly (metadata : Metadata) : Metadata :=
    metadata.filter fun entry => entry.1 ∈ routeAttemptMetadataKeys

structure Encoder where
  -- the members of headers as they stand in a key
  listed : Headers → List (String × String)
  keyExpiresAt : Field String → Option String
  sentText : Field String → Field String
  sentHeaders : Field Headers → Field Headers
  -- from the place of the route in the batch, its own index and its metadata; nothing where the
  -- SDK raises
  deliveryIndex : ℕ → Field ℕ → Metadata → Option Json
  groupID : Option Json → Option String

namespace Encoder
variable (e : Encoder)

def sourceKey (route : SignedChunkRoute) : SourceKey :=
  ⟨route.sourceID, route.chunkIndex, route.sourceURL, route.sourceOffset, route.chunkSize,
    e.keyExpiresAt route.expiresAt,
    route.headers.get.map e.listed⟩

def sourceChunk (sourceRef : ℕ) (route : SignedChunkRoute) : SourceChunk :=
  ⟨sourceRef, route.sourceID, route.chunkIndex, route.sourceURL, route.sourceOffset,
    route.chunkSize,
    e.sentText route.expiresAt, e.sentHeaders route.headers⟩

def compactRoute (sourceRef routeIndex : ℕ) (route : SignedChunkRoute) : Option CompactRoute :=
  let metadata := route.metadata.get.getD []
  (e.deliveryIndex routeIndex route.deliveryIndex metadata).map fun deliveryIndex =>
    let kept := withoutIdentity metadata
    let groupID := e.groupID (kept.get "multipart_group_id")
    let sent := if groupID.getD "" = "" then kept else attemptOnly kept
    { sourceRef
      destinationID := route.destinationID
      deliveryIndex
      destURL := route.destURL
      expiresAt := e.sentText route.expiresAt
      destHeaders := e.sentHeaders route.destHeaders
      multipartGroupID := groupID
      metadata := if sent = [] then none else some sent }

structure State where
  sourceChunks : List SourceChunk
  sourceRefs : OrderedMap SourceKey ℕ
  routes : List CompactRoute

def refer (state : State) (route : SignedChunkRoute) : ℕ × State :=
  match state.sourceRefs.get (e.sourceKey route) with
  | some sourceRef => (sourceRef, state)
  | none =>
    let sourceRef := state.sourceChunks.length
    (sourceRef,
      { state with
        sourceChunks := state.sourceChunks ++ [e.sourceChunk sourceRef route]
        sourceRefs := state.sourceRefs.set (e.sourceKey route) sourceRef })

def add (state : State) (entry : SignedChunkRoute × ℕ) : Option State :=
  let (sourceRef, referred) := e.refer state entry.1
  (e.compactRoute sourceRef entry.2 entry.1).map fun route =>
    { referred with routes := referred.routes ++ [route] }

def compactSignedRoutes (routes : List SignedChunkRoute) : Option CompactSignedRouteBatch :=
  (routes.zipIdx.foldlM e.add ⟨[], [], []⟩).map fun state => ⟨state.sourceChunks, state.routes⟩

end Encoder

structure Platform where
  -- `Number` of a value that is no number, where it is one
  number : Json → Option ℚ
  -- `trim().parse::<u64>()`
  parse : String → Option ℕ
  -- `str` of a value that is no text
  str : Json → String

def natural (value : ℚ) : Option ℕ := if value.den = 1 ∧
    0 ≤ value.num then some value.num.toNat else none

def index (n : ℕ) : Json := .number n

namespace TypeScript
variable (platform : Platform)

def nonNegativeInteger : Option Json → Option ℕ
  | none => none
  | some (.number value) => natural value
  | some (.infinity _) => none
  | some value => (platform.number value).bind natural

def encoder : Encoder where
  listed headers := objectEntries headers.1
  keyExpiresAt := Field.get
  sentText field := field
  sentHeaders field := field
  deliveryIndex routeIndex own metadata :=
    some (index
      (own.get.getD
        ((nonNegativeInteger platform (metadata.get "delivery_index")).getD routeIndex)))
  groupID
    | some (.string text) => some text
    | _ => none

end TypeScript

namespace Rust
variable (platform : Platform)

def nonNegativeInteger : Option Json → Option ℕ
  | some (.number value) => (natural value).map fun n => min n (2 ^ 64 - 1)
  | some (.string text) => platform.parse text
  | _ => none

def encoder : Encoder where
  listed := Headers.sorted
  keyExpiresAt := Field.get
  sentText := Field.present
  sentHeaders := Field.present
  deliveryIndex routeIndex own metadata :=
    some (index
      (own.get.getD
        ((nonNegativeInteger platform (metadata.get "delivery_index")).getD routeIndex)))
  groupID
    | some (.string text) => if text = "" then none else some text
    | _ => none

end Rust

namespace Go

/-- Of a number as `encoding/json` gives it, a float: what is converted from outside of its range
does not compare equal. -/
def exactIntegerValue : Option Json → Option ℤ
  | some (.number value) =>
      if value.den = 1 ∧ -2 ^ 63 ≤ value.num ∧ value.num < 2 ^ 63 then some value.num else none
  | _ => none

/-- What a route's struct holds is neither missing nor null: an empty text, or no headers. -/
def encoder : Encoder where
  listed := Headers.sorted
  keyExpiresAt field := some (field.get.getD "")
  sentText field := if field.get.getD "" = "" then .missing else field
  sentHeaders field := if (field.get.map Subtype.val).getD [] = [] then .missing else field
  deliveryIndex routeIndex own metadata :=
    match own.get with
    | some n => some (index n)
    | none =>
      match exactIntegerValue (metadata.get "delivery_index") with
      | some value => some (if 0 ≤ value then .number value else index routeIndex)
      | none => some (index routeIndex)
  groupID
    | some (.string text) => if text = "" then none else some text
    | _ => none

end Go

namespace Python
variable (platform : Platform)

def truthy : Json → Bool
  | .null => false
  | .bool value => value
  | .number value => value ≠ 0
  | .infinity _ => true
  | .string text => text ≠ ""
  | .array items => !items.isEmpty
  | .object members => !members.isEmpty

/-- `isinstance(value, int)`, which a Boolean is, and not negative. -/
def isIndex : Json → Bool
  | .number value => (natural value).isSome
  | .bool _ => true
  | _ => false

def encoder : Encoder where
  listed := Headers.sorted
  keyExpiresAt := Field.get
  sentText := Field.present
  sentHeaders := Field.present
  deliveryIndex routeIndex own metadata :=
    let found :=
      match own with
      | .value n => index n
      | .null => .null
      | .missing => (metadata.get "delivery_index").getD (index routeIndex)
    if isIndex found then some found else none
  groupID
    | none => none
    | some value =>
      if truthy value then
        match value with
        | .string text => some text
        | value => some (platform.str value)
      else none

end Python

inductive Sdk
  | typescript
  | go
  | python
  | rust
  deriving DecidableEq

def Sdk.encoder (platform : Platform) : Sdk → Encoder
  | .typescript => TypeScript.encoder platform
  | .go => Go.encoder
  | .python => Python.encoder platform
  | .rust => Rust.encoder platform

structure ExpandedRoute where
  source : SourceChunk
  route : CompactRoute

def CompactSignedRouteBatch.expand (batch : CompactSignedRouteBatch) :
    Option (List ExpandedRoute) :=
  batch.routes.mapM fun route =>
    (batch.sourceChunks.find? fun source => source.sourceRef = route.sourceRef).map fun source =>
      ⟨source, route⟩

end Beam.Batch
