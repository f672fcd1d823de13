import Mathlib.Data.Int.Basic
import Mathlib.Data.Rat.Defs
import BeamSdk.Library.Json
import BeamSdk.Library.Iterator

/-! The compact plan BeamCore issues for a transfer, and how each of the four SDKs expands it, one
chunk of a source at a time. -/

namespace Beam.Plan

structure CompactTransferPlanSource where
  sourceID : String
  url : String
  size : ℤ
  globalChunkStart : ℤ
  chunkCount : ℤ

structure CompactTransferPlanDestination where
  destinationID : String
  provider : String
  metadata : OrderedMap String Json
  destinationIndex : ℤ
  finalObjectKeys : OrderedMap String String

structure CompactTransferPlanDescriptor where
  planNonce : String
  chunkSize : ℤ
  sources : List CompactTransferPlanSource
  destinations : List CompactTransferPlanDestination

structure ChunkDestinationSigningTarget where
  destinationID : String
  provider : String
  objectKey : String
  metadata : OrderedMap String Json

structure ChunkSigningPlanItem where
  chunkIndex : ℤ
  sourceID : String
  sourceChunkIndex : ℤ
  sourceOffset : ℤ
  chunkSize : ℤ
  sourceURL : String
  destinations : List ChunkDestinationSigningTarget

def multipartMaxPartNumber : ℤ := 10000

def multipartAttemptSlotCount : ℤ := 1

def multipartMaxSourceChunks : ℤ := multipartMaxPartNumber / multipartAttemptSlotCount

def multipartPartNumber (chunkIndex attemptSlot : ℤ) : Except String ℤ :=
  if chunkIndex < 0 then .error "source_chunk_index must be a non-negative integer"
  else if multipartMaxSourceChunks ≤ chunkIndex then
    .error s!"source_chunk_index must be less than {multipartMaxSourceChunks}"
  else if attemptSlot < 0 ∨ multipartAttemptSlotCount ≤ attemptSlot then
    .error "attempt_slot must be 0 for consecutive multipart uploads"
  else .ok (chunkIndex + 1)

inductive Failure
  | source
  | range
  | finalObjectKey (destinationID : String)
  | partNumber (text : String)

structure Sdk where
  -- the value of a sum or a product
  number : ℤ → ℤ
  -- the index of a chunk in its source, from the exact difference
  difference : ℤ → ℤ
  -- what remains of a source, from the exact difference
  remaining : ℤ → ℤ
  isHippius : String → Bool
  refusesKey : String → Bool
  -- whether the part number is found before the targets, so that it is also where there are none
  partNumberFirst : Bool
  text : String → ℤ → Failure → String

def int64 (n : ℤ) : ℤ := n.bmod (2 ^ 64)

/-- A 64-bit unsigned integer wraps around in a release build, and a debug build panics there. -/
def uint64 (n : ℤ) : ℤ := n % 2 ^ 64

/-- The double nearest to an integer, and between two the one with the even significand. -/
def double (n : ℤ) : ℤ :=
  if n.natAbs ≤ 2 ^ 53 then n
  else
    let unit : ℤ := 2 ^ (n.natAbs.log2 - 52)
    let below := n / unit
    let rest := 2 * (n % unit)
    if rest < unit ∨ (rest = unit ∧ below % 2 = 0) then below * unit else (below + 1) * unit

/-- `strings.EqualFold` against ASCII text: 'ſ' and the Kelvin sign fold to letters of it. -/
def simpleFold (c : Char) : Char := if c = 'ſ' then 's' else if c = '\u212a' then 'k' else c.toLower

/-- `toLowerCase` and `str.lower`, as far as ASCII text can tell: 'İ' becomes two characters. -/
def lowerCase (c : Char) : List Char :=
  if c = 'İ' then ['i', '\u0307'] else if c = '\u212a' then ['k'] else [c.toLower]

def hippius : List Char := ['h', 'i', 'p', 'p', 'i', 'u', 's']

def go : Sdk where
  number := int64
  difference := int64
  remaining := int64
  isHippius provider := provider.toList.map simpleFold = hippius
  refusesKey key := key = ""
  partNumberFirst := true
  -- materializePlanChunk only says that it failed; the text is the iterator's.
  text sourceID chunkIndex _ := s!"plan chunk not found: {sourceID}:{chunkIndex}"

def typescript : Sdk where
  number := double
  difference := double
  remaining := double
  isHippius provider := provider.toList.flatMap lowerCase = hippius
  refusesKey key := key = ""
  partNumberFirst := false
  text sourceID chunkIndex
    | .source => s!"plan source not found: {sourceID}"
    | .range => s!"plan chunk is outside source range: {sourceID}:{chunkIndex}"
    | .finalObjectKey destinationID =>
        s!"plan final object key not found: {sourceID}:{destinationID}"
    | .partNumber text => text

def python : Sdk where
  number := id
  difference := id
  remaining := id
  isHippius provider := provider.toList.flatMap lowerCase = hippius
  refusesKey key := key = ""
  partNumberFirst := false
  text sourceID chunkIndex
    | .source => s!"plan source not found: {sourceID}"
    | .range => s!"plan chunk outside source range: {sourceID}:{chunkIndex}"
    | .finalObjectKey destinationID => s!"plan final object key missing: {sourceID}:{destinationID}"
    | .partNumber text => text

def rust : Sdk where
  number := uint64
  -- checked_sub has no value where the exact difference is negative, which is outside every range.
  difference := id
  remaining n := max n 0
  isHippius provider := provider.toList.map Char.toLower = hippius
  refusesKey _ := false
  partNumberFirst := true
  text sourceID chunkIndex
    | .source => s!"plan source not found: {sourceID}"
    | .range => s!"plan chunk is outside source range: {sourceID}:{chunkIndex}"
    | .finalObjectKey destinationID =>
        s!"plan final object key not found: {sourceID}:{destinationID}"
    | .partNumber text => text

def sixDigits (n : ℤ) : String :=
  String.ofList (List.replicate (6 - (toString n).length) '0') ++ toString n

def chunkTarget (isHippius : String → Bool) (planNonce : String)
    (chunkIndex sourceChunkIndex deliveryIndex partNumber : ℤ) (finalObjectKey : String)
    (destination : CompactTransferPlanDestination) : ChunkDestinationSigningTarget where
  destinationID := destination.destinationID
  provider := destination.provider
  objectKey :=
    if isHippius destination.provider then
      s!"{finalObjectKey}/{planNonce}/chunk-{sixDigits sourceChunkIndex}"
    else finalObjectKey
  metadata :=
    (((((OrderedMap.set destination.metadata "final_object_key" (.string finalObjectKey)).set
    "part_number" (.number
      partNumber)).set "logical_attempt_index" (.number 0)).set "attempt_slot" (.number 0)).set
    "route_generation_id" (.string s!"initial-{chunkIndex}-{destination.destinationID}")).set
    "delivery_index" (.number deliveryIndex)

namespace Sdk
variable (sdk : Sdk) (descriptor : CompactTransferPlanDescriptor)

def partNumber (sourceChunkIndex : ℤ) : Except Failure ℤ :=
  match multipartPartNumber sourceChunkIndex 0 with
  | .error text => .error (.partNumber text)
  | .ok partNumber => .ok partNumber

def target (sourceID : String) (chunkIndex sourceChunkIndex : ℤ)
    (destination : CompactTransferPlanDestination) :
    Except Failure ChunkDestinationSigningTarget := do
  let some finalObjectKey := destination.finalObjectKeys.get sourceID
    | throw (.finalObjectKey destination.destinationID)
  if sdk.refusesKey finalObjectKey then throw (.finalObjectKey destination.destinationID)
  let deliveryIndex :=
    sdk.number (sdk.number (chunkIndex * descriptor.destinations.length) +
      destination.destinationIndex)
  let partNumber ← partNumber sourceChunkIndex
  pure (chunkTarget sdk.isHippius descriptor.planNonce chunkIndex sourceChunkIndex
    deliveryIndex partNumber
    finalObjectKey destination)

def materializePlanChunk (sourceID : String) (chunkIndex : ℤ) :
    Except Failure ChunkSigningPlanItem := do
  let some source := descriptor.sources.find? fun candidate => candidate.sourceID = sourceID
    | throw .source
  let sourceChunkIndex := sdk.difference (chunkIndex - source.globalChunkStart)
  if sourceChunkIndex < 0 ∨ source.chunkCount ≤ sourceChunkIndex then throw .range
  let sourceOffset := sdk.number (sourceChunkIndex * descriptor.chunkSize)
  let chunkSize := min descriptor.chunkSize (sdk.remaining (source.size - sourceOffset))
  if sdk.partNumberFirst then discard (partNumber sourceChunkIndex)
  let destinations ← descriptor.destinations.mapM
    (sdk.target descriptor sourceID chunkIndex sourceChunkIndex)
  pure { chunkIndex, sourceID, sourceChunkIndex, sourceOffset, chunkSize, sourceURL := source.url, destinations }

def chunkAt (source : CompactTransferPlanSource) (sourceChunkIndex : ℤ) :
    Except String ChunkSigningPlanItem :=
  let chunkIndex := sdk.number (source.globalChunkStart + sourceChunkIndex)
  match sdk.materializePlanChunk descriptor source.sourceID chunkIndex with
  | .error failure => .error (sdk.text source.sourceID chunkIndex failure)
  | .ok chunk => .ok chunk

end Sdk

structure PlanChunkIterator where
  sourceIndex : ℕ
  sourceChunkIndex : ℤ

def newPlanChunkIterator : PlanChunkIterator := ⟨0, 0⟩

namespace Sdk
variable (sdk : Sdk) (descriptor : CompactTransferPlanDescriptor)

/-- The loop of `next`, over the sources from `sourceIndex` on. -/
def nextFrom : List CompactTransferPlanSource → PlanChunkIterator →
    Except String (Option ChunkSigningPlanItem) × PlanChunkIterator
  | [], iterator => (.ok none, iterator)
  | source :: sources, iterator =>
    if source.chunkCount ≤ iterator.sourceChunkIndex then
      nextFrom sources ⟨iterator.sourceIndex + 1, 0⟩
    else ((sdk.chunkAt descriptor source iterator.sourceChunkIndex).map some,
      { iterator with sourceChunkIndex := iterator.sourceChunkIndex + 1 })

def next (iterator : PlanChunkIterator) : Except String (Option ChunkSigningPlanItem) ×
    PlanChunkIterator :=
  sdk.nextFrom descriptor (descriptor.sources.drop iterator.sourceIndex) iterator

def materializePlanChunks : Except String (List ChunkSigningPlanItem) := do
  let chunks ← descriptor.sources.mapM fun source =>
    (List.range source.chunkCount.toNat).mapM fun sourceChunkIndex : ℕ =>
      sdk.chunkAt descriptor source sourceChunkIndex
  pure chunks.flatten

end Sdk
end Beam.Plan
