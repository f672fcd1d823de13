import BeamSdk.Plan.Expansion
import BeamSdk.Library.Result

/-! The read ranges that the Go SDK signs for an integrity audit, and where they lie in the planned
chunk they name. -/

namespace Beam.Plan

structure IntegrityAuditChallengeChunk where
  sourceID : String
  destinationID : String
  routeChunkIndex : ℤ
  deliveryIndex : ℤ
  sourceOffset : ℤ
  destinationOffset : ℤ
  rangeLength : ℤ
  finalObjectKey : String

structure IntegrityAuditChallenge where
  transferID : String
  chunks : List IntegrityAuditChallengeChunk

/-- A prepared transfer, with the sources and destinations that are configured for it. -/
structure ProviderTransferSession where
  transferID : String
  planDescriptor : CompactTransferPlanDescriptor
  sources : List String
  destinations : List String

structure ReadRange where
  first : ℤ
  last : ℤ
  deriving DecidableEq

def rangeHeaderForRange (offset length : ℤ) : ReadRange :=
  let start := max offset 0
  let size := max length 1
  ⟨start, int64 (int64 (start + size) - 1)⟩

def exactIntegerValue : Option Json → ℤ
  | some (.number value) => value.floor
  | _ => 0

namespace ProviderTransferSession
variable (session : ProviderTransferSession) (challenge : IntegrityAuditChallenge)
    (chunk : IntegrityAuditChallengeChunk)

def signedRanges : Except String (ReadRange × ReadRange) := do
  match go.materializePlanChunk session.planDescriptor chunk.sourceID chunk.routeChunkIndex with
  | .error _ =>
      throw s!"plan chunk is outside source range: {chunk.sourceID}:{chunk.routeChunkIndex}"
  | .ok planChunk =>
    if chunk.sourceOffset < planChunk.sourceOffset ∨
        int64 (planChunk.sourceOffset + planChunk.chunkSize) <
          int64 (chunk.sourceOffset + chunk.rangeLength) then
      throw "integrity audit source range is outside the planned chunk"
    let target := planChunk.destinations.find? fun candidate =>
      candidate.destinationID = chunk.destinationID ∧
        exactIntegerValue (candidate.metadata.get "delivery_index") = chunk.deliveryIndex
    if Json.text (target.bind fun target => target.metadata.get "final_object_key") ≠
      some chunk.finalObjectKey then
      throw "integrity audit destination coordinate mismatch"
    if chunk.destinationOffset ≠ chunk.sourceOffset then
      throw "integrity audit destination range mismatch"
    if chunk.sourceID ∉ session.sources ∨ chunk.destinationID ∉ session.destinations then
      throw "integrity audit provider configuration is unavailable"
    pure (rangeHeaderForRange chunk.sourceOffset chunk.rangeLength,
      rangeHeaderForRange chunk.destinationOffset chunk.rangeLength)

def Signs (range : ReadRange) : Prop :=
  challenge.transferID = session.transferID ∧ chunk ∈ challenge.chunks ∧
    ∃ ranges, session.signedRanges chunk = .ok ranges ∧ (range = ranges.1 ∨ range = ranges.2)

end ProviderTransferSession

def FitsInt64 (n : ℤ) : Prop := -2 ^ 63 ≤ n ∧ n < 2 ^ 63

instance (n : ℤ) : Decidable (FitsInt64 n) := inferInstanceAs (Decidable (_ ∧ _))

theorem int64_of_fits {n : ℤ} (h : FitsInt64 n) : int64 n = n := by
  obtain ⟨hlow, hhigh⟩ := h
  exact Int.bmod_eq_of_le (by norm_num; linarith) (by norm_num; linarith)

namespace CompactTransferPlanDescriptor
variable (descriptor : CompactTransferPlanDescriptor)

def sourceOf (sourceID : String) : Option CompactTransferPlanSource :=
  descriptor.sources.find? fun candidate => candidate.sourceID = sourceID

def chunkStart (source : CompactTransferPlanSource) (chunkIndex : ℤ) : ℤ :=
  (chunkIndex - source.globalChunkStart) * descriptor.chunkSize

def chunkEnd (source : CompactTransferPlanSource) (chunkIndex : ℤ) : ℤ :=
  descriptor.chunkStart source chunkIndex +
    min descriptor.chunkSize (source.size - descriptor.chunkStart source chunkIndex)

end CompactTransferPlanDescriptor

namespace IntegrityAuditChallengeChunk
variable (descriptor : CompactTransferPlanDescriptor) (chunk : IntegrityAuditChallengeChunk)

structure PlanFits (source : CompactTransferPlanSource) : Prop where
  index : FitsInt64 (chunk.routeChunkIndex - source.globalChunkStart)
  start : FitsInt64 (descriptor.chunkStart source chunk.routeChunkIndex)
  remaining : FitsInt64 (source.size - descriptor.chunkStart source chunk.routeChunkIndex)
  stop : FitsInt64 (descriptor.chunkEnd source chunk.routeChunkIndex)

/-- The range is a non-empty interval inside the chunk named, and nothing overflows on the way to
it. -/
structure Inside (range : ReadRange) (source : CompactTransferPlanSource) : Prop where
  named : descriptor.sourceOf chunk.sourceID = some source
  first : descriptor.chunkStart source chunk.routeChunkIndex ≤ range.first
  nonempty : range.first ≤ range.last
  last : range.last < descriptor.chunkEnd source chunk.routeChunkIndex
  plan : PlanFits descriptor chunk source
  bound : FitsInt64 (chunk.sourceOffset + chunk.rangeLength)
  header : FitsInt64 (max chunk.sourceOffset 0 + max chunk.rangeLength 1)

/-- The planned chunk and the end of the challenged range fit into 64 bits, and the range has a
length or starts before the chunk ends. -/
structure Bounded (source : CompactTransferPlanSource) : Prop where
  plan : PlanFits descriptor chunk source
  bound : FitsInt64 (chunk.sourceOffset + chunk.rangeLength)
  length : 1 ≤ chunk.rangeLength ∨
    chunk.sourceOffset < descriptor.chunkEnd source chunk.routeChunkIndex

end IntegrityAuditChallengeChunk

variable {session : ProviderTransferSession} {challenge : IntegrityAuditChallenge}
    {chunk : IntegrityAuditChallengeChunk}
  {descriptor : CompactTransferPlanDescriptor} {source : CompactTransferPlanSource}
    {planChunk : ChunkSigningPlanItem}
  {range : ReadRange}

theorem materialized_numbers
    (h : go.materializePlanChunk descriptor chunk.sourceID chunk.routeChunkIndex = .ok planChunk) :
    ∃ source, descriptor.sourceOf chunk.sourceID = some source ∧
      0 ≤ int64 (chunk.routeChunkIndex - source.globalChunkStart) ∧
      planChunk.sourceOffset =
        int64 (int64 (chunk.routeChunkIndex - source.globalChunkStart) * descriptor.chunkSize) ∧
      planChunk.chunkSize = min descriptor.chunkSize
        (int64 (source.size - planChunk.sourceOffset)) := by
  unfold Sdk.materializePlanChunk at h
  cases hsource : descriptor.sources.find? fun candidate => candidate.sourceID = chunk.sourceID with
  | none =>
    simp only [hsource] at h
    cases h
  | some source =>
    simp only [hsource] at h
    obtain ⟨hrange, h⟩ := guard_eq_ok.mp h
    have hindex : 0 ≤ int64 (chunk.routeChunkIndex - source.globalChunkStart) :=
      not_lt.mp fun hneg => hrange (.inl hneg)
    obtain ⟨_, -, h⟩ := bind_eq_ok.mp h
    obtain ⟨destinations, -, h⟩ := bind_eq_ok.mp h
    obtain rfl := Except.ok.inj h
    exact ⟨source, hsource, hindex, rfl, rfl⟩

theorem signed_checks {ranges : ReadRange × ReadRange}
    (h : session.signedRanges chunk = .ok ranges) :
    ∃ planChunk,
      go.materializePlanChunk session.planDescriptor chunk.sourceID chunk.routeChunkIndex =
        .ok planChunk ∧
      planChunk.sourceOffset ≤ chunk.sourceOffset ∧
      int64 (chunk.sourceOffset + chunk.rangeLength) ≤
        int64 (planChunk.sourceOffset + planChunk.chunkSize) ∧
      ranges.1 = rangeHeaderForRange chunk.sourceOffset chunk.rangeLength ∧
      ranges.2 = rangeHeaderForRange chunk.sourceOffset chunk.rangeLength := by
  unfold ProviderTransferSession.signedRanges at h
  split at h
  · cases h
  · rename_i planChunk hchunk
    obtain ⟨hbounds, h⟩ := guard_eq_ok.mp h
    obtain ⟨-, h⟩ := guard_eq_ok.mp h
    obtain ⟨hdestination, h⟩ := guard_eq_ok.mp h
    obtain ⟨-, h⟩ := guard_eq_ok.mp h
    obtain rfl := Except.ok.inj h
    have hsame : chunk.destinationOffset = chunk.sourceOffset := not_not.mp hdestination
    obtain ⟨hfirst, hlast⟩ := not_or.mp hbounds
    exact ⟨planChunk, hchunk, not_lt.mp hfirst, not_lt.mp hlast, rfl, by rw [hsame]⟩

theorem planned_exact (hfits : chunk.PlanFits descriptor source)
    (hoffset : planChunk.sourceOffset =
      int64 (int64 (chunk.routeChunkIndex - source.globalChunkStart) * descriptor.chunkSize))
    (hsize : planChunk.chunkSize = min descriptor.chunkSize
      (int64 (source.size - planChunk.sourceOffset))) :
    planChunk.sourceOffset = descriptor.chunkStart source chunk.routeChunkIndex ∧
      int64 (planChunk.sourceOffset + planChunk.chunkSize) =
        descriptor.chunkEnd source chunk.routeChunkIndex := by
  have hstart : planChunk.sourceOffset = descriptor.chunkStart source chunk.routeChunkIndex := by
    rw [hoffset, int64_of_fits hfits.index]
    exact int64_of_fits hfits.start
  refine ⟨hstart, ?_⟩
  rw [hsize, hstart, int64_of_fits hfits.remaining]
  exact int64_of_fits hfits.stop

theorem rangeHeader_exact {offset length : ℤ} (h : FitsInt64 (max offset 0 + max length 1)) :
    rangeHeaderForRange offset length = ⟨max offset 0, max offset 0 + max length 1 - 1⟩ := by
  have hfirst : 0 ≤ max offset 0 := le_max_right _ _
  have hsize : 1 ≤ max length 1 := le_max_right _ _
  have hlast : FitsInt64 (max offset 0 + max length 1 - 1) := by
    obtain ⟨-, hhigh⟩ := h
    exact ⟨by linarith, by linarith⟩
  unfold rangeHeaderForRange
  dsimp only
  rw [int64_of_fits h, int64_of_fits hlast]

theorem inside_of_bounded (hnamed : descriptor.sourceOf chunk.sourceID = some source)
    (hindex : 0 ≤ chunk.routeChunkIndex - source.globalChunkStart)
    (hfirst : descriptor.chunkStart source chunk.routeChunkIndex ≤ chunk.sourceOffset)
    (hlast : chunk.sourceOffset + chunk.rangeLength ≤
      descriptor.chunkEnd source chunk.routeChunkIndex)
    (h : chunk.Bounded descriptor source) :
    chunk.Inside descriptor (rangeHeaderForRange chunk.sourceOffset chunk.rangeLength) source := by
  -- a range that has a place in the chunk shows that the chunk is not empty
  have hinside : chunk.sourceOffset < descriptor.chunkEnd source chunk.routeChunkIndex := by
    rcases h.length with hlength | hbefore
    · linarith
    · exact hbefore
  have hsize : 0 < descriptor.chunkSize := by
    have hle : descriptor.chunkEnd source chunk.routeChunkIndex ≤
        descriptor.chunkStart source chunk.routeChunkIndex + descriptor.chunkSize :=
      Int.add_le_add_left (min_le_left _ _) _
    linarith
  have hstart : 0 ≤ descriptor.chunkStart source chunk.routeChunkIndex := mul_nonneg hindex hsize.le
  have hoffset : max chunk.sourceOffset 0 = chunk.sourceOffset := max_eq_left (hstart.trans hfirst)
  have hend : chunk.sourceOffset + max chunk.rangeLength 1 ≤
      descriptor.chunkEnd source chunk.routeChunkIndex := by
    rcases max_cases chunk.rangeLength 1 with ⟨heq, -⟩ | ⟨heq, -⟩
    · rw [heq]
      exact hlast
    · rw [heq]
      linarith
  have hlength : 1 ≤ max chunk.rangeLength 1 := le_max_right _ _
  have hfits : FitsInt64 (max chunk.sourceOffset 0 + max chunk.rangeLength 1) := by
    rw [hoffset]
    exact ⟨by linarith, hend.trans_lt h.plan.stop.2⟩
  rw [rangeHeader_exact hfits, hoffset]
  exact ⟨hnamed, hfirst, by linarith, by linarith, h.plan, h.bound, hfits⟩

/-- A range signed for an audit is an interval inside the planned chunk it names, computed without
overflow, exactly where the planned chunk and the end of the challenged range fit into 64 bits and
the range has a length or starts before the chunk ends. -/
theorem signs_inside_iff (h : session.Signs challenge chunk range) :
    (∃ source, chunk.Inside session.planDescriptor range source) ↔
      ∃ source, session.planDescriptor.sourceOf chunk.sourceID = some source ∧
        chunk.Bounded session.planDescriptor source := by
  obtain ⟨-, -, ranges, hranges, hrange⟩ := h
  obtain ⟨planChunk, hchunk, hfirst, hlast, hsource, hdestination⟩ := signed_checks hranges
  have hheader : range = rangeHeaderForRange chunk.sourceOffset chunk.rangeLength := by
    rcases hrange with hrange | hrange
    · exact hrange.trans hsource
    · exact hrange.trans hdestination
  obtain ⟨source, hnamed, hindex, hoffset, hsize⟩ := materialized_numbers hchunk
  constructor
  · rintro ⟨source, hinside⟩
    refine ⟨source, hinside.named, hinside.plan, hinside.bound, ?_⟩
    by_contra hnot
    obtain ⟨-, hpast⟩ := not_or.mp hnot
    -- the range starts at the source offset, or after it
    have hstart : chunk.sourceOffset ≤ range.first := by
      rw [hheader]
      exact le_max_left _ _
    have hinside' := hinside.nonempty.trans_lt hinside.last
    exact hpast (hstart.trans_lt hinside')
  · rintro ⟨source', hnamed', hbounded⟩
    obtain rfl : source = source' := Option.some.inj (hnamed.symm.trans hnamed')
    obtain ⟨hstart, hend⟩ := planned_exact hbounded.plan hoffset hsize
    rw [int64_of_fits hbounded.plan.index] at hindex
    rw [hstart] at hfirst
    rw [hend, int64_of_fits hbounded.bound] at hlast
    exact ⟨source, hheader ▸ inside_of_bounded hnamed hindex hfirst hlast hbounded⟩

def sampleSession : ProviderTransferSession where
  transferID := "transfer"
  planDescriptor :=
    { planNonce := "nonce"
      chunkSize := 64
      sources := [⟨"source", "https://source.example/file", 100, 0, 2⟩]
      destinations := [⟨"destination", "s3", [], 0, [("source", "key")]⟩] }
  sources := ["source"]
  destinations := ["destination"]

def sampleChunk (offset length : ℤ) : IntegrityAuditChallengeChunk where
  sourceID := "source"
  destinationID := "destination"
  routeChunkIndex := 0
  deliveryIndex := 0
  sourceOffset := offset
  destinationOffset := offset
  rangeLength := length
  finalObjectKey := "key"

theorem sample_signs : sampleSession.Signs ⟨"transfer", [sampleChunk 0 16]⟩ (sampleChunk 0 16)
    ⟨0, 15⟩ := by
  have hranges : sampleSession.signedRanges (sampleChunk 0 16) = .ok (⟨0, 15⟩, ⟨0, 15⟩) := by decide
  exact ⟨rfl, List.mem_singleton.mpr rfl, _, hranges, .inl rfl⟩

/-- No bytes from the end of the first chunk on are signed as the first byte of the second. -/
theorem sample_beyond : sampleSession.Signs ⟨"transfer", [sampleChunk 64 0]⟩
    (sampleChunk 64 0) ⟨64, 64⟩ ∧
    ¬ ∃ source, (sampleChunk 64 0).Inside sampleSession.planDescriptor ⟨64, 64⟩ source := by
  have hranges : sampleSession.signedRanges (sampleChunk 64 0) = .ok (⟨64, 64⟩, ⟨64, 64⟩) := by
    decide
  refine ⟨⟨rfl, List.mem_singleton.mpr rfl, _, hranges, .inl rfl⟩, ?_⟩
  rintro ⟨source, hinside⟩
  cases hinside.named
  exact absurd hinside.last (by decide)

theorem sample_within : ∃ source,
    (sampleChunk 0 16).Inside sampleSession.planDescriptor ⟨0, 15⟩ source := by
  refine (signs_inside_iff sample_signs).mpr ⟨_, rfl, ⟨?_, ?_, ?_, ?_⟩, ?_, ?_⟩
  all_goals decide

end Beam.Plan
