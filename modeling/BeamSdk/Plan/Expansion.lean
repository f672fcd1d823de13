import Mathlib.Algebra.BigOperators.Group.List.Basic
import Mathlib.Algebra.Order.BigOperators.Group.List
import Mathlib.Data.List.Nodup
import BeamSdk.Library.Tiling
import BeamSdk.Plan.Materialize

/-! The plans BeamCore issues, the chunks of such a plan, and that every SDK expands it to these. -/

namespace Beam.Plan
open Tiling (count)

namespace CompactTransferPlanDescriptor
variable (d : CompactTransferPlanDescriptor)

def logicalChunkCount : ℤ := (d.sources.map (·.chunkCount)).sum

def deliveryRouteCount : ℤ := d.logicalChunkCount * d.destinations.length

end CompactTransferPlanDescriptor

def Contiguous : ℤ → List CompactTransferPlanSource → Prop
  | _, [] => True
  | start, source :: sources =>
      source.globalChunkStart = start ∧ Contiguous (start + source.chunkCount) sources

/-- A plan as BeamCore issues it. The destinations need not be listed by their indexes. -/
structure WellFormed (d : CompactTransferPlanDescriptor) : Prop where
  chunkSize_pos : 0 < d.chunkSize
  chunkSize_lt : d.chunkSize < 2 ^ 53
  ids : (d.sources.map (·.sourceID)).Nodup
  sizes : ∀ source ∈ d.sources, 0 ≤ source.size ∧ source.size < 2 ^ 53
  counts : ∀ source ∈ d.sources, source.chunkCount = count source.size d.chunkSize ∧
    source.chunkCount ≤ 10000
  starts : Contiguous 0 d.sources
  indexes : (d.destinations.map (·.destinationIndex)).Perm
    ((List.range d.destinations.length).map (↑))
  keys : ∀ destination ∈ d.destinations, ∀ source ∈ d.sources,
    ∃ key, destination.finalObjectKeys.get source.sourceID = some key ∧ key ≠ ""
  chunks_lt : d.logicalChunkCount < 2 ^ 53
  routes_lt : d.deliveryRouteCount < 2 ^ 53

def planItem (isHippius : String → Bool) (d : CompactTransferPlanDescriptor)
    (source : CompactTransferPlanSource)
    (i : ℕ) : ChunkSigningPlanItem where
  chunkIndex := source.globalChunkStart + i
  sourceID := source.sourceID
  sourceChunkIndex := i
  sourceOffset := i * d.chunkSize
  chunkSize := min d.chunkSize (source.size - i * d.chunkSize)
  sourceURL := source.url
  destinations := d.destinations.map fun destination =>
    chunkTarget isHippius d.planNonce (source.globalChunkStart + i) i
      ((source.globalChunkStart + i) * d.destinations.length + destination.destinationIndex) (i + 1)
      ((destination.finalObjectKeys.get source.sourceID).getD "") destination

def itemsOf (isHippius : String → Bool) (d : CompactTransferPlanDescriptor)
    (sources : List CompactTransferPlanSource) : List ChunkSigningPlanItem :=
  sources.flatMap fun source =>
    (List.range source.chunkCount.toNat).map (planItem isHippius d source)

def planItems (isHippius : String → Bool) (d : CompactTransferPlanDescriptor) :
    List ChunkSigningPlanItem :=
  itemsOf isHippius d d.sources

section Places
variable {d : CompactTransferPlanDescriptor} {source : CompactTransferPlanSource}

theorem WellFormed.chunkCount_nonneg (h : WellFormed d) (hsource : source ∈ d.sources) :
    0 ≤ source.chunkCount := by
  rw [(h.counts source hsource).1]
  exact Tiling.count_nonneg (h.sizes source hsource).1 h.chunkSize_pos

theorem Contiguous.bounds {sources : List CompactTransferPlanSource} {start : ℤ}
    (h : Contiguous start sources)
    (hcounts : ∀ source ∈ sources, 0 ≤ source.chunkCount) (hsource : source ∈ sources) :
    start ≤ source.globalChunkStart ∧
      source.globalChunkStart + source.chunkCount ≤ start + (sources.map (·.chunkCount)).sum := by
  induction sources generalizing start with
  | nil => cases hsource
  | cons first rest ih =>
    obtain ⟨hstart, hrest⟩ := h
    have hfirst := hcounts first List.mem_cons_self
    have hnonneg : 0 ≤ (rest.map (·.chunkCount)).sum := List.sum_nonneg fun n hn => by
      obtain ⟨other, hother, rfl⟩ := List.mem_map.mp hn
      exact hcounts other (List.mem_cons_of_mem _ hother)
    rw [List.map_cons, List.sum_cons]
    rcases List.mem_cons.mp hsource with rfl | hsource
    · constructor <;> linarith
    · obtain ⟨hlow, hhigh⟩ :=
        ih hrest (fun other hother => hcounts other (List.mem_cons_of_mem _ hother)) hsource
      constructor <;> linarith

theorem WellFormed.chunkIndex_bounds (h : WellFormed d) (hsource : source ∈ d.sources) {i : ℕ}
    (hi : (i : ℤ) < source.chunkCount) :
    0 ≤ source.globalChunkStart ∧ source.globalChunkStart + i < d.logicalChunkCount := by
  obtain ⟨hlow, hhigh⟩ := h.starts.bounds (fun _ hother => h.chunkCount_nonneg hother) hsource
  rw [zero_add] at hhigh
  exact ⟨hlow, by rw [CompactTransferPlanDescriptor.logicalChunkCount]; linarith⟩

theorem WellFormed.offset_lt (h : WellFormed d) (hsource : source ∈ d.sources) {i : ℕ}
    (hi : (i : ℤ) < source.chunkCount) : i * d.chunkSize < source.size := by
  rw [(h.counts source hsource).1] at hi
  exact (Tiling.lt_count h.chunkSize_pos i).mp hi

theorem WellFormed.destinationIndex_bounds (h : WellFormed d)
    {destination : CompactTransferPlanDestination}
    (hdestination : destination ∈ d.destinations) :
    0 ≤ destination.destinationIndex ∧ destination.destinationIndex < d.destinations.length := by
  have hmem := h.indexes.mem_iff.mp (List.mem_map_of_mem hdestination)
  obtain ⟨column, hcolumn, heq⟩ := List.mem_map.mp hmem
  have hlt := List.mem_range.mp hcolumn
  rw [← heq]
  exact ⟨Int.natCast_nonneg _, Int.ofNat_lt.mpr hlt⟩

theorem WellFormed.deliveryIndex_bounds (h : WellFormed d) (hsource : source ∈ d.sources) {i : ℕ}
    (hi : (i : ℤ) < source.chunkCount) {destination : CompactTransferPlanDestination}
    (hdestination : destination ∈ d.destinations) :
    0 ≤ (source.globalChunkStart + i) * d.destinations.length ∧
      (source.globalChunkStart + i) * d.destinations.length + destination.destinationIndex <
        d.deliveryRouteCount := by
  obtain ⟨hstart, hlt⟩ := h.chunkIndex_bounds hsource hi
  obtain ⟨hlow, hhigh⟩ := h.destinationIndex_bounds hdestination
  have hrow : (source.globalChunkStart + i + 1) * d.destinations.length ≤ d.deliveryRouteCount :=
    mul_le_mul_of_nonneg_right hlt (Int.natCast_nonneg _)
  exact ⟨by positivity, by linarith⟩

end Places

structure Exact (sdk : Sdk) : Prop where
  number : ∀ n, 0 ≤ n → n < 2 ^ 53 → sdk.number n = n
  difference : ∀ n, 0 ≤ n → n < 2 ^ 53 → sdk.difference n = n
  remaining : ∀ n, 0 ≤ n → n < 2 ^ 53 → sdk.remaining n = n
  acceptsKey : ∀ key, key ≠ "" → sdk.refusesKey key = false

theorem int64_eq (n : ℤ) (h : 0 ≤ n) (hlt : n < 2 ^ 53) : int64 n = n :=
  Int.bmod_eq_of_le (by norm_num; linarith) (by norm_num; linarith)

theorem uint64_eq (n : ℤ) (h : 0 ≤ n) (hlt : n < 2 ^ 53) : uint64 n = n :=
  Int.emod_eq_of_lt h (by linarith)

theorem double_eq (n : ℤ) (h : 0 ≤ n) (hlt : n < 2 ^ 53) : double n = n :=
  if_pos (by omega)

theorem go_exact : Exact go :=
  ⟨int64_eq, int64_eq, int64_eq, fun _ => decide_eq_false⟩

theorem typescript_exact : Exact typescript :=
  ⟨double_eq, double_eq, double_eq, fun _ => decide_eq_false⟩

theorem python_exact : Exact python :=
  ⟨fun _ _ _ => rfl, fun _ _ _ => rfl, fun _ _ _ => rfl, fun _ => decide_eq_false⟩

theorem rust_exact : Exact rust :=
  ⟨uint64_eq, fun _ _ _ => rfl, fun _ h _ => max_eq_left h, fun _ _ => rfl⟩

theorem multipartPartNumber_eq {i : ℕ} (h : (i : ℤ) < 10000) :
    multipartPartNumber i 0 = .ok (i + 1) := by
  have hmax : ¬ multipartMaxSourceChunks ≤ (i : ℤ) := not_le.mpr h
  rw [multipartPartNumber, if_neg (not_lt.mpr (Int.natCast_nonneg i)), if_neg hmax,
    if_neg (by decide)]

theorem find?_source {sources : List CompactTransferPlanSource}
    (h : (sources.map (·.sourceID)).Nodup)
    {source : CompactTransferPlanSource} (hsource : source ∈ sources) :
    (sources.find? fun candidate => candidate.sourceID = source.sourceID) = some source := by
  induction sources with
  | nil => cases hsource
  | cons first rest ih =>
    obtain ⟨hfirst, hrest⟩ := List.nodup_cons.mp h
    rcases List.mem_cons.mp hsource with rfl | hsource
    · exact List.find?_cons_of_pos (by simp)
    · rw [List.find?_cons_of_neg, ih hrest hsource]
      intro heq
      have hsame : first.sourceID = source.sourceID := of_decide_eq_true heq
      exact hfirst (List.mem_map.mpr ⟨source, hsource, hsame.symm⟩)

section Chunks
variable {sdk : Sdk} {d : CompactTransferPlanDescriptor}
    {source : CompactTransferPlanSource} {i : ℕ}

theorem partNumber_eq (h : WellFormed d) (hsource : source ∈ d.sources)
    (hi : (i : ℤ) < source.chunkCount) :
    Sdk.partNumber i = .ok (i + 1) := by
  rw [Sdk.partNumber, multipartPartNumber_eq (hi.trans_le (h.counts source hsource).2)]

theorem target_eq (hexact : Exact sdk) (h : WellFormed d) (hsource : source ∈ d.sources)
    (hi : (i : ℤ) < source.chunkCount) {destination : CompactTransferPlanDestination}
    (hdestination : destination ∈ d.destinations) :
    sdk.target d source.sourceID (source.globalChunkStart + i) i destination =
      .ok (chunkTarget sdk.isHippius d.planNonce (source.globalChunkStart + i) i
        ((source.globalChunkStart + i) * d.destinations.length + destination.destinationIndex)
          (i + 1)
        ((destination.finalObjectKeys.get source.sourceID).getD "") destination) := by
  obtain ⟨key, hkey, hne⟩ := h.keys destination hdestination source hsource
  obtain ⟨hrow, hroute⟩ := h.deliveryIndex_bounds hsource hi hdestination
  have hindex := (h.destinationIndex_bounds hdestination).1
  have hlt := h.routes_lt
  have hnumber := hexact.number _ hrow (by linarith)
  have hdelivery := hexact.number _ (add_nonneg hrow hindex) (by linarith)
  simp only [Sdk.target, hkey, hexact.acceptsKey key hne, hnumber, hdelivery,
    partNumber_eq h hsource hi,
    Option.getD_some, Bool.false_eq_true, if_false]
  rfl

theorem materializePlanChunk_eq (hexact : Exact sdk) (h : WellFormed d)
    (hsource : source ∈ d.sources)
    (hi : (i : ℤ) < source.chunkCount) :
    sdk.materializePlanChunk d source.sourceID (source.globalChunkStart + i) =
      .ok (planItem sdk.isHippius d source i) := by
  have hsize := h.sizes source hsource
  have hoffset := h.offset_lt hsource hi
  have hpos := h.chunkSize_pos
  have hoffset' : 0 ≤ i * d.chunkSize := by positivity
  have hi' : (i : ℤ) < 2 ^ 53 := hi.trans_le ((h.counts source hsource).2.trans (by norm_num))
  have hdifference := hexact.difference i (Int.natCast_nonneg i) hi'
  have hnumber := hexact.number _ hoffset' (hoffset.trans hsize.2)
  have hremaining := hexact.remaining (source.size - i * d.chunkSize) (by linarith) (by linarith)
  have hrange : ¬ ((i : ℤ) < 0 ∨ source.chunkCount ≤ i) := by
    rintro (hlow | hhigh)
    · exact absurd (Int.natCast_nonneg i) (not_le.mpr hlow)
    · exact absurd hi (not_lt.mpr hhigh)
  have htargets := mapM_eq_pure (m := Except Failure) fun _ hdestination =>
    target_eq hexact h hsource hi hdestination
  simp only [Sdk.materializePlanChunk, find?_source h.ids hsource, add_sub_cancel_left, hdifference,
    if_neg hrange,
    hnumber, hremaining, partNumber_eq h hsource hi, htargets]
  cases sdk.partNumberFirst <;> rfl

theorem chunkAt_eq (hexact : Exact sdk) (h : WellFormed d) (hsource : source ∈ d.sources)
    (hi : (i : ℤ) < source.chunkCount) : sdk.chunkAt d source i =
      .ok (planItem sdk.isHippius d source i) := by
  obtain ⟨hstart, hchunk⟩ := h.chunkIndex_bounds hsource hi
  have hlt := h.chunks_lt
  have hnumber := hexact.number (source.globalChunkStart + i) (by positivity) (by linarith)
  simp only [Sdk.chunkAt, hnumber, materializePlanChunk_eq hexact h hsource hi]

end Chunks

section Runs
variable {sdk : Sdk} {d : CompactTransferPlanDescriptor}

theorem materializePlanChunks_eq (hexact : Exact sdk) (h : WellFormed d) :
    sdk.materializePlanChunks d = .ok (planItems sdk.isHippius d) := by
  have hsource : ∀ source ∈ d.sources,
      ((List.range source.chunkCount.toNat).mapM fun i : ℕ => sdk.chunkAt d source i) =
        pure ((List.range source.chunkCount.toNat).map (planItem sdk.isHippius d source)) := by
    intro source hsource
    refine mapM_eq_pure fun i hi => chunkAt_eq hexact h hsource ?_
    exact Int.lt_toNat.mp (List.mem_range.mp hi)
  rw [Sdk.materializePlanChunks, mapM_eq_pure hsource]
  rfl

theorem next_skip {iterator : PlanChunkIterator} {source : CompactTransferPlanSource}
    {rest : List CompactTransferPlanSource}
    (hdrop : d.sources.drop iterator.sourceIndex = source :: rest)
    (hdone : source.chunkCount ≤ iterator.sourceChunkIndex) :
    sdk.next d iterator = sdk.next d ⟨iterator.sourceIndex + 1, 0⟩ := by
  have hrest : d.sources.drop (iterator.sourceIndex + 1) = rest := by
    rw [← List.drop_drop, hdrop]
    rfl
  rw [Sdk.next, Sdk.next, hdrop, hrest, Sdk.nextFrom, if_pos hdone]

theorem next_item (hexact : Exact sdk) (h : WellFormed d) {j i : ℕ}
    {source : CompactTransferPlanSource}
    {rest : List CompactTransferPlanSource} (hdrop : d.sources.drop j = source :: rest)
    (hi : (i : ℤ) < source.chunkCount) :
    sdk.next d ⟨j, i⟩ = (.ok (some (planItem sdk.isHippius d source i)), ⟨j, (i + 1 : ℕ)⟩) := by
  have hsource : source ∈ d.sources := List.mem_of_mem_drop (hdrop ▸ List.mem_cons_self)
  rw [Sdk.next, hdrop, Sdk.nextFrom, if_neg (not_le.mpr hi), chunkAt_eq hexact h hsource hi]
  rfl

theorem drains_from (hexact : Exact sdk) (h : WellFormed d)
    (rest : List CompactTransferPlanSource) (j : ℕ)
    (hdrop : d.sources.drop j = rest) : Drains (sdk.next d) ⟨j, 0⟩
      (itemsOf sdk.isHippius d rest) := by
  induction rest generalizing j with
  | nil => exact .nil (by rw [Sdk.next, hdrop, Sdk.nextFrom])
  | cons source rest ih =>
    have hsource : source ∈ d.sources := List.mem_of_mem_drop (hdrop ▸ List.mem_cons_self)
    have hcount : ((source.chunkCount.toNat : ℕ) : ℤ) = source.chunkCount :=
      Int.toNat_of_nonneg (h.chunkCount_nonneg hsource)
    have hnext : d.sources.drop (j + 1) = rest := by
      rw [← List.drop_drop, hdrop]
      rfl
    -- The chunks of the source from the one the iterator has come to.
    have hwithin : ∀ n i : ℕ, i + n = source.chunkCount.toNat →
        Drains (sdk.next d) ⟨j, i⟩
          ((List.range' i n).map (planItem sdk.isHippius d source) ++
            itemsOf sdk.isHippius d rest) := by
      intro n
      induction n with
      | zero =>
        intro i hi
        have hdone : source.chunkCount ≤ (i : ℤ) := by
          rw [← hcount, ← hi]
          rfl
        exact .of_next_eq (next_skip hdrop hdone) (ih (j + 1) hnext)
      | succ n ihn =>
        intro i hi
        have hlt : (i : ℤ) < source.chunkCount := by
          rw [← hcount, ← hi]
          push_cast
          linarith
        exact .cons (next_item hexact h hdrop hlt) (ihn (i + 1) (by omega))
    have hall := hwithin source.chunkCount.toNat 0 (zero_add _)
    rwa [← List.range_eq_range'] at hall

theorem drains (hexact : Exact sdk) (h : WellFormed d) :
    Drains (sdk.next d) newPlanChunkIterator (planItems sdk.isHippius d) :=
  drains_from hexact h d.sources 0 rfl

end Runs
end Beam.Plan
