import Mathlib.Algebra.BigOperators.Ring.Finset
import Mathlib.Data.List.Perm.Subperm
import Mathlib.Data.List.Range
import BeamSdk.Go.Sender

/-! A route stream that completes is exact: its batches went out one after another, and together
they carry every route of the stream once. -/

namespace Beam.Go
variable {sha256 : String → BitVec 256}

namespace RouteKeysChecksum

theorem combine_zero (c : RouteKeysChecksum) : c.combine .zero = c := by
  simp [combine, zero]

theorem combine_add (c c' : RouteKeysChecksum) (routeKey : String) :
    c.combine (c'.add sha256 routeKey) = (c.combine c').add sha256 routeKey := by
  simp [combine, add, BitVec.xor_assoc, Nat.add_assoc]

end RouteKeysChecksum

theorem checksumForRoutes_snoc (routes : List SignedChunkRoute) (route : SignedChunkRoute) :
    checksumForRoutes sha256 (routes ++ [route]) =
      (checksumForRoutes sha256 routes).add sha256 (routeKeyForSignedRoute route) := by
  rw [checksumForRoutes, List.foldl_append]
  rfl

theorem checksumForRoutes_append (routes others : List SignedChunkRoute) :
    checksumForRoutes sha256 (routes ++ others) =
      (checksumForRoutes sha256 routes).combine (checksumForRoutes sha256 others) := by
  induction others using List.reverseRecOn with
  | nil =>
    rw [List.append_nil]
    exact (RouteKeysChecksum.combine_zero _).symm
  | append_singleton others route ih =>
    rw [← List.append_assoc, checksumForRoutes_snoc, ih, checksumForRoutes_snoc,
      RouteKeysChecksum.combine_add]

def combined (sha256 : String → BitVec 256) (items : List ScheduledChunk) : RouteKeysChecksum :=
  items.foldl (fun c item => c.combine (checksumForRoutes sha256 item.routes)) .zero

theorem combined_eq (items : List ScheduledChunk) :
    combined sha256 items = checksumForRoutes sha256 (items.flatMap (·.routes)) := by
  induction items using List.reverseRecOn with
  | nil => rfl
  | append_singleton items item ih =>
    have hlast : combined sha256 (items ++ [item]) =
        (combined sha256 items).combine (checksumForRoutes sha256 item.routes) := by
      rw [combined, List.foldl_append]
      rfl
    rw [hlast, ih, List.flatMap_append, List.flatMap_singleton, checksumForRoutes_append]

def Indexed (route : SignedChunkRoute) : Prop :=
  route.deliveryIndex ≠ none ∧ signedRouteDeliveryIndex route = route.deliveryIndex

theorem compactDeliveryIndex_eq {route : SignedChunkRoute} (h : Indexed route) (routeIndex : ℕ) :
    some (compactDeliveryIndex routeIndex route) = signedRouteDeliveryIndex route := by
  obtain ⟨deliveryIndex, hindex⟩ := Option.ne_none_iff_exists'.mp h.1
  rw [h.2, compactDeliveryIndex, hindex]

theorem addRoute_routes (batch : CompactBatch) (route : SignedChunkRoute) :
    ∃ sourceRef, (batch.addRoute route).routes = batch.routes ++
      [compactRoute sourceRef batch.routes.length route] := by
  unfold CompactBatch.addRoute
  split
  · exact ⟨_, rfl⟩
  · exact ⟨_, rfl⟩

theorem compactSignedRoutes_snoc (routes : List SignedChunkRoute) (route : SignedChunkRoute) :
    compactSignedRoutes (routes ++ [route]) = (compactSignedRoutes routes).addRoute route := by
  rw [compactSignedRoutes, List.foldl_append]
  rfl

theorem compact_indexes {routes : List SignedChunkRoute} (h : ∀ route ∈ routes, Indexed route) :
    ((compactSignedRoutes routes).routes.map fun route => some route.deliveryIndex) =
      routes.map signedRouteDeliveryIndex := by
  induction routes using List.reverseRecOn with
  | nil => rfl
  | append_singleton routes route ih =>
    obtain ⟨sourceRef, hroutes⟩ := addRoute_routes (compactSignedRoutes routes) route
    have hlast := compactDeliveryIndex_eq (h route (by simp))
      (compactSignedRoutes routes).routes.length
    rw [compactSignedRoutes_snoc, hroutes, List.map_append, List.map_append,
      ih fun other hother => h other (List.mem_append_left _ hother), List.map_singleton,
        List.map_singleton, ← hlast]
    rfl

def pending : Option Sending → List ScheduledChunk
  | some (.loop scheduled) => scheduled
  | some (.waiting item scheduled) => item :: scheduled
  | _ => []

def broken : Option Sending → Prop
  | some (.done (some _)) => True
  | _ => False

namespace SenderRun
variable {st st' : SenderRun} {i : Step}

def exchanges (sha256 : String → BitVec 256) (s : RouteStreamSender) (acked : List ScheduledChunk) :
    List Event :=
  acked.flatMap fun item =>
    [.batch (s.batchPayload sha256 item), .acknowledged (s.batchPayload sha256 item)]

def outgoing (sha256 : String → BitVec 256) (s : RouteStreamSender) : List Event :=
  match s.sendTail with
  | some (.waiting item _) => [.batch (s.batchPayload sha256 item)]
  | _ => []

def taken (s : RouteStreamSender) (acked : List ScheduledChunk) : List SignedChunkRoute :=
  (acked ++ pending s.sendTail).flatMap (·.routes) ++ s.batch

structure Accounts (sha256 : String → BitVec 256) (s : RouteStreamSender)
    (acked : List ScheduledChunk) : Prop where
  batches : (acked ++ pending s.sendTail).map (·.batchIndex) = List.range s.batchIndex
  indexed : ∀ route ∈ taken s acked, Indexed route
  seen : (taken s acked).map signedRouteDeliveryIndex = s.seenDeliveryIndices.map some
  nodup : s.seenDeliveryIndices.Nodup
  bounds : ∀ deliveryIndex ∈ s.seenDeliveryIndices, 0 ≤ deliveryIndex ∧
    deliveryIndex < s.totalRoutes
  count : s.routeCount = (taken s acked).length
  checksum : s.checksum = checksumForRoutes sha256 (taken s acked)

structure Working (sha256 : String → BitVec 256) (st : SenderRun)
    (acked : List ScheduledChunk) : Prop where
  accounts : Accounts sha256 st.sender acked
  events : st.events = exchanges sha256 st.sender acked ++ outgoing sha256 st.sender
  whole : ¬ broken st.sender.sendTail
  caller : st.caller ≠ .completed ∧ ∀ error, st.caller ≠ .failed error
  total : st.caller = .completing ∨ st.caller = .finishing →
    (st.sender.routeCount : ℤ) = st.sender.totalRoutes
  empty : st.caller = .finishing → st.sender.batch = []

structure Broken (st : SenderRun) : Prop where
  failure : broken st.sender.sendTail ∨ ∃ error, st.caller = .failed error
  caller : st.caller ≠ .completed
  incomplete : ∀ payload, .complete payload ∉ st.events

/-- What a stream has sent when it completes: the batches, each acknowledged before the next, and
what they add up to. -/
structure Exact (sha256 : String → BitVec 256) (s : RouteStreamSender) (events : List Event)
    (payload : CompletePayload)
    (items : List ScheduledChunk) : Prop where
  events : events = exchanges sha256 s items ++ [.complete payload]
  batches : items.map (·.batchIndex) = List.range payload.expectedBatches
  indexes :
    (items.flatMap fun item =>
      (s.batchPayload sha256 item).routeBatch.routes.map (·.deliveryIndex)).Perm
    ((List.range s.totalRoutes.toNat).map (↑))
  coordinates : ∀ item ∈ items,
    ((s.batchPayload sha256 item).routeBatch.routes.map fun route => some route.deliveryIndex) =
      item.routes.map signedRouteDeliveryIndex
  routes : (items.map fun item => ((s.batchPayload sha256 item).routeCount : ℤ)).sum =
    payload.expectedRoutes
  total : payload.expectedRoutes = s.totalRoutes
  checksum : payload.routeKeysChecksum = (combined sha256 items).value

inductive Sound (sha256 : String → BitVec 256) (st : SenderRun) : Prop
  | working (acked : List ScheduledChunk) (h : Working sha256 st acked)
  | broken (h : Broken st)
  | completed (payload : CompletePayload) (items : List ScheduledChunk)
      (h : Exact sha256 st.sender st.events payload items) (hcaller : st.caller = .completed)
      (htail : st.sender.sendTail = none)

theorem incomplete_exchanges {s : RouteStreamSender} {acked : List ScheduledChunk}
    (payload : CompletePayload) :
    .complete payload ∉ exchanges sha256 s acked ++ outgoing sha256 s := by
  have hout : .complete payload ∉ outgoing sha256 s := by
    unfold outgoing
    split <;> simp
  simp [exchanges, hout]

theorem Working.incomplete {acked : List ScheduledChunk} (h : Working sha256 st acked)
    (payload : CompletePayload) :
    .complete payload ∉ st.events := by
  rw [h.events]
  exact incomplete_exchanges payload

theorem broken_fail (h : ∀ payload, .complete payload ∉ st.events) (error : String) :
    Broken (st.fail error) :=
  ⟨.inr ⟨error, rfl⟩, nofun, h⟩

theorem Sound.incomplete (h : Sound sha256 st) (hcaller : st.caller ≠ .completed)
    (payload : CompletePayload) :
    .complete payload ∉ st.events := by
  cases h with
  | working acked h => exact h.incomplete payload
  | broken h => exact h.incomplete payload
  | completed _ _ _ hcompleted _ => exact absurd hcompleted hcaller

theorem indexed_set {route : SignedChunkRoute} {deliveryIndex : ℤ}
    (h : signedRouteDeliveryIndex route = some deliveryIndex) :
    Indexed { route with deliveryIndex := some deliveryIndex } := by
  refine ⟨nofun, ?_⟩
  show (exactIntegerValue (route.unsigned.contains "delivery_index")
    (OrderedMap.get route.metadata "delivery_index")).or (some deliveryIndex) = some deliveryIndex
  unfold signedRouteDeliveryIndex at h
  cases hvalue : exactIntegerValue (route.unsigned.contains "delivery_index")
      (OrderedMap.get route.metadata "delivery_index") with
  | none => rfl
  | some value =>
    rw [hvalue, Option.some_or] at h
    rw [Option.some_or, h]

theorem Accounts.take {s : RouteStreamSender} {acked : List ScheduledChunk}
    (h : Accounts sha256 s acked)
    {route : SignedChunkRoute} {deliveryIndex : ℤ}
    (hindex : signedRouteDeliveryIndex route = some deliveryIndex)
    (hrange : 0 ≤ deliveryIndex ∧ deliveryIndex < s.totalRoutes)
    (hseen : deliveryIndex ∉ s.seenDeliveryIndices) :
    Accounts sha256 (s.take sha256 route deliveryIndex) acked := by
  have hindexed := indexed_set hindex
  have htaken : taken (s.take sha256 route deliveryIndex) acked =
      taken s acked ++ [{ route with deliveryIndex := some deliveryIndex }] := by
    rw [taken, taken, List.append_assoc]
    rfl
  refine ⟨h.batches, ?_, ?_, ?_, ?_, ?_, ?_⟩
  · rw [htaken]
    intro other hother
    rcases List.mem_append.mp hother with hother | hother
    · exact h.indexed other hother
    · rw [List.mem_singleton.mp hother]
      exact hindexed
  · rw [htaken, List.map_append, h.seen, List.map_singleton, hindexed.2]
    show _ ++ [some deliveryIndex] = (s.seenDeliveryIndices ++ [deliveryIndex]).map some
    rw [List.map_append, List.map_singleton]
  · refine List.nodup_append.mpr ⟨h.nodup, List.nodup_singleton _, fun a ha b hb => ?_⟩
    rw [List.mem_singleton.mp hb]
    rintro rfl
    exact hseen ha
  · intro other hother
    rcases List.mem_append.mp hother with hother | hother
    · exact h.bounds other hother
    · rw [List.mem_singleton.mp hother]
      exact hrange
  · rw [htaken, List.length_append, List.length_singleton, ← h.count]
    rfl
  · rw [htaken, checksumForRoutes_snoc, ← h.checksum]
    rfl

theorem addRoute_sound (h : Sound sha256 st) (hidle : st.caller = .idle)
    (route : SignedChunkRoute) :
    Sound sha256 (st.addRoute sha256 route) := by
  have hincomplete := h.incomplete (by rw [hidle]; exact nofun)
  unfold addRoute
  dsimp only
  split
  · exact .broken (broken_fail hincomplete _)
  · rename_i deliveryIndex hindex
    split
    · exact .broken (broken_fail hincomplete _)
    · rename_i hrange
      push Not at hrange
      split
      · exact .broken (broken_fail hincomplete _)
      · rename_i hseen
        have hcaller : ∀ n : ℕ, ∃ caller,
            (if routeStreamBatchRoutes ≤ n then Caller.adding else .idle) = caller ∧
            caller ≠ .completed ∧ (∀ error, caller ≠ .failed error) ∧ caller ≠ .completing ∧
              caller ≠ .finishing := by
          intro n
          refine ⟨_, rfl, ?_⟩
          split <;> exact ⟨nofun, nofun, nofun, nofun⟩
        obtain ⟨caller, heq, hcompleted, hfailed, hcompleting, hfinishing⟩ :=
          hcaller (st.sender.take sha256 route deliveryIndex).batch.length
        rw [heq]
        cases h with
        | broken h =>
          rcases h.failure with hbroken | ⟨error, herror⟩
          · exact .broken ⟨.inl hbroken, hcompleted, h.incomplete⟩
          · exact absurd (hidle.symm.trans herror) nofun
        | completed _ _ _ hdone _ => exact absurd (hidle.symm.trans hdone) nofun
        | working acked h =>
          refine .working acked ⟨h.accounts.take hindex hrange hseen, h.events, h.whole,
            ⟨hcompleted, hfailed⟩, ?_, ?_⟩
          · exact fun hwaiting => hwaiting.elim (fun h => absurd h hcompleting) fun h =>
              absurd h hfinishing
          · exact fun h => absurd h hfinishing

theorem complete_sound (h : Sound sha256 st) (hidle : st.caller = .idle) :
    Sound sha256 st.complete := by
  have hincomplete := h.incomplete (by rw [hidle]; exact nofun)
  unfold complete
  dsimp only
  split
  · exact .broken (broken_fail hincomplete _)
  · rename_i hcounts
    push Not at hcounts
    cases h with
    | broken h =>
      rcases h.failure with hbroken | ⟨error, herror⟩
      · refine .broken ⟨.inl hbroken, ?_, h.incomplete⟩
        dsimp only
        split <;> exact nofun
      · exact absurd (hidle.symm.trans herror) nofun
    | completed _ _ _ hcompleted _ => exact absurd (hidle.symm.trans hcompleted) nofun
    | working acked h =>
      refine .working acked ⟨h.accounts, h.events, h.whole, ?_, fun _ => hcounts.1, ?_⟩
      · dsimp only
        split <;> exact ⟨nofun, nofun⟩
      · intro hfinishing
        by_contra hbatch
        rw [if_neg hbatch] at hfinishing
        cases hfinishing

variable (sha256) in
theorem waitForPendingSend_cases {s s' : RouteStreamSender} {error : Option String}
    (h : s.waitForPendingSend = some (s', error)) :
    s' = { s with sendTail := none } ∧ pending s.sendTail = [] ∧ outgoing sha256 s = [] ∧
      (broken s.sendTail ↔ error ≠ none) := by
  unfold RouteStreamSender.waitForPendingSend at h
  split at h
  · rename_i htail
    cases h
    refine ⟨?_,
      by
        rw [htail]; rfl, by
        rw [outgoing, htail], by rw [htail]; exact ⟨nofun, fun h => absurd rfl h⟩⟩
    rw [← htail]
  · rename_i htail
    cases h
    refine ⟨rfl, by rw [htail]; rfl, by rw [outgoing, htail], ?_⟩
    rw [htail]
    cases error with
    | none => exact ⟨nofun, fun h => absurd rfl h⟩
    | some error => exact ⟨fun _ => nofun, fun _ => trivial⟩
  · cases h

theorem taken_waited {s : RouteStreamSender} (acked : List ScheduledChunk)
    (h : pending s.sendTail = []) :
    taken { s with sendTail := none } acked = taken s acked := by
  rw [taken, taken, h]
  rfl

theorem Accounts.waited {s : RouteStreamSender} {acked : List ScheduledChunk}
    (h : Accounts sha256 s acked)
    (hpending : pending s.sendTail = []) : Accounts sha256 { s with sendTail := none } acked := by
  have htaken := taken_waited acked hpending
  have hbatches := h.batches
  rw [hpending] at hbatches
  exact ⟨hbatches, htaken ▸ h.indexed, htaken ▸ h.seen, h.nodup, h.bounds, htaken ▸ h.count,
    htaken ▸ h.checksum⟩

theorem scheduledFrom_indexes (start : ℕ) (chunks : List (List SignedChunkRoute)) :
    (scheduledFrom start chunks).map (·.batchIndex) = List.range' start chunks.length := by
  have hsnd := congrArg (List.map (start + ·)) (List.zipIdx_map_snd 0 chunks)
  rw [List.map_map, List.map_add_range', Nat.add_zero] at hsnd
  rw [scheduledFrom, List.map_map]
  exact hsnd

theorem scheduledFrom_routes (start : ℕ) (chunks : List (List SignedChunkRoute)) :
    (scheduledFrom start chunks).flatMap (·.routes) = chunks.flatten := by
  have hfst := congrArg List.flatten (List.zipIdx_map_fst 0 chunks)
  rw [scheduledFrom, List.flatMap_map]
  exact hfst

theorem Accounts.schedule {s : RouteStreamSender} {acked : List ScheduledChunk}
    (h : Accounts sha256 s acked)
    (hpending : pending s.sendTail = []) {chunks : List (List SignedChunkRoute)}
    (hchunks : chunks.flatten = s.batch) :
    Accounts sha256 (s.schedule chunks) acked := by
  have htaken : taken (s.schedule chunks) acked = taken s acked := by
    rw [taken, taken, hpending, List.append_nil, List.flatMap_append]
    show acked.flatMap _ ++ (scheduledFrom s.batchIndex chunks).flatMap _ ++ [] = _
    rw [scheduledFrom_routes, hchunks, List.append_nil]
  refine ⟨?_, htaken ▸ h.indexed, htaken ▸ h.seen, h.nodup, h.bounds, htaken ▸ h.count,
    htaken ▸ h.checksum⟩
  have hbatches := h.batches
  rw [hpending, List.append_nil] at hbatches
  show (acked ++ scheduledFrom s.batchIndex chunks).map _ =
    List.range (s.batchIndex + chunks.length)
  rw [List.map_append, hbatches, scheduledFrom_indexes, List.range_eq_range', List.range_eq_range',
    ← List.range'_append_1, Nat.zero_add]

theorem flush_sound (h : Sound sha256 st) {after : Caller} {split : Except String (List ℕ)}
    (hcaller : st.caller ≠ .completed ∧ ∀ error, st.caller ≠ .failed error)
    (hafter : after = .idle ∨ after = .finishing ∧ st.caller = .completing)
    (hflush : st.flush after split = some st') : Sound sha256 st' := by
  have hincomplete := h.incomplete hcaller.1
  unfold flush at hflush
  split at hflush
  · cases hflush
  · cases hflush
    exact .broken ⟨.inr ⟨_, rfl⟩, nofun, hincomplete⟩
  · rename_i s hwait
    obtain ⟨hs, hpending, hout, hbroken⟩ := waitForPendingSend_cases sha256 hwait
    have hwhole : ¬ broken st.sender.sendTail := fun h => hbroken.mp h rfl
    split at hflush
    · cases hflush
      exact .broken ⟨.inr ⟨_, rfl⟩, nofun, hincomplete⟩
    · rename_i lengths
      split at hflush
      · rename_i hsum
        cases hflush
        cases h with
        | broken h =>
          rcases h.failure with hfailure | ⟨error, herror⟩
          · exact absurd hfailure hwhole
          · exact absurd herror (hcaller.2 error)
        | completed _ _ _ hcompleted _ => exact absurd hcompleted hcaller.1
        | working acked h =>
          have haccounts := (hs ▸ h.accounts.waited hpending : Accounts sha256 s acked)
          have hnone : pending s.sendTail = [] := by
            rw [hs]
            rfl
          refine .working acked ⟨haccounts.schedule hnone (List.flatten_splitLengths _ _ hsum.ge),
            ?_, ?_, ?_, ?_, ?_⟩
          · rw [h.events, hout, hs]
            rfl
          · exact id
          · rcases hafter with rfl | ⟨rfl, -⟩
            · exact ⟨nofun, nofun⟩
            · exact ⟨nofun, nofun⟩
          · rcases hafter with rfl | ⟨rfl, hcompleting⟩
            · exact fun hwaiting => hwaiting.elim nofun nofun
            · rw [hs]
              exact fun _ => h.total (.inl hcompleting)
          · exact fun _ => rfl
      · cases hflush

theorem perm_range {indexes : List ℤ} {total : ℕ} (hnodup : indexes.Nodup)
    (hbounds : ∀ index ∈ indexes, 0 ≤ index ∧ index < total) (hlength : indexes.length = total) :
    indexes.Perm ((List.range total).map (↑)) := by
  have hsubset : indexes ⊆ (List.range total).map (↑) := by
    intro index hindex
    obtain ⟨hlow, hhigh⟩ := hbounds index hindex
    refine List.mem_map.mpr ⟨index.toNat, List.mem_range.mpr ?_, Int.toNat_of_nonneg hlow⟩
    exact (Int.toNat_lt hlow).mpr hhigh
  refine (List.subperm_of_subset hnodup hsubset).perm_of_length_le ?_
  rw [List.length_map, List.length_range, hlength]

theorem Accounts.exact {s : RouteStreamSender} {items : List ScheduledChunk}
    (h : Accounts sha256 s items)
    (hpending : pending s.sendTail = []) (hempty : s.batch = [])
    (htotal : (s.routeCount : ℤ) = s.totalRoutes) :
    Exact sha256 s (exchanges sha256 s items ++ [.complete s.completePayload])
      s.completePayload items := by
  have htaken : taken s items = items.flatMap (·.routes) := by
    rw [taken, hpending, hempty, List.append_nil, List.append_nil]
  have hcoordinates : ∀ item ∈ items,
      ((s.batchPayload sha256 item).routeBatch.routes.map fun route => some route.deliveryIndex) =
        item.routes.map signedRouteDeliveryIndex := by
    intro item hitem
    refine compact_indexes fun route hroute => h.indexed route ?_
    rw [htaken]
    exact List.mem_flatMap.mpr ⟨item, hitem, hroute⟩
  have hindexes :
      (items.flatMap fun item =>
        (s.batchPayload sha256 item).routeBatch.routes.map (·.deliveryIndex)) =
      s.seenDeliveryIndices := by
    apply (List.map_injective_iff.mpr (Option.some_injective ℤ))
    rw [← h.seen, htaken, List.map_flatMap, List.map_flatMap]
    refine List.flatMap_congr fun item hitem => ?_
    rw [← hcoordinates item hitem, List.map_map]
    rfl
  have hlength : s.seenDeliveryIndices.length = s.routeCount := by
    have hlengths := congrArg List.length h.seen
    rw [List.length_map, List.length_map] at hlengths
    rw [← hlengths, h.count]
  have hbatches := h.batches
  rw [hpending, List.append_nil] at hbatches
  refine ⟨rfl, hbatches, ?_, hcoordinates, ?_, rfl, ?_⟩
  · rw [hindexes, ← htotal, Int.toNat_natCast]
    refine perm_range h.nodup (fun index hindex => ?_) hlength
    rw [htotal]
    exact h.bounds index hindex
  · show (items.map fun item => (item.routes.length : ℤ)).sum = s.totalRoutes
    rw [← htotal, h.count, htaken, List.length_flatMap, Nat.cast_list_sum, List.map_map]
    rfl
  · show s.checksum.value = _
    rw [combined_eq, h.checksum, htaken]

theorem finish_sound (h : Sound sha256 st) (hfinishing : st.caller = .finishing)
    (hfinish : st.finish = some st') :
    Sound sha256 st' := by
  have hincomplete := h.incomplete (by rw [hfinishing]; exact nofun)
  unfold finish at hfinish
  split at hfinish
  · cases hfinish
  · cases hfinish
    exact .broken ⟨.inr ⟨_, rfl⟩, nofun, hincomplete⟩
  · rename_i s hwait
    obtain ⟨hs, hpending, hout, hbroken⟩ := waitForPendingSend_cases sha256 hwait
    cases hfinish
    cases h with
    | broken h =>
      rcases h.failure with hfailure | ⟨error, herror⟩
      · exact absurd (hbroken.mp hfailure) (fun h => h rfl)
      · exact absurd (hfinishing.symm.trans herror) nofun
    | completed _ _ _ hcompleted _ => exact absurd (hfinishing.symm.trans hcompleted) nofun
    | working acked h =>
      have haccounts := (hs ▸ h.accounts.waited hpending : Accounts sha256 s acked)
      have hnone : pending s.sendTail = [] := by
        rw [hs]
        rfl
      have hempty : s.batch = [] := by
        rw [hs]
        exact h.empty hfinishing
      have htotal : (s.routeCount : ℤ) = s.totalRoutes := by
        rw [hs]
        exact h.total (.inr hfinishing)
      have hexact := haccounts.exact hnone hempty htotal
      have hevents : st.events = exchanges sha256 s acked := by
        rw [h.events, hout, List.append_nil, hs]
        rfl
      refine .completed s.completePayload acked ?_ rfl (by rw [hs])
      rw [hevents]
      exact hexact

theorem exchanges_snoc (s : RouteStreamSender) (acked : List ScheduledChunk)
    (item : ScheduledChunk) :
    exchanges sha256 s (acked ++ [item]) = exchanges sha256 s acked ++
      [.batch (s.batchPayload sha256 item)] ++ [.acknowledged (s.batchPayload sha256 item)] := by
  rw [exchanges, List.flatMap_append, List.flatMap_singleton, List.append_assoc]
  rfl

theorem Accounts.tail {s : RouteStreamSender} {acked acked' : List ScheduledChunk}
    (h : Accounts sha256 s acked)
    {sendTail : Option Sending} (hsame : acked' ++ pending sendTail = acked ++ pending s.sendTail) :
    Accounts sha256 { s with sendTail } acked' := by
  have htaken : taken { s with sendTail } acked' = taken s acked := by
    rw [taken, taken, hsame]
  exact ⟨hsame ▸ h.batches, htaken ▸ h.indexed, htaken ▸ h.seen, h.nodup, h.bounds,
    htaken ▸ h.count,
    htaken ▸ h.checksum⟩

theorem send_sound (h : Sound sha256 st) (hsend : st.step sha256 .send = some st') :
    Sound sha256 st' := by
  simp only [step] at hsend
  split at hsend
  · rename_i htail
    cases hsend
    cases h with
    | broken h =>
      refine .broken ⟨?_, h.caller, h.incomplete⟩
      rcases h.failure with hfailure | hfailure
      · rw [htail] at hfailure
        exact hfailure.elim
      · exact .inr hfailure
    | completed _ _ _ _ hnone => exact absurd (htail.symm.trans hnone) nofun
    | working acked h =>
      refine .working acked ⟨h.accounts.tail (by rw [htail]; rfl), ?_, id, h.caller,
        h.total, h.empty⟩
      rw [setTail, h.events, outgoing, htail]
      rfl
  · rename_i item scheduled htail
    cases hsend
    cases h with
    | broken h =>
      refine .broken ⟨?_, h.caller, fun payload hmem => ?_⟩
      · rcases h.failure with hfailure | hfailure
        · rw [htail] at hfailure
          exact hfailure.elim
        · exact .inr hfailure
      · rcases List.mem_append.mp hmem with hmem | hmem
        · exact h.incomplete payload hmem
        · exact absurd (List.mem_singleton.mp hmem) nofun
    | completed _ _ _ _ hnone => exact absurd (htail.symm.trans hnone) nofun
    | working acked h =>
      refine .working acked ⟨h.accounts.tail (by rw [htail]; rfl), ?_, id, h.caller,
        h.total, h.empty⟩
      rw [emit, setTail, h.events, outgoing, htail, List.append_nil]
      rfl
  · cases hsend

theorem reply_sound (h : Sound sha256 st) {error : Option String}
    (hreply : st.step sha256 (.reply error) = some st') :
    Sound sha256 st' := by
  simp only [step] at hreply
  split at hreply
  · rename_i item scheduled htail
    cases hreply
    cases h with
    | broken h =>
      refine .broken ⟨?_, h.caller, fun payload hmem => ?_⟩
      · rcases h.failure with hfailure | hfailure
        · rw [htail] at hfailure
          exact hfailure.elim
        · exact .inr hfailure
      · rcases List.mem_append.mp hmem with hmem | hmem
        · exact h.incomplete payload hmem
        · exact absurd (List.mem_singleton.mp hmem) nofun
    | completed _ _ _ _ hnone => exact absurd (htail.symm.trans hnone) nofun
    | working acked h =>
      have hsame : (acked ++ [item]) ++ pending (some (.loop scheduled)) = acked ++
          pending st.sender.sendTail := by
        rw [htail, List.append_assoc]
        rfl
      refine .working (acked ++ [item]) ⟨h.accounts.tail hsame, ?_, id, h.caller, h.total, h.empty⟩
      rw [emit, setTail, h.events, outgoing, htail]
      exact (List.append_nil _).symm ▸ (exchanges_snoc _ _ _).symm
  · rename_i item scheduled error htail
    cases hreply
    have hlost : ∀ payload, .complete payload ∉ st.events := by
      refine h.incomplete fun hcompleted => ?_
      cases h with
      | broken h => exact h.caller hcompleted
      | completed _ _ _ _ hnone => exact absurd (htail.symm.trans hnone) nofun
      | working acked h => exact h.caller.1 hcompleted
    refine .broken ⟨.inl trivial, fun hcompleted => ?_, fun payload hmem => ?_⟩
    · cases h with
      | broken h => exact h.caller hcompleted
      | completed _ _ _ _ hnone => exact absurd (htail.symm.trans hnone) nofun
      | working acked h => exact h.caller.1 hcompleted
    · rcases List.mem_append.mp hmem with hmem | hmem
      · exact hlost payload hmem
      · exact absurd (List.mem_singleton.mp hmem) nofun
  · cases hreply

theorem step_sound (h : Sound sha256 st) (hstep : st.step sha256 i = some st') :
    Sound sha256 st' := by
  cases i with
  | addRoute route =>
    simp only [step] at hstep
    split at hstep
    · rename_i hidle
      cases hstep
      exact addRoute_sound h hidle route
    · cases hstep
  | complete =>
    simp only [step] at hstep
    split at hstep
    · rename_i hidle
      cases hstep
      exact complete_sound h hidle
    · cases hstep
  | flush split =>
    simp only [step] at hstep
    split at hstep
    · rename_i hadding
      exact flush_sound h (by rw [hadding]; exact ⟨nofun, nofun⟩) (.inl rfl) hstep
    · rename_i hcompleting
      exact flush_sound h (by rw [hcompleting]; exact ⟨nofun, nofun⟩)
        (.inr ⟨rfl, hcompleting⟩) hstep
    · cases hstep
  | finish =>
    simp only [step] at hstep
    split at hstep
    · rename_i hfinishing
      exact finish_sound h hfinishing hstep
    · cases hstep
  | send => exact send_sound h hstep
  | reply error => exact reply_sound h hstep

def start (transferID streamID routeGenerationID : String) (totalRoutes : ℤ) : SenderRun :=
  ⟨newRouteStreamSender transferID streamID routeGenerationID totalRoutes, .idle, []⟩

variable {transferID streamID routeGenerationID : String} {totalRoutes : ℤ} {is : List Step}

theorem start_sound : Sound sha256 (start transferID streamID routeGenerationID totalRoutes) :=
  .working [] ⟨⟨rfl, nofun, rfl, List.nodup_nil, nofun, rfl, rfl⟩, rfl, id, ⟨nofun, nofun⟩,
    nofun, nofun⟩

theorem reachable_sound
    (h : Run.after (step sha256)
      (start transferID streamID routeGenerationID totalRoutes) is = some st) :
    Sound sha256 st :=
  Run.after_invariant (fun _ _ _ hsound hstep => step_sound hsound hstep) start_sound h

def sampleRoute (chunkIndex : ℤ) (destinationID : String) (deliveryIndex : ℤ) : SignedChunkRoute :=
  ⟨"source", destinationID, chunkIndex, none, "https://source", "https://destination", 0, 4,
    "", none, [],
    [("delivery_index", .number deliveryIndex)], []⟩

def sampleStream : List Step :=
  [.addRoute (sampleRoute 1 "a" 2), .addRoute (sampleRoute 0 "a" 0),
    .addRoute (sampleRoute 0 "b" 1), .complete,
    .flush (.ok [2, 1]), .send, .reply none, .send, .reply none, .send, .finish]

def sampleSent : SenderRun :=
  (Run.after (step fun _ => 1) (start "transfer" "stream" "generation" 3) sampleStream).getD
    (start "transfer" "stream" "generation" 3)

theorem sample_run :
    Run.after (step fun _ => 1) (start "transfer" "stream" "generation" 3) sampleStream =
      some sampleSent := rfl

end SenderRun
end Beam.Go
