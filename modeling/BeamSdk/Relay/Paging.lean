import BeamSdk.Contract.Guarantees
import BeamSdk.Contract.Paging
import BeamSdk.Library.Run

/-! The relay's read of the open requests: their count, and then page by page, with the contract's
own transactions in between. -/

namespace Beam.Relay
open Contract (Bytes32 Hashes Msg Call OpenOk)

def OPEN_REQUEST_PAGE : ℕ := 50

structure OpenRequestsRead where
  contract : Contract.State
  total : ℕ
  offset : ℕ
  requests : List Contract.OpenRequest

inductive ReadStep
  | transact (msg : Msg) (call : Call)
  | page

namespace OpenRequestsRead

def start (s : Contract.State) : OpenRequestsRead := ⟨s, s.openRequestCount, 0, []⟩

variable (H : Hashes)

def step (r : OpenRequestsRead) : ReadStep → Option OpenRequestsRead
  | .transact msg call =>
      some { r with contract := r.contract.transact (r.contract.call H msg call) }
  | .page =>
    if r.offset < r.total then some { r with
      offset := r.offset + OPEN_REQUEST_PAGE
      requests := r.requests ++ r.contract.openRequestsPage r.offset OPEN_REQUEST_PAGE }
    else none

def Finished (r : OpenRequestsRead) : Prop := r.total ≤ r.offset

def Returned (r : OpenRequestsRead) (k : Bytes32) : Prop := ∃ request ∈ r.requests, request.key = k

def OpenThroughout (s : Contract.State) (steps : List ReadStep) (k : Bytes32) : Prop :=
  Run.Always (step H) (start s) steps fun u => k ∈ u.contract.openKeys

/-- The step is a transaction that moves the request from a slot that is still to be read into one
that was passed. -/
def MovesBehind (k : Bytes32) (r : OpenRequestsRead) : ReadStep → Prop
  | .transact msg call => r.offset < r.contract.openPosition k ∧
    (r.contract.transact (r.contract.call H msg call)).openPosition k ≤ r.offset
  | .page => False

variable {H} {s : Contract.State} {steps : List ReadStep} {k : Bytes32} {r t u : OpenRequestsRead}

structure Tracks (H : Hashes) (s : Contract.State) (steps : List ReadStep) (k : Bytes32)
    (r : OpenRequestsRead) : Prop where
  reachable : (Contract.contract H).Reachable r.contract
  bounded : r.contract.openPosition k ≤ r.total
  unread : r.offset < r.contract.openPosition k →
    ¬ r.Returned k ∧ Run.Never (step H) (start s) steps (MovesBehind H k)
  passed : r.contract.openPosition k ≤ r.offset →
    (r.Returned k ↔ Run.Never (step H) (start s) steps (MovesBehind H k))

theorem start_tracks (hs : (Contract.contract H).Reachable s) (hk : k ∈ s.openKeys) :
    Tracks H s [] k (start s) := by
  have hok := (Contract.reachable_refines hs).1
  obtain ⟨i, hi⟩ := List.mem_iff_getElem?.mp hk
  have hposition : s.openPosition k = i + 1 := (hok.slots k i).mpr hi
  have hlength : i < s.openKeys.length := (List.getElem?_eq_some_iff.mp hi).1
  have hunread : (start s).offset < s.openPosition k := by
    rw [hposition]
    exact Nat.succ_pos i
  refine ⟨hs, ?_, fun _ => ⟨?_, ?_⟩, fun hle => absurd hunread (Nat.not_lt.mpr hle)⟩
  · show s.openPosition k ≤ s.openKeys.length
    rw [hposition]
    exact hlength
  · rintro ⟨request, hrequest, -⟩
    exact List.not_mem_nil hrequest
  · exact fun earlier i later u hsplit => absurd hsplit (by simp)

theorem Tracks.page (h : Tracks H s steps k r) (hr : Run.after (step H) (start s) steps = some r)
    (hk : k ∈ r.contract.openKeys) (hstep : r.step H .page = some t) :
      Tracks H s (steps ++ [.page]) k t := by
  have hok := (Contract.reachable_refines h.reachable).1
  obtain ⟨i, hi⟩ := List.mem_iff_getElem?.mp hk
  have hposition : r.contract.openPosition k = i + 1 := (hok.slots k i).mpr hi
  have hmoved : Run.Never (step H) (start s) (steps ++ [.page]) (MovesBehind H k) ↔
      Run.Never (step H) (start s) steps (MovesBehind H k) := by
    rw [Run.never_snoc hr]
    exact and_iff_left id
  have hpage : (∃ request ∈ r.contract.openRequestsPage r.offset OPEN_REQUEST_PAGE,
      request.key = k) ↔
      r.offset < r.contract.openPosition k ∧
        r.contract.openPosition k ≤ r.offset + OPEN_REQUEST_PAGE := by
    rw [Contract.mem_openRequestsPage hok, hposition]
    constructor
    · rintro ⟨j, hle, hlt, hj⟩
      have hij : r.contract.openPosition k = j + 1 := (hok.slots k j).mpr hj
      omega
    · exact fun hbounds => ⟨i, by omega, by omega, hi⟩
  simp only [step] at hstep
  split_ifs at hstep
  have hreturned : t.Returned k ↔ r.Returned k ∨
      ∃ request ∈ r.contract.openRequestsPage r.offset OPEN_REQUEST_PAGE,
      request.key = k := by
    cases hstep
    simp only [Returned, List.mem_append, or_and_right, exists_or]
  cases hstep
  refine ⟨h.reachable, h.bounded, fun hlt => ?_, fun hle => ?_⟩
  · have hnot := h.unread (Nat.lt_of_le_of_lt (Nat.le_add_right _ _) hlt)
    rw [hmoved, hreturned, hpage]
    exact ⟨not_or.mpr ⟨hnot.1, fun hbounds => Nat.not_lt.mpr hbounds.2 hlt⟩, hnot.2⟩
  · rw [hmoved, hreturned, hpage]
    rcases Nat.lt_or_ge r.offset (r.contract.openPosition k) with hlt | hge
    · exact ⟨fun _ => (h.unread hlt).2, fun _ => .inr ⟨hlt, hle⟩⟩
    · rw [← h.passed hge]
      exact or_iff_left fun hbounds => Nat.not_lt.mpr hge hbounds.1

theorem Tracks.transact {msg : Msg} {call : Call} (h : Tracks H s steps k r)
    (hr : Run.after (step H) (start s) steps = some r) (hk : k ∈ r.contract.openKeys)
    (hstep : r.step H (.transact msg call) = some t) (hk' : k ∈ t.contract.openKeys) :
    Tracks H s (steps ++ [.transact msg call]) k t := by
  have hok := (Contract.reachable_refines h.reachable).1
  cases hstep
  have hle : (r.contract.transact (r.contract.call H msg call)).openPosition k ≤
      r.contract.openPosition k :=
    Contract.transact_advances hok msg call k hk hk'
  have hreachable := h.reachable.later (.single (i := (msg, call)) rfl)
  refine ⟨hreachable, Nat.le_trans hle h.bounded, fun hlt => ?_, fun hpassed => ?_⟩
  · obtain ⟨hunread, hnever⟩ := h.unread (Nat.lt_of_lt_of_le hlt hle)
    rw [Run.never_snoc hr]
    exact ⟨hunread, hnever, fun hmoves => Nat.not_lt.mpr hmoves.2 hlt⟩
  · rw [Run.never_snoc hr]
    rcases Nat.lt_or_ge r.offset (r.contract.openPosition k) with hlt | hge
    · -- it was to be read, and the transaction put it behind
      exact ⟨fun hreturned => absurd hreturned (h.unread hlt).1, fun hnever =>
        absurd ⟨hlt, hpassed⟩ hnever.2⟩
    · rw [and_iff_left fun hmoves => Nat.not_lt.mpr hge hmoves.1]
      exact h.passed hge

theorem after_tracks (hs : (Contract.contract H).Reachable s) (hopen : OpenThroughout H s steps k)
    (hr : Run.after (step H) (start s) steps = some r) : Tracks H s steps k r := by
  induction steps using List.reverseRecOn generalizing r with
  | nil =>
    cases hr
    exact start_tracks hs (hopen.last rfl)
  | append_singleton steps i ih =>
    obtain ⟨u, hu, hstep⟩ := Run.after_snoc.mp hr
    have htracks := ih hopen.earlier hu
    have hk := hopen.earlier.last hu
    cases i with
    | page => exact htracks.page hu hk hstep
    | transact msg call => exact htracks.transact hu hk hstep (hopen.last hr)

/-- A finished read returned a request that stayed open exactly when none of the transactions moved
it behind. -/
theorem returned_iff (hs : (Contract.contract H).Reachable s)
    (hr : Run.after (step H) (start s) steps = some r)
    (hfinished : r.Finished) (hopen : OpenThroughout H s steps k) :
    r.Returned k ↔ Run.Never (step H) (start s) steps (MovesBehind H k) :=
  have htracks := after_tracks hs hopen hr
  htracks.passed (Nat.le_trans htracks.bounded hfinished)

section Sample

def sampleFull : Contract.State :=
  Contract.sampleDeployed.run Contract.sampleHashes
    ((List.range 51).map fun i => (⟨1, 100⟩, .requestReceipt (BitVec.ofNat 128 (i + 1))))

theorem sampleFull_reachable : (Contract.contract Contract.sampleHashes).Reachable sampleFull :=
  ⟨Contract.sampleDeployed, ⟨_, _, _, _, Contract.sampleDeployed_init⟩, Contract.later_run _ _ _⟩

def sampleKey (transferId : Contract.Bytes16) : Bytes32 :=
    Contract.receiptRequestKey Contract.sampleHashes transferId

def sampleSteps : List ReadStep := [.page, .transact ⟨1, 100⟩ (.cancelRequest (sampleKey 1)), .page]

theorem openThroughout_of_take (h : ∀ n ≤ steps.length, ∀ u,
    Run.after (step H) (start s) (steps.take n) = some u →
    k ∈ u.contract.openKeys) : OpenThroughout H s steps k := by
  rintro earlier later u rfl hu
  exact h earlier.length (by simp) u (by rwa [List.take_left])

theorem sample_openThroughout : OpenThroughout Contract.sampleHashes sampleFull sampleSteps
    (sampleKey 51) := by
  have hall : ∀ n ≤ sampleSteps.length,
      (Run.after (step Contract.sampleHashes) (start sampleFull) (sampleSteps.take n)).all
      fun u => decide (sampleKey 51 ∈ u.contract.openKeys) := by decide +kernel
  refine openThroughout_of_take fun n hn u hu => ?_
  have hopen := hall n hn
  rw [hu] at hopen
  exact of_decide_eq_true hopen

theorem sample_read : ∃ r, Run.after (step Contract.sampleHashes)
    (start sampleFull) sampleSteps = some r ∧ r.Finished ∧
    ¬ r.Returned (sampleKey 51) := by
  have hread : (Run.after (step Contract.sampleHashes) (start sampleFull) sampleSteps).any fun r =>
      decide (r.total ≤ r.offset ∧ ∀ request ∈ r.requests, request.key ≠ sampleKey 51) := by
        decide +kernel
  rw [Option.any_eq_true] at hread
  obtain ⟨r, hr, hfacts⟩ := hread
  obtain ⟨hfinished, hkeys⟩ := of_decide_eq_true hfacts
  refine ⟨r, hr, hfinished, ?_⟩
  rintro ⟨request, hrequest, hkey⟩
  exact hkeys request hrequest hkey

/-- The request of transfer 51 is open all along. The cancelled request's slot becomes its own, on
the page that was read already, and the second page is empty. -/
theorem cancelled_between_pages :
    (Contract.contract Contract.sampleHashes).Reachable sampleFull ∧
      OpenThroughout Contract.sampleHashes sampleFull sampleSteps (sampleKey 51) ∧
      ∃ r, Run.after (step Contract.sampleHashes) (start sampleFull) sampleSteps = some r ∧
        r.Finished ∧
        ¬ r.Returned (sampleKey 51) :=
  ⟨sampleFull_reachable, sample_openThroughout, sample_read⟩

end Sample

/-- A finished read returned every request that stayed open exactly when no transaction moved one
of them behind. -/
theorem openRequests_complete_iff (hs : (Contract.contract H).Reachable s)
    (hr : Run.after (step H) (start s) steps = some r) (hfinished : r.Finished) :
    (∀ k, OpenThroughout H s steps k → r.Returned k) ↔
      ∀ k, OpenThroughout H s steps k → Run.Never (step H) (start s) steps (MovesBehind H k) := by
  constructor
  · exact fun h k hopen => (returned_iff hs hr hfinished hopen).mp (h k hopen)
  · exact fun h k hopen => (returned_iff hs hr hfinished hopen).mpr (h k hopen)

theorem sample_complete :
    ∃ r, ((Contract.contract Contract.sampleHashes).Reachable sampleFull ∧
      Run.after (step Contract.sampleHashes) (start sampleFull) sampleSteps = some r ∧ r.Finished) ∧
      ((∀ k, OpenThroughout Contract.sampleHashes sampleFull sampleSteps k → r.Returned k) ↔
        ∀ k, OpenThroughout Contract.sampleHashes sampleFull sampleSteps k →
          Run.Never (step Contract.sampleHashes)
            (start sampleFull) sampleSteps (MovesBehind Contract.sampleHashes k)) := by
  obtain ⟨r, hr, hfinished, -⟩ := sample_read
  exact ⟨r, ⟨sampleFull_reachable, hr, hfinished⟩,
    openRequests_complete_iff sampleFull_reachable hr hfinished⟩

end OpenRequestsRead
end Beam.Relay
