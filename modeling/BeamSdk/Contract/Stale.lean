import BeamSdk.Contract.Guarantees
import BeamSdk.Contract.Paging
import BeamSdk.Contract.Recorded

/-! `staleRequests`: the two passes over the open set, and what they return in a run whose clock
does not run backwards. -/

namespace Beam.Contract
variable {H : Hashes} {s t u : State}

namespace State
variable (s : State) (now : ℕ)

/-- `_isStale`, at `block.timestamp = now`. The subtraction is checked. -/
def isStale (request : OpenRequest) : Option Bool := do
  let age ← checkedSub now request.openedAt.toNat
  some (age ≥ s.staleAfter.toNat)

def countStale : List Bytes32 → ℕ → Option ℕ
  | [], count => some count
  | key :: keys, count => do
    if ← s.isStale now (s.openRequests key) then countStale keys (← checkedAdd count 1)
      else countStale keys count

/-- The second pass, which writes into an array of length `count` and stops when that is full. -/
def fillStale (count : ℕ) : List Bytes32 → ℕ → List OpenRequest → Option (List OpenRequest)
  | [], _, stale => some stale
  | key :: keys, next, stale =>
    if next < count then do
      let request := s.openRequests key
      if ← s.isStale now request then
        if next < stale.length then
          fillStale count keys (← checkedAdd next 1) (stale.set next request) else none
      else fillStale count keys next stale
    else some stale

def staleRequests : Option (List OpenRequest) := do
  let count ← s.countStale now s.openKeys 0
  s.fillStale now count s.openKeys 0 (List.replicate count OpenRequest.zero)

/-- The open requests whose age is at least `staleAfter`, in the order of the set. -/
def overdue (keys : List Bytes32) : List OpenRequest :=
  (keys.map s.openRequests).filter fun request => s.staleAfter.toNat ≤ now - request.openedAt.toNat

end State

section Passes
variable {now : ℕ} {keys : List Bytes32}

theorem isStale_eq {request : OpenRequest} (h : request.openedAt.toNat ≤ now) :
    s.isStale now request = some (decide (s.staleAfter.toNat ≤ now - request.openedAt.toNat)) := by
  simp only [State.isStale, checkedSub, if_pos h, Option.bind_eq_bind, Option.bind_some]

theorem overdue_cons_pos {key : Bytes32}
    (h : s.staleAfter.toNat ≤ now - (s.openRequests key).openedAt.toNat) :
    s.overdue now (key :: keys) = s.openRequests key :: s.overdue now keys := by
  rw [State.overdue, List.map_cons, List.filter_cons_of_pos (by simpa using h)]
  rfl

theorem overdue_cons_neg {key : Bytes32}
    (h : ¬ s.staleAfter.toNat ≤ now - (s.openRequests key).openedAt.toNat) :
    s.overdue now (key :: keys) = s.overdue now keys := by
  rw [State.overdue, List.map_cons, List.filter_cons_of_neg (by simpa using h)]
  rfl

theorem countStale_eq (h : ∀ key ∈ keys, (s.openRequests key).openedAt.toNat ≤ now) {count : ℕ}
    (hcount : count + keys.length < 2 ^ 256) :
    s.countStale now keys count = some (count + (s.overdue now keys).length) := by
  induction keys generalizing count with
  | nil => rfl
  | cons key keys ih =>
    have hkeys : ∀ k ∈ keys, (s.openRequests k).openedAt.toNat ≤ now :=
      fun k hk => h k (List.mem_cons_of_mem _ hk)
    rw [List.length_cons] at hcount
    rw [State.countStale, isStale_eq (h key (List.mem_cons_self ..)), Option.bind_eq_bind,
      Option.bind_some]
    by_cases hstale : s.staleAfter.toNat ≤ now - (s.openRequests key).openedAt.toNat
    · have hadd : checkedAdd count 1 = some (count + 1) := if_pos (by omega)
      rw [if_pos (by simpa using hstale), hadd, Option.bind_eq_bind, Option.bind_some,
        ih hkeys (by omega),
        overdue_cons_pos hstale, List.length_cons]
      congr 1
      omega
    · rw [if_neg (by simpa using hstale), ih hkeys (by omega), overdue_cons_neg hstale]

theorem fillStale_eq (h : ∀ key ∈ keys,
    (s.openRequests key).openedAt.toNat ≤ now) (written : List OpenRequest)
    {count : ℕ} (hcount : count = written.length +
      (s.overdue now keys).length) (hbound : count < 2 ^ 256) :
    s.fillStale now count keys written.length
        (written ++ List.replicate (s.overdue now keys).length OpenRequest.zero) =
      some (written ++ s.overdue now keys) := by
  induction keys generalizing written with
  | nil => rfl
  | cons key keys ih =>
    have hkeys : ∀ k ∈ keys, (s.openRequests k).openedAt.toNat ≤
        now := fun k hk => h k (List.mem_cons_of_mem _ hk)
    rw [State.fillStale]
    by_cases hfull : written.length < count
    · rw [if_pos hfull]
      simp only [isStale_eq (h key (List.mem_cons_self ..)), Option.bind_eq_bind, Option.bind_some]
      by_cases hstale : s.staleAfter.toNat ≤ now - (s.openRequests key).openedAt.toNat
      · rw [overdue_cons_pos hstale, List.length_cons] at hcount ⊢
        have hadd :
            checkedAdd written.length 1 = some (written ++ [s.openRequests key]).length := by
          rw [List.length_append]
          exact if_pos (by omega)
        have hset : (written ++ List.replicate
            ((s.overdue now keys).length + 1) OpenRequest.zero).set
            written.length (s.openRequests key) =
              (written ++ [s.openRequests key]) ++ List.replicate (s.overdue now keys).length
                OpenRequest.zero := by
          rw [List.set_append_right _ _ (Nat.le_refl _),
            Nat.sub_self, List.replicate_succ, List.set_cons_zero,
            List.append_assoc, List.singleton_append]
        rw [if_pos
          (by simpa using hstale),
            if_pos (by rw [List.length_append, List.length_replicate]; omega), hadd,
          Option.bind_some, hset, ih hkeys _
            (by rw [List.length_append]; simp only [List.length_singleton]; omega),
          List.append_assoc, List.singleton_append]
      · rw [overdue_cons_neg hstale] at hcount ⊢
        rw [if_neg (by simpa using hstale)]
        exact ih hkeys written hcount
    · have hnone : s.overdue now (key :: keys) = [] := List.eq_nil_of_length_eq_zero (by omega)
      rw [if_neg hfull, hnone]
      rfl

end Passes

def Closes (s t : State) : Prop := ∀ k, t.openRequests k = s.openRequests k ∨
    t.openRequests k = OpenRequest.zero

theorem Closes.refl (s : State) : Closes s s := fun _ => .inl rfl

theorem Closes.trans (h : Closes s t) (h' : Closes t u) : Closes s u := by
  intro k
  rcases h' k with he | hzero
  · rcases h k with he' | hzero
    · exact .inl (he.trans he')
    · exact .inr (he.trans hzero)
  · exact .inr hzero

theorem closes_closed (s : State) (key : Bytes32) (slots : Slots Bytes32) :
    Closes s (s.closed key slots) :=
  fun k => (Ledger.update_eq_or s.openRequests key k OpenRequest.zero).imp_right And.right

theorem answerRequest_closes (h : OpenOk H s) {requestId : Bytes32} {kind : TransferKind}
    {answers : Bool}
    (hc : answerRequest H s requestId kind = .ok (answers, t)) : Closes s t := by
  rcases answerRequest_cases h hc with ⟨-, rfl, -⟩ | ⟨-, -, -, slots, rfl, -⟩
  · exact .refl t
  · exact closes_closed s _ slots

theorem recordReceipt_closes (h : OpenOk H s) {entry : StandardReceiptReport}
    (hc : recordReceipt H s entry = .ok t) :
    Closes s t := by
  simp only [recordReceipt] at hc
  split_ifs at hc with hid hstatus hlevel
  have hcode := Status.ofCode_valid (by decide) hstatus
  obtain ⟨⟨answers, u⟩, hans, hstore⟩ := bind_eq_ok.mp hc
  have hok : OpenOk H (if answers then u.bindTransfer entry.requestId entry.transferId else u) := by
    rcases answerRequest_cases h hans with ⟨rfl, rfl, -⟩ | ⟨rfl, -, -, -, -, hu⟩
    · exact h
    · exact hu.congr rfl rfl
  have hstored := (storeReceipt_eq_ok hok hcode hstore).2.2
  refine (answerRequest_closes h hans).trans fun k => ?_
  cases answers with
  | false => exact (hstored k).imp_right And.left
  | true => exact (hstored k).imp_right And.left

theorem recordRoomReceipt_closes (h : OpenOk H s) {entry : RoomReceiptReport}
    (hc : recordRoomReceipt H s entry = .ok t) : Closes s t := by
  simp only [recordRoomReceipt] at hc
  split_ifs at hc with hstatus hlevel hevidence
  have hcode := Status.ofCode_valid (by decide) hstatus
  obtain ⟨⟨answers, u⟩, hans, hstore⟩ := bind_eq_ok.mp hc
  have hok : OpenOk H (if answers then u.bindRoom entry.requestId
      (roomReceiptKey H entry.room entry.channel entry.publication) else u) := by
    rcases answerRequest_cases h hans with ⟨rfl, rfl, -⟩ | ⟨rfl, -, -, -, -, hu⟩
    · exact h
    · exact hu.congr rfl rfl
  have hstored := (storeRoomReceipt_eq_ok hok hcode hstore).2.2
  refine (answerRequest_closes h hans).trans fun k => ?_
  cases answers with
  | false => exact (hstored k).imp_right And.left
  | true => exact (hstored k).imp_right And.left

theorem closeRequest_closes (h : OpenOk H s) {closure : RequestClosure}
    (hc : closeRequest s closure = .ok t) :
    Closes s t := by
  simp only [closeRequest] at hc
  split_ifs at hc
  · cases hc
    exact .refl s
  · obtain ⟨u, hclose, hc⟩ := bind_eq_ok.mp hc
    obtain ⟨slots, hslots, -⟩ := h.closeKey closure.key
    cases hclose.symm.trans hslots
    cases hc
    exact closes_closed s _ slots

theorem recordJob_closes (h : OpenOk H s) {entry : JobResultReport}
    (hc : recordJob H s entry = .ok t) : Closes s t := by
  simp only [recordJob] at hc
  split_ifs at hc
  obtain ⟨⟨answers, u⟩, hans, hstore⟩ := bind_eq_ok.mp hc
  cases hstore
  refine (answerRequest_closes h hans).trans fun k => ?_
  cases answers with
  | false => exact .inl rfl
  | true => exact .inl rfl

theorem onReport_closes (h : OpenOk H s) {msg : Msg} {metadata : Bytes} {report : EncodedReport}
    (hc : onReport H s msg metadata report = .ok t) : Closes s t := by
  unfold onReport at hc
  split at hc
  · cases hc
  · exact processReport_relates .refl (fun _ _ _ => .trans)
      (fun _ _ _ h hc => recordReceipt_closes h hc)
      (fun _ _ _ h hc => recordRoomReceipt_closes h hc) (fun _ _ _ h hc => closeRequest_closes h hc)
      (fun _ _ _ h hc => recordJob_closes h hc) h hc

def OpenRequest.openedBy (r : OpenRequest) (msg : Msg) : Prop :=
  r.openedAt = UInt64.ofNat msg.timestamp ∧ r.requester = msg.sender

theorem openKey_openedBy {msg : Msg} {key : Bytes32} {kind : RequestKind}
    (set : OpenRequest → OpenRequest)
    (hopen : openKey s msg key kind = .ok u)
    (hset : ∀ r : OpenRequest, (set r).openedAt = r.openedAt ∧ (set r).requester = r.requester)
    (k : Bytes32) :
    (u.setOpenRequest key set).openRequests k = s.openRequests k ∨
      ((u.setOpenRequest key set).openRequests k).openedBy msg := by
  rw [(openKey_eq_ok set hopen).2]
  refine (Ledger.update_eq_or s.openRequests key k (set { s.openRequests key with
    key := key, kind := kind, requester := msg.sender, openedAt :=
      UInt64.ofNat msg.timestamp })).imp_right fun hk => ?_
  simp only [State.opened, hk.2]
  exact hset _

theorem call_openedBy (h : OpenOk H s) {msg : Msg} {c : Call} (hc : s.call H msg c = .ok t)
    (k : Bytes32) :
    t.openRequests k = s.openRequests k ∨ t.openRequests k = OpenRequest.zero ∨
      (t.openRequests k).openedBy msg := by
  cases c with
  | requestTransfer requestId kind input =>
    simp only [State.call, requestTransfer] at hc
    split_ifs at hc
    · cases hc
      exact .inl rfl
    · obtain ⟨u, hopen, hc⟩ := bind_eq_ok.mp hc
      cases hc
      exact (openKey_openedBy (fun request =>
        { request with transferKind := TransferKind.ofCode kind, requestId := requestId }) hopen
          (fun _ => ⟨rfl, rfl⟩) k).imp_right .inr
  | requestReceipt transferId =>
    simp only [State.call, requestReceipt] at hc
    split_ifs at hc
    · cases hc
      exact .inl rfl
    · obtain ⟨u, hopen, hc⟩ := bind_eq_ok.mp hc
      cases hc
      exact (openKey_openedBy (fun request =>
        { request with transferId := transferId }) hopen (fun _ => ⟨rfl, rfl⟩) k).imp_right .inr
  | requestRoomReceipt room channel publication =>
    simp only [State.call, requestRoomReceipt] at hc
    split_ifs at hc
    · cases hc
      exact .inl rfl
    · obtain ⟨u, hopen, hc⟩ := bind_eq_ok.mp hc
      cases hc
      exact (openKey_openedBy (fun request =>
        { request with room := room, channel := channel, publication := publication }) hopen
          (fun _ => ⟨rfl, rfl⟩) k).imp_right .inr
  | cancelRequest key =>
    simp only [State.call, cancelRequest] at hc
    split_ifs at hc
    obtain ⟨u, hclose, hc⟩ := bind_eq_ok.mp hc
    obtain ⟨slots, hslots, -⟩ := h.closeKey key
    cases hclose.symm.trans hslots
    cases hc
    exact (closes_closed s key slots k).imp_right .inl
  | onReport metadata report => exact (onReport_closes h hc k).imp_right .inl
  | _ =>
    rw [(setting_frame hc trivial).2]
    exact .inl rfl

theorem run_openedBy (h : (contract H).init s) (calls : List (Msg × Call)) (k : Bytes32) :
    (s.run H calls).openRequests k = OpenRequest.zero ∨
      ∃ i ∈ calls, ((s.run H calls).openRequests k).openedBy i.1 := by
  induction calls using List.reverseRecOn with
  | nil =>
    obtain ⟨_, _, _, _, hd⟩ := h
    refine .inl ?_
    rw [State.run, List.foldl_nil, (deploy_eq_ok hd).2]
    rfl
  | append_singleton calls i ih =>
    have hok : OpenOk H (s.run H calls) :=
      (later_refines (init_openOk h) (later_run H s calls)).openOk
    have hrun : s.run H (calls ++ [i]) = (s.run H calls).transact
        ((s.run H calls).call H i.1 i.2) := by
      rw [State.run, List.foldl_append]
      rfl
    have hkeep : (s.run H (calls ++ [i])).openRequests k = (s.run H calls).openRequests k →
        (s.run H (calls ++ [i])).openRequests k = OpenRequest.zero ∨
          ∃ j ∈ calls ++ [i], ((s.run H (calls ++ [i])).openRequests k).openedBy j.1 := by
      intro he
      rw [he]
      refine ih.imp_right fun hopened => ?_
      obtain ⟨j, hj, hby⟩ := hopened
      exact ⟨j, List.mem_append_left _ hj, hby⟩
    cases hcall : (s.run H calls).call H i.1 i.2 with
    | error e =>
      rw [hcall] at hrun
      exact hkeep (by rw [hrun]; rfl)
    | ok u =>
      rw [hcall] at hrun
      have hrun : s.run H (calls ++ [i]) = u := hrun
      rcases call_openedBy hok hcall k with he | hzero | hby
      · exact hkeep (by rw [hrun, he])
      · exact .inl (by rw [hrun, hzero])
      · exact .inr ⟨i, List.mem_append_right _ (List.mem_singleton_self i), by rwa [hrun]⟩

/-- In a run that no transaction of lies in the future, `staleRequests` neither underflows nor
writes past its array: it returns exactly the open requests that are `staleAfter` seconds old or
older, each once and in the order of the set. -/
theorem run_staleRequests (h : (contract H).init s) (calls : List (Msg × Call)) {now : ℕ}
    (hnow : ∀ i ∈ calls, i.1.timestamp ≤ now) :
    (s.run H calls).staleRequests now =
      some ((s.run H calls).overdue now (s.run H calls).openKeys) ∧
      ((s.run H calls).overdue now (s.run H calls).openKeys).Nodup ∧
      ∀ r ∈ (s.run H calls).overdue now (s.run H calls).openKeys, ∃ i ∈ calls, r.openedBy i.1 := by
  have hok : OpenOk H (s.run H calls) :=
    (later_refines (init_openOk h) (later_run H s calls)).openOk
  have hpast : ∀ key ∈ (s.run H calls).openKeys,
      ((s.run H calls).openRequests key).openedAt.toNat ≤ now := by
    intro key _
    rcases run_openedBy h calls key with hzero | ⟨i, hi, hopened, -⟩
    · rw [hzero]
      exact Nat.zero_le now
    · rw [hopened, UInt64.toNat_ofNat']
      exact Nat.le_trans (Nat.mod_le _ _) (hnow i hi)
  have hlength : (s.run H calls).openKeys.length < 2 ^ 256 :=
    Nat.lt_of_le_of_lt hok.bounded (by decide)
  have hfew : ((s.run H calls).overdue now (s.run H calls).openKeys).length ≤
      (s.run H calls).openKeys.length :=
    Nat.le_trans (List.length_filter_le _ _) (Nat.le_of_eq (List.length_map _))
  have hkeys : ((s.run H calls).openKeys.map (s.run H calls).openRequests).Nodup := by
    refine List.Nodup.map_on (fun a ha b hb he => ?_) hok.slots.nodup
    rw [← (hok.listed a ha).1, ← (hok.listed b hb).1, he]
  refine ⟨?_, hkeys.filter _, fun r hr => ?_⟩
  · have hcount : (s.run H calls).countStale now (s.run H calls).openKeys 0 =
        some (0 + ((s.run H calls).overdue now (s.run H calls).openKeys).length) :=
      countStale_eq hpast (by rwa [Nat.zero_add])
    rw [Nat.zero_add] at hcount
    rw [State.staleRequests, hcount, Option.bind_eq_bind, Option.bind_some]
    exact fillStale_eq hpast [] (Nat.zero_add _).symm (by omega)
  · obtain ⟨key, hkey, rfl⟩ := List.mem_map.mp (List.mem_of_mem_filter hr)
    refine (run_openedBy h calls key).resolve_left fun hzero => ?_
    obtain ⟨-, d, hd, -⟩ := hok.listed key hkey
    rw [hzero] at hd
    cases hd

/-- Of the sample's three requests the last is one second too young. -/
theorem sample_stale :
    sampleRequested.staleRequests 162 =
      some (sampleRequested.overdue 162 sampleRequested.openKeys) ∧
      (sampleRequested.overdue 162 sampleRequested.openKeys).length = 2 := by
  refine ⟨(run_staleRequests ⟨_, _, _, _, sampleDeployed_init⟩ sampleRequests ?_).1,
    by decide +kernel⟩
  intro i hi
  simp only [sampleRequests, List.mem_cons, List.not_mem_nil, or_false] at hi
  rcases hi with rfl | rfl | rfl <;> decide

end Beam.Contract
