import BeamSdk.Contract.Refinement
import BeamSdk.Library.Iterator

/-! Reading the open-request set in pages, and what a call does to the order of the requests in it.
-/

namespace Beam.Contract
variable {H : Hashes} {s t u : State}

namespace State
variable (s : State)

def openRequestCount : ℕ := s.openKeys.length

def openRequestsPage (offset limit : ℕ) : List OpenRequest :=
  let total := s.openKeys.length
  if offset ≥ total then []
  else
    let last := if limit > total - offset then total else offset + limit
    ((s.openKeys.drop offset).take (last - offset)).map s.openRequests

end State

theorem openRequestsPage_eq (s : State) (offset limit : ℕ) :
    s.openRequestsPage offset limit = ((s.openKeys.drop offset).take limit).map s.openRequests := by
  unfold State.openRequestsPage
  simp only
  split_ifs with hpast hlimit
  · rw [List.drop_eq_nil_of_le hpast, List.take_nil, List.map_nil]
  · have hlength : (s.openKeys.drop offset).length = s.openKeys.length - offset := List.length_drop
    rw [List.take_of_length_le (by omega), List.take_of_length_le (by omega)]
  · rw [Nat.add_sub_cancel_left]

theorem length_openRequestsPage_le (s : State) (offset limit : ℕ) :
    (s.openRequestsPage offset limit).length ≤ limit := by
  rw [openRequestsPage_eq, List.length_map]
  exact List.length_take_le _ _

def checkedAdd (a b : ℕ) : Option ℕ := if a + b < 2 ^ 256 then some (a + b) else none

def checkedSub (a b : ℕ) : Option ℕ := if b ≤ a then some (a - b) else none

namespace State
variable (s : State)

/-- `page[i - offset] = s_openRequests[s_openKeys[i]]`, on a page of this length. -/
def pageEntry (offset length i : ℕ) : Option OpenRequest := do
  let place ← checkedSub i offset
  let key ← s.openKeys[i]?
  if place < length then some (s.openRequests key) else none

def checkedOpenRequests (offset limit : ℕ) : Option (List OpenRequest) := do
  let total := s.openKeys.length
  if offset ≥ total then some []
  else
    let left ← checkedSub total offset
    let last ← (if limit > left then some total else checkedAdd offset limit)
    let length ← checkedSub last offset
    (List.range' offset length).mapM (s.pageEntry offset length)

end State

theorem mapM_pageEntry {offset length : ℕ} (h : offset + length ≤ s.openKeys.length) :
    (List.range' offset length).mapM (s.pageEntry offset length) =
      some (((s.openKeys.drop offset).take length).map s.openRequests) := by
  have hentry : ∀ i ∈ List.range' offset length,
      s.pageEntry offset length i = some (s.openRequests (s.openKeys[i]?.getD 0)) := by
    intro i hi
    obtain ⟨hfrom, hto⟩ := List.mem_range'_1.mp hi
    obtain ⟨key, hget⟩ : ∃ key, s.openKeys[i]? = some key :=
      ⟨_, List.getElem?_eq_getElem (by omega)⟩
    simp only [State.pageEntry, checkedSub, if_pos hfrom, hget, Option.bind_eq_bind,
      Option.bind_some, Option.getD_some]
    rw [if_pos (by omega)]
  rw [mapM_eq_pure hentry]
  refine congrArg some (List.ext_getElem ?_ fun i hi _ => ?_)
  · rw [List.length_map, List.length_range', List.length_map, List.length_take, List.length_drop]
    omega
  · rw [List.length_map, List.length_range'] at hi
    rw [List.getElem_map, List.getElem_map, List.getElem_take, List.getElem_drop,
      List.getElem_range', Nat.one_mul,
      List.getElem?_eq_getElem (by omega), Option.getD_some]

theorem checkedOpenRequests_eq (hlength : s.openKeys.length < 2 ^ 256) (offset limit : ℕ) :
    s.checkedOpenRequests offset limit = some (s.openRequestsPage offset limit) := by
  unfold State.checkedOpenRequests State.openRequestsPage
  simp only [Option.bind_eq_bind]
  by_cases hpast : offset ≥ s.openKeys.length
  · rw [if_pos hpast, if_pos hpast]
  have hleft : checkedSub s.openKeys.length offset = some (s.openKeys.length - offset) :=
    if_pos (by omega)
  rw [if_neg hpast, if_neg hpast, hleft, Option.bind_some]
  by_cases hlimit : limit > s.openKeys.length - offset
  · rw [if_pos hlimit, if_pos hlimit, Option.bind_some, hleft, Option.bind_some]
    exact mapM_pageEntry (by omega)
  · have hadd : checkedAdd offset limit = some (offset + limit) := if_pos (by omega)
    have hsub : checkedSub (offset + limit) offset = some (offset + limit - offset) :=
      if_pos (by omega)
    rw [if_neg hlimit, if_neg hlimit, hadd, Option.bind_some, hsub, Option.bind_some]
    exact mapM_pageEntry (by omega)

theorem mem_openRequestsPage (h : OpenOk H s) {offset limit : ℕ} {k : Bytes32} :
    (∃ r ∈ s.openRequestsPage offset limit, r.key = k) ↔
      ∃ i, offset ≤ i ∧ i < offset + limit ∧ s.openKeys[i]? = some k := by
  have hkey : ∀ i k', s.openKeys[i]? = some k' → (s.openRequests k').key = k' :=
    fun i k' hk' => (h.listed k' (List.mem_of_getElem? hk')).1
  have hlength : ∀ i k', s.openKeys[i]? = some k' → i < s.openKeys.length :=
    fun i k' hk' => (List.getElem?_eq_some_iff.mp hk').1
  unfold State.openRequestsPage
  simp only
  split_ifs with hpast hlimit
  · constructor
    · rintro ⟨r, hr, -⟩
      exact absurd hr List.not_mem_nil
    · rintro ⟨i, hi, -, hk⟩
      have := hlength i k hk
      omega
  all_goals
    constructor
    · rintro ⟨r, hr, rfl⟩
      obtain ⟨k', hk', rfl⟩ := List.mem_map.mp hr
      obtain ⟨j, hj⟩ := List.mem_iff_getElem?.mp hk'
      rw [List.getElem?_take, List.getElem?_drop] at hj
      split_ifs at hj with hbound
      exact ⟨offset + j, by omega, by omega, by rw [hj, hkey _ _ hj]⟩
    · rintro ⟨i, hi, hlt, hk⟩
      have hbound := hlength i k hk
      refine ⟨s.openRequests k, List.mem_map_of_mem ?_, hkey i k hk⟩
      refine List.mem_of_getElem? (i := i - offset) ?_
      rw [List.getElem?_take_of_lt (by omega), List.getElem?_drop, Nat.add_sub_cancel' hi, hk]

/-- `t` holds nothing that `s` did not, and nothing in a later slot than in `s`. -/
def Shrinks (s t : State) : Prop := ∀ k ∈ t.openKeys, k ∈ s.openKeys ∧
    t.openPosition k ≤ s.openPosition k

theorem Shrinks.refl (s : State) : Shrinks s s := fun _ hk => ⟨hk, Nat.le_refl _⟩

theorem Shrinks.trans (h : Shrinks s t) (h' : Shrinks t u) : Shrinks s u := by
  intro k hk
  obtain ⟨hk', hle⟩ := h' k hk
  obtain ⟨hk'', hle'⟩ := h k hk'
  exact ⟨hk'', Nat.le_trans hle hle'⟩

theorem Shrinks.of_eq (h : t.openSlots = s.openSlots) : Shrinks s t := by
  intro k hk
  simp only [State.openKeys, State.openPosition, h] at hk ⊢
  exact ⟨hk, Nat.le_refl _⟩

theorem closeKey_shrinks (h : OpenOk H s) {key : Bytes32} (hc : closeKey s key = .ok t) :
    Shrinks s t := by
  unfold closeKey at hc
  split_ifs at hc with hpos
  · cases hc
    exact .refl s
  · split at hc
    · cases hc
    · rename_i slots hpop
      cases hc
      have hkey : key ∈ s.openKeys := by
        by_contra hkey
        exact hpos ((h.position_eq_zero key).mpr hkey)
      obtain ⟨slots', hpop', -, -, hmem⟩ := h.slots.swapPop hkey
      cases hpop.symm.trans hpop'
      exact fun k hk => ⟨((hmem k).mp hk).1, h.slots.swapPop_position hpop k⟩

theorem answerRequest_shrinks (h : OpenOk H s) {requestId : Bytes32} {kind : TransferKind}
    {answers : Bool}
    (hc : answerRequest H s requestId kind = .ok (answers, t)) : Shrinks s t ∧ OpenOk H t := by
  simp only [answerRequest] at hc
  split_ifs at hc
  · cases hc
    exact ⟨.refl s, h⟩
  · cases hc
    exact ⟨.refl s, h⟩
  · obtain ⟨u, hclose, hc⟩ := bind_eq_ok.mp hc
    cases hc
    exact ⟨closeKey_shrinks h hclose, (closeKey_refines h hclose).openOk⟩

theorem storeReceipt_shrinks (h : OpenOk H s) {entry : StandardReceiptReport} {answers : Bool}
    (hc : storeReceipt H s entry answers = .ok t) : Shrinks s t := by
  simp only [storeReceipt] at hc
  split_ifs at hc
  all_goals try
    cases hc
    exact .of_eq rfl
  all_goals
    obtain ⟨u, hclose, hc⟩ := bind_eq_ok.mp hc
    cases hc
    have hshrinks :=
      closeKey_shrinks (h.congr (t := s.putReceipt entry.transferId _) rfl rfl) hclose
    exact hshrinks

theorem storeRoomReceipt_shrinks (h : OpenOk H s) {entry : RoomReceiptReport} {roomKey : Bytes32}
    {answers : Bool}
    (hc : storeRoomReceipt H s entry roomKey answers = .ok t) : Shrinks s t := by
  simp only [storeRoomReceipt] at hc
  split_ifs at hc
  · cases hc
    exact .refl s
  all_goals
    obtain ⟨u, hclose, hc⟩ := bind_eq_ok.mp hc
    cases hc
    have hshrinks :=
      closeKey_shrinks (h.congr (t := s.putRoomReceipt roomKey entry.receipt) rfl rfl) hclose
    exact hshrinks

theorem recordReceipt_shrinks (h : OpenOk H s) {entry : StandardReceiptReport}
    (hc : recordReceipt H s entry = .ok t) :
    Shrinks s t := by
  simp only [recordReceipt] at hc
  split_ifs at hc
  obtain ⟨⟨answers, u⟩, hans, hstore⟩ := bind_eq_ok.mp hc
  obtain ⟨hshrinks, hok⟩ := answerRequest_shrinks h hans
  cases answers with
  | true =>
    exact hshrinks.trans
      (storeReceipt_shrinks (s := u.bindTransfer entry.requestId entry.transferId)
      (hok.congr rfl rfl) hstore)
  | false => exact hshrinks.trans (storeReceipt_shrinks hok hstore)

theorem recordRoomReceipt_shrinks (h : OpenOk H s) {entry : RoomReceiptReport}
    (hc : recordRoomReceipt H s entry = .ok t) : Shrinks s t := by
  simp only [recordRoomReceipt] at hc
  split_ifs at hc
  obtain ⟨⟨answers, u⟩, hans, hstore⟩ := bind_eq_ok.mp hc
  obtain ⟨hshrinks, hok⟩ := answerRequest_shrinks h hans
  cases answers with
  | true =>
    exact hshrinks.trans (storeRoomReceipt_shrinks (s := u.bindRoom entry.requestId _)
      (hok.congr rfl rfl) hstore)
  | false => exact hshrinks.trans (storeRoomReceipt_shrinks hok hstore)

theorem closeRequest_shrinks (h : OpenOk H s) {closure : RequestClosure}
    (hc : closeRequest s closure = .ok t) :
    Shrinks s t := by
  unfold closeRequest at hc
  split_ifs at hc
  · cases hc
    exact .refl s
  · obtain ⟨u, hclose, hc⟩ := bind_eq_ok.mp hc
    cases hc
    have hshrinks := closeKey_shrinks h hclose
    exact hshrinks

theorem recordJob_shrinks (h : OpenOk H s) {entry : JobResultReport}
    (hc : recordJob H s entry = .ok t) :
    Shrinks s t := by
  simp only [recordJob] at hc
  split_ifs at hc
  obtain ⟨⟨answers, u⟩, hans, hc⟩ := bind_eq_ok.mp hc
  cases hc
  refine (answerRequest_shrinks h hans).1.trans ?_
  cases answers <;> exact .of_eq rfl

def Advances (s t : State) : Prop := ∀ k ∈ s.openKeys, k ∈ t.openKeys →
    t.openPosition k ≤ s.openPosition k

theorem Shrinks.advances (h : Shrinks s t) : Advances s t := fun k _ hk => (h k hk).2

theorem opened_advances (h : OpenOk H s) {key : Bytes32} (hkey : s.openPosition key = 0)
    (hslots : t.openSlots = s.openSlots.push key) : Advances s t := by
  intro k hk _
  have hne : k ≠ key := by
    rintro rfl
    exact (h.position_eq_zero k).mp hkey hk
  have hposition : t.openPosition k = s.openPosition k := by
    rw [State.openPosition, hslots]
    exact Function.update_of_ne hne _ _
  exact Nat.le_of_eq hposition

theorem openKey_slots {msg : Msg} {key : Bytes32} {kind : RequestKind}
    (hc : openKey s msg key kind = .ok t) :
    t.openSlots = s.openSlots.push key := by
  unfold openKey at hc
  split_ifs at hc
  cases hc
  rfl

theorem call_advances (h : OpenOk H s) {msg : Msg} {c : Call} (hc : s.call H msg c = .ok t) :
    Advances s t := by
  have hsame : t.openSlots = s.openSlots → Advances s t := fun he => (Shrinks.of_eq he).advances
  cases c with
  | requestTransfer requestId kind input =>
    simp only [State.call, requestTransfer] at hc
    split_ifs at hc with _ _ _ _ hfree
    · cases hc
      exact hsame rfl
    · obtain ⟨u, hopen, hc⟩ := bind_eq_ok.mp hc
      have hslots := openKey_slots hopen
      cases hc
      exact opened_advances h (not_not.mp (not_or.mp hfree).1) hslots
  | requestReceipt transferId =>
    simp only [State.call, requestReceipt] at hc
    split_ifs at hc with _ _ hfree
    · cases hc
      exact hsame rfl
    · obtain ⟨u, hopen, hc⟩ := bind_eq_ok.mp hc
      have hslots := openKey_slots hopen
      cases hc
      exact opened_advances h (not_not.mp (not_or.mp hfree).1) hslots
  | requestRoomReceipt room channel publication =>
    simp only [State.call, requestRoomReceipt] at hc
    split_ifs at hc with _ _ hfree
    · cases hc
      exact hsame rfl
    · obtain ⟨u, hopen, hc⟩ := bind_eq_ok.mp hc
      have hslots := openKey_slots hopen
      cases hc
      exact opened_advances h (not_not.mp (not_or.mp hfree).1) hslots
  | cancelRequest key =>
    simp only [State.call, cancelRequest] at hc
    split_ifs at hc
    obtain ⟨u, hclose, hc⟩ := bind_eq_ok.mp hc
    cases hc
    have hshrinks := closeKey_shrinks h hclose
    exact Shrinks.advances hshrinks
  | onReport metadata report =>
    simp only [State.call, onReport] at hc
    split at hc
    · cases hc
    · exact (processReport_relates .refl (fun _ _ _ => .trans)
        (fun _ _ _ h hc => recordReceipt_shrinks h hc)
        (fun _ _ _ h hc => recordRoomReceipt_shrinks h hc)
          (fun _ _ _ h hc => closeRequest_shrinks h hc)
        (fun _ _ _ h hc => recordJob_shrinks h hc) h hc).advances
  | _ => exact hsame (setting_frame hc trivial).1

theorem transact_advances (h : OpenOk H s) (msg : Msg) (c : Call) :
    Advances s (s.transact (s.call H msg c)) := by
  cases hcall : s.call H msg c with
  | error e => exact fun k _ _ => Nat.le_refl _
  | ok t => exact call_advances h hcall

end Beam.Contract
