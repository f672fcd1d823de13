import BeamSdk.Contract.Reports
import BeamSdk.Library.Result

/-! The open-request set: what its three storage variables say together, and what opening and
closing a key do to them. -/

namespace Beam.Contract

/-- What a request asks for: a transfer under its request id, or the receipt of a transfer or of a
Room publication that exists already. -/
inductive Demand
  | transfer (requestId : Bytes32)
  | receipt (transferId : Bytes16)
  | room (roomKey : Bytes32)
  deriving DecidableEq, Repr

def Demand.encoding : Demand → List Bytes32
  | .transfer requestId => requestEncoding .transfer requestId
  | .receipt transferId => requestEncoding .receipt (transferIdWord transferId)
  | .room roomKey => requestEncoding .roomReceipt roomKey

theorem transferIdWord_injective : Function.Injective transferIdWord := by
  intro a b h
  have he := congrArg (BitVec.extractLsb' 128 128) h
  simpa only [transferIdWord, BitVec.extractLsb'_append_eq_left] using he

theorem Demand.encoding_injective : Function.Injective Demand.encoding := by
  intro a b h
  cases a <;> cases b <;>
    simp_all [Demand.encoding, requestEncoding, RequestKind.code, transferIdWord_injective.eq_iff]

section
variable (H : Hashes)

def Demand.key (d : Demand) : Bytes32 := H.keccak256 d.encoding

def OpenRequest.demand (r : OpenRequest) : Option Demand :=
  match r.kind with
  | .none => none
  | .transfer => some (.transfer r.requestId)
  | .receipt => some (.receipt r.transferId)
  | .roomReceipt => some (.room (roomReceiptKey H r.room r.channel r.publication))

structure OpenOk (s : State) : Prop where
  slots : s.openSlots.Positioned
  bounded : s.openKeys.length ≤ MAX_OPEN_REQUESTS
  unlisted : ∀ k, k ∉ s.openKeys → s.openRequests k = OpenRequest.zero
  listed : ∀ k ∈ s.openKeys, (s.openRequests k).key = k ∧
    ∃ d, (s.openRequests k).demand H = some d ∧ d.key H = k

end

def State.closed (s : State) (key : Bytes32) (slots : Slots Bytes32) : State :=
  { s with openSlots := slots, openRequests := Function.update s.openRequests key OpenRequest.zero }

def State.opened (s : State) (key : Bytes32) (request : OpenRequest) : State :=
  { s with openSlots := s.openSlots.push key, openRequests :=
    Function.update s.openRequests key request }

variable {H : Hashes} {s : State}

theorem OpenOk.position_eq_zero (h : OpenOk H s) (k : Bytes32) :
    s.openPosition k = 0 ↔ k ∉ s.openKeys := h.slots.position_eq_zero k

theorem OpenOk.demand_key (h : OpenOk H s) {k : Bytes32} {d : Demand}
    (hd : (s.openRequests k).demand H = some d) : d.key H = k := by
  by_cases hk : k ∈ s.openKeys
  · obtain ⟨-, d', hd', hkey⟩ := h.listed k hk
    rw [hd, Option.some.injEq] at hd'
    rw [hd', hkey]
  · rw [h.unlisted k hk] at hd
    cases hd

theorem OpenOk.emit (h : OpenOk H s) (e : Event) : OpenOk H (s.emit e) :=
  ⟨h.slots, h.bounded, h.unlisted, h.listed⟩

theorem OpenOk.closeKey (h : OpenOk H s) (key : Bytes32) :
    ∃ slots, closeKey s key = .ok (s.closed key slots) ∧ OpenOk H (s.closed key slots) := by
  by_cases hkey : key ∈ s.openKeys
  · have hpos : s.openPosition key ≠ 0 := fun h0 => (h.position_eq_zero key).mp h0 hkey
    obtain ⟨slots, hpop, hok, hlen, hmem⟩ := h.slots.swapPop hkey
    refine ⟨slots, ?_, hok, ?_, fun k hk => ?_, fun k hk => ?_⟩
    · simp only [Contract.closeKey, if_neg hpos, hpop, State.closed]
    · have hb : s.openSlots.keys.length ≤ MAX_OPEN_REQUESTS := h.bounded
      show slots.keys.length ≤ MAX_OPEN_REQUESTS
      omega
    · by_cases he : k = key
      · simp only [State.closed, he, Function.update_self]
      · have hk' : k ∉ s.openKeys := fun hks => hk ((hmem k).mpr ⟨hks, he⟩)
        simp only [State.closed, Function.update_of_ne he, h.unlisted k hk']
    · obtain ⟨hks, he⟩ := (hmem k).mp hk
      simpa only [State.closed, Function.update_of_ne he] using h.listed k hks
  · have hpos : s.openPosition key = 0 := (h.position_eq_zero key).mpr hkey
    have hsame : s.closed key s.openSlots = s := by
      simp only [State.closed, ← h.unlisted key hkey, Function.update_eq_self]
    refine ⟨s.openSlots, ?_, ?_⟩
    · rw [hsame]
      simp only [Contract.closeKey, if_pos hpos]
    · rwa [hsame]

theorem OpenOk.opened (h : OpenOk H s) {key : Bytes32} {request : OpenRequest} {d : Demand}
    (hkey : key ∉ s.openKeys) (hroom : s.openKeys.length < MAX_OPEN_REQUESTS)
    (hk : request.key = key) (hd : request.demand H = some d) (hdk : d.key H = key) :
    OpenOk H (s.opened key request) := by
  refine ⟨h.slots.push hkey, ?_, fun k hks => ?_, fun k hks => ?_⟩
  · show (s.openSlots.push key).keys.length ≤ MAX_OPEN_REQUESTS
    rw [Slots.push, List.length_append, List.length_singleton]
    exact hroom
  · have hne : k ≠ key ∧ k ∉ s.openKeys := by
      have := mt (s.openSlots.mem_push key k).mpr hks
      exact ⟨fun he => this (.inr he), fun hm => this (.inl hm)⟩
    simp only [State.opened, Function.update_of_ne hne.1, h.unlisted k hne.2]
  · by_cases he : k = key
    · subst he
      simp only [State.opened, Function.update_self]
      exact ⟨hk, d, hd, hdk⟩
    · have hm : k ∈ s.openKeys := ((s.openSlots.mem_push key k).mp hks).resolve_right he
      simpa only [State.opened, Function.update_of_ne he] using h.listed k hm

theorem openKey_eq_ok {msg : Msg} {key : Bytes32} {kind : RequestKind} {t : State}
    (set : OpenRequest → OpenRequest) (h : openKey s msg key kind = .ok t) :
    s.openKeys.length < MAX_OPEN_REQUESTS ∧
      t.setOpenRequest key set = s.opened key (set { s.openRequests key with
        key := key, kind :=
          kind, requester := msg.sender, openedAt := UInt64.ofNat msg.timestamp }) := by
  simp only [openKey] at h
  split at h
  · cases h
  · rename_i hlt
    cases h
    refine ⟨by omega, ?_⟩
    simp only [State.setOpenRequest, State.opened, Function.update_self, Function.update_idem]

/-- A request id that an entry of this kind does not answer: none, one with an answer, or one whose
open request asks for another kind. -/
def Refused (H : Hashes) (s : State) (requestId : Bytes32) (kind : TransferKind) : Prop :=
  requestId = 0 ∨ s.isAnswered requestId ∨
    (s.openPosition (transferRequestKey H requestId) ≠ 0 ∧
      (s.openRequests (transferRequestKey H requestId)).transferKind ≠ kind)

theorem answerRequest_refused {requestId : Bytes32} {kind : TransferKind} (h : Refused H
    s requestId kind) :
    answerRequest H s requestId kind = .ok (false, s) := by
  unfold answerRequest
  rcases h with h0 | ha | hw
  · rw [if_pos (.inl h0)]
  · rw [if_pos (.inr ha)]
  · by_cases hdone : requestId = 0 ∨ s.isAnswered requestId
    · rw [if_pos hdone]
    · rw [if_neg hdone, if_pos hw]

/-- What `answerRequest` did: it bound nothing and changed nothing, or the id was free to bind and
its open request, if it had one, asked for this kind and is now closed. -/
theorem answerRequest_cases (hs : OpenOk H s) {requestId : Bytes32} {kind : TransferKind}
    {answers : Bool} {t : State} (h : answerRequest H s requestId kind = .ok (answers, t)) :
    (answers = false ∧ t = s ∧ Refused H s requestId kind) ∨
      (answers = true ∧ requestId ≠ 0 ∧ ¬ s.isAnswered requestId ∧
        ∃ slots, t = s.closed (transferRequestKey H requestId) slots ∧ OpenOk H t) := by
  simp only [answerRequest] at h
  split at h
  · rename_i hdone
    cases h
    exact .inl ⟨rfl, rfl, hdone.elim .inl fun ha => .inr (.inl ha)⟩
  · rename_i hfree
    obtain ⟨hne, hun⟩ := not_or.mp hfree
    split at h
    · rename_i hw
      cases h
      exact .inl ⟨rfl, rfl, .inr (.inr hw)⟩
    · obtain ⟨slots, hclose, hok⟩ := hs.closeKey (transferRequestKey H requestId)
      rw [hclose] at h
      cases h
      exact .inr ⟨rfl, hne, hun, slots, rfl, hok⟩

end Beam.Contract
