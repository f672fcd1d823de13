import BeamSdk.Contract.Guarantees
import BeamSdk.Relay.Pass

/-! What a synced allowlist leaves allowed on the contract, where one address is in several rows. -/

namespace Beam.Relay
open Contract (Address Hashes)

namespace Requester

def Changes (requester : Requester) : Prop := requester.allow ∨ requester.remove

instance (requester : Requester) : Decidable requester.Changes :=
    inferInstanceAs (Decidable (_ ∨ _))

end Requester

def rowsOf (customers : List Customer) : List Requester := customers.flatMap Customer.requesters

section Listing
variable (address : Address)

def lastChange : List Requester → Option Requester
  | [] => none
  | requester :: rows =>
    match lastChange rows with
    | some later => some later
    | none => if requester.address = address ∧ requester.Changes then some requester else none

variable {address} {rows : List Requester} {requester : Requester}

theorem lastChange_eq_some (h : lastChange address rows = some requester) :
    requester ∈ rows ∧ requester.address = address ∧ requester.Changes := by
  induction rows with
  | nil => cases h
  | cons first rows ih =>
    rw [lastChange] at h
    split at h
    · rename_i later hlater
      cases h
      have hrest := ih hlater
      exact ⟨List.mem_cons_of_mem _ hrest.1, hrest.2⟩
    · split_ifs at h with hfirst
      cases h
      exact ⟨List.mem_cons_self .., hfirst⟩

theorem lastChange_eq_none (h : lastChange address rows = none) :
    ∀ requester ∈ rows, requester.address = address → ¬ requester.Changes := by
  induction rows with
  | nil => exact fun requester hrequester => absurd hrequester List.not_mem_nil
  | cons first rows ih =>
    rw [lastChange] at h
    split at h
    · cases h
    · rename_i hrest
      split_ifs at h with hfirst
      intro requester hmem haddress hchanges
      rcases List.mem_cons.mp hmem with rfl | hmem
      · exact hfirst ⟨haddress, hchanges⟩
      · exact ih hrest requester hmem haddress hchanges

end Listing

section Sync
variable {answers : (c : RelayCall) → Except Thrown c.Answer}

def Succeeds (answers : (c : RelayCall) → Except Thrown c.Answer) : Prop :=
    ∀ c, ∃ a, answers c = .ok a

def syncCalls (answers : (c : RelayCall) → Except Thrown c.Answer) (requester : Requester) :
    List RelayCall :=
  if requester.Changes then
    .setRequester requester.address requester.allow ::
      match answers (.setRequester requester.address requester.allow) with
      | .ok hash => [.reportAllowlist requester.id requester.allow hash]
      | .error _ => []
  else []

theorem syncRequester_run (h : Succeeds answers) (changed : ℕ) (requester : Requester) :
    (syncRequester changed requester).run answers =
      (.ok (if requester.Changes then changed + 1 else changed), syncCalls answers requester) := by
  have hchanges : (¬ requester.allow ∧ ¬ requester.remove) ↔ ¬ requester.Changes := not_or.symm
  unfold syncRequester syncCalls
  by_cases hrow : requester.Changes
  · obtain ⟨hash, hhash⟩ := h (.setRequester requester.address requester.allow)
    obtain ⟨done, hdone⟩ := h (.reportAllowlist requester.id requester.allow hash)
    have hset : (io (.setRequester requester.address requester.allow)).run answers = _ :=
      Script.run_io hhash
    have hreport : (io (.reportAllowlist requester.id requester.allow hash)).run answers = _ :=
      Script.run_io hdone
    rw [if_neg fun hnone => hchanges.mp hnone hrow, if_pos hrow, if_pos hrow, hhash]
    rw [Script.run_bind (Script.run_attempt _), Script.run_bind hset, hreport]
    rfl
  · rw [if_pos (hchanges.mpr hrow), if_neg hrow, if_neg hrow]
    rfl

theorem syncAllowlist_run (h : Succeeds answers) (customers : List Customer) :
    ((syncAllowlist customers).run answers).2 = (rowsOf customers).flatMap (syncCalls answers) := by
  have hcustomer : ∀ customer ∈ customers, ∀ changed,
      (customer.requesters.foldlM syncRequester changed).run answers =
        (.ok (customer.requesters.foldl (fun changed requester =>
          if requester.Changes then changed + 1 else changed) changed),
          customer.requesters.flatMap (syncCalls answers)) :=
    fun customer _ changed => Script.run_foldlM changed fun requester _ changed =>
      syncRequester_run h changed requester
  have hrun := Script.run_foldlM 0 hcustomer
  rw [syncAllowlist, hrun, rowsOf, List.flatMap_assoc]

def mined (H : Hashes) (timestamp : ℕ) (s : Contract.State) : RelayCall → Contract.State
  | .setRequester address allowed =>
      s.transact (s.call H ⟨s.owner, timestamp⟩ (.setRequester address allowed))
  | _ => s

def afterSync (H : Hashes) (timestamp : ℕ) (answers : (c : RelayCall) → Except Thrown c.Answer)
    (customers : List Customer) (s : Contract.State) : Contract.State :=
  ((syncAllowlist customers).run answers).2.foldl (mined H timestamp) s

variable {H : Hashes} {timestamp : ℕ} {s : Contract.State} {customers : List Customer}
    {address : Address}

theorem mined_setRequester (H : Hashes) (timestamp : ℕ) (s : Contract.State) (address : Address)
    (allowed : Bool) :
    (mined H timestamp s (.setRequester address allowed)).owner = s.owner ∧
      (mined H timestamp s (.setRequester address allowed)).requesters =
        Function.update s.requesters address allowed := by
  simp only [mined, Contract.State.call, Contract.setRequester, Contract.onlyOwner]
  rw [if_neg (not_not.mpr rfl)]
  exact ⟨rfl, rfl⟩

variable (answers H timestamp s) in
theorem syncCalls_mined (requester : Requester) :
    ((syncCalls answers requester).foldl (mined H timestamp) s).owner = s.owner ∧
      ((syncCalls answers requester).foldl (mined H timestamp) s).requesters =
        if requester.Changes then Function.update s.requesters requester.address requester.allow
          else s.requesters := by
  unfold syncCalls
  split_ifs
  · have hset := mined_setRequester H timestamp s requester.address (decide requester.allow)
    split
    · exact hset
    · exact hset
  · exact ⟨rfl, rfl⟩

variable (answers H timestamp s address) in
theorem syncRows_mined (rows : List Requester) :
    ((rows.flatMap (syncCalls answers)).foldl (mined H timestamp) s).owner = s.owner ∧
      ((rows.flatMap (syncCalls answers)).foldl (mined H timestamp) s).requesters address =
        match lastChange address rows with
        | some requester => decide requester.allow
        | none => s.requesters address := by
  induction rows generalizing s with
  | nil => exact ⟨rfl, rfl⟩
  | cons requester rows ih =>
    rw [List.flatMap_cons, List.foldl_append, lastChange]
    obtain ⟨howner, hrequesters⟩ := syncCalls_mined answers H timestamp s requester
    obtain ⟨howner', hrest⟩ := ih (s := (syncCalls answers requester).foldl (mined H timestamp) s)
    refine ⟨howner'.trans howner, hrest.trans ?_⟩
    cases hlast : lastChange address rows with
    | some later => rfl
    | none =>
      simp only
      rw [hrequesters]
      by_cases hchanges : requester.Changes
      · by_cases haddress : requester.address = address
        · subst haddress
          rw [if_pos hchanges, if_pos ⟨rfl, hchanges⟩, Function.update_self]
        · rw [if_pos hchanges, if_neg fun h => haddress h.1,
            Function.update_of_ne (Ne.symm haddress)]
      · rw [if_neg hchanges, if_neg fun h => hchanges h.2]

end Sync

section Agreement
variable (s : Contract.State) (customers : List Customer)

/-- The contract allows an address of the registry where one of its rows says so, and only there. -/
def AllowlistsAgree : Prop :=
  ∀ requester ∈ rowsOf customers, s.isRequester requester.address ↔
    ∃ row ∈ rowsOf customers, row.address = requester.address ∧ row.allowlist = .allowed

instance : Decidable (AllowlistsAgree s customers) := inferInstanceAs (Decidable (∀ _ ∈ _, _ ↔ _))

def SomeApproved (address : Address) : Prop :=
  ∃ requester ∈ rowsOf customers, requester.address = address ∧ requester.status = .approved

def AllRevoked (address : Address) : Prop :=
  (∃ requester ∈ rowsOf customers, requester.address = address) ∧
    ∀ requester ∈ rowsOf customers, requester.address = address → requester.status = .revoked

/-- At every approved address but the contract's owner the last change allows it, and the owner is
not an address that is revoked in all its rows. -/
def LastChangesAllow : Prop :=
  (∀ address, SomeApproved customers address → address ≠ s.owner →
      ∀ requester, lastChange address (rowsOf customers) = some requester →
        requester.status = .approved) ∧
    ¬ AllRevoked customers s.owner

end Agreement

/-- A sync leaves the approved addresses allowed, and those revoked in all rows not allowed, where
the last change at each approved address allows it: a row that is revoked and still allowed takes
away what another row's approval had given, unless one that still has to be allowed comes after it.
-/
theorem allowlist_follows_iff (H : Hashes) (timestamp : ℕ)
    {answers : (c : RelayCall) → Except Thrown c.Answer}
    (hsucceeds : Succeeds answers) {s : Contract.State} {customers : List Customer}
    (hagree : AllowlistsAgree s customers) :
    (∀ address,
      (SomeApproved customers address →
        (afterSync H timestamp answers customers s).isRequester address) ∧
      (AllRevoked customers address →
        ¬ (afterSync H timestamp answers customers s).isRequester address)) ↔
      LastChangesAllow s customers := by
  have hafter : ∀ address, (afterSync H timestamp answers customers s).isRequester address ↔
      address = s.owner ∨ (match lastChange address (rowsOf customers) with
        | some requester => decide requester.allow
        | none => s.requesters address) = true := by
    intro address
    obtain ⟨howner, hrequesters⟩ := syncRows_mined answers H timestamp s address (rowsOf customers)
    rw [afterSync, syncAllowlist_run hsucceeds, Contract.State.isRequester, howner, hrequesters]
  constructor
  · intro h
    refine ⟨fun address happroved howner requester hlast => ?_, fun hrevoked => ?_⟩
    · have hallowed := (hafter address).mp ((h address).1 happroved)
      rw [hlast] at hallowed
      exact (of_decide_eq_true (hallowed.resolve_left howner)).1
    · exact (h s.owner).2 hrevoked ((hafter s.owner).mpr (.inl rfl))
  · rintro ⟨hlasts, howner⟩ address
    refine ⟨fun happroved => (hafter address).mpr ?_, fun hrevoked hallowed => ?_⟩
    · by_cases howned : address = s.owner
      · exact .inl howned
      refine .inr ?_
      cases hlast : lastChange address (rowsOf customers) with
      | some requester =>
        have hchanges := (lastChange_eq_some hlast).2.2
        have hstatus := hlasts address happroved howned requester hlast
        refine decide_eq_true (hchanges.resolve_right fun hremove => ?_)
        cases hstatus.symm.trans hremove.1
      | none =>
        obtain ⟨requester, hmem, rfl, hstatus⟩ := happroved
        -- a row that is approved and changes nothing is allowed already
        have hkept := lastChange_eq_none hlast requester hmem rfl
        have hsaid : requester.allowlist = .allowed := by
          by_contra hnot
          exact hkept (.inl ⟨hstatus, hnot⟩)
        exact ((hagree requester hmem).mpr ⟨requester, hmem, rfl, hsaid⟩).resolve_left howned
    · obtain ⟨⟨known, hknown, rfl⟩, hall⟩ := hrevoked
      have howned : known.address ≠ s.owner := by
        intro heq
        exact howner (heq ▸ ⟨⟨known, hknown, rfl⟩, hall⟩)
      have hallowed := ((hafter known.address).mp hallowed).resolve_left howned
      cases hlast : lastChange known.address (rowsOf customers) with
      | some requester =>
        rw [hlast] at hallowed
        obtain ⟨hmem, haddress, -⟩ := lastChange_eq_some hlast
        cases (of_decide_eq_true hallowed).1.symm.trans (hall requester hmem haddress)
      | none =>
        rw [hlast] at hallowed
        obtain ⟨row, hrow, haddress, hsaid⟩ := (hagree known hknown).mp (.inr hallowed)
        exact lastChange_eq_none hlast row hrow haddress (.inr ⟨hall row hrow haddress, hsaid⟩)

section Sample

def sampleSyncAnswers : (c : RelayCall) → Except Thrown c.Answer
  | .finalizedBlock => .ok 0
  | .transferRequests _ _ => .ok []
  | .deliver _ _ => .ok (.accepted none)
  | .openRequests => .ok []
  | .findPublication _ _ => .ok .absent
  | .observe _ _ => .ok .pending
  | .writeReport _ => .ok ()
  | .readCursor => .ok none
  | .saveCursor _ => .ok ()
  | .customers => .ok []
  | .setRequester _ _ => .ok 0
  | .cancelRequest _ => .ok ()
  | .reportAllowlist _ _ _ => .ok ()
  | .finishedTransfers _ _ => .ok []
  | .reserveCharge _ _ _ => .ok .held
  | .commitCharge _ => .ok .charged
  | .readTransferCursors => .ok []
  | .saveTransferCursors _ => .ok ()
  | .uncommittedCloses => .ok []
  | .setUncommitted _ _ => .ok ()
  | .deleteUncommitted _ => .ok ()

theorem sampleSyncAnswers_succeed : Succeeds sampleSyncAnswers := by
  intro c
  cases c <;> exact ⟨_, rfl⟩

def sampleRegistered (organizationId : String) (status : RequesterStatus) : Customer where
  organizationId := organizationId
  reader := ⟨"k", organizationId⟩
  periods := []
  requesters := [⟨organizationId, 5, status, .allowed⟩]
  reader_organizationId := rfl

def sampleAllowing : Contract.State :=
    mined Contract.sampleHashes 0 Contract.sampleDeployed (.setRequester 5 true)

/-- Address 5 is approved for one organization and revoked for another, both allowed so far. -/
def sampleRegistry : List Customer :=
    [sampleRegistered "a" .approved, sampleRegistered "b" .revoked]

theorem sampleRegistry_agrees : AllowlistsAgree sampleAllowing sampleRegistry := by decide +kernel

/-- The other organization's row takes the approved address off the contract. -/
theorem sample_locked_out :
    AllowlistsAgree sampleAllowing sampleRegistry ∧ SomeApproved sampleRegistry 5 ∧
      ¬ (afterSync Contract.sampleHashes 0 sampleSyncAnswers sampleRegistry
        sampleAllowing).isRequester 5 := by
  refine ⟨sampleRegistry_agrees, ?_, ?_⟩
  · exact ⟨⟨"a", 5, .approved, .allowed⟩, List.mem_cons_self .., rfl, rfl⟩
  · decide +kernel

theorem sample_followed :
    (afterSync Contract.sampleHashes 0 sampleSyncAnswers [sampleRegistered "a" .approved]
      sampleAllowing).isRequester 5 := by
  have hagree : AllowlistsAgree sampleAllowing [sampleRegistered "a" .approved] := by decide +kernel
  have hiff := allowlist_follows_iff Contract.sampleHashes 0 sampleSyncAnswers_succeed hagree
  have hlast : LastChangesAllow sampleAllowing [sampleRegistered "a" .approved] := by
    refine ⟨fun address _ _ requester hlast => ?_, fun hrevoked => ?_⟩
    · obtain ⟨hmem, -, -⟩ := lastChange_eq_some hlast
      cases List.mem_singleton.mp hmem
      rfl
    · obtain ⟨requester, hmem, howner⟩ := hrevoked.1
      cases List.mem_singleton.mp hmem
      exact absurd howner (by decide +kernel)
  exact (hiff.mpr hlast 5).1 ⟨_, List.mem_cons_self .., rfl, rfl⟩

end Sample
end Beam.Relay
