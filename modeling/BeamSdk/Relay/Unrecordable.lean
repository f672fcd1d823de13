import BeamSdk.Relay.Listing
import BeamSdk.Relay.Queue

/-! Listed transfers that can never be recorded: when the pass that lists one is done with it,
whatever Beam, the website and the contract answer. -/

namespace Beam.Relay
open Contract (Hashes RequestKind)

section Gathered
variable {answers : (c : RelayCall) → Except Thrown c.Answer} {settings : RelaySettings}
    {customers : List Customer}
  {now : ℤ} {pending : PendingMap} {cursors : TransferCursors} {listings : List Listing}

theorem gatherListings_pending {pending' : PendingMap}
    (h : ((gatherListings settings customers now pending).run answers).1 =
      .ok (cursors, pending', listings)) :
    pending' = (listings.flatMap Listing.items).foldl addPending pending := by
  unfold gatherListings at h
  split at h
  · cases h
    rfl
  · rename_i mode _
    obtain ⟨_, _, h⟩ := Script.run_bind_eq_ok.mp h
    obtain ⟨gathered, hgathered, h⟩ := Script.run_bind_eq_ok.mp h
    cases h
    have hkeeps : ∀ customer ∈ customers, ∀ a b : PendingMap × List Listing,
        a.1 = (a.2.flatMap Listing.items).foldl addPending pending →
          ((listTransfers mode now cursors a customer).run answers).1 = .ok b →
            b.1 = (b.2.flatMap Listing.items).foldl addPending pending := by
      intro customer _ a b ha hb
      unfold listTransfers at hb
      split_ifs at hb
      · cases hb
        exact ha
      · obtain ⟨listed, _, hb⟩ := Script.run_bind_eq_ok.mp hb
        cases listed with
        | error e =>
          cases hb
          exact ha
        | ok listed =>
          cases hb
          rw [List.flatMap_append, List.foldl_append, ← ha, List.flatMap_singleton]
          exact addListed_eq ⟨customer, _, _⟩ a.1
    have hall := Script.foldlM_run_keeps
      (I := fun a : PendingMap × List Listing =>
        a.1 = (a.2.flatMap Listing.items).foldl addPending pending)
      hkeeps hgathered rfl
    exact hall

end Gathered

section Items
variable {H : Hashes} {levels : ReceiptLevels} {now : ℤ}
    {answers : (c : RelayCall) → Except Thrown c.Answer}
  {plan plan' : Plan} {item : Pending} {key : SubjectKey}

theorem unseen_settled (plan : Plan) (now : ℤ) (item : Pending) :
    (plan.unseen now item).settled = plan.settled := by
  unfold Plan.unseen
  split
  · split_ifs <;> rfl
  · rfl

theorem planNothing_settled (subject : Subject) (observation : Observation) :
    plan.settled ⊆ (planNothing now plan item subject observation).settled := by
  unfold planNothing
  split
  · rw [unseen_settled]
    exact List.Subset.refl _
  · exact List.Subset.refl _
  · split_ifs
    · exact List.subset_append_left _ _
    · exact List.Subset.refl _

theorem planEntry_settled {owner : Owner} {entry : ReportEntry}
    (h : ((planEntry H plan owner key entry).run answers).1 = .ok plan') :
      plan.settled ⊆ plan'.settled := by
  unfold planEntry at h
  split at h
  · obtain ⟨outcome, _, h⟩ := Script.run_bind_eq_ok.mp h
    cases outcome with
    | charged | released =>
      cases h
      exact List.subset_append_left _ _
    | held | refused | unavailable =>
      cases h
      exact List.Subset.refl _
  · cases h
    exact List.Subset.refl _

theorem planSubject_settled {subject : Subject}
    (h : ((planSubject H levels now plan item subject).run answers).1 = .ok plan') :
      plan.settled ⊆ plan'.settled := by
  obtain ⟨observation, _, h⟩ := Script.run_bind_eq_ok.mp h
  obtain ⟨entry, _, h⟩ := Script.run_bind_eq_ok.mp h
  cases entry with
  | none =>
    cases h
    exact planNothing_settled subject observation
  | some entry => exact planEntry_settled h

theorem planJob_settled {owner : Owner} {requested : JobSubject}
    (h : ((planJob H levels plan owner requested).run answers).1 = .ok plan') :
      plan'.settled = plan.settled := by
  unfold planJob at h
  obtain ⟨input, _, h⟩ := Script.run_bind_eq_ok.mp h
  cases input with
  | found inputId =>
    obtain ⟨output, _, h⟩ := Script.run_bind_eq_ok.mp h
    cases output with
    | found outputId =>
      obtain ⟨_, _, h⟩ := Script.run_bind_eq_ok.mp h
      obtain ⟨_, _, h⟩ := Script.run_bind_eq_ok.mp h
      obtain ⟨entries, _, h⟩ := Script.run_bind_eq_ok.mp h
      cases entries <;>
      · cases h
        rfl
    | absent | error | invalid | unavailable =>
      cases h
      rfl
  | absent | error | invalid | unavailable =>
    cases h
    rfl

theorem planItem_settled (h : ((planItem H levels now plan item).run answers).1 = .ok plan') :
    plan.settled ⊆ plan'.settled := by
  unfold planItem at h
  split at h
  · rw [planJob_settled h]
    exact List.Subset.refl _
  · obtain ⟨lookup, _, h⟩ := Script.run_bind_eq_ok.mp h
    split at h
    · cases h
      split_ifs
      · rw [unseen_settled]
        exact List.Subset.refl _
      · exact List.Subset.refl _
    · exact planSubject_settled h
  · exact planSubject_settled h

theorem planItem_listed {customer : Customer} {row : ListedTransfer} :
    planItem H levels now plan (listedPending customer row) =
      Script.ofExcept (reportEntryFor H (.transfer ⟨row.id, none⟩) row.observation levels) >>= fun
        | none => pure (planNothing now plan (listedPending customer row)
            (.transfer ⟨row.id, none⟩) row.observation)
        | some entry =>
            planEntry H plan (listedPending customer row).owner (.transfer row.id) entry := rfl

theorem planItem_unrecordable {customer : Customer} {row : ListedTransfer}
    (hrow : row.observation.unrecordable) :
    planItem H levels now plan (listedPending customer row) =
      pure (plan.settle (.transfer row.id)) := by
  rw [planItem_listed]
  cases hobservation : row.observation with
  | transfer | absent | pending =>
    rw [hobservation] at hrow
    exact hrow.elim
  | error | invalid | unavailable | notRoom | room => rfl

theorem settlePlanned_settled {settled settled' : List SubjectKey} {planned : Planned}
    (h : ((settlePlanned H settled planned).run answers).1 = .ok settled') :
      settled ⊆ settled' := by
  unfold settlePlanned at h
  split at h
  · obtain ⟨outcome, _, h⟩ := Script.run_bind_eq_ok.mp h
    cases outcome with
    | charged =>
      cases h
      exact List.subset_append_left _ _
    | held | released | refused | unavailable =>
      cases h
      exact List.Subset.refl _
  · cases h
    exact List.Subset.refl _

theorem writeBatches_settled {groups : List (List Planned)} {recorded recorded' : ℕ}
    {settled settled' : List SubjectKey}
    (h : ((writeBatches H groups recorded settled).run answers).1 = .ok (recorded', settled')) :
      settled ⊆ settled' := by
  induction groups generalizing recorded settled with
  | nil =>
    cases h
    exact List.Subset.refl _
  | cons batch groups ih =>
    obtain ⟨written, _, h⟩ := Script.run_bind_eq_ok.mp h
    cases written with
    | error e =>
      cases h
      exact List.Subset.refl _
    | ok done =>
      obtain ⟨next, hnext, h⟩ := Script.run_bind_eq_ok.mp h
      have hkeeps : settled ⊆ next := by
        refine Script.foldlM_run_keeps (I := fun kept => settled ⊆ kept) ?_ hnext
          (List.Subset.refl _)
        exact fun planned _ a b ha hb => List.Subset.trans ha (settlePlanned_settled hb)
      exact List.Subset.trans hkeeps (ih h)

end Items

section Queue
variable (H : Hashes) (settings : RelaySettings) (customers : List Customer)
    (requests : List OpenRequest)
  (listings : List Listing)

def owedRows : List ListedTransfer := listings.flatMap fun listing =>
    (listing.transfers.filter Prod.snd).map Prod.fst

def AskedFor (id : String) : Prop :=
  ∃ request ∈ requests, ∃ item ∈ requestItems H settings customers request,
    subjectKey item.subject = .transfer id

def firstRow (id : String) : Option ListedTransfer :=
    (owedRows listings).find? fun row => row.id = id

variable {H settings customers requests listings}

theorem addPending_kept {pending : PendingMap} {items : List Pending} {key : SubjectKey}
    {existing : Pending}
    (h : pending.get key = some existing) (hplain : ∀ item ∈ items, item.subject.requestId = none) :
    (items.foldl addPending pending).get key = some existing := by
  induction items generalizing pending with
  | nil => exact h
  | cons item items ih =>
    obtain ⟨hitem, hitems⟩ := List.forall_mem_cons.mp hplain
    refine ih ?_ hitems
    rw [get_addPending, h]
    split_ifs
    · simp only [prefer, hitem, ne_eq, not_true_eq_false, and_false, if_false]
    · rfl

theorem addPending_first {pending : PendingMap} {items : List Pending} {key : SubjectKey}
    (h : pending.get key = none)
    (hplain : ∀ item ∈ items, item.subject.requestId = none) :
    (items.foldl addPending pending).get key = items.find? fun item =>
      subjectKey item.subject = key := by
  induction items generalizing pending with
  | nil => exact h
  | cons item items ih =>
    obtain ⟨hitem, hitems⟩ := List.forall_mem_cons.mp hplain
    rw [List.foldl_cons, List.find?_cons]
    by_cases hkey : subjectKey item.subject = key
    · rw [decide_eq_true hkey]
      refine addPending_kept ?_ hitems
      rw [get_addPending, if_pos hkey, h]
      rfl
    · rw [decide_eq_false hkey]
      refine ih ?_ hitems
      rw [get_addPending, if_neg hkey, h]

theorem requestItems_observation {request : OpenRequest} {item : Pending}
    (h : item ∈ requestItems H settings customers request) : item.observation = none := by
  unfold requestItems at h
  split at h
  · split at h
    · rw [List.mem_singleton.mp h]
    · cases h
  · cases h

theorem listing_items_plain (item : Pending) (h : item ∈ listings.flatMap Listing.items) :
    item.subject.requestId = none := by
  obtain ⟨listing, _, hitem⟩ := List.mem_flatMap.mp h
  obtain ⟨row, _, rfl⟩ := mem_listing_items hitem
  rfl

variable (listings) in
theorem find?_listing_items (id : String) :
    ((listings.flatMap Listing.items).find? fun item =>
      subjectKey item.subject = .transfer id) = none ∧
        firstRow listings id = none ∨
      ∃ customer row,
        ((listings.flatMap Listing.items).find? fun item =>
          subjectKey item.subject = .transfer id) =
        some (listedPending customer row) ∧ firstRow listings id = some row := by
  unfold firstRow owedRows
  induction listings with
  | nil => exact .inl ⟨rfl, rfl⟩
  | cons listing listings ih =>
    rw [List.flatMap_cons, List.flatMap_cons, List.find?_append, List.find?_append, Listing.items]
    induction listing.transfers.filter Prod.snd with
    | nil => exact ih
    | cons transfer transfers ih' =>
      rw [List.map_cons, List.map_cons, List.find?_cons, List.find?_cons]
      by_cases hid : transfer.1.id = id
      · have hkey : subjectKey (listedPending listing.customer transfer.1).subject = .transfer id :=
          congrArg SubjectKey.transfer hid
        rw [decide_eq_true hid, decide_eq_true hkey]
        exact .inr ⟨listing.customer, transfer.1, rfl, rfl⟩
      · have hkey : subjectKey (listedPending listing.customer transfer.1).subject ≠ .transfer id :=
          fun h => hid (SubjectKey.transfer.inj h)
        rw [decide_eq_false hid, decide_eq_false hkey]
        exact ih'

variable {gathered : Gathered}

variable (listings) in
theorem get_gathered (hgathered : gatherRequests H settings customers requests = .ok gathered)
    (id : String) :
    (AskedFor H settings customers requests id ∧ ∃ item,
        ((listings.flatMap Listing.items).foldl addPending gathered.pending).get
          (.transfer id) = some item ∧
          item.observation = none) ∨
      (¬ AskedFor H settings customers requests id ∧ firstRow listings id = none ∧
        ((listings.flatMap Listing.items).foldl addPending gathered.pending).get
          (.transfer id) = none) ∨
      (¬ AskedFor H settings customers requests id ∧ ∃ customer row,
        firstRow listings id = some row ∧
        ((listings.flatMap Listing.items).foldl addPending gathered.pending).get (.transfer id) =
          some (listedPending customer row)) := by
  have hpending := gatherRequests_pending hgathered
  cases hget : gathered.pending.get (.transfer id) with
  | some item =>
    left
    have hitem : item ∈ requests.flatMap (requestItems H settings customers) := by
      have hkeyed := keyed_pendingOf (requests.flatMap (requestItems H settings customers))
      rw [hpending] at hget
      exact subset_of_pendingOf (List.mem_map.mpr ⟨_, OrderedMap.mem_of_get hget, rfl⟩)
    have hkey : subjectKey item.subject = .transfer id := by
      rw [hpending] at hget
      exact ((keyed_pendingOf _).key _ (OrderedMap.mem_of_get hget)).symm
    obtain ⟨request, hrequest, hmem⟩ := List.mem_flatMap.mp hitem
    exact ⟨⟨request, hrequest, item, hmem, hkey⟩, item, addPending_kept hget listing_items_plain,
      requestItems_observation hmem⟩
  | none =>
    right
    have hasked : ¬ AskedFor H settings customers requests id := by
      rintro ⟨request, hrequest, item, hmem, hkey⟩
      rw [hpending] at hget
      exact get_pendingOf_eq_none.mp hget item (List.mem_flatMap.mpr ⟨request, hrequest, hmem⟩) hkey
    have hfirst : ((listings.flatMap Listing.items).foldl addPending gathered.pending).get
        (.transfer id) = _ :=
      addPending_first hget listing_items_plain
    rcases find?_listing_items listings id with ⟨hnone, hrow⟩ | ⟨customer, row, hsome, hrow⟩
    · exact .inl ⟨hasked, hrow, hfirst.trans hnone⟩
    · exact .inr ⟨hasked, customer, row, hrow, hfirst.trans hsome⟩

end Queue

section Denied
variable {H : Hashes} {levels : ReceiptLevels} {now : ℤ} {plan : Plan} {item : Pending}

def deny : (c : RelayCall) → Except Thrown c.Answer
  | .findPublication _ _ => .ok .absent
  | .observe _ _ => .ok (.error 500)
  | .reserveCharge _ _ _ => .ok (.refused 402 "")
  | _ => .error ""

def ListedTransfer.Misnamed (row : ListedTransfer) : Prop :=
  (match row.observation with | .transfer _ _ _ _ _ _ => True | _ => False) ∧
    ∀ id, transferIdToBytes16 row.id ≠ .ok id

def Plannable (item : Pending) : Prop :=
  item.observation = none ∨ ∃ customer row, item = listedPending customer row ∧ ¬ row.Misnamed

/-- What a refused pass settles of an item: a listed row that can never be recorded. -/
def Given (item : Pending) : Prop := ∃ observation, item.observation = some observation ∧
    observation.unrecordable

theorem planSubject_denied {subject : Subject} (h : item.observation = none) :
    ∃ plan', ((planSubject H levels now plan item subject).run deny).1 = .ok plan' ∧
      plan'.planned = plan.planned ∧ plan'.settled = plan.settled := by
  have hentry : reportEntryFor H subject (.error 500) levels = .ok none := by cases subject <;> rfl
  have hnothing : planNothing now plan item subject (.error 500) = plan := by
    unfold planNothing
    rw [h]
    rfl
  refine ⟨plan, ?_, rfl, rfl⟩
  unfold planSubject observed
  rw [h]
  apply Script.run_bind_eq_ok.mpr
  refine ⟨.error 500, rfl, ?_⟩
  rw [planObserved, hentry]
  exact congrArg Except.ok hnothing

variable (H levels now plan) in
theorem planItem_denied_request (h : item.observation = none) :
    ∃ plan', ((planItem H levels now plan item).run deny).1 = .ok plan' ∧
      plan'.planned = plan.planned ∧ plan'.settled = plan.settled := by
  unfold planItem
  split
  · exact ⟨plan, rfl, rfl, rfl⟩
  · exact ⟨plan.unseen now item, rfl, unseen_planned plan now item, unseen_settled plan now item⟩
  · exact planSubject_denied h

variable (H levels now plan) in
theorem planItem_denied_listed (customer : Customer) {row : ListedTransfer} (h : ¬ row.Misnamed) :
    ∃ plan', ((planItem H levels now plan (listedPending customer row)).run deny).1 = .ok plan' ∧
      plan'.planned = plan.planned ∧
        plan'.settled = if row.observation.unrecordable then plan.settled ++ [.transfer row.id]
          else plan.settled := by
  by_cases hrow : row.observation.unrecordable
  · rw [planItem_unrecordable hrow, if_pos hrow]
    exact ⟨_, rfl, rfl, rfl⟩
  · rw [if_neg hrow, planItem_listed]
    cases hobservation : row.observation with
    | transfer status totalBytes bytesTransferred completedAtMs planFingerprint
        coordinateChecksum =>
      obtain ⟨id, hid⟩ : ∃ id, transferIdToBytes16 row.id = .ok id := by
        by_contra hnone
        refine h ⟨?_, fun id hid => hnone ⟨id, hid⟩⟩
        rw [hobservation]
        trivial
      refine ⟨plan, ?_, rfl, rfl⟩
      simp only [reportEntryFor, hid, bind, Except.bind]
      rfl
    | absent => exact ⟨_, rfl, unseen_planned plan now _, unseen_settled plan now _⟩
    | pending => exact ⟨_, rfl, rfl, rfl⟩
    | error | invalid | unavailable | notRoom | room =>
      rw [hobservation] at hrow
      exact absurd trivial hrow

variable (H levels now plan) in
theorem planItems_denied {items : List Pending} (hitems : ∀ item ∈ items, Plannable item) :
    ∃ plan', ((items.foldlM (planItem H levels now) plan).run deny).1 = .ok plan' ∧
      plan'.planned = plan.planned ∧
      ∀ key, key ∈ plan'.settled ↔ key ∈ plan.settled ∨
        ∃ item ∈ items, subjectKey item.subject = key ∧ Given item := by
  induction items generalizing plan with
  | nil => exact ⟨plan, rfl, rfl, fun key => by simp⟩
  | cons item items ih =>
    obtain ⟨hitem, hitems⟩ := List.forall_mem_cons.mp hitems
    obtain ⟨next, hnext, hplanned, hsettled⟩ : ∃ next,
        ((planItem H levels now plan item).run deny).1 = .ok next ∧
        next.planned = plan.planned ∧
          ∀ key, key ∈ next.settled ↔ key ∈ plan.settled ∨
            (subjectKey item.subject = key ∧ Given item) := by
      rcases hitem with hnone | ⟨customer, row, rfl, hrow⟩
      · obtain ⟨next, hnext, hplanned, hsettled⟩ := planItem_denied_request H levels now plan hnone
        refine ⟨next, hnext, hplanned, fun key => ?_⟩
        have hgiven : ¬ Given item := by
          rintro ⟨observation, hobservation, -⟩
          cases hnone.symm.trans hobservation
        rw [hsettled, or_iff_left fun h => hgiven h.2]
      · obtain ⟨next, hnext, hplanned, hsettled⟩ :=
          planItem_denied_listed H levels now plan customer hrow
        refine ⟨next, hnext, hplanned, fun key => ?_⟩
        have hgiven : Given (listedPending customer row) ↔ row.observation.unrecordable :=
          ⟨fun ⟨_, hobservation, h⟩ => Option.some.inj hobservation ▸ h, fun h => ⟨_, rfl, h⟩⟩
        rw [hsettled, hgiven]
        split_ifs with hunrecordable
        · rw [List.mem_append, List.mem_singleton, and_iff_left hunrecordable, eq_comm]
          rfl
        · rw [or_iff_left fun h => hunrecordable h.2]
    obtain ⟨plan', hplan', hplanned', hsettled'⟩ := ih next hitems
    refine ⟨plan', ?_, hplanned'.trans hplanned, fun key => ?_⟩
    · rw [List.foldlM_cons]
      exact Script.run_bind_eq_ok.mpr ⟨next, hnext, hplan'⟩
    · rw [hsettled', hsettled, or_assoc]
      simp only [List.mem_cons, exists_eq_or_imp]

end Denied

section Any
variable {H : Hashes} {levels : ReceiptLevels} {now : ℤ}
    {answers : (c : RelayCall) → Except Thrown c.Answer}
  {plan plan' : Plan} {items : List Pending} {customer : Customer} {row : ListedTransfer}

theorem planItems_settle (hitem : listedPending customer row ∈ items)
    (hrow : row.observation.unrecordable)
    (h : ((items.foldlM (planItem H levels now) plan).run answers).1 = .ok plan') :
      .transfer row.id ∈ plan'.settled := by
  induction items generalizing plan with
  | nil => cases hitem
  | cons item items ih =>
    rw [List.foldlM_cons] at h
    obtain ⟨next, hnext, h⟩ := Script.run_bind_eq_ok.mp h
    rcases List.mem_cons.mp hitem with rfl | hitem
    · rw [planItem_unrecordable hrow] at hnext
      cases hnext
      have hkept : (plan.settle (.transfer row.id)).settled ⊆ plan'.settled := by
        refine Script.foldlM_run_keeps (I := fun p : Plan =>
          (plan.settle (.transfer row.id)).settled ⊆ p.settled) ?_ h
          (List.Subset.refl _)
        exact fun item _ a b ha hb => List.Subset.trans ha (planItem_settled hb)
      exact hkept (List.mem_append_right _ (List.mem_singleton_self _))
    · exact ih hitem h

theorem planItems_misnamed (hitem : listedPending customer row ∈ items) (hrow : row.Misnamed) :
    ((items.foldlM (planItem H levels now) plan).run answers).1 ≠ .ok plan' := by
  intro h
  induction items generalizing plan with
  | nil => cases hitem
  | cons item items ih =>
    rw [List.foldlM_cons] at h
    obtain ⟨next, hnext, h⟩ := Script.run_bind_eq_ok.mp h
    rcases List.mem_cons.mp hitem with rfl | hitem
    · obtain ⟨hrecordable, hname⟩ := hrow
      rw [planItem_listed] at hnext
      obtain ⟨entry, hentry, -⟩ := Script.run_bind_eq_ok.mp hnext
      rw [Script.run_ofExcept] at hentry
      split at hrecordable
      · rename_i hobservation
        rw [hobservation] at hentry
        obtain ⟨id, hid, -⟩ := bind_eq_ok.mp hentry
        exact hname id hid
      · exact hrecordable
    · exact ih hitem h

end Any

section Samples

/-- An organization with a receipt for every transfer and an approved address of its own. -/
def sampleBoth : Customer where
  organizationId := "org"
  reader := ⟨"key", "org"⟩
  periods := [⟨0, none⟩]
  requesters := [⟨"requester", 7, .approved, .allowed⟩]
  reader_organizationId := rfl

def sampleInvalid : ListedTransfer := { sampleListed 5 20 with observation := .invalid "" }

def sampleAskedFor : OpenRequest where
  key := Contract.receiptRequestKey Contract.sampleHashes 5
  kind := RequestKind.receipt.code
  transferKind := 0
  requester := 7
  openedAt := 0
  requestId := 0
  transferId := 5
  room := ""
  channel := ""
  publication := ""

def sampleLists : (c : RelayCall) → Except Thrown c.Answer
  | .readTransferCursors => .ok []
  | .finishedTransfers _ _ => .ok [sampleInvalid]
  | call => deny call

def sampleGathered (asked : Bool) : Gathered :=
  ⟨if asked then [(.transfer sampleInvalid.id, ⟨.transfer ⟨sampleInvalid.id, none⟩,
    .customer "org" ⟨"key", "org"⟩ (.requester 7), none, some sampleAskedFor⟩)] else [], []⟩

def sampleListedOnce : Listing :=
    ⟨sampleBoth, initialTransferCursor sampleBoth, [(sampleInvalid, true)]⟩

end Samples

/-- In every way a pass can go on from what it gathered, its listed transfers that can never be
recorded are done with when the cursors are computed, exactly where each goes by a row of its own:
no open request the pass looks up asks for it, and the first row owed under its id can never be
recorded either. (Otherwise the pass must be bound to throw before it computes a cursor.) -/
theorem unrecordable_done_iff {H : Hashes} {settings : RelaySettings}
    {customers : List Customer} {now : ℤ}
    {requests : List OpenRequest} {gathered : Gathered}
    (hgathered : gatherRequests H settings customers requests = .ok gathered)
    {listingAnswers : (c : RelayCall) → Except Thrown c.Answer} {cursors : TransferCursors}
    {pending : PendingMap}
    {listings : List Listing}
    (hlistings : ((gatherListings settings customers now gathered.pending).run listingAnswers).1 =
      .ok (cursors, pending, listings)) :
    (∀ (answers : (c : RelayCall) → Except Thrown c.Answer) (recorded : ℕ)
      (settled : List SubjectKey)
      (unanswerable : List Unanswerable),
      ((settleReceipts H settings.levels now pending gathered.unanswerable).run answers).1 =
          .ok (recorded, settled, unanswerable) →
        ∀ row ∈ owedRows listings, row.observation.unrecordable →
          settled.contains (.transfer row.id) = true) ↔
      (∀ row ∈ owedRows listings, row.observation.unrecordable →
        ¬ AskedFor H settings customers requests row.id ∧
          ∀ first, firstRow listings row.id = some first → first.observation.unrecordable) ∨
        ∃ id first, ¬ AskedFor H settings customers requests id ∧
          firstRow listings id = some first ∧ first.Misnamed := by
  obtain rfl := gatherListings_pending hlistings
  have hgoes := get_gathered listings hgathered
  have hall : (listings.flatMap Listing.items).foldl addPending gathered.pending =
      pendingOf (requests.flatMap (requestItems H settings customers) ++
        listings.flatMap Listing.items) := by
    rw [gatherRequests_pending hgathered, pendingOf, pendingOf, List.foldl_append]
  have hid : ∀ {id first}, firstRow listings id = some first → first.id = id := by
    intro id first hfirst
    simpa using List.find?_some hfirst
  have hitem : ∀ {customer row},
      ((listings.flatMap Listing.items).foldl addPending gathered.pending).get (.transfer row.id) =
      some (listedPending customer row) →
        listedPending customer row ∈
          ((listings.flatMap Listing.items).foldl addPending gathered.pending).map Prod.snd :=
    fun hget => List.mem_map.mpr ⟨_, OrderedMap.mem_of_get hget, rfl⟩
  constructor
  · intro h
    by_contra hnot
    obtain ⟨halone, hnamed⟩ := not_or.mp hnot
    have hplannable :
        ∀ item ∈ ((listings.flatMap Listing.items).foldl addPending gathered.pending).map Prod.snd,
        Plannable item := by
      intro item hmem
      rw [hall] at hmem
      rcases List.mem_append.mp (subset_of_pendingOf hmem) with hrequest | hlisted
      · obtain ⟨request, _, hrequest⟩ := List.mem_flatMap.mp hrequest
        exact .inl (requestItems_observation hrequest)
      · obtain ⟨listing, _, hlisted⟩ := List.mem_flatMap.mp hlisted
        obtain ⟨row, _, rfl⟩ := mem_listing_items hlisted
        have hget := mem_pendingOf.mp hmem
        rw [← hall] at hget
        rcases hgoes row.id with ⟨_, item, hitem, hnone⟩ | ⟨_, _, hitem⟩ |
          ⟨hasked, customer, first, hfirst, hitem⟩
        · cases hget.symm.trans hitem
          cases hnone
        · cases hget.symm.trans hitem
        · rw [Option.some.inj (hget.symm.trans hitem)]
          exact .inr ⟨customer, first, rfl, fun hmisnamed =>
            hnamed ⟨row.id, first, hasked, hfirst, hmisnamed⟩⟩
    obtain ⟨plan', hrun, hplanned, hsettled⟩ :=
      planItems_denied H settings.levels now ⟨[], [], gathered.unanswerable⟩ hplannable
    have hdenied :
        ((settleReceipts H settings.levels now
          ((listings.flatMap Listing.items).foldl addPending gathered.pending)
        gathered.unanswerable).run deny).1 = .ok (0, plan'.settled, plan'.unanswerable) := by
      have hnone : batches [] = [] := rfl
      refine Script.run_bind_eq_ok.mpr ⟨plan', hrun, ?_⟩
      rw [hplanned, hnone]
      exact Script.run_bind_eq_ok.mpr ⟨(0, plan'.settled), rfl, rfl⟩
    refine halone fun row hrow hunrecordable => ?_
    have hdone := h deny _ _ _ hdenied row hrow hunrecordable
    obtain ⟨item, hmem, hkey, observation, hobservation, hgiven⟩ :=
      ((hsettled _).mp (List.contains_iff_mem.mp hdone)).resolve_left List.not_mem_nil
    have hget := mem_pendingOf.mp (hall ▸ hmem)
    rw [← hall, hkey] at hget
    rcases hgoes row.id with ⟨_, item', hitem', hnone⟩ | ⟨_, _, hitem'⟩ |
      ⟨hasked, customer, first, hfirst, hitem'⟩
    · cases hget.symm.trans hitem'
      cases hnone.symm.trans hobservation
    · cases hget.symm.trans hitem'
    · cases hget.symm.trans hitem'
      cases hobservation
      refine ⟨hasked, fun first' hfirst' => ?_⟩
      cases hfirst.symm.trans hfirst'
      exact hgiven
  · rintro (halone | ⟨id, first, hasked, hfirst, hmisnamed⟩)
      answers recorded settled unanswerable hrun row hrow hunrecordable
    · obtain ⟨plan, hplan, hrun⟩ := Script.run_bind_eq_ok.mp hrun
      obtain ⟨⟨written, kept⟩, hwritten, hrun⟩ := Script.run_bind_eq_ok.mp hrun
      cases hrun
      obtain ⟨hasked, hfirsts⟩ := halone row hrow hunrecordable
      rcases hgoes row.id with ⟨hasked', _⟩ | ⟨_, hnone, _⟩ | ⟨_, customer, first, hfirst, hget⟩
      · exact absurd hasked' hasked
      · have hself := List.find?_eq_none.mp hnone row hrow
        exact absurd (decide_eq_true rfl) hself
      · have hsame := hid hfirst
        rw [← hsame] at hget
        have hsettles := planItems_settle (hitem hget) (hfirsts first hfirst) hplan
        rw [hsame] at hsettles
        exact List.contains_iff_mem.mpr (writeBatches_settled hwritten hsettles)
    · obtain ⟨plan, hplan, hrun⟩ := Script.run_bind_eq_ok.mp hrun
      rcases hgoes id with ⟨hasked', _⟩ | ⟨_, hnone, _⟩ | ⟨_, customer, first', hfirst', hget⟩
      · exact absurd hasked' hasked
      · cases hnone.symm.trans hfirst
      · cases hfirst.symm.trans hfirst'
        rw [← hid hfirst] at hget
        exact absurd hplan (planItems_misnamed (hitem hget) hmisnamed)

/-- The transfer is asked for and looked up again, to no avail: its cursor does not pass it. -/
theorem sample_pinned :
    gatherRequests Contract.sampleHashes (sampleCustomers 10) [sampleBoth]
      [sampleAskedFor] = .ok (sampleGathered true) ∧
      ∃ pending,
        ((gatherListings (sampleCustomers 10) [sampleBoth] 1000 (sampleGathered true).pending).run
          sampleLists).1 =
          .ok ([], pending, [sampleListedOnce]) ∧
        sampleInvalid ∈ owedRows [sampleListedOnce] ∧ sampleInvalid.observation.unrecordable ∧
          ((settleReceipts Contract.sampleHashes (sampleCustomers 10).levels 1000 pending []).run
            deny).1 = .ok (0, [], []) ∧
            sampleListedOnce.nextCursor [] = 19 := by
  refine ⟨rfl, _, rfl, List.mem_singleton_self _, trivial, ?_, ?_⟩
  · rfl
  · decide +kernel

theorem sample_done :
    gatherRequests Contract.sampleHashes (sampleCustomers 10) [sampleBoth]
      [] = .ok (sampleGathered false) ∧
      ∀ (answers : (c : RelayCall) → Except Thrown c.Answer) (recorded : ℕ)
        (settled : List SubjectKey)
        (unanswerable : List Unanswerable),
        ((settleReceipts Contract.sampleHashes (sampleCustomers 10).levels 1000
            [(.transfer sampleInvalid.id, listedPending sampleBoth sampleInvalid)]
              []).run answers).1 =
            .ok (recorded, settled, unanswerable) →
              settled.contains (.transfer sampleInvalid.id) = true := by
  have hgathered : gatherRequests Contract.sampleHashes (sampleCustomers 10) [sampleBoth]
      [] = .ok (sampleGathered false) :=
    rfl
  have hlistings :
      ((gatherListings (sampleCustomers 10) [sampleBoth] 1000 (sampleGathered false).pending).run
      sampleLists).1 =
        .ok ([], [(.transfer sampleInvalid.id, listedPending sampleBoth sampleInvalid)],
        [sampleListedOnce]) := rfl
  have hiff := unrecordable_done_iff hgathered hlistings
  have hfirst : firstRow [sampleListedOnce] sampleInvalid.id = some sampleInvalid := by
    decide +kernel
  have hdone := hiff.mpr (.inl fun row hrow _ => ⟨?_, fun first h => ?_⟩)
  · refine ⟨hgathered, fun answers recorded settled unanswerable hrun => ?_⟩
    exact hdone answers recorded settled unanswerable hrun sampleInvalid
      (List.mem_singleton_self _) trivial
  · rintro ⟨request, hrequest, -⟩
    exact List.not_mem_nil hrequest
  · obtain rfl := List.mem_singleton.mp hrow
    cases hfirst.symm.trans h
    trivial

end Beam.Relay
