import BeamSdk.Contract.Guarantees
import BeamSdk.Relay.Outcomes

/-! Two passes that differ by one open request of an organization: what the others' transfers come
to. -/

namespace Beam.Relay
open Contract (Address Hashes RequestKind)

section Comes
variable (H : Hashes) (levels : ReceiptLevels) (now : ℤ) (listings : Listings) (outcomes : Outcomes)
  (receive : Receive)

def plannedOf (items : List Pending) : List Planned :=
  items.flatMap fun item => (effect H levels now listings outcomes item).1.planned

def recordedOf (items : List Pending) : List Planned :=
  taken receive (batches (plannedOf H levels now listings outcomes items))

def Settles (items : List Pending) (key : SubjectKey) : Prop :=
  (∃ item ∈ items, key ∈ (effect H levels now listings outcomes item).1.settled) ∨
    ∃ planned ∈ recordedOf H levels now listings outcomes receive items,
      key ∈ committed H outcomes planned

structure Comes (items : List Pending) (all : List Listing) (calls : List RelayCall) : Prop where
  reserves : ∀ subject organizationId via, .reserveCharge subject organizationId via ∈ calls ↔
    ∃ item ∈ items, .reserveCharge subject organizationId via ∈
      (effect H levels now listings outcomes item).2
  writes : ∀ subject, Writes H receive calls subject ↔
    ∃ planned ∈ recordedOf H levels now listings outcomes receive items,
      chargeSubjectOf H planned.entry = some subject
  commits : ∀ subject, .commitCharge subject ∈ calls ↔
    ∃ planned ∈ recordedOf H levels now listings outcomes receive items,
      planned.charge H = some subject
  saves : ∃ settled,
    (∀ key, key ∈ settled ↔ Settles H levels now listings outcomes receive items key) ∧
    ∀ cursors, .saveTransferCursors cursors ∈ calls ↔
      all ≠ [] ∧ cursors = moveCursors listings.transferCursors all settled

end Comes

section Runs
variable {H : Hashes} {settings : RelaySettings} {mode : CustomersMode}
    {customers : List Customer} {now : ℤ}
  {listings : Listings} {outcomes : Outcomes} {receive : Receive} {requests : List OpenRequest}

theorem mem_append_of_stage {c : RelayCall} {front back : List RelayCall} {stage : Stage}
    (hfront : ∀ d ∈ front, d.stage = stage) (hc : decide (c.stage = stage) = false) :
    c ∈ front ++ back ↔ c ∈ back := by
  rw [List.mem_append, or_iff_right fun hmem => of_decide_eq_false hc (hfront c hmem)]

theorem mem_append_of_stage' {c : RelayCall} {front back : List RelayCall} {stage : Stage}
    (hback : ∀ d ∈ back, d.stage = stage) (hc : decide (c.stage = stage) = false) :
    c ∈ front ++ back ↔ c ∈ front := by
  rw [List.mem_append, or_iff_left fun hmem => of_decide_eq_false hc (hback c hmem)]

theorem saveListings_run (cursors : TransferCursors) (all : List Listing)
    (settled : List SubjectKey) :
    (saveListings cursors all settled).run (reply listings outcomes receive requests) =
      (.ok (), if all = [] then []
        else [.saveTransferCursors (moveCursors cursors all settled)]) := by
  unfold saveListings
  split_ifs
  · rfl
  · exact io_run listings outcomes receive requests _

theorem mem_plannedOf {levels : ReceiptLevels} {items : List Pending} {planned : Planned} :
    planned ∈ plannedOf H levels now listings outcomes items ↔
      ∃ item ∈ items, planned ∈ (effect H levels now listings outcomes item).1.planned :=
        List.mem_flatMap

theorem runReceipts_run {gathered : Gathered} {pending : PendingMap} {all : List Listing} {plan : Plan}
    {total : ℕ} {settled : List SubjectKey} {gatherCalls planCalls writeCalls : List RelayCall}
    (hgathered : gatherRequests H settings customers requests = .ok gathered)
    (hgather : (gatherListings settings customers now gathered.pending).run
      (reply listings outcomes receive requests) =
        (.ok (listings.transferCursors, pending, all), gatherCalls))
    (hplan : ((pending.map Prod.snd).foldlM (planItem H settings.levels now)
      ⟨[], [], gathered.unanswerable⟩).run (reply listings outcomes receive requests) =
        (.ok plan, planCalls))
    (hwrite : (writeBatches H (batches plan.planned) 0 plan.settled).run
      (reply listings outcomes receive requests) = (.ok (total, settled), writeCalls)) :
    ((runReceipts H settings customers now).run (reply listings outcomes receive requests)).2 =
      (.openRequests :: gatherCalls) ++ (planCalls ++ (writeCalls ++
        if all = [] then []
        else [.saveTransferCursors (moveCursors listings.transferCursors all settled)])) := by
  have hmatch : Script.ofExcept (gatherRequests H settings customers requests) =
      (Script.done gathered : Program Gathered) := by
    rw [hgathered]
    rfl
  have hsettle : (settleReceipts H settings.levels now pending gathered.unanswerable).run
      (reply listings outcomes receive requests) =
        (.ok (total, settled, plan.unanswerable), planCalls ++ writeCalls) := by
    unfold settleReceipts
    rw [Script.run_bind hplan, Script.run_bind hwrite]
    exact Prod.ext rfl (congrArg (_ ++ ·) (List.append_nil writeCalls))
  rw [runReceipts_eq, Script.run_bind (io_run listings outcomes receive requests .openRequests)]
  show [RelayCall.openRequests] ++
    (Script.run _ (Script.ofExcept (gatherRequests H settings customers requests) >>= _)).2 = _
  rw [hmatch, Script.done_bind, Script.run_bind hgather, Script.run_bind hsettle,
    Script.run_bind (saveListings_run _ _ _)]
  simp only [List.cons_append, List.nil_append, List.append_assoc, List.append_cancel_left_eq,
    List.cons.injEq, true_and]
  exact List.append_nil _

theorem runReceipts_comes (hmode : settings.customers = some mode) {gathered : Gathered}
    (hgathered : gatherRequests H settings customers requests = .ok gathered)
    (hitems : ∀ item ∈
      (((customers.filterMap (listings.listing mode now)).flatMap Listing.items).foldl addPending
      gathered.pending).map Prod.snd, item.WellNamed) :
    Comes H settings.levels now listings outcomes receive
      ((((customers.filterMap (listings.listing mode now)).flatMap Listing.items).foldl addPending
        gathered.pending).map Prod.snd)
      (customers.filterMap (listings.listing mode now))
      ((runReceipts H settings customers now).run
        (reply listings outcomes receive requests)).2 := by
  obtain ⟨gatherCalls, hgatherCalls, hgather⟩ :=
    gatherListings_run listings now outcomes receive requests hmode
    customers gathered.pending
  generalize
    ((customers.filterMap (listings.listing mode now)).flatMap Listing.items).foldl addPending
    gathered.pending = pending at hgather hitems ⊢
  generalize customers.filterMap (listings.listing mode now) = all at hgather ⊢
  have hplan := planItems_run H settings.levels now listings outcomes receive requests hitems
    ⟨[], [], gathered.unanswerable⟩
  have hplanned := planned_foldl_append (pending.map Prod.snd)
    (fun item => (effect H settings.levels now listings outcomes item).1)
      ⟨[], [], gathered.unanswerable⟩
  generalize hlast : (pending.map Prod.snd).foldl
    (fun (plan : Plan) item => plan.append (effect H settings.levels now listings outcomes item).1)
    ⟨[], [], gathered.unanswerable⟩ = plan at hplan hplanned
  rw [List.nil_append] at hplanned
  have hgroups : ∀ batch ∈ batches plan.planned, batch.length ≤ MAX_ENTRIES_PER_REPORT ∧
      ∀ planned ∈ batch, entryBytes planned.entry ≤ 1664 := by
    refine fun batch hbatch => ⟨length_of_mem_batches hbatch, fun planned hmem => ?_⟩
    have hin := mem_batches.mp ⟨batch, hbatch, hmem⟩
    rw [hplanned] at hin
    obtain ⟨item, hitem, hin⟩ := List.mem_flatMap.mp hin
    exact (effect_spec (hitems item hitem)).1.small planned hin
  obtain ⟨total, settled, writeCalls, hwrite, hwrote⟩ :=
    writeBatches_run listings outcomes receive requests hgroups
    0 plan.settled
  have hsettled : ∀ key, key ∈ settled ↔
      Settles H settings.levels now listings outcomes receive (pending.map Prod.snd) key := by
    intro key
    rw [hwrote.settled key, ← hlast, mem_settled, or_iff_right List.not_mem_nil, hlast, hplanned]
    rfl
  rw [hplanned] at hwrote
  have hplanStage : ∀ c ∈ (pending.map Prod.snd).flatMap fun item =>
      (effect H settings.levels now listings outcomes item).2, c.stage = .planning := by
    intro c hc
    obtain ⟨item, hitem, hc⟩ := List.mem_flatMap.mp hc
    exact (effect_spec (hitems item hitem)).1.stage c hc
  have hcalls := runReceipts_run hgathered hgather hplan hwrite
  have hgatherStage : ∀ c ∈ RelayCall.openRequests :: gatherCalls, c.stage = .gathering :=
    List.forall_mem_cons.mpr ⟨rfl, hgatherCalls⟩
  have hsaveStage : ∀ c ∈ (if all = [] then [] else
      [RelayCall.saveTransferCursors (moveCursors listings.transferCursors all settled)]),
        c.stage = .saving := by
    intro c hc
    split_ifs at hc
    · cases hc
    · rw [List.mem_singleton.mp hc]
      rfl
  rw [hcalls]
  refine ⟨fun subject organizationId via => ?_, fun subject => ?_,
    fun subject => ?_, settled, hsettled, fun cursors => ?_⟩
  · rw [mem_append_of_stage (c := .reserveCharge subject organizationId via) hgatherStage rfl,
      List.mem_append, List.mem_flatMap, or_iff_left]
    intro hc
    rcases List.mem_append.mp hc with hc | hc
    · cases hwrote.stage _ hc
    · cases hsaveStage _ hc
  · have hmem : ∀ report, RelayCall.writeReport report ∈
        ((RelayCall.openRequests :: gatherCalls) ++ (((pending.map
        Prod.snd).flatMap fun item => (effect H settings.levels now listings outcomes item).2) ++
          (writeCalls ++
          if all = [] then []
            else [.saveTransferCursors (moveCursors listings.transferCursors all settled)]))) ↔
        .writeReport report ∈ writeCalls := by
      intro report
      rw [mem_append_of_stage (c := .writeReport report) hgatherStage rfl,
        mem_append_of_stage (c := .writeReport report) hplanStage rfl,
        mem_append_of_stage' (c := .writeReport report) hsaveStage rfl]
    refine Iff.trans ?_ (hwrote.reports subject)
    simp only [Writes, hmem]
  · rw [mem_append_of_stage (c := .commitCharge subject) hgatherStage rfl,
      mem_append_of_stage (c := .commitCharge subject) hplanStage rfl,
      mem_append_of_stage' (c := .commitCharge subject) hsaveStage rfl]
    exact hwrote.commits subject
  · rw [mem_append_of_stage (c := .saveTransferCursors cursors) hgatherStage rfl,
      mem_append_of_stage (c := .saveTransferCursors cursors) hplanStage rfl,
      mem_append_of_stage (c := .saveTransferCursors cursors) hwrote.stage rfl]
    split_ifs with hall
    · simp [hall]
    · simp [hall]

theorem runReceipts_error {e : Thrown}
    (h : gatherRequests H settings customers requests = .error e) :
    ((runReceipts H settings customers now).run (reply listings outcomes receive requests)).2 =
      [.openRequests] := by
  have hthrows : Script.ofExcept (gatherRequests H settings customers requests) =
      (Script.fail e : Program Gathered) := by
    rw [h]
    rfl
  unfold runReceipts
  rw [Script.run_bind (io_run listings outcomes receive requests .openRequests)]
  show [RelayCall.openRequests] ++
    (Script.run _ (Script.ofExcept (gatherRequests H settings customers requests) >>= _)).2 = _
  rw [hthrows]
  rfl

end Runs

section Seen
variable (H : Hashes) (settings : RelaySettings) (customers : List Customer) (now : ℤ)
    (listings : Listings)
  (outcomes : Outcomes) (receive : Receive)

def callsOf (requests : List OpenRequest) : List RelayCall :=
  ((runReceipts H settings customers now).run (reply listings outcomes receive requests)).2

def ListedFor (organizationId : String) (row : ListedTransfer) : Prop :=
  ∃ customer ∈ customers, customer.organizationId = organizationId ∧
    ∃ rows, listings.rows now customer = some rows ∧ row ∈ rows

def Reserves (calls : List RelayCall) (organizationId transferId : String) : Prop :=
  ∃ via, .reserveCharge (.transfer transferId) organizationId via ∈ calls ∧
    outcomes.reserveCharge (.transfer transferId) organizationId via = .held

def Commits (calls : List RelayCall) (transferId : String) : Prop :=
  .commitCharge (.transfer transferId) ∈ calls ∧
    outcomes.commitCharge (.transfer transferId) = .charged

def Saves (calls : List RelayCall) (organizationId : String) (cursor : ℤ) : Prop :=
  ∃ cursors, .saveTransferCursors cursors ∈ calls ∧
    OrderedMap.get cursors organizationId = some cursor

/-- The two passes come to the same for every transfer listed for the organization, and for its
cursor. -/
structure Unaffected (organizationId : String) (requests requests' : List OpenRequest) : Prop where
  reserved : ∀ row, ListedFor customers now listings organizationId row →
    (Reserves outcomes (callsOf H settings customers now listings outcomes receive requests')
      organizationId row.id ↔
      Reserves outcomes (callsOf H settings customers now listings outcomes receive requests)
        organizationId row.id)
  written : ∀ row, ListedFor customers now listings organizationId row →
    (Writes H receive (callsOf H settings customers now listings outcomes receive requests')
      (.transfer row.id) ↔
      Writes H receive (callsOf H settings customers now listings outcomes receive requests)
        (.transfer row.id))
  committed : ∀ row, ListedFor customers now listings organizationId row →
    (Commits outcomes
      (callsOf H settings customers now listings outcomes receive requests') row.id ↔
      Commits outcomes (callsOf H settings customers now listings outcomes receive requests) row.id)
  saved : ∀ cursor,
    (Saves (callsOf H settings customers now listings outcomes receive requests')
      organizationId cursor ↔
      Saves (callsOf H settings customers now listings outcomes receive requests)
        organizationId cursor)

/-- A request for a transfer's receipt, opened by an approved address of `opener`. -/
structure ReceiptAskedBy (opener : Customer) (request : OpenRequest) : Prop where
  kind : request.kind = RequestKind.receipt.code
  requester : request.requester ≠ settings.relayAccount
  approved : (customersBy .approved customers).get request.requester = some opener

/-- Open requests as the contract holds them: each under a key of its own, made of the transfer id
where a receipt is asked for, and none with a long name. -/
structure Openable (requests : List OpenRequest) : Prop where
  keys : (requests.map OpenRequest.key).Nodup
  receipts : ∀ request ∈ requests, request.kind = RequestKind.receipt.code →
    request.key = Contract.receiptRequestKey H request.transferId
  names : ∀ request ∈ requests,
    ∀ name ∈ [request.room, request.channel, request.publication], Short name

def DeploymentRoutes.names (routes : DeploymentRoutes) : List String :=
  (routes.roomDelivery.toList.flatMap fun route => [route.room, route.channel]) ++
    routes.jobOutput.toList.flatMap fun output => [output.channel, output.computeMemberId]

def itemsOf (mode : CustomersMode) (requests : List OpenRequest) : List Pending :=
  (pendingOf (requests.flatMap (requestItems H settings customers) ++
    (customers.filterMap (listings.listing mode now)).flatMap Listing.items)).map Prod.snd

/-- An entry can be made of what was observed for the item, unless it is still to be observed. -/
def Pending.Recordable (levels : ReceiptLevels) (item : Pending) : Prop :=
  ∀ observation, item.observation = some observation →
    ∃ entry, reportEntryFor H item.subject observation levels = .ok (some entry)

def WaitsFor (planned : List Planned) (entry : Planned) (report : Contract.EncodedReport) : Prop :=
  entry ∈ planned ∧ ∃ before batch after, batches planned = before ++ batch :: after ∧
    (∀ earlier ∈ before, entry ∉ earlier) ∧ report = encodedOf batch

/-- No other open request asks for the transfer, and the organization has it listed itself, or has
another transfer to record. -/
def Joins (mode : CustomersMode) (organizationId : String) (requests : List OpenRequest)
    (request : OpenRequest) : Prop :=
  (∃ gathered, gatherRequests H settings customers requests = .ok gathered ∧
    gathered.pending.get (.transfer (bytes16ToTransferId request.transferId)) = none) ∧
  ∃ row, ListedFor customers now listings organizationId row ∧
    (row.id = bytes16ToTransferId request.transferId ∨
    ∃ item ∈ itemsOf H settings customers now listings mode requests,
      subjectKey item.subject = .transfer row.id ∧ item.Recordable H settings.levels)

/-- Another open request asks for the transfer, and where it is looked up in the other's stead, an
entry of the organization's comes to wait for another report. -/
def Recuts (mode : CustomersMode) (organizationId : String) (before after : List OpenRequest)
    (request : OpenRequest) :
    Prop :=
  (∃ gathered, gatherRequests H settings customers (before ++ after) = .ok gathered ∧
    gathered.pending.get (.transfer (bytes16ToTransferId request.transferId)) ≠ none) ∧
  ∃ outcomes row entry report, ListedFor customers now listings organizationId row ∧
    chargeSubjectOf H entry.entry = some (.transfer row.id) ∧
    ¬ (WaitsFor (plannedOf H settings.levels now listings outcomes
        (itemsOf H settings customers now listings mode (before ++ request :: after)))
          entry report ↔
      WaitsFor (plannedOf H settings.levels now listings outcomes
        (itemsOf H settings customers now listings mode (before ++ after))) entry report)

def askedPending (opener : Customer) (request : OpenRequest) : Pending where
  subject := .transfer ⟨bytes16ToTransferId request.transferId, none⟩
  owner := .customer opener.organizationId opener.reader (.requester request.requester)
  observation := none
  request := some request

end Seen

section WellNamed
variable {H : Hashes} {settings : RelaySettings} {mode : CustomersMode}
    {customers : List Customer} {now : ℤ}
  {listings : Listings} {request : OpenRequest} {requests : List OpenRequest} {item : Pending}

theorem subjectForOpenRequest_wellNamed {subject : Subject}
    (h : subjectForOpenRequest H settings.clientId settings.routes request = .ok (some subject))
    (hroutes : ∀ name ∈ settings.routes.names, Short name)
    (hnames : ∀ name ∈ [request.room, request.channel, request.publication], Short name) :
      subject.WellNamed := by
  unfold subjectForOpenRequest at h
  unfold DeploymentRoutes.names at hroutes
  split_ifs at h
  · obtain ⟨route, hroute, rfl⟩ := Option.map_eq_some_iff.mp (Except.ok.inj h)
    rw [hroute] at hroutes
    exact ⟨fun _ hkey => (by cases hkey),
      fun name hname =>
        hroutes name (List.mem_append_left _ (by simpa [Subject.names] using hname))⟩
  · split at h
    · rename_i delivery output hdelivery houtput
      cases h
      rw [hdelivery, houtput] at hroutes
      exact ⟨fun _ hkey => (by cases hkey), fun name hname =>
        hroutes name (by simpa [Subject.names] using hname)⟩
    · cases h
  · cases h
  · obtain ⟨transferId, hid, hsubject⟩ := bind_eq_ok.mp h
    obtain ⟨requestId, -, hderived⟩ := bind_eq_ok.mp hid
    cases hsubject
    refine ⟨fun text htext => ?_, fun name hname => absurd hname List.not_mem_nil⟩
    unfold transferIdForIdempotencyKey at hderived
    simp only at hderived
    split_ifs at hderived
    exact ⟨_, (SubjectKey.transfer.inj htext).symm.trans (Except.ok.inj hderived).symm⟩
  · cases h
    exact ⟨fun text htext => ⟨_, (SubjectKey.transfer.inj htext).symm⟩,
      fun name hname => absurd hname List.not_mem_nil⟩
  · cases h
    exact ⟨fun _ hkey => (by cases hkey), hnames⟩

theorem requestItems_wellNamed (hroutes : ∀ name ∈ settings.routes.names, Short name)
    (hnames : ∀ name ∈ [request.room, request.channel, request.publication], Short name)
    (hitem : item ∈ requestItems H settings customers request) : item.WellNamed := by
  unfold requestItems at hitem
  split at hitem
  · split at hitem
    · rename_i hsubject
      rw [List.mem_singleton.mp hitem]
      exact ⟨subjectForOpenRequest_wellNamed hsubject hroutes hnames, nofun⟩
    · cases hitem
  · cases hitem

theorem listed_of_listing {customer : Customer} {listing : Listing}
    (h : listings.listing mode now customer = some listing) : listing.customer = customer ∧
      ∀ transfer ∈ listing.transfers, ∃ rows, listings.rows now customer = some rows ∧
        transfer.1 ∈ rows := by
  obtain ⟨rows, hrows, rfl⟩ := Option.map_eq_some_iff.mp h
  refine ⟨rfl, fun transfer htransfer => ⟨rows, hrows, ?_⟩⟩
  obtain ⟨row, hrow, rfl⟩ := List.mem_map.mp htransfer
  exact (List.mem_insertionSort _).mp (List.mem_of_mem_take hrow)

theorem isTransferId_of_rows {customer : Customer} {rows : List ListedTransfer}
    (h : listings.rows now customer = some rows) {row : ListedTransfer} (hrow : row ∈ rows) :
      IsTransferId row.id := by
  unfold Listings.rows at h
  split_ifs at h
  cases hfinished : listings.finishedTransfers customer.reader (listings.cursor customer) with
  | error e =>
    rw [hfinished] at h
    cases h
  | ok listed =>
    rw [hfinished] at h
    cases h
    exact listings.ids _ _ _ hfinished row hrow

theorem listingItems_wellNamed
    (hitem : item ∈ (customers.filterMap (listings.listing mode now)).flatMap Listing.items) :
    item.WellNamed ∧ item.subject.requestId = none ∧
      ∃ customer transfer, item = listedPending customer transfer := by
  obtain ⟨listing, hlisting, hitem⟩ := List.mem_flatMap.mp hitem
  obtain ⟨customer, -, hlisting⟩ := List.mem_filterMap.mp hlisting
  obtain ⟨transfer, htransfer, rfl⟩ := mem_listing_items hitem
  obtain ⟨rows, hrows, hrow⟩ := (listed_of_listing hlisting).2 _ htransfer
  refine ⟨⟨⟨fun text htext => ?_, nofun⟩, fun _ => ⟨_, rfl⟩⟩, rfl, _, _, rfl⟩
  rw [← SubjectKey.transfer.inj htext]
  exact isTransferId_of_rows hrows hrow

end WellNamed

def SameAt (key : SubjectKey) (items items' : List Pending) : Prop :=
  ∀ item, subjectKey item.subject = key → (item ∈ items' ↔ item ∈ items)

section Compare
variable {H : Hashes} {levels : ReceiptLevels} {now : ℤ} {listings : Listings} {outcomes : Outcomes}
  {receive : Receive} {items items' : List Pending} {all : List Listing}
    {calls calls' : List RelayCall}
  {transferId : String}

theorem SameAt.exists_iff {key : SubjectKey} (h : SameAt key items items') {P : Pending → Prop}
    (hP : ∀ item, item ∈ items ∨ item ∈ items' → P item → subjectKey item.subject = key) :
    (∃ item ∈ items', P item) ↔ ∃ item ∈ items, P item := by
  constructor
  · rintro ⟨item, hitem, hPitem⟩
    exact ⟨item, (h item (hP item (.inr hitem) hPitem)).mp hitem, hPitem⟩
  · rintro ⟨item, hitem, hPitem⟩
    exact ⟨item, (h item (hP item (.inl hitem) hPitem)).mpr hitem, hPitem⟩

theorem key_of_mem_committed {planned : Planned} {key : SubjectKey}
    (h : key ∈ committed H outcomes planned) :
    planned.key = key := by
  unfold committed at h
  split at h
  · cases h
  · split_ifs at h
    · exact (List.mem_singleton.mp h).symm
    · cases h

theorem charge_entry {planned : Planned} {subject : ChargeSubject}
    (h : planned.charge H = some subject) :
    chargeSubjectOf H planned.entry = some subject := by
  unfold Planned.charge at h
  split at h
  · cases h
  · exact h

theorem isOk_iff {result : Except Thrown Unit} : result.isOk = true ↔ result = .ok () := by
  cases result with
  | ok done => exact iff_of_true rfl rfl
  | error e => exact iff_of_false Bool.false_ne_true nofun

theorem mem_recordedOf {planned : Planned} :
    planned ∈ recordedOf H levels now listings outcomes receive items ↔
    planned ∈ plannedOf H levels now listings outcomes items ∧
      ∀ report, WaitsFor (plannedOf H levels now listings outcomes items) planned report →
        receive report = .ok () := by
  rw [recordedOf, taken, mem_flatten_takeWhile, flatten_batches]
  refine and_congr_right fun hplanned => ?_
  constructor
  · rintro h _ ⟨-, before, batch, after, hbatches, hearlier, rfl⟩
    exact isOk_iff.mp (h before batch after hbatches hearlier)
  · intro h before batch after hbatches hearlier
    exact isOk_iff.mpr (h _ ⟨hplanned, before, batch, after, hbatches, hearlier, rfl⟩)

theorem item_of_recorded (hitems : ∀ item ∈ items, item.WellNamed) {planned : Planned}
    (h : planned ∈ recordedOf H levels now listings outcomes receive items) : ∃ item ∈ items,
      planned ∈ (effect H levels now listings outcomes item).1.planned ∧
        Effect H item (effect H levels now listings outcomes item).1
          (effect H levels now listings outcomes item).2 := by
  obtain ⟨item, hitem, hplanned⟩ := mem_plannedOf.mp (mem_recordedOf.mp h).1
  exact ⟨item, hitem, hplanned, (effect_spec (hitems item hitem)).1⟩

section Recorded
variable (hitems : ∀ item, item ∈ items ∨ item ∈ items' → item.WellNamed)
  (hsame : SameAt (.transfer transferId) items items')
  (hrecorded : ∀ planned, chargeSubjectOf H planned.entry = some (.transfer transferId) →
    (planned ∈ recordedOf H levels now listings outcomes receive items' ↔
      planned ∈ recordedOf H levels now listings outcomes receive items))
include hrecorded

theorem exists_recorded_iff {P : Planned → Prop}
    (hP : ∀ planned, planned ∈ recordedOf H levels now listings outcomes receive items ∨
      planned ∈ recordedOf H levels now listings outcomes receive items' → P planned →
        chargeSubjectOf H planned.entry = some (.transfer transferId)) :
    (∃ planned ∈ recordedOf H levels now listings outcomes receive items', P planned) ↔
      ∃ planned ∈ recordedOf H levels now listings outcomes receive items, P planned := by
  constructor
  · rintro ⟨planned, hmem, hplanned⟩
    exact ⟨planned, (hrecorded planned (hP planned (.inr hmem) hplanned)).mp hmem, hplanned⟩
  · rintro ⟨planned, hmem, hplanned⟩
    exact ⟨planned, (hrecorded planned (hP planned (.inl hmem) hplanned)).mpr hmem, hplanned⟩

theorem Comes.writes_iff (h : Comes H levels now listings outcomes receive items all calls)
    (h' : Comes H levels now listings outcomes receive items' all calls') :
    Writes H receive calls' (.transfer transferId) ↔
      Writes H receive calls (.transfer transferId) := by
  rw [h.writes, h'.writes]
  exact exists_recorded_iff hrecorded fun _ _ hcharge => hcharge

theorem Comes.commits_iff (h : Comes H levels now listings outcomes receive items all calls)
    (h' : Comes H levels now listings outcomes receive items' all calls') :
    Commits outcomes calls' transferId ↔ Commits outcomes calls transferId := by
  unfold Commits
  rw [h.commits, h'.commits]
  exact and_congr_left fun _ => exists_recorded_iff hrecorded fun _ _ hcharge =>
    charge_entry hcharge

include hitems hsame

theorem settles_iff : Settles H levels now listings outcomes receive items' (.transfer transferId) ↔
    Settles H levels now listings outcomes receive items (.transfer transferId) := by
  refine or_congr ?_ ?_
  · exact hsame.exists_iff fun item hitem hsettled =>
      (effect_spec (hitems item hitem)).1.settled transferId hsettled
  · refine exists_recorded_iff hrecorded fun planned hmem hcommitted => ?_
    have hof : ∃ item, planned ∈ (effect H levels now listings outcomes item).1.planned ∧
        Effect H item (effect H levels now listings outcomes item).1
          (effect H levels now listings outcomes item).2 := by
      rcases hmem with hmem | hmem
      · obtain ⟨item, -, hplanned⟩ :=
          item_of_recorded (fun item hitem => hitems item (.inl hitem)) hmem
        exact ⟨item, hplanned⟩
      · obtain ⟨item, -, hplanned⟩ :=
          item_of_recorded (fun item hitem => hitems item (.inr hitem)) hmem
        exact ⟨item, hplanned⟩
    obtain ⟨item, hplanned, heffect⟩ := hof
    exact heffect.keyed planned hplanned transferId (key_of_mem_committed hcommitted)

omit hrecorded

theorem Comes.reserves_iff (h : Comes H levels now listings outcomes receive items all calls)
    (h' : Comes H levels now listings outcomes receive items' all calls')
    (organizationId : String) :
    Reserves outcomes calls' organizationId transferId ↔
      Reserves outcomes calls organizationId transferId := by
  unfold Reserves
  refine exists_congr fun via => and_congr_left fun _ => ?_
  rw [h.reserves, h'.reserves]
  exact hsame.exists_iff fun item hitem hcall =>
    (effect_spec (hitems item hitem)).1.reserved transferId organizationId via hcall

end Recorded

theorem nextCursor_congr {listing : Listing} {settled settled' : List SubjectKey}
    (h : ∀ transfer ∈ listing.transfers,
      ((.transfer transfer.1.id) ∈ settled' ↔ (.transfer transfer.1.id) ∈ settled)) :
    listing.nextCursor settled' = listing.nextCursor settled := by
  unfold Listing.nextCursor
  congr 1
  refine List.map_congr_left fun transfer htransfer => ?_
  have hcontains : settled'.contains (.transfer transfer.1.id) =
      settled.contains (.transfer transfer.1.id) := by
    rw [Bool.eq_iff_iff, List.contains_iff_mem, List.contains_iff_mem]
    exact h transfer htransfer
  rw [hcontains]

theorem moveCursors_congr {settled settled' : List SubjectKey} {organizationId : String}
    (h : ∀ listing ∈ all, listing.customer.organizationId = organizationId →
      listing.nextCursor settled' = listing.nextCursor settled) (cursors : TransferCursors) :
    (moveCursors cursors all settled').get organizationId =
      (moveCursors cursors all settled).get organizationId := by
  have hrun : ∀ cursors cursors' : TransferCursors,
      cursors'.get organizationId = cursors.get organizationId →
      (moveCursors cursors' all settled').get organizationId =
        (moveCursors cursors all settled).get organizationId := by
    unfold moveCursors
    induction all with
    | nil => exact fun _ _ h => h
    | cons listing all ih =>
      intro cursors cursors' hcursors
      refine ih (fun listing hlisting => h listing (List.mem_cons_of_mem _ hlisting)) _ _ ?_
      beta_reduce
      by_cases horganization : listing.customer.organizationId = organizationId
      · rw [h listing (List.mem_cons_self ..) horganization, ← horganization,
          OrderedMap.get_set_self,
          OrderedMap.get_set_self]
      · rw [OrderedMap.get_set_of_ne _ (Ne.symm horganization),
          OrderedMap.get_set_of_ne _ (Ne.symm horganization),
          hcursors]
  exact hrun cursors cursors rfl

end Compare

section Interfere
variable {H : Hashes} {settings : RelaySettings} {mode : CustomersMode}
    {customers : List Customer} {now : ℤ}
  {listings : Listings} {outcomes : Outcomes} {receive : Receive} {request : OpenRequest}
  {requests requests' before after : List OpenRequest} {organizationId : String} {opener : Customer}

theorem itemsOf_wellNamed (hroutes : ∀ name ∈ settings.routes.names, Short name)
    (hnames : ∀ request ∈ requests, ∀ name ∈ [request.room, request.channel, request.publication],
      Short name) :
    ∀ item ∈ itemsOf H settings customers now listings mode requests, item.WellNamed := by
  intro item hitem
  rcases List.mem_append.mp (subset_of_pendingOf hitem) with hitem | hitem
  · obtain ⟨request, hrequest, hitem⟩ := List.mem_flatMap.mp hitem
    exact requestItems_wellNamed hroutes (hnames request hrequest) hitem
  · exact (listingItems_wellNamed hitem).1

variable (outcomes receive) in
theorem callsOf_comes (hmode : settings.customers = some mode) {gathered : Gathered}
    (hgathered : gatherRequests H settings customers requests = .ok gathered)
    (hitems : ∀ item ∈ itemsOf H settings customers now listings mode requests, item.WellNamed) :
    Comes H settings.levels now listings outcomes receive
      (itemsOf H settings customers now listings mode requests)
      (customers.filterMap (listings.listing mode now))
      (callsOf H settings customers now listings outcomes receive requests) := by
  have hitemsOf : itemsOf H settings customers now listings mode requests =
      (((customers.filterMap (listings.listing mode now)).flatMap Listing.items).foldl addPending
        gathered.pending).map Prod.snd := by
    rw [gatherRequests_pending hgathered, itemsOf, pendingOf, List.foldl_append]
    rfl
  rw [hitemsOf] at hitems ⊢
  exact runReceipts_comes hmode hgathered hitems

/-- Where the items and what is recorded agree at every transfer listed for an organization, it is
not affected. -/
theorem unaffected_of_sameAt (hmode : settings.customers = some mode)
    (hproper : ∀ item, item ∈ itemsOf H settings customers now listings mode requests ∨
      item ∈ itemsOf H settings customers now listings mode requests' → item.WellNamed)
    {gathered gathered' : Gathered}
    (hgathered : gatherRequests H settings customers requests = .ok gathered)
    (hgathered' : gatherRequests H settings customers requests' = .ok gathered')
    (hsame : ∀ row, ListedFor customers now listings organizationId row → SameAt (.transfer row.id)
      (itemsOf H settings customers now listings mode requests)
      (itemsOf H settings customers now listings mode requests'))
    (hrecorded : ∀ row, ListedFor customers now listings organizationId row → ∀ planned,
      chargeSubjectOf H planned.entry = some (.transfer row.id) →
        (planned ∈ recordedOf H settings.levels now listings outcomes receive
            (itemsOf H settings customers now listings mode requests') ↔
          planned ∈ recordedOf H settings.levels now listings outcomes receive
            (itemsOf H settings customers now listings mode requests))) :
    Unaffected H settings customers now listings outcomes receive organizationId requests
      requests' := by
  have h := callsOf_comes outcomes receive hmode hgathered fun item hitem =>
    hproper item (.inl hitem)
  have h' := callsOf_comes outcomes receive hmode hgathered' fun item hitem =>
    hproper item (.inr hitem)
  refine ⟨fun row hrow => ?_, fun row hrow => ?_, fun row hrow => ?_, fun cursor => ?_⟩
  · exact Comes.reserves_iff hproper (hsame row hrow) h h' organizationId
  · exact Comes.writes_iff (hrecorded row hrow) h h'
  · exact Comes.commits_iff (hrecorded row hrow) h h'
  · obtain ⟨settled, hsettled, hsaves⟩ := h.saves
    obtain ⟨settled', hsettled', hsaves'⟩ := h'.saves
    have hget :
        (moveCursors listings.transferCursors (customers.filterMap (listings.listing mode now))
          settled').get
        organizationId =
          (moveCursors listings.transferCursors (customers.filterMap (listings.listing mode now))
          settled).get organizationId := by
      refine moveCursors_congr (fun listing hlisting horganization =>
        nextCursor_congr fun transfer htransfer => ?_) _
      obtain ⟨customer, hcustomer, hlisting⟩ := List.mem_filterMap.mp hlisting
      obtain ⟨rfl, hrows⟩ := listed_of_listing hlisting
      have hlisted : ListedFor customers now listings organizationId transfer.1 :=
        ⟨_, hcustomer, horganization, hrows transfer htransfer⟩
      rw [hsettled, hsettled']
      exact settles_iff hproper (hsame transfer.1 hlisted) (hrecorded transfer.1 hlisted)
    unfold Saves
    simp only [hsaves, hsaves']
    constructor
    · rintro ⟨_, ⟨hall, rfl⟩, hcursor⟩
      exact ⟨_, ⟨hall, rfl⟩, hget ▸ hcursor⟩
    · rintro ⟨_, ⟨hall, rfl⟩, hcursor⟩
      exact ⟨_, ⟨hall, rfl⟩, hget.symm ▸ hcursor⟩

theorem requestItems_asked (hrequest : ReceiptAskedBy settings customers opener request)
    (hmode : settings.customers = some mode) : requestItems H settings customers request =
      [askedPending opener request] := by
  have hopener : openerOf settings customers request =
      .owner (.customer opener.organizationId opener.reader (.requester request.requester)) := by
    unfold openerOf
    rw [if_pos ⟨by rw [hmode]; rfl, hrequest.requester⟩, hrequest.approved, hrequest.kind]
    rfl
  have hsubject : subjectForOpenRequest H settings.clientId settings.routes request =
      .ok (some (.transfer ⟨bytes16ToTransferId request.transferId, none⟩)) := by
    unfold subjectForOpenRequest
    rw [hrequest.kind, if_neg (by decide), if_pos rfl]
  simp only [requestItems, hopener, hsubject]
  rfl

theorem gatherable_asked (hrequest : ReceiptAskedBy settings customers opener request) :
    Gatherable H settings customers request := by
  intro owner _
  unfold subjectForOpenRequest
  rw [hrequest.kind, if_neg (by decide), if_pos rfl]
  exact ⟨_, rfl⟩

theorem gatherRequests_insert (hrequest : ReceiptAskedBy settings customers opener request) :
    (∃ gathered, gatherRequests H settings customers (before ++ request :: after) = .ok gathered) ↔
      ∃ gathered, gatherRequests H settings customers (before ++ after) = .ok gathered := by
  rw [gatherRequests_ok_iff, gatherRequests_ok_iff]
  simp only [List.forall_mem_append, List.forall_mem_cons,
    gatherable_asked (H := H) hrequest, true_and]

/-- Another request's item for the same transfer names a request id: two requests for its receipt
would be open under one key. -/
theorem requestId_of_other (hopen : Openable H (before ++ request :: after)) {opener : Customer}
    (hrequest : ReceiptAskedBy settings customers opener request) {other : OpenRequest}
    (hother : other ∈ before ++ after) {item : Pending}
    (hitem : item ∈ requestItems H settings customers other)
    (hkey : subjectKey item.subject = .transfer (bytes16ToTransferId request.transferId)) :
    item.subject.requestId ≠ none := by
  intro hid
  have hreceipt : other.kind = RequestKind.receipt.code ∧
      other.transferId = request.transferId := by
    unfold requestItems at hitem
    split at hitem
    · split at hitem
      · rename_i subject hsubject
        obtain rfl : item.subject = subject := by rw [List.mem_singleton.mp hitem]
        unfold subjectForOpenRequest at hsubject
        split_ifs at hsubject with _ _ _ _ hkind
        · obtain ⟨route, -, hroute⟩ := Option.map_eq_some_iff.mp (Except.ok.inj hsubject)
          rw [← hroute] at hkey
          cases hkey
        · split at hsubject
          · rw [← Option.some.inj (Except.ok.inj hsubject)] at hkey
            cases hkey
          · cases hsubject
        · cases hsubject
        · obtain ⟨transferId, -, htransfer⟩ := bind_eq_ok.mp hsubject
          rw [← Option.some.inj (Except.ok.inj htransfer)] at hid
          cases hid
        · rw [← Option.some.inj (Except.ok.inj hsubject)] at hkey
          exact ⟨hkind, bytes16ToTransferId_injective (SubjectKey.transfer.inj hkey)⟩
        · rw [← Option.some.inj (Except.ok.inj hsubject)] at hkey
          cases hkey
      · cases hitem
    · cases hitem
  have hsamekey : other.key = request.key := by
    have hin : other ∈ before ++ request :: after := by
      rcases List.mem_append.mp hother with h | h
      · exact List.mem_append_left _ h
      · exact List.mem_append_right _ (List.mem_cons_of_mem _ h)
    rw [hopen.receipts other hin hreceipt.1,
      hopen.receipts request (by simp) hrequest.kind, hreceipt.2]
  have hnodup : (request.key :: (before ++ after).map OpenRequest.key).Nodup := by
    have hperm : (before ++ request :: after).Perm (request :: (before ++ after)) :=
      List.perm_middle
    exact (hperm.map OpenRequest.key).nodup_iff.mp hopen.keys
  exact (List.nodup_cons.mp hnodup).1 (hsamekey ▸ List.mem_map.mpr ⟨other, hother, rfl⟩)

variable (now listings) in
theorem itemsOf_insert (hopen : Openable H (before ++ request :: after))
    (hrequest : ReceiptAskedBy settings customers opener request)
    (hmode : settings.customers = some mode)
    {gathered : Gathered}
    (hgathered : gatherRequests H settings customers (before ++ after) = .ok gathered) :
    (gathered.pending.get (.transfer (bytes16ToTransferId request.transferId)) ≠ none →
      ∀ key, SameAt key (itemsOf H settings customers now listings mode (before ++ after))
        (itemsOf H settings customers now listings mode (before ++ request :: after))) ∧
    (gathered.pending.get (.transfer (bytes16ToTransferId request.transferId)) = none →
      (∀ key, key ≠ .transfer (bytes16ToTransferId request.transferId) →
        SameAt key (itemsOf H settings customers now listings mode (before ++ after))
          (itemsOf H settings customers now listings mode (before ++ request :: after))) ∧
      askedPending opener request ∈ itemsOf H settings customers now listings mode
        (before ++ request :: after)) := by
  have hitems : (before ++ request :: after).flatMap (requestItems H settings customers) ++
      (customers.filterMap (listings.listing mode now)).flatMap Listing.items =
      before.flatMap (requestItems H settings customers) ++ askedPending opener request ::
        (after.flatMap (requestItems H settings customers) ++
          (customers.filterMap (listings.listing mode now)).flatMap Listing.items) := by
    rw [List.flatMap_append, List.flatMap_cons, requestItems_asked hrequest hmode,
      List.append_assoc, List.append_assoc]
    rfl
  have hothers : (before ++ after).flatMap (requestItems H settings customers) ++
      (customers.filterMap (listings.listing mode now)).flatMap Listing.items =
      before.flatMap (requestItems H settings customers) ++
        (after.flatMap (requestItems H settings customers) ++
          (customers.filterMap (listings.listing mode now)).flatMap Listing.items) := by
    rw [List.flatMap_append, List.append_assoc]
  have hclaims : ∀ item, item ∈ (before ++ after).flatMap (requestItems H settings customers) →
      subjectKey item.subject = .transfer (bytes16ToTransferId request.transferId) →
        item.subject.requestId ≠ none := by
    intro item hitem hkey
    obtain ⟨other, hother, hitem⟩ := List.mem_flatMap.mp hitem
    exact requestId_of_other hopen hrequest hother hitem hkey
  rw [gatherRequests_pending hgathered]
  unfold itemsOf
  rw [hitems, hothers]
  constructor
  · intro hclaimed key item hkey
    have hitem : ∃ item ∈ (before ++ after).flatMap (requestItems H settings customers),
        subjectKey item.subject = .transfer (bytes16ToTransferId request.transferId) := by
      by_contra hnone
      exact hclaimed (get_pendingOf_eq_none.mpr fun item hitem hkey => hnone ⟨item, hitem, hkey⟩)
    rw [mem_pendingOf, mem_pendingOf, get_pendingOf_claimed rfl]
    obtain ⟨claiming, hclaiming, hclaimingKey⟩ := hitem
    rw [List.flatMap_append, List.mem_append] at hclaiming
    rcases hclaiming with hin | hin
    · exact .inl ⟨claiming, hin, hclaimingKey⟩
    · refine .inr ⟨claiming, List.mem_append_left _ hin, hclaimingKey,
        hclaims claiming ?_ hclaimingKey⟩
      rw [List.flatMap_append]
      exact List.mem_append_right _ hin
  · intro hfree
    rw [get_pendingOf_eq_none, List.flatMap_append] at hfree
    have hdisplaces := displaces_pendingOf (x := askedPending opener request)
      (before.flatMap (requestItems H settings customers))
      (after.flatMap (requestItems H settings customers) ++
        (customers.filterMap (listings.listing mode now)).flatMap Listing.items) rfl
      (fun item hitem => hfree item (List.mem_append_left _ hitem)) (fun item hitem hkey => by
        rcases List.mem_append.mp hitem with hitem | hitem
        · exact absurd hkey (hfree item (List.mem_append_right _ hitem))
        · exact (listingItems_wellNamed hitem).2.1)
    refine ⟨fun key hne item hkey => ?_, mem_pendingOf.mpr hdisplaces.own⟩
    rw [mem_pendingOf, mem_pendingOf, hkey, hdisplaces.others key hne]

end Interfere

section Planned
variable {H : Hashes} {levels : ReceiptLevels} {now : ℤ} {listings : Listings} {outcomes : Outcomes}
    {item : Pending}

/-- What a pass goes by for the item: what its listing observed, or else what is looked up. -/
def seenOf (outcomes : Outcomes) (item : Pending) : Observation :=
  item.observation.getD (outcomes.observe item.subject (readerOf item.owner))

variable (H) in
def entered (outcomes : Outcomes) (item : Pending) (entry : ReportEntry) : List Planned :=
  match item.owner, chargeSubjectOf H entry with
  | .customer organizationId _ via, some charge =>
    if outcomes.reserveCharge charge organizationId via =
      .held then [⟨entry, item.owner, subjectKey item.subject⟩] else []
  | _, _ => [⟨entry, item.owner, subjectKey item.subject⟩]

variable (H listings outcomes) in
theorem planEntry_planned (item : Pending) (entry : ReportEntry) : ∃ plan calls,
    (planEntry H .empty item.owner (subjectKey item.subject) entry).run
      (reply listings outcomes (fun _ => .ok ()) []) =
      (.ok plan, calls) ∧ plan.planned = entered H outcomes item entry := by
  unfold planEntry entered
  cases item.owner with
  | beam => exact ⟨_, _, rfl, rfl⟩
  | customer organizationId reader via =>
    cases chargeSubjectOf H entry with
    | none => exact ⟨_, _, rfl, rfl⟩
    | some charge =>
      simp only
      rw [Script.run_bind (io_run listings outcomes _ _ (.reserveCharge charge organizationId via))]
      cases outcomes.reserveCharge charge organizationId via with
      | held => exact ⟨_, _, rfl, rfl⟩
      | _ => exact ⟨_, _, rfl, rfl⟩

variable (now listings) in
theorem planSubject_planned {entry : Option ReportEntry}
    (hentry : reportEntryFor H item.subject (seenOf outcomes item) levels = .ok entry) :
      ∃ plan calls,
    (planSubject H levels now .empty item item.subject).run
      (reply listings outcomes (fun _ => .ok ()) []) =
      (.ok plan, calls) ∧ plan.planned = entry.toList.flatMap (entered H outcomes item) := by
  have hobserved : ∃ calls, (observed item item.subject).run
      (reply listings outcomes (fun _ => .ok ()) []) =
      (.ok (seenOf outcomes item), calls) := by
    unfold observed seenOf
    cases item.observation with
    | some observation => exact ⟨[], rfl⟩
    | none => exact ⟨[.observe item.subject (readerOf item.owner)], io_run ..⟩
  obtain ⟨calls, hobserved⟩ := hobserved
  unfold planSubject
  rw [Script.run_bind hobserved, planObserved, hentry]
  cases entry with
  | none => exact ⟨_, _, rfl, planNothing_planned ..⟩
  | some entry =>
    obtain ⟨plan, more, hrun, hplanned⟩ := planEntry_planned H listings outcomes item entry
    refine ⟨plan, calls ++ more, ?_, hplanned.trans (List.append_nil _).symm⟩
    show (((planEntry H .empty item.owner (subjectKey item.subject) entry).run _).1,
      calls ++ ((planEntry H .empty item.owner (subjectKey item.subject) entry).run _).2) = _
    rw [hrun]

theorem effect_planned {entry : Option ReportEntry}
    (hsubject : (∃ transfer, item.subject = .transfer transfer) ∨ ∃ room, item.subject = .room room)
    (hentry : reportEntryFor H item.subject (seenOf outcomes item) levels = .ok entry) :
    (effect H levels now listings outcomes item).1.planned =
      entry.toList.flatMap (entered H outcomes item) := by
  obtain ⟨plan, calls, hrun, hplanned⟩ := planSubject_planned now listings hentry
  have hitem : planItem H levels now .empty item =
      planSubject H levels now .empty item item.subject := by
    unfold planItem
    rcases hsubject with ⟨transfer, hsubject⟩ | ⟨room, hsubject⟩ <;> rw [hsubject]
  rw [effect, hitem, hrun]
  exact hplanned

theorem subject_of_key {id : String} (hkey : subjectKey item.subject = .transfer id) :
    ∃ transfer, item.subject = .transfer transfer := by
  cases hsubject : item.subject with
  | transfer transfer => exact ⟨transfer, rfl⟩
  | _ =>
    rw [hsubject] at hkey
    cases hkey

variable (H levels outcomes) in
theorem reportEntryFor_transfer (hitem : item.WellNamed) {id : String}
    (hkey : subjectKey item.subject = .transfer id) :
    ∃ entry, reportEntryFor H item.subject (seenOf outcomes item) levels = .ok entry ∧
      ∀ recorded, entry = some recorded → chargeSubjectOf H recorded = some (.transfer id) := by
  obtain ⟨entry, hentry⟩ := reportEntryFor_total H levels hitem.subject (seenOf outcomes item)
    (.inl (subject_of_key hkey))
  refine ⟨entry, hentry, ?_⟩
  rintro recorded rfl
  exact (reportEntryFor_charged hitem.subject hentry id).mpr hkey

theorem entered_held {entry : ReportEntry} {charge : ChargeSubject}
    (hcharge : chargeSubjectOf H entry = some charge)
    (hheld : ∀ organizationId reader via, item.owner = .customer organizationId reader via →
      outcomes.reserveCharge charge organizationId via = .held) :
    entered H outcomes item entry = [⟨entry, item.owner, subjectKey item.subject⟩] := by
  unfold entered
  rw [hcharge]
  cases howner : item.owner with
  | beam => rfl
  | customer organizationId reader via => exact if_pos (hheld organizationId reader via howner)

theorem entered_refused {entry : ReportEntry} {charge : ChargeSubject} {organizationId : String}
    {reader : Reader}
    {via : Via} (howner : item.owner = .customer organizationId reader via)
    (hcharge : chargeSubjectOf H entry = some charge)
    (hrefused : outcomes.reserveCharge charge organizationId via ≠ .held) :
      entered H outcomes item entry = [] := by
  unfold entered
  rw [howner, hcharge]
  exact if_neg hrefused

theorem entered_length (entry : ReportEntry) : (entered H outcomes item entry).length ≤ 1 := by
  unfold entered
  split
  · split_ifs
    · exact Nat.le_refl 1
    · exact Nat.zero_le 1
  · exact Nat.le_refl 1

theorem effect_unrecordable (hitem : item.WellNamed) {id : String}
    (hkey : subjectKey item.subject = .transfer id)
    (h : ¬ item.Recordable H levels) :
      (effect H levels now listings outcomes item).1.planned = [] := by
  obtain ⟨entry, hentry, -⟩ := reportEntryFor_transfer H levels outcomes hitem hkey
  rw [effect_planned (.inl (subject_of_key hkey)) hentry]
  cases entry with
  | none => rfl
  | some entry =>
    refine absurd (fun observation hobservation => ⟨entry, ?_⟩) h
    rwa [seenOf, hobservation, Option.getD_some] at hentry

end Planned

section Exposed
variable {H : Hashes} {settings : RelaySettings} {mode : CustomersMode} {customers : List Customer}
  {levels : ReceiptLevels} {now : ℤ} {listings : Listings} {asked listed : String} {item : Pending}
  {requests : List OpenRequest}

theorem source_of_mem_itemsOf
    (hitem : item ∈ itemsOf H settings customers now listings mode requests) :
    item.observation = none ∨ ∃ customer transfer, item = listedPending customer transfer := by
  rcases List.mem_append.mp (subset_of_pendingOf hitem) with hitem | hitem
  · obtain ⟨request, -, hitem⟩ := List.mem_flatMap.mp hitem
    unfold requestItems at hitem
    split at hitem
    · split at hitem
      · rw [List.mem_singleton.mp hitem]
        exact .inl rfl
      · cases hitem
    · cases hitem
  · exact .inr (listingItems_wellNamed hitem).2.2

theorem nodup_itemsOf :
    ((itemsOf H settings customers now listings mode requests).map fun item =>
      subjectKey item.subject).Nodup := by
  have h := keyed_pendingOf (requests.flatMap (requestItems H settings customers) ++
    (customers.filterMap (listings.listing mode now)).flatMap Listing.items)
  unfold itemsOf
  rw [List.map_map, List.map_congr_left (g := Prod.fst)]
  · exact h.nodup
  · exact fun e he => (h.key e he).symm

variable (asked listed) in
/-- Nothing is seen but two transfers, and no listing is granted a credit but that of `listed`, nor
this one where the request asks for it. -/
def exposing : Outcomes where
  findPublication _ _ := .absent
  observe subject _ := if subjectKey subject = .transfer asked ∨
    subjectKey subject = .transfer listed then
    sampleObservation else .absent
  reserveCharge subject _ via := match via with
    | .requester _ => .held
    | .everyTransfer _ =>
        if subject = .transfer listed ∧ listed ≠ asked then .held else .refused 402 "no credits"
  commitCharge _ := .charged
  publication_short := nofun
  observation_wellNamed subject _ := by
    split_ifs <;> exact nofun

theorem exposing_absent (hobservation : item.observation = none)
    (hasked : subjectKey item.subject ≠ .transfer asked)
    (hlisted : subjectKey item.subject ≠ .transfer listed) :
    (effect H levels now listings (exposing asked listed) item).1.planned = [] := by
  have hseen : seenOf (exposing asked listed) item = .absent := by
    unfold seenOf
    rw [hobservation, Option.getD_none]
    exact if_neg (not_or.mpr ⟨hasked, hlisted⟩)
  cases hsubject : item.subject with
  | transfer transfer =>
    refine @effect_planned _ _ _ _ _ _ none (.inl ⟨transfer, hsubject⟩) ?_
    rw [hseen, hsubject]
    rfl
  | room room =>
    refine @effect_planned _ _ _ _ _ _ none (.inr ⟨room, hsubject⟩) ?_
    rw [hseen, hsubject]
    rfl
  | roomRequest requested =>
    unfold effect planItem
    rw [hsubject]
    simp only
    rw [Script.run_bind
      (io_run listings (exposing asked listed) _ _
        (.findPublication requested (readerOf item.owner)))]
    exact unseen_planned .empty now item
  | job requested =>
    unfold effect planItem
    rw [hsubject]
    simp only [planJob]
    rw [Script.run_bind (io_run listings (exposing asked listed) _ _
      (.findPublication (jobLookups requested).1 (readerOf item.owner)))]
    rfl

theorem exposing_listed {customer : Customer} {transfer : ListedTransfer}
    (hproper : (listedPending customer transfer).WellNamed)
    (h : transfer.id ≠ listed ∨ listed = asked) :
    (effect H levels now listings (exposing asked listed)
      (listedPending customer transfer)).1.planned = [] := by
  obtain ⟨entry, hentry, hcharge⟩ :=
    reportEntryFor_transfer H levels (exposing asked listed) hproper rfl
  rw [effect_planned (.inl ⟨_, rfl⟩) hentry]
  cases entry with
  | none => rfl
  | some entry =>
    have hrefused : ¬ (ChargeSubject.transfer transfer.id = .transfer listed ∧ listed ≠ asked) := by
      rintro ⟨hid, hne⟩
      exact h.elim (fun hother => hother (ChargeSubject.transfer.inj hid)) hne
    simp only [Option.toList_some, List.flatMap_cons, List.flatMap_nil, List.append_nil]
    refine entered_refused rfl (hcharge entry rfl) ?_
    simp only [exposing, if_neg hrefused]
    exact nofun

variable (levels now listings asked listed) in
theorem exposing_planned (hitem : item.WellNamed) {id : String}
    (hkey : subjectKey item.subject = .transfer id)
    (hid : id = asked ∨ id = listed) (hrecordable : item.Recordable H levels)
    (hheld : (id = listed ∧ listed ≠ asked) ∨ ∃ request, ∀ organizationId reader via,
      item.owner = .customer organizationId reader via → via = .requester request) :
    ∃ entry, (effect H levels now listings (exposing asked listed) item).1.planned =
      [⟨entry, item.owner, .transfer id⟩] ∧ chargeSubjectOf H entry = some (.transfer id) := by
  obtain ⟨transfer, hsubject⟩ := subject_of_key hkey
  obtain ⟨entry, hentry, hcharge⟩ :=
    reportEntryFor_transfer H levels (exposing asked listed) hitem hkey
  have hsome : ∃ recorded, entry = some recorded := by
    cases hobservation : item.observation with
    | some observation =>
      obtain ⟨recorded, hrecorded⟩ := hrecordable observation hobservation
      rw [seenOf, hobservation, Option.getD_some, hrecorded] at hentry
      exact ⟨recorded, (Except.ok.inj hentry).symm⟩
    | none =>
      have hseen : (exposing asked listed).observe item.subject (readerOf item.owner) =
          sampleObservation := by
        refine if_pos ?_
        rw [hkey]
        exact hid.imp (congrArg SubjectKey.transfer) (congrArg SubjectKey.transfer)
      obtain ⟨bytes, hbytes, -⟩ := transferIdToBytes16_total (hitem.subject.id id hkey)
      obtain rfl : transfer.transferId = id := by
        rw [hsubject] at hkey
        exact SubjectKey.transfer.inj hkey
      rw [seenOf, hobservation, Option.getD_none, hseen, hsubject] at hentry
      simp only [reportEntryFor, sampleObservation, hbytes] at hentry
      exact ⟨_, (Except.ok.inj hentry).symm⟩
  obtain ⟨recorded, rfl⟩ := hsome
  refine ⟨recorded, ?_, hcharge recorded rfl⟩
  rw [effect_planned (.inl ⟨transfer, hsubject⟩) hentry, ← hkey]
  simp only [Option.toList_some, List.flatMap_cons, List.flatMap_nil, List.append_nil]
  refine entered_held (hcharge recorded rfl) fun organizationId reader via howner => ?_
  rcases hheld with hheld | ⟨request, hrequest⟩
  · cases via with
    | requester address => rfl
    | everyTransfer createdAt => exact if_pos ⟨congrArg ChargeSubject.transfer hheld.1, hheld.2⟩
  · rw [hrequest organizationId reader via howner]
    rfl

theorem exposing_short (hproper : ∀ item ∈ itemsOf H settings customers now listings mode requests,
    item.WellNamed) :
    (plannedOf H levels now listings (exposing asked listed)
      (itemsOf H settings customers now listings mode requests)).length ≤ 2 := by
  have hkeys : ∀ item ∈ itemsOf H settings customers now listings mode requests,
      (effect H levels now listings (exposing asked listed) item).1.planned ≠ [] →
        subjectKey item.subject ∈ [.transfer asked, .transfer listed] := by
    intro item hitem hne
    simp only [List.mem_cons, List.not_mem_nil, or_false]
    by_contra hother
    rw [not_or] at hother
    rcases source_of_mem_itemsOf hitem with hasked | ⟨customer, transfer, rfl⟩
    · exact hne (exposing_absent hasked hother.1 hother.2)
    · refine hne (exposing_listed (hproper _ hitem) (.inl fun hid => hother.2 ?_))
      exact congrArg SubjectKey.transfer hid
  refine length_flatMap_le (fun item hitem => ?_) hkeys nodup_itemsOf
  by_cases hne : (effect H levels now listings (exposing asked listed) item).1.planned = []
  · rw [hne]
    exact Nat.zero_le 1
  · have htransfer : ∃ id, subjectKey item.subject = .transfer id := by
      have hkey := hkeys item hitem hne
      simp only [List.mem_cons, List.not_mem_nil, or_false] at hkey
      rcases hkey with hkey | hkey
      · exact ⟨asked, hkey⟩
      · exact ⟨listed, hkey⟩
    obtain ⟨id, hkey⟩ := htransfer
    obtain ⟨entry, hentry, -⟩ :=
      reportEntryFor_transfer H levels (exposing asked listed) (hproper item hitem) hkey
    rw [effect_planned (.inl (subject_of_key hkey)) hentry]
    cases entry with
    | none => exact Nat.zero_le 1
    | some entry =>
      simp only [Option.toList_some, List.flatMap_cons, List.flatMap_nil, List.append_nil]
      exact entered_length entry

theorem batches_short {planned : List Planned} (hne : planned ≠ []) (h : planned.length ≤ 2) :
    batches planned = [planned] := by
  have hlength := List.length_pos_iff.mpr hne
  have hcount : (planned.length + (MAX_ENTRIES_PER_REPORT - 1)) / MAX_ENTRIES_PER_REPORT = 1 := by
    unfold MAX_ENTRIES_PER_REPORT
    omega
  have htake : planned.take MAX_ENTRIES_PER_REPORT = planned :=
    List.take_of_length_le (h.trans (by decide))
  unfold batches
  rw [hcount]
  simp [htake]

def refusing (H : Hashes) (transferId : String) : Receive := fun encoded =>
  if ∃ report ∈ encoded.body, ∃ entry ∈ entriesOf report,
    chargeSubjectOf H entry = some (.transfer transferId) then
    .error "refused"
  else .ok ()

theorem refusing_encodedOf {transferId : String} {batch : List Planned} :
    refusing H transferId (encodedOf batch) = .ok () ↔
      ∀ planned ∈ batch, chargeSubjectOf H planned.entry ≠ some (.transfer transferId) := by
  unfold refusing
  split_ifs with h
  · refine iff_of_false nofun fun hnone => ?_
    obtain ⟨_, ⟨⟩, entry, hentry, hcharge⟩ := h
    obtain ⟨planned, hplanned, rfl⟩ := planned_of_mem_entriesOf hentry
    exact hnone planned hplanned hcharge
  · refine iff_of_true rfl fun planned hplanned hcharge => h ?_
    exact ⟨reportOf batch, rfl, planned.entry, mem_entriesOf_reportOf hplanned, hcharge⟩

end Exposed

section Main
variable {H : Hashes} {settings : RelaySettings} {mode : CustomersMode}
    {customers : List Customer} {now : ℤ}
  {listings : Listings} {before after : List OpenRequest} {request : OpenRequest}
    {opener : Customer}
  {organizationId : String}

theorem eq_of_charge {outcomes : Outcomes} {requests : List OpenRequest} {levels : ReceiptLevels}
    {transferId : String}
    {planned planned' : Planned}
    (hproper : ∀ item ∈ itemsOf H settings customers now listings mode requests, item.WellNamed)
    (h : planned ∈ plannedOf H levels now listings outcomes
      (itemsOf H settings customers now listings mode requests))
    (h' : planned' ∈ plannedOf H levels now listings outcomes
      (itemsOf H settings customers now listings mode requests))
    (hcharge : chargeSubjectOf H planned.entry = some (.transfer transferId))
    (hcharge' : chargeSubjectOf H planned'.entry = some (.transfer transferId)) :
      planned = planned' := by
  obtain ⟨item, hitem, hmem⟩ := mem_plannedOf.mp h
  obtain ⟨item', hitem', hmem'⟩ := mem_plannedOf.mp h'
  obtain ⟨hkey, hplanned⟩ :=
    (effect_spec (hproper item hitem)).1.charged planned hmem transferId hcharge
  obtain ⟨hkey', -⟩ :=
    (effect_spec (hproper item' hitem')).1.charged planned' hmem' transferId hcharge'
  have hget := mem_pendingOf.mp hitem
  have hget' := mem_pendingOf.mp hitem'
  rw [hkey] at hget
  rw [hkey'] at hget'
  obtain rfl : item = item' := Option.some.inj (hget.symm.trans hget')
  rw [hplanned] at hmem'
  exact (List.mem_singleton.mp hmem').symm

theorem waits_of_unaffected {outcomes : Outcomes} {requests requests' : List OpenRequest}
    {transferId : String}
    {entry : Planned} {report : Contract.EncodedReport} (hmode : settings.customers = some mode)
    (hproper : ∀ item ∈ itemsOf H settings customers now listings mode requests, item.WellNamed)
    (hproper' : ∀ item ∈ itemsOf H settings customers now listings mode requests', item.WellNamed)
    {gathered gathered' : Gathered}
    (hgathered : gatherRequests H settings customers requests = .ok gathered)
    (hgathered' : gatherRequests H settings customers requests' = .ok gathered')
    (hsame : entry ∈ plannedOf H settings.levels now listings outcomes
        (itemsOf H settings customers now listings mode requests) →
      entry ∈ plannedOf H settings.levels now listings outcomes
        (itemsOf H settings customers now listings mode requests'))
    (hcharge : chargeSubjectOf H entry.entry = some (.transfer transferId))
    (hwritten : ∀ receive,
      Writes H receive (callsOf H settings customers now listings outcomes receive requests')
        (.transfer transferId) →
        Writes H receive (callsOf H settings customers now listings outcomes receive requests)
          (.transfer transferId))
    (hwaits : WaitsFor (plannedOf H settings.levels now listings outcomes
      (itemsOf H settings customers now listings mode requests)) entry report) :
    WaitsFor (plannedOf H settings.levels now listings outcomes
      (itemsOf H settings customers now listings mode requests')) entry report := by
  by_contra hfree
  let receive : Receive := fun encoded => if encoded = report then .error "refused" else .ok ()
  have h := callsOf_comes outcomes receive hmode hgathered hproper
  have h' := callsOf_comes outcomes receive hmode hgathered' hproper'
  have hwith : entry ∈ recordedOf H settings.levels now listings outcomes receive
      (itemsOf H settings customers now listings mode requests') := by
    refine mem_recordedOf.mpr ⟨hsame hwaits.1, fun report' hwaits' => if_neg ?_⟩
    rintro rfl
    exact hfree hwaits'
  obtain ⟨planned, hplanned, hplannedCharge⟩ :=
    (h.writes _).mp (hwritten receive ((h'.writes _).mpr ⟨entry, hwith, hcharge⟩))
  obtain ⟨hmem, htaken⟩ := mem_recordedOf.mp hplanned
  obtain rfl := eq_of_charge hproper hmem hwaits.1 hplannedCharge hcharge
  have hrefused := htaken report hwaits
  simp only [receive, if_pos] at hrefused
  cases hrefused

variable (hmode : settings.customers = some mode)
    (hrequest : ReceiptAskedBy settings customers opener request)
  (hopen : Openable H (before ++ request :: after))
  (hproper : ∀ item, item ∈ itemsOf H settings customers now listings mode (before ++ after) ∨
    item ∈ itemsOf H settings customers now listings mode (before ++ request :: after) →
      item.WellNamed)
include hmode hrequest hopen hproper

/-- The request's own entry is recorded in the stead of a listing's, or with another of the
organization's. -/
theorem not_joins
    (h : ∀ outcomes receive,
      Unaffected H settings customers now listings outcomes receive organizationId
      (before ++ after) (before ++ request :: after)) :
    ¬ Joins H settings customers now listings mode organizationId (before ++ after) request := by
  rintro ⟨⟨gathered, hgathered, hfree⟩, row, hlisted, hrow⟩
  obtain ⟨gathered', hgathered'⟩ :=
    (gatherRequests_insert (H := H) hrequest).mpr ⟨gathered, hgathered⟩
  obtain ⟨hothers, hin⟩ := (itemsOf_insert now listings hopen hrequest hmode hgathered).2 hfree
  let outcomes := exposing (bytes16ToTransferId request.transferId) row.id
  obtain ⟨entry, hentry, hcharge⟩ := exposing_planned settings.levels now listings
    (bytes16ToTransferId request.transferId) row.id (hproper _ (.inr hin)) rfl (.inl rfl) nofun
    (.inr ⟨request.requester, by rintro _ _ _ ⟨⟩; rfl⟩)
  have hasked : ⟨entry, (askedPending opener request).owner,
      .transfer (bytes16ToTransferId request.transferId)⟩ ∈
      plannedOf H settings.levels now listings outcomes
        (itemsOf H settings customers now listings mode (before ++ request :: after)) := by
    refine mem_plannedOf.mpr ⟨_, hin, ?_⟩
    rw [hentry]
    exact List.mem_singleton_self _
  -- what is looked up for the transfer without the request is a listing's
  have hlisting : ∀ item ∈ itemsOf H settings customers now listings mode (before ++ after),
      subjectKey item.subject = .transfer (bytes16ToTransferId request.transferId) →
        (effect H settings.levels now listings outcomes item).1.planned = [] := by
    intro item hitem hkey
    rcases List.mem_append.mp (subset_of_pendingOf hitem) with hrequested | hlisted
    · rw [gatherRequests_pending hgathered] at hfree
      exact absurd hkey (get_pendingOf_eq_none.mp hfree item hrequested)
    · obtain ⟨customer, transfer, rfl⟩ := (listingItems_wellNamed hlisted).2.2
      refine exposing_listed (hproper _ (.inl hitem)) ?_
      have hid : transfer.id = bytes16ToTransferId request.transferId :=
        SubjectKey.transfer.inj hkey
      rw [hid, eq_comm]
      exact (em _).symm
  have hunplanned : ∀ planned ∈ plannedOf H settings.levels now listings outcomes
      (itemsOf H settings customers now listings mode (before ++ after)),
        chargeSubjectOf H planned.entry ≠
          some (.transfer (bytes16ToTransferId request.transferId)) := by
    intro planned hplanned hcharge
    obtain ⟨item, hitem, hmem⟩ := mem_plannedOf.mp hplanned
    have hkey := ((effect_spec (hproper item (.inl hitem))).1.charged planned hmem _ hcharge).1
    rw [hlisting item hitem hkey] at hmem
    exact List.not_mem_nil hmem
  by_cases hsame : row.id = bytes16ToTransferId request.transferId
  · have hwithout := callsOf_comes outcomes (fun _ => .ok ()) hmode hgathered fun item hitem =>
      hproper item (.inl hitem)
    have hwith := callsOf_comes outcomes (fun _ => .ok ()) hmode hgathered' fun item hitem =>
      hproper item (.inr hitem)
    have hwritten : Writes H (fun _ => .ok ())
        (callsOf H settings customers now listings outcomes (fun _ => .ok ())
        (before ++ request :: after)) (.transfer row.id) := by
      rw [hwith.writes, hsame]
      exact ⟨_, mem_recordedOf.mpr ⟨hasked, fun _ _ => rfl⟩, hcharge⟩
    obtain ⟨planned, hplanned, hplannedCharge⟩ :=
      (hwithout.writes _).mp (((h outcomes _).written row hlisted).mp hwritten)
    rw [hsame] at hplannedCharge
    exact hunplanned planned (mem_recordedOf.mp hplanned).1 hplannedCharge
  · obtain ⟨item, hitem, hkey, hrecordable⟩ := hrow.resolve_left hsame
    obtain ⟨entry', hentry', hcharge'⟩ := exposing_planned settings.levels now listings
      (bytes16ToTransferId request.transferId) row.id (hproper item (.inl hitem)) hkey (.inr rfl)
      hrecordable (.inl ⟨rfl, hsame⟩)
    have hplanned : ∀ items, item ∈ items → ⟨entry', item.owner, .transfer row.id⟩ ∈
        plannedOf H settings.levels now listings outcomes items := by
      intro items hitem
      refine mem_plannedOf.mpr ⟨item, hitem, ?_⟩
      rw [hentry']
      exact List.mem_singleton_self _
    have hitem' :=
      (hothers (.transfer row.id)
        (fun heq => hsame (SubjectKey.transfer.inj heq)) item hkey).mpr hitem
    let receive := refusing H (bytes16ToTransferId request.transferId)
    have hwithout := callsOf_comes outcomes receive hmode hgathered fun item hitem =>
      hproper item (.inl hitem)
    have hwith := callsOf_comes outcomes receive hmode hgathered' fun item hitem =>
      hproper item (.inr hitem)
    have hwritten :
        Writes H receive
          (callsOf H settings customers now listings outcomes receive (before ++ after))
        (.transfer row.id) := by
      refine (hwithout.writes _).mpr ⟨_, mem_recordedOf.mpr ⟨hplanned _ hitem, ?_⟩, hcharge'⟩
      rintro _ ⟨-, front, batch, back, hbatches, -, rfl⟩
      refine refusing_encodedOf.mpr fun planned hmem =>
        hunplanned planned (mem_batches.mp ⟨batch, ?_, hmem⟩)
      rw [hbatches]
      exact List.mem_append_right _ (List.mem_cons_self ..)
    obtain ⟨planned, hmem, -⟩ :=
      (hwith.writes _).mp (((h outcomes receive).written row hlisted).mpr hwritten)
    -- both entries are in the one report
    obtain ⟨hin', htaken⟩ := mem_recordedOf.mp hmem
    have hbatches := batches_short (List.ne_nil_of_mem hasked)
      (exposing_short fun item hitem => hproper item (.inr hitem))
    have hrefused :=
      htaken _ ⟨hin', [], _, [], hbatches, fun _ hnil => absurd hnil List.not_mem_nil, rfl⟩
    exact refusing_encodedOf.mp hrefused _ hasked hcharge

theorem not_recuts
    (h : ∀ outcomes receive,
      Unaffected H settings customers now listings outcomes receive organizationId
      (before ++ after) (before ++ request :: after)) :
    ¬ Recuts H settings customers now listings mode organizationId before after request := by
  rintro ⟨⟨gathered, hgathered, hclaimed⟩, outcomes, row, entry, report, hlisted, hcharge, hdiffers⟩
  obtain ⟨gathered', hgathered'⟩ :=
    (gatherRequests_insert (H := H) hrequest).mpr ⟨gathered, hgathered⟩
  have hsame := (itemsOf_insert now listings hopen hrequest hmode hgathered).1 hclaimed
  have hplanned : entry ∈ plannedOf H settings.levels now listings outcomes
      (itemsOf H settings customers now listings mode (before ++ request :: after)) ↔
      entry ∈ plannedOf H settings.levels now listings outcomes
        (itemsOf H settings customers now listings mode (before ++ after)) := by
    rw [mem_plannedOf, mem_plannedOf]
    exact exists_congr fun item => and_congr_left fun _ => hsame _ item rfl
  refine hdiffers ⟨?_, ?_⟩
  · exact waits_of_unaffected hmode (fun item hitem => hproper item (.inr hitem))
      (fun item hitem => hproper item (.inl hitem)) hgathered' hgathered hplanned.mp hcharge
      fun receive => ((h outcomes receive).written row hlisted).mpr
  · exact waits_of_unaffected hmode (fun item hitem => hproper item (.inl hitem))
      (fun item hitem => hproper item (.inr hitem)) hgathered hgathered' hplanned.mpr hcharge
      fun receive => ((h outcomes receive).written row hlisted).mp

theorem unaffected_of_not
    (hjoins : ¬ Joins H settings customers now listings mode organizationId
    (before ++ after) request)
    (hrecuts : ¬ Recuts H settings customers now listings mode organizationId before after request)
    (outcomes : Outcomes)
    (receive : Receive) :
      Unaffected H settings customers now listings outcomes receive organizationId (before ++ after)
      (before ++ request :: after) := by
  cases hgathered : gatherRequests H settings customers (before ++ after) with
  | error e =>
    cases hgathered' : gatherRequests H settings customers (before ++ request :: after) with
    | error e' =>
      have hcalls : callsOf H settings customers now listings outcomes receive
          (before ++ request :: after) =
          callsOf H settings customers now listings outcomes receive (before ++ after) :=
        (runReceipts_error hgathered').trans (runReceipts_error hgathered).symm
      refine ⟨fun row _ => ?_, fun row _ => ?_, fun row _ => ?_, fun cursor => ?_⟩
      all_goals rw [hcalls]
    | ok gathered' =>
      obtain ⟨gathered, h⟩ := (gatherRequests_insert hrequest).mp ⟨gathered', hgathered'⟩
      cases hgathered.symm.trans h
  | ok gathered =>
    obtain ⟨gathered', hgathered'⟩ :=
      (gatherRequests_insert (H := H) hrequest).mpr ⟨gathered, hgathered⟩
    obtain ⟨hclaimed, hfree⟩ := itemsOf_insert now listings hopen hrequest hmode hgathered
    by_cases hget : gathered.pending.get (.transfer (bytes16ToTransferId request.transferId)) = none
    · -- nothing is recorded for what the organization has listed
      have hnone : ∀ row, ListedFor customers now listings organizationId row →
          row.id ≠ bytes16ToTransferId request.transferId ∧
            ∀ item ∈ itemsOf H settings customers now listings mode (before ++ after),
              subjectKey item.subject = .transfer row.id → ¬ item.Recordable H settings.levels := by
        refine fun row hrow =>
          ⟨fun hid => hjoins ⟨⟨gathered, hgathered, hget⟩, row, hrow, .inl hid⟩, ?_⟩
        exact fun item hitem hkey hrecordable =>
          hjoins ⟨⟨gathered, hgathered, hget⟩, row, hrow, .inr ⟨item, hitem, hkey, hrecordable⟩⟩
      have hsame : ∀ row, ListedFor customers now listings organizationId row →
          SameAt (.transfer row.id)
          (itemsOf H settings customers now listings mode (before ++ after))
          (itemsOf H settings customers now listings mode (before ++ request :: after)) :=
        fun row hrow => (hfree hget).1 _ fun hkey =>
          (hnone row hrow).1 (SubjectKey.transfer.inj hkey)
      refine unaffected_of_sameAt hmode hproper hgathered hgathered' hsame fun row hrow planned
        hcharge => ?_
      have hunplanned : ∀ item,
          item ∈ itemsOf H settings customers now listings mode (before ++ after) ∨
          item ∈ itemsOf H settings customers now listings mode (before ++ request :: after) →
            planned ∉ (effect H settings.levels now listings outcomes item).1.planned := by
        intro item hitem hmem
        have hkey := ((effect_spec (hproper item hitem)).1.charged planned hmem _ hcharge).1
        have hitem' : item ∈ itemsOf H settings customers now listings mode (before ++ after) :=
          hitem.elim id (hsame row hrow item hkey).mp
        rw [effect_unrecordable (hproper item hitem) hkey ((hnone row hrow).2 item hitem' hkey)]
          at hmem
        exact List.not_mem_nil hmem
      refine iff_of_false (fun hmem => ?_) fun hmem => ?_
      · obtain ⟨item, hitem, hin⟩ := mem_plannedOf.mp (mem_recordedOf.mp hmem).1
        exact hunplanned item (.inr hitem) hin
      · obtain ⟨item, hitem, hin⟩ := mem_plannedOf.mp (mem_recordedOf.mp hmem).1
        exact hunplanned item (.inl hitem) hin
    · refine unaffected_of_sameAt hmode hproper hgathered hgathered' (fun row _ => hclaimed hget _)
        fun row hrow planned hcharge => ?_
      rw [mem_recordedOf, mem_recordedOf, mem_plannedOf, mem_plannedOf]
      refine and_congr (exists_congr fun item => and_congr_left fun _ =>
        hclaimed hget _ item rfl) ?_
      refine forall_congr' fun report => imp_congr_left ?_
      by_contra hdiffers
      exact hrecuts ⟨⟨gathered, hgathered, hget⟩, outcomes, row, planned, report, hrow,
        hcharge, hdiffers⟩

end Main

section Sample

def sampleOpener : Customer where
  organizationId := "a"
  reader := ⟨"key", "a"⟩
  periods := []
  requesters := [⟨"requester", 7, .approved, .allowed⟩]
  reader_organizationId := rfl

def sampleReceiptRequest (transferId : Contract.Bytes16) : OpenRequest where
  key := Contract.receiptRequestKey Contract.sampleHashes transferId
  kind := RequestKind.receipt.code
  transferKind := 0
  requester := 7
  openedAt := 0
  requestId := 0
  transferId := transferId
  room := ""
  channel := ""
  publication := ""

/-- Organization `b` has finished the transfer 5. -/
def sampleListings : Listings where
  transferCursors := []
  finishedTransfers reader _ :=
    .ok (if reader.organizationId = "b" then [sampleListed 5 20] else [])
  ids reader completedAfter listed h row hrow := by
    split_ifs at h
    · cases h
      exact ⟨5, by rw [List.mem_singleton.mp hrow]; rfl⟩
    · cases h
      cases hrow

def sampleOutcomes : Outcomes where
  findPublication _ _ := .absent
  observe _ _ := .absent
  reserveCharge _ _ _ := .held
  commitCharge _ := .charged
  publication_short := nofun
  observation_wellNamed := nofun

def sampleCalls (requests : List OpenRequest) : List RelayCall :=
  callsOf Contract.sampleHashes (sampleCustomers 10)
    [sampleOpener, sampleCustomer "b"] 1000 sampleListings
    sampleOutcomes (fun _ => .ok ()) requests

def sampleReport : Contract.Report := ⟨[⟨5, 0, 1, 4096, 4096, 1000, 31, 32, 1⟩], [], [], []⟩

end Sample

/-- `b` is reserved a credit, written its receipt and moved past it, unless `a` asks for the
receipt. -/
theorem requested_displaced :
    (Reserves sampleOutcomes (sampleCalls []) "b" (bytes16ToTransferId 5) ∧
      Writes Contract.sampleHashes (fun _ => .ok ()) (sampleCalls [])
        (.transfer (bytes16ToTransferId 5)) ∧
      Commits sampleOutcomes (sampleCalls []) (bytes16ToTransferId 5) ∧
        Saves (sampleCalls []) "b" 20) ∧
    ¬ Reserves sampleOutcomes (sampleCalls [sampleReceiptRequest 5]) "b" (bytes16ToTransferId 5) ∧
      ¬ Writes Contract.sampleHashes (fun _ => .ok ()) (sampleCalls [sampleReceiptRequest 5])
        (.transfer (bytes16ToTransferId 5)) ∧
      ¬ Commits sampleOutcomes (sampleCalls [sampleReceiptRequest 5]) (bytes16ToTransferId 5) ∧
      Saves (sampleCalls [sampleReceiptRequest 5]) "b" 19 := by
  have hwithout : sampleCalls [] = [.openRequests, .readTransferCursors,
      .finishedTransfers ⟨"key", "b"⟩ (-1),
        .reserveCharge (.transfer (bytes16ToTransferId 5)) "b" (.everyTransfer 10),
      .writeReport ⟨some Contract.REPORT_VERSION, some sampleReport⟩,
      .commitCharge (.transfer (bytes16ToTransferId 5)), .saveTransferCursors [("b", 20)]] := by
    decide +kernel
  have hwith : sampleCalls [sampleReceiptRequest 5] = [.openRequests, .readTransferCursors,
      .finishedTransfers ⟨"key", "b"⟩ (-1),
      .observe (.transfer ⟨bytes16ToTransferId 5, none⟩) (some ⟨"key", "a"⟩),
        .saveTransferCursors [("b", 19)]] := by
    decide +kernel
  rw [hwithout, hwith]
  refine ⟨⟨⟨.everyTransfer 10, by simp, rfl⟩,
    ⟨sampleReport, by simp, rfl, _, List.mem_cons_self .., rfl⟩, ⟨by simp, rfl⟩,
    [("b", 20)], by simp, rfl⟩, ?_, ?_, ?_, [("b", 19)], by simp, rfl⟩
  · simp [Reserves]
  · simp [Writes]
  · simp [Commits]

/-- One more open request for a receipt leaves an organization's listed transfers and its cursor as
they are, whatever is answered, exactly where it neither joins what the organization has to record
nor moves the reports its entries wait for. -/
theorem unaffected_iff (H : Hashes) (settings : RelaySettings) {mode : CustomersMode}
    (hmode : settings.customers = some mode) (hroutes : ∀ name ∈ settings.routes.names, Short name)
    (customers : List Customer) (now : ℤ) (listings : Listings) {before after : List OpenRequest}
    {request : OpenRequest} {opener : Customer}
    (hrequest : ReceiptAskedBy settings customers opener request)
    (hopen : Openable H (before ++ request :: after)) (organizationId : String) :
    (∀ outcomes receive,
      Unaffected H settings customers now listings outcomes receive organizationId (before ++ after)
      (before ++ request :: after)) ↔
    ¬ Joins H settings customers now listings mode organizationId (before ++ after) request ∧
      ¬ Recuts H settings customers now listings mode organizationId before after request := by
  have hnames : ∀ other ∈ before ++ after,
      ∀ name ∈ [other.room, other.channel, other.publication], Short name := by
    intro other hother
    refine hopen.names other ?_
    rcases List.mem_append.mp hother with h | h
    · exact List.mem_append_left _ h
    · exact List.mem_append_right _ (List.mem_cons_of_mem _ h)
  have hproper : ∀ item, item ∈ itemsOf H settings customers now listings mode (before ++ after) ∨
      item ∈ itemsOf H settings customers now listings mode (before ++ request :: after) →
        item.WellNamed :=
    fun item hitem => hitem.elim (itemsOf_wellNamed hroutes hnames item)
      (itemsOf_wellNamed hroutes hopen.names item)
  constructor
  · intro h
    exact ⟨not_joins hmode hrequest hopen hproper h, not_recuts hmode hrequest hopen hproper h⟩
  · rintro ⟨hjoins, hrecuts⟩ outcomes receive
    exact unaffected_of_not hmode hrequest hopen hproper hjoins hrecuts outcomes receive

/-- Organization `b` has finished the transfer 5, but what Beam lists of it cannot be recorded. -/
def unrecordableListings : Listings where
  transferCursors := []
  finishedTransfers reader _ :=
    .ok (if reader.organizationId = "b" then
      [{ sampleListed 5 20 with observation := .invalid "status" }] else [])
  ids reader completedAfter listed h row hrow := by
    split_ifs at h
    · cases h
      exact ⟨5, by rw [List.mem_singleton.mp hrow]; rfl⟩
    · cases h
      cases hrow

theorem sample_unaffected :
    ReceiptAskedBy (sampleCustomers 10) [sampleOpener, sampleCustomer "b"] sampleOpener
      (sampleReceiptRequest 6) ∧
      ∀ outcomes receive, Unaffected Contract.sampleHashes (sampleCustomers 10)
        [sampleOpener, sampleCustomer "b"] 1000
        unrecordableListings outcomes receive "b" [] [sampleReceiptRequest 6] := by
  have hopener : ReceiptAskedBy (sampleCustomers 10) [sampleOpener, sampleCustomer "b"] sampleOpener
      (sampleReceiptRequest 6) := ⟨rfl, by decide, rfl⟩
  have hopen : Openable Contract.sampleHashes ([] ++ sampleReceiptRequest 6 :: []) := by
    refine ⟨List.nodup_singleton _, fun request hrequest _ => ?_, fun request hrequest => ?_⟩
    · rw [List.mem_singleton.mp hrequest]
      rfl
    · rw [List.mem_singleton.mp hrequest]
      decide +kernel
  have hiff :=
    unaffected_iff Contract.sampleHashes (sampleCustomers 10)
      rfl nofun [sampleOpener, sampleCustomer "b"]
    1000 unrecordableListings hopener hopen "b"
  refine ⟨hopener, hiff.mpr ⟨?_, ?_⟩⟩
  · rintro ⟨-, row, ⟨customer, hcustomer, horganization, rows, hrows, hrow⟩, hjoins⟩
    simp only [List.mem_cons, List.not_mem_nil, or_false] at hcustomer
    rcases hcustomer with rfl | rfl
    · exact absurd horganization (by decide)
    · cases hrows
      rcases hjoins with hid | ⟨item, hitem, -, hrecordable⟩
      · rw [List.mem_singleton.mp hrow] at hid
        exact absurd (bytes16ToTransferId_injective hid) (by decide)
      · obtain rfl := List.mem_singleton.mp hitem
        obtain ⟨entry, hentry⟩ := hrecordable _ rfl
        cases hentry
  · rintro ⟨⟨gathered, hgathered, hclaimed⟩, -⟩
    cases hgathered
    exact hclaimed rfl

end Beam.Relay
