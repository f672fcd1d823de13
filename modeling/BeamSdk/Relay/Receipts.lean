import Mathlib.Data.List.Sort
import BeamSdk.Library.Lists
import BeamSdk.Library.Result
import BeamSdk.Relay.Customers
import BeamSdk.Relay.Subjects

/-! Receipts: looking up every open request and every transfer an organization is owed a receipt
for, holding their charges, writing the finished ones in reports, and moving the listing cursors. -/

namespace Beam.Relay
open Contract (Address Hashes RequestKind)

def MAX_ENTRIES_PER_REPORT : ℕ := 14
def MAX_REPORT_BYTES : ℕ := 51200
def ABSENT_GRACE_MS : ℤ := 3600000

structure Pending where
  subject : Subject
  owner : Owner
  observation : Option Observation
  request : Option OpenRequest

structure Planned where
  entry : ReportEntry
  owner : Owner
  key : SubjectKey

/-- An open request this relay will never answer, and the organization whose address opened it. -/
structure Unanswerable where
  request : OpenRequest
  organizationId : String
  deriving DecidableEq, Repr

def readerOf : Owner → Option Reader
  | .beam => none
  | .customer _ reader _ => some reader

abbrev PendingMap := OrderedMap SubjectKey Pending

def addPending (pending : PendingMap) (item : Pending) : PendingMap :=
  let key := subjectKey item.subject
  match pending.get key with
  | none => pending.set key item
  | some existing =>
    if existing.subject.requestId = none ∧ item.subject.requestId ≠ none then pending.set key item
      else pending

/-- `approvedBy` and `revokedBy`: the last customer to register an address with that status. -/
def customersBy (status : RequesterStatus) (customers : List Customer) :
    OrderedMap Address Customer :=
  customers.foldl (fun byAddress customer => customer.requesters.foldl (fun byAddress requester =>
    if requester.status = status then byAddress.set requester.address customer else byAddress)
      byAddress) []

inductive Opener
  | owner (owner : Owner)
  | unanswerable (organizationId : String)
  | stranger

def openerOf (settings : RelaySettings) (customers : List Customer)
    (request : OpenRequest) : Opener :=
  if settings.customers.isSome ∧ request.requester ≠ settings.relayAccount then
    match (customersBy .approved customers).get request.requester with
    | some customer =>
      if request.kind = RequestKind.transfer.code then .unanswerable customer.organizationId
      else .owner (.customer customer.organizationId customer.reader (.requester request.requester))
    | none =>
      match (customersBy .revoked customers).get request.requester with
      | some revoked => .unanswerable revoked.organizationId
      | none => .stranger
  else .owner .beam

structure Gathered where
  pending : PendingMap
  unanswerable : List Unanswerable

section Gather
variable (H : Hashes) (settings : RelaySettings) (customers : List Customer)

def addRequest (gathered : Gathered) (request : OpenRequest) : Except Thrown Gathered :=
  match openerOf settings customers request with
  | .stranger => .ok gathered
  | .unanswerable organizationId =>
    .ok { gathered with unanswerable := gathered.unanswerable ++ [⟨request, organizationId⟩] }
  | .owner owner => do
    match ← subjectForOpenRequest H settings.clientId settings.routes request with
    | none => .ok gathered
    | some subject =>
      let asked := if owner = .beam then none else some request
      .ok { gathered with pending := addPending gathered.pending ⟨subject, owner, none, asked⟩ }

def gatherRequests (requests : List OpenRequest) : Except Thrown Gathered :=
  requests.foldlM (addRequest H settings customers) ⟨[], []⟩

theorem mem_addPending {pending : PendingMap} {item : Pending} {e : SubjectKey × Pending}
    (h : e ∈ addPending pending item) : e.2 = item ∨ e ∈ pending := by
  simp only [addPending] at h
  split at h
  · exact (OrderedMap.mem_set h).imp_left fun he => by rw [he]
  · split_ifs at h
    · exact (OrderedMap.mem_set h).imp_left fun he => by rw [he]
    · exact .inr h

theorem mem_addRequest {gathered gathered' : Gathered} {request : OpenRequest}
    (h : addRequest H settings customers gathered request = .ok gathered')
    {e : SubjectKey × Pending}
    (he : e ∈ gathered'.pending) : e ∈ gathered.pending ∨
      ∃ owner, openerOf settings customers request = .owner owner ∧
      subjectForOpenRequest H settings.clientId settings.routes request = .ok (some e.2.subject) ∧
      e.2.owner = owner ∧ e.2.observation = none := by
  unfold addRequest at h
  split at h
  · cases h
    exact .inl he
  · cases h
    exact .inl he
  · rename_i owner howner
    obtain ⟨subject?, hsubject, h⟩ := bind_eq_ok.mp h
    cases subject? with
    | none =>
      cases h
      exact .inl he
    | some subject =>
      cases h
      rcases mem_addPending he with he | he
      · rw [he]
        exact .inr ⟨owner, howner, hsubject, rfl, rfl⟩
      · exact .inl he

end Gather

structure Listing where
  customer : Customer
  cursor : ℤ
  -- each transfer with whether a receipt is owed for it
  transfers : List (ListedTransfer × Bool)

def ListedTransfer.notAfter (a b : ListedTransfer) : Prop :=
    dateParse a.completedAt ≤ dateParse b.completedAt

instance (a b : ListedTransfer) : Decidable (a.notAfter b) := inferInstanceAs (Decidable (_ ≤ _))

instance : Std.Total ListedTransfer.notAfter where
  total a b := Int.le_total (dateParse a.completedAt) (dateParse b.completedAt)

instance : IsTrans ListedTransfer ListedTransfer.notAfter where
  trans _ _ _ := Int.le_trans

def keptTransfers (mode : CustomersMode) (customer : Customer) (listed : List ListedTransfer) :
    List (ListedTransfer × Bool) :=
  ((listed.insertionSort ListedTransfer.notAfter).take mode.maxPerOrganization).map fun transfer =>
    (transfer, decide (createdDuringPeriods (dateParse transfer.createdAt) customer.periods))

def listedPending (customer : Customer) (transfer : ListedTransfer) : Pending where
  subject := .transfer ⟨transfer.id, none⟩
  owner := .customer customer.organizationId customer.reader (.everyTransfer transfer.createdAt)
  observation := some transfer.observation
  request := none

def addListed (customer : Customer) (pending : PendingMap)
    (transfers : List (ListedTransfer × Bool)) : PendingMap :=
  transfers.foldl (fun pending transfer =>
    if transfer.2 then addPending pending (listedPending customer transfer.1) else pending) pending

def listTransfers (mode : CustomersMode) (now : ℤ) (cursors : TransferCursors)
    (gathered : PendingMap × List Listing) (customer : Customer) :
      Program (PendingMap × List Listing) :=
  if customer.periods = [] ∨ ¬ listsTransfers customer now then pure gathered
  else
    let cursor := (cursors.get customer.organizationId).getD (initialTransferCursor customer)
    (io (.finishedTransfers customer.reader cursor)).attempt >>= fun
      | .error _ => pure gathered
      | .ok listed =>
        let transfers := keptTransfers mode customer listed
        pure (addListed customer gathered.1 transfers,
          gathered.2 ++ [⟨customer, cursor, transfers⟩])

theorem mem_addListed {customer : Customer} {transfers : List (ListedTransfer × Bool)}
    {pending : PendingMap}
    {e : SubjectKey × Pending} (h : e ∈ addListed customer pending transfers) :
    (∃ transfer, (transfer, true) ∈ transfers ∧ e.2 = listedPending customer transfer) ∨
      e ∈ pending := by
  induction transfers generalizing pending with
  | nil => exact .inr h
  | cons transfer transfers ih =>
    obtain ⟨transfer, owed⟩ := transfer
    rcases ih h with ⟨t, ht, he⟩ | he
    · exact .inl ⟨t, List.mem_cons_of_mem _ ht, he⟩
    · cases owed with
      | false => exact .inr he
      | true =>
        rcases mem_addPending he with he | he
        · exact .inl ⟨transfer, List.mem_cons_self .., he⟩
        · exact .inr he

structure Plan where
  planned : List Planned
  settled : List SubjectKey
  unanswerable : List Unanswerable

namespace Plan
variable (plan : Plan)

def add (entries : List Planned) : Plan := { plan with planned := plan.planned ++ entries }

def settle (key : SubjectKey) : Plan := { plan with settled := plan.settled ++ [key] }

/-- A customer's request for something its key cannot see, once given time to appear. -/
def unseen (now : ℤ) (item : Pending) : Plan :=
  match item.owner, item.request with
  | .customer organizationId _ _, some request =>
    if now - (request.openedAt.toNat : ℤ) * 1000 < ABSENT_GRACE_MS then plan
    else { plan with unanswerable := plan.unanswerable ++ [⟨request, organizationId⟩] }
  | _, _ => plan

end Plan

section Planning
variable (H : Hashes) (levels : ReceiptLevels) (now : ℤ)

def planJob (plan : Plan) (owner : Owner) (requested : JobSubject) : Program Plan :=
  let reader := readerOf owner
  let lookups := jobLookups requested
  io (.findPublication lookups.1 reader) >>= fun
    | .found inputId => io (.findPublication lookups.2 reader) >>= fun
      | .found outputId => do
        let input ← io
          (.observe (.room ⟨requested.room, requested.inputChannel, inputId, none⟩) reader)
        let output ← io
          (.observe (.room ⟨requested.room, requested.outputChannel, outputId, none⟩) reader)
        match ← Script.ofExcept
          (jobEntriesFor H requested inputId outputId input output levels) with
        | none => pure plan
        | some entries =>
            pure (plan.add (entries.map fun entry => ⟨entry, owner, subjectKey (.job requested)⟩))
      | _ => pure plan
    | _ => pure plan

/-- What an entry needs before it is planned: a customer's receipt its charge held. -/
def planEntry (plan : Plan) (owner : Owner) (key : SubjectKey) (entry : ReportEntry) :
    Program Plan :=
  match owner, chargeSubjectOf H entry with
  | .customer organizationId _ via, some charge =>
      io (.reserveCharge charge organizationId via) >>= fun
    | .charged | .released => pure (plan.settle key)
    | .held => pure (plan.add [⟨entry, owner, key⟩])
    | .refused _ _ | .unavailable _ => pure plan
  | _, _ => pure (plan.add [⟨entry, owner, key⟩])

def planNothing (plan : Plan) (item : Pending) (subject : Subject) : Observation → Plan
  | .absent => plan.unseen now item
  | .pending => plan
  | _ => if item.observation.isSome then plan.settle (subjectKey subject) else plan

def observed (item : Pending) (subject : Subject) : Program Observation :=
  match item.observation with
  | some observation => pure observation
  | none => io (.observe subject (readerOf item.owner))

def planObserved (plan : Plan) (item : Pending) (subject : Subject) (observation : Observation) :
    Program Plan := do
  match ← Script.ofExcept (reportEntryFor H subject observation levels) with
  | none => pure (planNothing now plan item subject observation)
  | some entry => planEntry H plan item.owner (subjectKey subject) entry

def planSubject (plan : Plan) (item : Pending) (subject : Subject) : Program Plan :=
  observed item subject >>= planObserved H levels now plan item subject

def planItem (plan : Plan) (item : Pending) : Program Plan :=
  match item.subject with
  | .job requested => planJob H levels plan item.owner requested
  | .roomRequest requested =>
      io (.findPublication requested (readerOf item.owner)) >>= fun lookup =>
    match roomSubjectForLookup requested lookup with
    | none => pure (if lookup = .absent then plan.unseen now item else plan)
    | some found => planSubject H levels now plan item (.room found)
  | subject => planSubject H levels now plan item subject

def batches (planned : List Planned) : List (List Planned) :=
  (List.range ((planned.length + (MAX_ENTRIES_PER_REPORT - 1)) /
    MAX_ENTRIES_PER_REPORT)).map fun i =>
    (planned.drop (i * MAX_ENTRIES_PER_REPORT)).take MAX_ENTRIES_PER_REPORT

def reportOfEntries (entries : List ReportEntry) : Contract.Report where
  standard := entries.filterMap fun | .standard entry => some entry | _ => none
  rooms := entries.filterMap fun | .room entry => some entry | _ => none
  closures := entries.filterMap fun | .closure entry => some entry | _ => none
  jobs := entries.filterMap fun | .job entry => some entry | _ => none

def reportOf (batch : List Planned) : Contract.Report := reportOfEntries (batch.map Planned.entry)

def entriesOf (report : Contract.Report) : List ReportEntry :=
  report.standard.map .standard ++ report.rooms.map .room ++ report.closures.map .closure ++
    report.jobs.map .job

section Report
variable {entries : List ReportEntry}

theorem mem_standard {entry : Contract.StandardReceiptReport} :
    entry ∈ (reportOfEntries entries).standard ↔ .standard entry ∈ entries := by
  simp only [reportOfEntries, List.mem_filterMap]
  constructor
  · rintro ⟨e, he, hentry⟩
    split at hentry <;> cases hentry
    exact he
  · exact fun he => ⟨_, he, rfl⟩

theorem mem_rooms {entry : Contract.RoomReceiptReport} :
    entry ∈ (reportOfEntries entries).rooms ↔ .room entry ∈ entries := by
  simp only [reportOfEntries, List.mem_filterMap]
  constructor
  · rintro ⟨e, he, hentry⟩
    split at hentry <;> cases hentry
    exact he
  · exact fun he => ⟨_, he, rfl⟩

theorem mem_closures {closure : Contract.RequestClosure} :
    closure ∈ (reportOfEntries entries).closures ↔ .closure closure ∈ entries := by
  simp only [reportOfEntries, List.mem_filterMap]
  constructor
  · rintro ⟨e, he, hentry⟩
    split at hentry <;> cases hentry
    exact he
  · exact fun he => ⟨_, he, rfl⟩

theorem mem_jobs {entry : Contract.JobResultReport} :
    entry ∈ (reportOfEntries entries).jobs ↔ .job entry ∈ entries := by
  simp only [reportOfEntries, List.mem_filterMap]
  constructor
  · rintro ⟨e, he, hentry⟩
    split at hentry <;> cases hentry
    exact he
  · exact fun he => ⟨_, he, rfl⟩

theorem entriesOf_reportOfEntries (entries : List ReportEntry) :
    (entriesOf (reportOfEntries entries)).Perm entries := by
  induction entries with
  | nil => exact .nil
  | cons entry entries ih =>
    refine List.Perm.trans ?_ (ih.cons entry)
    have hfront : ∀ {entry : ReportEntry} {front back : List ReportEntry},
        (front ++ entry :: back).Perm (entry :: (front ++ back)) :=
      List.perm_middle
    cases entry with
    | standard entry => simp [entriesOf, reportOfEntries]
    | room entry =>
      simp only [entriesOf, reportOfEntries, List.filterMap_cons, List.map_cons, List.append_assoc,
        List.cons_append]
      exact hfront
    | closure entry =>
      simp only [entriesOf, reportOfEntries, List.filterMap_cons, List.map_cons, List.append_assoc,
        List.cons_append]
      exact (hfront.append_left _).trans hfront
    | job entry =>
      simp only [entriesOf, reportOfEntries, List.filterMap_cons, List.map_cons, List.append_assoc]
      exact ((hfront.append_left _).append_left _).trans ((hfront.append_left _).trans hfront)

end Report

theorem entriesOf_reportOf (batch : List Planned) :
    (entriesOf (reportOf batch)).Perm (batch.map Planned.entry) :=
  entriesOf_reportOfEntries _

theorem mem_entriesOf_reportOf {batch : List Planned} {planned : Planned} (h : planned ∈ batch) :
    planned.entry ∈ entriesOf (reportOf batch) :=
  (entriesOf_reportOf batch).mem_iff.mpr (List.mem_map_of_mem h)

theorem planned_of_mem_entriesOf {batch : List Planned} {entry : ReportEntry}
    (h : entry ∈ entriesOf (reportOf batch)) : ∃ planned ∈ batch, planned.entry = entry :=
  List.mem_map.mp ((entriesOf_reportOf batch).mem_iff.mp h)

/-- The tail of a `string` in an ABI encoding. -/
def stringBytes (text : Contract.Bytes) : ℕ := 32 + 32 * ((text.length + 31) / 32)

def reportBytes (report : Contract.Report) : ℕ :=
  5 * 32 + (32 + 9 * 32 * report.standard.length) +
    (32 + (report.rooms.map fun entry =>
      13 * 32 + stringBytes entry.room + stringBytes entry.channel +
        stringBytes entry.publication).sum) +
    (32 + 3 * 32 * report.closures.length) +
    (32 + (report.jobs.map fun entry => 5 * 32 + stringBytes entry.computeMember).sum)

def encodeReport (report : Contract.Report) : Except Thrown Contract.EncodedReport :=
  let size := reportBytes report
  if size > MAX_REPORT_BYTES then
    .error ("Report is " ++ toString size ++ " bytes, above the " ++ toString MAX_REPORT_BYTES ++
      "-byte CRE report limit")
  else .ok ⟨some Contract.REPORT_VERSION, some report⟩

def encodedOf (batch : List Planned) : Contract.EncodedReport :=
    ⟨some Contract.REPORT_VERSION, some (reportOf batch)⟩

def writeReport (batch : List Planned) : Program Unit := do
  let report ← Script.ofExcept (encodeReport (reportOf batch))
  io (.writeReport report)

def settlePlanned (settled : List SubjectKey) (planned : Planned) : Program (List SubjectKey) :=
  match planned.owner, chargeSubjectOf H planned.entry with
  | .customer _ _ _, some charge => io (.commitCharge charge) >>= fun
    | .charged => pure (settled ++ [planned.key])
    | _ => pure settled
  | _, _ => pure settled

def writeBatches : List (List Planned) → ℕ → List SubjectKey → Program (ℕ × List SubjectKey)
  | [], recorded, settled => pure (recorded, settled)
  | batch :: rest, recorded, settled => (writeReport batch).attempt >>= fun
    | .error _ => pure (recorded, settled)
    | .ok _ => do
      let settled ← batch.foldlM (settlePlanned H) settled
      writeBatches rest (recorded + batch.length) settled

end Planning

theorem unseen_planned (plan : Plan) (now : ℤ) (item : Pending) :
    (plan.unseen now item).planned = plan.planned := by
  unfold Plan.unseen
  split
  · split_ifs <;> rfl
  · rfl

theorem planNothing_planned (now : ℤ) (plan : Plan) (item : Pending) (subject : Subject)
    (observation : Observation) :
    (planNothing now plan item subject observation).planned = plan.planned := by
  unfold planNothing
  split
  · exact unseen_planned plan now item
  · rfl
  · split_ifs <;> rfl

theorem flatten_batches (planned : List Planned) : (batches planned).flatten = planned := by
  have hsize : 0 < MAX_ENTRIES_PER_REPORT := by decide
  have hcount := Nat.lt_div_mul_add (a := planned.length + (MAX_ENTRIES_PER_REPORT - 1)) hsize
  unfold batches
  rw [flatten_windows]
  exact List.take_of_length_le (by omega)

theorem mem_batches {planned : List Planned} {p : Planned} :
    (∃ batch ∈ batches planned, p ∈ batch) ↔ p ∈ planned := by
  rw [← List.mem_flatten, flatten_batches]

theorem length_of_mem_batches {planned batch : List Planned} (h : batch ∈ batches planned) :
    batch.length ≤ MAX_ENTRIES_PER_REPORT := by
  obtain ⟨i, -, rfl⟩ := List.mem_map.mp h
  exact List.length_take_le _ _

def Listing.nextCursor (listing : Listing) (settled : List SubjectKey) : ℤ :=
  nextTransferCursor listing.cursor (listing.transfers.map fun transfer =>
    (transfer.1.completedAt, !transfer.2 || settled.contains (.transfer transfer.1.id)))

def moveCursors (cursors : TransferCursors) (listings : List Listing) (settled : List SubjectKey) :
    TransferCursors :=
  listings.foldl (fun cursors listing =>
    cursors.set listing.customer.organizationId (listing.nextCursor settled)) cursors

def saveListings (cursors : TransferCursors) (listings : List Listing) (settled : List SubjectKey) :
    Program Unit :=
  if listings = [] then pure ()
    else io (.saveTransferCursors (moveCursors cursors listings settled))

section Runs
variable (H : Hashes) (settings : RelaySettings)

/-- The cursors as they were read, the pending subjects and the listings of a pass. -/
def gatherListings (customers : List Customer) (now : ℤ) (pending : PendingMap) :
    Program (TransferCursors × PendingMap × List Listing) :=
  match settings.customers with
  | none => pure ([], pending, [])
  | some mode => do
    let cursors ← io .readTransferCursors
    let gathered ← customers.foldlM (listTransfers mode now cursors) (pending, [])
    pure (cursors, gathered)

def runReceipts (customers : List Customer) (now : ℤ) : Program (ℕ × List Unanswerable) := do
  let requests ← io .openRequests
  let gathered ← Script.ofExcept (gatherRequests H settings customers requests)
  let (cursors, pending, listings) ← gatherListings settings customers now gathered.pending
  let plan ← (pending.map Prod.snd).foldlM (planItem H settings.levels now)
    ⟨[], [], gathered.unanswerable⟩
  let (recorded, settled) ← writeBatches H (batches plan.planned) 0 plan.settled
  saveListings cursors listings settled
  pure (recorded, plan.unanswerable)

def settleReceipts (levels : ReceiptLevels) (now : ℤ) (pending : PendingMap)
    (unanswerable : List Unanswerable) :
    Program (ℕ × List SubjectKey × List Unanswerable) := do
  let plan ← (pending.map Prod.snd).foldlM (planItem H levels now) ⟨[], [], unanswerable⟩
  let (recorded, settled) ← writeBatches H (batches plan.planned) 0 plan.settled
  pure (recorded, settled, plan.unanswerable)

theorem runReceipts_eq (customers : List Customer) (now : ℤ) :
    runReceipts H settings customers now = io .openRequests >>= fun requests =>
      Script.ofExcept (gatherRequests H settings customers requests) >>= fun gathered =>
        gatherListings settings customers now gathered.pending >>= fun listed =>
          settleReceipts H settings.levels now listed.2.1 gathered.unanswerable >>= fun result =>
            saveListings listed.1 listed.2.2 result.2.1 >>= fun _ =>
              pure (result.1, result.2.2) := by
  unfold runReceipts settleReceipts
  simp only [Script.bind_assoc, Script.pure_bind']

end Runs

section Samples

def sampleCustomer (organizationId : String) : Customer where
  organizationId := organizationId
  reader := ⟨"key", organizationId⟩
  periods := [⟨0, none⟩]
  requesters := []
  reader_organizationId := rfl

def sampleObservation : Observation := .transfer 1 4096 4096 1000 31 32

def sampleListed (id : Contract.Bytes16) (completedAt : Timestamp) : ListedTransfer where
  id := bytes16ToTransferId id
  createdAt := 10
  completedAt := completedAt
  observation := sampleObservation

def sampleCustomers (maxPerOrganization : ℕ) : RelaySettings where
  startBlock := 1
  logRangeBlocks := 10
  logRangeBlocks_pos := Nat.succ_pos 9
  clientId := "client"
  levels := ⟨1, 1, 3⟩
  routes := ⟨none, none⟩
  starts := false
  relayAccount := 9
  customers := some ⟨maxPerOrganization⟩

end Samples
end Beam.Relay
