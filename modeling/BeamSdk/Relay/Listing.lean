import BeamSdk.Contract.Guarantees
import BeamSdk.Relay.Receipts

/-! The listings of finished transfers, over passes that may be cut short at any call: what a saved
listing cursor has moved past. -/

namespace Beam.Relay
open Contract (Hashes)

def Observation.unrecordable : Observation → Prop
  | .transfer _ _ _ _ _ _ | .absent | .pending => False
  | _ => True

instance (observation : Observation) : Decidable observation.unrecordable :=
  match observation with
  | .transfer .. | .absent | .pending => isFalse id
  | .unavailable | .error _ | .invalid _ | .notRoom _ | .room .. => isTrue trivial

/-- The charge of the transfer with the id `transferId`. -/
def ChargesTransfer (subject : ChargeSubject) (transferId : String) : Prop :=
  (transferIdToBytes16 transferId).map (fun id => .transfer (bytes16ToTransferId id)) = .ok subject

instance (subject : ChargeSubject) (transferId : String) :
    Decidable (ChargesTransfer subject transferId) :=
  inferInstanceAs (Decidable (_ = _))

def IoEvent.settles (transferId : String) : IoEvent → Prop
  | ⟨.reserveCharge subject _ _, .ok .charged⟩ => ChargesTransfer subject transferId
  | ⟨.reserveCharge subject _ _, .ok .released⟩ => ChargesTransfer subject transferId
  | ⟨.commitCharge subject, .ok .charged⟩ => ChargesTransfer subject transferId
  | ⟨.finishedTransfers _ _, .ok listed⟩ => ∃ transfer ∈ (listed : List ListedTransfer),
      transfer.id = transferId ∧ transfer.observation.unrecordable
  | _ => False

instance (transferId : String) (event : IoEvent) : Decidable (event.settles transferId) := by
  unfold IoEvent.settles
  split <;> infer_instance

def Settled (events : List IoEvent) (transferId : String) : Prop :=
    ∃ event ∈ events, event.settles transferId

instance (events : List IoEvent) (transferId : String) : Decidable (Settled events transferId) :=
  inferInstanceAs (Decidable (∃ event ∈ events, _))

structure Finished where
  organizationId : String
  id : String
  createdAt : Timestamp
  completedAt : Timestamp
  created_le_completed : createdAt ≤ completedAt
  deriving DecidableEq

/-- The organization owes a receipt for what was created then: during the periods of its every
account. -/
def OwesSince (customers : List Customer) (organizationId : String)
    (createdAt : Timestamp) : Prop :=
  ∀ customer ∈ customers, customer.organizationId = organizationId →
    createdDuringPeriods (dateParse createdAt) customer.periods

instance (customers : List Customer) (organizationId : String) (createdAt : Timestamp) :
    Decidable (OwesSince customers organizationId createdAt) :=
  inferInstanceAs (Decidable (∀ customer ∈ customers, _))

def Finished.owed (customers : List Customer) (transfer : Finished) : Prop :=
  OwesSince customers transfer.organizationId transfer.createdAt

instance (customers : List Customer) (transfer : Finished) : Decidable (transfer.owed customers) :=
  inferInstanceAs (Decidable (OwesSince _ _ _))

/-- What `finishedTransfers` shows: the organization's transfers that finished after the cursor. -/
def Finished.visible (reader : Reader) (completedAfter : ℤ) (transfer : Finished) : Prop :=
  transfer.organizationId = reader.organizationId ∧ completedAfter < transfer.completedAt

instance (reader : Reader) (completedAfter : ℤ) (transfer : Finished) :
    Decidable (transfer.visible reader completedAfter) :=
  inferInstanceAs (Decidable (_ ∧ _))

def ListedTransfer.rowOf (row : ListedTransfer) (transfer : Finished) : Prop :=
  row.id = transfer.id ∧ row.createdAt = transfer.createdAt ∧ row.completedAt = transfer.completedAt

structure Shows (finished : List Finished) (reader : Reader) (completedAfter : ℤ)
    (listed : List ListedTransfer) :
    Prop where
  every : ∀ transfer ∈ finished, transfer.visible reader completedAfter →
    ∃ row ∈ listed, row.rowOf transfer
  only : ∀ row ∈ listed, ∃ transfer ∈ finished, transfer.visible reader completedAfter ∧
    row.rowOf transfer

/-- The cursor file, what has finished at Beam so far, the customers of the current pass, what a
listing has shown that its organization owes a receipt for ever since, and every answered call. -/
structure ListingWorld where
  cursors : TransferCursors
  finished : List Finished
  customers : List Customer
  owing : List Finished
  past : List IoEvent

/-- A condition on what a pass over `customers` is shown. -/
abbrev Cut := List Customer → Reader → List ListedTransfer → Prop

def CursorEnv (cut : Cut) (w : ListingWorld) : (c : RelayCall) → Except Thrown c.Answer →
    ListingWorld → Prop
  | .readTransferCursors, .ok cursors, w' =>
      cursors = w.cursors ∧ w'.cursors = w.cursors ∧ w'.owing = w.owing
  | .saveTransferCursors cursors, .ok _, w' => w'.cursors = cursors ∧ w'.owing = w.owing
  | .saveTransferCursors cursors, .error _, w' =>
    (w'.cursors = w.cursors ∨ w'.cursors = cursors) ∧ w'.owing = w.owing
  | .finishedTransfers reader completedAfter, .ok listed, w' =>
    w'.cursors = w.cursors ∧ Shows w'.finished reader completedAfter listed ∧
      cut w.customers reader listed ∧
      w'.owing = w.owing ++
        w'.finished.filter fun transfer => transfer.visible reader completedAfter ∧
          transfer.owed w.customers
  | _, _, w' => w'.cursors = w.cursors ∧ w'.owing = w.owing

structure ListingEnv (cut : Cut) (w : ListingWorld) (c : RelayCall) (r : Except Thrown c.Answer)
    (w' : ListingWorld) : Prop where
  past : w'.past = w.past ++ [⟨c, r⟩]
  customers : w'.customers = w.customers
  finished : w.finished ⊆ w'.finished
  cursors : CursorEnv cut w c r w'

def RelaySettings.inMode (settings : RelaySettings) (mode : CustomersMode) : RelaySettings :=
  { settings with customers := some mode }

/-- Pass after pass in customers mode, each with the customers registered by then. -/
def listingMachine (H : Hashes) (settings : RelaySettings) (mode : CustomersMode) (cut : Cut) :
    Machine ListingWorld RelayCall RelayCall.Answer Thrown (ℕ × List Unanswerable) where
  init w := w.cursors = [] ∧ w.owing = [] ∧ w.past = []
  env := ListingEnv cut
  starts w s w' := ∃ customers now, s = runReceipts H (settings.inMode mode) customers now ∧
    w' = { w with customers := customers, owing := w.owing.filter (Finished.owed customers) }
  stops w w' := w.finished ⊆ w'.finished ∧ w' = { w with finished := w'.finished }

/-- Whatever a listing showed and is owed is settled once the organization's saved cursor is past
it. -/
def NoneSkipped (w : ListingWorld) (cursors : TransferCursors) : Prop :=
  ∀ transfer ∈ w.owing, ∀ cursor, cursors.get transfer.organizationId = some cursor →
    transfer.completedAt ≤ cursor → Settled w.past transfer.id

/-- No transfer owed and left for a later pass completes at the very millisecond of one that is
kept. -/
def CleanCut (mode : CustomersMode) : Cut := fun customers reader listed =>
  ∀ kept ∈ (listed.insertionSort ListedTransfer.notAfter).take mode.maxPerOrganization,
    ∀ left ∈ (listed.insertionSort ListedTransfer.notAfter).drop mode.maxPerOrganization,
      OwesSince customers reader.organizationId left.createdAt →
        dateParse kept.completedAt < left.completedAt

structure ListingOk (w : ListingWorld) : Prop where
  finished : w.owing ⊆ w.finished
  owed : ∀ transfer ∈ w.owing, transfer.owed w.customers
  settled : NoneSkipped w w.cursors

def ListingGuard (w : ListingWorld) : RelayCall → Prop
  | .finishedTransfers reader completedAfter =>
    ∀ cursor, w.cursors.get reader.organizationId = some cursor → cursor ≤ completedAfter
  | .saveTransferCursors cursors => NoneSkipped w cursors
  | _ => True

def Quiet : RelayCall → Prop
  | .finishedTransfers _ _ | .saveTransferCursors _ => False
  | _ => True

structure Stays (w w' : ListingWorld) : Prop where
  cursors : w'.cursors = w.cursors
  owing : w'.owing = w.owing
  customers : w'.customers = w.customers
  finished : w.finished ⊆ w'.finished
  past : w.past ⊆ w'.past

section Lemmas
variable {H : Hashes} {settings : RelaySettings} {mode : CustomersMode} {cut : Cut} {α : Type}
  {u v w w' : ListingWorld} {past past' : List IoEvent}

theorem Stays.refl (w : ListingWorld) : Stays w w :=
    ⟨rfl, rfl, rfl, List.Subset.refl _, List.Subset.refl _⟩

theorem Stays.trans (h : Stays u v) (h' : Stays v w) : Stays u w where
  cursors := h'.cursors.trans h.cursors
  owing := h'.owing.trans h.owing
  customers := h'.customers.trans h.customers
  finished := List.Subset.trans h.finished h'.finished
  past := List.Subset.trans h.past h'.past

theorem Settled.mono {transferId : String} (h : Settled past transferId) (hsub : past ⊆ past') :
    Settled past' transferId := by
  obtain ⟨event, hmem, hsettles⟩ := h
  exact ⟨event, hsub hmem, hsettles⟩

theorem ListingEnv.past_subset {c : RelayCall} {r : Except Thrown c.Answer}
    (h : ListingEnv cut w c r w') :
    w.past ⊆ w'.past := h.past ▸ List.subset_append_left _ _

theorem ListingEnv.event {c : RelayCall} {r : Except Thrown c.Answer}
    (h : ListingEnv cut w c r w') :
    ⟨c, r⟩ ∈ w'.past := h.past ▸ List.mem_append_right _ (List.mem_singleton.mpr rfl)

theorem ListingEnv.stays {c : RelayCall} {r : Except Thrown c.Answer} (h : ListingEnv cut w c r w')
    (hc : Quiet c) :
    Stays w w' := by
  have hsame : w'.cursors = w.cursors ∧ w'.owing = w.owing := by
    have hcursors := h.cursors
    cases c with
    | finishedTransfers reader completedAfter => exact hc.elim
    | saveTransferCursors cursors => exact hc.elim
    | readTransferCursors =>
      cases r with
      | ok cursors => exact hcursors.2
      | error e => exact hcursors
    | _ => exact hcursors
  exact ⟨hsame.1, hsame.2, h.customers, h.finished, h.past_subset⟩

theorem Stays.listingOk (h : Stays w w') (hw : ListingOk w) : ListingOk w' where
  finished := h.owing ▸ List.Subset.trans hw.finished h.finished
  owed := by
    rw [h.owing, h.customers]
    exact hw.owed
  settled := by
    intro transfer htransfer cursor hcursor hle
    rw [h.owing] at htransfer
    rw [h.cursors] at hcursor
    exact (hw.settled transfer htransfer cursor hcursor hle).mono h.past

theorem ListingEnv.listingOk {c : RelayCall} {r : Except Thrown c.Answer}
    (h : ListingEnv cut w c r w')
    (hw : ListingOk w) (hg : ListingGuard w c) : ListingOk w' := by
  have hsame : w'.cursors = w.cursors ∧ w'.owing = w.owing → ListingOk w' := fun hsame =>
    Stays.listingOk ⟨hsame.1, hsame.2, h.customers, h.finished, h.past_subset⟩ hw
  have hcursors := h.cursors
  cases c with
  | finishedTransfers reader completedAfter =>
    cases r with
    | error e => exact hsame hcursors
    | ok listed =>
      obtain ⟨hfile, hshows, -, howing⟩ := hcursors
      have hnew : ∀ transfer ∈ w'.owing, transfer ∈ w.owing ∨
          (transfer ∈ w'.finished ∧ transfer.visible reader completedAfter ∧
            transfer.owed w.customers) := by
        intro transfer htransfer
        rw [howing, List.mem_append, List.mem_filter, decide_eq_true_eq] at htransfer
        exact htransfer
      refine ⟨fun transfer htransfer => ?_,
        fun transfer htransfer => ?_, fun transfer htransfer cursor hcursor hle => ?_⟩
      · exact (hnew transfer htransfer).elim (fun hold => h.finished (hw.finished hold)) And.left
      · rw [h.customers]
        exact (hnew transfer htransfer).elim (hw.owed transfer) fun hshown => hshown.2.2
      · rw [hfile] at hcursor
        rcases hnew transfer htransfer with hold | ⟨-, ⟨hreader, hafter⟩, -⟩
        · exact (hw.settled transfer hold cursor hcursor hle).mono h.past_subset
        -- what is shown finished after the saved cursor
        · have hguard : cursor ≤ completedAfter := hg cursor (hreader ▸ hcursor)
          have hlt : transfer.completedAt ≤ completedAfter := hle.trans (Int.cast_le.mpr hguard)
          exact (hafter.not_ge hlt).elim
  | saveTransferCursors cursors =>
    have hsaved : w'.cursors = cursors ∧ w'.owing = w.owing → ListingOk w' := by
      rintro ⟨hfile, howing⟩
      refine ⟨howing ▸ List.Subset.trans hw.finished h.finished, ?_,
        fun transfer htransfer cursor hcursor hle => ?_⟩
      · rw [howing, h.customers]
        exact hw.owed
      · rw [howing] at htransfer
        rw [hfile] at hcursor
        exact (hg transfer htransfer cursor hcursor hle).mono h.past_subset
    cases r with
    | ok _ => exact hsaved hcursors
    | error e =>
      obtain ⟨hfile | hfile, howing⟩ := hcursors
      · exact hsame ⟨hfile, howing⟩
      · exact hsaved ⟨hfile, howing⟩
  | _ => exact (h.stays trivial).listingOk hw

variable (cut) in
abbrev QuietSafe (Q : α → ListingWorld → Prop) (s : Program α) (w : ListingWorld) : Prop :=
  s.Safe (ListingEnv cut) ListingOk (fun _ c => Quiet c) Q w

theorem io_quietSafe {c : RelayCall} (hw : ListingOk w) (hc : Quiet c) :
    QuietSafe cut (fun a w' => ListingEnv cut w c (.ok a) w' ∧ Stays w w') (io c) w :=
  Script.Safe.io hw hc (fun _ _ henv =>
    ⟨(henv.stays hc).listingOk hw, henv, henv.stays hc⟩) fun _ _ henv =>
    (henv.stays hc).listingOk hw

theorem QuietSafe.remember {Q : α → ListingWorld → Prop} {s : Program α} (h : QuietSafe cut Q s w) :
    QuietSafe cut (fun a w' => Stays w w' ∧ Q a w') s w :=
  Script.Safe.remember Stays.refl (fun _ _ _ => Stays.trans)
    (fun _ _ _ _ _ hc henv => henv.stays hc) h

def Shown (past : List IoEvent) (row : ListedTransfer) : Prop :=
  ∃ reader completedAfter listed,
    (⟨.finishedTransfers reader completedAfter, .ok listed⟩ : IoEvent) ∈ past ∧
    row ∈ (listed : List ListedTransfer)

def Listed (past : List IoEvent) (subject : Subject) (observation : Option Observation) : Prop :=
  ∀ o, observation = some o → ∃ row, Shown past row ∧ subject = .transfer ⟨row.id, none⟩ ∧
    o = row.observation

variable (H) in
/-- The entry planned under a transfer's key is the one whose charge settles the transfer. -/
def PlannedOk (planned : Planned) : Prop :=
  ∀ transferId, planned.key = .transfer transferId →
    ∃ subject, ChargesTransfer subject transferId ∧ chargeSubjectOf H planned.entry = some subject

def KeysSettled (past : List IoEvent) (settled : List SubjectKey) : Prop :=
  ∀ transferId, .transfer transferId ∈ settled → Settled past transferId

variable (H) in
structure PlanSettled (past : List IoEvent) (plan : Plan) : Prop where
  settled : KeysSettled past plan.settled
  planned : ∀ planned ∈ plan.planned, PlannedOk H planned

theorem Listed.mono {subject : Subject} {observation : Option Observation}
    (h : Listed past subject observation)
    (hsub : past ⊆ past') : Listed past' subject observation := by
  intro o ho
  obtain ⟨row, ⟨reader, completedAfter, listed, hmem, hrow⟩, hrest⟩ := h o ho
  exact ⟨row, ⟨reader, completedAfter, listed, hsub hmem, hrow⟩, hrest⟩

theorem KeysSettled.mono {settled : List SubjectKey} (h : KeysSettled past settled)
    (hsub : past ⊆ past') :
    KeysSettled past' settled := fun transferId hmem => (h transferId hmem).mono hsub

theorem KeysSettled.append {settled : List SubjectKey} (h : KeysSettled past settled)
    {key : SubjectKey}
    (hkey : ∀ transferId, key = .transfer transferId → Settled past transferId) :
    KeysSettled past (settled ++ [key]) := by
  intro transferId hmem
  rcases List.mem_append.mp hmem with hmem | hmem
  · exact h transferId hmem
  · exact hkey transferId (List.mem_singleton.mp hmem).symm

theorem PlanSettled.mono {plan : Plan} (h : PlanSettled H past plan) (hsub : past ⊆ past') :
    PlanSettled H past' plan := ⟨h.settled.mono hsub, h.planned⟩

theorem PlanSettled.add {plan : Plan} (h : PlanSettled H past plan) {entries : List Planned}
    (hnew : ∀ planned ∈ entries, PlannedOk H planned) : PlanSettled H past (plan.add entries) :=
  ⟨h.settled, fun planned hplanned => (List.mem_append.mp hplanned).elim (h.planned planned)
    (hnew planned)⟩

theorem reportEntryFor_charges {subject : Subject} {observation : Observation}
    {levels : ReceiptLevels}
    {entry : ReportEntry} (h : reportEntryFor H subject observation levels = .ok (some entry))
    {transferId : String}
    (hkey : subjectKey subject = .transfer transferId) :
    ∃ charge, ChargesTransfer charge transferId ∧ chargeSubjectOf H entry = some charge := by
  have hentry := reportEntryFor_entryOf h
  cases subject with
  | transfer subject =>
    obtain rfl : subject.transferId = transferId := SubjectKey.transfer.inj hkey
    cases entry with
    | standard entry =>
      have hid : transferIdToBytes16 subject.transferId = .ok entry.transferId := hentry
      refine ⟨_, ?_, rfl⟩
      unfold ChargesTransfer
      rw [hid]
      rfl
    | _ => exact hentry.elim
  | _ => cases hkey

theorem unrecordable_of_reportEntryFor {subject : TransferSubject} {observation : Observation}
    {levels : ReceiptLevels}
    (h : reportEntryFor H (.transfer subject) observation levels = .ok none)
    (habsent : observation ≠ .absent)
    (hpending : observation ≠ .pending) : observation.unrecordable := by
  cases observation with
  | transfer status totalBytes bytesTransferred completedAtMs planFingerprint coordinateChecksum =>
    obtain ⟨id, -, hentry⟩ := bind_eq_ok.mp h
    cases hentry
  | absent => exact (habsent rfl).elim
  | pending => exact (hpending rfl).elim
  | _ => trivial

variable {plan : Plan} {levels : ReceiptLevels} {now : ℤ} {item : Pending} {owner : Owner}

theorem planEntry_quietSafe (hw : ListingOk w) (hplan : PlanSettled H w.past plan)
    {key : SubjectKey}
    {entry : ReportEntry} (hplanned : PlannedOk H ⟨entry, owner, key⟩) :
    QuietSafe cut (fun plan w' => PlanSettled H w'.past plan)
      (planEntry H plan owner key entry) w := by
  have hadd : ∀ {w'}, ListingOk w' → PlanSettled H w'.past plan →
      QuietSafe cut (fun plan w' => PlanSettled H w'.past plan)
        (pure (plan.add [⟨entry, owner, key⟩])) w' :=
    fun hw' hplan' => ⟨hw', hplan'.add fun planned hmem => List.mem_singleton.mp hmem ▸ hplanned⟩
  cases owner with
  | beam => exact hadd hw hplan
  | customer organizationId reader via =>
    unfold planEntry
    cases hcharge : chargeSubjectOf H entry with
    | none => exact hadd hw hplan
    | some charge =>
      refine (io_quietSafe hw (by trivial)).bind ?_
      rintro outcome w' hw' ⟨henv, hstays⟩
      have hplan' := hplan.mono hstays.past
      have hsettled : outcome = .charged ∨ outcome = .released →
          ∀ transferId, key = .transfer transferId → Settled w'.past transferId := by
        intro houtcome transferId hkey
        obtain ⟨subject, hcharges, hsubject⟩ := hplanned transferId hkey
        cases hcharge.symm.trans hsubject
        refine ⟨_, henv.event, ?_⟩
        rcases houtcome with rfl | rfl <;> exact hcharges
      cases outcome with
      | held => exact hadd hw' hplan'
      | charged => exact ⟨hw', hplan'.settled.append (hsettled (.inl rfl)), hplan'.planned⟩
      | released => exact ⟨hw', hplan'.settled.append (hsettled (.inr rfl)), hplan'.planned⟩
      | _ => exact ⟨hw', hplan'⟩

theorem PlanSettled.unseen (h : PlanSettled H past plan) :
    PlanSettled H past (plan.unseen now item) := by
  unfold Plan.unseen
  split
  · split_ifs
    · exact h
    · exact ⟨h.settled, h.planned⟩
  · exact h

theorem PlanSettled.nothing {subject : Subject} {observation : Observation}
    (h : PlanSettled H past plan)
    (hlisted : Listed past subject item.observation)
    (hobserved : ∀ o, item.observation = some o → o = observation)
    (hentry : reportEntryFor H subject observation levels = .ok none) :
    PlanSettled H past (planNothing now plan item subject observation) := by
  unfold planNothing
  split
  · exact h.unseen
  · exact h
  · rename_i habsent hpending
    split_ifs with hsome
    · obtain ⟨o, ho⟩ := Option.isSome_iff_exists.mp hsome
      obtain ⟨row, ⟨reader, completedAfter, listed, hmem, hrow⟩, rfl, rfl⟩ := hlisted o ho
      obtain rfl := hobserved _ ho
      refine ⟨h.settled.append fun transferId hkey => ?_, h.planned⟩
      obtain rfl : row.id = transferId := SubjectKey.transfer.inj hkey
      exact ⟨_, hmem, row, hrow, rfl, unrecordable_of_reportEntryFor hentry habsent hpending⟩
    · exact h

theorem planSubject_quietSafe (hw : ListingOk w) (hplan : PlanSettled H w.past plan)
    {subject : Subject}
    (hlisted : Listed w.past subject item.observation) :
    QuietSafe cut (fun plan w' => PlanSettled H w'.past plan)
      (planSubject H levels now plan item subject) w := by
  have hobserved : QuietSafe cut (fun observation _ => ∀ o, item.observation = some o →
      o = observation)
      (observed item subject) w := by
    unfold observed
    cases item.observation with
    | some observation => exact ⟨hw, by rintro _ ⟨⟩; rfl⟩
    | none => exact (io_quietSafe hw (by trivial)).mono fun _ _ _ _ => nofun
  refine hobserved.remember.bind ?_
  rintro observation w' hw' ⟨hstays, hsame⟩
  refine Script.Safe.bind (P := fun entry w'' => w'' = w' ∧
    reportEntryFor H subject observation levels = .ok entry)
    (Script.Safe.ofExcept hw' fun _ hentry => ⟨rfl, hentry⟩) ?_
  rintro entry w'' hw'' ⟨rfl, hentry⟩
  have hplan'' := hplan.mono hstays.past
  cases entry with
  | none => exact ⟨hw'', hplan''.nothing (hlisted.mono hstays.past) hsame hentry⟩
  | some entry => exact planEntry_quietSafe hw'' hplan'' fun _ hkey =>
      reportEntryFor_charges hentry hkey

theorem planJob_quietSafe (hw : ListingOk w) (hplan : PlanSettled H w.past plan)
    {requested : JobSubject} :
    QuietSafe cut (fun plan w' => PlanSettled H w'.past plan)
      (planJob H levels plan owner requested) w := by
  unfold planJob
  refine (io_quietSafe hw (by trivial)).bind ?_
  rintro input w₁ hw₁ ⟨-, hstays₁⟩
  have hplan₁ := hplan.mono hstays₁.past
  cases input with
  | found inputId =>
    refine (io_quietSafe hw₁ (by trivial)).bind ?_
    rintro output w₂ hw₂ ⟨-, hstays₂⟩
    have hplan₂ := hplan₁.mono hstays₂.past
    cases output with
    | found outputId =>
      refine (io_quietSafe hw₂ (by trivial)).bind ?_
      rintro inputObservation w₃ hw₃ ⟨-, hstays₃⟩
      refine (io_quietSafe hw₃ (by trivial)).bind ?_
      rintro outputObservation w₄ hw₄ ⟨-, hstays₄⟩
      have hplan₄ := hplan₂.mono (hstays₃.trans hstays₄).past
      refine Script.Safe.bind (P := fun _ w => w = w₄) (Script.Safe.ofExcept hw₄ fun _ _ => rfl) ?_
      rintro entries w₅ hw₅ rfl
      cases entries with
      | none => exact ⟨hw₅, hplan₄⟩
      | some entries =>
        refine ⟨hw₅, hplan₄.add fun planned hplanned transferId hkey => ?_⟩
        obtain ⟨entry, -, rfl⟩ := List.mem_map.mp hplanned
        cases hkey
    | _ => exact ⟨hw₂, hplan₂⟩
  | _ => exact ⟨hw₁, hplan₁⟩

theorem planItem_quietSafe (hw : ListingOk w) (hplan : PlanSettled H w.past plan)
    (hitem : Listed w.past item.subject item.observation) :
    QuietSafe cut (fun plan w' => PlanSettled H w'.past plan)
      (planItem H levels now plan item) w := by
  unfold planItem
  split
  · exact planJob_quietSafe hw hplan
  · rename_i requested hsubject
    refine (io_quietSafe hw (by trivial)).bind ?_
    rintro lookup w' hw' ⟨-, hstays⟩
    have hplan' := hplan.mono hstays.past
    cases lookup with
    | found publicationId =>
      refine planSubject_quietSafe hw' hplan' fun o ho => ?_
      obtain ⟨row, -, htransfer, -⟩ := hitem o ho
      cases hsubject.symm.trans htransfer
    | absent => exact ⟨hw', hplan'.unseen⟩
    | _ => exact ⟨hw', hplan'⟩
  · exact planSubject_quietSafe hw hplan hitem

theorem settlePlanned_quietSafe (hw : ListingOk w) {settled : List SubjectKey}
    (hsettled : KeysSettled w.past settled)
    {planned : Planned} (hplanned : PlannedOk H planned) :
    QuietSafe cut (fun settled w' => KeysSettled w'.past settled)
      (settlePlanned H settled planned) w := by
  unfold settlePlanned
  split
  · rename_i charge howner hcharge
    refine (io_quietSafe hw (by trivial)).bind ?_
    rintro outcome w' hw' ⟨henv, hstays⟩
    have hsettled' := hsettled.mono hstays.past
    cases outcome with
    | charged =>
      refine ⟨hw', hsettled'.append fun transferId hkey => ?_⟩
      obtain ⟨subject, hcharges, hsubject⟩ := hplanned transferId hkey
      cases hcharge.symm.trans hsubject
      exact ⟨_, henv.event, hcharges⟩
    | _ => exact ⟨hw', hsettled'⟩
  · exact ⟨hw, hsettled⟩

theorem writeBatches_quietSafe {groups : List (List Planned)} (hw : ListingOk w)
    (hgroups : ∀ batch ∈ groups, ∀ planned ∈ batch, PlannedOk H planned) (recorded : ℕ)
    {settled : List SubjectKey}
    (hsettled : KeysSettled w.past settled) :
    QuietSafe cut (fun result w' => KeysSettled w'.past result.2)
      (writeBatches H groups recorded settled) w := by
  induction groups generalizing recorded settled w with
  | nil => exact ⟨hw, hsettled⟩
  | cons batch rest ih =>
    have hwrite : QuietSafe cut (fun _ _ => True) (writeReport batch).attempt w := by
      refine Script.Safe.attempt ?_ fun _ _ _ => trivial
      refine Script.Safe.bind (P := fun _ w' => w' = w) (Script.Safe.ofExcept hw fun _ _ => rfl) ?_
      rintro report w' hw' rfl
      exact (io_quietSafe hw' (by trivial)).mono fun _ _ _ _ => trivial
    refine hwrite.remember.bind ?_
    rintro r w₁ hw₁ ⟨hstays, -⟩
    have hsettled₁ := hsettled.mono hstays.past
    cases r with
    | error e => exact ⟨hw₁, hsettled₁⟩
    | ok _ =>
      refine Script.Safe.bind (P := fun settled w₂ => KeysSettled w₂.past settled)
        (Script.Safe.foldlM hw₁ hsettled₁ fun planned hplanned settled w₂ hw₂ hsettled₂ => ?_) ?_
      · exact settlePlanned_quietSafe hw₂ hsettled₂
          (hgroups batch (List.mem_cons_self ..) planned hplanned)
      · exact fun settled w₂ hw₂ hsettled₂ =>
          ih hw₂ (fun b hb => hgroups b (List.mem_cons_of_mem _ hb)) _ hsettled₂

theorem settled_of_le_nextCursor {customers : List Customer} {customer : Customer} {cursor : ℤ}
    {listed : List ListedTransfer} (hcut : CleanCut mode customers customer.reader listed)
    (hcustomer : customer ∈ customers) {row : ListedTransfer} (hrow : row ∈ listed)
    (howed : OwesSince customers customer.organizationId row.createdAt)
    (hafter : cursor < row.completedAt)
    {settled : List SubjectKey}
    (hle : row.completedAt ≤
      (Listing.mk customer cursor (keptTransfers mode customer listed)).nextCursor settled) :
    .transfer row.id ∈ settled := by
  obtain ⟨hpending, hstop⟩ := le_nextTransferCursor_cases hafter hle
  have hkept : ∀ e ∈ (keptTransfers mode customer listed).map fun transfer =>
      (transfer.1.completedAt, !transfer.2 || settled.contains (.transfer transfer.1.id)),
      ∃ kept ∈ (listed.insertionSort ListedTransfer.notAfter).take mode.maxPerOrganization,
        e.1 = kept.completedAt := by
    intro e he
    obtain ⟨transfer, htransfer, rfl⟩ := List.mem_map.mp he
    obtain ⟨kept, hkept, rfl⟩ := List.mem_map.mp htransfer
    exact ⟨kept, hkept, rfl⟩
  have hsorted := List.pairwise_insertionSort ListedTransfer.notAfter listed
  have hmem := (List.mem_insertionSort ListedTransfer.notAfter).mpr hrow
  rw [← List.take_append_drop mode.maxPerOrganization
    (listed.insertionSort ListedTransfer.notAfter)] at hsorted hmem
  rcases List.mem_append.mp hmem with htake | hdrop
  · by_contra hnot
    have hentry := hpending (row.completedAt, false) (List.mem_map.mpr ⟨(row, true), ?_, ?_⟩) rfl
    · exact lt_irrefl _ hentry
    · refine List.mem_map.mpr ⟨row, htake, ?_⟩
      rw [decide_eq_true (howed customer hcustomer rfl)]
    · simp [hnot]
  · exfalso
    rcases hstop with ⟨e, he, hdone⟩ | ⟨e, he, hstop⟩
    -- something kept is not done: the cursor stays before it, and it is not after this row
    · obtain ⟨kept, hin, heq⟩ := hkept e he
      have hbefore : kept.notAfter row := (List.pairwise_append.mp hsorted).2.2 kept hin row hdrop
      have hlt := hpending e he hdone
      rw [heq] at hlt
      exact absurd hbefore (not_le.mpr hlt)
    -- everything kept is done: the cursor stops at one of them, which this row is past
    · obtain ⟨kept, hin, heq⟩ := hkept e he
      have howed' : OwesSince customers customer.reader.organizationId row.createdAt := by
        rw [customer.reader_organizationId]
        exact howed
      have hlt := hcut kept hin row hdrop howed'
      rw [heq] at hstop
      exact absurd hstop (not_le.mpr hlt)

structure Gathering (customers : List Customer) (cursors : TransferCursors)
    (gathered : PendingMap × List Listing)
    (w : ListingWorld) : Prop where
  customers : w.customers = customers
  file : w.cursors = cursors
  items : ∀ e ∈ gathered.1, Listed w.past e.2.subject e.2.observation
  moved : ∀ settled, ∀ transfer ∈ w.owing, ∀ cursor,
    (moveCursors cursors gathered.2 settled).get transfer.organizationId = some cursor →
      transfer.completedAt ≤ cursor → .transfer transfer.id ∈ settled ∨ Settled w.past transfer.id

variable {customers : List Customer} {cursors : TransferCursors}
    {gathered : PendingMap × List Listing}

theorem Gathering.stays (h : Gathering customers cursors gathered w) (hstays : Stays w w') :
    Gathering customers cursors gathered w' where
  customers := hstays.customers.trans h.customers
  file := hstays.cursors.trans h.file
  items e he := (h.items e he).mono hstays.past
  moved settled transfer htransfer cursor hcursor hle :=
    (h.moved settled transfer (hstays.owing ▸ htransfer) cursor hcursor hle).imp_right fun hs =>
      hs.mono hstays.past

theorem initialTransferCursor_lt {customer : Customer} {transfer : Finished}
    (howed : createdDuringPeriods (dateParse transfer.createdAt) customer.periods) :
    initialTransferCursor customer < transfer.completedAt := by
  obtain ⟨period, hperiod, hstarted, -⟩ := howed
  have hmem := List.mem_map_of_mem (f := Period.startedAt) hperiod
  have hlt : initialTransferCursor customer < period.startedAt := by
    unfold initialTransferCursor
    split
    · rename_i hnil
      rw [hnil] at hmem
      cases hmem
    · rename_i first rest hcons
      have := minimum_le _ (hcons ▸ hmem)
      omega
  have hfloor : ((dateParse transfer.createdAt : ℤ) : ℚ) ≤ transfer.createdAt := Int.floor_le _
  have hcast : (initialTransferCursor customer : ℚ) < dateParse transfer.createdAt :=
    Int.cast_lt.mpr (lt_of_lt_of_le hlt hstarted)
  exact hcast.trans_le (hfloor.trans transfer.created_le_completed)

theorem Gathering.listed {customer : Customer} {listed : List ListedTransfer}
    (h : Gathering customers cursors gathered w)
    (hcustomer : customer ∈ customers)
    (henv : ListingEnv (CleanCut mode) w (.finishedTransfers customer.reader
      ((cursors.get customer.organizationId).getD (initialTransferCursor customer)))
        (.ok listed) w')
    (hw' : ListingOk w') :
    Gathering customers cursors
      (addListed customer gathered.1 (keptTransfers mode customer listed), gathered.2 ++ [⟨customer,
        (cursors.get customer.organizationId).getD (initialTransferCursor customer),
        keptTransfers mode customer listed⟩]) w' where
  customers := henv.customers.trans h.customers
  file := henv.cursors.1.trans h.file
  items := by
    intro e he
    rcases mem_addListed he with ⟨row, hrow, he⟩ | he
    · obtain ⟨kept, hkept, heq⟩ := List.mem_map.mp hrow
      obtain rfl : kept = row := congrArg Prod.fst heq
      have hin : kept ∈ listed := (List.mem_insertionSort _).mp (List.mem_of_mem_take hkept)
      rw [he]
      rintro _ ⟨⟩
      exact ⟨kept, ⟨_, _, _, henv.event, hin⟩, rfl, rfl⟩
    · exact (h.items e he).mono henv.past_subset
  moved := by
    obtain ⟨hfile, hshows, hcut, howing⟩ := henv.cursors
    intro settled transfer htransfer cursor hcursor hle
    simp only [moveCursors, List.foldl_append, List.foldl_cons, List.foldl_nil] at hcursor
    by_cases horg : transfer.organizationId = customer.organizationId
    · rw [horg, OrderedMap.get_set_self] at hcursor
      obtain rfl := Option.some.inj hcursor
      have howed := hw'.owed transfer htransfer
      rw [henv.customers, h.customers, Finished.owed, horg] at howed
      by_cases hafter :
        ((cursors.get customer.organizationId).getD (initialTransferCursor customer) : ℤ) <
          transfer.completedAt
      · obtain ⟨row, hrow, hid, hcreated, hcompleted⟩ :=
          hshows.every transfer (hw'.finished htransfer)
          ⟨horg.trans customer.reader_organizationId.symm, hafter⟩
        rw [h.customers] at hcut
        rw [← hcreated] at howed
        rw [← hcompleted] at hafter hle
        exact .inl (hid ▸ settled_of_le_nextCursor hcut hcustomer hrow howed hafter hle)
      · cases hsaved : cursors.get customer.organizationId with
        | none =>
          rw [hsaved] at hafter
          exact absurd (initialTransferCursor_lt (howed customer hcustomer rfl)) hafter
        | some saved =>
          rw [hsaved] at hafter
          refine .inr (hw'.settled transfer htransfer saved ?_ (not_lt.mp hafter))
          rw [hfile, h.file, horg, hsaved]
    · rw [OrderedMap.get_set_of_ne _ horg] at hcursor
      rw [howing, List.mem_append, List.mem_filter, decide_eq_true_eq] at htransfer
      rcases htransfer with hold | ⟨-, ⟨hreader, -⟩, -⟩
      · exact (h.moved settled transfer hold cursor hcursor hle).imp_right fun hs =>
          hs.mono henv.past_subset
      · exact absurd (hreader.trans customer.reader_organizationId) horg

variable (mode) in
abbrev ListingSafe (Q : α → ListingWorld → Prop) (s : Program α) (w : ListingWorld) : Prop :=
  s.Safe (ListingEnv (CleanCut mode)) ListingOk ListingGuard Q w

theorem QuietSafe.listingSafe {Q : α → ListingWorld → Prop} {s : Program α}
    (h : QuietSafe (CleanCut mode) Q s w) :
    ListingSafe mode Q s w := by
  refine Script.Safe.weaken (fun w c _ hc => ?_) h
  cases c <;> first | exact hc.elim | trivial

theorem listTransfers_listingSafe {customer : Customer} (hcustomer : customer ∈ customers)
    (hw : ListingOk w)
    (h : Gathering customers cursors gathered w) :
    ListingSafe mode (Gathering customers cursors)
      (listTransfers mode now cursors gathered customer) w := by
  unfold listTransfers
  split_ifs
  · exact ⟨hw, h⟩
  · have hguard : ListingGuard w (.finishedTransfers customer.reader
        ((cursors.get customer.organizationId).getD (initialTransferCursor customer))) := by
      intro cursor hcursor
      rw [h.file, customer.reader_organizationId] at hcursor
      rw [hcursor]
      exact le_refl cursor
    refine Script.Safe.bind (P := fun r w' => ListingEnv (CleanCut mode) w _ r w')
      (Script.Safe.attempt_io hw hguard fun _ _ henv =>
        ⟨henv.listingOk hw hguard, henv⟩) fun r w' hw' henv => ?_
    cases r with
    | error e =>
      have hsame := henv.cursors
      exact ⟨hw', h.stays ⟨hsame.1, hsame.2, henv.customers, henv.finished, henv.past_subset⟩⟩
    | ok listed => exact ⟨hw', h.listed hcustomer henv hw'⟩

theorem gatherRequests_listed {requests : List OpenRequest} {result : Gathered}
    (h : gatherRequests H settings customers requests = .ok result) :
    ∀ e ∈ result.pending, Listed past e.2.subject e.2.observation := by
  refine foldlM_invariant (P := fun gathered : Gathered =>
    ∀ e ∈ gathered.pending, Listed past e.2.subject e.2.observation)
    (fun gathered hgathered request _ next hnext e he => ?_) h fun _ he =>
      absurd he List.not_mem_nil
  rcases mem_addRequest H settings customers hnext he with he | ⟨_, -, -, -, hnone⟩
  · exact hgathered e he
  · rw [hnone]
    exact fun _ => nofun

theorem runReceipts_listingSafe (hw : ListingOk w) (hcustomers : w.customers = customers) :
    ListingSafe mode (fun _ _ => True) (runReceipts H (settings.inMode mode) customers now) w := by
  unfold runReceipts
  refine (io_quietSafe hw (by trivial)).listingSafe.bind ?_
  rintro requests w₁ hw₁ ⟨-, hstays₁⟩
  refine Script.Safe.bind (P := fun gathered w₂ => w₂ = w₁ ∧
    ∀ e ∈ gathered.pending, Listed w₁.past e.2.subject e.2.observation)
    (Script.Safe.ofExcept hw₁ fun gathered hgathered => ⟨rfl, gatherRequests_listed hgathered⟩) ?_
  rintro ⟨pending, unanswerable⟩ w₂ hw₂ ⟨rfl, hlisted⟩
  have hgather : ListingSafe mode (fun result w' => Gathering customers result.1 result.2 w')
      (gatherListings (settings.inMode mode) customers now pending) w₂ := by
    show ListingSafe mode _ (io .readTransferCursors >>= fun cursors =>
      customers.foldlM (listTransfers mode now cursors) (pending, []) >>= fun gathered =>
        pure (cursors, gathered)) w₂
    refine (io_quietSafe hw₂ (by trivial)).listingSafe.bind ?_
    rintro cursors w₃ hw₃ ⟨henv, hstays⟩
    have hread : cursors = w₃.cursors := henv.cursors.1.trans henv.cursors.2.1.symm
    have hstart : Gathering customers cursors (pending, []) w₃ := by
      refine ⟨hstays.customers.trans (hstays₁.customers.trans hcustomers), hread.symm,
        fun e he => ?_, ?_⟩
      · exact (hlisted e he).mono hstays.past
      · intro settled transfer htransfer cursor hcursor hle
        exact .inr (hw₃.settled transfer htransfer cursor (hread ▸ hcursor) hle)
    refine Script.Safe.bind (P := Gathering customers cursors)
      (Script.Safe.foldlM hw₃ hstart fun customer hmem _ _ hw₄ h =>
        listTransfers_listingSafe hmem hw₄ h) ?_
    exact fun gathered w₄ hw₄ h => ⟨hw₄, h⟩
  refine hgather.bind ?_
  rintro ⟨cursors, pending, listings⟩ w₃ hw₃ hgathered
  have hplanning : QuietSafe (CleanCut mode)
      (fun plan w₄ => Stays w₃ w₄ ∧ PlanSettled H w₄.past plan)
      ((pending.map Prod.snd).foldlM (planItem H (settings.inMode mode).levels now)
        ⟨[], [], unanswerable⟩) w₃ := by
    refine Script.Safe.foldlM hw₃ ⟨Stays.refl w₃, ?_, ?_⟩ ?_
    · exact fun _ hmem => absurd hmem List.not_mem_nil
    · exact fun _ hmem => absurd hmem List.not_mem_nil
    · rintro item hitem plan w₄ hw₄ ⟨hstays, hplan⟩
      obtain ⟨e, he, rfl⟩ := List.mem_map.mp hitem
      have hsafe : QuietSafe (CleanCut mode) _
          (planItem H (settings.inMode mode).levels now plan e.2) w₄ :=
        planItem_quietSafe hw₄ hplan ((hgathered.items e he).mono hstays.past)
      exact hsafe.remember.mono fun _ _ _ h => ⟨hstays.trans h.1, h.2⟩
  refine hplanning.listingSafe.bind ?_
  rintro plan w₄ hw₄ ⟨hstays₄, hplan⟩
  have hwriting : QuietSafe (CleanCut mode) (fun result w₅ => KeysSettled w₅.past result.2)
      (writeBatches H (batches plan.planned) 0 plan.settled) w₄ := by
    refine writeBatches_quietSafe hw₄ (fun batch hbatch planned hplanned => ?_) 0 hplan.settled
    exact hplan.planned planned (mem_batches.mp ⟨batch, hbatch, hplanned⟩)
  refine hwriting.remember.listingSafe.bind ?_
  rintro ⟨recorded, settled⟩ w₅ hw₅ ⟨hstays₅, hsettled⟩
  have hend := hgathered.stays (hstays₄.trans hstays₅)
  have hguard : ListingGuard w₅ (.saveTransferCursors (moveCursors cursors listings settled)) := by
    intro transfer htransfer cursor hcursor hle
    exact (hend.moved settled transfer htransfer cursor hcursor hle).elim (hsettled transfer.id) id
  refine Script.Safe.bind (P := fun _ _ => True) ?_ fun _ w₆ hw₆ _ => ⟨hw₆, trivial⟩
  unfold saveListings
  split_ifs
  · exact ⟨hw₅, trivial⟩
  · exact Script.Safe.io hw₅ hguard (fun _ _ henv =>
      ⟨henv.listingOk hw₅ hguard, trivial⟩) fun _ _ henv =>
      henv.listingOk hw₅ hguard

theorem listingMachine_secure (H : Hashes) (settings : RelaySettings) (mode : CustomersMode) :
    (listingMachine H settings mode (CleanCut mode)).Secure ListingOk ListingGuard
      (fun _ _ => True) where
  init w := by
    rintro ⟨-, howing, -⟩
    refine ⟨?_, ?_, ?_⟩
    · rw [howing]
      exact List.nil_subset _
    · rw [howing]
      exact fun _ hmem => absurd hmem List.not_mem_nil
    · intro transfer htransfer
      rw [howing] at htransfer
      cases htransfer
  starts w s w' hok := by
    rintro ⟨customers, now, rfl, rfl⟩
    refine runReceipts_listingSafe ⟨?_, ?_, ?_⟩ rfl
    · exact fun transfer htransfer => hok.finished (List.mem_filter.mp htransfer).1
    · exact fun transfer htransfer => of_decide_eq_true (List.mem_filter.mp htransfer).2
    · exact fun transfer htransfer => hok.settled transfer (List.mem_filter.mp htransfer).1
  stops w w' hok := by
    rintro ⟨hfinished, hsame⟩
    rw [hsame]
    exact ⟨List.Subset.trans hok.finished hfinished, hok.owed, hok.settled⟩

end Lemmas

section Samples

def ListingWorld.answered (w : ListingWorld) (c : RelayCall) (r : Except Thrown c.Answer) :
    ListingWorld :=
  { w with past := w.past ++ [⟨c, r⟩] }

def Finished.row (transfer : Finished) : ListedTransfer :=
  ⟨transfer.id, transfer.createdAt, transfer.completedAt, sampleObservation⟩

instance (mode : CustomersMode) (customers : List Customer) (reader : Reader)
    (listed : List ListedTransfer) :
    Decidable (CleanCut mode customers reader listed) :=
  inferInstanceAs (Decidable (∀ kept ∈ _, ∀ left ∈ _, _ → _))

/-- Lists what is there unless it is cut badly; every credit asked for was charged before. -/
def listingAlone (cut : Cut) [∀ customers reader listed, Decidable (cut customers reader listed)]
    (w : ListingWorld) :
    (c : RelayCall) → Except Thrown c.Answer × ListingWorld
  | .readTransferCursors => (.ok w.cursors, w.answered .readTransferCursors (.ok w.cursors))
  | .saveTransferCursors cursors =>
    (.ok (), { w with cursors := cursors }.answered (.saveTransferCursors cursors) (.ok ()))
  | .finishedTransfers reader completedAfter =>
    let listed :=
      (w.finished.filter fun transfer => transfer.visible reader completedAfter).map Finished.row
    let shown := w.finished.filter fun transfer => transfer.visible reader completedAfter ∧
      transfer.owed w.customers
    if cut w.customers reader listed then
      (.ok listed, { w with owing := w.owing ++ shown }.answered
        (.finishedTransfers reader completedAfter) (.ok listed))
    else (.error "cut", w.answered (.finishedTransfers reader completedAfter) (.error "cut"))
  | .openRequests => (.ok [], w.answered .openRequests (.ok []))
  | .reserveCharge subject organizationId via =>
    (.ok .charged, w.answered (.reserveCharge subject organizationId via) (.ok .charged))
  | c => (.error "unavailable", w.answered c (.error "unavailable"))

theorem listingAlone_env (cut : Cut)
    [∀ customers reader listed, Decidable (cut customers reader listed)]
    (w : ListingWorld) (c : RelayCall) :
    ListingEnv cut w c (listingAlone cut w c).1 (listingAlone cut w c).2 := by
  cases c with
  | readTransferCursors => exact ⟨rfl, rfl, List.Subset.refl _, rfl, rfl, rfl⟩
  | saveTransferCursors cursors => exact ⟨rfl, rfl, List.Subset.refl _, rfl, rfl⟩
  | finishedTransfers reader completedAfter =>
    simp only [listingAlone]
    split_ifs with hcut
    · refine ⟨rfl, rfl, List.Subset.refl _, rfl,
        ⟨fun transfer htransfer hvisible => ?_, fun row hrow => ?_⟩, hcut, rfl⟩
      · exact ⟨_, List.mem_map_of_mem (List.mem_filter.mpr ⟨htransfer, decide_eq_true hvisible⟩),
          rfl, rfl, rfl⟩
      · obtain ⟨transfer, htransfer, rfl⟩ := List.mem_map.mp hrow
        obtain ⟨hin, hvisible⟩ := List.mem_filter.mp htransfer
        exact ⟨transfer, hin, of_decide_eq_true hvisible, rfl, rfl, rfl⟩
    · exact ⟨rfl, rfl, List.Subset.refl _, rfl, rfl⟩
  | _ => exact ⟨rfl, rfl, List.Subset.refl _, rfl, rfl⟩

def sampleFinished (id : Contract.Bytes16) (completedAt : Timestamp)
    (h : 10 ≤ completedAt) : Finished :=
  ⟨"org", bytes16ToTransferId id, 10, completedAt, h⟩

def sampleListing (finished : List Finished) : ListingWorld :=
    ⟨[], finished, [sampleCustomer "org"], [], []⟩

def samplePass (cut : Cut) [∀ customers reader listed, Decidable (cut customers reader listed)]
    (finished : List Finished) : Program (ℕ × List Unanswerable) × ListingWorld :=
  Script.turns (listingAlone cut) 5
    (runReceipts Contract.sampleHashes ((sampleCustomers 50).inMode ⟨1⟩) [sampleCustomer "org"] 100,
      sampleListing finished)

theorem samplePass_reachable (cut : Cut)
    [∀ customers reader listed, Decidable (cut customers reader listed)]
    (finished : List Finished) :
    (listingMachine Contract.sampleHashes (sampleCustomers 50) ⟨1⟩ cut).system.Reachable
      ((samplePass cut finished).2, some (samplePass cut finished).1) := by
  have hinit : (listingMachine Contract.sampleHashes (sampleCustomers 50) ⟨1⟩ cut).system.Reachable
      (sampleListing finished, none) := ⟨_, ⟨⟨rfl, rfl, rfl⟩, rfl⟩, .refl _⟩
  have hstart := Machine.reachable_start hinit ⟨[sampleCustomer "org"], 100, rfl, rfl⟩
  exact Machine.reachable_turns (x := (_, sampleListing finished)) (listingAlone_env cut) 5 hstart

def sampleTie : List Finished := [sampleFinished 5 20 (by decide), sampleFinished 6 20 (by decide)]

def sampleApart : List Finished :=
    [sampleFinished 5 20 (by decide), sampleFinished 6 21 (by decide)]

end Samples

/-- Two transfers that complete in the same millisecond, one looked at in a pass: the second is
never listed again. -/
theorem tie_skipped :
    ∃ x, (listingMachine Contract.sampleHashes (sampleCustomers 50) ⟨1⟩ fun _ _ _ =>
      True).system.Reachable x ∧
      ∃ transfer ∈ x.1.owing, ∃ cursor, x.1.cursors.get transfer.organizationId = some cursor ∧
        transfer.completedAt ≤ cursor ∧ ¬ Settled x.1.past transfer.id := by
  refine ⟨_, samplePass_reachable _ sampleTie, sampleFinished 6 20 (by decide), ?_, 20, ?_, ?_, ?_⟩
  · decide +kernel
  · decide +kernel
  · decide
  · decide +kernel

/-- In every run whose listings are all cut cleanly, nothing owed is skipped. -/
theorem reachable_noneSkipped (H : Hashes) (settings : RelaySettings) (mode : CustomersMode)
    {x : ListingWorld × Option (Program (ℕ × List Unanswerable))}
    (hx : (listingMachine H settings mode (CleanCut mode)).system.Reachable x) :
    ∀ transfer ∈ x.1.owing, ∀ cursor, x.1.cursors.get transfer.organizationId = some cursor →
      transfer.completedAt ≤ cursor → Settled x.1.past transfer.id :=
  ((listingMachine_secure H settings mode).reachable hx).1.settled

theorem sample_noneSkipped :
    (samplePass (CleanCut ⟨1⟩) sampleApart).2.cursors.get "org" = some 20 ∧
      Settled (samplePass (CleanCut ⟨1⟩) sampleApart).2.past (bytes16ToTransferId 5) := by
  have hcursor : (samplePass (CleanCut ⟨1⟩) sampleApart).2.cursors.get "org" = some 20 := by
    decide +kernel
  have howing : sampleFinished 5 20 (by decide) ∈
      (samplePass (CleanCut ⟨1⟩) sampleApart).2.owing := by decide +kernel
  exact ⟨hcursor, reachable_noneSkipped Contract.sampleHashes (sampleCustomers 50) ⟨1⟩
    (samplePass_reachable (CleanCut ⟨1⟩) sampleApart) _ howing 20 hcursor (by decide)⟩

end Beam.Relay
