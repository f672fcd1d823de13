import BeamSdk.Contract.Guarantees
import BeamSdk.Relay.World

/-! Charging: a credit is taken only for a receipt the contract holds or a request it closed, and no
customer's receipt is written without its credit held. -/

namespace Beam.Relay
open Contract (Bytes32 Hashes)

def Held (events : List IoEvent) (subject : ChargeSubject) : Prop :=
  ∃ organizationId via, (⟨.reserveCharge subject organizationId via, .ok .held⟩ : IoEvent) ∈ events

def Cancelled (events : List IoEvent) (key : Bytes32) : Prop :=
  (⟨.cancelRequest key, .ok ()⟩ : IoEvent) ∈ events

def Closed (events : List IoEvent) (key : Bytes32) : Prop :=
    Held events (.request key) ∧ Cancelled events key

def Written (events : List IoEvent) (report : Contract.Report) : Prop :=
  (⟨.writeReport ⟨some Contract.REPORT_VERSION, some report⟩, .ok ()⟩ : IoEvent) ∈ events

def HoldsReceipt (contract : Contract.State) : ChargeSubject → Prop
  | .transfer transferId => ∃ id, bytes16ToTransferId id = transferId ∧ contract.Met (.receipt id)
  | .room roomKey => contract.Met (.room roomKey)
  | .request _ => False

def BeamOwned (settings : RelaySettings) (request : OpenRequest) : Prop :=
  settings.customers = none ∨ request.requester = settings.relayAccount

def FoundByBeam (events : List IoEvent) (requested : RoomRequestSubject)
    (publicationId : String) : Prop :=
  (⟨.findPublication requested none, .ok (.found publicationId)⟩ : IoEvent) ∈ events

/-- The entry is the receipt of the subject, of the publication Beam's key found for it, or of a
job's input or output. -/
def Answers (events : List IoEvent) : Subject → ReportEntry → Prop
  | .transfer subject, .standard entry =>
      transferIdToBytes16 subject.transferId = .ok entry.transferId
  | .room subject, .room entry => NamesRoom subject.room subject.channel subject.publication entry
  | .roomRequest subject, .room entry => ∃ publicationId, FoundByBeam events subject publicationId ∧
      NamesRoom subject.room subject.channel publicationId entry
  | .job subject, .room entry => ∃ publicationId,
      (FoundByBeam events (jobLookups subject).1 publicationId ∧
        NamesRoom subject.room subject.inputChannel publicationId entry) ∨
      (FoundByBeam events (jobLookups subject).2 publicationId ∧
        NamesRoom subject.room subject.outputChannel publicationId entry)
  | _, _ => False

section Guard
variable (H : Hashes) (settings : RelaySettings)

def AskedByBeam (events : List IoEvent) (subject : Subject) : Prop :=
  ∃ requests, (⟨.openRequests, .ok requests⟩ : IoEvent) ∈ events ∧ ∃ request ∈ requests,
    BeamOwned settings request ∧
      subjectForOpenRequest H settings.clientId settings.routes request = .ok (some subject)

def FromBeam (events : List IoEvent) (entry : ReportEntry) : Prop :=
  ∃ subject, AskedByBeam H settings events subject ∧ Answers events subject entry

/-- What is the case whenever the relay makes a call that costs somebody something. -/
def ChargeGuard (w : RelayWorld) : RelayCall → Prop
  | .commitCharge (.request key) => Closed (w.past ++ w.pass) key
  | .commitCharge subject => Held w.pass subject ∧ HoldsReceipt w.contract subject ∧
      ∃ report, Written w.pass report ∧ ∃ entry ∈ entriesOf report,
        chargeSubjectOf H entry = some subject
  | .writeReport report => ∀ body, report.body = some body → ∀ entry ∈ entriesOf body, ∀ subject,
      chargeSubjectOf H entry = some subject → Held w.pass subject ∨
        FromBeam H settings w.pass entry
  | .setUncommitted key _ => Closed (w.past ++ w.pass) key
  | _ => True

/-- What holds between any two calls: what is remembered as closed was held and cancelled. -/
structure RelayOk (w : RelayWorld) : Prop where
  contract : (Contract.contract H).Reachable w.contract
  uncommitted : ∀ close ∈ w.uncommitted, Closed (w.past ++ w.pass) close.1

end Guard

section Lemmas
variable {H : Hashes} {settings : RelaySettings} {w w' : RelayWorld} {events events' : List IoEvent}

theorem Held.mono {subject : ChargeSubject} (h : Held events subject) (hsub : events ⊆ events') :
    Held events' subject := by
  obtain ⟨organizationId, via, hmem⟩ := h
  exact ⟨organizationId, via, hsub hmem⟩

theorem Closed.mono {key : Bytes32} (h : Closed events key) (hsub : events ⊆ events') :
    Closed events' key :=
  ⟨h.1.mono hsub, hsub h.2⟩

theorem Answers.mono {subject : Subject} {entry : ReportEntry} (h : Answers events subject entry)
    (hsub : events ⊆ events') : Answers events' subject entry := by
  cases subject <;> cases entry <;> try exact h
  case roomRequest.room =>
    obtain ⟨publicationId, hfound, hnames⟩ := h
    exact ⟨publicationId, hsub hfound, hnames⟩
  case job.room =>
    obtain ⟨publicationId, hside⟩ := h
    exact ⟨publicationId, hside.imp (And.imp_left (@hsub _)) (And.imp_left (@hsub _))⟩

theorem AskedByBeam.mono {subject : Subject} (h : AskedByBeam H settings events subject)
    (hsub : events ⊆ events') :
    AskedByBeam H settings events' subject := by
  obtain ⟨requests, hmem, hasked⟩ := h
  exact ⟨requests, hsub hmem, hasked⟩

theorem FromBeam.mono {entry : ReportEntry} (h : FromBeam H settings events entry)
    (hsub : events ⊆ events') :
    FromBeam H settings events' entry := by
  obtain ⟨subject, hasked, hanswers⟩ := h
  exact ⟨subject, hasked.mono hsub, hanswers.mono hsub⟩

theorem HoldsReceipt.later {s t : Contract.State} {subject : ChargeSubject}
    (h : HoldsReceipt s subject)
    (hs : (Contract.contract H).Reachable s) (hl : (Contract.contract H).Later s t) :
      HoldsReceipt t subject := by
  have hkeeps := (Contract.later_refines (Contract.reachable_refines hs).1 hl).keeps
  cases subject with
  | transfer transferId =>
    obtain ⟨id, hid, hmet⟩ := h
    exact ⟨id, hid, hkeeps.met hmet⟩
  | room roomKey => exact hkeeps.met (d := .room roomKey) h
  | request key => exact h

theorem Mined.holdsReceipt {account : Contract.Address} {s t : Contract.State}
    {report : Contract.Report}
    {version : Option UInt8} (hs : (Contract.contract H).Reachable s)
    (h : Mined H account s (.onReport [] ⟨version, some report⟩) t) {entry : ReportEntry}
    (hentry : entry ∈ entriesOf report) {subject : ChargeSubject}
    (hsubject : chargeSubjectOf H entry = some subject) :
    HoldsReceipt t subject := by
  obtain ⟨s₁, s₂, timestamp, hbefore, hcall, hafter⟩ := h
  have hs₁ := hs.later hbefore
  have hmet := Contract.onReport_met (Contract.reachable_refines hs₁).1 hcall
  have hs₂ : (Contract.contract H).Reachable s₂ :=
    hs.later (Mined.later ⟨s₁, s₂, timestamp, hbefore, hcall, .refl _⟩)
  refine HoldsReceipt.later ?_ hs₂ hafter
  simp only [entriesOf, List.mem_append, List.mem_map] at hentry
  rcases hentry with ((⟨e, he, rfl⟩ | ⟨e, he, rfl⟩) | ⟨e, he, rfl⟩) |
    ⟨e, he, rfl⟩ <;> cases hsubject
  · exact ⟨e.transferId, rfl, hmet.1 e he⟩
  · exact hmet.2 e he

theorem Grows.all_events (h : Grows H w w') : w.past ++ w.pass ⊆ w'.past ++ w'.pass := by
  rw [h.past]
  exact List.append_subset.mpr ⟨List.subset_append_left _ _,
    List.subset_append_of_subset_right _ h.pass⟩

theorem RelayEnv.relayOk {c : RelayCall} {r : Except Thrown c.Answer}
    (h : RelayEnv H settings.relayAccount w c r w') (hw : RelayOk H w)
    (hg : ChargeGuard H settings w c) :
    RelayOk H w' where
  contract := hw.contract.later h.chain.later
  uncommitted close hclose := by
    have hgrow := h.grows.all_events
    have hkept : close ∈ w.uncommitted → Closed (w'.past ++ w'.pass) close.1 := fun hclose =>
      (hw.uncommitted close hclose).mono hgrow
    have hmemory := h.memory
    cases c with
    | uncommittedCloses => exact hkept (hmemory.2 ▸ hclose)
    | setUncommitted requestKey organizationId =>
      rw [hmemory.2] at hclose
      rcases OrderedMap.mem_set hclose with rfl | hclose
      · exact Closed.mono hg hgrow
      · exact hkept hclose
    | deleteUncommitted requestKey =>
      rw [hmemory.2] at hclose
      exact hkept (List.mem_of_mem_filter hclose)
    | _ => exact hkept (Eq.subst (motive := (close ∈ ·)) hmemory hclose)

end Lemmas

section Programs
variable {H : Hashes} {settings : RelaySettings} {α β : Type} {w w' : RelayWorld}
    {events events' : List IoEvent}

variable (H settings) in
abbrev ChargeSafe (Q : α → RelayWorld → Prop) (s : Program α) (w : RelayWorld) : Prop :=
  s.Safe (RelayEnv H settings.relayAccount) (RelayOk H) (ChargeGuard H settings) Q w

theorem io_chargeSafe {c : RelayCall} (hw : RelayOk H w) (hg : ChargeGuard H settings w c) :
    ChargeSafe H settings (fun a w' => RelayEnv H settings.relayAccount w c (.ok a) w') (io c) w :=
  Script.Safe.io hw hg (fun _ _ henv => ⟨henv.relayOk hw hg, henv⟩) fun _ _ henv =>
    henv.relayOk hw hg

theorem attempt_io_chargeSafe {c : RelayCall} (hw : RelayOk H w) (hg : ChargeGuard H settings w c) :
    ChargeSafe H settings (fun r w' => RelayEnv H settings.relayAccount w c r w')
      (io c).attempt w :=
  Script.Safe.attempt_io hw hg fun _ _ henv => ⟨henv.relayOk hw hg, henv⟩

theorem ChargeSafe.remember {Q : α → RelayWorld → Prop} {s : Program α}
    (h : ChargeSafe H settings Q s w) :
    ChargeSafe H settings (fun a w' => Grows H w w' ∧ Q a w') s w :=
  Script.Safe.remember Grows.refl (fun _ _ _ => Grows.trans) (fun _ _ _ _ _ _ henv => henv.grows) h

def Harmless : RelayCall → Prop
  | .commitCharge _ | .writeReport _ | .setUncommitted _ _ => False
  | _ => True

theorem Harmless.guard {c : RelayCall} (h : Harmless c) : ChargeGuard H settings w c := by
  cases c <;> first | exact h.elim | trivial

theorem harmless_safe {s : Program α} (h : s.Uses Harmless) (hw : RelayOk H w) :
    ChargeSafe H settings (fun _ _ => True) s w :=
  h.safe (fun _ _ _ hc => hc.guard) (fun _ _ _ _ hw hc henv => henv.relayOk hw hc.guard) hw

theorem deliverLogs_harmless (logs : List TransferRequestLog) (delivered : ℕ) :
    (deliverLogs settings logs delivered).Uses Harmless := by
  induction logs generalizing delivered with
  | nil => trivial
  | cons request rest ih =>
    unfold deliverLogs
    split
    · exact ih delivered
    · refine Script.Uses.bind (.io trivial) fun outcome => ?_
      cases outcome with
      | accepted runId => exact ih _
      | refused status reason => exact ih _
      | unavailable status => exact Script.Uses.bind (.io trivial) fun _ => trivial

theorem runWindows_harmless (finalized next delivered : ℕ) :
    (runWindows settings finalized next delivered).Uses Harmless := by
  induction hn : finalized + 1 - next using Nat.strong_induction_on generalizing next delivered with
  | _ n ih =>
    unfold runWindows
    split_ifs with hle
    · have hto := le_windowEnd settings hle
      refine Script.Uses.bind (.io trivial) fun logs => ?_
      refine Script.Uses.bind (deliverLogs_harmless _ _) fun result => ?_
      split_ifs
      · trivial
      · exact Script.Uses.bind (.io trivial) fun _ => ih _ (by omega) _ _ rfl
    · trivial

theorem runStarts_harmless (finalized : ℕ) : (runStarts settings finalized).Uses Harmless :=
  Script.Uses.bind (.io trivial) fun _ => runWindows_harmless _ _ _

theorem syncRequester_harmless (changed : ℕ) (requester : Requester) :
    (syncRequester changed requester).Uses Harmless := by
  unfold syncRequester
  split_ifs
  · trivial
  · refine Script.Uses.bind (Script.Uses.attempt ?_) fun r => ?_
    · exact Script.Uses.bind (.io trivial) fun _ => .io trivial
    · cases r <;> trivial

theorem syncAllowlist_harmless (customers : List Customer) :
    (syncAllowlist customers).Uses Harmless :=
  Script.Uses.foldlM _ fun _ _ changed =>
    Script.Uses.foldlM changed fun requester _ changed => syncRequester_harmless changed requester

variable (H settings) in
/-- An item is asked for by a request of Beam's own, or is a customer's and no job. -/
def ItemOk (events : List IoEvent) (item : Pending) : Prop :=
  match item.owner with
  | .beam => AskedByBeam H settings events item.subject
  | .customer _ _ _ => ∀ requested, item.subject ≠ .job requested

variable (H settings) in
def EntryOk (events : List IoEvent) (planned : Planned) : Prop :=
  ∀ subject, chargeSubjectOf H planned.entry = some subject →
    match planned.owner with
    | .beam => FromBeam H settings events planned.entry
    | .customer _ _ _ => Held events subject

variable (H settings) in
def PlanOk (events : List IoEvent) (plan : Plan) : Prop :=
    ∀ planned ∈ plan.planned, EntryOk H settings events planned

theorem ItemOk.mono {item : Pending} (h : ItemOk H settings events item) (hsub : events ⊆ events') :
    ItemOk H settings events' item := by
  unfold ItemOk at h ⊢
  cases howner : item.owner with
  | beam =>
    rw [howner] at h
    exact h.mono hsub
  | customer organizationId reader via =>
    rw [howner] at h
    exact h

theorem EntryOk.mono {planned : Planned} (h : EntryOk H settings events planned)
    (hsub : events ⊆ events') :
    EntryOk H settings events' planned := by
  intro subject hsubject
  have hok := h subject hsubject
  cases howner : planned.owner with
  | beam =>
    rw [howner] at hok
    exact hok.mono hsub
  | customer organizationId reader via =>
    rw [howner] at hok
    exact hok.mono hsub

theorem PlanOk.mono {plan : Plan} (h : PlanOk H settings events plan) (hsub : events ⊆ events') :
    PlanOk H settings events' plan := fun planned hplanned => (h planned hplanned).mono hsub

theorem PlanOk.add {plan : Plan} (h : PlanOk H settings events plan) {entries : List Planned}
    (hnew : ∀ planned ∈ entries, EntryOk H settings events planned) :
      PlanOk H settings events (plan.add entries) :=
  fun planned hplanned => (List.mem_append.mp hplanned).elim (h planned) (hnew planned)

theorem reportEntryFor_answers {subject : Subject} {observation : Observation}
    {levels : ReceiptLevels}
    {entry : ReportEntry} (h : reportEntryFor H subject observation levels = .ok (some entry))
    {charge : ChargeSubject}
    (hcharge : chargeSubjectOf H entry = some charge) : Answers events subject entry := by
  have hentry := reportEntryFor_entryOf h
  cases subject <;> cases entry <;> first | exact hentry | exact hentry.elim | cases hcharge

theorem reportEntryFor_room {room channel publication : String} {observation : Observation}
    {levels : ReceiptLevels}
    {entry : Contract.RoomReceiptReport}
    (h : reportEntryFor H (.room ⟨room, channel, publication, none⟩) observation levels =
      .ok (some (.room entry))) :
    NamesRoom room channel publication entry := reportEntryFor_entryOf h

theorem jobEntriesFor_answers {requested : JobSubject} {inputId outputId : String}
    {input output : Observation}
    {levels : ReceiptLevels} {entries : List ReportEntry}
    (h : jobEntriesFor H requested inputId outputId input output levels = .ok (some entries))
    (hinput : FoundByBeam events (jobLookups requested).1 inputId)
    (houtput : FoundByBeam events (jobLookups requested).2 outputId) {entry : ReportEntry}
    (hentry : entry ∈ entries)
    {charge : ChargeSubject} (hcharge : chargeSubjectOf H entry = some charge) :
    Answers events (.job requested) entry := by
  unfold jobEntriesFor at h
  obtain ⟨inputEntry, hin, h⟩ := bind_eq_ok.mp h
  obtain ⟨outputEntry, hout, h⟩ := bind_eq_ok.mp h
  split at h
  · cases h
    simp only [List.mem_cons, List.not_mem_nil, or_false] at hentry
    rcases hentry with rfl | rfl | rfl
    · exact ⟨inputId, .inl ⟨hinput, reportEntryFor_room hin⟩⟩
    · exact ⟨outputId, .inr ⟨houtput, reportEntryFor_room hout⟩⟩
    · cases hcharge
  · cases h

theorem RelayEnv.subset {c : RelayCall} {r : Except Thrown c.Answer}
    (h : RelayEnv H settings.relayAccount w c r w') : w.pass ⊆ w'.pass := h.grows.pass

variable {plan : Plan} {levels : ReceiptLevels} {now : ℤ} {item : Pending}

theorem planEntry_chargeSafe (hw : RelayOk H w) (hplan : PlanOk H settings w.pass plan)
    {owner : Owner} {key : SubjectKey}
    {entry : ReportEntry}
    (hbeam : owner = .beam → ∀ charge, chargeSubjectOf H entry = some charge →
      FromBeam H settings w.pass entry) :
    ChargeSafe H settings (fun plan w' => PlanOk H settings w'.pass plan)
      (planEntry H plan owner key entry) w := by
  have hadd : ∀ {w'}, RelayOk H w' → PlanOk H settings w'.pass plan →
      EntryOk H settings w'.pass ⟨entry, owner, key⟩ →
      ChargeSafe H settings (fun plan w' => PlanOk H settings w'.pass plan)
        (pure (plan.add [⟨entry, owner, key⟩])) w' := fun hw' hplan' hentry =>
    ⟨hw', hplan'.add fun planned hplanned => List.mem_singleton.mp hplanned ▸ hentry⟩
  cases owner with
  | beam => exact hadd hw hplan (hbeam rfl)
  | customer organizationId reader via =>
    unfold planEntry
    cases hcharge : chargeSubjectOf H entry with
    | none => exact hadd hw hplan fun charge hsome => by cases hcharge.symm.trans hsome
    | some charge =>
      refine (io_chargeSafe hw (by trivial)).bind fun outcome w' hw' henv => ?_
      have hplan' := hplan.mono henv.subset
      cases outcome with
      | held =>
        refine hadd hw' hplan' fun subject hsubject => ?_
        cases hcharge.symm.trans hsubject
        exact ⟨organizationId, via, henv.event⟩
      | _ => exact ⟨hw', hplan'⟩

theorem planSubject_chargeSafe (hw : RelayOk H w) (hplan : PlanOk H settings w.pass plan)
    {subject : Subject}
    (hbeam : item.owner = .beam → ∀ entry, Answers [] subject entry →
      FromBeam H settings w.pass entry) :
    ChargeSafe H settings (fun plan w' => PlanOk H settings w'.pass plan)
      (planSubject H levels now plan item subject) w := by
  have hobserved : ChargeSafe H settings (fun _ _ => True) (observed item subject) w := by
    unfold observed
    split
    · exact ⟨hw, trivial⟩
    · exact (io_chargeSafe hw (by trivial)).mono fun _ _ _ _ => trivial
  refine hobserved.remember.bind fun observation w' hw' ⟨hgrows, _⟩ => ?_
  have hplan' := hplan.mono hgrows.pass
  refine Script.Safe.bind (P := fun entry w'' => w'' = w' ∧
    reportEntryFor H subject observation levels = .ok entry)
    (Script.Safe.ofExcept hw' fun _ hentry => ⟨rfl, hentry⟩) ?_
  rintro entry w'' hw'' ⟨rfl, hentry⟩
  cases entry with
  | none =>
    refine ⟨hw'', fun planned hplanned => hplan' planned ?_⟩
    rwa [planNothing_planned] at hplanned
  | some entry =>
    refine planEntry_chargeSafe hw'' hplan' fun howner charge hcharge => ?_
    exact (hbeam howner entry (reportEntryFor_answers hentry hcharge)).mono hgrows.pass

theorem planJob_chargeSafe (hw : RelayOk H w) (hplan : PlanOk H settings w.pass plan)
    {requested : JobSubject}
    (hasked : AskedByBeam H settings w.pass (.job requested)) :
    ChargeSafe H settings (fun plan w' => PlanOk H settings w'.pass plan)
      (planJob H levels plan .beam requested) w := by
  unfold planJob
  refine (io_chargeSafe hw (by trivial)).bind fun input w₁ hw₁ henv₁ => ?_
  have hplan₁ := hplan.mono henv₁.subset
  cases input with
  | found inputId =>
    refine (io_chargeSafe hw₁ (by trivial)).bind fun output w₂ hw₂ henv₂ => ?_
    have hplan₂ := hplan₁.mono henv₂.subset
    cases output with
    | found outputId =>
      refine (io_chargeSafe hw₂ (by trivial)).bind fun inputObservation w₃ hw₃ henv₃ => ?_
      refine (io_chargeSafe hw₃ (by trivial)).bind fun outputObservation w₄ hw₄ henv₄ => ?_
      have hlater : w₂.pass ⊆ w₄.pass := List.Subset.trans henv₃.subset henv₄.subset
      have hinput : FoundByBeam w₄.pass (jobLookups requested).1 inputId :=
        hlater (henv₂.subset henv₁.event)
      have houtput : FoundByBeam w₄.pass (jobLookups requested).2 outputId := hlater henv₂.event
      have hasked₄ :=
        hasked.mono (List.Subset.trans henv₁.subset (List.Subset.trans henv₂.subset hlater))
      refine Script.Safe.bind (P := fun entries w => w = w₄ ∧
        jobEntriesFor H requested inputId outputId inputObservation outputObservation levels =
          .ok entries)
        (Script.Safe.ofExcept hw₄ fun _ hentries => ⟨rfl, hentries⟩) ?_
      rintro entries w₅ hw₅ ⟨rfl, hentries⟩
      cases entries with
      | none => exact ⟨hw₅, hplan₂.mono hlater⟩
      | some entries =>
        refine ⟨hw₅, (hplan₂.mono hlater).add fun planned hplanned subject hsubject => ?_⟩
        obtain ⟨entry, hentry, rfl⟩ := List.mem_map.mp hplanned
        exact ⟨_, hasked₄, jobEntriesFor_answers hentries hinput houtput hentry hsubject⟩
    | _ => exact ⟨hw₂, hplan₂⟩
  | _ => exact ⟨hw₁, hplan₁⟩

theorem planItem_chargeSafe (hw : RelayOk H w) (hplan : PlanOk H settings w.pass plan)
    (hitem : ItemOk H settings w.pass item) :
    ChargeSafe H settings (fun plan w' => PlanOk H settings w'.pass plan)
      (planItem H levels now plan item) w := by
  have hasked : item.owner = .beam → AskedByBeam H settings w.pass item.subject := by
    intro howner
    unfold ItemOk at hitem
    rwa [howner] at hitem
  unfold planItem
  split
  · rename_i requested hsubject
    cases howner : item.owner with
    | beam => exact planJob_chargeSafe hw hplan (hsubject ▸ hasked howner)
    | customer organizationId reader via =>
      unfold ItemOk at hitem
      rw [howner] at hitem
      exact (hitem requested hsubject).elim
  · rename_i requested hsubject
    refine (io_chargeSafe hw (by trivial)).bind fun lookup w' hw' henv => ?_
    have hplan' := hplan.mono henv.subset
    cases lookup with
    | found publicationId =>
      refine planSubject_chargeSafe hw' hplan' fun howner entry hentry => ?_
      refine ⟨_, hsubject ▸ (hasked howner).mono henv.subset, ?_⟩
      -- Beam's items are looked up with Beam's key
      have hfound : FoundByBeam w'.pass requested publicationId := by
        have hevent := henv.event
        rw [howner] at hevent
        exact hevent
      cases entry with
      | room entry => exact ⟨publicationId, hfound, hentry⟩
      | _ => exact hentry.elim
    | absent =>
      refine ⟨hw', fun planned hplanned => hplan' planned ?_⟩
      rwa [if_pos rfl, unseen_planned] at hplanned
    | _ => exact ⟨hw', hplan'⟩
  · refine planSubject_chargeSafe hw hplan fun howner entry hentry => ?_
    exact ⟨_, hasked howner, hentry.mono (List.nil_subset _)⟩

theorem subjectForOpenRequest_ne_job {clientId : String} {routes : DeploymentRoutes}
    {request : OpenRequest}
    (hkind : request.kind ≠ Contract.RequestKind.transfer.code) {subject : Subject}
    (h : subjectForOpenRequest H clientId routes request = .ok (some subject))
    (requested : JobSubject) :
    subject ≠ .job requested := by
  unfold subjectForOpenRequest at h
  rw [if_neg hkind] at h
  split_ifs at h <;> cases h <;> nofun

theorem openerOf_eq_owner {customers : List Customer} {request : OpenRequest} {owner : Owner}
    (h : openerOf settings customers request = .owner owner) :
    (owner = .beam ∧ BeamOwned settings request) ∨ ∃ customer : Customer,
      owner = .customer customer.organizationId customer.reader (.requester request.requester) ∧
        request.kind ≠ Contract.RequestKind.transfer.code := by
  unfold openerOf at h
  by_cases hcustomer : settings.customers.isSome ∧ request.requester ≠ settings.relayAccount
  · rw [if_pos hcustomer] at h
    split at h
    · split_ifs at h with hkind
      cases h
      exact .inr ⟨_, rfl, hkind⟩
    · split at h <;> cases h
  · rw [if_neg hcustomer] at h
    cases h
    refine .inl ⟨rfl, ?_⟩
    unfold BeamOwned
    rcases hmode : settings.customers with _ | mode
    · exact .inl rfl
    · exact .inr (not_not.mp fun hne => hcustomer ⟨by rw [hmode]; rfl, hne⟩)

theorem addRequest_itemOk {customers : List Customer} {requests : List OpenRequest}
    (hevent : (⟨.openRequests, .ok requests⟩ : IoEvent) ∈ events) {gathered gathered' : Gathered}
    (h : ∀ e ∈ gathered.pending, ItemOk H settings events e.2) {request : OpenRequest}
    (hmem : request ∈ requests)
    (hc : addRequest H settings customers gathered request = .ok gathered') :
    ∀ e ∈ gathered'.pending, ItemOk H settings events e.2 := by
  intro e he
  rcases mem_addRequest H settings customers hc he with he | ⟨owner, hopener, hsubject, howner, -⟩
  · exact h e he
  · unfold ItemOk
    rw [howner]
    rcases openerOf_eq_owner hopener with ⟨rfl, hbeam⟩ | ⟨customer, rfl, hkind⟩
    · exact ⟨requests, hevent, request, hmem, hbeam, hsubject⟩
    · exact subjectForOpenRequest_ne_job hkind hsubject

theorem listTransfers_chargeSafe {mode : CustomersMode} {cursors : TransferCursors}
    {gathered : PendingMap × List Listing} (hw : RelayOk H w)
    (h : ∀ e ∈ gathered.1, ItemOk H settings w.pass e.2)
    (customer : Customer) :
    ChargeSafe H settings (fun gathered w' => ∀ e ∈ gathered.1, ItemOk H settings w'.pass e.2)
      (listTransfers mode now cursors gathered customer) w := by
  unfold listTransfers
  split_ifs
  · exact ⟨hw, h⟩
  · refine (attempt_io_chargeSafe hw (by trivial)).bind fun r w' hw' henv => ?_
    have h' : ∀ e ∈ gathered.1, ItemOk H settings w'.pass e.2 :=
      fun e he => (h e he).mono henv.subset
    cases r with
    | error e => exact ⟨hw', h'⟩
    | ok listed =>
      refine ⟨hw', fun e he => ?_⟩
      rcases mem_addListed he with ⟨transfer, -, he⟩ | he
      · rw [he]
        intro _ hkey
        cases hkey
      · exact h' e he

theorem writeReport_chargeSafe (hw : RelayOk H w) {batch : List Planned}
    (hbatch : ∀ planned ∈ batch, EntryOk H settings w.pass planned) :
    ChargeSafe H settings (fun _ w' => Written w'.pass (reportOf batch) ∧
      ∀ planned ∈ batch, ∀ subject, chargeSubjectOf H planned.entry = some subject →
        HoldsReceipt w'.contract subject) (writeReport batch) w := by
  refine Script.Safe.bind (P := fun report w' => w' = w ∧
    encodeReport (reportOf batch) = .ok report)
    (Script.Safe.ofExcept hw fun _ hreport => ⟨rfl, hreport⟩) ?_
  rintro report w₁ hw₁ ⟨rfl, hreport⟩
  have hbody : report = ⟨some Contract.REPORT_VERSION, some (reportOf batch)⟩ := by
    simp only [encodeReport] at hreport
    split_ifs at hreport
    cases hreport
    rfl
  subst hbody
  have hguard : ChargeGuard H settings w₁
      (.writeReport ⟨some Contract.REPORT_VERSION, some (reportOf batch)⟩) := by
    rintro _ ⟨⟩ entry hentry subject hsubject
    obtain ⟨planned, hplanned, rfl⟩ := planned_of_mem_entriesOf hentry
    have hok := hbatch planned hplanned subject hsubject
    cases howner : planned.owner with
    | beam =>
      rw [howner] at hok
      exact .inr hok
    | customer organizationId reader via =>
      rw [howner] at hok
      exact .inl hok
  refine (io_chargeSafe hw₁ hguard).mono fun _ w' hw' henv =>
    ⟨henv.event, fun planned hplanned subject hsubject => ?_⟩
  exact Mined.holdsReceipt hw₁.contract henv.chain (mem_entriesOf_reportOf hplanned) hsubject

theorem settlePlanned_chargeSafe (hw : RelayOk H w) {batch : List Planned}
    (hbatch : ∀ planned ∈ batch, EntryOk H settings w.pass planned)
    (hwritten : Written w.pass (reportOf batch))
    (hholds : ∀ planned ∈ batch, ∀ subject, chargeSubjectOf H planned.entry = some subject →
      HoldsReceipt w.contract subject) {planned : Planned} (hplanned : planned ∈ batch)
        (settled : List SubjectKey) :
    ChargeSafe H settings (fun _ _ => True) (settlePlanned H settled planned) w := by
  unfold settlePlanned
  split
  · rename_i organizationId reader via charge howner hcharge
    have hheld := hbatch planned hplanned charge hcharge
    rw [howner] at hheld
    have hguard : ChargeGuard H settings w (.commitCharge charge) := by
      have hfacts : Held w.pass charge ∧ HoldsReceipt w.contract charge ∧
          ∃ report, Written w.pass report ∧
          ∃ entry ∈ entriesOf report, chargeSubjectOf H entry = some charge :=
        ⟨hheld, hholds planned hplanned charge hcharge, _, hwritten, _,
          mem_entriesOf_reportOf hplanned, hcharge⟩
      cases charge with
      | request key => exact hfacts.2.1.elim
      | _ => exact hfacts
    refine (io_chargeSafe hw hguard).bind fun outcome w' hw' henv => ?_
    cases outcome <;> exact ⟨hw', trivial⟩
  · exact ⟨hw, trivial⟩

theorem writeBatches_chargeSafe {groups : List (List Planned)} (hw : RelayOk H w)
    (hgroups : ∀ batch ∈ groups, ∀ planned ∈ batch, EntryOk H settings w.pass planned)
    (recorded : ℕ)
    (settled : List SubjectKey) :
    ChargeSafe H settings (fun _ _ => True) (writeBatches H groups recorded settled) w := by
  induction groups generalizing recorded settled w with
  | nil => exact ⟨hw, trivial⟩
  | cons batch rest ih =>
    have hbatch := hgroups batch (List.mem_cons_self ..)
    refine Script.Safe.bind (P := fun r w' => ∀ a, r = .ok a → Grows H w w' ∧
      Written w'.pass (reportOf batch) ∧
      ∀ planned ∈ batch, ∀ subject, chargeSubjectOf H planned.entry = some subject →
        HoldsReceipt w'.contract subject) (Script.Safe.attempt ?_ fun _ _ _ => nofun) ?_
    · exact (writeReport_chargeSafe hw hbatch).remember.mono fun _ _ _ h _ _ => h
    · intro r w₁ hw₁ hr
      cases r with
      | error e => exact ⟨hw₁, trivial⟩
      | ok _ =>
        obtain ⟨hgrows, hwritten, hholds⟩ := hr _ rfl
        refine Script.Safe.bind (P := fun _ w₂ => Grows H w₁ w₂)
          (Script.Safe.foldlM hw₁ (Grows.refl w₁) fun planned hplanned settled w₂ hw₂ hgrows₂ =>
            ?_) ?_
        · have hcommit := settlePlanned_chargeSafe hw₂
            (fun p hp => (hbatch p hp).mono (List.Subset.trans hgrows.pass hgrows₂.pass))
              (by exact hgrows₂.pass hwritten)
            (fun p hp subject hsubject =>
              (hholds p hp subject hsubject).later hw₁.contract hgrows₂.contract)
            hplanned settled
          exact hcommit.remember.mono fun _ _ _ h => hgrows₂.trans h.1
        · intro settled w₂ hw₂ hgrows₂
          exact ih hw₂ (fun b hb p hp => (hgroups b (List.mem_cons_of_mem _ hb) p hp).mono
            (List.Subset.trans hgrows.pass hgrows₂.pass)) _ _

theorem gatherListings_chargeSafe {customers : List Customer} {pending : PendingMap}
    (hw : RelayOk H w)
    (h : ∀ e ∈ pending, ItemOk H settings w.pass e.2) :
    ChargeSafe H settings (fun gathered w' => ∀ e ∈ gathered.2.1, ItemOk H settings w'.pass e.2)
      (gatherListings settings customers now pending) w := by
  unfold gatherListings
  split
  · exact ⟨hw, h⟩
  · refine (io_chargeSafe hw (by trivial)).bind fun cursors w₁ hw₁ henv => ?_
    refine Script.Safe.bind (P := fun gathered w₂ => ∀ e ∈ gathered.1,
      ItemOk H settings w₂.pass e.2)
      (Script.Safe.foldlM hw₁ (fun e he =>
        (h e he).mono henv.subset) fun customer _ gathered w₂ hw₂ h₂ =>
        listTransfers_chargeSafe hw₂ h₂ customer) ?_
    exact fun gathered w₂ hw₂ h₂ => ⟨hw₂, h₂⟩

theorem runReceipts_chargeSafe (customers : List Customer) (hw : RelayOk H w) :
    ChargeSafe H settings (fun _ _ => True) (runReceipts H settings customers now) w := by
  unfold runReceipts
  refine (io_chargeSafe hw (by trivial)).bind fun requests w₁ hw₁ henv => ?_
  refine Script.Safe.bind (P := fun gathered w₂ => ∀ e ∈ gathered.pending,
    ItemOk H settings w₂.pass e.2)
    (Script.Safe.ofExcept hw₁ fun gathered hgathered => ?_) fun gathered w₂ hw₂ hitems => ?_
  · exact foldlM_invariant (fun _ h request hmem _ hc =>
      addRequest_itemOk henv.event h hmem hc) hgathered
      (fun _ he => absurd he List.not_mem_nil)
  refine Script.Safe.bind (gatherListings_chargeSafe hw₂ hitems) ?_
  rintro ⟨cursors, pending, listings⟩ w₃ hw₃ hpending
  refine Script.Safe.bind (P := fun plan w₄ => Grows H w₃ w₄ ∧ PlanOk H settings w₄.pass plan)
    (Script.Safe.foldlM hw₃ ⟨Grows.refl w₃, fun _ hp => absurd hp List.not_mem_nil⟩ ?_) ?_
  · rintro item hitem plan w₄ hw₄ ⟨hgrows, hplan⟩
    obtain ⟨e, he, rfl⟩ := List.mem_map.mp hitem
    have hsafe : ChargeSafe H settings _ (planItem H settings.levels now plan e.2) w₄ :=
      planItem_chargeSafe hw₄ hplan ((hpending e he).mono hgrows.pass)
    exact hsafe.remember.mono fun _ _ _ h => ⟨hgrows.trans h.1, h.2⟩
  · rintro plan w₄ hw₄ ⟨-, hplan⟩
    refine Script.Safe.bind
      (writeBatches_chargeSafe hw₄ (fun batch hbatch planned hplanned => ?_) _ _) ?_
    · exact hplan planned (mem_batches.mp ⟨batch, hbatch, hplanned⟩)
    · rintro ⟨recorded, settled⟩ w₅ hw₅ -
      refine Script.Safe.bind (P := fun _ _ => True) ?_ fun _ w₆ hw₆ _ => ⟨hw₆, trivial⟩
      unfold saveListings
      split_ifs
      · exact ⟨hw₅, trivial⟩
      · exact (io_chargeSafe hw₅ (by trivial)).mono fun _ _ _ _ => trivial

theorem commitUncommitted_chargeSafe (hw : RelayOk H w) {close : Bytes32 × String}
    (hclosed : Closed (w.past ++ w.pass) close.1) :
    ChargeSafe H settings (fun _ _ => True) (commitUncommitted close) w := by
  refine (io_chargeSafe hw (by exact hclosed)).bind fun outcome w' hw' henv => ?_
  cases outcome with
  | unavailable status => exact ⟨hw', trivial⟩
  | _ => exact (io_chargeSafe hw' (by trivial)).mono fun _ _ _ _ => trivial

theorem closeRequest_chargeSafe (hw : RelayOk H w) (unanswerable : Unanswerable) :
    ChargeSafe H settings (fun _ _ => True) (closeRequest unanswerable) w := by
  refine (io_chargeSafe hw (by trivial)).bind fun outcome w₁ hw₁ henv₁ => ?_
  cases outcome with
  | held =>
    refine (attempt_io_chargeSafe hw₁ (by trivial)).bind fun r w₂ hw₂ henv₂ => ?_
    cases r with
    | error e => exact ⟨hw₂, trivial⟩
    | ok _ =>
      have hheld : Held w₂.pass (.request unanswerable.request.key) :=
        ⟨_, _, henv₂.subset henv₁.event⟩
      have hcancelled : Cancelled w₂.pass unanswerable.request.key := henv₂.event
      have hclosed : Closed (w₂.past ++ w₂.pass) unanswerable.request.key :=
        Closed.mono ⟨hheld, hcancelled⟩ (List.subset_append_right _ _)
      refine (io_chargeSafe hw₂ (by exact hclosed)).bind fun committed w₃ hw₃ henv₃ => ?_
      cases committed with
      | charged => exact ⟨hw₃, trivial⟩
      | _ =>
        have hclosed₃ := hclosed.mono henv₃.grows.all_events
        exact (io_chargeSafe hw₃ (by exact hclosed₃)).bind fun _ w₄ hw₄ _ => ⟨hw₄, trivial⟩
  | _ => exact ⟨hw₁, trivial⟩

theorem closeUnanswerable_chargeSafe (unanswerable : List Unanswerable) (hw : RelayOk H w) :
    ChargeSafe H settings (fun _ _ => True) (closeUnanswerable unanswerable) w := by
  refine (io_chargeSafe hw (by trivial)).bind fun closes w₁ hw₁ henv => ?_
  have hcloses : closes = w₁.uncommitted := by
    have hmemory := henv.memory
    rw [hmemory.2]
    exact Except.ok.inj hmemory.1
  subst hcloses
  refine Script.Safe.bind (P := fun _ w₂ => Grows H w₁ w₂)
    (Script.Safe.foldlM hw₁ (Grows.refl w₁) fun close hclose _ w₂ hw₂ hgrows =>
      ?_) fun _ w₂ hw₂ _ => ?_
  · have hclosed := (hw₁.uncommitted close hclose).mono hgrows.all_events
    have hsafe : ChargeSafe H settings (fun _ _ => True) _ w₂ :=
      commitUncommitted_chargeSafe hw₂ hclosed
    exact hsafe.remember.mono fun _ _ _ h => hgrows.trans h.1
  · refine Script.Safe.bind (P := fun _ _ => True)
      (Script.Safe.foldlM hw₂ trivial fun u _ state w₃ hw₃ _ => ?_)
      fun _ w₃ hw₃ _ => ⟨hw₃, trivial⟩
    simp only [closeOnce]
    split_ifs
    · exact ⟨hw₃, trivial⟩
    · exact (closeRequest_chargeSafe hw₃ u).bind fun _ w₄ hw₄ _ => ⟨hw₄, trivial⟩

theorem runOnce_chargeSafe (hw : RelayOk H w) :
    ChargeSafe H settings (fun _ _ => True) (runOnce H settings now) w := by
  unfold runOnce
  refine (io_chargeSafe hw (by trivial)).bind fun finalized w₁ hw₁ _ => ?_
  refine Script.Safe.bind (P := fun _ _ => True) ?_ fun started w₂ hw₂ _ => ?_
  · split_ifs
    · exact harmless_safe (runStarts_harmless _) hw₁
    · exact ⟨hw₁, trivial⟩
  refine Script.Safe.bind (P := fun _ _ => True) ?_ fun customers w₃ hw₃ _ => ?_
  · split_ifs
    · exact (io_chargeSafe hw₂ (by trivial)).mono fun _ _ _ _ => trivial
    · exact ⟨hw₂, trivial⟩
  refine Script.Safe.bind (P := fun _ _ => True) ?_ fun allowlisted w₄ hw₄ _ => ?_
  · split_ifs
    · exact harmless_safe (syncAllowlist_harmless _) hw₃
    · exact ⟨hw₃, trivial⟩
  refine (runReceipts_chargeSafe customers hw₄).bind fun received w₅ hw₅ _ => ?_
  refine Script.Safe.bind (P := fun _ _ => True) ?_ fun closed w₆ hw₆ _ => ⟨hw₆, trivial⟩
  split_ifs
  · exact closeUnanswerable_chargeSafe _ hw₅
  · exact ⟨hw₅, trivial⟩

theorem relayMachine_secure (H : Hashes) (settings : RelaySettings) :
    (relayMachine H settings).Secure (RelayOk H) (ChargeGuard H settings) (fun _ _ => True) where
  init w := by
    rintro ⟨hcontract, huncommitted, -, -⟩
    refine ⟨hcontract, fun close hclose => ?_⟩
    rw [huncommitted] at hclose
    cases hclose
  starts w s w' hok := by
    rintro ⟨now, rfl, rfl⟩
    refine runOnce_chargeSafe ⟨hok.contract, fun close hclose => ?_⟩
    rw [List.append_nil]
    exact hok.uncommitted close hclose
  stops w w' hok := by
    rintro ⟨hlater, ⟨huncommitted, hpast, hpass⟩ | ⟨huncommitted, -, -⟩⟩
    · refine ⟨hok.contract.later hlater, fun close hclose => ?_⟩
      rw [hpast, hpass]
      exact hok.uncommitted close (huncommitted ▸ hclose)
    · refine ⟨hok.contract.later hlater, fun close hclose => ?_⟩
      rw [huncommitted] at hclose
      cases hclose

end Programs

section Samples

def sampleOutside : (c : RelayCall) → Except Thrown c.Answer
  | .finalizedBlock => .ok 3
  | .customers => .ok [sampleCustomer "org"]
  | .openRequests => .ok []
  | .readTransferCursors => .ok []
  | .finishedTransfers _ _ => .ok [sampleListed 5 20]
  | .reserveCharge _ _ _ => .ok .held
  | _ => .error "unavailable"

def sampleWorld : RelayWorld := ⟨Contract.sampleDeployed, [], [], []⟩

def sampleCommit : Program PassResult × RelayWorld :=
  Script.turns (alone Contract.sampleHashes 9 sampleOutside) 7
    (runOnce Contract.sampleHashes (sampleCustomers 50) 100, sampleWorld)

end Samples

/-- Charging safety, at every call of every run: a receipt's charge is committed only with its
credit held and its report mined in the same pass and the receipt on the contract; a request's only
with its credit held and its cancellation mined by the same process; and a report carries only
receipts whose credit is held, or Beam's own. -/
theorem reachable_charging (H : Hashes) (settings : RelaySettings) {w : RelayWorld} {c : RelayCall}
    {k : Except Thrown c.Answer → Program PassResult}
    (hx : (relayMachine H settings).system.Reachable (w, some (.call c k))) :
    (∀ subject, c = .commitCharge subject → (∀ key, subject ≠ .request key) →
      Held w.pass subject ∧ HoldsReceipt w.contract subject ∧
        ∃ report, Written w.pass report ∧ ∃ entry ∈ entriesOf report,
          chargeSubjectOf H entry = some subject) ∧
    (∀ key, c = .commitCharge (.request key) →
      Held (w.past ++ w.pass) (.request key) ∧ Cancelled (w.past ++ w.pass) key) ∧
    ∀ report, c = .writeReport ⟨some Contract.REPORT_VERSION, some report⟩ →
      ∀ entry ∈ entriesOf report, ∀ subject,
      chargeSubjectOf H entry = some subject → Held w.pass subject ∨
        FromBeam H settings w.pass entry := by
  have hguard := (relayMachine_secure H settings).guard hx
  refine ⟨?_, ?_, ?_⟩
  · rintro subject rfl hreceipt
    cases subject with
    | request key => exact (hreceipt key rfl).elim
    | _ => exact hguard
  · rintro key rfl
    exact hguard
  · rintro report rfl
    exact hguard report rfl

theorem sampleCommit_next :
    sampleCommit.1.next = some (.commitCharge (.transfer (bytes16ToTransferId 5))) := by
      decide +kernel

theorem sample_charging :
    ∃ k, sampleCommit.1 = .call (.commitCharge (.transfer (bytes16ToTransferId 5))) k ∧
      Held sampleCommit.2.pass (.transfer (bytes16ToTransferId 5)) ∧
      HoldsReceipt sampleCommit.2.contract (.transfer (bytes16ToTransferId 5)) := by
  obtain ⟨k, hk⟩ := Script.next_eq_some sampleCommit_next
  have hdeployed : (Contract.contract Contract.sampleHashes).Reachable Contract.sampleDeployed :=
    ⟨_, ⟨_, _, _, _, Contract.sampleDeployed_init⟩, .refl _⟩
  have hinit : (relayMachine Contract.sampleHashes (sampleCustomers 50)).system.Reachable
      (sampleWorld, none) :=
    ⟨_, ⟨⟨hdeployed, rfl, rfl, rfl⟩, rfl⟩, .refl _⟩
  have hstart := Machine.reachable_start hinit ⟨100, rfl, rfl⟩
  have hx :=
    Machine.reachable_turns
      (x := (runOnce Contract.sampleHashes (sampleCustomers 50) 100, sampleWorld))
    (fun w c => alone_env sampleOutside w c) 7 hstart
  have hcall : (relayMachine Contract.sampleHashes (sampleCustomers 50)).system.Reachable
      (sampleCommit.2, some (.call (.commitCharge (.transfer (bytes16ToTransferId 5))) k)) :=
        hk ▸ hx
  have hsafe :=
    (reachable_charging Contract.sampleHashes (sampleCustomers 50) hcall).1 _ rfl fun _ => nofun
  exact ⟨k, hk, hsafe.1, hsafe.2.1⟩

end Beam.Relay
