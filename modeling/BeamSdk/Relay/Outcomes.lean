import Mathlib.Algebra.Order.BigOperators.Group.List
import BeamSdk.Relay.Queue

/-! A pass of receipts against answers that are fixed: what it plans, writes, commits and saves,
item by item. The order of the items, and how they fall into reports, no longer matter to any of it.
-/

namespace Beam.Relay
open Contract (Address Hashes)

/-- The contract lets a Room id be 128 bytes long, and the configuration 128 characters. -/
def Short (name : String) : Prop := (utf8 name).length ≤ 3 * Contract.MAX_ROOM_ID_BYTES

instance (name : String) : Decidable (Short name) := inferInstanceAs (Decidable (_ ≤ _))

def IsTransferId (text : String) : Prop := ∃ id, text = bytes16ToTransferId id

def Observation.WellNamed (observation : Observation) : Prop :=
  ∀ transferId, observation = .notRoom transferId → transferId = "" ∨ IsTransferId transferId

structure Listings where
  transferCursors : TransferCursors
  finishedTransfers : Reader → ℤ → Except Thrown (List ListedTransfer)
  ids : ∀ reader completedAfter listed, finishedTransfers reader completedAfter = .ok listed →
    ∀ row ∈ listed, IsTransferId row.id

/-- What the lookups and the website answer. They tell of a failure in their answer and never
throw. -/
structure Outcomes where
  findPublication : RoomRequestSubject → Option Reader → PublicationLookup
  observe : Subject → Option Reader → Observation
  reserveCharge : ChargeSubject → String → Via → ChargeOutcome
  commitCharge : ChargeSubject → ChargeOutcome
  publication_short : ∀ subject reader publicationId,
    findPublication subject reader = .found publicationId → Short publicationId
  observation_wellNamed : ∀ subject reader, (observe subject reader).WellNamed

abbrev Receive := Contract.EncodedReport → Except Thrown Unit

/-- The answers of a pass that finds `requests` open. -/
def reply (listings : Listings) (outcomes : Outcomes) (receive : Receive)
    (requests : List OpenRequest) :
    (c : RelayCall) → Except Thrown c.Answer
  | .openRequests => .ok requests
  | .readTransferCursors => .ok listings.transferCursors
  | .finishedTransfers reader completedAfter => listings.finishedTransfers reader completedAfter
  | .findPublication subject reader => .ok (outcomes.findPublication subject reader)
  | .observe subject reader => .ok (outcomes.observe subject reader)
  | .reserveCharge subject organizationId via =>
      .ok (outcomes.reserveCharge subject organizationId via)
  | .commitCharge subject => .ok (outcomes.commitCharge subject)
  | .writeReport report => receive report
  | .saveTransferCursors _ => .ok ()
  | _ => .error "not part of a pass of receipts"

theorem io_run (listings : Listings) (outcomes : Outcomes) (receive : Receive)
    (requests : List OpenRequest)
    (c : RelayCall) :
    (io c).run (reply listings outcomes receive requests) =
      (reply listings outcomes receive requests c, [c]) :=
  Script.run_io_eq c

def Subject.names : Subject → List String
  | .transfer _ => []
  | .room subject => [subject.room, subject.channel, subject.publication]
  | .roomRequest subject => [subject.room, subject.channel]
  | .job subject =>
      [subject.room, subject.inputChannel, subject.outputChannel, subject.computeMemberId]

/-- A transfer goes by its id as Beam writes it, and everything else by short names. -/
structure Subject.WellNamed (subject : Subject) : Prop where
  id : ∀ transferId, subjectKey subject = .transfer transferId → IsTransferId transferId
  names : ∀ name ∈ subject.names, Short name

def Plan.empty : Plan := ⟨[], [], []⟩

def Plan.append (plan more : Plan) : Plan :=
  ⟨plan.planned ++ more.planned, plan.settled ++ more.settled,
    plan.unanswerable ++ more.unanswerable⟩

@[simp] theorem Plan.append_empty (plan : Plan) : plan.append .empty = plan := by
  simp only [append, empty, List.append_nil]

@[simp] theorem Plan.empty_append (plan : Plan) : Plan.empty.append plan = plan := rfl

def entryBytes : ReportEntry → ℕ
  | .standard _ => 9 * 32
  | .room entry =>
      13 * 32 + stringBytes entry.room + stringBytes entry.channel + stringBytes entry.publication
  | .closure _ => 3 * 32
  | .job entry => 5 * 32 + stringBytes entry.computeMember

inductive Stage
  | gathering | planning | writing | saving
  deriving DecidableEq

def RelayCall.stage : RelayCall → Stage
  | .findPublication _ _ | .observe _ _ | .reserveCharge _ _ _ => .planning
  | .writeReport _ | .commitCharge _ => .writing
  | .saveTransferCursors _ => .saving
  | _ => .gathering

section Effects
variable (H : Hashes) (levels : ReceiptLevels) (now : ℤ) (listings : Listings) (outcomes : Outcomes)

structure Effect (item : Pending) (more : Plan) (calls : List RelayCall) : Prop where
  stage : ∀ c ∈ calls, c.stage = .planning
  reserved : ∀ transferId organizationId via,
    .reserveCharge (.transfer transferId) organizationId via ∈ calls →
    subjectKey item.subject = .transfer transferId
  charged : ∀ planned ∈ more.planned, ∀ transferId,
    chargeSubjectOf H planned.entry = some (.transfer transferId) →
    subjectKey item.subject = .transfer transferId ∧ more.planned = [planned]
  keyed : ∀ planned ∈ more.planned, ∀ transferId, planned.key = .transfer transferId →
    chargeSubjectOf H planned.entry = some (.transfer transferId)
  settled : ∀ transferId, .transfer transferId ∈ more.settled →
    subjectKey item.subject = .transfer transferId
  small : ∀ planned ∈ more.planned, entryBytes planned.entry ≤ 1664

def Adds (item : Pending) (program : Plan → Program Plan) : Prop :=
  ∃ more calls, Effect H item more calls ∧ ∀ receive requests plan,
    (program plan).run (reply listings outcomes receive requests) = (.ok (plan.append more), calls)

end Effects

section Lemmas
variable {H : Hashes} {levels : ReceiptLevels} {now : ℤ} {listings : Listings} {outcomes : Outcomes}
    {item : Pending}
  {more : Plan} {subject : Subject}

theorem stringBytes_short {name : String} (h : Short name) : stringBytes (utf8 name) ≤ 416 := by
  unfold Short Contract.MAX_ROOM_ID_BYTES at h
  unfold stringBytes
  omega

theorem transferIdToBytes16_total {text : String} (h : IsTransferId text) :
    ∃ id, transferIdToBytes16 text = .ok id ∧ bytes16ToTransferId id = text := by
  obtain ⟨id, rfl⟩ := h
  exact ⟨id, transferIdToBytes16_bytes16ToTransferId id, rfl⟩

variable (H levels) in
theorem reportEntryFor_total (hsubject : subject.WellNamed) (observation : Observation)
    (hobserved : (∃ transfer, subject = .transfer transfer) ∨ observation.WellNamed) :
    ∃ entry, reportEntryFor H subject observation levels = .ok entry := by
  cases subject with
  | transfer transfer =>
    obtain ⟨id, hid, -⟩ := transferIdToBytes16_total (hsubject.id _ rfl)
    cases observation with
    | transfer status totalBytes bytesTransferred completedAtMs planFingerprint
        coordinateChecksum =>
      exact ⟨_, bind_eq_ok.mpr ⟨id, hid, rfl⟩⟩
    | _ => exact ⟨none, rfl⟩
  | room room =>
    have hproper := hobserved.resolve_left (by rintro ⟨_, ⟨⟩⟩)
    cases observation with
    | notRoom transferId =>
      by_cases hempty : transferId = ""
      · subst hempty
        exact ⟨_, rfl⟩
      · obtain ⟨id, hid, -⟩ :=
          transferIdToBytes16_total ((hproper transferId rfl).resolve_left hempty)
        simp only [reportEntryFor, if_neg hempty, hid]
        exact ⟨_, rfl⟩
    | room status fileSizeBytes manifestSha256 targetCount targetSigned evidenceSha256
        assignmentsSha256 evidenceVersion =>
      exact ⟨_, rfl⟩
    | _ => exact ⟨none, rfl⟩
  | roomRequest requested => exact ⟨none, rfl⟩
  | job requested => exact ⟨none, rfl⟩

theorem reportEntryFor_charged (hsubject : subject.WellNamed) {observation : Observation}
    {entry : ReportEntry}
    (h : reportEntryFor H subject observation levels = .ok (some entry)) (transferId : String) :
    chargeSubjectOf H entry = some (.transfer transferId) ↔
      subjectKey subject = .transfer transferId := by
  have hentry := reportEntryFor_entryOf h
  cases subject with
  | transfer transfer =>
    cases entry with
    | standard entry =>
      obtain ⟨id, hid, htext⟩ := transferIdToBytes16_total (hsubject.id _ rfl)
      obtain rfl : entry.transferId = id := Except.ok.inj (Eq.trans (Eq.symm hentry) hid)
      rw [chargeSubjectOf, htext, Option.some.injEq, ChargeSubject.transfer.injEq]
      exact (SubjectKey.transfer.injEq ..).symm.to_iff
    | _ => exact hentry.elim
  | room room =>
    refine iff_of_false (fun hcharge => ?_) nofun
    cases entry with
    | room entry => cases hcharge
    | closure entry => cases hcharge
    | _ => exact hentry.elim
  | roomRequest requested => exact hentry.elim
  | job requested => exact hentry.elim

theorem reportEntryFor_small (hsubject : subject.WellNamed) {observation : Observation}
    {entry : ReportEntry}
    (h : reportEntryFor H subject observation levels = .ok (some entry)) :
      entryBytes entry ≤ 1664 := by
  have hentry := reportEntryFor_entryOf h
  cases entry with
  | standard entry =>
    simp only [entryBytes]
    omega
  | closure entry =>
    simp only [entryBytes]
    omega
  | job entry => cases subject <;> exact hentry.elim
  | room entry =>
    cases subject with
    | room room =>
      obtain ⟨hroom, hchannel, hpublication⟩ := hentry
      have hr := stringBytes_short (hsubject.names room.room (by simp [Subject.names]))
      have hc := stringBytes_short (hsubject.names room.channel (by simp [Subject.names]))
      have hp := stringBytes_short (hsubject.names room.publication (by simp [Subject.names]))
      simp only [entryBytes, hroom, hchannel, hpublication]
      omega
    | _ => exact hentry.elim

theorem Adds.pure {f : Plan → Plan} (heffect : Effect H item more [])
    (hf : ∀ plan, f plan = plan.append more) :
    Adds H listings outcomes item fun plan => pure (f plan) :=
  ⟨more, [], heffect, fun receive requests plan => by
    show (Except.ok (f plan), []) = _
    rw [hf]⟩

theorem Effect.unplanned {settled : List SubjectKey} (unanswerable : List Unanswerable)
    (hsettled : ∀ transferId, .transfer transferId ∈ settled →
      subjectKey item.subject = .transfer transferId) :
    Effect H item ⟨[], settled, unanswerable⟩ [] where
  stage _ hmem := absurd hmem List.not_mem_nil
  reserved _ _ _ hmem := absurd hmem List.not_mem_nil
  charged _ hmem := absurd hmem List.not_mem_nil
  keyed _ hmem := absurd hmem List.not_mem_nil
  settled := hsettled
  small _ hmem := absurd hmem List.not_mem_nil

theorem Effect.empty (H : Hashes) (item : Pending) : Effect H item .empty [] :=
  .unplanned [] fun _ hmem => absurd hmem List.not_mem_nil

theorem Adds.io {c : RelayCall} {a : c.Answer} {f : c.Answer → Plan → Program Plan}
    (hc : ∀ receive requests, reply listings outcomes receive requests c = .ok a)
    (hstage : c.stage = .planning)
    (hreserved : ∀ transferId organizationId via,
      c = .reserveCharge (.transfer transferId) organizationId via →
      subjectKey item.subject = .transfer transferId) (h : Adds H listings outcomes item (f a)) :
    Adds H listings outcomes item fun plan => io c >>= fun a => f a plan := by
  obtain ⟨more, calls, heffect, hrun⟩ := h
  refine ⟨more, c :: calls, { heffect with stage := ?_, reserved := ?_ },
    fun receive requests plan => ?_⟩
  · intro d hd
    rcases List.mem_cons.mp hd with rfl | hd
    · exact hstage
    · exact heffect.stage d hd
  · intro transferId organizationId via hd
    rcases List.mem_cons.mp hd with hd | hd
    · exact hreserved transferId organizationId via hd.symm
    · exact heffect.reserved transferId organizationId via hd
  · show (Script.io c >>= fun a => f a plan).run _ = _
    rw [Script.run_bind (Script.run_io (hc receive requests)), hrun]
    rfl

theorem Effect.entries {entries : List Planned}
    (hcharged : ∀ planned ∈ entries, ∀ transferId,
      chargeSubjectOf H planned.entry ≠ some (.transfer transferId))
    (hkeyed : ∀ planned ∈ entries, ∀ transferId, planned.key ≠ .transfer transferId)
    (hsmall : ∀ planned ∈ entries, entryBytes planned.entry ≤ 1664) :
      Effect H item ⟨entries, [], []⟩ [] where
  stage _ hmem := absurd hmem List.not_mem_nil
  reserved _ _ _ hmem := absurd hmem List.not_mem_nil
  charged planned hplanned transferId hcharge :=
    absurd hcharge (hcharged planned hplanned transferId)
  keyed planned hplanned transferId hkey := absurd hkey (hkeyed planned hplanned transferId)
  settled _ hmem := absurd hmem List.not_mem_nil
  small := hsmall

theorem Effect.entry {planned : Planned}
    (hcharged : ∀ transferId, chargeSubjectOf H planned.entry = some (.transfer transferId) →
      subjectKey item.subject = .transfer transferId)
    (hkeyed : ∀ transferId, planned.key = .transfer transferId →
      chargeSubjectOf H planned.entry = some (.transfer transferId))
    (hsmall : entryBytes planned.entry ≤ 1664) : Effect H item ⟨[planned], [], []⟩ [] where
  stage _ hmem := absurd hmem List.not_mem_nil
  reserved _ _ _ hmem := absurd hmem List.not_mem_nil
  charged other hother transferId hcharge := by
    obtain rfl := List.mem_singleton.mp hother
    exact ⟨hcharged transferId hcharge, rfl⟩
  keyed other hother := by
    obtain rfl := List.mem_singleton.mp hother
    exact hkeyed
  settled _ hmem := absurd hmem List.not_mem_nil
  small other hother := by
    obtain rfl := List.mem_singleton.mp hother
    exact hsmall

theorem Effect.settle {key : SubjectKey}
    (hkey : ∀ transferId, key = .transfer transferId →
      subjectKey item.subject = .transfer transferId) :
    Effect H item ⟨[], [key], []⟩ [] :=
  .unplanned [] fun transferId hmem => hkey transferId (List.mem_singleton.mp hmem).symm

theorem Effect.unanswerable (H : Hashes) (item : Pending) (unanswerable : List Unanswerable) :
    Effect H item ⟨[], [], unanswerable⟩ [] :=
  .unplanned unanswerable fun _ hmem => absurd hmem List.not_mem_nil

theorem Adds.none : Adds H listings outcomes item fun plan => Pure.pure plan :=
  Adds.pure (Effect.empty H item) fun plan => (Plan.append_empty plan).symm

theorem unseen_append (plan : Plan) (now : ℤ) (item : Pending) :
    plan.unseen now item = plan.append ⟨[], [], (Plan.empty.unseen now item).unanswerable⟩ := by
  unfold Plan.unseen
  split
  · split_ifs
    · exact (Plan.append_empty plan).symm
    · simp only [Plan.append, Plan.empty, List.append_nil, List.nil_append]
  · exact (Plan.append_empty plan).symm

theorem Adds.unseen : Adds H listings outcomes item fun plan => Pure.pure (plan.unseen now item) :=
  Adds.pure (Effect.unanswerable H item _) fun plan => unseen_append plan now item

theorem add_append (plan : Plan) (entries : List Planned) :
    plan.add entries = plan.append ⟨entries, [], []⟩ := by
  simp only [Plan.add, Plan.append, List.append_nil]

theorem settle_append (plan : Plan) (key : SubjectKey) :
    plan.settle key = plan.append ⟨[], [key], []⟩ := by
  simp only [Plan.settle, Plan.append, List.append_nil]

theorem planEntry_adds {key : SubjectKey} {entry : ReportEntry}
    (hcharged : ∀ transferId, chargeSubjectOf H entry = some (.transfer transferId) →
      subjectKey item.subject = .transfer transferId)
    (hkeyed : ∀ transferId, key = .transfer transferId →
      chargeSubjectOf H entry = some (.transfer transferId))
    (hsmall : entryBytes entry ≤ 1664) (owner : Owner) :
    Adds H listings outcomes item fun plan => planEntry H plan owner key entry := by
  have hadd : Adds H listings outcomes item fun plan =>
      Pure.pure (plan.add [⟨entry, owner, key⟩]) :=
    Adds.pure (Effect.entry hcharged hkeyed hsmall) fun plan => add_append plan _
  have hsettle : Effect H item ⟨[], [key], []⟩ [] :=
    Effect.settle fun transferId hkey => hcharged transferId (hkeyed transferId hkey)
  unfold planEntry
  cases owner with
  | beam => exact hadd
  | customer organizationId reader via =>
    cases hcharge : chargeSubjectOf H entry with
    | none => exact hadd
    | some charge =>
      refine Adds.io (c := .reserveCharge charge organizationId via) (fun _ _ => rfl) rfl ?_ ?_
      · rintro transferId _ _ ⟨⟩
        exact hcharged transferId hcharge
      · cases outcomes.reserveCharge charge organizationId via with
        | held => exact hadd
        | charged => exact Adds.pure hsettle fun plan => settle_append plan key
        | released => exact Adds.pure hsettle fun plan => settle_append plan key
        | _ => exact Adds.none

theorem planNothing_adds (hkey : ∀ transferId, subjectKey subject = .transfer transferId →
    subjectKey item.subject = .transfer transferId) (observation : Observation) :
    Adds H listings outcomes item fun plan =>
      Pure.pure (planNothing now plan item subject observation) := by
  unfold planNothing
  split
  · exact Adds.unseen
  · exact Adds.none
  · split_ifs
    · exact Adds.pure (Effect.settle hkey) fun plan => settle_append plan _
    · exact Adds.none

theorem planSubject_adds (hsubject : subject.WellNamed)
    (hobservation : item.observation.isSome → ∃ transfer, subject = .transfer transfer)
    (hkey : ∀ transferId, subjectKey subject = .transfer transferId →
      subjectKey item.subject = .transfer transferId) :
    Adds H listings outcomes item fun plan => planSubject H levels now plan item subject := by
  have hafter : ∀ observation,
      ((∃ transfer, subject = .transfer transfer) ∨ observation.WellNamed) →
      Adds H listings outcomes item fun plan =>
        planObserved H levels now plan item subject observation := by
    intro observation hproper
    obtain ⟨entry, hentry⟩ := reportEntryFor_total H levels hsubject _ hproper
    unfold planObserved
    rw [hentry]
    cases entry with
    | none => exact planNothing_adds hkey observation
    | some entry =>
      have hcharged := reportEntryFor_charged hsubject hentry
      refine planEntry_adds (fun transferId hcharge =>
        hkey transferId ((hcharged transferId).mp hcharge))
        (fun transferId hsubjectKey => (hcharged transferId).mpr hsubjectKey)
        (reportEntryFor_small hsubject hentry) item.owner
  simp only [planSubject, observed]
  cases hobserved : item.observation with
  | some observation =>
    have htransfer := hobservation (by rw [hobserved]; rfl)
    exact hafter observation (.inl htransfer)
  | none =>
    exact Adds.io (c := .observe subject (readerOf item.owner)) (fun _ _ => rfl) rfl nofun
      (hafter _ (.inr (outcomes.observation_wellNamed subject _)))

variable (H levels) in
theorem jobEntriesFor_total {requested : JobSubject} (hsubject : (Subject.job requested).WellNamed)
    {inputId outputId : String} (hinput : Short inputId) (houtput : Short outputId)
    {input output : Observation}
    (hin : input.WellNamed) (hout : output.WellNamed) :
    ∃ entries, jobEntriesFor H requested inputId outputId input output levels = .ok entries ∧
      ∀ list, entries = some list → ∀ entry ∈ list,
        (∀ transferId, chargeSubjectOf H entry ≠ some (.transfer transferId)) ∧
          entryBytes entry ≤ 1664 := by
  have hroom : ∀ channel publication, channel ∈ (Subject.job requested).names → Short publication →
      (Subject.room ⟨requested.room, channel, publication, none⟩).WellNamed := by
    refine fun channel publication hchannel hpublication => ⟨nofun, fun name hname => ?_⟩
    simp only [Subject.names, List.mem_cons, List.not_mem_nil, or_false] at hname
    rcases hname with rfl | rfl | rfl
    · exact hsubject.names _ (by simp [Subject.names])
    · exact hsubject.names _ hchannel
    · exact hpublication
  have hproper₁ := hroom requested.inputChannel inputId (by simp [Subject.names]) hinput
  have hproper₂ := hroom requested.outputChannel outputId (by simp [Subject.names]) houtput
  obtain ⟨entry₁, h₁⟩ := reportEntryFor_total H levels hproper₁ _ (.inr hin)
  obtain ⟨entry₂, h₂⟩ := reportEntryFor_total H levels hproper₂ _ (.inr hout)
  simp only [jobEntriesFor, h₁, h₂, bind, Except.bind]
  split
  · rename_i inputEntry outputEntry
    refine ⟨_, rfl, ?_⟩
    rintro _ ⟨⟩ entry hentry
    simp only [List.mem_cons, List.not_mem_nil, or_false] at hentry
    rcases hentry with rfl | rfl | rfl
    · exact ⟨fun _ => nofun, reportEntryFor_small hproper₁ h₁⟩
    · exact ⟨fun _ => nofun, reportEntryFor_small hproper₂ h₂⟩
    · have hmember :=
        stringBytes_short (hsubject.names requested.computeMemberId (by simp [Subject.names]))
      refine ⟨fun _ => nofun, ?_⟩
      simp only [entryBytes]
      omega
  · exact ⟨none, rfl, nofun⟩

theorem planJob_adds {requested : JobSubject} (hsubject : (Subject.job requested).WellNamed)
    (owner : Owner) :
    Adds H listings outcomes item fun plan => planJob H levels plan owner requested := by
  unfold planJob
  refine Adds.io (c := .findPublication _ _) (fun _ _ => rfl) rfl nofun ?_
  cases hinput : outcomes.findPublication (jobLookups requested).1 (readerOf owner) with
  | found inputId =>
    refine Adds.io (c := .findPublication _ _) (fun _ _ => rfl) rfl nofun ?_
    cases houtput : outcomes.findPublication (jobLookups requested).2 (readerOf owner) with
    | found outputId =>
      refine Adds.io (c := .observe _ _) (fun _ _ => rfl) rfl nofun ?_
      refine Adds.io (c := .observe _ _) (fun _ _ => rfl) rfl nofun ?_
      obtain ⟨entries, hentries, hfacts⟩ := jobEntriesFor_total H levels hsubject
        (outcomes.publication_short _ _ _ hinput) (outcomes.publication_short _ _ _ houtput)
        (outcomes.observation_wellNamed
          (.room ⟨requested.room, requested.inputChannel, inputId, none⟩) (readerOf owner))
        (outcomes.observation_wellNamed
          (.room ⟨requested.room, requested.outputChannel, outputId, none⟩) (readerOf owner))
      rw [hentries]
      cases entries with
      | none => exact Adds.none
      | some entries =>
        refine Adds.pure (Effect.entries ?_ ?_ ?_) fun plan => add_append plan _
        · intro planned hplanned transferId hcharge
          obtain ⟨entry, hentry, rfl⟩ := List.mem_map.mp hplanned
          exact (hfacts _ rfl entry hentry).1 transferId hcharge
        · intro planned hplanned transferId hkey
          obtain ⟨entry, hentry, rfl⟩ := List.mem_map.mp hplanned
          cases hkey
        · intro planned hplanned
          obtain ⟨entry, hentry, rfl⟩ := List.mem_map.mp hplanned
          exact (hfacts _ rfl entry hentry).2
    | _ => exact Adds.none
  | _ => exact Adds.none

theorem planItem_adds (hsubject : item.subject.WellNamed)
    (hobservation : item.observation.isSome → ∃ transfer, item.subject = .transfer transfer) :
    Adds H listings outcomes item fun plan => planItem H levels now plan item := by
  unfold planItem
  split
  · rename_i requested heq
    exact planJob_adds (heq ▸ hsubject) item.owner
  · rename_i requested heq
    refine Adds.io (c := .findPublication _ _) (fun _ _ => rfl) rfl nofun ?_
    cases hlookup : outcomes.findPublication requested (readerOf item.owner) with
    | found publicationId =>
      have hnames := (heq ▸ hsubject).names
      refine planSubject_adds ⟨nofun, fun name hname => ?_⟩ (fun hsome => ?_) nofun
      · simp only [Subject.names, List.mem_cons, List.not_mem_nil, or_false] at hname
        rcases hname with rfl | rfl | rfl
        · exact hnames _ (by simp [Subject.names])
        · exact hnames _ (by simp [Subject.names])
        · exact outcomes.publication_short _ _ _ hlookup
      · obtain ⟨transfer, htransfer⟩ := hobservation hsome
        cases heq.symm.trans htransfer
    | absent => exact Adds.unseen
    | _ => exact Adds.none
  · exact planSubject_adds hsubject hobservation fun _ hkey => hkey

end Lemmas

structure Pending.WellNamed (item : Pending) : Prop where
  subject : item.subject.WellNamed
  observation : item.observation.isSome → ∃ transfer, item.subject = .transfer transfer

section Pass
variable (H : Hashes) (levels : ReceiptLevels) (now : ℤ) (listings : Listings) (outcomes : Outcomes)

def effect (item : Pending) : Plan × List RelayCall :=
  match (planItem H levels now .empty item).run (reply listings outcomes (fun _ => .ok ()) []) with
  | (.ok more, calls) => (more, calls)
  | (.error _, calls) => (.empty, calls)

def Planned.charge (planned : Planned) : Option ChargeSubject :=
  match planned.owner with
  | .beam => none
  | .customer _ _ _ => chargeSubjectOf H planned.entry

def committed (planned : Planned) : List SubjectKey :=
  match planned.charge H with
  | none => []
  | some charge => if outcomes.commitCharge charge = .charged then [planned.key] else []

variable {H levels now listings outcomes} {receive : Receive} {requests : List OpenRequest}
    {plan : Plan}
  {item : Pending}

theorem effect_spec (hitem : item.WellNamed) :
    Effect H item (effect H levels now listings outcomes item).1
      (effect H levels now listings outcomes item).2 ∧
      ∀ receive requests plan, (planItem H levels now plan item).run
        (reply listings outcomes receive requests) =
        (.ok (plan.append (effect H levels now listings outcomes item).1),
          (effect H levels now listings outcomes item).2) := by
  have hadds : Adds H listings outcomes item fun plan => planItem H levels now plan item :=
    planItem_adds hitem.subject hitem.observation
  obtain ⟨more, calls, heffect, hrun⟩ := hadds
  have heq : effect H levels now listings outcomes item = (more, calls) := by
    rw [effect, hrun _ [] .empty]
    rfl
  rw [heq]
  exact ⟨heffect, hrun⟩

variable (H levels now listings outcomes receive requests) in
theorem planItems_run {items : List Pending} (hitems : ∀ item ∈ items, item.WellNamed)
    (plan : Plan) :
    (items.foldlM (planItem H levels now) plan).run (reply listings outcomes receive requests) =
      (.ok (items.foldl (fun plan item =>
        plan.append (effect H levels now listings outcomes item).1) plan),
        items.flatMap fun item => (effect H levels now listings outcomes item).2) :=
  Script.run_foldlM plan fun item hitem plan =>
    (effect_spec (hitems item hitem)).2 receive requests plan

theorem planned_foldl_append (items : List Pending) (f : Pending → Plan) (plan : Plan) :
    (items.foldl (fun plan item => plan.append (f item)) plan).planned = plan.planned ++
      items.flatMap fun item => (f item).planned := by
  induction items generalizing plan with
  | nil => simp
  | cons item items ih =>
    rw [List.foldl_cons, ih, List.flatMap_cons, Plan.append, List.append_assoc]

theorem mem_settled {items : List Pending} {f : Pending → Plan} {key : SubjectKey} :
    key ∈ (items.foldl (fun plan item => plan.append (f item)) plan).settled ↔
      key ∈ plan.settled ∨ ∃ item ∈ items, key ∈ (f item).settled := by
  induction items generalizing plan with
  | nil => simp
  | cons item items ih =>
    rw [List.foldl_cons, ih]
    simp only [Plan.append, List.mem_append, List.mem_cons, exists_eq_or_imp, or_assoc]

theorem settlePlanned_run (settled : List SubjectKey) (planned : Planned) :
    (settlePlanned H settled planned).run (reply listings outcomes receive requests) =
      (.ok (settled ++ committed H outcomes planned),
        (planned.charge H).toList.map .commitCharge) := by
  unfold settlePlanned committed Planned.charge
  cases planned.owner with
  | beam => exact Prod.ext (congrArg Except.ok (List.append_nil _).symm) rfl
  | customer organizationId reader via =>
    cases chargeSubjectOf H planned.entry with
    | none => exact Prod.ext (congrArg Except.ok (List.append_nil _).symm) rfl
    | some charge =>
      simp only [io]
      rw [Script.run_bind (Script.run_io rfl)]
      cases outcomes.commitCharge charge <;>
        simp [Script.run, pure]

theorem reportBytes_reportOfEntries (entries : List ReportEntry) :
    reportBytes (reportOfEntries entries) = 288 + (entries.map entryBytes).sum := by
  induction entries with
  | nil => rfl
  | cons entry entries ih =>
    simp only [reportBytes, reportOfEntries] at ih ⊢
    rw [List.map_cons, List.sum_cons]
    generalize (entries.map entryBytes).sum = rest at ih ⊢
    cases entry <;>
      simp only [List.filterMap_cons, List.map_cons, List.sum_cons, List.length_cons,
        entryBytes] <;> omega

theorem writeReport_run {batch : List Planned} (hlength : batch.length ≤ MAX_ENTRIES_PER_REPORT)
    (hsmall : ∀ planned ∈ batch, entryBytes planned.entry ≤ 1664) :
    (writeReport batch).run (reply listings outcomes receive requests) =
      (receive (encodedOf batch), [.writeReport (encodedOf batch)]) := by
  have hsum : ((batch.map Planned.entry).map entryBytes).sum ≤ batch.length * 1664 := by
    refine (List.sum_le_card_nsmul _ 1664 fun bytes hbytes => ?_).trans_eq (by simp)
    obtain ⟨_, hentry, rfl⟩ := List.mem_map.mp hbytes
    obtain ⟨planned, hplanned, rfl⟩ := List.mem_map.mp hentry
    exact hsmall planned hplanned
  have hfits : ¬ reportBytes (reportOf batch) > MAX_REPORT_BYTES := by
    rw [reportOf, reportBytes_reportOfEntries]
    unfold MAX_ENTRIES_PER_REPORT at hlength
    unfold MAX_REPORT_BYTES
    omega
  simp only [writeReport, encodeReport, if_neg hfits]
  exact io_run listings outcomes receive requests (.writeReport (encodedOf batch))

variable (H receive) in
def Writes (calls : List RelayCall) (subject : ChargeSubject) : Prop :=
  ∃ report, .writeReport ⟨some Contract.REPORT_VERSION, some report⟩ ∈ calls ∧
    receive ⟨some Contract.REPORT_VERSION, some report⟩ = .ok () ∧
      ∃ entry ∈ entriesOf report, chargeSubjectOf H entry = some subject

/-- What of the batches gets into reports that are taken, before the first that is not. -/
def taken (receive : Receive) (groups : List (List Planned)) : List Planned :=
  (groups.takeWhile fun batch => (receive (encodedOf batch)).isOk).flatten

/-- What writing the planned entries comes to where those of `recorded` get through. -/
structure Wrote (H : Hashes) (outcomes : Outcomes) (receive : Receive) (recorded : List Planned)
    (settled : List SubjectKey)
    (calls : List RelayCall) (settled' : List SubjectKey) : Prop where
  stage : ∀ c ∈ calls, c.stage = .writing
  reports : ∀ subject, Writes H receive calls subject ↔
    ∃ p ∈ recorded, chargeSubjectOf H p.entry = some subject
  commits : ∀ subject, .commitCharge subject ∈ calls ↔ ∃ p ∈ recorded, p.charge H = some subject
  settled : ∀ key, key ∈ settled' ↔ key ∈ settled ∨ ∃ p ∈ recorded, key ∈ committed H outcomes p

theorem Wrote.refused {batch : List Planned} {e : Thrown} (h : receive (encodedOf batch) = .error e)
    (settled : List SubjectKey) :
      Wrote H outcomes receive [] settled [.writeReport (encodedOf batch)] settled where
  stage c hc := by
    rw [List.mem_singleton.mp hc]
    rfl
  reports subject := by
    refine ⟨?_, fun ⟨_, hmem, _⟩ => absurd hmem List.not_mem_nil⟩
    rintro ⟨report, hmem, htaken, -⟩
    cases List.mem_singleton.mp hmem
    cases h.symm.trans htaken
  commits subject := by
    refine ⟨fun hmem => ?_, fun ⟨_, hmem, _⟩ => absurd hmem List.not_mem_nil⟩
    cases List.mem_singleton.mp hmem
  settled key := by simp

theorem Wrote.cons {rest : List Planned} {settled settled' : List SubjectKey}
    {calls : List RelayCall}
    {batch : List Planned} (hok : receive (encodedOf batch) = .ok ())
    (h : Wrote H outcomes receive rest
      (batch.foldl (fun settled p => settled ++ committed H outcomes p) settled) calls settled') :
    Wrote H outcomes receive (batch ++ rest) settled (.writeReport (encodedOf batch) ::
      ((batch.flatMap fun p => (p.charge H).toList.map .commitCharge) ++ calls)) settled' where
  stage c hc := by
    rcases List.mem_cons.mp hc with rfl | hc
    · rfl
    · rcases List.mem_append.mp hc with hc | hc
      · obtain ⟨p, -, hc⟩ := List.mem_flatMap.mp hc
        obtain ⟨subject, -, rfl⟩ := List.mem_map.mp hc
        rfl
      · exact h.stage c hc
  reports subject := by
    constructor
    · rintro ⟨report, hmem, htaken, entry, hentry, hsubject⟩
      rcases List.mem_cons.mp hmem with heq | hmem
      · cases heq
        obtain ⟨p, hp, rfl⟩ := planned_of_mem_entriesOf hentry
        exact ⟨p, List.mem_append_left _ hp, hsubject⟩
      · rcases List.mem_append.mp hmem with hmem | hmem
        · obtain ⟨p, -, hc⟩ := List.mem_flatMap.mp hmem
          obtain ⟨_, -, heq⟩ := List.mem_map.mp hc
          cases heq
        · obtain ⟨p, hp, hcharge⟩ :=
            (h.reports subject).mp ⟨report, hmem, htaken, entry, hentry, hsubject⟩
          exact ⟨p, List.mem_append_right _ hp, hcharge⟩
    · rintro ⟨p, hp, hcharge⟩
      rcases List.mem_append.mp hp with hp | hp
      · exact ⟨_, List.mem_cons_self .., hok, _, mem_entriesOf_reportOf hp, hcharge⟩
      · obtain ⟨report, hmem, htaken, hentry⟩ := (h.reports subject).mpr ⟨p, hp, hcharge⟩
        exact ⟨report, List.mem_cons_of_mem _ (List.mem_append_right _ hmem), htaken, hentry⟩
  commits subject := by
    have hbatch : .commitCharge subject ∈
        (batch.flatMap fun p => (p.charge H).toList.map RelayCall.commitCharge) ↔
        ∃ p ∈ batch, p.charge H = some subject := by
      simp only [List.mem_flatMap, List.mem_map, Option.mem_toList, RelayCall.commitCharge.injEq,
        exists_eq_right]
    have hne : RelayCall.commitCharge subject ≠ .writeReport (encodedOf batch) := nofun
    rw [List.mem_cons, or_iff_right hne, List.mem_append, hbatch, h.commits subject]
    simp only [List.mem_append, or_and_right, exists_or]
  settled key := by
    rw [h.settled key, List.foldl_append_eq_append, ← List.flatMap_def]
    simp only [List.mem_append, List.mem_flatMap, or_and_right, exists_or, or_assoc]

variable (listings outcomes receive requests) in
theorem writeBatches_run {groups : List (List Planned)}
    (hgroups : ∀ batch ∈ groups, batch.length ≤ MAX_ENTRIES_PER_REPORT ∧
      ∀ planned ∈ batch, entryBytes planned.entry ≤ 1664)
    (recorded : ℕ) (settled : List SubjectKey) :
    ∃ total settled' calls, (writeBatches H groups recorded settled).run
      (reply listings outcomes receive requests) =
      (.ok (total, settled'), calls) ∧
        Wrote H outcomes receive (taken receive groups) settled calls settled' := by
  induction groups generalizing recorded settled with
  | nil =>
    refine ⟨recorded, settled, [], rfl, nofun, fun subject => ?_, fun subject => ?_, fun key => ?_⟩
    · simp [Writes, taken]
    · simp [taken]
    · simp [taken]
  | cons batch rest ih =>
    obtain ⟨hlength, hsmall⟩ := hgroups batch (List.mem_cons_self ..)
    have hwrite : ((writeReport batch).attempt).run (reply listings outcomes receive requests) =
        (.ok (receive (encodedOf batch)), [.writeReport (encodedOf batch)]) := by
      rw [Script.run_attempt, writeReport_run hlength hsmall]
    simp only [writeBatches, taken]
    rw [Script.run_bind hwrite]
    cases hreceive : receive (encodedOf batch) with
    | error e =>
      rw [List.takeWhile_cons_of_neg (by rw [hreceive]; exact Bool.false_ne_true)]
      exact ⟨recorded, settled, _, rfl, .refused hreceive settled⟩
    | ok done =>
      have hsettle : (batch.foldlM (settlePlanned H) settled).run
          (reply listings outcomes receive requests) =
          (.ok (batch.foldl (fun settled p => settled ++ committed H outcomes p) settled),
            batch.flatMap fun p => (p.charge H).toList.map .commitCharge) :=
        Script.run_foldlM settled fun p _ settled => settlePlanned_run settled p
      obtain ⟨total, settled', calls, hrun, hwrote⟩ :=
        ih (fun b hb => hgroups b (List.mem_cons_of_mem _ hb))
        (recorded + batch.length)
          (batch.foldl (fun settled p => settled ++ committed H outcomes p) settled)
      rw [List.takeWhile_cons_of_pos (by rw [hreceive]; rfl), List.flatten_cons]
      refine ⟨total, settled', _, ?_, hwrote.cons hreceive⟩
      simp only
      rw [Script.run_bind hsettle, hrun]
      rfl

end Pass

section Listed
variable (listings : Listings) (mode : CustomersMode) (now : ℤ) (customer : Customer)

def Listings.cursor : ℤ :=
    (listings.transferCursors.get customer.organizationId).getD (initialTransferCursor customer)

def Listings.rows : Option (List ListedTransfer) :=
  if customer.periods = [] ∨ ¬ listsTransfers customer now then none
  else (listings.finishedTransfers customer.reader (listings.cursor customer)).toOption

def Listings.listing : Option Listing :=
  (listings.rows now customer).map fun listed =>
    ⟨customer, listings.cursor customer, keptTransfers mode customer listed⟩

variable {H : Hashes} {levels : ReceiptLevels} {listings mode now customer} {outcomes : Outcomes}
  {receive : Receive} {requests : List OpenRequest}

variable (listings mode now customer outcomes receive requests) in
theorem listTransfers_run (gathered : PendingMap × List Listing) :
    ∃ calls, (∀ c ∈ calls, c.stage = .gathering) ∧
      (listTransfers mode now listings.transferCursors gathered customer).run
        (reply listings outcomes receive requests) =
        (.ok (((listings.listing mode now customer).toList.flatMap Listing.items).foldl
          addPending gathered.1,
          gathered.2 ++ (listings.listing mode now customer).toList), calls) := by
  unfold listTransfers Listings.listing Listings.rows
  by_cases hskip : customer.periods = [] ∨ ¬ listsTransfers customer now
  · rw [if_pos hskip, if_pos hskip]
    refine ⟨[], nofun, ?_⟩
    exact Prod.ext (congrArg Except.ok (Prod.ext rfl (List.append_nil _).symm)) rfl
  · rw [if_neg hskip, if_neg hskip]
    refine ⟨[.finishedTransfers customer.reader (listings.cursor customer)], ?_, ?_⟩
    · intro c hc
      rw [List.mem_singleton.mp hc]
      rfl
    · have hcall :
          ((io (.finishedTransfers customer.reader (listings.cursor customer))).attempt : Program
            _).run
          (reply listings outcomes receive requests) =
            (.ok (listings.finishedTransfers customer.reader (listings.cursor customer)),
              [.finishedTransfers customer.reader (listings.cursor customer)]) := by
        rw [Script.run_attempt, io_run]
        rfl
      show ((io (.finishedTransfers customer.reader (listings.cursor customer))).attempt >>=
          _ : Program _).run _ = _
      rw [Script.run_bind hcall]
      cases listings.finishedTransfers customer.reader (listings.cursor customer) with
      | error e => exact Prod.ext (congrArg Except.ok (Prod.ext rfl (List.append_nil _).symm)) rfl
      | ok listed =>
        have hadd :=
          addListed_eq ⟨customer, listings.cursor customer,
            keptTransfers mode customer listed⟩ gathered.1
        simp only [Except.toOption, Option.map_some, Option.toList_some, List.flatMap_cons,
          List.flatMap_nil,
          List.append_nil]
        rw [← hadd]
        rfl

variable (now listings outcomes receive requests) in
theorem gatherListings_run {settings : RelaySettings} (hmode : settings.customers = some mode)
    (customers : List Customer) (pending : PendingMap) :
    ∃ calls, (∀ c ∈ calls, c.stage = .gathering) ∧
      (gatherListings settings customers now pending).run
        (reply listings outcomes receive requests) =
        (.ok (listings.transferCursors,
          ((customers.filterMap (listings.listing mode now)).flatMap Listing.items).foldl
            addPending pending,
          customers.filterMap (listings.listing mode now)), calls) := by
  have hloop : ∀ gathered : PendingMap × List Listing, ∃ calls,
      (∀ c ∈ calls, c.stage = .gathering) ∧
      (customers.foldlM (listTransfers mode now listings.transferCursors) gathered).run
        (reply listings outcomes receive requests) =
        (.ok (((customers.filterMap (listings.listing mode now)).flatMap Listing.items).foldl
          addPending gathered.1,
          gathered.2 ++ customers.filterMap (listings.listing mode now)), calls) := by
    induction customers with
    | nil => exact fun gathered =>
        ⟨[], nofun, Prod.ext (congrArg Except.ok (Prod.ext rfl (List.append_nil _).symm)) rfl⟩
    | cons customer customers ih =>
      intro gathered
      obtain ⟨calls, hcalls, hrun⟩ :=
        listTransfers_run listings mode now customer outcomes receive requests gathered
      obtain ⟨rest, hrest, hrun'⟩ :=
        ih (((listings.listing mode now customer).toList.flatMap Listing.items).foldl
        addPending gathered.1, gathered.2 ++ (listings.listing mode now customer).toList)
      refine ⟨calls ++ rest, fun c hc => (List.mem_append.mp hc).elim (hcalls c) (hrest c), ?_⟩
      rw [List.foldlM_cons, Script.run_bind hrun, hrun']
      cases hlisting : listings.listing mode now customer with
      | none => simp [hlisting]
      | some listing => simp [hlisting]
  obtain ⟨calls, hcalls, hrun⟩ := hloop (pending, [])
  refine ⟨.readTransferCursors :: calls, List.forall_mem_cons.mpr ⟨rfl, hcalls⟩, ?_⟩
  simp only [gatherListings, hmode]
  rw [Script.run_bind (io_run listings outcomes receive requests .readTransferCursors),
    Script.run_bind hrun]
  refine Prod.ext rfl ?_
  show [RelayCall.readTransferCursors] ++ (calls ++ []) = _
  rw [List.append_nil]
  rfl

end Listed
end Beam.Relay
