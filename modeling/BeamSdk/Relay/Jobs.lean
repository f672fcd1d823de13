import BeamSdk.Contract.Guarantees
import BeamSdk.Contract.Linked
import BeamSdk.Library.Trace
import BeamSdk.Relay.Receipts

/-! Jobs and the Room receipts they link: the order in which a pass plans and writes them, and what
the contract makes of its reports. -/

namespace Beam.Relay
open Contract (Bytes Bytes32 Hashes Msg RequestKind State TransferKind)

abbrev Log := List (Script.Told RelayCall.Answer Thrown)

section Groups
variable (H : Hashes)

def keyOf (entry : Contract.RoomReceiptReport) : Bytes32 :=
  Contract.roomReceiptKey H entry.room entry.channel entry.publication

def JobGroup (input output job : Planned) : Prop :=
  ∃ inputEntry outputEntry entry, input.entry = .room inputEntry ∧
    output.entry = .room outputEntry ∧
    job.entry = .job entry ∧ keyOf H inputEntry = entry.inputRoomKey ∧
      keyOf H outputEntry = entry.outputRoomKey

/-- What a pass plans: receipts and closures one by one, and jobs with their two Room receipts. -/
inductive Grouped : List Planned → Prop
  | nil : Grouped []
  | entry {planned : List Planned} {next : Planned} : Grouped planned →
      (∀ job, next.entry ≠ .job job) →
      Grouped (planned ++ [next])
  | job {planned : List Planned} {input output job : Planned} : Grouped planned →
      JobGroup H input output job →
      Grouped (planned ++ [input, output, job])

variable {H}

theorem Grouped.preceded {planned before after : List Planned} {job : Planned}
    {entry : Contract.JobResultReport}
    (h : Grouped H planned) (hplanned : planned = before ++ job :: after)
    (hjob : job.entry = .job entry) :
    ∃ earlier input output, before = earlier ++ [input, output] ∧ JobGroup H input output job := by
  induction h generalizing after with
  | nil =>
    have hlength := congrArg List.length hplanned
    simp at hlength
  | @entry _ next _ hnext ih =>
    rcases append_cons_of_append hplanned with ⟨rest, hrest⟩ | ⟨rest, -, hsame⟩
    · exact ih hrest
    · have hmem : job ∈ [next] := by
        rw [hsame]
        exact List.mem_append_right rest (List.mem_cons_self ..)
      obtain rfl := List.mem_singleton.mp hmem
      exact absurd hjob (hnext entry)
  | job _ hgroup ih =>
    rcases append_cons_of_append hplanned with ⟨rest, hrest⟩ | ⟨rest, hbefore, hsame⟩
    · exact ih hrest
    · have hlinked := hgroup
      obtain ⟨inputEntry, outputEntry, _, hinput, houtput, -⟩ := hlinked
      rcases rest with _ | ⟨first, _ | ⟨second, _ | ⟨third, rest⟩⟩⟩
      · cases hsame
        cases hinput.symm.trans hjob
      · cases hsame
        cases houtput.symm.trans hjob
      · cases hsame
        exact ⟨_, _, _, hbefore, hgroup⟩
      · have hlength := congrArg List.length hsame
        simp at hlength

end Groups

section Planning
variable {H : Hashes} {levels : ReceiptLevels} {now : ℤ} {plan plan' : Plan}
    {item : Pending} {log : Log}

theorem reportEntryFor_not_job {subject : Subject} {observation : Observation}
    {job : Contract.JobResultReport} :
    reportEntryFor H subject observation levels ≠ .ok (some (.job job)) := by
  intro h
  have hentry := reportEntryFor_entryOf h
  cases subject <;> exact hentry

theorem jobEntriesFor_group {subject : JobSubject} {inputPublication outputPublication : String}
    {inputObservation outputObservation : Observation} {entries : List ReportEntry} (owner : Owner)
    (key : SubjectKey)
    (h : jobEntriesFor H subject inputPublication outputPublication inputObservation
      outputObservation levels =
      .ok (some entries)) :
    ∃ input output job, (entries.map fun entry => (⟨entry, owner, key⟩ : Planned)) =
      [input, output, job] ∧
      JobGroup H input output job := by
  obtain ⟨inputEntry, hinput, hrest⟩ := bind_eq_ok.mp h
  obtain ⟨outputEntry, houtput, hentries⟩ := bind_eq_ok.mp hrest
  clear h hrest
  split at hentries
  · rename_i input output
    cases hentries
    refine ⟨⟨.room input, owner, key⟩, ⟨.room output, owner, key⟩, _, rfl, input, output, _, rfl,
      rfl, rfl, ?_, ?_⟩
    · obtain ⟨hroom, hchannel, hpublication⟩ : NamesRoom _ _ _ input :=
        reportEntryFor_entryOf hinput
      rw [keyOf, hroom, hchannel, hpublication]
      rfl
    · obtain ⟨hroom, hchannel, hpublication⟩ : NamesRoom _ _ _ output :=
        reportEntryFor_entryOf houtput
      rw [keyOf, hroom, hchannel, hpublication]
      rfl
  · cases hentries

theorem planJob_grouped {owner : Owner} {requested : JobSubject} (hplan : Grouped H plan.planned)
    (h : (planJob H levels plan owner requested).Trace log (.ok plan')) :
      Grouped H plan'.planned := by
  unfold planJob at h
  rcases h.of_bind with ⟨e, he, -⟩ | ⟨input, _, _, -, -, h⟩
  · cases he
  split at h
  · rcases h.of_bind with ⟨e, he, -⟩ | ⟨output, _, _, -, -, h⟩
    · cases he
    split at h
    · rcases h.of_bind with ⟨e, he, -⟩ | ⟨inputSeen, _, _, -, -, h⟩
      · cases he
      rcases h.of_bind with ⟨e, he, -⟩ | ⟨outputSeen, _, _, -, -, h⟩
      · cases he
      rcases h.of_bind with ⟨e, he, -⟩ | ⟨entries, _, _, -, hentries, h⟩
      · cases he
      cases entries with
      | none =>
        cases h
        exact hplan
      | some entries =>
        cases h
        obtain ⟨input, output, job, hsame, hgroup⟩ :=
          jobEntriesFor_group owner _ hentries.of_ofExcept.2.symm
        rw [Plan.add, hsame]
        exact hplan.job hgroup
    · cases h
      exact hplan
  · cases h
    exact hplan

theorem planEntry_grouped {owner : Owner} {key : SubjectKey} {entry : ReportEntry}
    (hentry : ∀ job, entry ≠ .job job)
    (hplan : Grouped H plan.planned)
    (h : (planEntry H plan owner key entry).Trace log (.ok plan')) :
    Grouped H plan'.planned := by
  unfold planEntry at h
  split at h
  · rcases h.of_bind with ⟨e, he, -⟩ | ⟨outcome, _, _, -, -, h⟩
    · cases he
    cases outcome with
    | held =>
      cases h
      exact hplan.entry hentry
    | charged | released | refused | unavailable =>
      cases h
      exact hplan
  · cases h
    exact hplan.entry hentry

theorem planSubject_grouped {subject : Subject} (hplan : Grouped H plan.planned)
    (h : (planSubject H levels now plan item subject).Trace log (.ok plan')) :
      Grouped H plan'.planned := by
  rcases h.of_bind with ⟨e, he, -⟩ | ⟨observation, _, _, -, -, h⟩
  · cases he
  rcases h.of_bind with ⟨e, he, -⟩ | ⟨entry, _, _, -, hentry, h⟩
  · cases he
  cases entry with
  | none =>
    cases h
    rw [planNothing_planned]
    exact hplan
  | some entry =>
    refine planEntry_grouped (fun job hjob => ?_) hplan h
    subst hjob
    exact reportEntryFor_not_job hentry.of_ofExcept.2.symm

theorem planItem_grouped (hplan : Grouped H plan.planned)
    (h : (planItem H levels now plan item).Trace log (.ok plan')) : Grouped H plan'.planned := by
  unfold planItem at h
  split at h
  · exact planJob_grouped hplan h
  · rcases h.of_bind with ⟨e, he, -⟩ | ⟨lookup, _, _, -, -, h⟩
    · cases he
    split at h
    · cases h
      split_ifs
      · rw [unseen_planned]
        exact hplan
      · exact hplan
    · exact planSubject_grouped hplan h
  · exact planSubject_grouped hplan h

end Planning

def isReport : RelayCall → Bool
  | .writeReport _ => true
  | _ => false

def writes (log : Log) : Log := log.filter fun event => isReport event.1

def wrote (batch : List Planned) : Script.Told RelayCall.Answer Thrown :=
    ⟨.writeReport (encodedOf batch), .ok ()⟩

/-- The log writes the batches, in order, and nothing else but the one that fails at last. -/
def Tries (log : Log) (written : List (List Planned)) : Option (List Planned) → Prop
  | none => writes log = written.map wrote
  | some failed =>
      ∃ e, writes log = written.map wrote ++ [⟨.writeReport (encodedOf failed), .error e⟩]

def Silent {α : Type} (s : Program α) : Prop := s.Uses fun call => isReport call = false

section Writes
variable {H : Hashes} {levels : ReceiptLevels} {now : ℤ} {log : Log}

theorem Silent.writes {α : Type} {s : Program α} {x : Except Thrown α} (h : Silent s)
    (htrace : s.Trace log x) :
    writes log = [] := by
  refine List.filter_eq_nil_iff.mpr fun event hevent => ?_
  rw [Script.Uses.of_mem_trace h htrace hevent]
  exact Bool.false_ne_true

theorem writes_append (first rest : Log) : writes (first ++ rest) = writes first ++ writes rest :=
    List.filter_append ..

theorem Tries.append {first rest : Log} {batch : List Planned} {written : List (List Planned)}
    {failed : Option (List Planned)} (hfirst : writes first = [wrote batch])
    (h : Tries rest written failed) :
    Tries (first ++ rest) (batch :: written) failed := by
  cases failed with
  | none => exact (writes_append first rest).trans (by rw [hfirst, h]; rfl)
  | some failed =>
    obtain ⟨e, he⟩ := h
    exact ⟨e, (writes_append first rest).trans (by rw [hfirst, he]; rfl)⟩

theorem Tries.congr {log' : Log} {written : List (List Planned)} {failed : Option (List Planned)}
    (h : Tries log written failed) (hsame : writes log' = writes log) :
      Tries log' written failed := by
  cases failed with
  | none => exact hsame.trans h
  | some failed =>
    obtain ⟨e, he⟩ := h
    exact ⟨e, hsame.trans he⟩

theorem settlePlanned_silent (settled : List SubjectKey) (planned : Planned) :
    Silent (settlePlanned H settled planned) := by
  unfold settlePlanned
  split
  · refine Script.Uses.bind (.io rfl) fun outcome => ?_
    cases outcome <;> trivial
  · trivial

theorem planItem_silent (plan : Plan) (item : Pending) :
    Silent (planItem H levels now plan item) := by
  have hsubject : ∀ subject, Silent (planSubject H levels now plan item subject) := by
    intro subject
    refine Script.Uses.bind ?_ fun observation => ?_
    · unfold observed
      split
      · trivial
      · exact .io rfl
    · refine Script.Uses.bind (.ofExcept _) fun entry => ?_
      cases entry with
      | none => trivial
      | some entry =>
        show Silent (planEntry H plan item.owner (subjectKey subject) entry)
        unfold planEntry
        split
        · refine Script.Uses.bind (.io rfl) fun outcome => ?_
          cases outcome <;> trivial
        · trivial
  unfold planItem
  split
  · refine Script.Uses.bind (.io rfl) fun input => ?_
    cases input with
    | found inputId =>
      refine Script.Uses.bind (.io rfl) fun output => ?_
      cases output with
      | found outputId =>
        refine Script.Uses.bind (.io rfl) fun _ => Script.Uses.bind (.io rfl) fun _ =>
          Script.Uses.bind (.ofExcept _) fun entries => ?_
        cases entries <;> trivial
      | absent | error | invalid | unavailable => trivial
    | absent | error | invalid | unavailable => trivial
  · refine Script.Uses.bind (.io rfl) fun lookup => ?_
    split
    · trivial
    · exact hsubject _
  · exact hsubject _

theorem gatherListings_silent (settings : RelaySettings) (customers : List Customer)
    (pending : PendingMap) :
    Silent (gatherListings settings customers now pending) := by
  unfold gatherListings
  split
  · trivial
  · refine Script.Uses.bind (.io rfl) fun cursors => Script.Uses.bind ?_ fun gathered => trivial
    refine Script.Uses.foldlM _ fun customer _ gathered => ?_
    unfold listTransfers
    split_ifs
    · trivial
    · refine Script.Uses.bind (Script.Uses.attempt (.io rfl)) fun listed => ?_
      cases listed <;> trivial

theorem saveListings_silent (cursors : TransferCursors) (listings : List Listing)
    (settled : List SubjectKey) :
    Silent (saveListings cursors listings settled) := by
  unfold saveListings
  split_ifs
  · trivial
  · exact .io rfl

theorem writeReport_trace {batch : List Planned} {r : Except Thrown Unit}
    (h : (writeReport batch).Trace log r) :
    (log = [] ∧ ∃ e, r = .error e) ∨ log = [⟨.writeReport (encodedOf batch), r⟩] := by
  rcases h.of_bind with ⟨e, rfl, he⟩ | ⟨report, first, rest, rfl, hreport, hwrite⟩
  · exact .inl ⟨he.of_ofExcept.1, e, rfl⟩
  · obtain ⟨rfl, hencoded⟩ := hreport.of_ofExcept
    simp only [encodeReport] at hencoded
    split_ifs at hencoded
    cases hencoded
    exact .inr hwrite.of_io

theorem writeBatches_tries {groups : List (List Planned)} {recorded : ℕ} {settled : List SubjectKey}
    {x : Except Thrown (ℕ × List SubjectKey)}
    (h : (writeBatches H groups recorded settled).Trace log x) :
    ∃ written failed rest, groups = written ++ Option.toList failed ++ rest ∧
      Tries log written failed := by
  induction groups generalizing log recorded settled with
  | nil =>
    cases h
    exact ⟨[], none, [], rfl, rfl⟩
  | cons batch groups ih =>
    rcases h.of_bind with ⟨e, rfl, he⟩ | ⟨r, first, rest, rfl, hwrite, hrest⟩
    · obtain ⟨_, hnone, _⟩ := he.of_attempt
      cases hnone
    obtain ⟨_, hr, hreport⟩ := hwrite.of_attempt
    cases hr
    have hlog := writeReport_trace hreport
    cases r with
    | error e =>
      cases hrest
      rcases hlog with ⟨rfl, -⟩ | rfl
      · exact ⟨[], none, batch :: groups, rfl, rfl⟩
      · exact ⟨[], some batch, groups, rfl, e, rfl⟩
    | ok _ =>
      obtain rfl : first = [wrote batch] := by
        rcases hlog with ⟨-, e, he⟩ | hfirst
        · cases he
        · exact hfirst
      have hsettle : ∀ settled, Silent (batch.foldlM (settlePlanned H) settled) := fun settled =>
        Script.Uses.foldlM _ fun planned _ settled => settlePlanned_silent settled planned
      rcases hrest.of_bind with ⟨e, rfl, he⟩ | ⟨settled', commits, later, rfl, hcommits, hlater⟩
      · refine ⟨[batch], none, groups, rfl, ?_⟩
        exact (writes_append _ _).trans (by rw [(hsettle _).writes he]; rfl)
      · obtain ⟨written, failed, left, rfl, htries⟩ := ih hlater
        refine ⟨batch :: written, failed, left, rfl, Tries.append rfl ?_⟩
        refine htries.congr ((writes_append _ _).trans ?_)
        rw [(hsettle _).writes hcommits, List.nil_append]

end Writes

section Taken
variable (H : Hashes)

/-- The contract has taken the reports one after the other, whoever else called it in between. -/
inductive Processed : State → List Contract.EncodedReport → State → Prop
  | idle {s t : State} : (Contract.contract H).Later s t → Processed s [] t
  | report {s t u v : State} {reports : List Contract.EncodedReport}
      {report : Contract.EncodedReport} {msg : Msg}
      {metadata : Bytes} : Processed s reports t →
        t.call H msg (.onReport metadata report) = .ok u →
        (Contract.contract H).Later u v → Processed s (reports ++ [report]) v

variable {H} {s t : State} {reports : List Contract.EncodedReport}

theorem Processed.later (h : Processed H s reports t) : (Contract.contract H).Later s t := by
  induction h with
  | idle hlater => exact hlater
  | @report t u _ _ report msg metadata _ hcall hlater ih =>
    have hstep : (Contract.contract H).step t (msg, .onReport metadata report) u := by
      show u = t.transact (t.call H msg (.onReport metadata report))
      rw [hcall]
      rfl
    exact (ih.trans (.single hstep)).trans hlater

theorem Processed.met (hs : (Contract.contract H).Reachable s) (h : Processed H s reports t)
    {body : Contract.Report}
    {version : Option UInt8} (hreport : ⟨version, some body⟩ ∈ reports)
    {room : Contract.RoomReceiptReport}
    (hroom : room ∈ body.rooms) : t.Met (.room (keyOf H room)) := by
  induction h with
  | idle _ => cases hreport
  | @report t u v _ report msg metadata hprevious hcall hlater ih =>
    have hopen := (Contract.reachable_refines (hs.later hprevious.later)).1
    have hcalled := Contract.call_refines hopen hcall
    have hkept := (Contract.later_refines hcalled.openOk hlater).keeps
    rcases List.mem_append.mp hreport with hearlier | hlast
    · exact hkept.met (hcalled.keeps.met (ih hearlier))
    · obtain rfl := List.mem_singleton.mp hlast
      exact hkept.met ((Contract.onReport_met hopen hcall).2 room hroom)

end Taken

section Lands
variable (H : Hashes)

/-- The part of what is planned that is written, report by report, and the report that fails at
last. -/
structure Lands (planned : List Planned) (log : Log) (written : List (List Planned))
    (failed : Option (List Planned)) :
    Prop where
  tries : Tries log written failed
  order : (written ++ failed.toList).flatten <+: planned
  whole : ∀ batch ∈ written ++ failed.toList,
    (entriesOf (reportOf batch)).Perm (batch.map Planned.entry)
  small : ∀ batch ∈ written ++ failed.toList,
    (entriesOf (reportOf batch)).length ≤ MAX_ENTRIES_PER_REPORT
  preceded : ∀ before job after entry, (written ++ failed.toList).flatten = before ++ job :: after →
    job.entry = .job entry →
      ∃ earlier input output, before = earlier ++ [input, output] ∧ JobGroup H input output job
  linked : ∀ before batch after, written ++ failed.toList = before ++ batch :: after →
    before <+: written ∧
    ∀ entry ∈ (reportOf batch).jobs, ∀ key ∈ [entry.inputRoomKey, entry.outputRoomKey],
      ∃ earlier ∈ before ++ [batch], ∃ room ∈ (reportOf earlier).rooms, keyOf H room = key
  taken : ∀ before batch after, written ++ failed.toList = before ++ batch :: after → ∀ s t,
    (Contract.contract H).Reachable s → Processed H s (before.map encodedOf) t → ∀ msg metadata key,
      t.call H msg (.onReport metadata (encodedOf batch)) ≠ .error (.missingRoomReceipt key)

def PlansIn (settings : RelaySettings) (customers : List Customer) (now : ℤ) (log : Log)
    (planned : List Planned) : Prop :=
  ∃ requests gathered listed plan, ∃ listLog planLog rest : Log,
    log = ⟨.openRequests, .ok requests⟩ :: (listLog ++ (planLog ++ rest)) ∧
    gatherRequests H settings customers requests = .ok gathered ∧
    (gatherListings settings customers now gathered.pending).Trace listLog (.ok listed) ∧
    ((listed.2.1.map Prod.snd).foldlM (planItem H settings.levels now)
      ⟨[], [], gathered.unanswerable⟩).Trace planLog
      (.ok plan) ∧
    plan.planned = planned

variable {H}

theorem mem_rooms_reportOf {batch : List Planned} {planned : Planned}
    {room : Contract.RoomReceiptReport}
    (h : planned ∈ batch) (hentry : planned.entry = .room room) : room ∈ (reportOf batch).rooms :=
  mem_rooms.mpr (List.mem_map.mpr ⟨planned, h, hentry⟩)

theorem exists_of_mem_jobs_reportOf {batch : List Planned} {job : Contract.JobResultReport}
    (h : job ∈ (reportOf batch).jobs) : ∃ planned ∈ batch, planned.entry = .job job :=
  List.mem_map.mp (mem_jobs.mp h)

theorem linked_of_preceded {parts before after : List (List Planned)} {batch : List Planned}
    (hpreceded : ∀ before job after entry, parts.flatten = before ++ job :: after →
      job.entry = .job entry →
      ∃ earlier input output, before = earlier ++ [input, output] ∧ JobGroup H input output job)
    (hparts : parts = before ++ batch :: after) : ∀ entry ∈ (reportOf batch).jobs,
      ∀ key ∈ [entry.inputRoomKey, entry.outputRoomKey],
        ∃ earlier ∈ before ++ [batch], ∃ room ∈ (reportOf earlier).rooms, keyOf H room = key := by
  intro entry hentry key hkey
  obtain ⟨job, hmem, hjob⟩ := exists_of_mem_jobs_reportOf hentry
  obtain ⟨front, back, rfl⟩ := List.mem_iff_append.mp hmem
  have hflat : parts.flatten = (before.flatten ++ front) ++ job :: (back ++ after.flatten) := by
    rw [hparts]
    simp
  obtain ⟨earlier, input, output, hsplit, inputEntry, outputEntry, entry', hinput, houtput, hjob',
    hin, hout⟩ :=
    hpreceded _ job _ entry hflat hjob
  cases hjob.symm.trans hjob'
  have hpart : ∀ planned ∈ [input, output], ∃ part ∈ before ++ [front ++ job :: back],
      planned ∈ part := by
    intro planned hplanned
    have hbefore : planned ∈ before.flatten ++ front :=
      hsplit ▸ List.mem_append_right earlier hplanned
    rcases List.mem_append.mp hbefore with hflatten | hfront
    · obtain ⟨part, hpart, hin⟩ := List.mem_flatten.mp hflatten
      exact ⟨part, List.mem_append_left _ hpart, hin⟩
    · exact ⟨_, List.mem_append_right _ (List.mem_singleton_self _), List.mem_append_left _ hfront⟩
  rcases List.mem_cons.mp hkey with rfl | hkey
  · obtain ⟨part, hpart, hin'⟩ := hpart input (List.mem_cons_self ..)
    exact ⟨part, hpart, inputEntry, mem_rooms_reportOf hin' hinput, hin⟩
  · obtain rfl := List.mem_singleton.mp hkey
    obtain ⟨part, hpart, hin'⟩ := hpart output (List.mem_cons_of_mem _ (List.mem_singleton_self _))
    exact ⟨part, hpart, outputEntry, mem_rooms_reportOf hin' houtput, hout⟩

theorem lands_of_grouped {planned : List Planned} {log : Log} {written rest : List (List Planned)}
    {failed : Option (List Planned)} (hgrouped : Grouped H planned)
    (hbatches : batches planned = written ++ failed.toList ++ rest)
    (htries : Tries log written failed) :
    Lands H planned log written failed := by
  have hflatten : (written ++ failed.toList).flatten ++ rest.flatten = planned := by
    rw [← List.flatten_append, ← hbatches, flatten_batches]
  have hpreceded : ∀ before job after entry,
      (written ++ failed.toList).flatten = before ++ job :: after →
      job.entry = .job entry →
        ∃ earlier input output, before = earlier ++ [input, output] ∧
          JobGroup H input output job := by
    intro before job after entry hsplit hjob
    have hwhole : planned = before ++ job :: (after ++ rest.flatten) := by
      rw [← hflatten, hsplit, List.append_assoc, List.cons_append]
    exact hgrouped.preceded hwhole hjob
  have hlinked : ∀ before batch after, written ++ failed.toList = before ++ batch :: after →
      before <+: written ∧
      ∀ entry ∈ (reportOf batch).jobs, ∀ key ∈ [entry.inputRoomKey, entry.outputRoomKey],
        ∃ earlier ∈ before ++ [batch], ∃ room ∈ (reportOf earlier).rooms, keyOf H room = key := by
    intro before batch after hsplit
    refine ⟨?_, linked_of_preceded hpreceded hsplit⟩
    have hprefix : before <+: written ++ failed.toList := ⟨batch :: after, hsplit.symm⟩
    have hlength : before.length ≤ written.length := by
      have hsame := congrArg List.length hsplit
      cases failed <;> simp at hsame <;> omega
    exact List.prefix_of_prefix_length_le hprefix (List.prefix_append written failed.toList) hlength
  refine ⟨htries, ⟨rest.flatten, hflatten⟩, fun batch _ =>
    entriesOf_reportOf batch, fun batch hbatch => ?_, hpreceded,
    hlinked, ?_⟩
  · rw [(entriesOf_reportOf batch).length_eq, List.length_map]
    exact length_of_mem_batches (hbatches ▸ List.mem_append_left rest hbatch)
  · intro before batch after hsplit s t hs htaken msg metadata key
    have hopen := (Contract.reachable_refines (hs.later htaken.later)).1
    refine Contract.onReport_not_missing hopen (fun entry hentry key hkey => ?_) msg metadata _
    obtain ⟨earlier, hearlier, room, hroom, rfl⟩ :=
      (hlinked before batch after hsplit).2 entry hentry key hkey
    rcases List.mem_append.mp hearlier with hbefore | hsame
    · exact .inl (htaken.met hs (List.mem_map.mpr ⟨earlier, hbefore, rfl⟩) hroom)
    · obtain rfl := List.mem_singleton.mp hsame
      exact .inr ⟨room, hroom, rfl⟩

end Lands

section Samples

def sampleJobSettings : RelaySettings :=
  { sampleCustomers 10 with
    routes := ⟨some ⟨"room", "in", "source"⟩, some ⟨"out", "compute"⟩⟩
    customers := none }

def sampleJobAsked : OpenRequest where
  key := Contract.transferRequestKey Contract.sampleHashes 8
  kind := RequestKind.transfer.code
  transferKind := TransferKind.job.code
  requester := 1
  openedAt := 0
  requestId := 8
  transferId := 0
  room := ""
  channel := ""
  publication := ""

def sampleFound : (c : RelayCall) → Except Thrown c.Answer
  | .openRequests => .ok [sampleJobAsked]
  | .findPublication subject _ => .ok (.found subject.channel)
  | .observe _ _ => .ok (.room 1 4096 0 0 false 31 32 1)
  | .writeReport _ => .ok ()
  | _ => .error ""

def sampleJobLog : Log :=
  ((runReceipts Contract.sampleHashes sampleJobSettings [] 1000).run sampleFound).2.map fun call =>
    ⟨call, sampleFound call⟩

end Samples

/-- Whatever a pass is told, and wherever a report of it fails: what it has planned goes into its
reports once and in order, a job after the Room receipts it links, so the contract that took the
earlier reports does not miss one. -/
theorem jobs_land_after_receipts (H : Hashes) (settings : RelaySettings) (customers : List Customer)
    (now : ℤ) {log : Log}
    {x : Except Thrown (ℕ × List Unanswerable)}
    (hrun : (runReceipts H settings customers now).Trace log x) :
    writes log = [] ∨ ∃ planned written failed, PlansIn H settings customers now log planned ∧
      Lands H planned log written failed := by
  rcases hrun.of_bind with ⟨e, rfl, he⟩ | ⟨requests, _, _, rfl, hrequests, h₁⟩
  · rw [he.of_io]
    exact .inl rfl
  rcases h₁.of_bind with ⟨e, rfl, he⟩ | ⟨gathered, _, _, rfl, hgather, h₂⟩
  · rw [hrequests.of_io, he.of_ofExcept.1]
    exact .inl rfl
  obtain ⟨rfl, hgathered⟩ := hgather.of_ofExcept
  have hopened : ∀ rest, writes ([⟨.openRequests, .ok requests⟩] ++ ([] ++ rest)) = writes rest :=
    fun rest => rfl
  rw [hrequests.of_io]
  rcases h₂.of_bind with ⟨e, rfl, he⟩ | ⟨listed, listLog, _, rfl, hlisted, h₃⟩
  · exact .inl
      ((hopened _).trans ((gatherListings_silent settings customers gathered.pending).writes he))
  have hplans : ∀ plan,
      Silent ((listed.2.1.map Prod.snd).foldlM (planItem H settings.levels now) plan) := fun plan =>
    Script.Uses.foldlM plan fun item _ plan => planItem_silent plan item
  have hlisting : ∀ rest, writes (listLog ++ rest) = writes rest := by
    intro rest
    rw [writes_append, (gatherListings_silent settings customers gathered.pending).writes hlisted,
      List.nil_append]
  rcases h₃.of_bind with ⟨e, rfl, he⟩ | ⟨plan, planLog, _, rfl, hplan, h₄⟩
  · left
    rw [hopened, hlisting]
    exact (hplans _).writes he
  have hplanning : ∀ rest, writes (planLog ++ rest) = writes rest := by
    intro rest
    rw [writes_append, (hplans _).writes hplan, List.nil_append]
  have hgrouped : Grouped H plan.planned :=
    hplan.foldlM_keeps (I := fun plan : Plan => Grouped H plan.planned)
      (fun item _ plan plan' log hplan h => planItem_grouped hplan h) .nil
  have hplansIn : ∀ rest, PlansIn H settings customers now
      ([⟨.openRequests, .ok requests⟩] ++ ([] ++ (listLog ++ (planLog ++ rest)))) plan.planned :=
        fun rest =>
    ⟨requests, gathered, listed, plan, listLog, planLog, rest, rfl, hgathered.symm,
      hlisted, hplan, rfl⟩
  have hreports : ∀ rest,
      writes ([⟨.openRequests, .ok requests⟩] ++ ([] ++ (listLog ++ (planLog ++ rest)))) =
      writes rest := by
    intro rest
    rw [hopened, hlisting, hplanning]
  right
  rcases h₄.of_bind with ⟨e, rfl, he⟩ | ⟨result, writeLog, saveLog, rfl, hwrite, h₅⟩
  · obtain ⟨written, failed, rest, hbatches, htries⟩ := writeBatches_tries he
    exact ⟨_, written, failed, hplansIn _,
      lands_of_grouped hgrouped hbatches (htries.congr (hreports _))⟩
  · obtain ⟨written, failed, rest, hbatches, htries⟩ := writeBatches_tries hwrite
    have hsaved : writes saveLog = [] := by
      rcases h₅.of_bind with ⟨e, rfl, he⟩ | ⟨_, _, _, rfl, hsave, hdone⟩
      · exact (saveListings_silent _ _ _).writes he
      · cases hdone
        rw [writes_append, (saveListings_silent _ _ _).writes hsave]
        rfl
    refine ⟨_, written, failed, hplansIn _, lands_of_grouped hgrouped hbatches (htries.congr ?_)⟩
    rw [hreports, writes_append, hsaved, List.append_nil]

theorem sample_landed : writes sampleJobLog ≠ [] ∧ ∃ planned written failed,
    PlansIn Contract.sampleHashes sampleJobSettings [] 1000 sampleJobLog planned ∧
      Lands Contract.sampleHashes planned sampleJobLog written failed := by
  have hwrites : writes sampleJobLog ≠ [] := by
    have hcount : (writes sampleJobLog).length = 1 := by decide +kernel
    intro hnone
    rw [hnone] at hcount
    cases hcount
  have hrun :=
    Script.trace_run sampleFound (runReceipts Contract.sampleHashes sampleJobSettings [] 1000)
  exact ⟨hwrites,
    (jobs_land_after_receipts Contract.sampleHashes sampleJobSettings [] 1000 hrun).resolve_left
      hwrites⟩

end Beam.Relay
