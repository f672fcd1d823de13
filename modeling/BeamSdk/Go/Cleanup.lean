import BeamSdk.Go.Uploads
import Mathlib.Data.List.Nodup

/-! A failure's cleanup aborts the uploads that the registry still holds when it is called. Those
are all the stream created and did not abort itself, unless a release of the lease has cleared the
registry before. -/

namespace Beam.Go

def StreamPhase.settled : StreamPhase → Prop
  | .failing | .cancelling _ | .aborting _ _ | .releasing _ | .returned (some _) => True
  | _ => False

namespace RouteStream
variable {shardOf : String → ℕ} {s s' : RouteStream} {i : Step} {j : ℕ} {job : GroupJob}
    {x : Upload}

def Retained (s : RouteStream) : Prop := ∀ x ∈ s.created, x ∉ s.aborted →
    (x.groupID, x.uploadID) ∈ s.uploads

/-- The step disposes the lease while the registry holds an upload that was created and not
aborted. -/
def Loses (shardOf : String → ℕ) (s : RouteStream) : Step → Prop
  | .control k =>
    (∃ control ∈ s.control.step shardOf k, s.control.disposed.count s.lease <
      control.disposed.count s.lease) ∧
      ∃ x ∈ s.created, x ∉ s.aborted ∧ (x.groupID, x.uploadID) ∈ s.uploads
  | _ => False

def Kept (s : RouteStream) (x : Upload) : Prop :=
    x ∈ s.aborted ∨ s.uploads.get x.groupID = some x.uploadID

def Holds (s : RouteStream) (x : Upload) : Setup → Prop
  | .recording uploadID => uploadID = x.uploadID
  | .signing uploadID created | .storing uploadID created | .publishing uploadID created
  | .failed uploadID created => uploadID = x.uploadID ∧ created = true ∧ Kept s x
  | .aborting uploadID => uploadID = x.uploadID ∧ Kept s x
  | .deleting _ => x ∈ s.aborted
  | .closing | .done => Kept s x
  | _ => False

structure Worked (s : RouteStream) (j : ℕ) (job : GroupJob) (s' : RouteStream)
    (setup : Setup) : Prop where
  jobs : s'.jobs = s.jobs.modify j fun job => { job with setup := setup }
  phase : s'.phase = s.phase
  closed : s.closed ⊆ s'.closed
  closing : setup = .done → job.groupID ∉ s.closed ∧ job.groupID ∈ s'.closed
  uploads : ∀ groupID, groupID ≠ job.groupID → s'.uploads.get groupID = s.uploads.get groupID
  created : ∀ x ∈ s'.created, x ∈ s.created ∨
    x.groupID = job.groupID ∧ x.uploadID ≠ "" ∧ Holds s' x setup
  keptAborted : s.aborted ⊆ s'.aborted
  own : ∀ x, x.groupID = job.groupID → Holds s x job.setup → Holds s' x setup

theorem work_of_phase {setup : Setup} (hopen : setup ≠ .done)
    (hown : ∀ x, Holds s x job.setup → Holds s x setup) :
    Worked s j job (s.setSetup j setup) setup := by
  exact ⟨rfl, rfl, List.Subset.refl _, fun h => absurd h hopen, fun _ _ => rfl, fun _ h => .inl h,
    List.Subset.refl _, fun x _ h => hown x h⟩

theorem work_of_uploads {setup : Setup} {uploads : OrderedMap String String} (hopen : setup ≠ .done)
    (hother : ∀ groupID, groupID ≠ job.groupID → uploads.get groupID = s.uploads.get groupID)
    (hown : ∀ x, x.groupID = job.groupID → Holds s x job.setup →
      Holds (s.setUploads uploads) x setup) :
    Worked s j job ((s.setUploads uploads).setSetup j setup) setup := by
  exact ⟨rfl, rfl, List.Subset.refl _, fun h => absurd h hopen, hother, fun _ h => .inl h,
    List.Subset.refl _, fun x hx h => hown x hx h⟩

theorem creating_worked {uploadID : String} (hsetup : job.setup = .creating) (hid : uploadID ≠ "") :
    Worked s j job ((s.addCreated ⟨job.groupID, uploadID⟩).setSetup j (.recording uploadID))
      (.recording uploadID) where
  jobs := rfl
  phase := rfl
  closed := List.Subset.refl _
  closing := nofun
  uploads := fun _ _ => rfl
  created := by
    intro x hx
    rcases List.mem_append.mp hx with hold | hnew
    · exact .inl hold
    · obtain rfl := List.mem_singleton.mp hnew
      exact .inr ⟨rfl, hid, rfl⟩
  keptAborted := List.Subset.refl _
  own := by
    intro x _ h
    rw [hsetup] at h
    exact h.elim

theorem aborting_worked {uploadID : String} (hsetup : job.setup = .aborting uploadID) :
    Worked s j job ((s.addAborted ⟨job.groupID, uploadID⟩).setSetup j (.deleting uploadID))
      (.deleting uploadID) where
  jobs := rfl
  phase := rfl
  closed := List.Subset.refl _
  closing := nofun
  uploads := fun _ _ => rfl
  created := fun _ h => .inl h
  keptAborted := List.subset_append_left _ _
  own := by
    intro x hx h
    rw [hsetup] at h
    obtain ⟨rfl, -⟩ := h
    exact List.mem_append_right _ (List.mem_singleton.mpr (by rw [← hx]))

theorem closing_worked (hsetup : job.setup = .closing) (hnot : job.groupID ∉ s.closed) :
    Worked s j job ((s.close job.groupID).setSetup j .done) .done where
  jobs := rfl
  phase := rfl
  closed := List.subset_cons_self _ _
  closing := fun _ => ⟨hnot, List.mem_cons_self⟩
  uploads := fun _ _ => rfl
  created := fun _ h => .inl h
  keptAborted := List.Subset.refl _
  own := by
    intro x _ h
    rw [hsetup] at h
    exact h

theorem setup_worked {input : SetupInput} (h : s.setupMultipartGroup j job input = some s') :
    ∃ setup, Worked s j job s' setup := by
  unfold setupMultipartGroup at h
  split at h
  · rename_i hsetup
    cases h
    exact ⟨_, work_of_phase nofun fun x h => by rw [hsetup] at h; exact h.elim⟩
  · rename_i hsetup
    cases h
    refine ⟨_, work_of_phase ?_ fun x h => by rw [hsetup] at h; exact h.elim⟩
    split <;> nofun
  · rename_i hsetup
    cases h
    exact ⟨_, work_of_phase nofun fun x h => by rw [hsetup] at h; exact h.elim⟩
  · rename_i hsetup
    split at h
    · cases h
      exact ⟨_, work_of_phase nofun fun x h => by rw [hsetup] at h; exact h.elim⟩
    · rename_i hid
      cases h
      exact ⟨_, creating_worked hsetup hid⟩
  · -- the upload is recorded
    rename_i uploadID hsetup
    cases h
    refine ⟨_, work_of_uploads nofun (fun _ hne => OrderedMap.get_set_of_ne _ hne _) fun x hx h =>
      ?_⟩
    rw [hsetup] at h
    obtain rfl := h
    exact ⟨rfl, rfl, .inr (hx ▸ OrderedMap.get_set_self _ _ _)⟩
  · rename_i hsetup
    cases h
    exact ⟨_, work_of_phase nofun fun x h => by rw [hsetup] at h; exact h⟩
  · rename_i hsetup
    cases h
    exact ⟨_, work_of_phase nofun fun x h => by rw [hsetup] at h; exact h⟩
  · -- and recorded again with its signed controls
    rename_i uploadID created hsetup
    cases h
    refine ⟨_, work_of_uploads nofun (fun _ hne => OrderedMap.get_set_of_ne _ hne _) fun x hx h =>
      ?_⟩
    rw [hsetup] at h
    obtain ⟨rfl, hcreated, -⟩ := h
    exact ⟨rfl, hcreated, .inr (hx ▸ OrderedMap.get_set_self _ _ _)⟩
  · rename_i hsetup
    cases h
    exact ⟨_, work_of_phase nofun fun x h => by rw [hsetup] at h; exact h⟩
  · rename_i hsetup
    cases h
    exact ⟨_, work_of_phase nofun fun x h => by rw [hsetup] at h; exact h.2.2⟩
  · -- a failure: its own upload is aborted, unless the owner is fenced
    rename_i hsetup
    cases h
    split
    · exact ⟨_, work_of_phase nofun fun x h => by rw [hsetup] at h; exact ⟨h.1, h.2.2⟩⟩
    · exact ⟨_, work_of_phase nofun fun x h => by rw [hsetup] at h; exact h.2.2⟩
  · rename_i hsetup
    cases h
    exact ⟨_, work_of_phase nofun fun x h => by rw [hsetup] at h; exact h.2⟩
  · rename_i hsetup
    cases h
    exact ⟨_, aborting_worked hsetup⟩
  · rename_i hsetup
    cases h
    refine ⟨_, work_of_uploads nofun (fun _ hne => OrderedMap.get_delete_of_ne _ hne) fun x hx h =>
      ?_⟩
    rw [hsetup] at h
    exact .inl h
  · rename_i hsetup
    split at h
    · cases h
    · rename_i hnot
      cases h
      exact ⟨_, closing_worked hsetup hnot⟩
  · cases h

theorem Worked.self {setup : Setup} (hworked : Worked s j job s' setup)
    (hjob : s.jobs[j]? = some job) :
    s'.jobs[j]? = some { job with setup := setup } := by
  rw [hworked.jobs, List.getElem?_modify_eq, hjob]
  rfl

theorem Worked.other {setup : Setup} (hworked : Worked s j job s' setup) {k : ℕ} (hk : k ≠ j) :
    s'.jobs[k]? = s.jobs[k]? := by
  rw [hworked.jobs, List.getElem?_modify_ne _ _ hk.symm]

def Distinct (s : RouteStream) : Prop := (s.jobs.map GroupJob.groupID).Nodup

theorem Distinct.eq {k : ℕ} {other : GroupJob} (hdistinct : Distinct s)
    (hjob : s.jobs[j]? = some job)
    (hother : s.jobs[k]? = some other) (hid : other.groupID = job.groupID) : k = j := by
  have hlt : k < (s.jobs.map GroupJob.groupID).length := by
    rw [List.length_map]
    exact (List.getElem?_eq_some_iff.mp hother).1
  refine (List.getElem?_inj hlt hdistinct).mp ?_
  rw [List.getElem?_map, List.getElem?_map, hjob, hother, Option.map_some, Option.map_some, hid]

structure Sound (s : RouteStream) : Prop where
  early : s.phase = .beginning → s.jobs = [] ∧ s.created = [] ∧ s.aborted = []
  closed : ∀ (j : ℕ) job, s.jobs[j]? = some job → job.setup = .done → job.groupID ∈ s.closed
  once : ∀ (j k : ℕ) job other, s.jobs[j]? = some job → s.jobs[k]? = some other →
    job.setup = .done →
    other.setup = .done → other.groupID = job.groupID → k = j
  settled : s.phase.settled → ∀ job ∈ s.jobs, job.setup = .done
  named : ∀ x ∈ s.created, x.uploadID ≠ ""

theorem worked_sound {setup : Setup} (hsound : Sound s) (hjob : s.jobs[j]? = some job)
    (hopen : job.setup ≠ .done) (hworked : Worked s j job s' setup) : Sound s' := by
  have hclosed : ∀ (k : ℕ) other, s'.jobs[k]? = some other → other.setup = .done → k ≠ j →
      s.jobs[k]? = some other := fun k other h _ hk => (hworked.other hk).symm.trans h
  refine ⟨fun hphase => ?_,
    fun k other hother hdone => ?_, fun k l one other hone hother hdone hdone' hid => ?_,
    fun hphase => ?_, fun x hx => ?_⟩
  · rw [hworked.phase] at hphase
    rw [(hsound.early hphase).1] at hjob
    cases hjob
  · by_cases hk : k = j
    · subst hk
      obtain rfl := Option.some.inj ((hworked.self hjob).symm.trans hother)
      exact (hworked.closing hdone).2
    · exact hworked.closed (hsound.closed k other (hclosed k other hother hdone hk) hdone)
  · by_cases hk : k = j
    · by_cases hl : l = j
      · exact hl.trans hk.symm
      · -- the other one had closed the future before
        subst hk
        obtain rfl := Option.some.inj ((hworked.self hjob).symm.trans hone)
        have hmem := hsound.closed l other (hclosed l other hother hdone' hl) hdone'
        exact absurd (hid ▸ hmem) (hworked.closing hdone).1
    · by_cases hl : l = j
      · subst hl
        obtain rfl := Option.some.inj ((hworked.self hjob).symm.trans hother)
        have hmem := hsound.closed k one (hclosed k one hone hdone hk) hdone
        exact absurd (hid ▸ hmem) (hworked.closing hdone').1
      · exact hsound.once k l one other (hclosed k one hone hdone hk)
          (hclosed l other hother hdone' hl) hdone hdone' hid
  · rw [hworked.phase] at hphase
    exact absurd (hsound.settled hphase job (List.mem_of_getElem? hjob)) hopen
  · rcases hworked.created x hx with hold | ⟨-, hid, -⟩
    · exact hsound.named x hold
    · exact hid

theorem setup_open {input : SetupInput} (h : s.setupMultipartGroup j job input = some s') :
    job.setup ≠ .done := by
  intro hdone
  unfold setupMultipartGroup at h
  rw [hdone] at h
  cases h

theorem stream_frame {input : Input} (h : s.streamRoutes input = some s') :
    s'.uploads = s.uploads ∧ s'.created = s.created ∧ s.aborted ⊆ s'.aborted ∧
      s'.closed = s.closed ∧
      (s'.jobs = s.jobs ∨ s.phase = .beginning ∧ ∀ job ∈ s'.jobs, job.setup = .queued) ∧
        s'.phase ≠ .beginning := by
  unfold streamRoutes at h
  split at h
  · cases h
    exact ⟨rfl, rfl, List.Subset.refl _, rfl, .inl rfl, nofun⟩
  · rename_i groups hphase
    cases h
    refine ⟨rfl, rfl, List.Subset.refl _, rfl, .inr ⟨hphase, fun job hjob => ?_⟩, nofun⟩
    obtain ⟨groupID, -, rfl⟩ := List.mem_map.mp hjob
    rfl
  · split at h
    · cases h
      exact ⟨rfl, rfl, List.Subset.refl _, rfl, .inl rfl, nofun⟩
    · cases h
  · cases h
    exact ⟨rfl, rfl, List.Subset.refl _, rfl, .inl rfl, nofun⟩
  · split at h
    · cases h
      refine ⟨rfl, rfl, List.Subset.refl _, rfl, .inl rfl, ?_⟩
      show (if s.fenced = true then StreamPhase.returned none else .failing) ≠ .beginning
      split <;> nofun
    · cases h
  · cases h
    exact ⟨rfl, rfl, List.Subset.refl _, rfl, .inl rfl, nofun⟩
  · cases h
    exact ⟨rfl, rfl, List.Subset.refl _, rfl, .inl rfl, nofun⟩
  · cases h
    exact ⟨rfl, rfl, List.Subset.refl _, rfl, .inl rfl, nofun⟩
  · split at h
    · cases h
    · split at h
      · cases h
        exact ⟨rfl, rfl, List.subset_append_left _ _, rfl, .inl rfl, nofun⟩
      · cases h
        exact ⟨rfl, rfl, List.Subset.refl _, rfl, .inl rfl, nofun⟩
  · cases h
    exact ⟨rfl, rfl, List.Subset.refl _, rfl, .inl rfl, nofun⟩
  · cases h
    exact ⟨rfl, rfl, List.Subset.refl _, rfl, .inl rfl, nofun⟩
  · cases h

theorem stream_settled {input : Input} (h : s.streamRoutes input = some s')
    (hphase : s'.phase.settled) :
    s.phase.settled ∨ ∀ job ∈ s'.jobs, job.setup = .done := by
  unfold streamRoutes at h
  split at h
  all_goals try (rename_i hs; rw [hs]; exact .inl trivial)
  · cases h
    exact hphase.elim
  · cases h
    exact hphase.elim
  · split at h
    · cases h
      exact hphase.elim
    · cases h
  · cases h
    exact hphase.elim
  · split at h
    · rename_i hdone
      cases h
      exact .inr hdone
    · cases h
  · cases h

theorem stream_sound {input : Input} (hsound : Sound s) (h : s.streamRoutes input = some s') :
    Sound s' := by
  obtain ⟨-, hcreated, -, hclosed, hjobs, hphase⟩ := stream_frame h
  have hold : ∀ (j : ℕ) job, s'.jobs[j]? = some job → job.setup = .done →
      s.jobs[j]? = some job := by
    intro j job hjob hdone
    rcases hjobs with hsame | ⟨-, hqueued⟩
    · exact hsame ▸ hjob
    · cases (hqueued job (List.mem_of_getElem? hjob)).symm.trans hdone
  refine ⟨fun h => absurd h hphase,
    fun j job hjob hdone => ?_, fun j k job other hjob hother hdone hdone' => ?_,
    fun hsettled => ?_, fun x hx => hsound.named x (hcreated ▸ hx)⟩
  · exact hclosed ▸ hsound.closed j job (hold j job hjob hdone) hdone
  · exact hsound.once j k job other (hold j job hjob hdone)
      (hold k other hother hdone') hdone hdone'
  · rcases stream_settled h hsettled with hbefore | hdone
    · rcases hjobs with hsame | ⟨hbeginning, -⟩
      · exact hsame ▸ hsound.settled hbefore
      · rw [hbeginning] at hbefore
        exact hbefore.elim
    · exact hdone

theorem step_sound (hsound : Sound s) (h : s.step shardOf i = some s') : Sound s' := by
  cases i with
  | control k =>
    obtain ⟨control, -, rfl⟩ := Option.map_eq_some_iff.mp h
    exact ⟨hsound.early, hsound.closed, hsound.once, hsound.settled, hsound.named⟩
  | setup j input =>
    obtain ⟨job, hjob, h⟩ := Option.bind_eq_some_iff.mp h
    obtain ⟨setup, hworked⟩ := setup_worked h
    exact worked_sound hsound hjob (setup_open h) hworked
  | stream input => exact stream_sound hsound h

theorem start_sound (control : Control) (lease : Lease) (restored : OrderedMap String String) :
    Sound (start control lease restored) :=
  ⟨fun _ => ⟨rfl, rfl, rfl⟩, nofun, fun _ _ _ _ hjob => (nomatch hjob), nofun, nofun⟩

theorem Sound.distinct (hsound : Sound s) (hsettled : s.phase.settled) : Distinct s := by
  refine List.nodup_iff_getElem?_ne_getElem?.mpr fun j k hlt hk h => ?_
  rw [List.length_map] at hk
  have hj : j < s.jobs.length := Nat.lt_trans hlt hk
  rw [List.getElem?_map, List.getElem?_map, List.getElem?_eq_getElem hj,
    List.getElem?_eq_getElem hk] at h
  have hdone := hsound.settled hsettled
  have heq := hsound.once j k _ _ (List.getElem?_eq_getElem hj) (List.getElem?_eq_getElem hk)
    (hdone _ (List.getElem_mem hj)) (hdone _ (List.getElem_mem hk)) (Option.some.inj h).symm
  exact absurd heq (Nat.ne_of_gt hlt)

def Tracked (s : RouteStream) : Prop :=
  ∀ x ∈ s.created, ∃ (j : ℕ) (job : GroupJob), s.jobs[j]? = some job ∧ job.groupID = x.groupID ∧
    Holds s x job.setup

theorem Holds.congr {setup : Setup} (h : Holds s x setup)
    (haborted : x ∈ s.aborted → x ∈ s'.aborted)
    (hkept : Kept s x → Kept s' x) : Holds s' x setup := by
  cases setup with
  | recording uploadID => exact h
  | signing uploadID created => exact ⟨h.1, h.2.1, hkept h.2.2⟩
  | storing uploadID created => exact ⟨h.1, h.2.1, hkept h.2.2⟩
  | publishing uploadID created => exact ⟨h.1, h.2.1, hkept h.2.2⟩
  | failed uploadID created => exact ⟨h.1, h.2.1, hkept h.2.2⟩
  | aborting uploadID => exact ⟨h.1, hkept h.2⟩
  | deleting uploadID => exact haborted h
  | closing => exact hkept h
  | done => exact hkept h
  | queued => exact h
  | creating => exact h

theorem worked_tracked {setup : Setup} (htracked : Tracked s) (hdistinct : Distinct s)
    (hjob : s.jobs[j]? = some job)
    (hworked : Worked s j job s' setup) : Tracked s' := by
  intro x hx
  rcases hworked.created x hx with hold | ⟨hid, -, hholds⟩
  · obtain ⟨k, other, hother, hid, hholds⟩ := htracked x hold
    by_cases hk : k = j
    · subst hk
      obtain rfl := Option.some.inj (hjob.symm.trans hother)
      exact ⟨k, _, hworked.self hjob, hid, hworked.own x hid.symm hholds⟩
    · have hne : x.groupID ≠ job.groupID := fun heq => hk (hdistinct.eq hjob hother (hid.trans heq))
      refine ⟨k, other, (hworked.other hk).trans hother, hid,
        hholds.congr (fun h => hworked.keptAborted h) ?_⟩
      exact Or.imp (fun h => hworked.keptAborted h) (hworked.uploads _ hne).trans
  · exact ⟨j, _, hworked.self hjob, hid.symm, hholds⟩

theorem observe_tracked {k : Control.Step} {control : Control} (htracked : Tracked s)
    (hcontrol : s.control.step shardOf k = some control) (hgood : ¬ Loses shardOf s (.control k)) :
    Tracked (s.observe control) := by
  intro x hx
  obtain ⟨j, job, hjob, hid, hholds⟩ := htracked x hx
  refine ⟨j, job, hjob, hid, hholds.congr id fun hkept => ?_⟩
  unfold observe Kept
  dsimp only
  split
  · -- the registry is cleared, and what it holds of this upload is aborted
    rename_i hdisposed
    refine .inl (hkept.elim id fun hget => Classical.byContradiction fun hnot => ?_)
    exact hgood ⟨⟨control, hcontrol, hdisposed⟩, x, hx, hnot, OrderedMap.mem_of_get hget⟩
  · exact hkept

theorem stream_tracked {input : Input} (hsound : Sound s) (htracked : Tracked s)
    (h : s.streamRoutes input = some s') : Tracked s' := by
  obtain ⟨huploads, hcreated, haborted, -, hjobs, -⟩ := stream_frame h
  intro x hx
  rw [hcreated] at hx
  obtain ⟨j, job, hjob, hid, hholds⟩ := htracked x hx
  rcases hjobs with hsame | ⟨hbeginning, -⟩
  · refine ⟨j, job, hsame ▸ hjob, hid, hholds.congr (fun h => haborted h) ?_⟩
    exact Or.imp (fun h => haborted h) fun hget => huploads ▸ hget
  · rw [(hsound.early hbeginning).1] at hjob
    cases hjob

theorem groups_modify (jobs : List GroupJob) (setup : Setup) :
    (jobs.modify j fun job => { job with setup := setup }).map GroupJob.groupID =
      jobs.map GroupJob.groupID := by
  refine List.ext_getElem? fun k => ?_
  rw [List.getElem?_map, List.getElem?_map, List.getElem?_modify]
  cases jobs[k]? with
  | none => rfl
  | some job =>
    show some (if j = k then { job with setup := setup } else job).groupID = some job.groupID
    split <;> rfl

theorem step_distinct (hsound : Sound s) (h : s.step shardOf i = some s')
    (hdistinct : Distinct s') : Distinct s := by
  cases i with
  | control k =>
    obtain ⟨control, -, rfl⟩ := Option.map_eq_some_iff.mp h
    exact hdistinct
  | setup j input =>
    obtain ⟨job, hjob, h⟩ := Option.bind_eq_some_iff.mp h
    obtain ⟨setup, hworked⟩ := setup_worked h
    rwa [Distinct, hworked.jobs, groups_modify] at hdistinct
  | stream input =>
    obtain ⟨-, -, -, -, hsame | ⟨hbeginning, -⟩, -⟩ := stream_frame h
    · rwa [Distinct, hsame] at hdistinct
    · rw [Distinct, (hsound.early hbeginning).1]
      exact List.nodup_nil

theorem step_tracked (hsound : Sound s) (htracked : Tracked s) (hdistinct : Distinct s)
    (h : s.step shardOf i = some s') (hgood : ¬ Loses shardOf s i) : Tracked s' := by
  cases i with
  | control k =>
    obtain ⟨control, hcontrol, rfl⟩ := Option.map_eq_some_iff.mp h
    exact observe_tracked htracked hcontrol hgood
  | setup j input =>
    obtain ⟨job, hjob, h⟩ := Option.bind_eq_some_iff.mp h
    obtain ⟨setup, hworked⟩ := setup_worked h
    exact worked_tracked htracked hdistinct hjob hworked
  | stream input => exact stream_tracked hsound htracked h

theorem Tracked.retained (hsound : Sound s) (htracked : Tracked s) (hsettled : s.phase.settled) :
    Retained s := by
  intro x hx hnot
  obtain ⟨j, job, hjob, -, hholds⟩ := htracked x hx
  rw [hsound.settled hsettled job (List.mem_of_getElem? hjob)] at hholds
  exact OrderedMap.mem_of_get (hholds.resolve_left hnot)

variable {control : Control} {lease : Lease} {restored : OrderedMap String String} {is : List Step}

theorem reachable_sound (h : Run.after (step shardOf) (start control lease restored) is = some s) :
    Sound s :=
  Run.after_invariant (fun _ _ _ hs h => step_sound hs h) (start_sound control lease restored) h

theorem undisturbed_retained
    (h : Run.after (step shardOf) (start control lease restored) is = some s)
    (hsettled : s.phase.settled)
    (hnever : Run.Never (step shardOf) (start control lease restored) is (Loses shardOf)) :
      Retained s := by
  have htracked : Sound s ∧ (Distinct s → Tracked s) := by
    refine Run.invariant_along (I := fun s => Sound s ∧ (Distinct s → Tracked s))
      (P := fun _ => True) ?_
      ⟨start_sound control lease restored, fun _ => nofun⟩ h (fun _ _ _ _ _ => trivial) hnever
    rintro u i v ⟨hsound, htracked⟩ hstep - hgood
    refine ⟨step_sound hsound hstep, fun hdistinct => ?_⟩
    have hbefore := step_distinct hsound hstep hdistinct
    exact step_tracked hsound (htracked hbefore) hbefore hstep hgood
  exact (htracked.2 (htracked.1.distinct hsettled)).retained htracked.1 hsettled

variable {u v w : RouteStream}

theorem mem_candidates {uploads : OrderedMap String String} :
    x ∈ candidates uploads ↔ (x.groupID, x.uploadID) ∈ uploads ∧ x.uploadID ≠ "" := by
  unfold candidates
  rw [List.mem_map]
  constructor
  · rintro ⟨entry, hentry, rfl⟩
    obtain ⟨hmem, hid⟩ := List.mem_filter.mp hentry
    exact ⟨hmem, of_decide_eq_true hid⟩
  · rintro ⟨hmem, hid⟩
    exact ⟨(x.groupID, x.uploadID), List.mem_filter.mpr ⟨hmem, decide_eq_true hid⟩, rfl⟩

/-- What is left to do of a cleanup that was called in `u`. -/
def Remaining (u : RouteStream) (aborted : List Upload) : StreamPhase → Prop
  | .cancelling uploads => uploads = u.uploads
  | .aborting pending failed => pending ⊆ candidates u.uploads ∧
    (failed = false → ∀ x ∈ candidates u.uploads, x ∈ pending ∨ x ∈ aborted)
  | .releasing complete | .returned (some complete) =>
      complete = true → ∀ x ∈ candidates u.uploads, x ∈ aborted
  | _ => False

structure Cleaning (u s : RouteStream) : Prop where
  done : ∀ job ∈ s.jobs, job.setup = .done
  created : s.created = u.created
  kept : u.aborted ⊆ s.aborted
  only : ∀ x ∈ s.aborted, x ∈ u.aborted ∨ x ∈ candidates u.uploads
  remaining : Remaining u s.aborted s.phase

theorem mem_of_eraseIdx {pending : List Upload} {k : ℕ} {upload : Upload}
    (hupload : pending[k]? = some upload)
    (hx : x ∈ pending) : x = upload ∨ x ∈ pending.eraseIdx k := by
  obtain ⟨l, hl⟩ := List.getElem?_of_mem hx
  by_cases hlk : l = k
  · subst hlk
    exact .inl (Option.some.inj (hl.symm.trans hupload))
  · exact .inr (List.mem_eraseIdx_iff_getElem?.mpr ⟨l, hlk, hl⟩)

theorem aborted_cleaning {pending : List Upload} {failed : Bool} {k : ℕ} {upload : Upload}
    (hclean : Cleaning u s)
    (ok : Bool) (hphase : s.phase = .aborting pending failed)
    (hupload : pending[k]? = some upload) :
    Cleaning u
      (if ok = true then (s.addAborted upload).setPhase (.aborting (pending.eraseIdx k) failed)
      else s.setPhase (.aborting (pending.eraseIdx k) true)) := by
  have hremaining := hclean.remaining
  rw [hphase] at hremaining
  obtain ⟨hpending, hleft⟩ := hremaining
  have hsub : pending.eraseIdx k ⊆ candidates u.uploads :=
    fun x hx => hpending (List.mem_of_mem_eraseIdx hx)
  have hmem : upload ∈ candidates u.uploads := hpending (List.mem_of_getElem? hupload)
  split
  · refine ⟨hclean.done, hclean.created, fun x hx => List.mem_append_left _ (hclean.kept hx),
      fun x hx => ?_,
      hsub, fun hfailed x hx => ?_⟩
    · rcases List.mem_append.mp hx with hold | hnew
      · exact hclean.only x hold
      · exact .inr (List.mem_singleton.mp hnew ▸ hmem)
    · rcases hleft hfailed x hx with hwaits | hdone
      · rcases mem_of_eraseIdx hupload hwaits with rfl | hwaits
        · exact .inr (List.mem_append_right _ (List.mem_singleton_self _))
        · exact .inl hwaits
      · exact .inr (List.mem_append_left _ hdone)
  · exact ⟨hclean.done, hclean.created, hclean.kept, hclean.only, hsub, nofun⟩

theorem stream_cleaning {input : Input} (hclean : Cleaning u s)
    (h : s.streamRoutes input = some s') :
    Cleaning u s' := by
  have hremaining := hclean.remaining
  unfold streamRoutes at h
  split at h
  all_goals try (rename_i hphase; rw [hphase] at hremaining)
  · exact hremaining.elim
  · exact hremaining.elim
  · exact hremaining.elim
  · exact hremaining.elim
  · exact hremaining.elim
  · exact hremaining.elim
  · exact hremaining.elim
  · -- the transfer is cancelled, or its cancellation failed
    cases h
    obtain rfl : _ = u.uploads := hremaining
    exact ⟨hclean.done, hclean.created, hclean.kept, hclean.only, List.Subset.refl _,
      fun _ _ hx => .inl hx⟩
  · split at h
    · cases h
    · rename_i pending failed k ok _ upload hupload
      rw [← apply_ite some] at h
      cases h
      exact aborted_cleaning hclean ok hphase hupload
  · cases h
    refine ⟨hclean.done, hclean.created, hclean.kept, hclean.only, fun hcomplete x hx => ?_⟩
    exact (hremaining.2 (Bool.not_eq_true' _ |>.mp hcomplete) x hx).resolve_left List.not_mem_nil
  · cases h
    exact ⟨hclean.done, hclean.created, hclean.kept, hclean.only, hremaining⟩
  · cases h

theorem step_cleaning (hclean : Cleaning u s) (h : s.step shardOf i = some s') : Cleaning u s' := by
  cases i with
  | control k =>
    obtain ⟨control, -, rfl⟩ := Option.map_eq_some_iff.mp h
    exact ⟨hclean.done, hclean.created, hclean.kept, hclean.only, hclean.remaining⟩
  | setup j input =>
    obtain ⟨job, hjob, h⟩ := Option.bind_eq_some_iff.mp h
    exact absurd (hclean.done job (List.mem_of_getElem? hjob)) (setup_open h)
  | stream input => exact stream_cleaning hclean h

/-- Once a cleanup has reported that it is complete, every upload the stream created is aborted if
and only if the registry held all of those that were not when the cleanup was called. It did so
unless the lease was disposed before, while the registry held one of them. -/
theorem cleanup_complete_iff {earlier later : List Step}
    (hu : Run.after (step shardOf) (start control lease restored) earlier = some u)
    (hphase : u.phase = .failing)
    (hcall : u.step shardOf (.stream .failed) = some v)
    (hw : Run.after (step shardOf) v later = some w)
    (hcomplete : w.phase = .returned (some true)) :
    ((∀ x ∈ w.created, x ∈ w.aborted) ↔ Retained u) ∧
      (Run.Never (step shardOf) (start control lease restored) earlier (Loses shardOf) →
        Retained u) := by
  have hsound := reachable_sound hu
  have hsettled : u.phase.settled := hphase ▸ trivial
  have hclean : Cleaning u v := by
    simp only [step, streamRoutes, hphase] at hcall
    cases hcall
    exact ⟨hsound.settled hsettled, rfl, List.Subset.refl _, fun _ hx => .inl hx, rfl⟩
  have hend : Cleaning u w := Run.after_invariant (fun _ _ _ hc h => step_cleaning hc h) hclean hw
  have hall : ∀ x ∈ candidates u.uploads, x ∈ w.aborted := by
    have hremaining := hend.remaining
    rw [hcomplete] at hremaining
    exact hremaining rfl
  refine ⟨⟨fun haborted x hx hnot => ?_, fun hretained x hx => ?_⟩,
    undisturbed_retained hu hsettled⟩
  · have hwx := haborted x (hend.created ▸ hx)
    rcases hend.only x hwx with hold | hcandidate
    · exact absurd hold hnot
    · exact (mem_candidates.mp hcandidate).1
  · rw [hend.created] at hx
    by_cases hold : x ∈ u.aborted
    · exact hend.kept hold
    · exact hall x (mem_candidates.mpr ⟨hretained x hx hold, hsound.named x hx⟩)

def sampleShard : String → ℕ := fun _ => 0

def sampleLease : Lease := ⟨0, "transfer", "fingerprint", "checksum", none⟩

def sampleStart : RouteStream := start Control.start sampleLease []

/-- One group is set up, from the creation of its upload to the end of its worker. -/
def sampleSetup : List Step :=
  [.stream (.begin ["group"]), .setup 0 .proceed, .setup 0 (.created "upload")] ++
    List.replicate 5 (.setup 0 .proceed)

def sampleFails : List Step := [.stream .failed, .stream .proceed]

def sampleReleased : List Step := [.control (.releaseLease "transfer" none), .control (.dispose 0)]

theorem sample_leaks : ∃ u v w,
    Run.after (step sampleShard) sampleStart (sampleSetup ++ sampleReleased ++ sampleFails) =
      some u ∧ u.phase = .failing ∧ u.step sampleShard (.stream .failed) = some v ∧
    Run.after (step sampleShard) v (List.replicate 3 (.stream .proceed)) = some w ∧
    w.phase = .returned (some true) ∧ ¬ ∀ x ∈ w.created, x ∈ w.aborted :=
  ⟨_, _, _, rfl, rfl, rfl, rfl, rfl, by decide⟩

instance : (i : Step) → Decidable (Loses shardOf s i)
  | .control k =>
      inferInstanceAs
        (Decidable ((∃ control ∈ s.control.step shardOf k, _ < _) ∧ ∃ x ∈ s.created, _))
  | .setup _ _ | .stream _ => inferInstanceAs (Decidable False)

def sampleCleanup : List Step :=
    [.stream .proceed, .stream (.aborted 0 true), .stream .proceed, .stream .proceed]

theorem sample_cleaned : ∃ u v w,
    Run.after (step sampleShard) sampleStart (sampleSetup ++ sampleFails) = some u ∧
    Run.after (step sampleShard) v sampleCleanup = some w ∧ Retained u ∧
      ∀ x ∈ w.created, x ∈ w.aborted := by
  have hnever : Run.Never (step sampleShard) sampleStart (sampleSetup ++ sampleFails)
      (Loses sampleShard) :=
    Run.never_of_check (by decide)
  obtain ⟨u, v, w, hu, hphase, hcall, hw, hcomplete⟩ : ∃ u v w,
      Run.after (step sampleShard) sampleStart (sampleSetup ++ sampleFails) = some u ∧
        u.phase = .failing ∧
      u.step sampleShard (.stream .failed) = some v ∧
        Run.after (step sampleShard) v sampleCleanup = some w ∧
      w.phase = .returned (some true) := ⟨_, _, _, rfl, rfl, rfl, rfl, rfl⟩
  have hiff := cleanup_complete_iff hu hphase hcall hw hcomplete
  exact ⟨u, v, w, hu, hw, hiff.2 hnever, hiff.1.mpr (hiff.2 hnever)⟩

end RouteStream
end Beam.Go
