import Mathlib.Data.List.Nodup
import BeamSdk.Library.Lists
import BeamSdk.Python.Fence
import BeamSdk.Python.Uploads

/-! What becomes of the uploads that a foreground route stream created. None is lost unless the
foreground task is cancelled while it handles a failure, its lease is taken away, or the plan names
a group twice. -/

namespace Beam.Python

def StreamPhase.handling : StreamPhase → Bool
  | .aborting _ | .gathering _ | .settling _ _ | .cancelling | .cleaning _ _ => true
  | .beginning | .streaming | .manifest _ | .completing | .ended _ => false

def StreamPhase.cleans : StreamPhase → Bool
  | .cancelling | .cleaning _ _ | .ended (.failed _) => true
  | _ => false

namespace RouteStream
variable {s s' : RouteStream} {i : Step} {j k : ℕ} {task : GroupTask} {setup : Setup} {x : Upload}
  {phase : StreamPhase}

def Over (s : RouteStream) : Prop := (∃ ending, s.phase = .ended ending) ∧ s.settled ∧
    s.abandoned = []

/-- The upload is aborted, is left to a recovery, or is reported with the error of the call. -/
def Kept (s : RouteStream) (x : Upload) : Prop :=
  x ∈ s.aborted ∨ (s.uploads.get x.groupID = some x.uploadID ∧ s.leased ∧ s.continued = true) ∨
    s.phase = .ended (.failed true)

def Lossless (s : RouteStream) : Prop :=
  s.Over → s.fenced = false → s.phase ≠ .ended .accepted → ∀ x ∈ s.created, s.Kept x

/-- An upload that the stream created is not aborted, or one may still be created. -/
def Open (s : RouteStream) : Prop := s.phase = .beginning ∨ ¬ s.settled ∨
    ∃ x ∈ s.created, x ∉ s.aborted

/-- The foreground task is cancelled while it handles a failure, or its lease is taken away, with
an upload open; or the plan names a group twice. -/
def Loses (s : RouteStream) (i : Step) : Prop :=
  s.fenced = false ∧
    match i with
    | .control i =>
        s.Open ∧ s.leased ∧ ∃ control ∈ s.control.step i, control.recoveryLease ≠ some s.lease
    | .stream (.begin groupIDs) => ¬ groupIDs.Nodup
    | .cancel => s.Open ∧ s.phase.handling = true
    | _ => False

/-- What `multipart_uploads` says of a group's upload while it is set up. -/
def Held (uploads : OrderedMap String String) (task : GroupTask) : Prop :=
  match task.setup with
  | .creating _ => uploads.get task.groupID = none
  | .signing uploadID _ | .publishing uploadID _ | .aborting uploadID _ _ =>
      uploads.get task.groupID = some uploadID
  | .waiting | .ready | .failed | .cancelled => True

def Retained (s : RouteStream) : Prop := ∀ x ∈ s.created, x ∈ s.aborted ∨
    s.uploads.get x.groupID = some x.uploadID

structure Worked (s : RouteStream) (j : ℕ) (task : GroupTask) (s' : RouteStream)
    (setup : Setup) : Prop where
  groups : s'.groups = s.groups.modify j fun task => { task with setup := setup }
  phase : s'.phase = s.phase
  control : s'.control = s.control ∧ s'.lease = s.lease
  continued : s'.continued = s.continued
  abandoned : s'.abandoned = s.abandoned
  next : s.next ≤ s'.next ∧ j < s'.next
  uploads : ∀ groupID, groupID ≠ task.groupID → s'.uploads.get groupID = s.uploads.get groupID
  held : Held s'.uploads { task with setup := setup }
  retained : Retained s → Retained s'
  named : (∀ x ∈ s.created, x.uploadID ≠ "") → ∀ x ∈ s'.created, x.uploadID ≠ ""

theorem worked_of_setup {workers : ℕ} (hj : j < s.next)
    (hheld : Held s.uploads { task with setup := setup }) :
    Worked s j task { s.setSetup j setup with workers := workers } setup :=
  ⟨rfl, rfl, ⟨rfl, rfl⟩, rfl, rfl, ⟨Nat.le_refl _, hj⟩, fun _ _ => rfl, hheld, fun h =>
    h, fun h => h⟩

theorem worked_of_uploads {uploads : OrderedMap String String} (hj : j < s.next)
    (hothers : ∀ groupID, groupID ≠ task.groupID → uploads.get groupID = s.uploads.get groupID)
    (hheld : Held uploads { task with setup := setup })
    (hretained : Retained s → Retained ((s.setUploads uploads).setSetup j setup)) :
    Worked s j task ((s.setUploads uploads).setSetup j setup) setup :=
  ⟨rfl, rfl, ⟨rfl, rfl⟩, rfl, rfl, ⟨Nat.le_refl _, hj⟩, hothers, hheld, hretained, fun h => h⟩

theorem worked_of_created {uploadID : String} (hj : j < s.next)
    (hnone : s.uploads.get task.groupID = none)
    (hid : uploadID ≠ "") :
    Worked s j task
      (((s.addCreated ⟨task.groupID, uploadID⟩).setUploads
        (s.uploads.set task.groupID uploadID)).setSetup
      j (.signing uploadID true)) (.signing uploadID true) where
  groups := rfl
  phase := rfl
  control := ⟨rfl, rfl⟩
  continued := rfl
  abandoned := rfl
  next := ⟨Nat.le_refl _, hj⟩
  uploads := fun _ hne => OrderedMap.get_set_of_ne _ hne _
  held := OrderedMap.get_set_self _ _ _
  retained := by
    intro hretained x hx
    rcases List.mem_append.mp hx with hold | hnew
    · refine (hretained x hold).imp_right fun hget => ?_
      have hne : x.groupID ≠ task.groupID := by
        intro hsame
        rw [hsame, hnone] at hget
        cases hget
      exact (OrderedMap.get_set_of_ne _ hne _).trans hget
    · obtain rfl := List.mem_singleton.mp hnew
      exact .inr (OrderedMap.get_set_self _ _ _)
  named := by
    intro hnamed x hx
    rcases List.mem_append.mp hx with hold | hnew
    · exact hnamed x hold
    · obtain rfl := List.mem_singleton.mp hnew
      exact hid

theorem worked_of_aborted {uploadID : String} {workers : ℕ} (hj : j < s.next)
    (hget : s.uploads.get task.groupID = some uploadID)
    (hheld : ∀ uploads, Held uploads { task with setup := setup }) :
    Worked s j task { ((s.addAborted ⟨task.groupID, uploadID⟩).setUploads
      (s.uploads.delete task.groupID)).setSetup j
      setup with workers := workers } setup where
  groups := rfl
  phase := rfl
  control := ⟨rfl, rfl⟩
  continued := rfl
  abandoned := rfl
  next := ⟨Nat.le_refl _, hj⟩
  uploads := fun _ hne => OrderedMap.get_delete_of_ne _ hne
  held := hheld _
  retained := by
    intro hretained x hx
    rcases hretained x hx with haborted | hrecorded
    · exact .inl (List.mem_append_left _ haborted)
    · by_cases hsame : x.groupID = task.groupID
      · have hid : x.uploadID = uploadID := by
          rw [hsame, hget] at hrecorded
          exact (Option.some.inj hrecorded).symm
        refine .inl (List.mem_append_right _ (List.mem_singleton.mpr ?_))
        rw [← hsame, ← hid]
      · exact .inr ((OrderedMap.get_delete_of_ne _ hsame).trans hrecorded)
  named := fun h => h

theorem worked_of_fails {uploadID : String} {created : Bool} (hj : j < s.next)
    (hget : s.uploads.get task.groupID = some uploadID) : ∃ setup,
      Worked s j task (s.fails j uploadID created) setup := by
  unfold fails
  split
  · exact ⟨_, worked_of_setup hj hget⟩
  · exact ⟨_, worked_of_setup hj trivial⟩

theorem createGroup_worked {input : SetupInput} (hfenced : s.fenced = false) (hj : j < s.next)
    (hheld : Held s.uploads task) (h : s.createGroup j task input = some s') : ∃ setup,
      Worked s j task s' setup := by
  unfold createGroup at h
  unfold Held at hheld
  split at h
  · rename_i hsetup
    rw [hsetup] at hheld
    cases h
    exact ⟨_, worked_of_setup hj hheld⟩
  · rename_i hsetup
    rw [hsetup] at hheld
    split at h
    · cases h
      exact ⟨_, worked_of_setup hj trivial⟩
    · rename_i hid
      cases h
      exact ⟨_, worked_of_created hj hheld hid⟩
  · cases h
    exact ⟨_, worked_of_setup hj trivial⟩
  · -- the upload is recorded again, with its manifest
    rename_i uploadID created hsetup
    rw [hsetup] at hheld
    cases h
    have hsame : ∀ groupID, (s.uploads.set task.groupID uploadID).get groupID =
        s.uploads.get groupID := by
      intro groupID
      by_cases hid : groupID = task.groupID
      · rw [hid, OrderedMap.get_set_self]
        exact hheld.symm
      · exact OrderedMap.get_set_of_ne _ hid _
    rw [hfenced]
    refine ⟨_, worked_of_uploads hj (fun _ _ => hsame _)
      (OrderedMap.get_set_self _ _ _) fun hretained x hx => ?_⟩
    exact (hretained x hx).imp_right fun hget => (hsame _).trans hget
  · cases h
    exact ⟨_, worked_of_setup hj trivial⟩
  · rename_i hsetup
    rw [hsetup] at hheld
    cases h
    exact worked_of_fails hj hheld
  · rename_i hsetup
    rw [hsetup] at hheld
    cases h
    exact worked_of_fails hj hheld
  · rename_i hsetup
    rw [hsetup] at hheld
    cases h
    exact ⟨_, worked_of_setup hj hheld⟩
  · rename_i cancelled hsetup
    rw [hsetup] at hheld
    cases h
    cases cancelled with
    | true => exact ⟨_, worked_of_aborted hj hheld fun _ => trivial⟩
    | false => exact ⟨_, worked_of_aborted hj hheld fun _ => trivial⟩
  · cases h
    exact ⟨_, worked_of_setup hj trivial⟩
  · cases h

theorem takeGroup_worked (hfenced : s.fenced = false) :
    ∃ setup, Worked s s.next task (s.takeGroup task) setup := by
  have hnot : ¬ s.fenced = true := by
    rw [hfenced]
    nofun
  unfold takeGroup
  dsimp only
  rw [if_neg hnot]
  have hworked {setup : Setup} (hheld : Held s.uploads { task with setup := setup }) :
      Worked s s.next task
        ({ s with next := s.next + 1, workers := s.workers - 1 }.setSetup s.next setup) setup :=
    ⟨rfl, rfl, ⟨rfl, rfl⟩, rfl, rfl, ⟨Nat.le_succ _, Nat.lt_succ_self _⟩, fun _ _ =>
      rfl, hheld, fun h => h, fun h => h⟩
  cases hget : s.uploads.get task.groupID with
  | some uploadID =>
    refine ⟨.signing uploadID false, hworked ?_⟩
    exact hget
  | none =>
    refine ⟨.creating false, hworked ?_⟩
    exact hget

theorem Worked.self (hworked : Worked s j task s' setup) (htask : s.groups[j]? = some task) :
    s'.groups[j]? = some { task with setup := setup } := by
  rw [hworked.groups, List.getElem?_modify_eq, htask]
  rfl

theorem Worked.other (hworked : Worked s j task s' setup) (hk : k ≠ j) :
    s'.groups[k]? = s.groups[k]? := by
  rw [hworked.groups, List.getElem?_modify_ne _ _ hk.symm]

theorem Worked.groupIDs (hworked : Worked s j task s' setup) :
    s'.groups.map GroupTask.groupID = s.groups.map GroupTask.groupID := by
  rw [hworked.groups]
  exact map_modify fun _ => rfl

structure Sound (s : RouteStream) : Prop where
  distinct : (s.groups.map GroupTask.groupID).Nodup
  fresh : ∀ k task, s.next ≤ k → s.groups[k]? = some task → task.setup = .waiting
  held : ∀ task ∈ s.groups, Held s.uploads task
  named : ∀ x ∈ s.created, x.uploadID ≠ ""
  jobs : ∀ job ∈ s.abandoned, ∃ upload, job = .abort upload
  ready : ∀ cancelled, s.phase = .manifest cancelled → ∀ task ∈ s.groups, task.setup = .ready
  settled : s.phase.cleans = true → s.settled

theorem Sound.ne {other : GroupTask} (hsound : Sound s) (htask : s.groups[j]? = some task)
    (hother : s.groups[k]? = some other)
    (hk : k ≠ j) : other.groupID ≠ task.groupID := by
  intro hsame
  have hlt : k < (s.groups.map GroupTask.groupID).length := by
    rw [List.length_map]
    exact (List.getElem?_eq_some_iff.mp hother).1
  refine hk ((List.getElem?_inj hlt hsound.distinct).mp ?_)
  rw [List.getElem?_map, List.getElem?_map, htask, hother, Option.map_some, Option.map_some, hsame]

theorem Sound.frame (hsound : Sound s) (hgroups : s'.groups = s.groups) (hnext : s'.next = s.next)
    (hheld : ∀ task ∈ s.groups, Held s'.uploads task) (hcreated : s'.created = s.created)
    (habandoned : ∀ job ∈ s'.abandoned, job ∈ s.abandoned ∨ ∃ upload, job = .abort upload)
    (hready : ∀ cancelled, s'.phase = .manifest cancelled → ∀ task ∈ s.groups, task.setup = .ready)
    (hsettled : s'.phase.cleans = true → s'.settled) : Sound s' := by
  refine ⟨hgroups ▸ hsound.distinct, hgroups ▸ hnext ▸ hsound.fresh, hgroups ▸ hheld,
    hcreated ▸ hsound.named, ?_,
    hgroups ▸ hready, hsettled⟩
  intro job hjob
  exact (habandoned job hjob).elim (hsound.jobs job) fun h => h

theorem Sound.setPhase (hsound : Sound s)
    (hready : ∀ cancelled, phase = .manifest cancelled → ∀ task ∈ s.groups, task.setup = .ready)
    (hsettled : phase.cleans = true → s.settled) : Sound (s.setPhase phase) :=
  hsound.frame rfl rfl hsound.held rfl (fun _ h => .inl h) hready hsettled

theorem worked_sound (hsound : Sound s) (htask : s.groups[j]? = some task)
    (hsetup : task.setup ≠ .ready)
    (hphase : s.phase.cleans = false) (hworked : Worked s j task s' setup) : Sound s' where
  distinct := hworked.groupIDs ▸ hsound.distinct
  fresh := by
    intro k other hk hother
    have hne : k ≠ j := by
      have := hworked.next
      omega
    rw [hworked.other hne] at hother
    exact hsound.fresh k other (Nat.le_trans hworked.next.1 hk) hother
  held := by
    intro other hother
    obtain ⟨k, hk⟩ := List.mem_iff_getElem?.mp hother
    by_cases hkj : k = j
    · subst hkj
      obtain rfl := Option.some.inj ((hworked.self htask).symm.trans hk)
      exact hworked.held
    · rw [hworked.other hkj] at hk
      have hheld := hsound.held other (List.mem_of_getElem? hk)
      have hget := hworked.uploads other.groupID (hsound.ne htask hk hkj)
      unfold Held at hheld ⊢
      rw [hget]
      exact hheld
  named := hworked.named hsound.named
  jobs := hworked.abandoned ▸ hsound.jobs
  ready := by
    intro cancelled hmanifest
    rw [hworked.phase] at hmanifest
    exact absurd (hsound.ready cancelled hmanifest task (List.mem_of_getElem? htask)) hsetup
  settled := by
    intro hcleans
    rw [hworked.phase, hphase] at hcleans
    cases hcleans

theorem createGroup_awaits {input : SetupInput} (h : s.createGroup j task input = some s') :
    task.setup.awaits = true := by
  unfold createGroup at h
  split at h
  all_goals try (rename_i hsetup; rw [hsetup]; rfl)
  cases h

theorem not_open_iff : ¬ s.Open ↔ s.phase ≠ .beginning ∧ s.settled ∧
    ∀ x ∈ s.created, x ∈ s.aborted := by
  unfold Open
  push Not
  rfl

theorem not_open_mono (hopen : ¬ s.Open) (hphase : s'.phase ≠ .beginning) (hsettled : s'.settled)
    (hcreated : s'.created = s.created) (haborted : s.aborted ⊆ s'.aborted) : ¬ s'.Open := by
  obtain ⟨-, -, hall⟩ := not_open_iff.mp hopen
  refine not_open_iff.mpr ⟨hphase, hsettled, fun x hx => haborted (hall x ?_)⟩
  exact hcreated ▸ hx

theorem settled_of_same (hgroups : s'.groups = s.groups) (hnext : s'.next = s.next)
    (hworkers : s'.workers = s.workers)
    (hsettled : s.settled) : s'.settled := by
  unfold settled
  rw [hgroups, hnext, hworkers]
  exact hsettled

theorem cancelManifest_idle (hidle : ∀ task ∈ s.groups, task.setup.awaits = false) :
    s.cancelManifest = { s with workers := 0 } := by
  have hcancel : ∀ task ∈ s.groups, task.cancel s.fenced = task ∧ task.abandons = [] := by
    intro task htask
    obtain ⟨groupID, setup⟩ := task
    have hsetup : setup.awaits = false := hidle _ htask
    cases setup with
    | waiting | ready | failed | cancelled => exact ⟨rfl, rfl⟩
    | creating _ | signing _ _ | publishing _ _ | aborting _ _ _ => cases hsetup
  have hgroups : (s.groups.map fun task => task.cancel s.fenced) = s.groups :=
    (List.map_congr_left fun task htask => (hcancel task htask).1).trans (List.map_id _)
  have habandons : s.groups.flatMap GroupTask.abandons = [] :=
    List.flatMap_eq_nil_iff.mpr fun task htask => (hcancel task htask).2
  rw [cancelManifest, hgroups, habandons, List.append_nil]

/-- What of the uploads holds in a phase; a call that ends otherwise has lost some. -/
def Safe (s : RouteStream) : StreamPhase → Prop
  | .beginning | .streaming | .manifest _ | .completing | .aborting _ | .gathering (some _) |
      .settling (some _) false =>
    s.leased ∧ Retained s
  | .cancelling => Retained s
  | .cleaning uploads failed =>
      failed = true ∨ ∀ x ∈ s.created, x ∈ s.aborted ∨ x ∈ uploads.map Prod.fst
  | .ended .stopped | .ended .pending => (s.leased ∧ Retained s) ∧ s.continued = true
  | .ended (.failed cleanupError) => cleanupError = true ∨ ∀ x ∈ s.created, x ∈ s.aborted
  | .ended .accepted => True
  | .gathering none | .settling none _ | .settling (some _) true | .ended .fenced |
      .ended .cancelled => False

theorem Safe.mono (hsafe : s.Safe phase) (hleased : s.leased → s'.leased)
    (hretained : Retained s → Retained s')
    (hcontinued : s'.continued = s.continued)
    (hcleans : phase.cleans = true → s'.created = s.created ∧ s.aborted ⊆ s'.aborted) :
      s'.Safe phase := by
  unfold Safe at hsafe ⊢
  split
  all_goals try exact hsafe.imp hleased hretained
  · exact hretained hsafe
  · obtain ⟨hcreated, haborted⟩ := hcleans rfl
    exact hsafe.imp_right fun hall x hx => (hall x (hcreated ▸ hx)).imp_left fun h => haborted h
  · rw [hcontinued]
    exact hsafe.imp_left fun h => h.imp hleased hretained
  · rw [hcontinued]
    exact hsafe.imp_left fun h => h.imp hleased hretained
  · obtain ⟨hcreated, haborted⟩ := hcleans rfl
    exact hsafe.imp_right fun hall x hx => haborted (hall x (hcreated ▸ hx))
  all_goals exact hsafe

def Invariant (s : RouteStream) : Prop := s.fenced = true ∨ Sound s ∧ (¬ s.Open ∨ s.Safe s.phase)

theorem worked_invariant (hsound : Sound s) (hsafe : ¬ s.Open ∨ s.Safe s.phase)
    (htask : s.groups[j]? = some task)
    (hsetup : task.setup ≠ .ready) (hunsettled : ¬ s.settled) (hworked : Worked s j task s' setup) :
      Invariant s' := by
  have hcleans : s.phase.cleans = false := by
    by_contra hcleans
    exact hunsettled (hsound.settled (Bool.not_eq_false _ ▸ hcleans))
  have hopen : s.Open := .inr (.inl hunsettled)
  have hbefore := hsafe.resolve_left fun h => h hopen
  have hafter : s'.Safe s.phase := by
    refine hbefore.mono (fun h => ?_) hworked.retained hworked.continued fun h => ?_
    · unfold leased
      rw [hworked.control.1, hworked.control.2]
      exact h
    · rw [hcleans] at h
      cases h
  exact .inr ⟨worked_sound hsound htask hsetup hcleans hworked, .inr (hworked.phase ▸ hafter)⟩

structure Framed (s s' : RouteStream) : Prop where
  fenced : s'.fenced = s.fenced
  created : s'.created = s.created
  aborted : s.aborted ⊆ s'.aborted
  abandoned : s'.abandoned = s.abandoned
  phase : s'.phase ≠ .beginning
  tasks : s.phase = .beginning ∨ s'.groups = s.groups ∧ s'.next = s.next ∧ s'.workers = s.workers

theorem framed_setPhase (hphase : phase ≠ .beginning) : Framed s (s.setPhase phase) :=
  ⟨rfl, rfl, List.Subset.refl _, rfl, hphase, .inr ⟨rfl, rfl, rfl⟩⟩

theorem framed_handle (failure : Failure) : Framed s (s.handle failure) := by
  unfold handle
  split
  · exact ⟨rfl, rfl, List.Subset.refl _, rfl, nofun, .inr ⟨rfl, rfl, rfl⟩⟩
  · exact framed_setPhase nofun

theorem framed_handled (id : String) (failure : Option Failure) :
    Framed s (s.handled id failure) := by
  match failure with
  | none => exact framed_setPhase nofun
  | some .stopped => exact ⟨rfl, rfl, List.Subset.refl _, rfl, nofun, .inr ⟨rfl, rfl, rfl⟩⟩
  | some .recoverable => exact ⟨rfl, rfl, List.Subset.refl _, rfl, nofun, .inr ⟨rfl, rfl, rfl⟩⟩
  | some .failed => exact framed_setPhase nofun

theorem stream_framed {input : Input} (h : s.streamPreparedRoutes input = some s') :
    Framed s s' := by
  unfold streamPreparedRoutes at h
  split at h
  · rename_i hbeginning
    cases h
    exact ⟨rfl, rfl, List.Subset.refl _, rfl, nofun, .inl hbeginning⟩
  · cases h
    exact framed_handle _
  · cases h
    exact framed_handle _
  · cases h
    exact framed_handle _
  · split at h
    · cases h
      exact framed_setPhase nofun
    · cases h
  · split at h
    · split at h
      · cases h
        exact framed_handle _
      · split at h
        · cases h
          exact framed_setPhase nofun
        · cases h
    · cases h
  · split at h
    · cases h
      exact framed_handle _
    · cases h
  · cases h
    exact framed_setPhase nofun
  · cases h
    exact framed_setPhase nofun
  · cases h
    exact framed_setPhase nofun
  · split at h
    · cases h
      split
      · exact framed_setPhase nofun
      · exact framed_handled _ _
    · cases h
  · cases h
    exact framed_setPhase nofun
  · cases h
    exact framed_setPhase nofun
  · split at h
    · cases h
    · split at h
      · split at h
        · cases h
          exact ⟨rfl, rfl, List.subset_append_left _ _, rfl, nofun, .inr ⟨rfl, rfl, rfl⟩⟩
        · cases h
      · cases h
        exact framed_setPhase nofun
  · cases h
    exact ⟨rfl, rfl, List.Subset.refl _, rfl, nofun, .inr ⟨rfl, rfl, rfl⟩⟩
  · cases h

theorem stream_not_open {input : Input} (hopen : ¬ s.Open)
    (h : s.streamPreparedRoutes input = some s') : ¬ s'.Open := by
  have hframed := stream_framed h
  obtain ⟨hbeginning, hsettled, -⟩ := not_open_iff.mp hopen
  obtain ⟨hgroups, hnext, hworkers⟩ := hframed.tasks.resolve_left hbeginning
  exact not_open_mono hopen hframed.phase (settled_of_same hgroups hnext hworkers hsettled)
    hframed.created hframed.aborted

theorem handle_of_owner (hfenced : s.fenced = false) (failure : Failure) :
    s.handle failure = s.setPhase (.aborting failure) := by
  have hnot : ¬ s.fenced = true := by
    rw [hfenced]
    nofun
  exact if_neg hnot

theorem mem_candidates : x ∈ s.candidates ↔ (x.groupID, x.uploadID) ∈ s.uploads ∧
    x.uploadID ≠ "" := by
  unfold candidates
  rw [List.mem_map]
  constructor
  · rintro ⟨entry, hentry, rfl⟩
    obtain ⟨hmem, hid⟩ := List.mem_filter.mp hentry
    exact ⟨hmem, of_decide_eq_true hid⟩
  · rintro ⟨hmem, hid⟩
    exact ⟨(x.groupID, x.uploadID), List.mem_filter.mpr ⟨hmem, decide_eq_true hid⟩, rfl⟩

theorem leased_continue (id : String) (hleased : s.leased) : (s.continueLease id).leased ∧
    (s.continueLease id).continued = true := by
  refine ⟨(Control.lease_continue id).trans hleased, ?_⟩
  show (s.continued || decide s.leased) = true
  rw [decide_eq_true hleased, Bool.or_true]

theorem stream_invariant {input : Input} (hfenced : s.fenced = false)
    (hgood : ∀ groupIDs, input = .begin groupIDs → groupIDs.Nodup) (hsound : Sound s)
    (hsafe : ¬ s.Open ∨ s.Safe s.phase)
    (h : s.streamPreparedRoutes input = some s') : Sound s' ∧ (¬ s'.Open ∨ s'.Safe s'.phase) := by
  suffices hsuffices : Sound s' ∧ (s.Safe s.phase → s'.Safe s'.phase) from
    ⟨hsuffices.1, hsafe.imp (fun hopen => stream_not_open hopen h) hsuffices.2⟩
  have hmove {phase : StreamPhase}
      (hready : ∀ cancelled, phase = .manifest cancelled → ∀ task ∈ s.groups, task.setup = .ready)
      (hsettled : phase.cleans = true → s.settled) (hsafe : s.Safe s.phase → s.Safe phase) :
      Sound (s.setPhase phase) ∧
        (s.Safe s.phase → (s.setPhase phase).Safe (s.setPhase phase).phase) :=
    ⟨hsound.setPhase hready hsettled, hsafe⟩
  have hhandle (failure : Failure) (hsafe : s.Safe s.phase → s.leased ∧ Retained s) :
      Sound (s.handle failure) ∧
        (s.Safe s.phase → (s.handle failure).Safe (s.handle failure).phase) := by
    rw [handle_of_owner hfenced]
    exact hmove nofun nofun hsafe
  have hdone := hsound.settled
  unfold streamPreparedRoutes at h
  split at h
  · -- the groups of the plan
    rename_i groupIDs hphase
    cases h
    have hwaiting : ∀ task ∈ groupIDs.map fun groupID =>
        (⟨groupID, .waiting⟩ : GroupTask), task.setup = .waiting := by
      intro task htask
      obtain ⟨groupID, -, rfl⟩ := List.mem_map.mp htask
      rfl
    refine ⟨⟨?_, fun k task _ htask => hwaiting task (List.mem_of_getElem? htask),
      fun task htask => ?_, hsound.named,
      hsound.jobs, nofun, nofun⟩, fun hsafe => ?_⟩
    · show ((groupIDs.map _).map GroupTask.groupID).Nodup
      rw [List.map_map]
      exact (List.map_id groupIDs).symm ▸ hgood groupIDs rfl
    · unfold Held
      rw [hwaiting task htask]
      trivial
    · rw [hphase] at hsafe
      exact hsafe
  · rename_i hphase
    cases h
    exact hhandle _ (by rw [hphase]; exact fun h => h)
  · rename_i hphase
    cases h
    exact hhandle _ (by rw [hphase]; exact fun h => h)
  · rename_i hphase
    cases h
    exact hhandle _ (by rw [hphase]; exact fun h => h)
  · -- with names of their own, the groups waited for are all of them
    rename_i hphase
    split at h
    · rename_i hready
      cases h
      refine hmove (fun _ _ task htask => ?_) nofun (by rw [hphase]; exact fun h => h)
      obtain ⟨other, hother, hid, hsetup⟩ := hready task htask
      obtain ⟨j, hj⟩ := List.mem_iff_getElem?.mp htask
      obtain ⟨k, hk⟩ := List.mem_iff_getElem?.mp hother
      by_cases hkj : k = j
      · rw [hkj, hj] at hk
        exact (Option.some.inj hk).symm ▸ hsetup
      · exact absurd hid (hsound.ne hj hk hkj)
    · cases h
  · rename_i hphase
    split at h
    · split at h
      · cases h
        exact hhandle _ (by rw [hphase]; exact fun h => h)
      · split at h
        · cases h
          exact hmove nofun nofun (by rw [hphase]; exact fun h => h)
        · cases h
    · cases h
  · rename_i hphase
    split at h
    · cases h
      exact hhandle _ (by rw [hphase]; exact fun h => h)
    · cases h
  · cases h
    exact hmove nofun nofun fun _ => trivial
  · rename_i hphase
    cases h
    exact hmove nofun nofun (by rw [hphase]; exact fun h => h)
  · rename_i failure _ hphase
    cases h
    refine hmove nofun nofun ?_
    rw [hphase]
    cases failure with
    | none => exact fun h => h
    | some failure => exact fun h => h
  · rename_i failure cancelled id hphase
    split at h
    · rename_i hsettled
      cases h
      rw [hphase]
      match cancelled, failure with
      | true, none | true, some _ => exact ⟨hsound.setPhase nofun nofun, fun h => h.elim⟩
      | false, none => exact ⟨hsound.setPhase nofun nofun, fun h => h.elim⟩
      | false, some .stopped | false, some .recoverable =>
        refine ⟨hsound.frame rfl rfl hsound.held rfl (fun _ h => .inl h) nofun nofun,
          fun hsafe => ?_⟩
        obtain ⟨hleased, hcontinued⟩ := leased_continue id hsafe.1
        exact ⟨⟨hleased, hsafe.2⟩, hcontinued⟩
      | false, some .failed => exact ⟨hsound.setPhase nofun fun _ => hsettled, fun hsafe => hsafe.2⟩
    · cases h
  · -- what is recorded is to be aborted
    rename_i hphase
    cases h
    refine hmove nofun (fun _ => hdone (by rw [hphase]; rfl)) ?_
    rw [hphase]
    refine fun hretained => .inr fun x hx => (hretained x hx).imp_right fun hget => ?_
    rw [List.map_map]
    have hmem : x ∈ s.candidates :=
      mem_candidates.mpr ⟨OrderedMap.mem_of_get hget, hsound.named x hx⟩
    exact List.mem_map.mpr ⟨x, hmem, rfl⟩
  · rename_i uploads failed i hphase
    cases h
    refine hmove nofun (fun _ => hdone (by rw [hphase]; rfl)) ?_
    rw [hphase]
    have hsame : (uploads.modify i fun entry => (entry.1, true)).map Prod.fst =
        uploads.map Prod.fst :=
      map_modify fun _ => rfl
    refine Or.imp_right fun hall x hx => (hall x hx).imp_right fun hmem => ?_
    exact hsame ▸ hmem
  · rename_i uploads failed i ok hphase
    have hsettled : s.settled := hdone (by rw [hphase]; rfl)
    split at h
    · cases h
    · rename_i upload running hentry
      split at h
      · split at h
        · cases h
          have hheld (uploads : OrderedMap String String) : ∀ task ∈ s.groups,
              Held uploads task := by
            intro task htask
            have hidle := hsettled.1 task htask
            unfold Held
            split
            all_goals first | trivial | (rename_i hsetup; rw [hsetup] at hidle; cases hidle)
          refine ⟨hsound.frame rfl rfl (hheld _) rfl (fun _ h => .inl h) nofun fun _ =>
            hsettled, ?_⟩
          rw [hphase]
          refine Or.imp_right fun hall x hx => ?_
          rcases hall x hx with haborted | hmem
          · exact .inl (List.mem_append_left _ haborted)
          · obtain ⟨entry, hentry', rfl⟩ := List.mem_map.mp hmem
            rcases mem_or_mem_eraseIdx hentry hentry' with rfl | hrest
            · exact .inl (List.mem_append_right _ (List.mem_singleton.mpr rfl))
            · exact .inr (List.mem_map.mpr ⟨entry, hrest, rfl⟩)
        · cases h
      · cases h
        exact hmove nofun (fun _ => hsettled) fun _ => .inl rfl
  · -- every abort has ended
    rename_i failed _ hphase
    cases h
    have hsettled : s.settled := hdone (by rw [hphase]; rfl)
    refine ⟨hsound.frame rfl rfl hsound.held rfl (fun _ h => .inl h) nofun fun _ => hsettled, ?_⟩
    rw [hphase]
    refine Or.imp_right fun hall x hx => (hall x hx).resolve_right ?_
    exact List.not_mem_nil
  · cases h

theorem cancel_invariant (hfenced : s.fenced = false) (hgood : s.phase.handling = true → ¬ s.Open)
    (hsound : Sound s)
    (hsafe : ¬ s.Open ∨ s.Safe s.phase) (h : s.cancel = some s') : Sound s' ∧
      (¬ s'.Open ∨ s'.Safe s'.phase) := by
  have hhandle (hnot : ¬ s.Open → s.phase ≠ .beginning → ¬ (s.handle .stopped).Open)
      (hsafe' : s.Safe s.phase → s.leased ∧ Retained s) :
      Sound (s.handle .stopped) ∧
        (¬ (s.handle .stopped).Open ∨ (s.handle .stopped).Safe (s.handle .stopped).phase) := by
    rw [handle_of_owner hfenced] at hnot ⊢
    refine ⟨hsound.setPhase nofun nofun, hsafe.imp (fun hopen => ?_) hsafe'⟩
    exact hnot hopen (not_open_iff.mp hopen).1
  have hnot : ¬ s.Open → s.phase ≠ .beginning → ¬ (s.handle .stopped).Open := by
    intro hopen hbeginning
    have hframed : Framed s (s.handle .stopped) := framed_handle _
    obtain ⟨hgroups, hnext, hworkers⟩ := hframed.tasks.resolve_left hbeginning
    have hsettled := settled_of_same hgroups hnext hworkers (not_open_iff.mp hopen).2.1
    exact not_open_mono hopen hframed.phase hsettled hframed.created hframed.aborted
  unfold cancel at h
  split at h
  · rename_i hphase
    cases h
    exact hhandle hnot (by rw [hphase]; exact fun h => h)
  · rename_i hphase
    cases h
    exact hhandle hnot (by rw [hphase]; exact fun h => h)
  · rename_i hphase
    cases h
    exact hhandle hnot (by rw [hphase]; exact fun h => h)
  · -- every group is ready
    rename_i cancelled hphase
    cases h
    have hready := hsound.ready cancelled hphase
    have hidle : ∀ task ∈ s.groups, task.setup.awaits = false := by
      intro task htask
      rw [hready task htask]
      rfl
    rw [cancelManifest_idle hidle]
    refine ⟨hsound.frame rfl rfl hsound.held rfl (fun _ h => .inl h) (fun _ _ => hready) nofun,
      hsafe.imp ?_ ?_⟩
    · exact fun hopen => not_open_mono hopen nofun ⟨hidle, .inl rfl⟩ rfl (List.Subset.refl _)
    · rw [hphase]
      exact fun h => h
  · rename_i hphase
    have hopen := hgood (by rw [hphase]; rfl)
    cases h
    refine ⟨hsound.setPhase nofun nofun, .inl ?_⟩
    exact not_open_mono hopen nofun (not_open_iff.mp hopen).2.1 rfl (List.Subset.refl _)
  · rename_i hphase
    have hopen := hgood (by rw [hphase]; rfl)
    cases h
    refine ⟨hsound.setPhase nofun nofun, .inl ?_⟩
    exact not_open_mono hopen nofun (not_open_iff.mp hopen).2.1 rfl (List.Subset.refl _)
  · rename_i hphase
    have hopen := hgood (by rw [hphase]; rfl)
    have hidle := (not_open_iff.mp hopen).2.1.1
    cases h
    rw [cancelManifest_idle hidle]
    refine ⟨hsound.frame rfl rfl hsound.held rfl (fun _ h => .inl h) nofun nofun, .inl ?_⟩
    exact not_open_mono hopen nofun ⟨hidle, .inl rfl⟩ rfl (List.Subset.refl _)
  · rename_i hphase
    have hopen := hgood (by rw [hphase]; rfl)
    cases h
    refine ⟨hsound.frame rfl rfl hsound.held rfl (fun _ h => .inl h) nofun nofun, .inl ?_⟩
    exact not_open_mono hopen nofun (not_open_iff.mp hopen).2.1 rfl (List.Subset.refl _)
  · -- the aborts that run go on
    rename_i hphase
    have hopen := hgood (by rw [hphase]; rfl)
    cases h
    refine ⟨hsound.frame rfl rfl hsound.held rfl (fun job hjob => ?_) nofun nofun, .inl ?_⟩
    · refine (List.mem_append.mp hjob).imp_right fun hrunning => ?_
      obtain ⟨entry, -, rfl⟩ := List.mem_map.mp hrunning
      exact ⟨_, rfl⟩
    · exact not_open_mono hopen nofun (not_open_iff.mp hopen).2.1 rfl (List.Subset.refl _)
  · cases h

theorem jobEnds_invariant {k : ℕ} {job : Job} {result : JobResult}
    (hjob : s.abandoned[k]? = some job) (hsound : Sound s)
    (hsafe : ¬ s.Open ∨ s.Safe s.phase) (h : s.jobEnds k job result = some s') :
    Sound s' ∧ (¬ s'.Open ∨ s'.Safe s'.phase) := by
  have hleft (aborted : List Upload) (hsub : s.aborted ⊆ aborted) :
      Sound { s with abandoned := s.abandoned.eraseIdx k, aborted := aborted } ∧
        (¬ Open { s with abandoned := s.abandoned.eraseIdx k, aborted := aborted } ∨
          Safe { s with abandoned := s.abandoned.eraseIdx k, aborted := aborted } s.phase) := by
    refine ⟨hsound.frame rfl rfl hsound.held rfl (fun job hmem =>
      .inl (List.mem_of_mem_eraseIdx hmem)) hsound.ready
      hsound.settled, hsafe.imp (fun hopen => ?_) fun h => ?_⟩
    · obtain ⟨hphase, hsettled, -⟩ := not_open_iff.mp hopen
      exact not_open_mono hopen hphase hsettled rfl hsub
    · refine h.mono (fun h => h) (fun hretained x hx => ?_) rfl fun _ => ⟨rfl, hsub⟩
      exact (hretained x hx).imp_left fun haborted => hsub haborted
  obtain ⟨upload, rfl⟩ := hsound.jobs job (List.mem_of_getElem? hjob)
  unfold jobEnds at h
  split at h
  · rename_i hcreate
    cases hcreate
  · cases h
    exact hleft _ (List.subset_append_left _ _)
  · cases h
    exact hleft _ (List.Subset.refl _)
  · cases h

theorem fails_fenced {uploadID : String} {created : Bool} :
    (s.fails j uploadID created).fenced = s.fenced := by
  unfold fails
  split
  · rfl
  · rfl

theorem takeGroup_fenced : (s.takeGroup task).fenced = s.fenced := by
  unfold takeGroup
  dsimp only
  split
  · rfl
  · split
    · rfl
    · rfl

theorem createGroup_fenced {input : SetupInput} (h : s.createGroup j task input = some s') :
    s'.fenced = s.fenced := by
  unfold createGroup at h
  split at h
  case h_4 =>
    cases h
    split
    · exact fails_fenced
    · rfl
  case h_6 | h_7 =>
    cases h
    exact fails_fenced
  case h_9 cancelled _ =>
    cases h
    cases cancelled with
    | true => rfl
    | false => rfl
  case h_2 =>
    split at h
    · cases h
      rfl
    · cases h
      rfl
  case h_11 => cases h
  all_goals
    cases h
    rfl

theorem cancel_fenced (h : s.cancel = some s') : s'.fenced = s.fenced := by
  unfold cancel at h
  split at h
  case h_1 | h_2 | h_3 =>
    cases h
    exact (framed_handle _).fenced
  case h_10 => cases h
  all_goals
    cases h
    rfl

theorem jobEnds_fenced {k : ℕ} {job : Job} {result : JobResult}
    (h : s.jobEnds k job result = some s') :
    s'.fenced = s.fenced := by
  unfold jobEnds at h
  split at h
  · split at h
    · cases h
      rfl
    · cases h
      rfl
  · cases h
    rfl
  · cases h
    rfl
  · cases h

theorem step_take (h : s.step .take = some s') :
    s.workers ≠ 0 ∧ ∃ task, s.groups[s.next]? = some task ∧ s.takeGroup task = s' := by
  change (if s.workers = 0 then none else (s.groups[s.next]?).map s.takeGroup) = some s' at h
  by_cases hworkers : s.workers = 0
  · rw [if_pos hworkers] at h
    cases h
  · rw [if_neg hworkers] at h
    exact ⟨hworkers, Option.map_eq_some_iff.mp h⟩

theorem step_fenced (h : s.step i = some s') (hfenced : s.fenced = true) : s'.fenced = true := by
  cases i with
  | control i =>
    obtain ⟨control, -, rfl⟩ := Option.map_eq_some_iff.mp h
    exact hfenced
  | fence =>
    cases h
    rfl
  | take =>
    obtain ⟨-, task, -, rfl⟩ := step_take h
    exact takeGroup_fenced.trans hfenced
  | setup j input =>
    obtain ⟨task, -, hcreate⟩ := Option.bind_eq_some_iff.mp h
    exact (createGroup_fenced hcreate).trans hfenced
  | stream input => exact (stream_framed h).fenced.trans hfenced
  | cancel => exact (cancel_fenced h).trans hfenced
  | jobEnds k result =>
    obtain ⟨job, -, hends⟩ := Option.bind_eq_some_iff.mp h
    exact (jobEnds_fenced hends).trans hfenced

theorem step_invariant (hinv : Invariant s) (h : s.step i = some s') (hgood : ¬ s.Loses i) :
    Invariant s' := by
  by_cases hfenced : s.fenced = true
  · exact .inl (step_fenced h hfenced)
  obtain ⟨hsound, hsafe⟩ := hinv.resolve_left hfenced
  replace hfenced : s.fenced = false := Bool.not_eq_true _ ▸ hfenced
  replace hgood := fun hloses => hgood ⟨hfenced, hloses⟩
  cases i with
  | control i =>
    obtain ⟨control, hcontrol, rfl⟩ := Option.map_eq_some_iff.mp h
    refine .inr
      ⟨hsound.frame rfl rfl hsound.held rfl (fun _ h => .inl h) hsound.ready hsound.settled, ?_⟩
    by_cases hopen : s.Open
    · have hkeeps : s.leased → control.recoveryLease = some s.lease := by
        intro hleased
        by_contra hlost
        exact hgood ⟨hopen, hleased, control, hcontrol, hlost⟩
      exact .inr ((hsafe.resolve_left fun h => h hopen).mono hkeeps (fun h => h) rfl fun _ =>
        ⟨rfl, List.Subset.refl _⟩)
    · exact .inl hopen
  | fence =>
    cases h
    exact .inl rfl
  | take =>
    obtain ⟨hworkers, task, htask, rfl⟩ := step_take h
    have hwaiting := hsound.fresh s.next task (Nat.le_refl _) htask
    have hunsettled : ¬ s.settled := by
      intro hsettled
      have hlt := (List.getElem?_eq_some_iff.mp htask).1
      rcases hsettled.2 with hnone | hlast
      · exact hworkers hnone
      · omega
    obtain ⟨setup, hworked⟩ : ∃ setup, Worked s s.next task (s.takeGroup task) setup :=
      takeGroup_worked hfenced
    exact worked_invariant hsound hsafe htask (by rw [hwaiting]; nofun) hunsettled hworked
  | setup j input =>
    obtain ⟨task, htask, hcreate⟩ := Option.bind_eq_some_iff.mp h
    have hawaits := createGroup_awaits hcreate
    have hmem := List.mem_of_getElem? htask
    have hj : j < s.next := by
      by_contra hlate
      rw [hsound.fresh j task (Nat.le_of_not_lt hlate) htask] at hawaits
      cases hawaits
    have hsetup : task.setup ≠ .ready := by
      intro hready
      rw [hready] at hawaits
      cases hawaits
    have hunsettled : ¬ s.settled := by
      intro hsettled
      rw [hsettled.1 task hmem] at hawaits
      cases hawaits
    obtain ⟨setup, hworked⟩ := createGroup_worked hfenced hj (hsound.held task hmem) hcreate
    exact worked_invariant hsound hsafe htask hsetup hunsettled hworked
  | stream input =>
    refine .inr (stream_invariant hfenced (fun groupIDs hbegin => ?_) hsound hsafe h)
    subst hbegin
    exact not_not.mp hgood
  | cancel =>
    refine .inr (cancel_invariant hfenced (fun hhandling hopen => ?_) hsound hsafe h)
    exact hgood ⟨hopen, hhandling⟩
  | jobEnds k result =>
    obtain ⟨job, hjob, hends⟩ := Option.bind_eq_some_iff.mp h
    exact .inr (jobEnds_invariant hjob hsound hsafe hends)

theorem Invariant.lossless (hinv : Invariant s) : Lossless s := by
  intro hover howner haccepted x hx
  obtain ⟨⟨ending, hphase⟩, -, -⟩ := hover
  obtain ⟨-, hsafe⟩ := hinv.resolve_left (by rw [howner]; nofun)
  rcases hsafe with hopen | hsafe
  · exact .inl ((not_open_iff.mp hopen).2.2 x hx)
  · rw [hphase] at hsafe haccepted
    have hleft (h : (s.leased ∧ Retained s) ∧ s.continued = true) : s.Kept x :=
      (h.1.2 x hx).imp_right fun hget => .inl ⟨hget, h.1.1, h.2⟩
    cases ending with
    | accepted => exact absurd rfl haccepted
    | fenced => exact hsafe.elim
    | cancelled => exact hsafe.elim
    | stopped => exact hleft hsafe
    | pending => exact hleft hsafe
    | failed cleanupError =>
      rcases hsafe with herror | hall
      · exact .inr (.inr (herror ▸ hphase))
      · exact .inl (hall x hx)

variable {control : Control} {planFingerprint coordinateChecksum : String} {replayRoutes limit : ℕ}
  {restored : OrderedMap String String} {is : List Step}

theorem start_invariant :
    Invariant (start control planFingerprint coordinateChecksum replayRoutes limit restored) := by
  refine .inr ⟨⟨List.nodup_nil, fun _ _ _ => nofun, nofun, nofun, nofun, nofun, nofun⟩,
    .inr ⟨rfl, nofun⟩⟩

/-- In every run none of whose steps cancels the foreground task in the handling of a failure, or
takes its lease away, with an upload open, and whose plan names each group once, no upload is lost.
-/
theorem always_lossless
    (hnever : Run.Never step
      (start control planFingerprint coordinateChecksum replayRoutes limit restored) is Loses) :
    Run.Always step
      (start control planFingerprint coordinateChecksum replayRoutes limit
        restored) is Lossless := by
  have hinv :=
    Run.always_of_never (fun _ _ _ hinv h hgood => step_invariant hinv h hgood)
      start_invariant hnever
  exact fun earlier later u hsplit hu => (hinv earlier later u hsplit hu).lossless

def sampleStart : RouteStream := start Control.start "fingerprint" "checksum" 0 2 []

def sampleCreating : List Step := [.stream (.begin ["group"]), .take, .setup 0 .run]

def sampleProceed : Step := .stream (.proceed "epoch")

def sampleCancelled : List Step :=
  [.cancel, sampleProceed, sampleProceed, .cancel, sampleProceed, .jobEnds 0 (.created "upload")]

theorem sample_lost : ∃ s, Run.after step sampleStart (sampleCreating ++ sampleCancelled) =
    some s ∧ s.Over ∧
    s.fenced = false ∧ s.phase = .ended .cancelled ∧ s.created = [⟨"group", "upload"⟩] ∧
      s.aborted = [] ∧ s.uploads = [] ∧
    ¬ Lossless s := by
  refine ⟨_, rfl, ⟨⟨_, rfl⟩, ⟨by decide, .inl rfl⟩, rfl⟩, rfl, rfl, rfl, rfl, rfl,
    fun hlossless => ?_⟩
  have hkept := hlossless ⟨⟨_, rfl⟩, ⟨by decide, .inl rfl⟩, rfl⟩ rfl nofun ⟨"group", "upload"⟩
    (List.mem_singleton.mpr rfl)
  rcases hkept with haborted | ⟨hrecorded, -⟩ | hreported
  · cases haborted
  · cases hrecorded
  · cases hreported

instance : Decidable s.Open := inferInstanceAs (Decidable (_ ∨ _ ∨ ∃ x ∈ s.created, x ∉ s.aborted))

instance : (i : Step) → Decidable (Loses s i)
  | .control i =>
      inferInstanceAs (Decidable (_ ∧ s.Open ∧ s.leased ∧ ∃ control ∈ s.control.step i, _))
  | .stream (.begin groupIDs) => inferInstanceAs (Decidable (_ ∧ ¬ groupIDs.Nodup))
  | .cancel => inferInstanceAs (Decidable (_ ∧ s.Open ∧ _))
  | .fence | .take | .setup _ _ | .jobEnds _ _ | .stream (.proceed _) | .stream (.failed _) |
      .stream (.run _)
  | .stream (.aborted _ _) => inferInstanceAs (Decidable (_ ∧ False))

def sampleContinued : List Step :=
  [.cancel, sampleProceed, .setup 0 (.created "upload"), .setup 0 .proceed, sampleProceed,
    .setup 0 .proceed,
    sampleProceed]

theorem sample_kept : ∃ s, Run.after step sampleStart (sampleCreating ++ sampleContinued) =
    some s ∧ s.Over ∧
    Lossless s := by
  have hnever : Run.Never step sampleStart (sampleCreating ++ sampleContinued) Loses :=
    Run.never_of_check (by decide)
  obtain ⟨s, hs, hover⟩ : ∃ s, Run.after step sampleStart (sampleCreating ++ sampleContinued) =
      some s ∧ s.Over :=
    ⟨_, rfl, ⟨_, rfl⟩, ⟨by decide, .inr (by decide)⟩, rfl⟩
  exact ⟨s, hs, hover, (always_lossless hnever).last hs⟩

end RouteStream
end Beam.Python
