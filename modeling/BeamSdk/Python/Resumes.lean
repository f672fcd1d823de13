import BeamSdk.Python.Recovery

/-! A recovery that is asked for a registered lease is not forgotten, unless the transfer's task is
another lease's, or takes the call for the one that it has served. -/

namespace Beam.Python
open Wakeup (Watch Move Repeats Pending)

def Phase.served : Phase → Option (Option Epoch)
  | .resuming epoch _ true | .replaying epoch _ => some epoch
  | _ => none

namespace Control
variable {c c' : Control} {lease : RecoveryLease} {task : RecoveryTask} {r : ℕ} {i : Step}

/-- The step asks for a recovery that the transfer's task does not see: as one of another lease, or
as one that took this epoch for its attempt. An observed epoch counts where it was not the newest.
-/
def Forgets (c : Control) : Step → Prop
  | .continueRecoveryLease id =>
      ∃ lease task, c.recoveryLease = some lease ∧ c.running = some task ∧
      (task.lease ≠ lease ∨ task.phase.served = some (some (c.continuedEpoch id)))
  | .observeRuntimeEpochs (some runtimeEpoch) (some transportEpoch) =>
      ∃ task, c.running = some task ∧
      c.recoveryLease = some task.lease ∧ c.requestedEpoch ≠ some (runtimeEpoch, transportEpoch) ∧
      task.phase.served = some (some (runtimeEpoch, transportEpoch))
  | _ => False

def watchTask (lease : RecoveryLease) (task : RecoveryTask) : Wakeup.Loop Epoch :=
  if task.phase = .done then .idle
  else if task.lease ≠ lease then .blind
  else task.phase.served.elim .awake .asked

def watchLoop (lease : RecoveryLease) : Option RecoveryTask → Wakeup.Loop Epoch
  | some task => watchTask lease task
  | none => .idle

def watch (lease : RecoveryLease) (c : Control) : Watch Epoch where
  requested := c.requestedEpoch
  loop := watchLoop lease (c.recoveryTask.bind fun r => c.tasks[r]?)
  sent := c.resumes.countP (·.lease = lease)

/-- An open client's unfinished task is the transfer's, and its lease is not one to be made yet. -/
structure Sound (c : Control) : Prop where
  task : c.closed = false → ∀ r task, c.tasks[r]? = some task → task.phase ≠ .done →
    c.recoveryTask = some r
  fresh : ∀ lease, c.recoveryLease = some lease → lease.ref < c.leases

def Registered (lease : RecoveryLease) (c : Control) : Prop :=
    c.recoveryLease = some lease ∧ c.closed = false

theorem watchTask_own (hlease : task.lease = lease) {phase : Phase} (hphase : phase ≠ .done) :
    watchTask lease { task with phase } = phase.served.elim .awake .asked := by
  rw [watchTask, if_neg hphase, if_neg (not_not.mpr hlease)]

theorem watchTask_other (hlease : task.lease ≠ lease) {phase : Phase} (hphase : phase ≠ .done) :
    watchTask lease { task with phase } = .blind := by
  rw [watchTask, if_neg hphase, if_pos hlease]

theorem watchTask_woken (hphase : task.phase ≠ .done) :
    (watchTask lease task).woken = watchTask lease task := by
  unfold watchTask
  rw [if_neg hphase]
  split
  · rfl
  · cases task.phase.served <;> rfl

theorem running_eq_some : c.running = some task ↔
    (c.recoveryTask.bind fun r => c.tasks[r]?) = some task ∧ task.phase ≠ .done := by
  rw [running, Option.filter_eq_some_iff, decide_eq_true_eq]

theorem watch_of_running (h : c.running = some task) :
    (watch lease c).loop = watchTask lease task := by
  show watchLoop lease _ = _
  rw [(running_eq_some.mp h).1]
  rfl

theorem watch_idle (h : c.running = none) : (watch lease c).loop = .idle := by
  show watchLoop lease _ = _
  cases htask : c.recoveryTask.bind fun r => c.tasks[r]? with
  | none => rfl
  | some task =>
    by_contra hloop
    have hphase : task.phase ≠ .done := by
      intro hdone
      exact hloop (if_pos hdone)
    rw [running_eq_some.mpr ⟨htask, hphase⟩] at h
    cases h

variable (c lease) in
theorem watch_schedule : watch lease (c.scheduleRecovery lease) =
    { watch lease c with loop := (watch lease c).loop.woken } := by
  unfold scheduleRecovery
  split
  · rename_i task hrunning
    have hphase := (running_eq_some.mp hrunning).2
    have hloop : (watch lease c).loop.woken = (watch lease c).loop := by
      rw [watch_of_running hrunning, watchTask_woken hphase]
    rw [hloop]
  · rename_i hrunning
    rw [watch_idle hrunning]
    have hnew : (some c.tasks.length).bind (fun r => (c.tasks ++ [⟨lease, Phase.scheduled⟩])[r]?) =
        some ⟨lease, .scheduled⟩ := List.getElem?_concat_length
    unfold watch
    rw [hnew]
    simp [watchLoop, watchTask, Phase.served, Wakeup.Loop.woken]

variable (c lease) in
theorem request_move (epoch : Epoch) : Move (watch lease c) (some epoch)
    (watch lease (c.request lease epoch)) := by
  rw [request, watch_schedule]
  exact .request (watch lease c) epoch

theorem watch_setPhase (hrun : c.recoveryTask = some r) (htask : c.tasks[r]? = some task)
    (phase : Phase) :
    watch lease (c.setPhase r phase) =
      { watch lease c with loop := watchTask lease { task with phase } } := by
  have hnew : (c.recoveryTask.bind fun r' => (c.setPhase r phase).tasks[r']?) =
      some { task with phase } := by
    rw [hrun, Option.bind_some, setPhase, List.getElem?_modify_eq, htask]
    rfl
  show Watch.mk _
    (watchLoop lease (c.recoveryTask.bind fun r' => (c.setPhase r phase).tasks[r']?)) _ = _
  rw [hnew]
  rfl

inductive Turn (c : Control) (r : ℕ) (task : RecoveryTask) : Control → Prop
  | loop (hphase : task.phase ≠ .done) (id : String) : Turn c r task (c.loop r task id)
  | send (epoch : Option Epoch) (generationID : String) (sent : Bool)
      (hphase : task.phase = .resuming epoch generationID sent) :
    Turn c r task
      { c.setPhase r (.resuming epoch generationID true) with resumes := c.resumes ++
        [⟨task.lease, generationID⟩] }
  | failed (hphase : task.phase ≠ .done) (error : LifecycleError) :
      Turn c r task (c.failed r task error)
  | answered (epoch : Option Epoch) (generationID : String)
      (hphase : task.phase = .resuming epoch generationID true)
      (result : ResumeResult) (id : String) :
        Turn c r task (c.answered r task epoch generationID result id)
  | settle (epoch : Option Epoch) (hphase : task.phase ≠ .done)
      (hserved : task.phase.served = some epoch) (id : String) :
    Turn c r task (c.settle r task epoch id)
  | callback (hphase : task.phase = .done) :
    Turn c r task (if c.recoveryTask = some r then { c with recoveryTask := none } else c)
  | cancelled (hclosed : c.closed = true) : Turn c r task (c.setPhase r .done)

theorem turn_of_recoverTransfer {input : Input} (h : c.recoverTransfer r task input = some c') :
    Turn c r task c' := by
  unfold recoverTransfer at h
  split at h
  · rename_i hphase
    cases h
    exact .loop (by rw [hphase]; exact nofun) _
  · rename_i hphase
    cases h
    exact .send _ _ _ hphase
  · rename_i hphase
    cases h
    exact .failed (by rw [hphase]; exact nofun) _
  · rename_i hphase
    cases h
    exact .answered _ _ hphase _ _
  · rename_i hphase
    cases h
    exact .failed (by rw [hphase]; exact nofun) _
  · rename_i hphase
    cases h
    exact .settle _ (by rw [hphase]; exact nofun) (by rw [hphase]; rfl) _
  · rename_i hphase
    cases h
    exact .loop (by rw [hphase]; exact nofun) _
  · rename_i hphase
    cases h
    exact .callback hphase
  all_goals first
    | (split at h
       · rename_i hclosed
         cases h
         exact .cancelled hclosed
       · cases h)
    | cases h

structure Running (c : Control) (r : ℕ) (task : RecoveryTask) : Prop where
  entry : c.tasks[r]? = some task
  current : c.recoveryTask = some r
  phase : task.phase ≠ .done

theorem Running.watch (h : Running c r task) : (watch lease c).loop = watchTask lease task := by
  show watchLoop lease _ = _
  rw [h.current, Option.bind_some, h.entry]
  rfl

theorem other_move (h : Running c r task) (hlease : task.lease ≠ lease) (phase : Phase) :
    Move (watch lease c) none (watch lease (c.setPhase r phase)) := by
  have hblind : (watch lease c).loop = .blind := h.watch.trans (watchTask_other hlease h.phase)
  rw [watch_setPhase h.current h.entry]
  by_cases hphase : phase = .done
  · subst hphase
    exact .idle _ _ _ (.inr hblind)
  · have hsame : watchTask lease { task with phase } = (Control.watch lease c).loop := by
      rw [hblind, watchTask_other hlease hphase]
    rw [hsame]
    exact .stay _

theorem wake_move (h : Running c r task) {phase : Phase} (hphase : phase ≠ .done)
    (hserved : phase.served = none) :
    Move (watch lease c) none (watch lease (c.setPhase r phase)) := by
  by_cases hlease : task.lease = lease
  · have hawake : watchTask lease { task with phase } = .awake := by
      rw [watchTask_own hlease hphase, hserved]
      rfl
    rw [watch_setPhase h.current h.entry, hawake]
    exact .wake _ _ _
  · exact other_move h hlease phase

theorem loop_move (h : Running c r task) (hlease : Registered lease c) (id : String) :
    Move (watch lease c) none (watch lease (c.loop r task id)) := by
  unfold loop
  split
  · exact wake_move h nofun rfl
  · rename_i hnot
    refine other_move h (fun heq => hnot ⟨hlease.2, ?_⟩) _
    rw [heq]
    exact hlease.1

theorem giveUp_move (h : Running c r task) (hstill : Registered lease (c.giveUp r task)) :
    Move (watch lease c) none (watch lease (c.giveUp r task)) := by
  unfold giveUp releaseRecoveryLease at hstill ⊢
  split
  · rename_i hother
    rw [if_pos hother] at hstill
    refine other_move h (fun heq => hother.2 ?_) _
    have hlease : c.recoveryLease = some lease := hstill.1
    rw [hlease, heq]
    rfl
  · rename_i hreleased
    rw [if_neg hreleased] at hstill
    exact absurd hstill.1 nofun

theorem settle_move (h : Running c r task) (hlease : Registered lease c) {epoch : Option Epoch}
    (hserved : task.phase.served = some epoch) (id : String) :
    Move (watch lease c) none (watch lease (c.settle r task epoch id)) := by
  unfold settle
  split
  · exact loop_move h hlease id
  · rename_i hsame
    push Not at hsame
    dsimp only
    rw [if_pos h.current]
    have hidle : watch lease { c.setPhase r .done with recoveryTask := none } =
        { watch lease c with loop := .idle } := rfl
    rw [hidle]
    by_cases heq : task.lease = lease
    · have hasked : (watch lease c).loop = .asked (watch lease c).requested := by
        have hown := watchTask_own heq h.phase
        rw [hserved, ← hsame] at hown
        exact h.watch.trans hown
      have hmove := Move.settle (watch lease c).requested .idle (watch lease c).sent
      rw [← hasked] at hmove
      exact hmove
    · refine .idle _ _ _ (.inr ?_)
      exact h.watch.trans (watchTask_other heq h.phase)

theorem failed_move (h : Running c r task) {error : LifecycleError}
    (hstill : Registered lease (c.failed r task error)) :
    Move (watch lease c) none (watch lease (c.failed r task error)) := by
  unfold failed at hstill ⊢
  split
  · exact wake_move h nofun rfl
  · rename_i hretryable
    rw [if_neg hretryable] at hstill
    exact giveUp_move h hstill

theorem answered_move (h : Running c r task) (hlease : Registered lease c) {epoch : Option Epoch}
    {generationID : String}
    (hserved : task.phase.served = some epoch) {result : ResumeResult} {id : String}
    (hstill : Registered lease (c.answered r task epoch generationID result id)) :
    Move (watch lease c) none (watch lease (c.answered r task epoch generationID result id)) := by
  unfold answered at hstill ⊢
  split
  · rename_i hterminal
    rw [if_pos hterminal] at hstill
    exact giveUp_move h hstill
  · split
    · rename_i hother
      refine other_move h (fun heq => hother ?_) _
      rw [heq]
      exact hlease.1
    · split
      · by_cases heq : task.lease = lease
        · have hsame : watchTask lease { task with phase := .replaying epoch generationID } =
              (watch lease c).loop := by
            have hown := watchTask_own heq h.phase
            rw [hserved] at hown
            have hreplaying : Phase.replaying epoch generationID ≠ .done := nofun
            rw [watchTask_own heq hreplaying]
            exact (h.watch.trans hown).symm
          rw [watch_setPhase h.current h.entry, hsame]
          exact .stay _
        · exact other_move h heq _
      · exact settle_move h hlease hserved id

theorem Sound.setPhase (hs : Sound c) (phase : Phase)
    (hrun : phase ≠ .done → c.closed = false → c.recoveryTask = some r) :
      Sound (c.setPhase r phase) := by
  refine ⟨fun hopen r' task' htask' hunfinished => ?_, hs.fresh⟩
  by_cases hr : r = r'
  · subst hr
    rw [Control.setPhase, List.getElem?_modify_eq] at htask'
    obtain ⟨task, -, rfl⟩ := Option.map_eq_some_iff.mp htask'
    exact hrun hunfinished hopen
  · have hsame : (c.setPhase r phase).tasks[r']? = c.tasks[r']? := List.getElem?_modify_ne _ _ hr
    rw [hsame] at htask'
    exact hs.task hopen r' task' htask' hunfinished

theorem Sound.schedule (hs : Sound c) (lease : RecoveryLease) :
    Sound (c.scheduleRecovery lease) := by
  unfold scheduleRecovery
  split
  · exact hs
  · rename_i hnone
    refine ⟨fun hopen r task htask hunfinished => ?_, hs.fresh⟩
    by_cases hr : r < c.tasks.length
    · rw [List.getElem?_append_left hr] at htask
      have hcurrent := hs.task hopen r task htask hunfinished
      have hrunning : c.running = some task :=
        running_eq_some.mpr ⟨by rw [hcurrent]; exact htask, hunfinished⟩
      rw [hnone] at hrunning
      cases hrunning
    · have hlt := (List.getElem?_eq_some_iff.mp htask).1
      rw [List.length_append, List.length_singleton] at hlt
      exact congrArg some (by omega)

theorem Sound.request (hs : Sound c) (lease : RecoveryLease) (epoch : Epoch) :
    Sound (c.request lease epoch) :=
  Sound.schedule (c := { c with requestedEpoch := some epoch }) ⟨hs.task, hs.fresh⟩ lease

theorem Sound.release (hs : Sound c) (replayRoutes : Option ℕ) :
    Sound (c.releaseRecoveryLease replayRoutes) := by
  unfold releaseRecoveryLease
  split
  · exact hs
  · exact ⟨hs.task, nofun⟩

theorem Sound.giveUp (hs : Sound c) : Sound (c.giveUp r task) :=
  (hs.release _).setPhase .done fun h => absurd rfl h

theorem Sound.loop (hs : Sound c) (hrun : c.closed = false → c.recoveryTask = some r)
    (id : String) :
    Sound (c.loop r task id) := by
  unfold Control.loop
  split
  · exact hs.setPhase _ fun _ => hrun
  · exact hs.setPhase _ fun h => absurd rfl h

theorem Sound.settle (hs : Sound c) (hrun : c.closed = false → c.recoveryTask = some r)
    (hentry : c.tasks[r]? = some task)
    (epoch : Option Epoch) (id : String) : Sound (c.settle r task epoch id) := by
  unfold Control.settle
  split
  · exact hs.loop hrun id
  · have hdone := hs.setPhase (r := r) .done fun h => absurd rfl h
    dsimp only
    split
    · rename_i hcurrent
      -- the transfer's task is done, so that no other is left
      refine ⟨fun hopen r' task' htask' hunfinished => ?_, hdone.fresh⟩
      have hsame : r = r' :=
        Option.some.inj (hcurrent.symm.trans (hdone.task hopen r' task' htask' hunfinished))
      subst hsame
      rw [Control.setPhase, List.getElem?_modify_eq, hentry] at htask'
      cases htask'
      exact absurd rfl hunfinished
    · exact hdone

theorem Sound.failed (hs : Sound c) (hrun : c.closed = false → c.recoveryTask = some r)
    (error : LifecycleError) :
    Sound (c.failed r task error) := by
  unfold Control.failed
  split
  · exact hs.setPhase _ fun _ => hrun
  · exact hs.giveUp

theorem Sound.answered (hs : Sound c) (hrun : c.closed = false → c.recoveryTask = some r)
    (hentry : c.tasks[r]? = some task) (epoch : Option Epoch) (generationID : String)
    (result : ResumeResult)
    (id : String) : Sound (c.answered r task epoch generationID result id) := by
  unfold Control.answered
  split
  · exact hs.giveUp
  · split
    · exact hs.setPhase _ fun h => absurd rfl h
    · split
      · exact hs.setPhase _ fun _ => hrun
      · exact hs.settle hrun hentry epoch id

theorem step_sound (hs : Sound c) (h : c.step i = some c') : Sound c' := by
  cases i with
  | registerRecoveryLease planFingerprint coordinateChecksum replayRoutes =>
    cases h
    refine ⟨hs.task, fun lease hlease => ?_⟩
    cases hlease
    exact Nat.lt_succ_self _
  | releaseRecoveryLease replayRoutes =>
    cases h
    exact hs.release replayRoutes
  | continueRecoveryLease id =>
    cases h
    unfold continueRecoveryLease
    split
    · exact hs
    · exact hs.request _ _
  | observeRuntimeEpochs runtimeEpoch transportEpoch =>
    cases h
    unfold observeRuntimeEpochs
    split
    · have hobserved : ∀ epoch : Epoch, Sound { c with runtimeEpoch := some epoch } :=
        fun _ => ⟨hs.task, hs.fresh⟩
      dsimp only
      split
      · exact hobserved _
      · split
        · exact hobserved _
        · exact (hobserved _).request _ _
    · exact hs
  | close =>
    cases h
    exact ⟨nofun, nofun⟩
  | recoverTransfer r input =>
    obtain ⟨task, hentry, hturn⟩ := Option.bind_eq_some_iff.mp h
    have hrun : task.phase ≠ .done → c.closed = false → c.recoveryTask = some r :=
      fun hphase hopen => hs.task hopen r task hentry hphase
    cases turn_of_recoverTransfer hturn with
    | loop hphase id => exact hs.loop (hrun hphase) id
    | send epoch generationID sent hphase =>
      have hsent := hs.setPhase (r := r) (.resuming epoch generationID true) fun _ =>
        hrun (by rw [hphase]; exact nofun)
      exact ⟨hsent.task, hsent.fresh⟩
    | failed hphase error => exact hs.failed (hrun hphase) error
    | answered epoch generationID hphase result id =>
      exact hs.answered (hrun (by rw [hphase]; exact nofun)) hentry _ _ result id
    | settle epoch hphase hserved id => exact hs.settle (hrun hphase) hentry epoch id
    | callback hphase =>
      split
      · rename_i hcurrent
        refine ⟨fun hopen r' task' htask' hunfinished => ?_, hs.fresh⟩
        have hsame : r = r' :=
          Option.some.inj (hcurrent.symm.trans (hs.task hopen r' task' htask' hunfinished))
        subst hsame
        cases hentry.symm.trans htask'
        exact absurd hphase hunfinished
      · exact hs
    | cancelled hclosed => exact hs.setPhase _ fun hdone => absurd rfl hdone

theorem turn_move (hs : Sound c) (hentry : c.tasks[r]? = some task) (hturn : Turn c r task c')
    (hlease : Registered lease c) (hstill : Registered lease c') :
      Move (watch lease c) none (watch lease c') := by
  have hrun : task.phase ≠ .done → Running c r task :=
    fun hphase => ⟨hentry, hs.task hlease.2 r task hentry hphase, hphase⟩
  cases hturn with
  | loop hphase id => exact loop_move (hrun hphase) hlease id
  | send epoch generationID sent hphase =>
    have hrunning := hrun (by rw [hphase]; exact nofun)
    by_cases heq : task.lease = lease
    · have hsent : watch lease
          { c.setPhase r (.resuming epoch generationID true) with resumes := c.resumes ++
            [⟨task.lease, generationID⟩] } =
          { watch lease (c.setPhase r (.resuming epoch generationID true)) with
            sent := (watch lease c).sent + 1 } := by
        simp [watch, List.countP_append, heq]
      rw [hsent, watch_setPhase hrunning.current hentry]
      exact .send _ _ _ _
    · have hsame : watch lease
          { c.setPhase r (.resuming epoch generationID true) with resumes := c.resumes ++
            [⟨task.lease, generationID⟩] } =
          watch lease (c.setPhase r (.resuming epoch generationID true)) := by
        simp [watch, List.countP_append, heq, setPhase]
      rw [hsame]
      exact other_move hrunning heq _
  | failed hphase error => exact failed_move (hrun hphase) hstill
  | answered epoch generationID hphase result id =>
    exact answered_move (hrun (by rw [hphase]; exact nofun)) hlease (by rw [hphase]; rfl) hstill
  | settle epoch hphase hserved id => exact settle_move (hrun hphase) hlease hserved id
  | callback hphase =>
    split
    · rename_i hcurrent
      have hidle : (watch lease c).loop = .idle := by
        show watchLoop lease _ = _
        rw [hcurrent, Option.bind_some, hentry]
        exact if_pos hphase
      exact .idle _ _ _ (.inl hidle)
    · exact .stay _
  | cancelled hclosed =>
    rw [hlease.2] at hclosed
    cases hclosed

theorem running_of_loop (h : (watch lease c).loop ≠ .idle) : ∃ task, c.running = some task := by
  cases hrunning : c.running with
  | none => exact absurd (watch_idle hrunning) h
  | some task => exact ⟨task, rfl⟩

theorem served_of_repeats {epoch : Epoch} (h : Repeats (watch lease c) epoch) :
    ∃ task, c.running = some task ∧ task.lease = lease ∧ task.phase.served = some (some epoch) := by
  have hloop : (watch lease c).loop = .asked (some epoch) := h
  obtain ⟨task, hrunning⟩ := running_of_loop (by rw [hloop]; exact nofun)
  refine ⟨task, hrunning, ?_⟩
  rw [watch_of_running hrunning, watchTask, if_neg (running_eq_some.mp hrunning).2] at hloop
  split at hloop
  · cases hloop
  · rename_i hlease
    refine ⟨not_not.mp hlease, ?_⟩
    cases hserved : task.phase.served with
    | none =>
      rw [hserved] at hloop
      cases hloop
    | some started =>
      rw [hserved] at hloop
      cases hloop
      rfl

theorem lease_of_blind (h : (watch lease c).loop = .blind) : ∃ task, c.running = some task ∧
    task.lease ≠ lease := by
  obtain ⟨task, hrunning⟩ := running_of_loop (by rw [h]; exact nofun)
  refine ⟨task, hrunning, fun hlease => ?_⟩
  have hown := watchTask_own hlease (running_eq_some.mp hrunning).2
  rw [watch_of_running hrunning] at h
  have hblind := hown.symm.trans h
  cases hserved : task.phase.served with
  | none =>
    rw [hserved] at hblind
    cases hblind
  | some started =>
    rw [hserved] at hblind
    cases hblind

/-- For a lease that stays registered every step is a move, and a repeated request one that the
client forgets. -/
theorem step_move (hs : Sound c) (h : c.step i = some c') (hlease : Registered lease c)
    (hstill : Registered lease c') :
    ∃ r, Move (watch lease c) r (watch lease c') ∧ ∀ epoch, r = some epoch →
      (watch lease c).requested ≠ some epoch →
      Repeats (watch lease c) epoch → Forgets c i := by
  have hquiet : Move (watch lease c) none (watch lease c') →
      ∃ r, Move (watch lease c) r (watch lease c') ∧
      ∀ epoch, r = some epoch → (watch lease c).requested ≠ some epoch →
        Repeats (watch lease c) epoch → Forgets c i :=
    fun h => ⟨none, h, nofun⟩
  cases i with
  | registerRecoveryLease planFingerprint coordinateChecksum replayRoutes =>
    cases h
    -- a new lease is not one that was registered before
    have hnew :
        (⟨c.leases, replayRoutes, planFingerprint, coordinateChecksum⟩ : RecoveryLease) = lease :=
      Option.some.inj hstill.1
    have hlt := hs.fresh lease hlease.1
    rw [← hnew] at hlt
    exact absurd hlt (Nat.lt_irrefl _)
  | releaseRecoveryLease replayRoutes =>
    cases h
    unfold releaseRecoveryLease at hquiet hstill ⊢
    split at hstill
    · rename_i hother
      rw [if_pos hother]
      exact ⟨none, .stay _, nofun⟩
    · exact absurd hstill.1 nofun
  | continueRecoveryLease id =>
    cases h
    unfold continueRecoveryLease
    rw [hlease.1]
    refine ⟨some (c.continuedEpoch id), request_move c lease _, fun epoch hepoch _ hrepeats => ?_⟩
    cases hepoch
    obtain ⟨task, hrunning, -, hserved⟩ := served_of_repeats hrepeats
    exact ⟨lease, task, hlease.1, hrunning, .inr hserved⟩
  | observeRuntimeEpochs runtimeEpoch transportEpoch =>
    cases h
    unfold observeRuntimeEpochs
    split
    · rename_i runtimeEpoch transportEpoch
      dsimp only
      split
      · exact ⟨none, .stay _, nofun⟩
      · split
        · rename_i hnone
          exact absurd (hlease.1.symm.trans hnone) nofun
        · rename_i registered hregistered
          obtain rfl : lease = registered := Option.some.inj (hlease.1.symm.trans hregistered)
          refine ⟨some (runtimeEpoch, transportEpoch),
            request_move { c with runtimeEpoch := some (runtimeEpoch, transportEpoch) } lease _, ?_⟩
          intro epoch hepoch hnew hrepeats
          cases hepoch
          obtain ⟨task, hrunning, hown, hserved⟩ := served_of_repeats hrepeats
          exact ⟨task, hrunning, hown ▸ hlease.1, hnew, hserved⟩
    · exact ⟨none, .stay _, nofun⟩
  | recoverTransfer r input =>
    obtain ⟨task, hentry, hturn⟩ := Option.bind_eq_some_iff.mp h
    exact hquiet (turn_move hs hentry (turn_of_recoverTransfer hturn) hlease hstill)
  | close =>
    cases h
    exact absurd hstill.1 nofun

/-- What most steps leave as it is: they register no lease, send nothing and do not close the
client. -/
structure Frame (c c' : Control) : Prop where
  resumes : c'.resumes = c.resumes
  closed : c'.closed = c.closed
  leases : c'.leases = c.leases
  lease : c'.recoveryLease = c.recoveryLease ∨ c'.recoveryLease = none

theorem Frame.of_lease {c'' : Control} (h : Frame c c')
    (h' : c''.resumes = c'.resumes ∧ c''.closed = c'.closed ∧
    c''.leases = c'.leases ∧ c''.recoveryLease = c'.recoveryLease) : Frame c c'' := by
  obtain ⟨hresumes, hclosed, hleases, hlease⟩ := h'
  exact ⟨hresumes.trans h.resumes, hclosed.trans h.closed, hleases.trans h.leases, hlease ▸ h.lease⟩

theorem frame_rfl : Frame c c := ⟨rfl, rfl, rfl, .inl rfl⟩

theorem frame_setPhase (phase : Phase) : Frame c (c.setPhase r phase) := ⟨rfl, rfl, rfl, .inl rfl⟩

theorem frame_request (epoch : Epoch) : Frame c (c.request lease epoch) := by
  unfold request scheduleRecovery
  split <;> exact ⟨rfl, rfl, rfl, .inl rfl⟩

theorem frame_release (replayRoutes : Option ℕ) :
    Frame c (c.releaseRecoveryLease replayRoutes) := by
  unfold releaseRecoveryLease
  split
  · exact frame_rfl
  · exact ⟨rfl, rfl, rfl, .inr rfl⟩

theorem frame_giveUp : Frame c (c.giveUp r task) := (frame_release _).of_lease ⟨rfl, rfl, rfl, rfl⟩

theorem frame_loop (id : String) : Frame c (c.loop r task id) := by
  unfold loop
  split <;> exact frame_setPhase _

theorem frame_settle (epoch : Option Epoch) (id : String) : Frame c (c.settle r task epoch id) := by
  unfold settle
  split
  · exact frame_loop id
  · dsimp only
    split <;> exact ⟨rfl, rfl, rfl, .inl rfl⟩

theorem frame_failed (error : LifecycleError) : Frame c (c.failed r task error) := by
  unfold failed
  split
  · exact frame_setPhase _
  · exact frame_giveUp

theorem frame_answered (epoch : Option Epoch) (generationID : String) (result : ResumeResult)
    (id : String) :
    Frame c (c.answered r task epoch generationID result id) := by
  unfold answered
  split
  · exact frame_giveUp
  · split
    · exact frame_setPhase _
    · split
      · exact frame_setPhase _
      · exact frame_settle epoch id

/-- What every step keeps: no resume is taken back, no lease is registered again, and no client
opens again. -/
structure Keeps (c c' : Control) : Prop where
  resumes : c.resumes <+: c'.resumes
  leases : c.leases ≤ c'.leases
  back : ∀ lease, lease.ref < c.leases → Registered lease c' → Registered lease c

theorem Frame.keeps (h : Frame c c') : Keeps c c' := by
  refine ⟨h.resumes ▸ List.prefix_rfl, h.leases ▸ Nat.le_refl _, fun lease _ hlease => ?_⟩
  refine ⟨?_, h.closed.symm.trans hlease.2⟩
  rcases h.lease with hsame | hnone
  · exact hsame.symm.trans hlease.1
  · exact absurd (hnone.symm.trans hlease.1) nofun

theorem turn_keeps (hturn : Turn c r task c') : Keeps c c' := by
  cases hturn with
  | loop hphase id => exact (frame_loop id).keeps
  | send epoch generationID sent hphase =>
    exact ⟨List.prefix_append _ _, Nat.le_refl _, fun _ _ hlease => hlease⟩
  | failed hphase error => exact (frame_failed error).keeps
  | answered epoch generationID hphase result id =>
      exact (frame_answered epoch generationID result id).keeps
  | settle epoch hphase hserved id => exact (frame_settle epoch id).keeps
  | callback hphase => split <;> exact Frame.keeps ⟨rfl, rfl, rfl, .inl rfl⟩
  | cancelled hclosed => exact (frame_setPhase _).keeps

theorem step_keeps (h : c.step i = some c') : Keeps c c' := by
  cases i with
  | registerRecoveryLease planFingerprint coordinateChecksum replayRoutes =>
    cases h
    refine ⟨List.prefix_rfl, Nat.le_succ _, fun lease hlt hlease => ?_⟩
    have hnew :
        (⟨c.leases, replayRoutes, planFingerprint, coordinateChecksum⟩ : RecoveryLease) = lease :=
      Option.some.inj hlease.1
    rw [← hnew] at hlt
    exact absurd hlt (Nat.lt_irrefl _)
  | releaseRecoveryLease replayRoutes =>
    cases h
    exact (frame_release _).keeps
  | continueRecoveryLease id =>
    cases h
    unfold continueRecoveryLease
    split
    · exact frame_rfl.keeps
    · exact (frame_request _).keeps
  | observeRuntimeEpochs runtimeEpoch transportEpoch =>
    cases h
    unfold observeRuntimeEpochs
    split
    · dsimp only
      split
      · exact Frame.keeps ⟨rfl, rfl, rfl, .inl rfl⟩
      · split
        · exact Frame.keeps ⟨rfl, rfl, rfl, .inl rfl⟩
        · rename_i runtimeEpoch transportEpoch _ _ registered _
          let observed : Control := { c with runtimeEpoch := some (runtimeEpoch, transportEpoch) }
          have hframe :
              Frame observed (observed.request registered (runtimeEpoch, transportEpoch)) :=
                frame_request _
          exact Frame.keeps ⟨hframe.resumes, hframe.closed, hframe.leases, hframe.lease⟩
    · exact frame_rfl.keeps
  | recoverTransfer r input =>
    obtain ⟨task, hentry, hturn⟩ := Option.bind_eq_some_iff.mp h
    exact turn_keeps (turn_of_recoverTransfer hturn)
  | close =>
    cases h
    exact ⟨List.prefix_rfl, Nat.le_refl _, fun _ _ hlease => absurd hlease.1 nofun⟩

theorem start_sound : Sound Control.start := ⟨nofun, nofun⟩

/-- In a run where no recovery is forgotten: once recovery is asked for a registered lease, and as
long as that lease is registered, a resume was sent for it or a task is under way. -/
theorem python_continue_resumes {earlier later : List Step} {u w : Control} {id : String}
    (hu : Run.after step Control.start earlier = some u) (hlease : u.recoveryLease = some lease)
    (hw : Run.after step (u.continueRecoveryLease id) later = some w)
    (hnever : Run.Never step Control.start (earlier ++ .continueRecoveryLease id :: later) Forgets)
    (hstill : w.recoveryLease = some lease) (hopen : w.closed = false)
    (hdone : ∀ task ∈ w.tasks, task.phase = .done) :
    ∃ resume ∈ w.resumes.drop u.resumes.length, resume.lease = lease := by
  have hsound : Sound u := Run.after_invariant (fun _ _ _ hs h => step_sound hs h) start_sound hu
  have hcall : Run.after step Control.start (earlier ++ [.continueRecoveryLease id]) =
      some (u.continueRecoveryLease id) := Run.after_snoc.mpr ⟨u, hu, rfl⟩
  have hgood : ¬ Forgets u (.continueRecoveryLease id) := hnever earlier _ later u rfl hu
  have hlater : Run.Never step (u.continueRecoveryLease id) later Forgets := by
    rw [List.append_cons] at hnever
    exact hnever.of_append hcall
  have hkeeps : Keeps u (u.continueRecoveryLease id) :=
    step_keeps (i := .continueRecoveryLease id) rfl
  have hframe : (u.continueRecoveryLease id).resumes = u.resumes := by
    unfold continueRecoveryLease
    rw [hlease]
    exact (frame_request _).resumes
  -- the lease is registered all along
  let I (c : Control) : Prop := Sound c ∧ u.resumes <+: c.resumes ∧ lease.ref < c.leases
  have hI : ∀ v i v', I v → v.step i = some v' → I v' := fun v i v' hv h =>
    ⟨step_sound hv.1 h, hv.2.1.trans (step_keeps h).resumes,
      Nat.lt_of_lt_of_le hv.2.2 (step_keeps h).leases⟩
  have hstart : I (u.continueRecoveryLease id) :=
    ⟨step_sound (i := .continueRecoveryLease id) hsound rfl, hkeeps.resumes,
      Nat.lt_of_lt_of_le (hsound.fresh lease hlease) hkeeps.leases⟩
  have halways : Run.Always step (u.continueRecoveryLease id) later (Registered lease) :=
    Run.always_of_last hI (fun v i v' hv h => (step_keeps h).back lease hv.2.2) hstart hw
      ⟨hstill, hopen⟩
  have hpending : Pending (watch lease u).sent (watch lease (u.continueRecoveryLease id)) := by
    have hmove : watch lease (u.continueRecoveryLease id) =
        ⟨some (u.continuedEpoch id), (watch lease u).loop.woken, (watch lease u).sent⟩ := by
      unfold continueRecoveryLease
      rw [hlease]
      exact watch_schedule { u with requestedEpoch := some (u.continuedEpoch id) } lease
    rw [hmove]
    refine Wakeup.pending_request (fun hblind => ?_) fun hrepeats => ?_
    · obtain ⟨task, hrunning, hother⟩ := lease_of_blind hblind
      exact hgood ⟨lease, task, hlease, hrunning, .inl hother⟩
    · obtain ⟨task, hrunning, -, hserved⟩ := served_of_repeats hrepeats
      exact hgood ⟨lease, task, hlease, hrunning, .inr hserved⟩
  have hlast := Wakeup.pending_along (watch lease) (fun v i v' hv hP h =>
    ⟨hI v i v' hv h, fun hP' => step_move hv.1 h hP hP'⟩) hstart hpending hw halways hlater
  have hidle : (watch lease w).loop = .idle := by
    refine watch_idle ?_
    rw [running, Option.filter_eq_none_iff]
    intro task htask
    obtain ⟨r, -, hentry⟩ := Option.bind_eq_some_iff.mp htask
    exact fun hphase => of_decide_eq_true hphase (hdone task (List.mem_of_getElem? hentry))
  have hprefix : u.resumes <+: w.resumes := (Run.after_invariant hI hstart hw).2.1
  obtain ⟨resume, hresume, hsame⟩ := Wakeup.exists_later hprefix (hlast.sent hidle)
  exact ⟨resume, hresume, of_decide_eq_true hsame⟩

def sampleLease (ref : ℕ) : RecoveryLease := ⟨ref, ref, "fingerprint", "coordinates"⟩

def sampleReplaced : List Step :=
  [.registerRecoveryLease "fingerprint" "coordinates" 0, .continueRecoveryLease "first",
    .recoverTransfer 0 (.start "first"),
    .recoverTransfer 0 .send, .registerRecoveryLease "fingerprint" "coordinates" 1]

def sampleAnswered : List Step :=
    [.recoverTransfer 0 (.resumed (.ok ⟨"reconciling", false⟩) "second")]

/-- The second owner's recovery is asked for, and the first owner's task ends without it. -/
theorem sample_python_forgotten : ∃ u w, Run.after step Control.start sampleReplaced = some u ∧
    u.recoveryLease = some (sampleLease 1) ∧
    Run.after step (u.continueRecoveryLease "second") sampleAnswered = some w ∧
    w.recoveryLease = some (sampleLease 1) ∧ w.closed = false ∧
      (∀ task ∈ w.tasks, task.phase = .done) ∧
    ¬ ∃ resume ∈ w.resumes.drop u.resumes.length, resume.lease = sampleLease 1 := by
  exact ⟨_, _, rfl, by decide, rfl, by decide, by decide, by decide, by decide⟩

def mayForget (c : Control) : Step → Prop
  | .continueRecoveryLease _ | .observeRuntimeEpochs _ _ => c.running ≠ none
  | _ => False

instance (c : Control) : (i : Step) → Decidable (mayForget c i)
  | .continueRecoveryLease _ | .observeRuntimeEpochs _ _ =>
      inferInstanceAs (Decidable (c.running ≠ none))
  | .registerRecoveryLease _ _ _ | .releaseRecoveryLease _ | .recoverTransfer _ _ | .close =>
      inferInstanceAs (Decidable False)

theorem mayForget_of_forgets (h : Forgets c i) : mayForget c i := by
  cases i with
  | continueRecoveryLease id =>
    obtain ⟨-, task, -, hrunning, -⟩ := h
    show c.running ≠ none
    rw [hrunning]
    exact nofun
  | observeRuntimeEpochs runtimeEpoch transportEpoch =>
    unfold Forgets at h
    split at h
    · rename_i hstep
      cases hstep
    · obtain ⟨task, hrunning, -⟩ := h
      show c.running ≠ none
      rw [hrunning]
      exact nofun
    · cases h
  | registerRecoveryLease planFingerprint coordinateChecksum replayRoutes => exact h
  | releaseRecoveryLease replayRoutes => exact h
  | recoverTransfer r input => exact h
  | close => exact h

def sampleLoop : List Step :=
  [.recoverTransfer 0 (.start "first"), .recoverTransfer 0 .send,
    .recoverTransfer 0 (.resumed (.ok ⟨"reconciling", false⟩) "second")]

theorem sample_python_resumes : ∃ u w,
    Run.after step Control.start [.registerRecoveryLease "fingerprint" "coordinates" 0] = some u ∧
    Run.after step (u.continueRecoveryLease "first") sampleLoop = some w ∧
    ∃ resume ∈ w.resumes.drop u.resumes.length, resume.lease = sampleLease 0 := by
  have hnever : Run.Never step Control.start
      ([.registerRecoveryLease "fingerprint" "coordinates" 0] ++ .continueRecoveryLease "first" ::
        sampleLoop) mayForget :=
    Run.never_of_check (by decide)
  have hu : Run.after step Control.start [.registerRecoveryLease "fingerprint" "coordinates" 0] =
      some (Control.start.registerRecoveryLease "fingerprint" "coordinates" 0) := rfl
  obtain ⟨w, hw, hstill, hopen, hdone⟩ : ∃ w, Run.after step
      ((Control.start.registerRecoveryLease "fingerprint" "coordinates" 0).continueRecoveryLease
        "first") sampleLoop = some w ∧
      w.recoveryLease = some (sampleLease 0) ∧ w.closed = false ∧
        ∀ task ∈ w.tasks, task.phase = .done :=
    ⟨_, rfl, by decide, by decide, by decide⟩
  exact ⟨_, w, hu, hw, python_continue_resumes hu rfl hw
    (hnever.mono fun _ _ h => mayForget_of_forgets h) hstill hopen hdone⟩

end Control
end Beam.Python
