import BeamSdk.Rust.Recovery

/-! No lease has two loops, a loop replays and releases its own lease only, and a recovery that is
asked for a registered lease is not forgotten, unless its loop takes the call for the one that it
has served, or has looked for the last time. -/

namespace Beam.Rust
open Holders (holder Exclusive)
open Wakeup (Watch Move Repeats Pending)

/-- The epoch an attempt started from, once its request was sent and has not failed. -/
def Phase.served : Phase → Option (Option Epoch)
  | .resuming epoch _ true | .resumed epoch _ (.ok _) | .replaying epoch _ |
      .replayed epoch (.ok ()) | .settling epoch =>
    some epoch
  | _ => none

/-- The loop looks at no request any more, and its key is still in `running`. -/
def Phase.stopping : Phase → Bool
  | .fenced | .ending _ => true
  | _ => false

/-- The loop's key is not in `running` any more. -/
def Phase.gone : Phase → Bool
  | .left _ | .handing _ | .done => true
  | _ => false

def Phase.loop (phase : Phase) : Wakeup.Loop Epoch :=
  if phase.gone then .idle else if phase.stopping then .blind else phase.served.elim .awake .asked

def RecoveryLoop.key (loop : RecoveryLoop) : Option RecoveryLease :=
    if loop.phase.gone then none else some loop.lease

namespace Control
variable {c c' : Control} {lease : RecoveryLease} {loop : RecoveryLoop} {r : ℕ} {i : Step}

def watch (lease : RecoveryLease) (c : Control) : Watch Epoch where
  requested := c.requestedEpoch
  loop := (holder RecoveryLoop.key c.loops lease).elim .idle fun loop => loop.phase.loop
  sent := c.resumes.countP (·.lease = lease)

/-- Every key belongs to one loop, and every deed was done by a loop to its own lease. -/
structure Sound (c : Control) : Prop where
  exclusive : Exclusive RecoveryLoop.key c.loops
  running : ∀ lease, lease ∈ c.running ↔ holder RecoveryLoop.key c.loops lease ≠ none
  deeds : ∀ deed ∈ c.replays ++ c.releases,
    (c.loops[deed.loop]?).map RecoveryLoop.lease = some deed.lease

def Registered (lease : RecoveryLease) (c : Control) : Prop :=
    c.lease = some lease ∧ c.closed = false

theorem key_eq_some : loop.key = some lease ↔ loop.phase.gone = false ∧ loop.lease = lease := by
  unfold RecoveryLoop.key
  cases loop.phase.gone <;> simp

inductive Turn (c : Control) (r : ℕ) (loop : RecoveryLoop) : Control → Prop
  | wake (phase : Phase) (hphase : loop.phase.gone = false) (hgone : phase.gone = false)
      (hawake : phase.loop = .awake) :
    Turn c r loop (c.setPhase r phase)
  | same (phase : Phase) (hgone : phase.gone = loop.phase.gone)
      (hsame : phase.loop = loop.phase.loop) :
    Turn c r loop (c.setPhase r phase)
  | replay (epoch : Option Epoch) (generationID : String) (hgone : loop.phase.gone = false)
      (hserved : loop.phase.loop = .asked epoch) :
    Turn c r loop { c.setPhase r (.replaying epoch generationID) with replays := c.replays ++
      [⟨r, loop.lease⟩] }
  | send (epoch : Option Epoch) (generationID : String) (hgone : loop.phase.gone = false) :
    Turn c r loop
      { c.setPhase r (.resuming epoch generationID true) with resumes := c.resumes ++
        [⟨loop.lease, generationID⟩] }
  | settle (hgone : loop.phase.gone = false) (hserved : loop.phase.loop = .asked c.requestedEpoch) :
    Turn c r loop { c.setPhase r .done with running := c.running.filter fun lease =>
      lease ≠ loop.lease }
  | release (hgone : loop.phase.gone = false) : Turn c r loop (c.releaseOwn r loop)
  | fence (phase : Phase) (hphase : loop.phase.gone = false) (hgone : phase.gone = false)
      (hlost : c.lease ≠ some loop.lease ∨ c.closed = true) : Turn c r loop (c.setPhase r phase)
  | leave (outcome : RecoveryOutcome) (hgone : loop.phase.gone = false)
      (hblind : loop.phase.loop = .blind) :
    Turn c r loop (c.leave r loop outcome)
  | hand (current : RecoveryLease) (hgone : loop.phase.gone = true) :
    Turn c r loop ((c.spawnRecovery current).setPhase r .done)

theorem turn_failed (hgone : loop.phase.gone = false) (error : LifecycleError) :
    Turn c r loop (c.failed r error) := by
  unfold failed
  split
  · exact .wake _ hgone rfl rfl
  · exact .wake _ hgone rfl rfl

theorem turn_unlessClosed (hgone : loop.phase.gone = false) {phase : Phase}
    (hphase : phase.gone = false)
    (hloop : phase.loop = .awake ∨ phase.loop = loop.phase.loop) :
      Turn c r loop (c.unlessClosed r phase) := by
  unfold unlessClosed
  split
  · rename_i hclosed
    exact .fence _ hgone rfl (.inr hclosed)
  · rcases hloop with hawake | hsame
    · exact .wake _ hgone hphase hawake
    · exact .same _ (hphase.trans hgone.symm) hsame

theorem turn_answered {epoch : Option Epoch} {generationID : String}
    {answer : Except LifecycleError ResumeResult}
    (hphase : loop.phase = .resumed epoch generationID answer) :
    Turn c r loop (c.answered r loop epoch generationID answer) := by
  have hgone : loop.phase.gone = false := by rw [hphase]; rfl
  cases answer with
  | error error => exact turn_failed hgone error
  | ok result =>
    have hserved : loop.phase.loop = .asked epoch := by rw [hphase]; rfl
    unfold answered
    dsimp only
    split
    · exact .wake _ hgone rfl rfl
    · split
      · exact .replay _ _ hgone hserved
      · exact .same _ hgone.symm hserved.symm

theorem turn_served {epoch : Option Epoch} {answer : Except LifecycleError Unit}
    (hphase : loop.phase = .replayed epoch answer) : Turn c r loop (c.served r epoch answer) := by
  have hgone : loop.phase.gone = false := by rw [hphase]; rfl
  cases answer with
  | error error => exact turn_failed hgone error
  | ok =>
    have hserved : loop.phase.loop = .asked epoch := by rw [hphase]; rfl
    exact .same _ hgone.symm hserved.symm

theorem turn_of_recoverTransfer {input : Input} (h : c.recoverTransfer r loop input = some c') :
    Turn c r loop c' := by
  unfold recoverTransfer at h
  split at h <;> try cases h
  all_goals rename_i hphase
  all_goals have hloop := congrArg Phase.loop hphase
  all_goals have hgone := congrArg Phase.gone hphase
  · split
    · rename_i hclosed
      exact .fence _ hgone rfl (.inr hclosed)
    · exact .wake _ hgone rfl rfl
  · split
    · exact .wake _ hgone rfl rfl
    · rename_i hother
      exact .fence _ hgone rfl (.inl hother)
  · exact .send _ _ hgone
  · exact turn_unlessClosed hgone rfl (.inl rfl)
  · exact turn_unlessClosed hgone rfl (.inr hloop.symm)
  · split
    · exact turn_answered hphase
    · rename_i hother
      exact .fence _ hgone rfl (.inl hother)
  · rename_i answer
    cases answer with
    | error error => exact turn_unlessClosed hgone rfl (.inl rfl)
    | ok => exact turn_unlessClosed hgone rfl (.inr hloop.symm)
  · split
    · exact turn_served hphase
    · rename_i hother
      exact .fence _ hgone rfl (.inl hother)
  · unfold settle
    split
    · rename_i hrequested
      rw [← hrequested] at hloop
      exact .settle hgone hloop
    · exact .wake _ hgone rfl rfl
  · exact .wake _ hgone rfl rfl
  · exact .release hgone
  · exact .same _ hgone.symm hloop.symm
  · exact .leave _ hgone hloop
  · rename_i current _
    cases c.replacement loop current with
    | none => exact .same _ hgone.symm hloop.symm
    | some current => exact .same _ hgone.symm hloop.symm
  · exact .hand _ hgone

variable {phase : Phase}

theorem key_of_gone (h : loop.phase.gone = true) : loop.key = none := if_pos h

theorem key_setPhase (hphase : phase.gone = false → loop.phase.gone = false) (lease : RecoveryLease)
    (hkey : RecoveryLoop.key { loop with phase } = some lease) : loop.key = some lease := by
  obtain ⟨hgone, hlease⟩ := key_eq_some.mp hkey
  exact key_eq_some.mpr ⟨hphase hgone, hlease⟩

theorem exclusive_setPhase (hs : Exclusive RecoveryLoop.key c.loops)
    (hentry : c.loops[r]? = some loop)
    (hphase : phase.gone = false → loop.phase.gone = false) :
    Exclusive RecoveryLoop.key (c.setPhase r phase).loops :=
  hs.modify hentry (key_setPhase hphase)

theorem holder_own (hs : Exclusive RecoveryLoop.key c.loops) (hentry : c.loops[r]? = some loop)
    (hgone : loop.phase.gone = false) : holder RecoveryLoop.key c.loops loop.lease = some loop :=
  Holders.holder_of_entry hs hentry (key_eq_some.mpr ⟨hgone, rfl⟩)

theorem holder_setPhase (hs : Exclusive RecoveryLoop.key c.loops) (hentry : c.loops[r]? = some loop)
    (hgone : loop.phase.gone = false) (hphase : phase.gone = false) :
    holder RecoveryLoop.key (c.setPhase r phase).loops loop.lease = some { loop with phase } :=
  Holders.holder_modify hs hentry (key_eq_some.mpr ⟨hgone, rfl⟩) (key_eq_some.mpr ⟨hphase, rfl⟩)

theorem holder_setPhase_gone (hs : Exclusive RecoveryLoop.key c.loops)
    (hentry : c.loops[r]? = some loop)
    (hgone : loop.phase.gone = false) (hphase : phase.gone = true) :
    holder RecoveryLoop.key (c.setPhase r phase).loops loop.lease = none := by
  apply Holders.holder_modify_none hs hentry (key_eq_some.mpr ⟨hgone, rfl⟩)
  rw [key_of_gone hphase]
  exact nofun

theorem holder_setPhase_other (hs : Exclusive RecoveryLoop.key c.loops)
    (hentry : c.loops[r]? = some loop)
    (hphase : phase.gone = false → loop.phase.gone = false)
    (hother : loop.lease ≠ lease ∨ loop.phase.gone = true) :
    holder RecoveryLoop.key (c.setPhase r phase).loops lease =
      holder RecoveryLoop.key c.loops lease := by
  apply Holders.holder_modify_ne hs hentry (key_setPhase hphase)
  intro hkey
  obtain ⟨hgone, hlease⟩ := key_eq_some.mp hkey
  rcases hother with hne | htrue
  · exact hne hlease
  · rw [hgone] at htrue
    cases htrue

theorem lease_setPhase (r' : ℕ) :
    ((c.setPhase r phase).loops[r']?).map RecoveryLoop.lease =
      (c.loops[r']?).map RecoveryLoop.lease := by
  by_cases hr : r = r'
  · subst hr
    rw [setPhase, List.getElem?_modify_eq]
    cases c.loops[r]? <;> rfl
  · have hsame : (c.setPhase r phase).loops[r']? = c.loops[r']? := List.getElem?_modify_ne _ _ hr
    rw [hsame]

theorem start_sound : Sound Control.start := by
  refine ⟨fun r r' lease h => ?_, fun lease => ?_, fun deed h => ?_⟩
  · simp [start, Holders.keyAt] at h
  · simp [start, holder]
  · simp [start] at h

theorem Sound.of_loops (hs : Sound c) (hloops : c'.loops = c.loops)
    (hrunning : c'.running = c.running)
    (hdeeds : c'.replays ++ c'.releases = c.replays ++ c.releases) : Sound c' := by
  refine ⟨?_, ?_, ?_⟩
  · rw [hloops]
    exact hs.exclusive
  · rw [hloops, hrunning]
    exact hs.running
  · rw [hloops, hdeeds]
    exact hs.deeds

theorem Sound.setPhase (hs : Sound c) (hentry : c.loops[r]? = some loop)
    (hphase : phase.gone = loop.phase.gone) :
    Sound (c.setPhase r phase) := by
  refine ⟨exclusive_setPhase hs.exclusive hentry hphase.symm.trans,
    fun lease => ?_, fun deed hdeed => ?_⟩
  · rw [← show lease ∈ c.running ↔ lease ∈ (c.setPhase r phase).running from Iff.rfl, hs.running]
    by_cases hother : loop.lease ≠ lease ∨ loop.phase.gone = true
    · rw [holder_setPhase_other hs.exclusive hentry hphase.symm.trans hother]
    · push Not at hother
      obtain ⟨rfl, hgone⟩ := hother
      have hgone := eq_false_of_ne_true hgone
      rw [holder_own hs.exclusive hentry hgone,
        holder_setPhase hs.exclusive hentry hgone (hphase.trans hgone)]
      simp
  · rw [lease_setPhase]
    exact hs.deeds deed hdeed

theorem Sound.drop (hs : Sound c) (hentry : c.loops[r]? = some loop)
    (hgone : loop.phase.gone = false)
    (hphase : phase.gone = true) :
    Sound { c.setPhase r phase with running := c.running.filter fun lease =>
      lease ≠ loop.lease } := by
  have hexclusive : Exclusive RecoveryLoop.key (c.setPhase r phase).loops :=
    exclusive_setPhase hs.exclusive hentry fun _ => hgone
  refine ⟨hexclusive, fun lease => ?_, fun deed hdeed => ?_⟩
  · show lease ∈ c.running.filter _ ↔ holder _ (c.setPhase r phase).loops lease ≠ none
    rw [List.mem_filter, hs.running, decide_eq_true_eq]
    by_cases hlease : loop.lease = lease
    · subst hlease
      rw [holder_setPhase_gone hs.exclusive hentry hgone hphase]
      simp
    · rw [holder_setPhase_other hs.exclusive hentry (fun _ => hgone) (.inl hlease)]
      exact and_iff_left (Ne.symm hlease)
  · show ((c.setPhase r phase).loops[deed.loop]?).map RecoveryLoop.lease = _
    rw [lease_setPhase]
    exact hs.deeds deed hdeed

theorem Sound.spawn (hs : Sound c) (lease : RecoveryLease) : Sound (c.spawnRecovery lease) := by
  unfold spawnRecovery
  split
  · exact hs
  · rename_i hnew
    have hnone : holder RecoveryLoop.key c.loops lease = none :=
      not_not.mp ((hs.running lease).not.mp hnew)
    have hkey : (⟨lease, .spawned⟩ : RecoveryLoop).key = some lease := rfl
    refine ⟨hs.exclusive.append fun lease' h => ?_, fun lease' => ?_, fun deed hdeed => ?_⟩
    · cases hkey.symm.trans h
      exact hnone
    · show lease' ∈ lease :: c.running ↔ _
      rw [List.mem_cons, hs.running]
      by_cases hlease : lease' = lease
      · subst hlease
        rw [Holders.holder_append hkey hnone]
        simp
      · rw [Holders.holder_append_ne (by rw [hkey]; exact fun h => hlease (Option.some.inj h).symm)]
        exact or_iff_right hlease
    · have hold := hs.deeds deed hdeed
      obtain ⟨loop, hentry, -⟩ := Option.map_eq_some_iff.mp hold
      rw [List.getElem?_append_left (List.getElem?_eq_some_iff.mp hentry).1]
      exact hold

theorem Sound.request (hs : Sound c) (lease : RecoveryLease) (epoch : Epoch) :
    Sound (c.request lease epoch) := by
  have hrequested : Sound { c with requestedEpoch := some epoch } := hs.of_loops rfl rfl rfl
  exact hrequested.spawn lease

theorem release_cases (owner : Option RecoveryLease) : c.releaseRecoveryLease owner = c ∨
    c.releaseRecoveryLease owner = { c with requestedEpoch := none, lease := none } ∧
      ∀ lease ∈ c.lease, owner = none ∨ owner = some lease := by
  unfold releaseRecoveryLease
  split
  · exact .inl rfl
  · split
    · exact .inl rfl
    · rename_i current hlease howner
      refine .inr ⟨rfl, fun lease hmem => ?_⟩
      obtain rfl : current = lease := Option.some.inj (hlease.symm.trans hmem)
      by_cases hnone : owner = none
      · exact .inl hnone
      · exact .inr (not_not.mp fun hne => howner ⟨hnone, hne⟩)

theorem Sound.release (hs : Sound c) (owner : Option RecoveryLease) :
    Sound (c.releaseRecoveryLease owner) := by
  rcases release_cases (c := c) owner with hsame | ⟨hreleased, -⟩
  · rw [hsame]
    exact hs
  · rw [hreleased]
    exact hs.of_loops rfl rfl rfl

theorem release_loops (owner : Option RecoveryLease) :
    (c.releaseRecoveryLease owner).loops = c.loops := by
  rcases release_cases (c := c) owner with hsame | ⟨hreleased, -⟩
  · rw [hsame]
  · rw [hreleased]

theorem release_deeds (owner : Option RecoveryLease) :
    (c.releaseRecoveryLease owner).replays = c.replays ∧
    (c.releaseRecoveryLease owner).releases = c.releases := by
  rcases release_cases (c := c) owner with hsame | ⟨hreleased, -⟩
  · rw [hsame]
    exact ⟨rfl, rfl⟩
  · rw [hreleased]
    exact ⟨rfl, rfl⟩

theorem Sound.deed (hs : Sound c) (hentry : c.loops[r]? = some loop) {phase : Phase}
    {replays releases : List Deed}
    (hloops : Sound (c.setPhase r phase))
    (hnew : ∀ deed ∈ replays ++ releases, deed ∈ c.replays ++ c.releases ∨
      deed = ⟨r, loop.lease⟩) : Sound { c.setPhase r phase with replays := replays, releases :=
        releases } := by
  refine ⟨hloops.exclusive, hloops.running, fun deed hdeed => ?_⟩
  show ((c.setPhase r phase).loops[deed.loop]?).map RecoveryLoop.lease = _
  rw [lease_setPhase]
  rcases hnew deed hdeed with hold | rfl
  · exact hs.deeds deed hold
  · rw [hentry]
    rfl

theorem Sound.releaseOwn (hs : Sound c) (hentry : c.loops[r]? = some loop)
    (hgone : loop.phase.gone = false) :
    Sound (c.releaseOwn r loop) := by
  have hreleased := hs.release (some loop.lease)
  have hentry' : (c.releaseRecoveryLease (some loop.lease)).loops[r]? = some loop := by
    rw [release_loops]
    exact hentry
  have hending : Sound ((c.releaseRecoveryLease (some loop.lease)).setPhase r (.ending .stopped)) :=
    hreleased.setPhase hentry' hgone.symm
  refine hreleased.deed hentry' hending fun deed hdeed => ?_
  rw [(release_deeds (some loop.lease)).2, List.mem_append]
  rcases List.mem_append.mp hdeed with hold | hnew
  · exact .inl (.inl hold)
  · rcases List.mem_append.mp hnew with hold | hnew
    · exact .inl (.inr hold)
    · right
      obtain ⟨lease, hlease, rfl⟩ := List.mem_map.mp hnew
      rcases release_cases (c := c) (some loop.lease) with hsame | ⟨hreleased, howner⟩
      · -- nothing was taken
        rw [hsame] at hlease
        split at hlease
        · rename_i hnone
          rw [hnone] at hlease
          cases hlease
        · cases hlease
      · rw [hreleased, if_pos rfl] at hlease
        rcases howner lease (Option.mem_toList.mp hlease) with hnone | hown
        · cases hnone
        · cases hown
          rfl

theorem spawn_entry (hentry : c.loops[r]? = some loop) (current : RecoveryLease) :
    (c.spawnRecovery current).loops[r]? = some loop := by
  unfold spawnRecovery
  split
  · exact hentry
  · exact (List.getElem?_append_left (List.getElem?_eq_some_iff.mp hentry).1).trans hentry

theorem turn_sound (hs : Sound c) (hentry : c.loops[r]? = some loop) (hturn : Turn c r loop c') :
    Sound c' := by
  cases hturn with
  | wake phase hphase hgone hawake => exact hs.setPhase hentry (hgone.trans hphase.symm)
  | same phase hgone hsame => exact hs.setPhase hentry hgone
  | replay epoch generationID hgone hserved =>
    have hreplaying : Sound (c.setPhase r (.replaying epoch generationID)) :=
      hs.setPhase hentry hgone.symm
    refine hs.deed hentry hreplaying fun deed hdeed => ?_
    rw [List.mem_append]
    rcases List.mem_append.mp hdeed with hnew | hold
    · rcases List.mem_append.mp hnew with hold | hnew
      · exact .inl (.inl hold)
      · exact .inr (List.mem_singleton.mp hnew)
    · exact .inl (.inr hold)
  | send epoch generationID hgone =>
    have hsent : Sound (c.setPhase r (.resuming epoch generationID true)) :=
      hs.setPhase hentry hgone.symm
    exact hsent.of_loops rfl rfl rfl
  | settle hgone hserved => exact hs.drop hentry hgone rfl
  | release hgone => exact hs.releaseOwn hentry hgone
  | fence phase hphase hgone hlost => exact hs.setPhase hentry (hgone.trans hphase.symm)
  | leave outcome hgone hblind =>
    apply hs.drop hentry hgone
    split <;> rfl
  | hand current hgone =>
    exact (hs.spawn current).setPhase (spawn_entry hentry current) hgone.symm

theorem step_sound (hs : Sound c) (h : c.step i = some c') : Sound c' := by
  cases i with
  | registerRecoveryLease lease =>
    cases h
    exact hs.of_loops rfl rfl rfl
  | releaseRecoveryLease owner =>
    cases h
    exact hs.release owner
  | continueRecoveryLease owner id =>
    cases h
    unfold continueRecoveryLease
    split
    · exact hs
    · split
      · exact hs
      · exact hs.request _ _
  | observeRuntimeEpochs runtimeEpoch transportEpoch =>
    cases h
    unfold observeRuntimeEpochs
    split
    · split
      · exact hs
      · have hobserved : ∀ epoch : Epoch, Sound { c with runtimeEpoch := some epoch } :=
          fun _ => hs.of_loops rfl rfl rfl
        dsimp only
        split
        · exact hobserved _
        · split
          · exact hobserved _
          · exact (hobserved _).request _ _
    · exact hs
  | recoverTransfer r input =>
    obtain ⟨loop, hentry, hturn⟩ := Option.bind_eq_some_iff.mp h
    exact turn_sound hs hentry (turn_of_recoverTransfer hturn)
  | close =>
    cases h
    exact hs.of_loops rfl rfl rfl
  | takeLeases =>
    obtain ⟨-, h⟩ := Option.ite_none_right_eq_some.mp h
    cases h
    exact hs.of_loops rfl rfl rfl

theorem watch_own (hs : Sound c) (hentry : c.loops[r]? = some loop)
    (hgone : loop.phase.gone = false) :
    (watch loop.lease c).loop = loop.phase.loop := by
  show (holder RecoveryLoop.key c.loops loop.lease).elim _ _ = _
  rw [holder_own hs.exclusive hentry hgone]
  rfl

theorem watch_setPhase (hs : Sound c) (hentry : c.loops[r]? = some loop)
    (hgone : loop.phase.gone = false)
    (hphase : phase.gone = false) :
    watch loop.lease (c.setPhase r phase) = { watch loop.lease c with loop := phase.loop } := by
  unfold watch
  rw [holder_setPhase hs.exclusive hentry hgone hphase]
  rfl

theorem watch_drop (hs : Sound c) (hentry : c.loops[r]? = some loop)
    (hgone : loop.phase.gone = false)
    (hphase : phase.gone = true) :
    watch loop.lease (c.setPhase r phase) = { watch loop.lease c with loop := .idle } := by
  unfold watch
  rw [holder_setPhase_gone hs.exclusive hentry hgone hphase]
  rfl

theorem watch_other (hs : Sound c) (hentry : c.loops[r]? = some loop)
    (hphase : phase.gone = false → loop.phase.gone = false)
    (hother : loop.lease ≠ lease ∨ loop.phase.gone = true) :
    watch lease (c.setPhase r phase) = watch lease c := by
  unfold watch
  rw [holder_setPhase_other hs.exclusive hentry hphase hother]
  rfl

theorem watch_idle (h : holder RecoveryLoop.key c.loops lease = none) :
    (watch lease c).loop = .idle := by
  show (holder RecoveryLoop.key c.loops lease).elim _ _ = _
  rw [h]
  rfl

theorem holder_of_loop (h : (watch lease c).loop ≠ .idle) :
    ∃ loop ∈ c.loops, loop.key = some lease ∧ (watch lease c).loop = loop.phase.loop := by
  cases hholder : holder RecoveryLoop.key c.loops lease with
  | none => exact absurd (watch_idle hholder) h
  | some loop =>
    obtain ⟨r, hentry, hkey⟩ := Holders.entry_of_holder hholder
    refine ⟨loop, List.mem_of_getElem? hentry, hkey, ?_⟩
    show (holder RecoveryLoop.key c.loops lease).elim _ _ = _
    rw [hholder]
    rfl

theorem watch_spawn_ne {current : RecoveryLease} (hne : current ≠ lease) :
    watch lease (c.spawnRecovery current) = watch lease c := by
  unfold spawnRecovery
  split
  · rfl
  · have hkey : (⟨current, .spawned⟩ : RecoveryLoop).key ≠ some lease :=
      fun h => hne (Option.some.inj h)
    unfold watch
    rw [Holders.holder_append_ne hkey]

theorem watch_spawn (hs : Sound c) :
    watch lease (c.spawnRecovery lease) =
      { watch lease c with loop := (watch lease c).loop.woken } := by
  unfold spawnRecovery
  split
  · rename_i hrunning
    have hholder := (hs.running lease).mp hrunning
    obtain ⟨loop, hholder⟩ := Option.ne_none_iff_exists'.mp hholder
    obtain ⟨r, -, hkey⟩ := Holders.entry_of_holder hholder
    have hwoken : (watch lease c).loop.woken = (watch lease c).loop := by
      show ((holder RecoveryLoop.key c.loops lease).elim _ _ : Wakeup.Loop Epoch).woken =
          (holder _ c.loops lease).elim _ _
      rw [hholder]
      have hgone := (key_eq_some.mp hkey).1
      show loop.phase.loop.woken = loop.phase.loop
      unfold Phase.loop
      rw [hgone]
      cases loop.phase.stopping with
      | true => rfl
      | false => cases loop.phase.served <;> rfl
    rw [hwoken]
  · rename_i hnew
    have hnone : holder RecoveryLoop.key c.loops lease = none :=
      not_not.mp ((hs.running lease).not.mp hnew)
    rw [watch_idle hnone]
    have hkey : (⟨lease, .spawned⟩ : RecoveryLoop).key = some lease := rfl
    unfold watch
    rw [Holders.holder_append hkey hnone]
    rfl

theorem request_move (hs : Sound c) (epoch : Epoch) : Move (watch lease c) (some epoch)
    (watch lease (c.request lease epoch)) := by
  have hrequested : Sound { c with requestedEpoch := some epoch } := hs.of_loops rfl rfl rfl
  rw [request, watch_spawn hrequested]
  exact .request (watch lease c) epoch

theorem hand_move (hs : Sound c) (hentry : c.loops[r]? = some loop) (hgone : loop.phase.gone = true)
    (current : RecoveryLease) : Move (watch lease c) none
      (watch lease ((c.spawnRecovery current).setPhase r .done)) := by
  have hleft : watch lease ((c.spawnRecovery current).setPhase r .done) =
      watch lease (c.spawnRecovery current) :=
    watch_other (hs.spawn current) (spawn_entry hentry current) nofun (.inr hgone)
  rw [hleft]
  by_cases hcurrent : current = lease
  · rw [hcurrent, watch_spawn hs]
    exact Wakeup.move_woken _
  · rw [watch_spawn_ne hcurrent]
    exact .stay _

theorem release_other (hlease : c.lease = some lease)
    (hstill : (c.releaseOwn r loop).lease = some lease) :
    loop.lease ≠ lease ∧ c.releaseRecoveryLease (some loop.lease) = c := by
  by_cases hown : loop.lease = lease
  · simp [releaseOwn, releaseRecoveryLease, setPhase, hlease, hown] at hstill
  · refine ⟨hown, ?_⟩
    simp [releaseRecoveryLease, hlease, hown]

theorem turn_move (hs : Sound c) (hentry : c.loops[r]? = some loop) (hturn : Turn c r loop c')
    (hlease : Registered lease c) (hstill : Registered lease c') :
      Move (watch lease c) none (watch lease c') := by
  -- a loop of another lease changes nothing that the lease's requests find
  have hother : loop.lease ≠ lease → ∀ phase : Phase,
      (phase.gone = false → loop.phase.gone = false) →
      Move (watch lease c) none (watch lease (c.setPhase r phase)) := by
    intro hne phase hphase
    rw [watch_other hs hentry hphase (.inl hne)]
    exact .stay _
  by_cases hown : loop.lease = lease
  · subst hown
    cases hturn with
    | wake phase hphase hgone hawake =>
      rw [watch_setPhase hs hentry hphase hgone, hawake]
      exact .wake _ _ _
    | same phase hgone hsame =>
      cases hphase : loop.phase.gone with
      | true =>
        rw [watch_other hs hentry (fun h => hgone.symm.trans h) (.inr hphase)]
        exact .stay _
      | false =>
        rw [watch_setPhase hs hentry hphase (hgone.trans hphase), hsame,
          ← watch_own hs hentry hphase]
        exact .stay _
    | replay epoch generationID hgone hserved =>
      show Move _ none (watch loop.lease (c.setPhase r (.replaying epoch generationID)))
      have hsame : (Phase.replaying epoch generationID).loop = (watch loop.lease c).loop :=
        hserved.symm.trans (watch_own hs hentry hgone).symm
      rw [watch_setPhase hs hentry hgone rfl, hsame]
      exact .stay _
    | send epoch generationID hgone =>
      have hsent : watch loop.lease
          { c.setPhase r (.resuming epoch generationID true) with resumes := c.resumes ++
            [⟨loop.lease, generationID⟩] } =
          { watch loop.lease (c.setPhase r (.resuming epoch generationID true)) with
            sent := (watch loop.lease c).sent + 1 } := by
        simp [watch, List.countP_append]
      rw [hsent, watch_setPhase hs hentry hgone rfl]
      exact .send _ _ _ _
    | settle hgone hserved =>
      show Move _ none (watch loop.lease (c.setPhase r .done))
      have hasked : (watch loop.lease c).loop = .asked (watch loop.lease c).requested :=
        (watch_own hs hentry hgone).trans hserved
      have hmove := Move.settle (watch loop.lease c).requested .idle (watch loop.lease c).sent
      rw [← hasked] at hmove
      rw [watch_drop hs hentry hgone rfl]
      exact hmove
    | release hgone => exact absurd rfl (release_other hlease.1 hstill.1).1
    | fence phase hphase hgone hlost =>
      rcases hlost with hlost | hclosed
      · exact absurd hlease.1 hlost
      · rw [hlease.2] at hclosed
        cases hclosed
    | leave outcome hgone hblind =>
      have hphase : (if outcome = .replaced then Phase.left c.lease else .done).gone = true := by
        split <;> rfl
      show Move _ none
        (watch loop.lease (c.setPhase r (if outcome = .replaced then .left c.lease else .done)))
      rw [watch_drop hs hentry hgone hphase]
      exact .idle _ _ _ (.inr ((watch_own hs hentry hgone).trans hblind))
    | hand current hgone => exact hand_move hs hentry hgone current
  · cases hturn with
    | wake phase hphase hgone hawake => exact hother hown phase fun _ => hphase
    | same phase hgone hsame => exact hother hown phase hgone.symm.trans
    | replay epoch generationID hgone hserved =>
        exact hother hown (.replaying epoch generationID) fun _ => hgone
    | send epoch generationID hgone =>
      have hsame : watch lease
          { c.setPhase r (.resuming epoch generationID true) with resumes := c.resumes ++
            [⟨loop.lease, generationID⟩] } =
          watch lease (c.setPhase r (.resuming epoch generationID true)) := by
        simp [watch, List.countP_append, hown, setPhase]
      rw [hsame]
      exact hother hown _ fun _ => hgone
    | settle hgone hserved => exact hother hown .done fun _ => hgone
    | release hgone =>
      show Move _ none
        (watch lease ((c.releaseRecoveryLease (some loop.lease)).setPhase r (.ending .stopped)))
      rw [(release_other hlease.1 hstill.1).2]
      exact hother hown _ fun _ => hgone
    | fence phase hphase hgone hlost => exact hother hown phase fun _ => hphase
    | leave outcome hgone hblind => exact hother hown _ fun _ => hgone
    | hand current hgone => exact hand_move hs hentry hgone current

/-- The step asks for a recovery that the lease's loop does not see: it has looked for the last
time, or took this epoch for its attempt. An observed epoch counts where it was not the newest. -/
def Forgets (c : Control) : Step → Prop
  | .continueRecoveryLease owner id =>
      ∃ lease, ∃ loop ∈ c.loops, c.lease = some lease ∧ loop.key = some lease ∧
      (owner = none ∨ owner = some lease) ∧
      (loop.phase.stopping = true ∨ loop.phase.served = some (some (c.continuedEpoch id)))
  | .observeRuntimeEpochs (some runtimeEpoch) (some transportEpoch) => ∃ lease, ∃ loop ∈ c.loops,
      c.lease = some lease ∧ loop.key = some lease ∧
        c.requestedEpoch ≠ some (runtimeEpoch, transportEpoch) ∧
      loop.phase.served = some (some (runtimeEpoch, transportEpoch))
  | _ => False

theorem served_of_repeats {epoch : Epoch} (h : Repeats (watch lease c) epoch) :
    ∃ loop ∈ c.loops, loop.key = some lease ∧ loop.phase.served = some (some epoch) := by
  have hasked : (watch lease c).loop = .asked (some epoch) := h
  obtain ⟨loop, hloop, hkey, hwatch⟩ := holder_of_loop (by rw [hasked]; exact nofun)
  refine ⟨loop, hloop, hkey, ?_⟩
  rw [hasked, Phase.loop, (key_eq_some.mp hkey).1] at hwatch
  cases hstopping : loop.phase.stopping with
  | true =>
    rw [hstopping] at hwatch
    cases hwatch
  | false =>
    rw [hstopping] at hwatch
    cases hserved : loop.phase.served with
    | none =>
      rw [hserved] at hwatch
      cases hwatch
    | some started =>
      rw [hserved] at hwatch
      cases hwatch
      rfl

theorem stopping_of_blind (h : (watch lease c).loop = .blind) :
    ∃ loop ∈ c.loops, loop.key = some lease ∧ loop.phase.stopping = true := by
  obtain ⟨loop, hloop, hkey, hwatch⟩ := holder_of_loop (by rw [h]; exact nofun)
  refine ⟨loop, hloop, hkey, ?_⟩
  rw [h, Phase.loop, (key_eq_some.mp hkey).1] at hwatch
  by_contra hstopping
  rw [eq_false_of_ne_true hstopping] at hwatch
  cases hserved : loop.phase.served with
  | none =>
    rw [hserved] at hwatch
    cases hwatch
  | some started =>
    rw [hserved] at hwatch
    cases hwatch

/-- For a lease that stays registered every step is a move, and a repeated request one that the
client forgets. -/
theorem step_move (hs : Sound c) (h : c.step i = some c') (hlease : Registered lease c)
    (hstill : Registered lease c') :
    ∃ r, Move (watch lease c) r (watch lease c') ∧ ∀ epoch, r = some epoch →
      (watch lease c).requested ≠ some epoch →
      Repeats (watch lease c) epoch → Forgets c i := by
  cases i with
  | registerRecoveryLease other =>
    cases h
    exact ⟨none, .stay _, nofun⟩
  | releaseRecoveryLease owner =>
    cases h
    rcases release_cases (c := c) owner with hsame | ⟨hreleased, -⟩
    · rw [hsame]
      exact ⟨none, .stay _, nofun⟩
    · rw [hreleased] at hstill
      cases hstill.1
  | continueRecoveryLease owner id =>
    cases h
    unfold continueRecoveryLease
    rw [hlease.1]
    dsimp only
    split
    · exact ⟨none, .stay _, nofun⟩
    · rename_i howner
      refine ⟨some (c.continuedEpoch id), request_move hs _, fun epoch hepoch _ hrepeats => ?_⟩
      cases hepoch
      obtain ⟨loop, hloop, hkey, hserved⟩ := served_of_repeats hrepeats
      refine ⟨lease, loop, hloop, hlease.1, hkey, ?_, .inr hserved⟩
      by_contra hneither
      push Not at hneither
      exact howner hneither
  | observeRuntimeEpochs runtimeEpoch transportEpoch =>
    cases h
    unfold observeRuntimeEpochs
    split
    · rename_i runtimeEpoch transportEpoch
      split
      · exact ⟨none, .stay _, nofun⟩
      · dsimp only
        split
        · exact ⟨none, .stay _, nofun⟩
        · split
          · rename_i hnone
            exact absurd (hlease.1.symm.trans hnone) nofun
          · rename_i registered hregistered
            obtain rfl : lease = registered := Option.some.inj (hlease.1.symm.trans hregistered)
            have hobserved : Sound { c with runtimeEpoch := some (runtimeEpoch, transportEpoch) } :=
              hs.of_loops rfl rfl rfl
            refine ⟨some (runtimeEpoch, transportEpoch), request_move hobserved _, ?_⟩
            intro epoch hepoch hnew hrepeats
            cases hepoch
            obtain ⟨loop, hloop, hkey, hserved⟩ := served_of_repeats hrepeats
            exact ⟨lease, loop, hloop, hlease.1, hkey, hnew, hserved⟩
    · exact ⟨none, .stay _, nofun⟩
  | recoverTransfer r input =>
    obtain ⟨loop, hentry, hturn⟩ := Option.bind_eq_some_iff.mp h
    exact ⟨none, turn_move hs hentry (turn_of_recoverTransfer hturn) hlease hstill, nofun⟩
  | close =>
    cases h
    cases hstill.2
  | takeLeases =>
    obtain ⟨-, h⟩ := Option.ite_none_right_eq_some.mp h
    cases h
    cases hstill.1

structure Keeps (c c' : Control) : Prop where
  resumes : c.resumes <+: c'.resumes
  open_of_open : c'.closed = false → c.closed = false

theorem keeps_of_eq (hresumes : c'.resumes = c.resumes) (hclosed : c'.closed = c.closed) :
    Keeps c c' :=
  ⟨hresumes ▸ List.prefix_rfl, fun h => hclosed.symm.trans h⟩

theorem keeps_release (owner : Option RecoveryLease) : Keeps c (c.releaseRecoveryLease owner) := by
  rcases release_cases (c := c) owner with hsame | ⟨hreleased, -⟩
  · rw [hsame]
    exact keeps_of_eq rfl rfl
  · rw [hreleased]
    exact keeps_of_eq rfl rfl

theorem keeps_spawn (lease : RecoveryLease) : Keeps c (c.spawnRecovery lease) := by
  unfold spawnRecovery
  split <;> exact keeps_of_eq rfl rfl

theorem turn_keeps (hturn : Turn c r loop c') : Keeps c c' := by
  cases hturn with
  | wake phase hphase hgone hawake => exact keeps_of_eq rfl rfl
  | same phase hgone hsame => exact keeps_of_eq rfl rfl
  | replay epoch generationID hgone hserved => exact keeps_of_eq rfl rfl
  | send epoch generationID hgone => exact ⟨List.prefix_append _ _, id⟩
  | settle hgone hserved => exact keeps_of_eq rfl rfl
  | release hgone =>
    have hreleased := keeps_release (c := c) (some loop.lease)
    exact ⟨hreleased.resumes, hreleased.open_of_open⟩
  | fence phase hphase hgone hlost => exact keeps_of_eq rfl rfl
  | leave outcome hgone hblind => exact keeps_of_eq rfl rfl
  | hand current hgone =>
    have hspawned := keeps_spawn (c := c) current
    exact ⟨hspawned.resumes, hspawned.open_of_open⟩

theorem keeps_request (lease : RecoveryLease) (epoch : Epoch) :
    Keeps c (c.request lease epoch) := by
  have hspawned := keeps_spawn (c := { c with requestedEpoch := some epoch }) lease
  exact ⟨hspawned.resumes, hspawned.open_of_open⟩

theorem step_keeps (h : c.step i = some c') : Keeps c c' := by
  cases i with
  | registerRecoveryLease lease =>
    cases h
    exact keeps_of_eq rfl rfl
  | releaseRecoveryLease owner =>
    cases h
    exact keeps_release owner
  | continueRecoveryLease owner id =>
    cases h
    unfold continueRecoveryLease
    split
    · exact keeps_of_eq rfl rfl
    · split
      · exact keeps_of_eq rfl rfl
      · exact keeps_request _ _
  | observeRuntimeEpochs runtimeEpoch transportEpoch =>
    cases h
    unfold observeRuntimeEpochs
    split
    · split
      · exact keeps_of_eq rfl rfl
      · dsimp only
        split
        · exact keeps_of_eq rfl rfl
        · split
          · exact keeps_of_eq rfl rfl
          · rename_i runtimeEpoch transportEpoch _ _ _ lease _
            have hrequest :=
              keeps_request
                (c := { c with runtimeEpoch := some (runtimeEpoch, transportEpoch) }) lease
              (runtimeEpoch, transportEpoch)
            exact ⟨hrequest.resumes, hrequest.open_of_open⟩
    · exact keeps_of_eq rfl rfl
  | recoverTransfer r input =>
    obtain ⟨loop, -, hturn⟩ := Option.bind_eq_some_iff.mp h
    exact turn_keeps (turn_of_recoverTransfer hturn)
  | close =>
    cases h
    exact ⟨List.prefix_rfl, nofun⟩
  | takeLeases =>
    obtain ⟨-, h⟩ := Option.ite_none_right_eq_some.mp h
    cases h
    exact keeps_of_eq rfl rfl

/-- In a run where no recovery is forgotten: once recovery is asked for a registered lease, and as
long as that lease is registered, a resume was sent for it or its loop is under way. -/
theorem continue_resumes {earlier later : List Step} {u w : Control} {owner : Option RecoveryLease}
    {id : String}
    (hu : Run.after step Control.start earlier = some u) (hlease : u.lease = some lease)
    (howner : owner = none ∨ owner = some lease)
    (hw : Run.after step (u.continueRecoveryLease owner id) later = some w)
    (hnever : Run.Never step Control.start
      (earlier ++ .continueRecoveryLease owner id :: later) Forgets)
    (hstill : Run.Always step (u.continueRecoveryLease owner id) later
      (fun c => c.lease = some lease))
    (hopen : w.closed = false) (hgone : ∀ loop ∈ w.loops, loop.key ≠ some lease) :
    ∃ resume ∈ w.resumes.drop u.resumes.length, resume.lease = lease := by
  have hsound : Sound u := Run.after_invariant (fun _ _ _ hs h => step_sound hs h) start_sound hu
  have hcall : u.step (.continueRecoveryLease owner id) = some (u.continueRecoveryLease owner id) :=
    rfl
  have hgood : ¬ Forgets u (.continueRecoveryLease owner id) := hnever earlier _ later u rfl hu
  have hlater : Run.Never step (u.continueRecoveryLease owner id) later Forgets := by
    rw [List.append_cons] at hnever
    exact hnever.of_append (Run.after_snoc.mpr ⟨u, hu, hcall⟩)
  have hrequest : u.continueRecoveryLease owner id = u.request lease (u.continuedEpoch id) := by
    unfold continueRecoveryLease
    rw [hlease]
    refine if_neg fun hother => ?_
    rcases howner with hnone | hsame
    · exact hother.1 hnone
    · exact hother.2 hsame
  have hpending : Pending (watch lease u).sent
      (watch lease (u.continueRecoveryLease owner id)) := by
    have hrequested : Sound { u with requestedEpoch := some (u.continuedEpoch id) } :=
      hsound.of_loops rfl rfl rfl
    rw [hrequest, request, watch_spawn hrequested]
    refine Wakeup.pending_request (w := watch lease u) (fun hblind => ?_) fun hrepeats => ?_
    · obtain ⟨loop, hloop, hkey, hstopping⟩ := stopping_of_blind hblind
      exact hgood ⟨lease, loop, hloop, hlease, hkey, howner, .inl hstopping⟩
    · obtain ⟨loop, hloop, hkey, hserved⟩ := served_of_repeats hrepeats
      exact hgood ⟨lease, loop, hloop, hlease, hkey, howner, .inr hserved⟩
  -- the client is open all along, for it is open at the end
  have hopened : Run.Always step (u.continueRecoveryLease owner id) later
      (fun c => c.closed = false) :=
    Run.always_of_last (I := fun _ => True) (fun _ _ _ _ _ => trivial)
      (fun _ _ _ _ h => (step_keeps h).open_of_open)
      trivial hw hopen
  have halways : Run.Always step (u.continueRecoveryLease owner id) later (Registered lease) :=
    fun earlier later v hsplit hv =>
      ⟨hstill earlier later v hsplit hv, hopened earlier later v hsplit hv⟩
  have hlast := Wakeup.pending_along (watch lease)
    (fun v i v' hv hP h => ⟨step_sound hv h, fun hP' => step_move hv h hP hP'⟩)
      (step_sound hsound hcall) hpending hw
    halways hlater
  have hidle : (watch lease w).loop = .idle := watch_idle (Holders.holder_eq_none.mpr hgone)
  have hprefix : u.resumes <+: w.resumes :=
    Run.after_invariant (I := fun c => u.resumes <+: c.resumes)
    (fun _ _ _ hprefix h => hprefix.trans (step_keeps h).resumes) (step_keeps hcall).resumes hw
  obtain ⟨resume, hresume, hsame⟩ := Wakeup.exists_later hprefix (hlast.sent hidle)
  exact ⟨resume, hresume, of_decide_eq_true hsame⟩

/-- In every run: no lease has two loops, and what a loop replays or releases is its own lease.
Where no recovery is forgotten, none that is asked for a lease is lost while the lease stays
registered. -/
theorem rust_recovery_exact {is : List Step} {w : Control}
    (hw : Run.after step Control.start is = some w) :
    (∀ lease, w.loops.countP (fun loop => loop.key = some lease) ≤ 1) ∧
    (∀ deed ∈ w.replays ++ w.releases, (w.loops[deed.loop]?).map RecoveryLoop.lease =
      some deed.lease) ∧
    (Run.Never step Control.start is Forgets → ∀ earlier owner id later u lease,
      is = earlier ++ .continueRecoveryLease owner id :: later →
        Run.after step Control.start earlier = some u →
      u.lease = some lease → (owner = none ∨ owner = some lease) →
      Run.Always step (u.continueRecoveryLease owner id) later (fun c => c.lease = some lease) →
        w.closed = false →
      (∀ loop ∈ w.loops, loop.key ≠ some lease) →
      ∃ resume ∈ w.resumes.drop u.resumes.length, resume.lease = lease) := by
  have hsound : Sound w := Run.after_invariant (fun _ _ _ hs h => step_sound hs h) start_sound hw
  refine ⟨hsound.exclusive.count_le, hsound.deeds, ?_⟩
  rintro hnever earlier owner id later u lease rfl hu hlease howner hstill hopen hgone
  obtain ⟨v, hv, hw⟩ := Run.after_append.mp hw
  cases hu.symm.trans hv
  obtain ⟨v, hcall, hw⟩ := Run.after_cons.mp hw
  cases hcall
  exact continue_resumes hu hlease howner hw hnever hstill hopen hgone

def sampleLease : RecoveryLease := ⟨0, "fingerprint", "coordinates"⟩

def sampleChanged : List Step :=
  [.registerRecoveryLease sampleLease, .observeRuntimeEpochs (some "runtime") (some "first"),
    .observeRuntimeEpochs (some "runtime") (some "second"),
      .recoverTransfer 0 (.proceed "generation"),
    .recoverTransfer 0 (.proceed "generation"), .recoverTransfer 0 .send]

def sampleSettled : List Step :=
  [.recoverTransfer 0 (.resumed (.ok ⟨some "reconciling", none⟩)),
    .recoverTransfer 0 (.proceed "generation"),
    .recoverTransfer 0 (.proceed "generation")]

/-- The foreground asks for recovery then, by the same epoch, and the loop ends without it. -/
theorem sample_rust_forgotten : ∃ u w, Run.after step Control.start sampleChanged = some u ∧
    u.lease = some sampleLease ∧
    Run.after step (u.continueRecoveryLease (some sampleLease) "foreground")
      sampleSettled = some w ∧
    Run.Always step (u.continueRecoveryLease (some sampleLease) "foreground") sampleSettled
      (fun c => c.lease = some sampleLease) ∧
    w.closed = false ∧ (∀ loop ∈ w.loops, loop.key ≠ some sampleLease) ∧
    ¬ ∃ resume ∈ w.resumes.drop u.resumes.length, resume.lease = sampleLease := by
  exact ⟨_, _, rfl,
    by decide, rfl, Run.always_of_check (by decide), by decide, by decide, by decide⟩

def mayForget (c : Control) : Step → Prop
  | .continueRecoveryLease _ _ | .observeRuntimeEpochs _ _ => ∃ loop ∈ c.loops, loop.key ≠ none
  | _ => False

instance (c : Control) : (i : Step) → Decidable (mayForget c i)
  | .continueRecoveryLease _ _ | .observeRuntimeEpochs _ _ =>
      inferInstanceAs (Decidable (∃ loop ∈ c.loops, loop.key ≠ none))
  | .registerRecoveryLease _ | .releaseRecoveryLease _ | .recoverTransfer _ _ | .close |
      .takeLeases =>
    inferInstanceAs (Decidable False)

theorem mayForget_of_forgets (h : Forgets c i) : mayForget c i := by
  cases i with
  | continueRecoveryLease owner id =>
    obtain ⟨lease, loop, hloop, -, hkey, -⟩ := h
    exact ⟨loop, hloop, by rw [hkey]; exact nofun⟩
  | observeRuntimeEpochs runtimeEpoch transportEpoch =>
    unfold Forgets at h
    split at h
    · rename_i hstep
      cases hstep
    · obtain ⟨lease, loop, hloop, -, hkey, -⟩ := h
      exact ⟨loop, hloop, by rw [hkey]; exact nofun⟩
    · cases h
  | registerRecoveryLease lease => exact h
  | releaseRecoveryLease owner => exact h
  | recoverTransfer r input => exact h
  | close => exact h
  | takeLeases => exact h

def sampleLoop : List Step :=
  .recoverTransfer 0 (.proceed "generation") :: .recoverTransfer 0 (.proceed "generation") ::
    .recoverTransfer 0 .send ::
    sampleSettled

theorem sample_rust_resumes : ∃ u w,
    Run.after step Control.start [.registerRecoveryLease sampleLease] = some u ∧
    Run.after step (u.continueRecoveryLease none "foreground") sampleLoop = some w ∧
    ∃ resume ∈ w.resumes.drop u.resumes.length, resume.lease = sampleLease := by
  have hnever : Run.Never step Control.start
      ([.registerRecoveryLease sampleLease] ++ .continueRecoveryLease none "foreground" ::
        sampleLoop) mayForget :=
    Run.never_of_check (by decide)
  have hu : Run.after step Control.start [.registerRecoveryLease sampleLease] =
      some (Control.start.registerRecoveryLease sampleLease) := rfl
  obtain ⟨w, hw, hrun, hopen, hgone⟩ : ∃ w, Run.after step
      ((Control.start.registerRecoveryLease sampleLease).continueRecoveryLease none "foreground")
        sampleLoop = some w ∧
      Run.after step Control.start
        ([.registerRecoveryLease sampleLease] ++ .continueRecoveryLease none "foreground" ::
          sampleLoop) = some w ∧
      w.closed = false ∧ ∀ loop ∈ w.loops, loop.key ≠ some sampleLease :=
        ⟨_, rfl, rfl, by decide, by decide⟩
  refine ⟨_, w, hu, hw, ?_⟩
  exact (rust_recovery_exact hrun).2.2 (hnever.mono fun _ _ h => mayForget_of_forgets h)
    _ none "foreground" _ _ sampleLease rfl
    hu rfl (.inl rfl) (Run.always_of_check (by decide)) hopen hgone

end Control
end Beam.Rust
