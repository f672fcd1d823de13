import BeamSdk.TypeScript.Recovery

/-! An operation replays and releases its own lease only, and a recovery that is asked for a
registered lease is not forgotten, unless the lease's operation takes the call for the one that it
has served, or has returned. -/

namespace Beam.TypeScript
open Holders (holder keyAt Exclusive)
open Wakeup (Watch Move Repeats Pending)

def Phase.served : Phase → Option (Option String)
  | .resuming epoch _ true | .replaying epoch _ => some epoch
  | _ => none

def Phase.loop : Phase → Wakeup.Loop String
  | .done => .idle
  | .returned _ => .blind
  | phase => phase.served.elim .awake .asked

/-- The lease whose entry of `recoveryOperations` the operation is. -/
def Operation.key (operation : Operation) : Option TransferRecoveryLease :=
  if operation.phase = .done then none else some operation.lease

namespace Control
variable {c c' : Control} {lease : TransferRecoveryLease} {operation : Operation} {r : ℕ}
    {phase : Phase} {i : Step}

def watch (lease : TransferRecoveryLease) (c : Control) : Watch String where
  requested := c.recoveryRequestedEpoch
  loop := (holder Operation.key c.operations lease).elim .idle fun operation => operation.phase.loop
  sent := c.resumes.countP (·.lease = lease)

/-- The map holds the operations that are not done, and every deed was done by an operation to its
own lease. -/
structure Sound (c : Control) : Prop where
  operations : ∀ lease r, c.recoveryOperations.get lease = some r ↔
    keyAt Operation.key c.operations r = some lease
  deeds : ∀ deed ∈ c.replays ++ c.releases,
    (c.operations[deed.operation]?).map Operation.lease = some deed.lease

theorem key_eq_some : operation.key = some lease ↔ operation.phase ≠ .done ∧
    operation.lease = lease := by
  unfold Operation.key
  split
  · rename_i hdone
    exact ⟨nofun, fun h => absurd hdone h.1⟩
  · rename_i hphase
    exact ⟨fun h => ⟨hphase, Option.some.inj h⟩, fun h => congrArg some h.2⟩

theorem Sound.exclusive (hs : Sound c) : Exclusive Operation.key c.operations := by
  intro r r' lease hr hr'
  have hget := (hs.operations lease r).mpr hr
  have hget' := (hs.operations lease r').mpr hr'
  exact Option.some.inj (hget.symm.trans hget')

theorem Sound.holder_eq_none (hs : Sound c) :
    holder Operation.key c.operations lease = none ↔ c.recoveryOperations.get lease = none := by
  rw [Holders.holder_eq_none_iff_keyAt, Option.eq_none_iff_forall_ne_some]
  exact forall_congr' fun r => (hs.operations lease r).not.symm

inductive Turn (c : Control) (r : ℕ) (operation : Operation) : Control → Prop
  | goOn (phase : Phase) (hphase : operation.phase ≠ .done) (hdone : phase ≠ .done)
      (hloop : phase.loop = .awake ∨ operation.phase.loop = .asked c.recoveryRequestedEpoch ∨
        ¬ c.owns operation.lease) :
    Turn c r operation (c.setPhase r phase)
  | replay (epoch : Option String) (routeGenerationID : String) (hphase : operation.phase ≠ .done)
      (hserved : operation.phase.loop = .asked epoch) :
    Turn c r operation
      { c.setPhase r (.replaying epoch routeGenerationID) with replays := c.replays ++
        [⟨r, operation.lease⟩] }
  | send (epoch : Option String) (routeGenerationID : String) (hphase : operation.phase ≠ .done) :
    Turn c r operation
      { c.setPhase r (.resuming epoch routeGenerationID true) with
        resumes := c.resumes ++ [⟨operation.lease, routeGenerationID⟩] }
  | release (hphase : operation.phase ≠ .done) : Turn c r operation (c.releaseOwn r operation)
  | callback (replaced : Bool) (hphase : operation.phase = .returned replaced) (id : String) :
    Turn c r operation (c.callback r operation replaced id)

theorem attempt_ne_done (lease : TransferRecoveryLease) (id : String) :
    c.attempt lease id ≠ .done := by
  unfold attempt
  split <;> exact nofun

theorem attempt_loop (lease : TransferRecoveryLease) (id : String) :
    (c.attempt lease id).loop = .awake ∨ ¬ c.owns lease := by
  unfold attempt
  split
  · exact .inl rfl
  · rename_i hnot
    exact .inr hnot

theorem turn_attempt (hphase : operation.phase ≠ .done) (id : String) :
    Turn c r operation (c.setPhase r (c.attempt operation.lease id)) :=
  .goOn _ hphase (attempt_ne_done _ id) ((attempt_loop _ id).imp_right .inr)

theorem turn_unlessReplaced (hphase : operation.phase ≠ .done) {next : Control}
    (hnext : Turn c r operation next) :
    Turn c r operation (c.unlessReplaced r operation next) := by
  unfold unlessReplaced
  split
  · exact hnext
  · rename_i hnot
    exact .goOn _ hphase nofun (.inr (.inr hnot))

theorem turn_settle (hphase : operation.phase ≠ .done) {epoch : Option String}
    (hserved : operation.phase.loop = .asked epoch) (id : String) :
      Turn c r operation (c.settle r operation epoch id) := by
  unfold settle
  split
  · exact turn_attempt hphase id
  · rename_i hsame
    rw [← not_not.mp hsame] at hserved
    exact .goOn _ hphase nofun (.inr (.inl hserved))

theorem turn_failed (hphase : operation.phase ≠ .done) (error : LifecycleError) :
    Turn c r operation (c.failed r operation error) := by
  unfold failed
  split
  · exact .goOn _ hphase nofun (.inl rfl)
  · exact .release hphase

theorem turn_answered (hphase : operation.phase ≠ .done) {epoch : Option String}
    {routeGenerationID : String}
    (hserved : operation.phase.loop = .asked epoch) (result : ResumeResult) (id : String) :
    Turn c r operation (c.answered r operation epoch routeGenerationID result id) := by
  unfold answered
  split
  · exact .release hphase
  · split
    · exact .replay _ _ hphase hserved
    · exact turn_settle hphase hserved id

theorem turn_of_goOn {input : Input} (h : c.goOn r operation input = some c') :
    Turn c r operation c' := by
  unfold Control.goOn at h
  split at h <;> try cases h
  all_goals rename_i hphase
  all_goals have hloop := congrArg Phase.loop hphase
  · exact .send _ _ (by rw [hphase]; exact nofun)
  · have hrunning : operation.phase ≠ .done := by rw [hphase]; exact nofun
    exact turn_unlessReplaced hrunning (turn_failed hrunning _)
  · have hrunning : operation.phase ≠ .done := by rw [hphase]; exact nofun
    exact turn_unlessReplaced hrunning (turn_answered hrunning hloop _ _)
  · have hrunning : operation.phase ≠ .done := by rw [hphase]; exact nofun
    exact turn_unlessReplaced hrunning (turn_failed hrunning _)
  · have hrunning : operation.phase ≠ .done := by rw [hphase]; exact nofun
    exact turn_unlessReplaced hrunning (turn_settle hrunning hloop _)
  · exact turn_attempt (by rw [hphase]; exact nofun) _
  · exact .callback _ hphase _

theorem key_setPhase (hphase : operation.phase ≠ .done) (lease : TransferRecoveryLease)
    (hkey : Operation.key { operation with phase } = some lease) : operation.key = some lease :=
  key_eq_some.mpr ⟨hphase, (key_eq_some.mp hkey).2⟩

theorem lease_setPhase (r' : ℕ) :
    ((c.setPhase r phase).operations[r']?).map Operation.lease =
      (c.operations[r']?).map Operation.lease := by
  by_cases hr : r = r'
  · subst hr
    rw [setPhase, List.getElem?_modify_eq]
    cases c.operations[r]? <;> rfl
  · have hsame : (c.setPhase r phase).operations[r']? = c.operations[r']? :=
      List.getElem?_modify_ne _ _ hr
    rw [hsame]

theorem keyAt_setPhase (hentry : c.operations[r]? = some operation)
    (hphase : operation.phase ≠ .done)
    (hdone : phase ≠ .done) (r' : ℕ) :
    keyAt Operation.key (c.setPhase r phase).operations r' =
      keyAt Operation.key c.operations r' := by
  by_cases hr : r = r'
  · subst hr
    rw [Holders.keyAt_entry hentry, key_eq_some.mpr ⟨hphase, rfl⟩]
    exact (Holders.keyAt_modify hentry).trans (key_eq_some.mpr ⟨hdone, rfl⟩)
  · exact Holders.keyAt_modify_ne hr

theorem start_sound : Sound Control.start := by
  refine ⟨fun lease r => ?_, fun deed h => ?_⟩
  · simp [start, keyAt, OrderedMap.get]
  · simp [start] at h

theorem Sound.of_operations (hs : Sound c) (hoperations : c'.operations = c.operations)
    (hentries : c'.recoveryOperations = c.recoveryOperations)
    (hdeeds : c'.replays ++ c'.releases = c.replays ++ c.releases) : Sound c' := by
  refine ⟨?_, ?_⟩
  · rw [hoperations, hentries]
    exact hs.operations
  · rw [hoperations, hdeeds]
    exact hs.deeds

theorem Sound.setPhase (hs : Sound c) (hentry : c.operations[r]? = some operation)
    (hphase : operation.phase ≠ .done)
    (hdone : phase ≠ .done) : Sound (c.setPhase r phase) := by
  refine ⟨fun lease r' => ?_, fun deed hdeed => ?_⟩
  · rw [keyAt_setPhase hentry hphase hdone]
    exact hs.operations lease r'
  · rw [lease_setPhase]
    exact hs.deeds deed hdeed

theorem Sound.deed (hs : Sound c) (hentry : c.operations[r]? = some operation)
    {replays releases : List Deed}
    (hphase : Sound (c.setPhase r phase))
    (hnew : ∀ deed ∈ replays ++ releases, deed ∈ c.replays ++ c.releases ∨
      deed = ⟨r, operation.lease⟩) : Sound { c.setPhase r phase with replays := replays, releases :=
        releases } := by
  refine ⟨hphase.operations, fun deed hdeed => ?_⟩
  show ((c.setPhase r phase).operations[deed.operation]?).map Operation.lease = _
  rw [lease_setPhase]
  rcases hnew deed hdeed with hold | rfl
  · exact hs.deeds deed hold
  · rw [hentry]
    rfl

theorem release_cases (owner : Option TransferRecoveryLease) : c.releaseRecoveryLease owner = c ∨
    c.releaseRecoveryLease owner =
      { c with recoveryLease := none, recoveryRequestedEpoch := none } ∧
      ∀ lease ∈ c.recoveryLease, owner = none ∨ owner = some lease := by
  unfold releaseRecoveryLease
  split
  · exact .inl rfl
  · split
    · exact .inl rfl
    · rename_i lease hlease howner
      refine .inr ⟨rfl, fun lease' hmem => ?_⟩
      obtain rfl : lease = lease' := Option.some.inj (hlease.symm.trans hmem)
      by_cases hnone : owner = none
      · exact .inl hnone
      · exact .inr (not_not.mp fun hne => howner ⟨hnone, hne⟩)

theorem release_frame (owner : Option TransferRecoveryLease) :
    (c.releaseRecoveryLease owner).operations = c.operations ∧
    (c.releaseRecoveryLease owner).recoveryOperations = c.recoveryOperations ∧
    (c.releaseRecoveryLease owner).replays = c.replays ∧
      (c.releaseRecoveryLease owner).releases = c.releases := by
  rcases release_cases (c := c) owner with hsame | ⟨hreleased, -⟩
  · rw [hsame]
    exact ⟨rfl, rfl, rfl, rfl⟩
  · rw [hreleased]
    exact ⟨rfl, rfl, rfl, rfl⟩

theorem Sound.release (hs : Sound c) (owner : Option TransferRecoveryLease) :
    Sound (c.releaseRecoveryLease owner) := by
  obtain ⟨hoperations, hentries, hreplays, hreleases⟩ := release_frame (c := c) owner
  exact hs.of_operations hoperations hentries (by rw [hreplays, hreleases])

theorem Sound.releaseOwn (hs : Sound c) (hentry : c.operations[r]? = some operation)
    (hphase : operation.phase ≠ .done) :
    Sound (c.releaseOwn r operation) := by
  have hreleased := hs.release (some operation.lease)
  have hentry' : (c.releaseRecoveryLease (some operation.lease)).operations[r]? =
      some operation := by
    rw [(release_frame _).1]
    exact hentry
  have hreturned :
      Sound ((c.releaseRecoveryLease (some operation.lease)).setPhase r (.returned false)) :=
    hreleased.setPhase hentry' hphase nofun
  refine hreleased.deed hentry' hreturned fun deed hdeed => ?_
  rw [(release_frame (some operation.lease)).2.2.2, List.mem_append]
  rcases List.mem_append.mp hdeed with hold | hnew
  · exact .inl (.inl hold)
  · rcases List.mem_append.mp hnew with hold | hnew
    · exact .inl (.inr hold)
    · right
      obtain ⟨lease, hlease, rfl⟩ := List.mem_map.mp hnew
      rcases release_cases (c := c) (some operation.lease) with hsame | ⟨hreleased, howner⟩
      · -- nothing was taken
        rw [hsame] at hlease
        split at hlease
        · rename_i hnone
          rw [hnone] at hlease
          cases hlease
        · cases hlease
      · rw [hreleased, if_pos rfl] at hlease
        rcases howner lease (Option.mem_toList.mp hlease) with hnone | hown
        · cases hnone
        · cases hown
          rfl

theorem Sound.recoverLease (hs : Sound c) (lease : TransferRecoveryLease) (id : String) :
    Sound (c.recoverLease lease id) := by
  unfold Control.recoverLease
  split
  · exact hs
  · rename_i hnone
    refine ⟨fun lease' r' => ?_, fun deed hdeed => ?_⟩
    · show (c.recoveryOperations.set lease c.operations.length).get lease' = some r' ↔
        keyAt Operation.key (c.operations ++ [⟨lease, c.attempt lease id⟩]) r' = some lease'
      rw [Holders.keyAt_append, ← hs.operations, key_eq_some]
      by_cases hlease : lease' = lease
      · subst hlease
        rw [OrderedMap.get_set_self, hnone]
        constructor
        · intro h
          exact .inr ⟨(Option.some.inj h).symm, attempt_ne_done _ _, rfl⟩
        · intro h
          rcases h with hold | ⟨hr, -⟩
          · cases hold
          · rw [hr]
      · rw [OrderedMap.get_set_of_ne _ hlease]
        simp [Ne.symm hlease]
    · have hold := hs.deeds deed hdeed
      obtain ⟨operation, hentry, -⟩ := Option.map_eq_some_iff.mp hold
      rw [List.getElem?_append_left (List.getElem?_eq_some_iff.mp hentry).1]
      exact hold

theorem Sound.delete (hs : Sound c) (hentry : c.operations[r]? = some operation)
    (hphase : operation.phase ≠ .done) :
    Sound { c.setPhase r .done with
      recoveryOperations := c.recoveryOperations.delete operation.lease } := by
  refine ⟨fun lease r' => ?_, fun deed hdeed => ?_⟩
  · show (c.recoveryOperations.delete operation.lease).get lease = some r' ↔
      keyAt Operation.key (c.setPhase r .done).operations r' = some lease
    have hdone : keyAt Operation.key (c.setPhase r .done).operations r = none :=
      Holders.keyAt_modify hentry
    have hown : keyAt Operation.key c.operations r = some operation.lease :=
      (Holders.keyAt_entry hentry).trans (key_eq_some.mpr ⟨hphase, rfl⟩)
    by_cases hlease : lease = operation.lease
    · subst hlease
      rw [OrderedMap.get_delete_self]
      refine ⟨nofun, fun h => ?_⟩
      have hold := Holders.keyAt_of_modify hentry (key_setPhase hphase operation.lease) h
      obtain rfl := hs.exclusive r r' operation.lease hown hold
      exact absurd (hdone.symm.trans h) nofun
    · rw [OrderedMap.get_delete_of_ne _ hlease, hs.operations]
      by_cases hr : r = r'
      · subst hr
        rw [hdone, hown]
        exact ⟨fun h => absurd (Option.some.inj h).symm hlease, nofun⟩
      · have hsame : keyAt Operation.key (c.setPhase r .done).operations r' =
            keyAt Operation.key c.operations r' :=
          Holders.keyAt_modify_ne hr
        rw [hsame]
  · show ((c.setPhase r .done).operations[deed.operation]?).map Operation.lease = _
    rw [lease_setPhase]
    exact hs.deeds deed hdeed

/-- What a callback leaves: the entry is deleted, and the recovery handed to a lease that has
replaced the operation's own. -/
theorem callback_cases (hs : Sound c) (hentry : c.operations[r]? = some operation)
    (hphase : operation.phase ≠ .done)
    (replaced : Bool) (id : String) :
    let deleted :=
      { c.setPhase r .done with recoveryOperations := c.recoveryOperations.delete operation.lease }
    c.callback r operation replaced id = deleted ∨ ∃ current, c.owns current ∧
      current ≠ operation.lease ∧
      c.callback r operation replaced id = deleted.recoverLease current id := by
  have hget : c.recoveryOperations.get operation.lease = some r :=
    (hs.operations _ _).mpr ((Holders.keyAt_entry hentry).trans (key_eq_some.mpr ⟨hphase, rfl⟩))
  unfold callback
  rw [if_pos hget]
  dsimp only
  split
  · exact .inl rfl
  · rename_i hopen
    split
    · exact .inl rfl
    · rename_i current hcurrent
      split
      · rename_i hother
        refine .inr ⟨current, ⟨?_, hcurrent⟩, hother, rfl⟩
        exact eq_false_of_ne_true fun hclosed => hopen (.inr hclosed)
      · exact .inl rfl

theorem turn_sound (hs : Sound c) (hentry : c.operations[r]? = some operation)
    (hturn : Turn c r operation c') :
    Sound c' := by
  cases hturn with
  | goOn phase hphase hdone hloop => exact hs.setPhase hentry hphase hdone
  | replay epoch routeGenerationID hphase hserved =>
    have hreplaying : Sound (c.setPhase r (.replaying epoch routeGenerationID)) :=
      hs.setPhase hentry hphase nofun
    refine hs.deed hentry hreplaying fun deed hdeed => ?_
    rw [List.mem_append]
    rcases List.mem_append.mp hdeed with hnew | hold
    · rcases List.mem_append.mp hnew with hold | hnew
      · exact .inl (.inl hold)
      · exact .inr (List.mem_singleton.mp hnew)
    · exact .inl (.inr hold)
  | send epoch routeGenerationID hphase =>
    have hsent : Sound (c.setPhase r (.resuming epoch routeGenerationID true)) :=
      hs.setPhase hentry hphase nofun
    exact hsent.of_operations rfl rfl rfl
  | release hphase => exact hs.releaseOwn hentry hphase
  | callback replaced hreturned id =>
    have hphase : operation.phase ≠ .done := by rw [hreturned]; exact nofun
    rcases callback_cases hs hentry hphase replaced id with hdeleted | ⟨current, -, -, hhanded⟩
    · rw [hdeleted]
      exact hs.delete hentry hphase
    · rw [hhanded]
      exact (hs.delete hentry hphase).recoverLease current id

theorem Sound.request (hs : Sound c) (lease : TransferRecoveryLease) (epoch id : String) :
    Sound (c.request lease epoch id) := by
  have hrequested : Sound { c with recoveryRequestedEpoch := some epoch } :=
    hs.of_operations rfl rfl rfl
  exact hrequested.recoverLease lease id

theorem step_sound (hs : Sound c) (h : c.step i = some c') : Sound c' := by
  cases i with
  | registerRecoveryLease lease =>
    cases h
    unfold registerRecoveryLease
    split
    · exact hs
    · exact hs.of_operations rfl rfl rfl
  | releaseRecoveryLease owner =>
    cases h
    exact hs.release owner
  | continueRecoveryLease owner foreground id =>
    cases h
    unfold continueRecoveryLease
    split
    · exact hs
    · split
      · exact hs
      · split
        · exact hs
        · exact hs.request _ _ _
  | observeRuntimeEpoch epoch id =>
    cases h
    unfold observeRuntimeEpoch
    split
    · exact hs
    · have hobserved : Sound { c with runtimeEpoch := some epoch } := hs.of_operations rfl rfl rfl
      dsimp only
      split
      · exact hobserved
      · split
        · exact hobserved
        · exact hobserved.request _ _ _
  | goOn r input =>
    obtain ⟨operation, hentry, hturn⟩ := Option.bind_eq_some_iff.mp h
    exact turn_sound hs hentry (turn_of_goOn hturn)
  | close =>
    cases h
    exact hs.of_operations rfl rfl rfl

theorem watch_own (hs : Sound c) (hentry : c.operations[r]? = some operation)
    (hphase : operation.phase ≠ .done) :
    (watch operation.lease c).loop = operation.phase.loop := by
  have hholder := Holders.holder_of_entry hs.exclusive hentry (key_eq_some.mpr ⟨hphase, rfl⟩)
  show (holder Operation.key c.operations operation.lease).elim _ _ = _
  rw [hholder]
  rfl

theorem watch_setPhase (hs : Sound c) (hentry : c.operations[r]? = some operation)
    (hphase : operation.phase ≠ .done)
    (hdone : phase ≠ .done) :
    watch operation.lease (c.setPhase r phase) =
      { watch operation.lease c with loop := phase.loop } := by
  have hholder : holder Operation.key (c.setPhase r phase).operations operation.lease =
      some { operation with phase } :=
    Holders.holder_modify hs.exclusive hentry (key_eq_some.mpr ⟨hphase, rfl⟩)
      (key_eq_some.mpr ⟨hdone, rfl⟩)
  unfold watch
  rw [hholder]
  rfl

theorem watch_done (hs : Sound c) (hentry : c.operations[r]? = some operation)
    (hphase : operation.phase ≠ .done) :
    watch operation.lease (c.setPhase r .done) =
      { watch operation.lease c with loop := .idle } := by
  have hholder : holder Operation.key (c.setPhase r .done).operations operation.lease = none :=
    Holders.holder_modify_none hs.exclusive hentry (key_eq_some.mpr ⟨hphase, rfl⟩) nofun
  unfold watch
  rw [hholder]
  rfl

theorem watch_other (hs : Sound c) (hentry : c.operations[r]? = some operation)
    (hphase : operation.phase ≠ .done)
    (hother : operation.lease ≠ lease) : watch lease (c.setPhase r phase) = watch lease c := by
  have hholder : holder Operation.key (c.setPhase r phase).operations lease =
      holder Operation.key c.operations lease := by
    apply Holders.holder_modify_ne hs.exclusive hentry (key_setPhase hphase)
    intro hkey
    exact hother (key_eq_some.mp hkey).2
  unfold watch
  rw [hholder]
  rfl

theorem watch_idle (h : holder Operation.key c.operations lease = none) :
    (watch lease c).loop = .idle := by
  show (holder Operation.key c.operations lease).elim _ _ = _
  rw [h]
  rfl

theorem holder_of_loop (h : (watch lease c).loop ≠ .idle) :
    ∃ operation ∈ c.operations, operation.key = some lease ∧
      (watch lease c).loop = operation.phase.loop := by
  cases hholder : holder Operation.key c.operations lease with
  | none => exact absurd (watch_idle hholder) h
  | some operation =>
    obtain ⟨r, hentry, hkey⟩ := Holders.entry_of_holder hholder
    refine ⟨operation, List.mem_of_getElem? hentry, hkey, ?_⟩
    show (holder Operation.key c.operations lease).elim _ _ = _
    rw [hholder]
    rfl

theorem loop_woken (hphase : phase ≠ .done) : phase.loop.woken = phase.loop := by
  cases phase with
  | resuming epoch routeGenerationID sent => cases sent <;> rfl
  | replaying epoch routeGenerationID => rfl
  | sleeping => rfl
  | returned replaced => rfl
  | done => exact absurd rfl hphase

theorem watch_recoverLease (hs : Sound c) (howns : c.owns lease) (id : String) :
    watch lease (c.recoverLease lease id) =
      { watch lease c with loop := (watch lease c).loop.woken } := by
  unfold recoverLease
  split
  · rename_i r hget
    obtain ⟨operation, hentry, hkey⟩ := Holders.entry_of_keyAt ((hs.operations lease r).mp hget)
    obtain ⟨hphase, rfl⟩ := key_eq_some.mp hkey
    have hwoken : (watch operation.lease c).loop.woken = (watch operation.lease c).loop := by
      rw [watch_own hs hentry hphase, loop_woken hphase]
    rw [hwoken]
  · rename_i hget
    have hnone := hs.holder_eq_none.mpr hget
    have hattempt : c.attempt lease id = .resuming c.recoveryRequestedEpoch id false := if_pos howns
    have hkey : (⟨lease, c.attempt lease id⟩ : Operation).key = some lease :=
      key_eq_some.mpr ⟨attempt_ne_done _ _, rfl⟩
    rw [watch_idle hnone]
    unfold watch
    rw [Holders.holder_append hkey hnone, hattempt]
    rfl

theorem watch_recoverLease_ne {current : TransferRecoveryLease} (hne : current ≠ lease)
    (id : String) :
    watch lease (c.recoverLease current id) = watch lease c := by
  unfold recoverLease
  split
  · rfl
  · have hkey : (⟨current, c.attempt current id⟩ : Operation).key ≠ some lease :=
      fun h => hne (key_eq_some.mp h).2
    unfold watch
    rw [Holders.holder_append_ne hkey]

theorem request_move (hs : Sound c) (howns : c.owns lease) (epoch id : String) :
    Move (watch lease c) (some epoch) (watch lease (c.request lease epoch id)) := by
  have hrequested : Sound { c with recoveryRequestedEpoch := some epoch } :=
    hs.of_operations rfl rfl rfl
  rw [request, watch_recoverLease hrequested howns]
  exact .request (watch lease c) epoch

theorem release_other (hlease : c.recoveryLease = some lease)
    (hstill : (c.releaseOwn r operation).recoveryLease = some lease) :
    operation.lease ≠ lease ∧ c.releaseRecoveryLease (some operation.lease) = c := by
  by_cases hown : operation.lease = lease
  · simp [releaseOwn, releaseRecoveryLease, setPhase, hlease, hown] at hstill
  · refine ⟨hown, ?_⟩
    simp [releaseRecoveryLease, hlease, hown]

theorem callback_move (hs : Sound c) (hentry : c.operations[r]? = some operation) {replaced : Bool}
    (hreturned : operation.phase = .returned replaced) (id : String) :
    Move (watch lease c) none (watch lease (c.callback r operation replaced id)) := by
  have hphase : operation.phase ≠ .done := by rw [hreturned]; exact nofun
  have hdeleted : ∀ lease, watch lease
      { c.setPhase r .done with
        recoveryOperations := c.recoveryOperations.delete operation.lease } =
      watch lease (c.setPhase r .done) := fun _ => rfl
  by_cases hown : operation.lease = lease
  · subst hown
    have hblind : (watch operation.lease c).loop = .blind := by
      rw [watch_own hs hentry hphase, hreturned]; rfl
    have hidle : Move (watch operation.lease c) none
        (watch operation.lease (c.setPhase r .done)) := by
      rw [watch_done hs hentry hphase]
      exact .idle _ _ _ (.inr hblind)
    rcases callback_cases hs hentry hphase replaced id with hsame | ⟨current, -, hcurrent, hhanded⟩
    · rw [hsame, hdeleted]
      exact hidle
    · rw [hhanded, watch_recoverLease_ne hcurrent, hdeleted]
      exact hidle
  · have hsame : watch lease (c.setPhase r .done) = watch lease c :=
      watch_other hs hentry hphase hown
    rcases callback_cases hs hentry hphase replaced id with hdone | ⟨current, howns, -, hhanded⟩
    · rw [hdone, hdeleted, hsame]
      exact .stay _
    · rw [hhanded]
      by_cases hcurrent : current = lease
      · subst hcurrent
        rw [watch_recoverLease (hs.delete hentry hphase) howns, hdeleted, hsame]
        exact Wakeup.move_woken _
      · rw [watch_recoverLease_ne hcurrent, hdeleted, hsame]
        exact .stay _

theorem turn_move (hs : Sound c) (hentry : c.operations[r]? = some operation)
    (hturn : Turn c r operation c')
    (hlease : c.owns lease) (hstill : c'.owns lease) :
      Move (watch lease c) none (watch lease c') := by
  -- an operation of another lease changes nothing that the lease's requests find
  have hother : operation.phase ≠ .done → operation.lease ≠ lease → ∀ phase : Phase,
      Move (watch lease c) none (watch lease (c.setPhase r phase)) := by
    intro hphase hne phase
    rw [watch_other hs hentry hphase hne]
    exact .stay _
  by_cases hown : operation.lease = lease
  · subst hown
    cases hturn with
    | goOn phase hphase hdone hloop =>
      rw [watch_setPhase hs hentry hphase hdone]
      rcases hloop with hawake | hserved | hnot
      · rw [hawake]
        exact .wake _ _ _
      · have hasked : (watch operation.lease c).loop = .asked (watch operation.lease c).requested :=
          (watch_own hs hentry hphase).trans hserved
        have hmove :=
          Move.settle (watch operation.lease c).requested phase.loop (watch operation.lease c).sent
        rw [← hasked] at hmove
        exact hmove
      · exact absurd hlease hnot
    | replay epoch routeGenerationID hphase hserved =>
      show Move _ none (watch operation.lease (c.setPhase r (.replaying epoch routeGenerationID)))
      have hdone : Phase.replaying epoch routeGenerationID ≠ .done := nofun
      have hsame : (Phase.replaying epoch routeGenerationID).loop =
          (watch operation.lease c).loop :=
        hserved.symm.trans (watch_own hs hentry hphase).symm
      rw [watch_setPhase hs hentry hphase hdone, hsame]
      exact .stay _
    | send epoch routeGenerationID hphase =>
      have hdone : Phase.resuming epoch routeGenerationID true ≠ .done := nofun
      have hsent : watch operation.lease
          { c.setPhase r (.resuming epoch routeGenerationID true) with
            resumes := c.resumes ++ [⟨operation.lease, routeGenerationID⟩] } =
          { watch operation.lease (c.setPhase r (.resuming epoch routeGenerationID true)) with
            sent := (watch operation.lease c).sent + 1 } := by
        simp [watch, List.countP_append]
      rw [hsent, watch_setPhase hs hentry hphase hdone]
      exact .send _ _ _ _
    | release hphase => exact absurd rfl (release_other hlease.2 hstill.2).1
    | callback replaced hreturned id => exact callback_move hs hentry hreturned id
  · cases hturn with
    | goOn phase hphase hdone hloop => exact hother hphase hown phase
    | replay epoch routeGenerationID hphase hserved =>
        exact hother hphase hown (.replaying epoch routeGenerationID)
    | send epoch routeGenerationID hphase =>
      have hsame : watch lease
          { c.setPhase r (.resuming epoch routeGenerationID true) with
            resumes := c.resumes ++ [⟨operation.lease, routeGenerationID⟩] } =
          watch lease (c.setPhase r (.resuming epoch routeGenerationID true)) := by
        simp [watch, List.countP_append, hown, setPhase]
      rw [hsame]
      exact hother hphase hown _
    | release hphase =>
      show Move _ none
        (watch lease ((c.releaseRecoveryLease (some operation.lease)).setPhase r (.returned false)))
      rw [(release_other hlease.2 hstill.2).2]
      exact hother hphase hown _
    | callback replaced hreturned id => exact callback_move hs hentry hreturned id

/-- The step asks for a recovery that the lease's operation does not see: it has returned, or took
this epoch for its attempt. An observed epoch counts where it was not the newest. -/
def Forgets (c : Control) : Step → Prop
  | .continueRecoveryLease owner foreground _ => ∃ lease, ∃ operation ∈ c.operations,
      c.owns lease ∧ operation.key = some lease ∧ (owner = none ∨ owner = some lease) ∧
      (operation.phase.loop = .blind ∨
        operation.phase.served = some (some (c.continuedEpoch foreground)))
  | .observeRuntimeEpoch epoch _ =>
      ∃ lease, ∃ operation ∈ c.operations, c.owns lease ∧ operation.key = some lease ∧
      c.recoveryRequestedEpoch ≠ some epoch.text ∧ operation.phase.served = some (some epoch.text)
  | _ => False

theorem served_of_asked {epoch : Option String} (h : phase.loop = .asked epoch) :
    phase.served = some epoch := by
  cases phase with
  | resuming started routeGenerationID sent =>
    cases sent with
    | false => cases h
    | true =>
      cases h
      rfl
  | replaying started routeGenerationID =>
    cases h
    rfl
  | sleeping => cases h
  | returned replaced => cases h
  | done => cases h

theorem served_of_repeats {epoch : String} (h : Repeats (watch lease c) epoch) :
    ∃ operation ∈ c.operations, operation.key = some lease ∧
      operation.phase.served = some (some epoch) := by
  have hasked : (watch lease c).loop = .asked (some epoch) := h
  obtain ⟨operation, hmem, hkey, hwatch⟩ := holder_of_loop (by rw [hasked]; exact nofun)
  exact ⟨operation, hmem, hkey, served_of_asked (hwatch.symm.trans hasked)⟩

theorem returned_of_blind (h : (watch lease c).loop = .blind) :
    ∃ operation ∈ c.operations, operation.key = some lease ∧ operation.phase.loop = .blind := by
  obtain ⟨operation, hmem, hkey, hwatch⟩ := holder_of_loop (by rw [h]; exact nofun)
  exact ⟨operation, hmem, hkey, hwatch.symm.trans h⟩

/-- For a lease that stays registered every step is a move, and a repeated request one that the
client forgets. -/
theorem step_move (hs : Sound c) (h : c.step i = some c') (hlease : c.owns lease)
    (hstill : c'.owns lease) :
    ∃ r, Move (watch lease c) r (watch lease c') ∧ ∀ epoch, r = some epoch →
      (watch lease c).requested ≠ some epoch →
      Repeats (watch lease c) epoch → Forgets c i := by
  cases i with
  | registerRecoveryLease other =>
    cases h
    unfold registerRecoveryLease
    split <;> exact ⟨none, .stay _, nofun⟩
  | releaseRecoveryLease owner =>
    cases h
    rcases release_cases (c := c) owner with hsame | ⟨hreleased, -⟩
    · rw [hsame]
      exact ⟨none, .stay _, nofun⟩
    · rw [hreleased] at hstill
      cases hstill.2
  | continueRecoveryLease owner foreground id =>
    cases h
    unfold continueRecoveryLease
    rw [hlease.2, hlease.1]
    dsimp only
    rw [if_neg Bool.false_ne_true]
    split
    · exact ⟨none, .stay _, nofun⟩
    · rename_i howner
      refine ⟨some (c.continuedEpoch foreground), request_move hs hlease _ _,
        fun epoch hepoch _ hrepeats => ?_⟩
      cases hepoch
      obtain ⟨operation, hmem, hkey, hserved⟩ := served_of_repeats hrepeats
      refine ⟨lease, operation, hmem, hlease, hkey, ?_, .inr hserved⟩
      by_contra hneither
      push Not at hneither
      exact howner hneither
  | observeRuntimeEpoch epoch id =>
    cases h
    unfold observeRuntimeEpoch
    split
    · exact ⟨none, .stay _, nofun⟩
    · dsimp only
      split
      · exact ⟨none, .stay _, nofun⟩
      · split
        · rename_i hnone
          exact absurd (hlease.2.symm.trans hnone) nofun
        · rename_i registered hregistered
          obtain rfl : lease = registered := Option.some.inj (hlease.2.symm.trans hregistered)
          have hobserved : Sound { c with runtimeEpoch := some epoch } :=
            hs.of_operations rfl rfl rfl
          refine ⟨some epoch.text, request_move hobserved hlease _ _, ?_⟩
          intro requested hepoch hnew hrepeats
          cases hepoch
          obtain ⟨operation, hmem, hkey, hserved⟩ := served_of_repeats hrepeats
          exact ⟨lease, operation, hmem, hlease, hkey, hnew, hserved⟩
  | goOn r input =>
    obtain ⟨operation, hentry, hturn⟩ := Option.bind_eq_some_iff.mp h
    exact ⟨none, turn_move hs hentry (turn_of_goOn hturn) hlease hstill, nofun⟩
  | close =>
    cases h
    cases hstill.1

structure Keeps (c c' : Control) : Prop where
  resumes : c.resumes <+: c'.resumes
  open_of_open : c'.closed = false → c.closed = false

theorem keeps_of_eq (hresumes : c'.resumes = c.resumes) (hclosed : c'.closed = c.closed) :
    Keeps c c' :=
  ⟨hresumes ▸ List.prefix_rfl, fun h => hclosed.symm.trans h⟩

theorem keeps_release (owner : Option TransferRecoveryLease) :
    Keeps c (c.releaseRecoveryLease owner) := by
  rcases release_cases (c := c) owner with hsame | ⟨hreleased, -⟩
  · rw [hsame]
    exact keeps_of_eq rfl rfl
  · rw [hreleased]
    exact keeps_of_eq rfl rfl

theorem keeps_recoverLease (lease : TransferRecoveryLease) (id : String) :
    Keeps c (c.recoverLease lease id) := by
  unfold recoverLease
  split <;> exact keeps_of_eq rfl rfl

theorem keeps_request (lease : TransferRecoveryLease) (epoch id : String) :
    Keeps c (c.request lease epoch id) := by
  have hrecovers :=
    keeps_recoverLease (c := { c with recoveryRequestedEpoch := some epoch }) lease id
  exact ⟨hrecovers.resumes, hrecovers.open_of_open⟩

theorem turn_keeps (hs : Sound c) (hentry : c.operations[r]? = some operation)
    (hturn : Turn c r operation c') :
    Keeps c c' := by
  cases hturn with
  | goOn phase hphase hdone hloop => exact keeps_of_eq rfl rfl
  | replay epoch routeGenerationID hphase hserved => exact keeps_of_eq rfl rfl
  | send epoch routeGenerationID hphase => exact ⟨List.prefix_append _ _, id⟩
  | release hphase =>
    have hreleased := keeps_release (c := c) (some operation.lease)
    exact ⟨hreleased.resumes, hreleased.open_of_open⟩
  | callback replaced hreturned id =>
    have hphase : operation.phase ≠ .done := by rw [hreturned]; exact nofun
    rcases callback_cases hs hentry hphase replaced id with hdeleted | ⟨current, -, -, hhanded⟩
    · rw [hdeleted]
      exact keeps_of_eq rfl rfl
    · rw [hhanded]
      let deleted :=
        { c.setPhase r .done with
          recoveryOperations := c.recoveryOperations.delete operation.lease }
      have hrecovers := keeps_recoverLease (c := deleted) current id
      exact ⟨hrecovers.resumes, hrecovers.open_of_open⟩

theorem step_keeps (hs : Sound c) (h : c.step i = some c') : Keeps c c' := by
  cases i with
  | registerRecoveryLease lease =>
    cases h
    unfold registerRecoveryLease
    split <;> exact keeps_of_eq rfl rfl
  | releaseRecoveryLease owner =>
    cases h
    exact keeps_release owner
  | continueRecoveryLease owner foreground id =>
    cases h
    unfold continueRecoveryLease
    split
    · exact keeps_of_eq rfl rfl
    · split
      · exact keeps_of_eq rfl rfl
      · split
        · exact keeps_of_eq rfl rfl
        · exact keeps_request _ _ _
  | observeRuntimeEpoch epoch id =>
    cases h
    unfold observeRuntimeEpoch
    split
    · exact keeps_of_eq rfl rfl
    · dsimp only
      split
      · exact keeps_of_eq rfl rfl
      · split
        · exact keeps_of_eq rfl rfl
        · rename_i lease _
          have hrequest :=
            keeps_request (c := { c with runtimeEpoch := some epoch }) lease epoch.text id
          exact ⟨hrequest.resumes, hrequest.open_of_open⟩
  | goOn r input =>
    obtain ⟨operation, hentry, hturn⟩ := Option.bind_eq_some_iff.mp h
    exact turn_keeps hs hentry (turn_of_goOn hturn)
  | close =>
    cases h
    exact ⟨List.prefix_rfl, nofun⟩

/-- In a run where no recovery is forgotten: once recovery is asked for a registered lease, and as
long as that lease is registered, a resume was sent for it or its operation is under way. -/
theorem continue_resumes {earlier later : List Step} {u w : Control}
    {owner : Option TransferRecoveryLease}
    {foreground id : String} (hu : Run.after step Control.start earlier = some u)
    (hlease : u.owns lease)
    (howner : owner = none ∨ owner = some lease)
    (hw : Run.after step (u.continueRecoveryLease owner foreground id) later = some w)
    (hnever : Run.Never step Control.start
      (earlier ++ .continueRecoveryLease owner foreground id :: later) Forgets)
    (hstill : Run.Always step (u.continueRecoveryLease owner foreground id) later
      (fun c => c.recoveryLease = some lease))
    (hopen : w.closed = false) (hnone : w.recoveryOperations.get lease = none) :
    ∃ resume ∈ w.resumes.drop u.resumes.length, resume.lease = lease := by
  have hsound : Sound u := Run.after_invariant (fun _ _ _ hs h => step_sound hs h) start_sound hu
  have hcall : u.step (.continueRecoveryLease owner foreground id) =
      some (u.continueRecoveryLease owner foreground id) := rfl
  have hgood : ¬ Forgets u (.continueRecoveryLease owner foreground id) :=
    hnever earlier _ later u rfl hu
  have hlater : Run.Never step (u.continueRecoveryLease owner foreground id) later Forgets := by
    rw [List.append_cons] at hnever
    exact hnever.of_append (Run.after_snoc.mpr ⟨u, hu, hcall⟩)
  have hrequest : u.continueRecoveryLease owner foreground id =
      u.request lease (u.continuedEpoch foreground) id := by
    unfold continueRecoveryLease
    rw [hlease.2, hlease.1]
    dsimp only
    rw [if_neg Bool.false_ne_true]
    refine if_neg fun hother => ?_
    rcases howner with hnone | hsame
    · exact hother.1 hnone
    · exact hother.2 hsame
  have hpending : Pending (watch lease u).sent
      (watch lease (u.continueRecoveryLease owner foreground id)) := by
    have hrequested :
        Sound { u with recoveryRequestedEpoch := some (u.continuedEpoch foreground) } :=
      hsound.of_operations rfl rfl rfl
    rw [hrequest, request, watch_recoverLease hrequested hlease]
    refine Wakeup.pending_request (w := watch lease u) (fun hblind => ?_) fun hrepeats => ?_
    · obtain ⟨operation, hmem, hkey, hreturned⟩ := returned_of_blind hblind
      exact hgood ⟨lease, operation, hmem, hlease, hkey, howner, .inl hreturned⟩
    · obtain ⟨operation, hmem, hkey, hserved⟩ := served_of_repeats hrepeats
      exact hgood ⟨lease, operation, hmem, hlease, hkey, howner, .inr hserved⟩
  have hstart := step_sound hsound hcall
  -- the client is open all along, for it is open at the end
  have hopened : Run.Always step (u.continueRecoveryLease owner foreground id) later
      (fun c => c.closed = false) :=
    Run.always_of_last (I := Sound) (fun _ _ _ hs h => step_sound hs h)
      (fun _ _ _ hs h => (step_keeps hs h).open_of_open)
      hstart hw hopen
  have halways : Run.Always step (u.continueRecoveryLease owner foreground id) later
      (fun c => c.owns lease) :=
    fun earlier later v hsplit hv =>
      ⟨hopened earlier later v hsplit hv, hstill earlier later v hsplit hv⟩
  have hlast := Wakeup.pending_along (watch lease)
    (fun v i v' hv hP h => ⟨step_sound hv h, fun hP' => step_move hv h hP hP'⟩)
      hstart hpending hw halways hlater
  let I (c : Control) : Prop := Sound c ∧ u.resumes <+: c.resumes
  have hI : I w := Run.after_invariant (I := I)
    (fun _ _ _ hv h => ⟨step_sound hv.1 h, hv.2.trans (step_keeps hv.1 h).resumes⟩)
    ⟨hstart, (step_keeps hsound hcall).resumes⟩ hw
  have hidle : (watch lease w).loop = .idle := watch_idle (hI.1.holder_eq_none.mpr hnone)
  obtain ⟨resume, hresume, hsame⟩ := Wakeup.exists_later hI.2 (hlast.sent hidle)
  exact ⟨resume, hresume, of_decide_eq_true hsame⟩

/-- In every run, what an operation replays or releases is its own lease. Where no recovery is
forgotten, none that is asked for a lease is lost while the lease stays registered. -/
theorem typescript_recovery_exact {is : List Step} {w : Control}
    (hw : Run.after step Control.start is = some w) :
    (∀ deed ∈ w.replays ++ w.releases, (w.operations[deed.operation]?).map Operation.lease =
      some deed.lease) ∧
    (Run.Never step Control.start is Forgets → ∀ earlier owner foreground id later u lease,
      is = earlier ++ .continueRecoveryLease owner foreground id :: later →
      Run.after step Control.start earlier = some u → u.recoveryLease = some lease →
      (owner = none ∨ owner = some lease) →
      Run.Always step (u.continueRecoveryLease owner foreground id) later
        (fun c => c.recoveryLease = some lease) →
      w.closed = false → w.recoveryOperations.get lease = none →
      ∃ resume ∈ w.resumes.drop u.resumes.length, resume.lease = lease) := by
  have hsound : Sound w := Run.after_invariant (fun _ _ _ hs h => step_sound hs h) start_sound hw
  refine ⟨hsound.deeds, ?_⟩
  rintro hnever earlier owner foreground id later u lease rfl hu hlease howner hstill hopen hnone
  obtain ⟨v, hv, hw⟩ := Run.after_append.mp hw
  cases hu.symm.trans hv
  have hsoundu : Sound u := Run.after_invariant (fun _ _ _ hs h => step_sound hs h) start_sound hu
  have hopened : u.closed = false :=
    Run.always_of_last (I := Sound) (P := fun c => c.closed = false)
    (fun _ _ _ hs h => step_sound hs h)
      (fun _ _ _ hs h => (step_keeps hs h).open_of_open) hsoundu hw hopen [] _ u rfl rfl
  obtain ⟨v, hcall, hw⟩ := Run.after_cons.mp hw
  cases hcall
  exact continue_resumes hu ⟨hopened, hlease⟩ howner hw hnever hstill hopen hnone

def sampleLease : TransferRecoveryLease := ⟨0, "fingerprint", "coordinates"⟩

def sampleChanged : List Step :=
  [.registerRecoveryLease sampleLease, .observeRuntimeEpoch ⟨"runtime", "first"⟩ "generation",
    .observeRuntimeEpoch ⟨"runtime", "second"⟩ "generation", .goOn 0 .send]

def sampleSettled : List Step :=
    [.goOn 0 (.resumed (.ok ⟨"reconciling", false⟩) "next"), .goOn 0 (.callback "next")]

/-- The foreground asks for recovery then, by the same epoch, and the operation ends without it. -/
theorem sample_typescript_forgotten : ∃ u w, Run.after step Control.start sampleChanged = some u ∧
    u.owns sampleLease ∧
    Run.after step (u.continueRecoveryLease (some sampleLease) "foreground" "next")
      sampleSettled = some w ∧
    Run.Always step (u.continueRecoveryLease (some sampleLease) "foreground" "next") sampleSettled
      (fun c => c.recoveryLease = some sampleLease) ∧
    w.closed = false ∧ w.recoveryOperations.get sampleLease = none ∧
    ¬ ∃ resume ∈ w.resumes.drop u.resumes.length, resume.lease = sampleLease := by
  exact ⟨_, _, rfl,
    by decide, rfl, Run.always_of_check (by decide), by decide, by decide, by decide⟩

def mayForget (c : Control) : Step → Prop
  | .continueRecoveryLease _ _ _ | .observeRuntimeEpoch _ _ =>
      ∃ operation ∈ c.operations, operation.key ≠ none
  | _ => False

instance (c : Control) : (i : Step) → Decidable (mayForget c i)
  | .continueRecoveryLease _ _ _ | .observeRuntimeEpoch _ _ =>
    inferInstanceAs (Decidable (∃ operation ∈ c.operations, operation.key ≠ none))
  | .registerRecoveryLease _ | .releaseRecoveryLease _ | .goOn _ _ | .close =>
      inferInstanceAs (Decidable False)

theorem mayForget_of_forgets (h : Forgets c i) : mayForget c i := by
  cases i with
  | continueRecoveryLease owner foreground id =>
    obtain ⟨lease, operation, hmem, -, hkey, -⟩ := h
    exact ⟨operation, hmem, by rw [hkey]; exact nofun⟩
  | observeRuntimeEpoch epoch id =>
    obtain ⟨lease, operation, hmem, -, hkey, -⟩ := h
    exact ⟨operation, hmem, by rw [hkey]; exact nofun⟩
  | registerRecoveryLease lease => exact h
  | releaseRecoveryLease owner => exact h
  | goOn r input => exact h
  | close => exact h

def sampleLoop : List Step := .goOn 0 .send :: sampleSettled

theorem sample_typescript_resumes : ∃ u w,
    Run.after step Control.start [.registerRecoveryLease sampleLease] = some u ∧
    Run.after step (u.continueRecoveryLease none "foreground" "generation") sampleLoop = some w ∧
    ∃ resume ∈ w.resumes.drop u.resumes.length, resume.lease = sampleLease := by
  have hnever : Run.Never step Control.start
      ([.registerRecoveryLease sampleLease] ++
        .continueRecoveryLease none "foreground" "generation" :: sampleLoop)
      mayForget := Run.never_of_check (by decide)
  have hu : Run.after step Control.start [.registerRecoveryLease sampleLease] =
      some (Control.start.registerRecoveryLease sampleLease) := rfl
  obtain ⟨w, hw, hrun, hopen, hnone⟩ : ∃ w, Run.after step
      ((Control.start.registerRecoveryLease sampleLease).continueRecoveryLease
        none "foreground" "generation") sampleLoop =
        some w ∧
      Run.after step Control.start
        ([.registerRecoveryLease sampleLease] ++
          .continueRecoveryLease none "foreground" "generation" :: sampleLoop) =
        some w ∧
      w.closed = false ∧ w.recoveryOperations.get sampleLease = none :=
        ⟨_, rfl, rfl, by decide, by decide⟩
  refine ⟨_, w, hu, hw, ?_⟩
  exact (typescript_recovery_exact hrun).2 (hnever.mono fun _ _ h => mayForget_of_forgets h)
    _ none "foreground" "generation" _ _
    sampleLease rfl hu rfl (.inl rfl) (Run.always_of_check (by decide)) hopen hnone

end Control
end Beam.TypeScript
