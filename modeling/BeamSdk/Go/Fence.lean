import BeamSdk.Go.Ownership
import BeamSdk.Go.Registered

/-! A call whose ownership was cancelled leaves alone what another call has registered for its
transfer since, unless it is on its way to register, where its ownership is checked for the last
time too early. -/

namespace Beam.Go

def Main.held : Main → Option ℕ
  | .stopping current => current
  | .replacing previous => previous
  | _ => none

/-- Between the registration of its signers and the check of its ownership, or a release that
follows it. -/
def Main.signersUnwind : Main → Prop
  | .replacing _ | .leasing | .watching | .fencing | .releasing .signers => True
  | _ => False

def Main.leaseUnwinds : Main → Prop
  | .watching | .fencing | .releasing _ => True
  | _ => False

def Main.takesSigners (main : Main) : Prop := main = .starting ∨ main = .registering

instance (main : Main) : Decidable main.takesSigners := inferInstanceAs (Decidable (_ ∨ _))

namespace Control
variable {shardOf : String → ℕ} {c c' : Control} {lease : Lease} {transferID : String}

structure Drops (dropped : Lease → Prop) (c c' : Control) : Prop where
  kept : ∀ transferID lease, c.recoveryLeases.get transferID = some lease →
    dropped lease ∨ c'.recoveryLeases.get transferID = some lease
  old : ∀ transferID lease, c'.recoveryLeases.get transferID = some lease →
    c.recoveryLeases.get transferID = some lease
  disposed : c'.disposed = c.disposed
  relinquished : c'.relinquished = c.relinquished

variable {dropped : Lease → Prop}

theorem drops_of_eq (hleases : c'.recoveryLeases = c.recoveryLeases)
    (hdisposed : c'.disposed = c.disposed)
    (hrelinquished : c'.relinquished = c.relinquished) : Drops dropped c c' where
  kept _ _ h := .inr (hleases ▸ h)
  old _ _ h := hleases ▸ h
  disposed := hdisposed
  relinquished := hrelinquished

theorem Drops.trans_eq {c'' : Control} (h : Drops dropped c c')
    (hleases : c''.recoveryLeases = c'.recoveryLeases)
    (hdisposed : c''.disposed = c'.disposed) (hrelinquished : c''.relinquished = c'.relinquished) :
    Drops dropped c c'' where
  kept transferID lease hget := hleases ▸ h.kept transferID lease hget
  old transferID lease hget := h.old transferID lease (hleases ▸ hget)
  disposed := hdisposed.trans h.disposed
  relinquished := hrelinquished.trans h.relinquished

theorem disposed_stop (keep : Option Lease) : (c.stopRecoveryRunLocked transferID keep).disposed =
    c.disposed := by
  unfold stopRecoveryRunLocked
  split
  · rfl
  · split <;> rfl

theorem disposed_start : (c.startRecoveryRunLocked lease).disposed = c.disposed := by
  unfold startRecoveryRunLocked
  split
  · rfl
  · split <;> rfl

theorem request_drops (epoch : Epoch) : Drops dropped c (c.request lease epoch) := by
  obtain ⟨hleases, -, -, hrelinquished⟩ := start_frame (c.setRequested lease epoch) lease
  exact drops_of_eq hleases disposed_start hrelinquished

theorem continue_drops (id : String) :
    Drops dropped c (c.continueRecoveryLease shardOf lease id) := by
  unfold continueRecoveryLease
  split
  · exact request_drops _
  · exact drops_of_eq rfl rfl rfl

theorem dropLease_drops (hdropped : ∀ lease, c.recoveryLeases.get transferID = some lease →
    dropped lease) :
    Drops dropped c (c.dropLease transferID) where
  kept other lease h := by
    by_cases hid : other = transferID
    · exact .inl (hdropped lease (hid ▸ h))
    · exact .inr ((OrderedMap.get_delete_of_ne _ hid).trans h)
  old other lease h := by
    by_cases hid : other = transferID
    · subst hid
      cases (OrderedMap.get_delete_self _ _).symm.trans h
    · exact (OrderedMap.get_delete_of_ne _ hid).symm.trans h
  disposed := rfl
  relinquished := rfl

theorem release_drops (expected : Option Lease)
    (hdropped : ∀ lease, expected = none ∨ expected = some lease → dropped lease) :
    Drops dropped c (c.releaseLease transferID expected) := by
  unfold releaseLease
  split
  · exact drops_of_eq rfl rfl rfl
  · rename_i hgoes
    obtain ⟨hleases, -, -, hrelinquished⟩ := stop_frame (c.dropLease transferID) transferID none
    refine (dropLease_drops fun lease hget => hdropped lease ?_).trans_eq hleases
      (disposed_stop none) hrelinquished
    cases expected with
    | none => exact .inl rfl
    | some wanted =>
      have hsame : c.recoveryLeases.get transferID = some wanted :=
        Classical.byContradiction fun hne => hgoes ⟨rfl, hne⟩
      exact .inr (hsame.symm.trans hget)

theorem releaseOwned_drops : Drops (· = lease) c (c.releaseOwnedRecoveryLease lease) :=
  release_drops (some lease) fun _ h => h.elim nofun fun h => (Option.some.inj h).symm

theorem releaseOwned_absent :
    (c.releaseOwnedRecoveryLease lease).recoveryLeases.get lease.transferID ≠ some lease := by
  unfold releaseOwnedRecoveryLease releaseLease
  split
  · rename_i h
    exact h.2
  · rw [(stop_frame _ _ _).1]
    show (c.recoveryLeases.delete lease.transferID).get lease.transferID ≠ some lease
    rw [OrderedMap.get_delete_self]
    exact (Option.some_ne_none lease).symm

theorem observe_drops {shardID : ℕ} {runtimeEpoch transportEpoch : Option String} :
    Drops dropped c (c.observeRuntimeEpochs shardOf shardID runtimeEpoch transportEpoch) := by
  unfold observeRuntimeEpochs
  split
  · split
    · exact drops_of_eq rfl rfl rfl
    · rename_i runtimeEpoch transportEpoch _
      -- the requests, one lease after the other
      dsimp only
      generalize c.affected shardOf shardID (runtimeEpoch, transportEpoch) = leases
      have hfold : ∀ (leases : List Lease) (c' : Control), Drops dropped c c' →
          Drops dropped c
            (leases.foldl (fun c lease => c.request lease (runtimeEpoch, transportEpoch)) c') := by
        intro leases
        induction leases with
        | nil => exact fun _ h => h
        | cons lease leases ih =>
          intro c' h
          obtain ⟨hleases, -, -, hrelinquished⟩ :=
            start_frame (c'.setRequested lease (runtimeEpoch, transportEpoch)) lease
          exact ih _ (h.trans_eq hleases disposed_start hrelinquished)
      exact hfold leases _ (drops_of_eq rfl rfl rfl)
  · exact drops_of_eq rfl rfl rfl

theorem recoverTransfer_drops {r : ℕ} {run : RecoveryRun} {input : Input}
    (h : c.recoverTransfer r run input = some c') : Drops (· = run.lease) c c' := by
  have hsame : ∀ phase, Drops (· = run.lease) c (c.setPhase r phase) :=
    fun _ => drops_of_eq rfl rfl rfl
  unfold recoverTransfer at h
  split at h
  all_goals first
    | (cases h; exact hsame _)
    | (split at h <;> cases h <;> exact hsame _)
    | (cases h; exact drops_of_eq rfl rfl rfl)
    | skip
  · -- the end of a successful attempt
    cases h
    unfold settle
    split
    · exact hsame _
    · split
      · exact hsame _
      · exact drops_of_eq rfl rfl rfl
  · cases h
    exact releaseOwned_drops.trans_eq rfl rfl rfl
  · cases h
    unfold finish
    dsimp only
    split <;> exact drops_of_eq rfl rfl rfl
  · cases h

theorem step_old {i : Step} (hi : ∀ lease, i ≠ .registerRecoveryLease lease)
    (h : c.step shardOf i = some c') :
    (∀ transferID lease, c'.recoveryLeases.get transferID = some lease →
      c.recoveryLeases.get transferID = some lease) ∧ c.relinquished ⊆ c'.relinquished := by
  have hdrops : ∀ {c' : Control}, Drops (fun _ => True) c c' →
      (∀ transferID lease, c'.recoveryLeases.get transferID = some lease →
        c.recoveryLeases.get transferID = some lease) ∧ c.relinquished ⊆ c'.relinquished :=
    fun h => ⟨h.old, h.relinquished ▸ List.Subset.refl _⟩
  cases i with
  | registerRecoveryLease lease => exact absurd rfl (hi lease)
  | releaseLease transferID expected =>
    cases h
    exact hdrops (release_drops expected fun _ _ => trivial)
  | continueRecoveryLease lease id =>
    cases h
    exact hdrops (continue_drops id)
  | observeRuntimeEpochs shardID runtimeEpoch transportEpoch =>
    cases h
    exact hdrops observe_drops
  | recoverTransfer r input =>
    obtain ⟨run, -, h⟩ := Option.bind_eq_some_iff.mp h
    have hrun := recoverTransfer_drops h
    exact ⟨hrun.old, hrun.relinquished ▸ List.Subset.refl _⟩
  | dispose k =>
    simp only [step, dispose] at h
    split at h
    · cases h
    · cases h
      exact ⟨fun _ _ h => h, List.Subset.refl _⟩
  | relinquish ownership =>
    cases h
    exact ⟨fun _ _ h => h, List.subset_cons_self ..⟩

end Control

namespace Client
variable {shardOf : String → ℕ} {c c' : Client} {k : ℕ} {s s' : Session} {i : Step}

structure SignersMove (c : Client) (k : ℕ) (s : Session) (c' : Client) (s' : Session) : Prop where
  registered : s.signersRegistered = true → s'.signersRegistered = true
  new : s'.signersRegistered = true →
    s.signersRegistered = true ∨ c'.recoverySigners.get s.lease.transferID = some k
  held : ∀ x, s'.main.held = some x →
    s.main.held = some x ∨ s.main.takesSigners ∧ c.recoverySigners.get s.lease.transferID = some x
  old : ∀ transferID x, c'.recoverySigners.get transferID = some x →
    c.recoverySigners.get transferID = some x ∨ x = k ∧ s'.signersRegistered = true
  kept : ∀ transferID x, c.recoverySigners.get transferID = some x →
    c'.recoverySigners.get transferID = some x ∨ x = k ∨ transferID = s.lease.transferID ∧
      s.main.takesSigners
  stopped : ∀ x ∈ c'.stopped, x ∈ c.stopped ∨ x = k ∨ s.main.held = some x
  unwinds : c.fenced s = true →
    (c.recoverySigners.get s.lease.transferID = some k → s.main.signersUnwind) →
    c'.recoverySigners.get s.lease.transferID = some k → s'.main.signersUnwind

structure LeaseMove (c : Client) (s : Session) (c' : Client) (s' : Session) : Prop where
  registered : s.leaseRegistered = true → s'.leaseRegistered = true
  new : s'.leaseRegistered = true →
    s.leaseRegistered = true ∨ c'.control.recoveryLeases.get s.lease.transferID = some s.lease
  old : ∀ transferID lease, c'.control.recoveryLeases.get transferID = some lease →
    c.control.recoveryLeases.get transferID = some lease ∨ lease = s.lease
  kept : ∀ transferID lease, c.control.recoveryLeases.get transferID = some lease →
    c'.control.recoveryLeases.get transferID = some lease ∨ lease = s.lease ∨
      transferID = s.lease.transferID ∧ s.main = .leasing
  disposed : ∀ lease ∈ c'.control.disposed, lease ∈ c.control.disposed ∨
    s.main = .leasing ∧ c.control.recoveryLeases.get s.lease.transferID = some lease
  relinquished : c'.control.relinquished = c.control.relinquished
  unwinds : c.fenced s = true →
    (c.control.recoveryLeases.get s.lease.transferID = some s.lease → s.main.leaseUnwinds) →
    c'.control.recoveryLeases.get s.lease.transferID = some s.lease → s'.main.leaseUnwinds

structure Moves (c : Client) (k : ℕ) (s : Session) (c' : Client) (s' : Session) : Prop where
  lease : s'.lease = s.lease
  signersMove : SignersMove c k s c' s'
  leaseMove : LeaseMove c s c' s'

theorem SignersMove.same (hsigners : c'.recoverySigners = c.recoverySigners)
    (hstopped : ∀ x ∈ c'.stopped, x ∈ c.stopped ∨ x = k ∨ s.main.held = some x)
    (hregistered : s'.signersRegistered = s.signersRegistered)
    (hheld : ∀ x, s'.main.held = some x → s.main.held = some x)
    (hunwinds : c.fenced s = true → s.main.signersUnwind → s'.main.signersUnwind) :
      SignersMove c k s c' s' where
  registered h := hregistered.trans h
  new h := .inl (hregistered.symm.trans h)
  held x h := .inl (hheld x h)
  old _ _ h := .inl (hsigners ▸ h)
  kept _ _ h := .inl (hsigners ▸ h)
  stopped := hstopped
  unwinds hfenced hbefore h := hunwinds hfenced (hbefore (hsigners ▸ h))

theorem LeaseMove.drops (hdrops : Control.Drops (· = s.lease) c.control c'.control)
    (hregistered : s'.leaseRegistered = s.leaseRegistered)
    (hunwinds : c.fenced s = true → s.main.leaseUnwinds →
      s'.main.leaseUnwinds ∨ c'.control.recoveryLeases.get s.lease.transferID ≠ some s.lease) :
    LeaseMove c s c' s' where
  registered h := hregistered.trans h
  new h := .inl (hregistered.symm.trans h)
  old transferID lease h := .inl (hdrops.old transferID lease h)
  kept transferID lease h := (hdrops.kept transferID lease h).elim (fun h => .inr (.inl h)) .inl
  disposed lease h := .inl (hdrops.disposed ▸ h)
  relinquished := hdrops.relinquished
  unwinds hfenced hbefore h := by
    rcases hunwinds hfenced (hbefore (hdrops.old _ _ h)) with hunwind | habsent
    · exact hunwind
    · exact absurd h habsent

theorem LeaseMove.same (hcontrol : c'.control = c.control)
    (hregistered : s'.leaseRegistered = s.leaseRegistered)
    (hunwinds : c.fenced s = true → s.main.leaseUnwinds → s'.main.leaseUnwinds) :
      LeaseMove c s c' s' :=
  LeaseMove.drops (Control.drops_of_eq (by rw [hcontrol]) (by rw [hcontrol])
    (by rw [hcontrol])) hregistered
    fun hfenced h => .inl (hunwinds hfenced h)

structure Released (c : Client) (k : ℕ) (s : Session) (release : Release) (c' : Client) : Prop where
  sessions : c'.sessions = c.sessions
  old : ∀ transferID x, c'.recoverySigners.get transferID = some x →
    c.recoverySigners.get transferID = some x
  kept : ∀ transferID x, c.recoverySigners.get transferID = some x →
    c'.recoverySigners.get transferID = some x ∨ x = k
  stopped : ∀ x ∈ c'.stopped, x ∈ c.stopped ∨ x = k
  drops : Control.Drops (· = s.lease) c.control c'.control
  signers : release = .signers → c'.recoverySigners.get s.lease.transferID ≠ some k
  lease : release = .lease → c'.control.recoveryLeases.get s.lease.transferID ≠ some s.lease

theorem deleteSigners_old {transferID other : String} {x : ℕ}
    (h : (c.deleteSigners transferID).recoverySigners.get other = some x) :
    other ≠ transferID ∧ c.recoverySigners.get other = some x := by
  by_cases hid : other = transferID
  · subst hid
    cases (OrderedMap.get_delete_self _ _).symm.trans h
  · exact ⟨hid, (OrderedMap.get_delete_of_ne _ hid).symm.trans h⟩

theorem deleteSigners_kept {transferID other : String} {x : ℕ}
    (h : c.recoverySigners.get other = some x) :
    (c.deleteSigners transferID).recoverySigners.get other = some x ∨ other = transferID := by
  by_cases hid : other = transferID
  · exact .inr hid
  · exact .inl ((OrderedMap.get_delete_of_ne _ hid).trans h)

theorem mem_stop {signers : Option ℕ} {x : ℕ} (h : x ∈ (c.stop signers).stopped) :
    x ∈ c.stopped ∨ signers = some x :=
  (List.mem_append.mp h).imp_right Option.mem_toList.mp

theorem releaseOwned_released (release : Release) :
    Released c k s release (c.releaseOwned k s release).1 := by
  cases release with
  | signers =>
    by_cases hown : c.recoverySigners.get s.lease.transferID = some k
    · rw [releaseOwned, if_pos hown]
      refine ⟨rfl, fun _ _ h => (deleteSigners_old h).2, fun other x h => ?_, fun _ h => .inl h,
        Control.drops_of_eq rfl rfl rfl, fun _ h => (deleteSigners_old h).1 rfl, nofun⟩
      refine (deleteSigners_kept h).imp_right fun hid => ?_
      exact Option.some.inj (h.symm.trans (hid ▸ hown))
    · rw [releaseOwned, if_neg hown]
      exact ⟨rfl, fun _ _ h => h, fun _ _ h => .inl h, fun _ h =>
        .inl h, Control.drops_of_eq rfl rfl rfl,
        fun _ => hown, nofun⟩
  | stop =>
    refine ⟨rfl, fun _ _ h => h, fun _ _ h => .inl h,
      fun x h => ?_, Control.drops_of_eq rfl rfl rfl, nofun, nofun⟩
    exact (mem_stop h).imp_right fun hx => (Option.some.inj hx).symm
  | lease =>
    exact ⟨rfl, fun _ _ h => h, fun _ _ h => .inl h, fun _ h =>
      .inl h, Control.releaseOwned_drops, nofun,
      fun _ => Control.releaseOwned_absent⟩

theorem releaseOwned_last {release : Release} (h : (c.releaseOwned k s release).2 = none) :
    release = .lease := by
  cases release with
  | signers =>
    simp only [releaseOwned] at h
    split at h <;> cases h
  | stop => cases h
  | lease => rfl

structure Own (c : Client) (k : ℕ) (s : Session) (c' : Client) (f : Session → Session) : Prop where
  sessions : c'.sessions = c.sessions.modify k f
  moves : Moves c k s c' (f s)

theorem stop_own {phase main : Main} {signers : Option ℕ} (hphase : s.main = phase)
    (hstopped : ∀ x, signers = some x → x = k ∨ phase.held = some x) (hheld : main.held = none)
    (hsigners : phase.signersUnwind → main.signersUnwind) (hlease : ¬ phase.leaseUnwinds) :
    Own c k s ((c.stop signers).setMain k main) fun s => { s with main := main } := by
  subst hphase
  refine ⟨rfl, rfl, .same rfl (fun x h => (mem_stop h).imp_right (hstopped x)) rfl ?_ fun _ =>
    hsigners,
    .same rfl rfl fun _ h => absurd h hlease⟩
  intro x h
  cases hheld.symm.trans h

theorem setMain_own {phase main : Main} (hphase : s.main = phase) (hheld : main.held = none)
    (hsigners : c.fenced s = true → phase.signersUnwind → main.signersUnwind)
    (hlease : c.fenced s = true → phase.leaseUnwinds → main.leaseUnwinds) :
    Own c k s (c.setMain k main) fun s => { s with main := main } := by
  subst hphase
  refine ⟨rfl, rfl, .same rfl (fun _ h => .inl h) rfl ?_ hsigners, .same rfl rfl hlease⟩
  intro x h
  cases hheld.symm.trans h

theorem setMain_idle {phase main : Main} (hphase : s.main = phase) (hheld : main.held = none)
    (hsigners : ¬ phase.signersUnwind) (hlease : ¬ phase.leaseUnwinds) :
    Own c k s (c.setMain k main) fun s => { s with main := main } :=
  setMain_own hphase hheld (fun _ h => absurd h hsigners) fun _ h => absurd h hlease

theorem starting_own (hphase : s.main = .starting) :
    Own c k s ((c.deleteSigners s.lease.transferID).setMain k
      (.stopping (c.recoverySigners.get s.lease.transferID)))
      fun s' => { s' with main := .stopping (c.recoverySigners.get s.lease.transferID) } where
  sessions := rfl
  moves := {
    lease := rfl
    signersMove := {
      registered := id
      new := .inl
      held := fun _ h => .inr ⟨.inl hphase, h⟩
      old := fun _ _ h => .inl (deleteSigners_old h).2
      kept := fun _ _ h => (deleteSigners_kept h).imp_right fun hid => .inr ⟨hid, .inl hphase⟩
      stopped := fun _ h => .inl h
      unwinds := fun _ _ h => absurd rfl (deleteSigners_old h).1 }
    leaseMove := .same rfl rfl fun _ h => by
      rw [hphase] at h
      exact h.elim }

theorem registering_own (hphase : s.main = .registering) {previous : Option ℕ}
    (hprevious : ∀ x, previous = some x → c.recoverySigners.get s.lease.transferID = some x) :
    Own c k s ((c.putSigners s.lease.transferID k).update k fun s =>
        { s with main := .replacing previous, signersRegistered := true })
      fun s => { s with main := .replacing previous, signersRegistered := true } where
  sessions := rfl
  moves := {
    lease := rfl
    signersMove := {
      registered := fun _ => rfl
      new := fun _ => .inr (OrderedMap.get_set_self _ _ _)
      held := fun x h => .inr ⟨.inr hphase, hprevious x h⟩
      old := fun other x h => by
        by_cases hid : other = s.lease.transferID
        · subst hid
          exact .inr ⟨Option.some.inj (h.symm.trans (OrderedMap.get_set_self _ _ _)), rfl⟩
        · exact .inl ((OrderedMap.get_set_of_ne _ hid _).symm.trans h)
      kept := fun other x h => by
        by_cases hid : other = s.lease.transferID
        · exact .inr (.inr ⟨hid, .inr hphase⟩)
        · exact .inl ((OrderedMap.get_set_of_ne _ hid _).trans h)
      stopped := fun _ h => .inl h
      unwinds := fun _ _ _ => trivial }
    leaseMove := .same rfl rfl fun _ h => by
      rw [hphase] at h
      exact h.elim }

theorem leasing_own (hphase : s.main = .leasing) :
    Own c k s ((c.setControl (c.control.registerRecoveryLease s.lease)).update k fun s =>
        { s with main := .watching, leaseRegistered := true })
      fun s => { s with main := .watching, leaseRegistered := true } := by
  have hleases : (c.control.registerRecoveryLease s.lease).recoveryLeases =
      c.control.recoveryLeases.set s.lease.transferID s.lease := (Control.stop_frame _ _ _).1
  have hget : (c.control.registerRecoveryLease s.lease).recoveryLeases.get s.lease.transferID =
      some s.lease := by
    rw [hleases, OrderedMap.get_set_self]
  have hother : ∀ other, other ≠ s.lease.transferID →
      (c.control.registerRecoveryLease s.lease).recoveryLeases.get other =
        c.control.recoveryLeases.get other :=
    fun other hid => by rw [hleases, OrderedMap.get_set_of_ne _ hid]
  refine ⟨rfl, rfl, .same rfl (fun _ h => .inl h) rfl nofun (fun _ _ => trivial), ?_⟩
  refine ⟨fun _ => rfl, fun _ => .inr hget, fun other lease h => ?_,
    fun other lease h => ?_, fun lease h => ?_, ?_,
    fun _ _ _ => trivial⟩
  · by_cases hid : other = s.lease.transferID
    · subst hid
      exact .inr (Option.some.inj (h.symm.trans hget))
    · exact .inl ((hother other hid).symm.trans h)
  · by_cases hid : other = s.lease.transferID
    · exact .inr (.inr ⟨hid, hphase⟩)
    · exact .inl ((hother other hid).trans h)
  · -- the lease that was there is disposed
    have hdisposed : lease ∈ (c.control.putLease s.lease).disposed :=
      Control.disposed_stop (some s.lease) ▸ h
    rcases List.mem_append.mp hdisposed with hold | hprevious
    · exact .inl hold
    · exact .inr ⟨hphase, (Option.filter_eq_some_iff.mp (Option.mem_toList.mp hprevious)).1⟩
  · exact (Control.stop_frame _ _ _).2.2.2

theorem watching_own :
    Own c k s (c.update k fun s => { s with main := .fencing, watched := true })
      fun s => { s with main := .fencing, watched := true } :=
  ⟨rfl, rfl, .same rfl (fun _ h => .inl h) rfl nofun (fun _ _ => trivial),
    .same rfl rfl fun _ _ => trivial⟩

theorem continuing_own (hphase : s.main = .continuing) (id : String) :
    Own c k s
      ((c.setControl (c.control.continueRecoveryLease shardOf s.lease id)).setMain k .returned)
      fun s => { s with main := .returned } := by
  refine ⟨rfl, rfl, .same rfl (fun _ h => .inl h) rfl nofun ?_,
    .drops (Control.continue_drops id) rfl ?_⟩
  · intro _ h
    rw [hphase] at h
    exact h.elim
  · intro _ h
    rw [hphase] at h
    exact h.elim

theorem Released.own {release : Release} {next : Option Release}
    (hreleased : Released c k s release c')
    (hphase : s.main = .releasing release) (hlast : next = none → release = .lease) :
    Own c k s (c'.setMain k (next.elim .returned .releasing))
      fun s => { s with main := next.elim .returned .releasing } where
  sessions := by rw [setMain, update, hreleased.sessions]
  moves := {
    lease := rfl
    signersMove := {
      registered := id
      new := .inl
      held := fun x h => by cases next <;> cases h
      old := fun _ _ h => .inl (hreleased.old _ _ h)
      kept := fun _ _ h => (hreleased.kept _ _ h).imp_right .inl
      stopped := fun _ h => (hreleased.stopped _ h).imp_right .inl
      unwinds := fun _ hbefore h => by
        have hunwinds := hbefore (hreleased.old _ _ h)
        rw [hphase] at hunwinds
        cases release with
        | signers => exact absurd h (hreleased.signers rfl)
        | stop => exact hunwinds.elim
        | lease => exact hunwinds.elim }
    leaseMove := .drops hreleased.drops rfl fun _ _ => by
      cases next with
      | none => exact .inr (hreleased.lease (hlast rfl))
      | some next => exact .inl trivial }

theorem execute_own {input : Input} (h : c.executeProviderTransfer shardOf k s input = some c') :
    ∃ f, Own c k s c' f := by
  unfold executeProviderTransfer at h
  dsimp only at h
  split at h
  · rename_i hphase
    cases h
    exact ⟨_, setMain_idle hphase rfl id id⟩
  · rename_i hphase
    cases h
    refine ⟨_, setMain_idle hphase ?_ id id⟩
    split <;> rfl
  · rename_i hphase
    cases h
    exact ⟨_, starting_own hphase⟩
  · rename_i hphase
    cases h
    exact ⟨_, stop_own hphase (fun _ h => .inr h) rfl False.elim id⟩
  · rename_i hphase
    cases h
    exact ⟨_, setMain_idle hphase rfl id id⟩
  · rename_i hphase
    cases h
    exact ⟨_, setMain_idle hphase rfl id id⟩
  · rename_i hphase
    cases h
    -- its own signers are not registered yet
    split
    · exact ⟨_, stop_own hphase (fun _ h => .inl (Option.some.inj h).symm) rfl False.elim id⟩
    · exact ⟨_, setMain_idle hphase rfl id id⟩
  · rename_i hphase
    cases h
    exact ⟨_, registering_own hphase fun x h => (Option.filter_eq_some_iff.mp h).1⟩
  · rename_i hphase
    cases h
    exact ⟨_, stop_own hphase (fun _ h => .inr h) rfl (fun _ => trivial) id⟩
  · rename_i hphase
    cases h
    exact ⟨_, leasing_own hphase⟩
  · cases h
    exact ⟨_, watching_own⟩
  · rename_i hphase
    cases h
    -- a fenced owner goes on to its release
    refine ⟨_, setMain_own hphase ?_ (fun hfenced _ => ?_) (fun hfenced _ => ?_)⟩
    · split <;> rfl
    · rw [if_pos hfenced]
      trivial
    · rw [if_pos hfenced]
      trivial
  · rename_i hphase
    cases h
    exact ⟨_, setMain_idle hphase rfl id id⟩
  · rename_i hphase
    cases h
    exact ⟨_, setMain_idle hphase rfl id id⟩
  · rename_i hphase
    cases h
    exact ⟨_, setMain_idle hphase rfl id id⟩
  · rename_i hphase
    cases h
    refine ⟨_, setMain_idle hphase ?_ id id⟩
    split <;> rfl
  · rename_i hphase
    cases h
    exact ⟨_, setMain_idle hphase rfl id id⟩
  · rename_i hphase
    cases h
    exact ⟨_, continuing_own hphase _⟩
  · rename_i hphase
    cases h
    exact ⟨_, (releaseOwned_released _).own hphase releaseOwned_last⟩
  · cases h

theorem releasing_own {j : ℕ} (hs : c.sessions[k]? = some s) (h : c.releasing k j = some c') :
    ∃ f, Own c k s c' f := by
  rw [releasing, hs] at h
  dsimp only at h
  split at h
  · cases h
  · rename_i release hrelease
    cases h
    have hreleased : Released c k s release (c.releaseOwned k s release).1 :=
      releaseOwned_released release
    refine ⟨_,
      by rw [update, hreleased.sessions], rfl, ?_, .drops hreleased.drops rfl fun _ => .inl⟩
    exact ⟨id, .inl, fun _ => .inl, fun _ _ h => .inl (hreleased.old _ _ h),
      fun _ _ h => (hreleased.kept _ _ h).imp_right .inl, fun _ h =>
        (hreleased.stopped _ h).imp_right .inl,
      fun _ hbefore h => hbefore (hreleased.old _ _ h)⟩

theorem release_own (hs : c.sessions[k]? = some s) (h : c.release k = some c') : ∃ f,
    Own c k s c' f := by
  rw [release, hs] at h
  dsimp only at h
  split at h
  · cases h
    exact ⟨_, rfl, rfl, .same rfl (fun _ h => .inl h) rfl (fun _ => id) fun _ =>
      id, .same rfl rfl fun _ => id⟩
  · cases h

def Step.caller : Step → Option ℕ
  | .main k _ | .release k | .releasing k _ => some k
  | _ => none

structure Foreign (c c' : Client) : Prop where
  sessions : ∀ (k : ℕ) s, c.sessions[k]? = some s → c'.sessions[k]? = some s
  new : ∀ (k : ℕ) s, c'.sessions[k]? = some s →
    c.sessions[k]? = some s ∨ s.lease.ref = k ∧ s.main = .preparing ∧ s.signersRegistered = false ∧
      s.leaseRegistered = false
  signers : ∀ transferID x, c'.recoverySigners.get transferID = some x →
    c.recoverySigners.get transferID = some x
  leases : ∀ transferID lease, c'.control.recoveryLeases.get transferID = some lease →
    c.control.recoveryLeases.get transferID = some lease
  relinquished : c.control.relinquished ⊆ c'.control.relinquished

theorem Foreign.of_sessions (hsessions : c'.sessions = c.sessions)
    (hsigners : ∀ transferID x, c'.recoverySigners.get transferID = some x →
      c.recoverySigners.get transferID = some x)
    (hleases : ∀ transferID lease, c'.control.recoveryLeases.get transferID = some lease →
      c.control.recoveryLeases.get transferID = some lease)
    (hrelinquished : c.control.relinquished ⊆ c'.control.relinquished) : Foreign c c' where
  sessions _ _ h := hsessions ▸ h
  new _ _ h := .inl (hsessions ▸ h)
  signers := hsigners
  leases := hleases
  relinquished := hrelinquished

theorem execute_foreign (transferID planFingerprint coordinateChecksum : String)
    (ownership : Option ℕ) :
    Foreign c (c.execute transferID planFingerprint coordinateChecksum ownership) where
  sessions k s h := List.getElem?_append_left (List.getElem?_eq_some_iff.mp h).1 ▸ h
  new k s h := by
    rcases Nat.lt_or_ge k c.sessions.length with hlt | hge
    · exact .inl ((List.getElem?_append_left hlt).symm.trans h)
    · rw [execute, List.getElem?_append_right hge] at h
      obtain ⟨hlt, hs⟩ := List.getElem?_eq_some_iff.mp h
      have hk : k = c.sessions.length :=
        Nat.le_antisymm (Nat.sub_eq_zero_iff_le.mp (by simpa using hlt)) hge
      subst hk
      simp only [List.getElem_singleton] at hs
      subst hs
      exact .inr ⟨rfl, rfl, rfl, rfl⟩
  signers _ _ h := h
  leases _ _ h := h
  relinquished := List.Subset.refl _

theorem control_foreign {j : Control.Step} {control : Control} (hi : i.control = some j)
    (h : c.control.step shardOf j = some control) : Foreign c (c.setControl control) := by
  have hnot : ∀ lease, j ≠ .registerRecoveryLease lease := by
    rintro lease rfl
    cases i <;> cases hi
  obtain ⟨hleases, hrelinquished⟩ := Control.step_old hnot h
  exact .of_sessions rfl (fun _ _ h => h) hleases hrelinquished

theorem step_cases (h : c.step shardOf i = some c') :
    (∃ k s f, i.caller = some k ∧ c.sessions[k]? = some s ∧ Own c k s c' f) ∨ i.caller = none ∧
      Foreign c c' := by
  have hcontrol : (i.control.bind (c.control.step shardOf)).map c.setControl = some c' →
      Foreign c c' := by
    intro h
    obtain ⟨control, hcontrol, rfl⟩ := Option.map_eq_some_iff.mp h
    obtain ⟨j, hj, hstep⟩ := Option.bind_eq_some_iff.mp hcontrol
    exact control_foreign hj hstep
  cases i with
  | execute transferID planFingerprint coordinateChecksum ownership =>
    cases h
    exact .inr ⟨rfl, execute_foreign _ _ _ _⟩
  | main k input =>
    obtain ⟨s, hs, h⟩ := Option.bind_eq_some_iff.mp h
    obtain ⟨f, hown⟩ := execute_own h
    exact .inl ⟨k, s, f, rfl, hs, hown⟩
  | release k =>
    cases hs : c.sessions[k]? with
    | none => simp [step, release, hs] at h
    | some s =>
      obtain ⟨f, hown⟩ := release_own hs h
      exact .inl ⟨k, s, f, rfl, hs, hown⟩
  | releasing k j =>
    cases hs : c.sessions[k]? with
    | none => simp [step, releasing, hs] at h
    | some s =>
      obtain ⟨f, hown⟩ := releasing_own hs h
      exact .inl ⟨k, s, f, rfl, hs, hown⟩
  | stopRecoverySigner transferID =>
    cases h
    exact .inr ⟨rfl, .of_sessions rfl (fun _ _ h => (deleteSigners_old h).2) (fun _ _ h => h)
      (List.Subset.refl _)⟩
  | stop j =>
    simp only [step] at h
    split at h
    · cases h
    · cases h
      exact .inr ⟨rfl, .of_sessions rfl (fun _ _ h => h) (fun _ _ h => h) (List.Subset.refl _)⟩
  | releaseRecoveryLease transferID => exact .inr ⟨rfl, hcontrol h⟩
  | observeRuntimeEpochs shardID runtimeEpoch transportEpoch => exact .inr ⟨rfl, hcontrol h⟩
  | recoverTransfer r input => exact .inr ⟨rfl, hcontrol h⟩
  | dispose j => exact .inr ⟨rfl, hcontrol h⟩
  | relinquish ownership => exact .inr ⟨rfl, hcontrol h⟩

/-- Signers in the map, and those a call has taken out of it, were registered by the calls they are
of. -/
structure Sound (c : Client) : Prop where
  refs : ∀ (k : ℕ) s, c.sessions[k]? = some s → s.lease.ref = k
  taken : ∀ transferID (x : ℕ), c.recoverySigners.get transferID = some x →
    ∃ s, c.sessions[x]? = some s ∧ s.signersRegistered = true
  held : ∀ (k : ℕ) s (x : ℕ), c.sessions[k]? = some s → s.main.held = some x →
    ∃ s', c.sessions[x]? = some s' ∧ s'.signersRegistered = true

theorem Own.session {f : Session → Session} (hown : Own c k s c' f) (hs : c.sessions[k]? = some s) :
    c'.sessions[k]? = some (f s) := by
  rw [hown.sessions, List.getElem?_modify_eq, hs]
  rfl

theorem Own.other {f : Session → Session} (hown : Own c k s c' f) {x : ℕ} (h : x ≠ k) :
    c'.sessions[x]? = c.sessions[x]? := by
  rw [hown.sessions, List.getElem?_modify_ne _ _ h.symm]

theorem own_sound {f : Session → Session} (hsound : Sound c) (hs : c.sessions[k]? = some s)
    (hown : Own c k s c' f) :
    Sound c' := by
  obtain ⟨hlease, hsigners, -⟩ := hown.moves
  have hregistered : ∀ x : ℕ, (∃ s, c.sessions[x]? = some s ∧ s.signersRegistered = true) →
      ∃ s, c'.sessions[x]? = some s ∧ s.signersRegistered = true := by
    rintro x ⟨s', hs', hregistered⟩
    by_cases hx : x = k
    · subst hx
      obtain rfl := Option.some.inj (hs.symm.trans hs')
      exact ⟨_, hown.session hs, hsigners.registered hregistered⟩
    · exact ⟨s', (hown.other hx).trans hs', hregistered⟩
  refine ⟨fun x s' hs' => ?_, fun transferID x hget => ?_, fun j s' x hs' hheld => ?_⟩
  · by_cases hx : x = k
    · subst hx
      obtain rfl := Option.some.inj ((hown.session hs).symm.trans hs')
      exact hlease ▸ hsound.refs x s hs
    · exact hsound.refs x s' ((hown.other hx).symm.trans hs')
  · rcases hsigners.old transferID x hget with hold | ⟨rfl, hnew⟩
    · exact hregistered x (hsound.taken transferID x hold)
    · exact ⟨_, hown.session hs, hnew⟩
  · by_cases hj : j = k
    · subst hj
      obtain rfl := Option.some.inj ((hown.session hs).symm.trans hs')
      rcases hsigners.held x hheld with hold | ⟨-, hget⟩
      · exact hregistered x (hsound.held j s x hs hold)
      · exact hregistered x (hsound.taken _ x hget)
    · exact hregistered x (hsound.held j s' x ((hown.other hj).symm.trans hs') hheld)

theorem foreign_sound (hsound : Sound c) (h : Foreign c c') : Sound c' := by
  have hregistered : ∀ x : ℕ, (∃ s, c.sessions[x]? = some s ∧ s.signersRegistered = true) →
      ∃ s, c'.sessions[x]? = some s ∧ s.signersRegistered = true :=
    fun x ⟨s, hs, hregistered⟩ => ⟨s, h.sessions x s hs, hregistered⟩
  refine ⟨fun k s hs => ?_, fun transferID x hget => ?_, fun k s x hs hheld => ?_⟩
  · exact (h.new k s hs).elim (hsound.refs k s) And.left
  · exact hregistered x (hsound.taken transferID x (h.signers transferID x hget))
  · rcases h.new k s hs with hold | ⟨-, hmain, -⟩
    · exact hregistered x (hsound.held k s x hold hheld)
    · rw [hmain] at hheld
      cases hheld

theorem step_sound (hsound : Sound c) (h : c.step shardOf i = some c') : Sound c' := by
  rcases step_cases h with ⟨k, s, f, -, hs, hown⟩ | ⟨-, hforeign⟩
  · exact own_sound hsound hs hown
  · exact foreign_sound hsound hforeign

theorem start_sound : Sound Client.start := by
  refine ⟨fun k s h => ?_, fun transferID x h => ?_, fun k s x h _ => ?_⟩
  · cases h
  · cases h
  · cases h

theorem reachable_sound {is : List Step}
    (h : Run.after (step shardOf) Client.start is = some c) : Sound c :=
  Run.after_invariant (fun _ _ _ hs h => step_sound hs h) start_sound h

variable {a b : ℕ} {A B : Session}

/-- A step of call `a`, or of a loop for its lease. -/
def Step.acts (a : ℕ) (c : Client) : Step → Prop
  | .main k _ | .release k | .releasing k _ => k = a
  | .recoverTransfer r _ => (c.control.runs[r]?).map (fun run => run.lease.ref) = some a
  | _ => False

/-- A fenced call is about to take, or to register over, what another call has registered. -/
def Overrides (a b : ℕ) (c : Client) (i : Step) : Prop :=
  i.caller = some a ∧ ∃ A ∈ c.sessions[a]?, c.fenced A = true ∧
    (A.main.takesSigners ∧ c.recoverySigners.get A.lease.transferID = some b ∨
      A.main = .leasing ∧ (c.control.recoveryLeases.get A.lease.transferID).map Lease.ref = some b)

structure Spares (b : ℕ) (B : Session) (c c' : Client) : Prop where
  signers : c.recoverySigners.get B.lease.transferID = some b →
    c'.recoverySigners.get B.lease.transferID = some b
  stopped : b ∈ c'.stopped → b ∈ c.stopped
  lease : c.control.recoveryLeases.get B.lease.transferID = some B.lease →
    c'.control.recoveryLeases.get B.lease.transferID = some B.lease
  disposed : B.lease ∈ c'.control.disposed → B.lease ∈ c.control.disposed

/-- Call `a` is fenced. What it still has after call `b` has registered, it gives up before it
returns. -/
structure Fence (a b : ℕ) (c : Client) (A : Session) : Prop where
  session : c.sessions[a]? = some A
  fenced : c.fenced A = true
  held : A.main.held ≠ some b
  signers : ∀ B, c.sessions[b]? = some B → B.lease.transferID = A.lease.transferID →
    B.signersRegistered = true →
    c.recoverySigners.get A.lease.transferID = some a → A.main.signersUnwind
  lease : ∀ B, c.sessions[b]? = some B → B.lease.transferID = A.lease.transferID →
    B.leaseRegistered = true →
    c.control.recoveryLeases.get A.lease.transferID = some A.lease → A.main.leaseUnwinds

theorem fenced_mono (hsub : c.control.relinquished ⊆ c'.control.relinquished)
    (hlease : s'.lease = s.lease)
    (h : c.fenced s = true) : c'.fenced s' = true := by
  obtain ⟨ownership, hownership, hmem⟩ := (Option.any_eq_true _ _).mp h
  refine (Option.any_eq_true _ _).mpr ⟨ownership, hlease ▸ hownership, ?_⟩
  exact List.contains_iff_mem.mpr (hsub (List.contains_iff_mem.mp hmem))

theorem Sound.lease_ne (hsound : Sound c) (hne : a ≠ b) (hA : c.sessions[a]? = some A)
    (hB : c.sessions[b]? = some B) :
    A.lease ≠ B.lease := by
  intro h
  refine hne ?_
  rw [← hsound.refs a A hA, ← hsound.refs b B hB, h]

theorem own_fence {f : Session → Session} (hne : a ≠ b) (hfence : Fence a b c A)
    (hown : Own c a A c' f)
    (hi : i.caller = some a) (hgood : ¬ Overrides a b c i) : Fence a b c' (f A) := by
  obtain ⟨hlease, hsigners, hleases⟩ := hown.moves
  refine ⟨hown.session hfence.session, ?_, fun hheld => ?_, fun B hB hid hregistered hget => ?_,
    fun B hB hid hregistered hget => ?_⟩
  · exact fenced_mono (hleases.relinquished ▸ List.Subset.refl _) hlease hfence.fenced
  · rcases hsigners.held b hheld with hold | ⟨htakes, hget⟩
    · exact hfence.held hold
    · exact hgood ⟨hi, A, hfence.session, hfence.fenced, .inl ⟨htakes, hget⟩⟩
  · rw [hown.other hne.symm] at hB
    rw [hlease] at hid hget
    exact hsigners.unwinds hfence.fenced (hfence.signers B hB hid hregistered) hget
  · rw [hown.other hne.symm] at hB
    rw [hlease] at hid hget
    exact hleases.unwinds hfence.fenced (hfence.lease B hB hid hregistered) hget

theorem other_fence {f : Session → Session} (hsound : Sound c) (hfence : Fence a b c A)
    (hs : c.sessions[k]? = some s) (hown : Own c k s c' f) (hk : k ≠ a) : Fence a b c' A := by
  obtain ⟨hlease, hsigners, hleases⟩ := hown.moves
  have hdistinct : s.lease ≠ A.lease := hsound.lease_ne hk hs hfence.session
  have hgetSigners : ∀ transferID, c'.recoverySigners.get transferID = some a →
      c.recoverySigners.get transferID = some a := by
    intro transferID hget
    rcases hsigners.old transferID a hget with hold | ⟨heq, -⟩
    · exact hold
    · exact absurd heq.symm hk
  have hgetLease : ∀ transferID, c'.control.recoveryLeases.get transferID = some A.lease →
      c.control.recoveryLeases.get transferID = some A.lease := by
    intro transferID hget
    rcases hleases.old transferID A.lease hget with hold | heq
    · exact hold
    · exact absurd heq.symm hdistinct
  refine ⟨(hown.other hk.symm).trans hfence.session, ?_, hfence.held,
    fun B hB hid hregistered hget => ?_,
    fun B hB hid hregistered hget => ?_⟩
  · exact fenced_mono (hleases.relinquished ▸ List.Subset.refl _) rfl hfence.fenced
  · by_cases hb : b = k
    · subst hb
      obtain rfl := Option.some.inj ((hown.session hs).symm.trans hB)
      rcases hsigners.new hregistered with hold | hnew
      · exact hfence.signers s hs (hlease ▸ hid) hold (hgetSigners _ hget)
      · rw [← hlease, hid, hget] at hnew
        exact absurd (Option.some.inj hnew).symm hk
    · exact hfence.signers B ((hown.other hb).symm.trans hB) hid hregistered (hgetSigners _ hget)
  · by_cases hb : b = k
    · subst hb
      obtain rfl := Option.some.inj ((hown.session hs).symm.trans hB)
      rcases hleases.new hregistered with hold | hnew
      · exact hfence.lease s hs (hlease ▸ hid) hold (hgetLease _ hget)
      · have hid' : s.lease.transferID = A.lease.transferID := hlease ▸ hid
        rw [hid', hget] at hnew
        exact absurd (Option.some.inj hnew).symm hdistinct
    · exact hfence.lease B ((hown.other hb).symm.trans hB) hid hregistered (hgetLease _ hget)

theorem foreign_fence (hfence : Fence a b c A) (h : Foreign c c') : Fence a b c' A := by
  refine ⟨h.sessions a A hfence.session, fenced_mono h.relinquished rfl hfence.fenced, hfence.held,
    fun B hB hid hregistered hget => ?_, fun B hB hid hregistered hget => ?_⟩
  · rcases h.new b B hB with hold | ⟨-, -, hnot, -⟩
    · exact hfence.signers B hold hid hregistered (h.signers _ _ hget)
    · cases hnot.symm.trans hregistered
  · rcases h.new b B hB with hold | ⟨-, -, -, hnot⟩
    · exact hfence.lease B hold hid hregistered (h.leases _ _ hget)
    · cases hnot.symm.trans hregistered

theorem step_fence (hsound : Sound c) (hne : a ≠ b) (hfence : Fence a b c A)
    (h : c.step shardOf i = some c')
    (hgood : ¬ Overrides a b c i) : ∃ A', A'.lease = A.lease ∧ Fence a b c' A' := by
  rcases step_cases h with ⟨k, s, f, hi, hs, hown⟩ | ⟨-, hforeign⟩
  · by_cases hk : k = a
    · subst hk
      obtain rfl := Option.some.inj (hfence.session.symm.trans hs)
      exact ⟨_, hown.moves.lease, own_fence hne hfence hown hi hgood⟩
    · exact ⟨A, rfl, other_fence hsound hfence hs hown hk⟩
  · exact ⟨A, rfl, foreign_fence hfence hforeign⟩

theorem own_spares {f : Session → Session} (hsound : Sound c) (hne : a ≠ b) (hfence : Fence a b c A)
    (hB : c.sessions[b]? = some B) (hid : B.lease.transferID = A.lease.transferID)
    (hown : Own c a A c' f)
    (hi : i.caller = some a) (hgood : ¬ Overrides a b c i) : Spares b B c c' := by
  obtain ⟨-, hsigners, hleases⟩ := hown.moves
  have hdistinct : B.lease ≠ A.lease := hsound.lease_ne hne.symm hB hfence.session
  have href : some B.lease.ref = some b := congrArg some (hsound.refs b B hB)
  refine ⟨fun hget => ?_, fun hstopped => ?_, fun hget => ?_, fun hdisposed => ?_⟩
  · rcases hsigners.kept _ b hget with hkept | heq | ⟨-, htakes⟩
    · exact hkept
    · exact absurd heq.symm hne
    · exact absurd ⟨hi, A, hfence.session, hfence.fenced, .inl ⟨htakes, hid ▸ hget⟩⟩ hgood
  · rcases hsigners.stopped b hstopped with hold | heq | hheld
    · exact hold
    · exact absurd heq.symm hne
    · exact absurd hheld hfence.held
  · rcases hleases.kept _ B.lease hget with hkept | heq | ⟨-, hleasing⟩
    · exact hkept
    · exact absurd heq hdistinct
    · refine absurd ⟨hi, A, hfence.session, hfence.fenced, .inr ⟨hleasing, ?_⟩⟩ hgood
      rw [← hid, hget]
      exact href
  · rcases hleases.disposed B.lease hdisposed with hold | ⟨hleasing, hget⟩
    · exact hold
    · refine absurd ⟨hi, A, hfence.session, hfence.fenced, .inr ⟨hleasing, ?_⟩⟩ hgood
      rw [hget]
      exact href

theorem acts_spares (hsound : Sound c) (hne : a ≠ b) (hfence : Fence a b c A)
    (hB : c.sessions[b]? = some B)
    (hid : B.lease.transferID = A.lease.transferID) (h : c.step shardOf i = some c')
    (hacts : i.acts a c)
    (hgood : ¬ Overrides a b c i) : Spares b B c c' := by
  have hcall : i.caller = some a → Spares b B c c' := by
    intro hi
    rcases step_cases h with ⟨k, s, f, hk, hs, hown⟩ | ⟨hnone, -⟩
    · obtain rfl := Option.some.inj (hi.symm.trans hk)
      obtain rfl := Option.some.inj (hfence.session.symm.trans hs)
      exact own_spares hsound hne hfence hB hid hown hi hgood
    · cases hi.symm.trans hnone
  cases i with
  | main k input => exact hcall (congrArg some hacts)
  | release k => exact hcall (congrArg some hacts)
  | releasing k j => exact hcall (congrArg some hacts)
  | recoverTransfer r input =>
    obtain ⟨control, hcontrol, rfl⟩ := Option.map_eq_some_iff.mp h
    obtain ⟨j, hj, hstep⟩ := Option.bind_eq_some_iff.mp hcontrol
    cases hj
    obtain ⟨run, hrun, hstep⟩ := Option.bind_eq_some_iff.mp hstep
    have hdrops := Control.recoverTransfer_drops hstep
    refine ⟨id, id, fun hget => ?_, fun hdisposed => hdrops.disposed ▸ hdisposed⟩
    -- the lease it gives up is not this one
    refine (hdrops.kept _ _ hget).resolve_left fun heq => hne ?_
    have href : run.lease.ref = a := by
      rw [Step.acts, hrun] at hacts
      exact Option.some.inj hacts
    rw [← href, ← heq, hsound.refs b B hB]
  | execute transferID planFingerprint coordinateChecksum ownership => exact hacts.elim
  | releaseRecoveryLease transferID => exact hacts.elim
  | stopRecoverySigner transferID => exact hacts.elim
  | stop j => exact hacts.elim
  | observeRuntimeEpochs shardID runtimeEpoch transportEpoch => exact hacts.elim
  | dispose j => exact hacts.elim
  | relinquish ownership => exact hacts.elim

def Registered (b : ℕ) (lease : Lease) (c : Client) : Prop :=
  ∃ B, c.sessions[b]? = some B ∧ B.lease = lease ∧ B.signersRegistered = true ∧
    B.leaseRegistered = true

theorem step_registered {lease : Lease} (hregistered : Registered b lease c)
    (h : c.step shardOf i = some c') :
    Registered b lease c' := by
  obtain ⟨B, hB, hlease, hsigners, hleases⟩ := hregistered
  rcases step_cases h with ⟨k, s, f, -, hs, hown⟩ | ⟨-, hforeign⟩
  · by_cases hb : b = k
    · subst hb
      obtain rfl := Option.some.inj (hs.symm.trans hB)
      have hmoves := hown.moves
      exact ⟨f s, hown.session hs, hmoves.lease.trans hlease,
        hmoves.signersMove.registered hsigners,
        hmoves.leaseMove.registered hleases⟩
    · exact ⟨B, (hown.other hb).trans hB, hlease, hsigners, hleases⟩
  · exact ⟨B, hforeign.sessions b B hB, hlease, hsigners, hleases⟩

theorem fence_of_unregistered (hsound : Sound c) (hA : c.sessions[a]? = some A)
    (hfenced : c.fenced A = true)
    (hbefore : ∀ B, c.sessions[b]? = some B → B.signersRegistered = false ∧
      B.leaseRegistered = false) :
    Fence a b c A := by
  refine ⟨hA, hfenced, fun hheld => ?_, fun B hB _ hregistered => ?_, fun B hB _ hregistered => ?_⟩
  · obtain ⟨B, hB, hregistered⟩ := hsound.held a A b hA hheld
    cases (hbefore B hB).1.symm.trans hregistered
  · cases (hbefore B hB).1.symm.trans hregistered
  · cases (hbefore B hB).2.symm.trans hregistered

theorem run_fence {is : List Step} (hsound : Sound c) (hne : a ≠ b) (hfence : Fence a b c A)
    (h : Run.after (step shardOf) c is = some c')
    (hnever : Run.Never (step shardOf) c is (Overrides a b)) :
    Sound c' ∧ ∃ A', A'.lease = A.lease ∧ Fence a b c' A' := by
  refine Run.invariant_along (I := fun c' => Sound c' ∧ ∃ A', A'.lease = A.lease ∧ Fence a b c' A')
    (P := fun _ => True) ?_ ⟨hsound, A, rfl, hfence⟩ h (fun _ _ _ _ _ => trivial) hnever
  rintro u i v ⟨hu, A', hlease, hA'⟩ hstep - hgood
  obtain ⟨A'', hlease', hA''⟩ := step_fence hu hne hA' hstep hgood
  exact ⟨step_sound hu hstep, A'', hlease'.trans hlease, hA''⟩

/-- In a run where a fenced call never takes or registers over what another call of its transfer
has registered: from where that other call has its signers and lease, all registered since the
first was fenced, the fenced call and the loops for its lease leave them alone, and when it has
returned nothing of its own is registered. -/
theorem go_fenced_spares {earlier middle later : List Step} {v u w : Client} {lease : Lease}
    (hne : a ≠ b)
    (hv : Run.after (step shardOf) Client.start earlier = some v) (hA : v.sessions[a]? = some A)
    (hfenced : v.fenced A = true)
    (hbefore : ∀ B, v.sessions[b]? = some B → B.signersRegistered = false ∧
      B.leaseRegistered = false)
    (hu : Run.after (step shardOf) v middle = some u) (hregistered : Registered b lease u)
    (hid : lease.transferID = A.lease.transferID) (hw : Run.after (step shardOf) u later = some w)
    (hnever : Run.Never (step shardOf) Client.start (earlier ++ (middle ++ later))
      (Overrides a b)) :
    (∀ i w' B, w.sessions[b]? = some B → i.acts a w → w.step shardOf i = some w' →
      ¬ Overrides a b w i →
      Spares b B w w') ∧
    ∀ A', w.sessions[a]? = some A' → A'.main = .returned →
      w.recoverySigners.get A.lease.transferID ≠ some a ∧
        w.control.recoveryLeases.get A.lease.transferID ≠ some A.lease := by
  have hsound := reachable_sound hv
  have hvw : Run.after (step shardOf) v (middle ++ later) = some w :=
    Run.after_append.mpr ⟨u, hu, hw⟩
  obtain ⟨hsound', A', hlease, hfence⟩ :=
    run_fence hsound hne (fence_of_unregistered hsound hA hfenced hbefore) hvw (hnever.of_append hv)
  obtain ⟨B, hB, hBlease, hsigners, hleases⟩ : Registered b lease w :=
    Run.after_invariant (fun _ _ _ hr h => step_registered hr h) hregistered hw
  have hidw : B.lease.transferID = A'.lease.transferID := by rw [hBlease, hid, hlease]
  refine ⟨fun i w' B' hB' hacts hstep hgood => ?_, fun A'' hA'' hreturned =>
    ⟨fun hget => ?_, fun hget => ?_⟩⟩
  · obtain rfl := Option.some.inj (hB.symm.trans hB')
    exact acts_spares hsound' hne hfence hB hidw hstep hacts hgood
  · obtain rfl := Option.some.inj (hfence.session.symm.trans hA'')
    have hunwinds := hfence.signers B hB hidw hsigners (hlease ▸ hget)
    rw [hreturned] at hunwinds
    exact hunwinds
  · obtain rfl := Option.some.inj (hfence.session.symm.trans hA'')
    have hunwinds := hfence.lease B hB hidw hleases (hlease ▸ hget)
    rw [hreturned] at hunwinds
    exact hunwinds

def sampleShard : String → ℕ := fun _ => 0

def sampleExecute (ownership : ℕ) : Step :=
    .execute "transfer" "fingerprint" "checksum" (some ownership)

def sampleRegister (k : ℕ) : List Step := List.replicate 8 (.main k .proceed)

/-- Its ownership is cancelled after the check that precedes `startProviderRouteRecoverySigner`. -/
def sampleFenced : List Step := [sampleExecute 0, sampleExecute 1, .main 0 .proceed, .relinquish 0]

/-- It takes the signers of the call that replaced it. -/
theorem sample_go_overridden : ∃ v u w A B,
    Run.after (step sampleShard) Client.start sampleFenced = some v ∧ v.sessions[0]? = some A ∧
      v.fenced A = true ∧
    (∀ B, v.sessions[1]? = some B → B.signersRegistered = false ∧ B.leaseRegistered = false) ∧
    Run.after (step sampleShard) v (sampleRegister 1) = some u ∧ Registered 1 B.lease u ∧
    u.sessions[1]? = some B ∧ B.lease.transferID = A.lease.transferID ∧ u.fenced B = false ∧
    u.step sampleShard (.main 0 .proceed) = some w ∧ ¬ Spares 1 B u w := by
  refine ⟨_, _, _, _, _, rfl, rfl,
    by decide, ?_, rfl, ⟨_, rfl, rfl, rfl, rfl⟩, rfl, rfl, by decide, rfl, fun h => ?_⟩
  · rintro B ⟨⟩
    exact ⟨rfl, rfl⟩
  · exact absurd (h.signers (by decide)) (by decide)

instance (i : Step) : Decidable (Overrides a b c i) :=
    inferInstanceAs (Decidable (_ ∧ ∃ A ∈ c.sessions[a]?, _ ∧ _))

/-- A stream that goes on while its owner is fenced, replaced, and left to return. -/
def sampleStreaming : List Step :=
  sampleExecute 0 :: (sampleRegister 0 ++ [.main 0 .proceed, .main 0 .proceed, .relinquish 0])

def sampleReplacing : List Step := sampleExecute 1 :: sampleRegister 1

def sampleReturns : List Step :=
    [.main 0 .failed, .main 0 .failed, .main 0 .proceed, .main 0 .proceed]

def sampleAfter (c : Client) (is : List Step) : Client :=
    (Run.after (step sampleShard) c is).getD Client.start

def sampleStreamed : Client := sampleAfter Client.start sampleStreaming

def sampleReplaced : Client := sampleAfter sampleStreamed sampleReplacing

def sampleReturned : Client := sampleAfter sampleReplaced sampleReturns

theorem sample_go_spares : ∃ A, sampleStreamed.sessions[0]? = some A ∧
    sampleReturned.recoverySigners.get A.lease.transferID ≠ some 0 ∧
    sampleReturned.control.recoveryLeases.get A.lease.transferID ≠ some A.lease := by
  have hnever : Run.Never (step sampleShard) Client.start
      (sampleStreaming ++ (sampleReplacing ++ sampleReturns))
      (Overrides 0 1) := Run.never_of_check (by decide)
  obtain ⟨A, hA, hfenced, hid⟩ : ∃ A, sampleStreamed.sessions[0]? = some A ∧
      sampleStreamed.fenced A = true ∧
      A.lease.transferID = "transfer" := ⟨_, rfl, by decide, rfl⟩
  have hbefore : ∀ B, sampleStreamed.sessions[1]? = some B →
      B.signersRegistered = false ∧ B.leaseRegistered = false := nofun
  obtain ⟨lease, hregistered, hsame⟩ : ∃ lease, Registered 1 lease sampleReplaced ∧
      lease.transferID = "transfer" :=
    ⟨_, ⟨_, rfl, rfl, rfl, rfl⟩, rfl⟩
  obtain ⟨A', hA', hreturned⟩ : ∃ A', sampleReturned.sessions[0]? = some A' ∧ A'.main = .returned :=
    ⟨_, rfl, rfl⟩
  have hspares := go_fenced_spares (v := sampleStreamed) (u := sampleReplaced) (w := sampleReturned)
    (by decide) rfl hA
    hfenced hbefore rfl hregistered (hsame.trans hid.symm) rfl hnever
  exact ⟨A, hA, hspares.2 A' hA' hreturned⟩

end Client
end Beam.Go
