import BeamSdk.TypeScript.Ownership

/-! A call whose signal has fired leaves alone what another call has registered since, unless it is
still on its way to register, where its signal is not looked at again. -/

namespace Beam.TypeScript

def Main.starting : Main → Bool
  | .preparing | .acquiring | .serving | .integrity | .leasing => true
  | _ => false

namespace Control
variable {c c' : Control} {lease : TransferRecoveryLease} {operation : Operation} {r : ℕ}

theorem lease_recoverLease (id : String) : (c.recoverLease lease id).recoveryLease =
    c.recoveryLease := by
  unfold recoverLease
  split <;> rfl

theorem lease_request (epoch id : String) : (c.request lease epoch id).recoveryLease =
    c.recoveryLease :=
  lease_recoverLease id

theorem lease_continue (owner : Option TransferRecoveryLease) (foreground id : String) :
    (c.continueRecoveryLease owner foreground id).recoveryLease = c.recoveryLease := by
  unfold continueRecoveryLease
  split
  · rfl
  · split
    · rfl
    · split
      · rfl
      · exact lease_request _ _

theorem lease_observe (epoch : RuntimeEpoch) (id : String) :
    (c.observeRuntimeEpoch epoch id).recoveryLease = c.recoveryLease := by
  unfold observeRuntimeEpoch
  split
  · rfl
  · dsimp only
    split
    · rfl
    · split
      · rfl
      · exact lease_request _ _

theorem lease_callback (replaced : Bool) (id : String) :
    (c.callback r operation replaced id).recoveryLease = c.recoveryLease := by
  have hdeleted : (if c.recoveryOperations.get operation.lease = some r then
      { c.setPhase r .done with recoveryOperations := c.recoveryOperations.delete operation.lease }
      else c.setPhase r .done).recoveryLease = c.recoveryLease := by
    split <;> rfl
  unfold callback
  dsimp only
  split
  · exact hdeleted
  · split
    · exact hdeleted
    · split
      · exact (lease_recoverLease id).trans hdeleted
      · exact hdeleted

theorem lease_release (owner : TransferRecoveryLease) :
    (c.releaseRecoveryLease (some owner)).recoveryLease = c.recoveryLease ∨
      c.recoveryLease = some owner ∧
        (c.releaseRecoveryLease (some owner)).recoveryLease = none := by
  rcases release_cases (c := c) (some owner) with hsame | ⟨hreleased, howner⟩
  · exact .inl (congrArg Control.recoveryLease hsame)
  · rw [hreleased]
    cases hlease : c.recoveryLease with
    | none => exact .inl rfl
    | some lease =>
      rcases howner lease hlease with hnone | hown
      · cases hnone
      · exact .inr ⟨hown.symm, rfl⟩

theorem lease_turn (hturn : Turn c r operation c') : c'.recoveryLease = c.recoveryLease ∨
    c.recoveryLease = some operation.lease ∧ c'.recoveryLease = none := by
  cases hturn with
  | goOn phase hphase hdone hloop => exact .inl rfl
  | replay epoch routeGenerationID hphase hserved => exact .inl rfl
  | send epoch routeGenerationID hphase => exact .inl rfl
  | release hphase => exact lease_release operation.lease
  | callback replaced hphase id => exact .inl (lease_callback replaced id)

theorem lease_goOn {input : Input} (h : c.step (.goOn r input) = some c') : ∃ operation,
    c.operations[r]? = some operation ∧
    (c'.recoveryLease = c.recoveryLease ∨ c.recoveryLease = some operation.lease ∧
      c'.recoveryLease = none) := by
  obtain ⟨operation, hentry, hturn⟩ := Option.bind_eq_some_iff.mp h
  exact ⟨operation, hentry, lease_turn (turn_of_goOn hturn)⟩

end Control

namespace Client
variable {c c' c'' : Client} {call : Call} {lease : TransferRecoveryLease}
    {control : Control} {a b k : ℕ}

/-- What a step leaves of the signers and the lease of call `b`. -/
structure Spares (b : ℕ) (lease : TransferRecoveryLease) (c c' : Client) : Prop where
  signers : ∀ registration, c.recoverySigner = some registration → registration.owner = b →
    c'.recoverySigner = some registration
  integrity : c.integrityAuditSigner = some b → c'.integrityAuditSigner = some b
  stopped : b ∈ c'.stopped → b ∈ c.stopped
  integrityStopped : b ∈ c'.integrityStopped → b ∈ c.integrityStopped
  lease : c.control.recoveryLease = some lease → c'.control.recoveryLease = some lease
  disposed : b ∈ c'.disposed → b ∈ c.disposed

theorem Spares.trans (h : Spares b lease c c') (h' : Spares b lease c' c'') :
    Spares b lease c c'' where
  signers registration hsigner howner :=
    h'.signers registration (h.signers registration hsigner howner) howner
  integrity hsigner := h'.integrity (h.integrity hsigner)
  stopped hmem := h.stopped (h'.stopped hmem)
  integrityStopped hmem := h.integrityStopped (h'.integrityStopped hmem)
  lease hlease := h'.lease (h.lease hlease)
  disposed hmem := h.disposed (h'.disposed hmem)

theorem spares_rfl : Spares b lease c c := ⟨fun _ h _ => h, id, id, id, id, id⟩

theorem spares_update (f : Call → Call) : Spares b lease c (c.update k f) :=
    ⟨fun _ h _ => h, id, id, id, id, id⟩

theorem spares_setMain (main : Main) : Spares b lease c (c.setMain k main) := spares_update _

structure Sound (c : Client) : Prop where
  refs : ∀ (k : ℕ) (call : Call), c.calls[k]? = some call → call.lease.ref = k
  -- the signers of a transfer come and go together
  integrity : c.integrityAuditSigner = c.owner
  registered : ∀ lease, c.control.recoveryLease = some lease →
    ∃ call : Call, c.calls[lease.ref]? = some call ∧ call.lease = lease
  starting : ∀ (k : ℕ) (call : Call), c.calls[k]? = some call → call.main.starting = true →
    call.leaseRegistered = false

theorem owner_of_signer {registration : Registration} (h : c.recoverySigner = some registration) :
    c.owner = some registration.owner := congrArg (Option.map Registration.owner) h

theorem spares_stop {owner : Option ℕ} (hother : c.owner ≠ some b)
    (hintegrity : c.integrityAuditSigner = c.owner) :
    Spares b lease c (c.stopRecoverySigner owner) := by
  unfold stopRecoverySigner
  split
  · exact spares_rfl
  · refine ⟨fun registration hsigner howner => ?_, fun hsigner => ?_,
      fun hmem => ?_, fun hmem => ?_, id, id⟩
    · exact absurd (howner ▸ owner_of_signer hsigner) hother
    · exact absurd (hintegrity.symm.trans hsigner) hother
    · rcases List.mem_append.mp hmem with hold | hnew
      · exact hold
      · exact absurd (Option.mem_toList.mp hnew) hother
    · rcases List.mem_append.mp hmem with hold | hnew
      · exact hold
      · obtain ⟨registration, hfilter, howner⟩ :=
          Option.map_eq_some_iff.mp (Option.mem_toList.mp hnew)
        exact absurd (howner ▸ owner_of_signer (Option.filter_eq_some_iff.mp hfilter).1) hother

theorem stop_of_other (hother : c.owner ≠ some k) : c.stopRecoverySigner (some k) = c :=
    if_pos ⟨nofun, hother⟩

theorem spares_stopOwn (hne : k ≠ b) (hintegrity : c.integrityAuditSigner = c.owner) :
    Spares b lease c (c.stopRecoverySigner (some k)) := by
  by_cases hown : c.owner = some k
  · refine spares_stop (fun h => hne ?_) hintegrity
    exact Option.some.inj (hown.symm.trans h)
  · rw [stop_of_other hown]
    exact spares_rfl

theorem setControl_cases (control : Control) :
    (c.setControl control = { c with control := control } ∧
      (c.control.recoveryLease = none ∨ control.recoveryLease = c.control.recoveryLease)) ∨
    ∃ previous, c.control.recoveryLease = some previous ∧ control.recoveryLease ≠ some previous ∧
      c.setControl control =
        { c with
          control := control
          listeners := c.listeners.filter fun k => k ≠ previous.ref
          disposed := c.disposed ++ [previous.ref] } := by
  unfold setControl
  split
  · rename_i hnone
    exact .inl ⟨rfl, .inl hnone⟩
  · rename_i previous hprevious
    split
    · rename_i hsame
      exact .inl ⟨rfl, .inr (hsame.trans hprevious.symm)⟩
    · rename_i hgone
      exact .inr ⟨previous, hprevious, hgone, rfl⟩

theorem spares_setControl (hkeeps : c.control.recoveryLease = some lease →
    control.recoveryLease = some lease)
    (hregistered : ∀ other, c.control.recoveryLease = some other → other.ref = b → other = lease) :
    Spares b lease c (c.setControl control) := by
  rcases setControl_cases (c := c) control with ⟨hsame, -⟩ | ⟨previous, hprevious, hgone, hdisposed⟩
  · rw [hsame]
    exact ⟨fun _ h _ => h, id, id, id, hkeeps, id⟩
  · rw [hdisposed]
    refine ⟨fun _ h _ => h, id, id, id, hkeeps, fun hmem => ?_⟩
    rcases List.mem_append.mp hmem with hold | hnew
    · exact hold
    · obtain rfl := hregistered previous hprevious (List.mem_singleton.mp hnew).symm
      exact absurd (hkeeps hprevious) hgone

theorem setControl_control (control : Control) : (c.setControl control).control = control := by
  rcases setControl_cases (c := c) control with ⟨hsame, -⟩ | ⟨previous, -, -, hdisposed⟩
  · rw [hsame]
  · rw [hdisposed]

theorem spares_release (hother : call.lease ≠ lease)
    (hregistered : ∀ other, c.control.recoveryLease = some other → other.ref = b → other = lease) :
    Spares b lease c (c.release call.lease) := by
  refine spares_setControl (fun hlease => ?_) hregistered
  rcases Control.lease_release (c := c.control) call.lease with hsame | ⟨hown, -⟩
  · exact hsame.trans hlease
  · exact absurd (Option.some.inj (hown.symm.trans hlease)) hother

theorem spares_continue (foreground id : String)
    (hregistered : ∀ other, c.control.recoveryLease = some other → other.ref = b → other = lease) :
    Spares b lease c (c.continueRecovery call.lease foreground id) :=
  spares_setControl (fun hlease => (Control.lease_continue _ _ _).trans hlease) hregistered

theorem stop_control (owner : Option ℕ) : (c.stopRecoverySigner owner).control = c.control := by
  unfold stopRecoverySigner
  split <;> rfl

theorem spares_stopOwned (hne : k ≠ b) (hintegrity : c.integrityAuditSigner = c.owner)
    (hother : call.lease ≠ lease)
    (hregistered : ∀ other, c.control.recoveryLease = some other → other.ref = b → other = lease) :
    Spares b lease c (c.stopOwnedRecovery k call.lease) := by
  have hstopped : Spares b lease c (c.stopRecoverySigner (some k)) := spares_stopOwn hne hintegrity
  refine hstopped.trans (spares_release hother fun other hlease => ?_)
  rw [stop_control] at hlease
  exact hregistered other hlease

inductive Does (c : Client) (k : ℕ) (call : Call) (foreground id : String) : Client → Prop
  | move (main : Main) (hmain : main.starting = true → call.main.starting = true) :
    Does c k call foreground id (c.setMain k main)
  | take (hmain : call.main = .acquiring) :
      Does c k call foreground id ((c.stopRecoverySigner none).setMain k .serving)
  | install (hmain : call.main = .serving) (hopen : call.aborted = false) :
    Does c k call foreground id
      ((c.installSigners k).update k fun call =>
        { call with main := .integrity, signersRegistered := true })
  | complete (hmain : call.main = .integrity) (howner : c.owner = some k) :
    Does c k call foreground id ({ c with recoverySigner := some ⟨k, true⟩ }.setMain k .leasing)
  | stop (integrityStopped : List ℕ) (hmain : call.main = .serving ∨ call.main = .integrity)
      (hintegrity : ∀ j ∈ integrityStopped, j ∈ c.integrityStopped ∨ j = k) :
    Does c k call foreground id
      ({ c with stopped := c.stopped ++ [k], integrityStopped := integrityStopped }.setMain k
        .leasing)
  | unsign (hmain : call.main = .integrity) :
      Does c k call foreground id ((c.stopRecoverySigner (some k)).setMain k .leasing)
  | register (hmain : call.main = .leasing) :
      Does c k call foreground id (c.registerLease k call foreground id)
  | ask : Does c k call foreground id
      ((c.continueRecovery call.lease foreground id).setMain k .returned)
  | fence : Does c k call foreground id ((c.stopOwnedRecovery k call.lease).setMain k .returned)
  | release : Does c k call foreground id ((c.release call.lease).setMain k .returned)

theorem does_of_main {outcome : Outcome} {foreground id : String}
    (h : c.executeProviderTransfer k call outcome foreground id = some c') : Does c k
      call foreground id c' := by
  unfold executeProviderTransfer at h
  split at h <;> try cases h
  all_goals rename_i hmain
  all_goals have hstarting := congrArg Main.starting hmain
  · exact .move _ nofun
  · exact .move _ fun _ => hstarting
  · exact .take hmain
  · exact .move _ nofun
  · split
    · exact .stop c.integrityStopped (.inl hmain) fun j hj => .inl hj
    · rename_i hopen
      exact .install hmain (eq_false_of_ne_true hopen)
  · split
    · exact .stop _ (.inr hmain) fun j hj => (List.mem_append.mp hj).imp_right List.mem_singleton.mp
    · rename_i hnot
      push Not at hnot
      exact .complete hmain hnot.2
  · split
    · exact .unsign hmain
    · exact .move _ fun _ => hstarting
  · exact .register hmain
  · exact .move _ nofun
  · refine .move _ fun h => ?_
    split at h <;> cases h
  · exact .ask
  · exact .ask
  · exact .ask
  · exact .move _ nofun
  · split
    · exact .fence
    · exact .move _ nofun
  · exact .move _ nofun
  · exact .release
  · exact .release

def takesSigners (call : Call) : Prop := call.main = .acquiring ∨ call.main = .serving ∧
    call.aborted = false

theorem sound_stop (hintegrity : c.integrityAuditSigner = c.owner) (owner : Option ℕ) :
    (c.stopRecoverySigner owner).integrityAuditSigner = (c.stopRecoverySigner owner).owner := by
  unfold stopRecoverySigner
  split
  · exact hintegrity
  · rfl

theorem spares_install (hother : c.owner ≠ some b) (hintegrity : c.integrityAuditSigner = c.owner) :
    Spares b lease c (c.installSigners k) := by
  have hstopped : Spares b lease c (c.stopRecoverySigner none) := spares_stop hother hintegrity
  refine ⟨fun registration hsigner howner => ?_,
    fun hsigner => ?_, hstopped.stopped, hstopped.integrityStopped,
    hstopped.lease, hstopped.disposed⟩
  · exact absurd (howner ▸ owner_of_signer hsigner) hother
  · exact absurd (hintegrity.symm.trans hsigner) hother

theorem spares_register (href : call.lease.ref ≠ b)
    (hlease : c.control.closed = false → c.control.recoveryLease ≠ some lease)
    (hregistered : ∀ other, c.control.recoveryLease = some other → other.ref = b → other = lease)
    (foreground id : String) :
    Spares b lease c (c.registerLease k call foreground id) := by
  have hlistened : Spares b lease c { c with listeners := k :: c.listeners } :=
    ⟨fun _ h _ => h, fun h => h, fun h => h, fun h => h, fun h => h, fun h => h⟩
  unfold registerLease
  dsimp only
  split
  · exact hlistened.trans (spares_setMain _)
  · rename_i hopen
    have hnot := hlease (eq_false_of_ne_true hopen)
    have hput : Spares b lease { c with listeners := k :: c.listeners }
        ({ c with listeners := k :: c.listeners }.setControl
          (c.control.registerRecoveryLease call.lease)) :=
      spares_setControl (fun h => absurd h hnot) hregistered
    have hregister :=
      (hlistened.trans hput).trans (spares_update (k := k) fun call =>
        { call with leaseRegistered := true })
    split
    · refine (hregister.trans (spares_continue _ _ fun other hother => ?_)).trans (spares_setMain _)
      -- the lease that has just been registered
      have hown : (c.control.registerRecoveryLease call.lease).recoveryLease = some call.lease := by
        rw [Control.registerRecoveryLease, if_neg hopen]
      have hput : ({ c with listeners := k :: c.listeners }.setControl
          (c.control.registerRecoveryLease call.lease)).control.recoveryLease = some other := hother
      rw [setControl_control, hown] at hput
      cases hput
      exact fun h => absurd h href
    · exact hregister.trans (spares_setMain _)

theorem main_spares (hsound : Sound c) (hne : k ≠ b) (href : call.lease.ref =
    k) (hother : call.lease ≠ lease)
    (hregistered : ∀ other, c.control.recoveryLease = some other → other.ref = b → other = lease)
    (hsigners : takesSigners call → c.owner ≠ some b)
    (hlease : call.main =
      .leasing → c.control.closed = false → c.control.recoveryLease ≠ some lease)
    {foreground id : String} (h : Does c k call foreground id c') : Spares b lease c c' := by
  cases h with
  | move main hmain => exact spares_setMain _
  | take hmain => exact (spares_stop
      (hsigners (.inl hmain)) hsound.integrity).trans (spares_setMain _)
  | install hmain hopen =>
    exact (spares_install (hsigners (.inr ⟨hmain, hopen⟩)) hsound.integrity).trans (spares_update _)
  | complete hmain howner =>
    have hset : Spares b lease c { c with recoverySigner := some ⟨k, true⟩ } := by
      refine ⟨fun registration hsigner howner' => ?_, fun h =>
        h, fun h => h, fun h => h, fun h => h, fun h => h⟩
      exact absurd (Option.some.inj (howner.symm.trans (howner' ▸ owner_of_signer hsigner))) hne
    exact hset.trans (spares_setMain _)
  | stop integrityStopped hmain hintegrity =>
    have hstop : Spares b lease c { c with
        stopped := c.stopped ++ [k], integrityStopped := integrityStopped } := by
      refine ⟨fun _ h _ => h, fun h => h, fun hmem => ?_, fun hmem => ?_, fun h => h, fun h => h⟩
      · rcases List.mem_append.mp hmem with hold | hnew
        · exact hold
        · exact absurd (List.mem_singleton.mp hnew).symm hne
      · rcases hintegrity b hmem with hold | hnew
        · exact hold
        · exact absurd hnew.symm hne
    exact hstop.trans (spares_setMain _)
  | unsign hmain => exact (spares_stopOwn hne hsound.integrity).trans (spares_setMain _)
  | register hmain => exact spares_register (href ▸ hne) (hlease hmain) hregistered foreground id
  | ask => exact (spares_continue _ _ hregistered).trans (spares_setMain _)
  | fence => exact (spares_stopOwned hne hsound.integrity
      hother hregistered).trans (spares_setMain _)
  | release => exact (spares_release hother hregistered).trans (spares_setMain _)

theorem stop_owner {owner : Option ℕ} {j : ℕ} (h : (c.stopRecoverySigner owner).owner = some j) :
    c.owner = some j := by
  unfold stopRecoverySigner at h
  split at h
  · exact h
  · cases h

theorem setControl_owner (control : Control) : (c.setControl control).owner = c.owner := by
  rcases setControl_cases (c := c) control with ⟨hsame, -⟩ | ⟨previous, -, -, hdisposed⟩
  · rw [hsame]
    rfl
  · rw [hdisposed]
    rfl

theorem setControl_calls (control : Control) : (c.setControl control).calls = c.calls := by
  rcases setControl_cases (c := c) control with ⟨hsame, -⟩ | ⟨previous, -, -, hdisposed⟩
  · rw [hsame]
  · rw [hdisposed]

theorem stop_calls (owner : Option ℕ) : (c.stopRecoverySigner owner).calls = c.calls := by
  unfold stopRecoverySigner
  split <;> rfl

theorem release_lease {owner : TransferRecoveryLease}
    (h : (c.release owner).control.recoveryLease = some lease) :
    c.control.recoveryLease = some lease := by
  rw [release, setControl_control] at h
  rcases Control.lease_release (c := c.control) owner with hsame | ⟨-, hnone⟩
  · exact hsame.symm.trans h
  · rw [hnone] at h
    cases h

theorem register_cases (call : Call) (foreground id : String) :
    c.control.closed = true ∧ (c.registerLease k call foreground id).control = c.control ∧
      (c.registerLease k call foreground id).calls =
        c.calls.modify k (fun call => { call with main := .returned }) ∨
    c.control.closed = false ∧ (c.registerLease k call foreground id).control.recoveryLease =
      some call.lease ∧
      ∃ main : Main, main.starting = false ∧ (c.registerLease k call foreground id).calls =
        (c.calls.modify k fun call => { call with leaseRegistered := true }).modify k fun call =>
          { call with main } := by
  unfold registerLease
  dsimp only
  split
  · rename_i hclosed
    exact .inl ⟨hclosed, rfl, rfl⟩
  · rename_i hopen
    have hput : (c.control.registerRecoveryLease call.lease).recoveryLease = some call.lease := by
      rw [Control.registerRecoveryLease, if_neg hopen]
    refine .inr ⟨eq_false_of_ne_true hopen, ?_⟩
    split
    · refine ⟨?_, .returned, rfl, ?_⟩
      · show (setControl _ _).control.recoveryLease = _
        rw [setControl_control, Control.lease_continue]
        show (setControl _ _).control.recoveryLease = _
        rw [setControl_control]
        exact hput
      · show (setControl _ _).calls.modify k _ = _
        rw [setControl_calls]
        show ((setControl _ _).calls.modify k _).modify k _ = _
        rw [setControl_calls]
    · refine ⟨?_, .announcing, rfl, ?_⟩
      · show (setControl _ _).control.recoveryLease = _
        rw [setControl_control]
        exact hput
      · show ((setControl _ _).calls.modify k _).modify k _ = _
        rw [setControl_calls]

theorem register_owner (foreground id : String) :
    (c.registerLease k call foreground id).owner = c.owner := by
  unfold registerLease
  dsimp only
  split
  · rfl
  · split
    · exact (setControl_owner _).trans (setControl_owner _)
    · exact setControl_owner _

theorem does_owner {foreground id : String}
    {j : ℕ} (h : Does c k call foreground id c') (howner : c'.owner = some j) :
    c.owner = some j ∨ j = k ∧ call.main = .serving ∧ call.aborted = false := by
  cases h with
  | move main hmain => exact .inl howner
  | take hmain => exact .inl (stop_owner howner)
  | install hmain hopen => exact .inr ⟨(Option.some.inj howner).symm, hmain, hopen⟩
  | complete hmain hown =>
    obtain rfl := Option.some.inj howner
    exact .inl hown
  | stop integrityStopped hmain hintegrity => exact .inl howner
  | unsign hmain => exact .inl (stop_owner howner)
  | register hmain => exact .inl ((register_owner _ _).symm.trans howner)
  | ask => exact .inl ((setControl_owner _).symm.trans howner)
  | fence => exact .inl (stop_owner ((setControl_owner _).symm.trans howner))
  | release => exact .inl ((setControl_owner _).symm.trans howner)

theorem does_lease {foreground id : String} (h : Does c k call foreground id c')
    (hlease : c'.control.recoveryLease = some lease) : c.control.recoveryLease = some lease ∨
    lease = call.lease ∧ call.main = .leasing ∧ c.control.closed = false := by
  cases h with
  | move main hmain => exact .inl hlease
  | take hmain =>
    have hstopped : (c.stopRecoverySigner none).control.recoveryLease = some lease := hlease
    rw [stop_control] at hstopped
    exact .inl hstopped
  | install hmain hopen =>
    have hstopped : (c.stopRecoverySigner none).control.recoveryLease = some lease := hlease
    rw [stop_control] at hstopped
    exact .inl hstopped
  | complete hmain hown => exact .inl hlease
  | stop integrityStopped hmain hintegrity => exact .inl hlease
  | unsign hmain =>
    have hstopped : (c.stopRecoverySigner (some k)).control.recoveryLease = some lease := hlease
    rw [stop_control] at hstopped
    exact .inl hstopped
  | register hmain =>
    rcases register_cases (c := c)
      (k := k) call foreground id with ⟨-, hcontrol, -⟩ | ⟨hopen, hput, -⟩
    · rw [hcontrol] at hlease
      exact .inl hlease
    · exact .inr ⟨Option.some.inj (hlease.symm.trans hput), hmain, hopen⟩
  | ask =>
    have hasked : (c.continueRecovery call.lease foreground id).control.recoveryLease = some
        lease := hlease
    rw [continueRecovery, setControl_control, Control.lease_continue] at hasked
    exact .inl hasked
  | fence =>
    have hreleased := release_lease (c := c.stopRecoverySigner (some k)) hlease
    rw [stop_control] at hreleased
    exact .inl hreleased
  | release => exact .inl (release_lease hlease)

structure Moves (k : ℕ) (call : Call) (c' : Client) (call' : Call) : Prop where
  lease : call'.lease = call.lease
  aborted : call.aborted = true → call'.aborted = true
  starting : call'.main.starting = true → call.main.starting = true ∧
    call'.leaseRegistered = call.leaseRegistered
  signers : call'.signersRegistered = true → call.signersRegistered = true ∨
    c'.owner = some k ∧ call.main.starting = true
  leases : call'.leaseRegistered = true → call.leaseRegistered = true ∨
    c'.control.recoveryLease = some call.lease
  registered : call.signersRegistered = true → call'.signersRegistered = true
  leased : call.leaseRegistered = true → call'.leaseRegistered = true

theorem does_calls {foreground id : String} (h : Does c k call foreground id
    c') (hcall : c.calls[k]? = some call) :
    (∀ j, j ≠ k → c'.calls[j]? = c.calls[j]?) ∧
      ∃ call', c'.calls[k]? = some call' ∧ Moves k call c' call' := by
  -- most steps only move the call
  have hmoves : ∀ (c₁ : Client) (main : Main), c₁.calls =
      c.calls → (main.starting = true → call.main.starting = true) →
      (∀ j, j ≠ k → (c₁.setMain k main).calls[j]? = c.calls[j]?) ∧
      ∃ call', (c₁.setMain k main).calls[k]? =
        some call' ∧ Moves k call (c₁.setMain k main) call' := by
    intro c₁ main hcalls hmain
    refine ⟨fun j hj => ?_, { call with main }, ?_, rfl, fun h => h, fun h => ⟨hmain h, rfl⟩, .inl,
      .inl, fun h => h, fun h => h⟩
    · rw [setMain, update, hcalls]
      exact List.getElem?_modify_ne _ _ (Ne.symm hj)
    · rw [setMain, update, hcalls]
      exact Holders.getElem?_modify_entry hcall
  cases h with
  | move main hmain => exact hmoves c main rfl hmain
  | take hmain => exact hmoves _ _ (stop_calls _) fun _ => by rw [hmain]; rfl
  | install hmain hopen =>
    have hcalls : (c.installSigners k).calls = c.calls := stop_calls none
    refine ⟨fun j hj => ?_, { call with main := .integrity, signersRegistered := true },
      ?_, rfl, fun h => h, ?_,
      fun _ => .inr ⟨rfl, by rw [hmain]; rfl⟩, .inl, fun _ => rfl, fun h => h⟩
    · rw [update, hcalls]
      exact List.getElem?_modify_ne _ _ (Ne.symm hj)
    · rw [update, hcalls]
      exact Holders.getElem?_modify_entry hcall
    · exact fun _ => ⟨by rw [hmain]; rfl, rfl⟩
  | complete hmain hown =>
    exact hmoves { c with recoverySigner := some ⟨k, true⟩ } _ rfl fun _ => by rw [hmain]; rfl
  | stop integrityStopped hmain hintegrity =>
    refine hmoves { c with stopped := c.stopped ++ [k], integrityStopped := integrityStopped } _
      rfl fun _ => ?_
    rcases hmain with hmain | hmain <;> rw [hmain] <;> rfl
  | unsign hmain => exact hmoves _ _ (stop_calls _) fun _ => by rw [hmain]; rfl
  | register hmain =>
    rcases register_cases (c := c)
      (k := k) call foreground id with ⟨-, -, hcalls⟩ | ⟨-, hput, main, hstarting, hcalls⟩
    · refine ⟨fun j hj => ?_, { call with main := .returned }, ?_, rfl, fun h => h, nofun,
        .inl, .inl, fun h => h,
        fun h => h⟩
      · rw [hcalls]
        exact List.getElem?_modify_ne _ _ (Ne.symm hj)
      · rw [hcalls]
        exact Holders.getElem?_modify_entry hcall
    · refine ⟨fun j hj => ?_, { call with main, leaseRegistered := true }, ?_, rfl,
        fun h => h, fun h => ?_, .inl,
        fun _ => .inr hput, fun h => h, fun _ => rfl⟩
      · rw [hcalls,
          List.getElem?_modify_ne _ _ (Ne.symm hj), List.getElem?_modify_ne _ _ (Ne.symm hj)]
      · rw [hcalls]
        exact Holders.getElem?_modify_entry (Holders.getElem?_modify_entry hcall)
      · exact absurd (hstarting.symm.trans h) nofun
  | ask => exact hmoves _ _ (setControl_calls _) nofun
  | fence => exact hmoves _ _ ((setControl_calls _).trans (stop_calls _)) nofun
  | release => exact hmoves _ _ (setControl_calls _) nofun

theorem moves_rfl : Moves k call c' call :=
    ⟨rfl, fun h => h, fun h => ⟨h, rfl⟩, .inl, .inl, fun h => h, fun h => h⟩

theorem stopOwned_calls : (c.stopOwnedRecovery k lease).calls = c.calls :=
    (setControl_calls _).trans (stop_calls _)

theorem abort_cases (h : c.abort k call = some c') : call.aborted = false ∧ ∃ listeners,
    let fired :=
      { c.update k fun call => { call with aborted := true } with listeners := listeners }
    c' = fired ∨ c' = fired.stopOwnedRecovery k call.lease := by
  unfold abort at h
  split at h
  · cases h
  · rename_i hopen
    refine ⟨eq_false_of_ne_true hopen, ?_⟩
    cases h
    split
    · exact ⟨_, .inr rfl⟩
    · exact ⟨_, .inl rfl⟩

theorem abort_calls (h : c.abort k call = some c') :
    c'.calls = c.calls.modify k fun call => { call with aborted := true } := by
  obtain ⟨-, listeners, hfired | hstopped⟩ := abort_cases h
  · rw [hfired]
    rfl
  · rw [hstopped]
    exact stopOwned_calls

theorem step_call {i : Step} (h : c.step i = some c') (hcall : c.calls[k]? = some call) :
    ∃ call', c'.calls[k]? = some call' ∧ Moves k call c' call' := by
  have hsame : c'.calls = c.calls → ∃ call', c'.calls[k]? = some call' ∧ Moves k call c' call' := by
    intro hcalls
    rw [hcalls]
    exact ⟨call, hcall, moves_rfl⟩
  cases i with
  | execute planFingerprint coordinateChecksum =>
    cases h
    refine ⟨call, ?_, moves_rfl⟩
    exact (List.getElem?_append_left (List.getElem?_eq_some_iff.mp hcall).1).trans hcall
  | main j outcome foreground id =>
    obtain ⟨other, hother, h⟩ := Option.bind_eq_some_iff.mp h
    obtain ⟨hothers, call', hcall', hmoves⟩ := does_calls (does_of_main h) hother
    by_cases hk : k = j
    · subst hk
      obtain rfl := Option.some.inj (hother.symm.trans hcall)
      exact ⟨call', hcall', hmoves⟩
    · exact ⟨call, (hothers k hk).trans hcall, moves_rfl⟩
  | abort j =>
    obtain ⟨other, hother, h⟩ := Option.bind_eq_some_iff.mp h
    rw [abort_calls h]
    by_cases hk : j = k
    · subst hk
      refine ⟨{ call with aborted := true }, Holders.getElem?_modify_entry hcall, ?_⟩
      exact ⟨rfl, fun _ => rfl, fun h => ⟨h, rfl⟩, .inl, .inl, fun h => h, fun h => h⟩
    · exact ⟨call, (List.getElem?_modify_ne _ _ hk).trans hcall, moves_rfl⟩
  | replayFailed j =>
    obtain ⟨other, hother, h⟩ := Option.bind_eq_some_iff.mp h
    obtain ⟨-, h⟩ := Option.ite_none_right_eq_some.mp h
    cases h
    exact hsame stopOwned_calls
  | terminal =>
    cases h
    exact hsame ((stop_calls _).trans (setControl_calls _))
  | observeRuntimeEpoch epoch id =>
    cases h
    exact hsame (setControl_calls _)
  | goOn r input =>
    obtain ⟨control, -, rfl⟩ := Option.map_eq_some_iff.mp h
    exact hsame (setControl_calls _)
  | close =>
    cases h
    exact hsame ((setControl_calls _).trans (stop_calls _))

theorem step_new {i : Step} (h : c.step i = some c') (hnone : c.calls[k]? = none)
    (hcall : c'.calls[k]? = some call) :
    call.lease.ref = k ∧ call.signersRegistered = false ∧ call.leaseRegistered = false := by
  have hsame : c'.calls = c.calls →
      call.lease.ref = k ∧ call.signersRegistered = false ∧ call.leaseRegistered = false := by
    intro hcalls
    rw [hcalls, hnone] at hcall
    cases hcall
  cases i with
  | execute planFingerprint coordinateChecksum =>
    cases h
    have hk : c.calls.length ≤ k := List.getElem?_eq_none_iff.mp hnone
    obtain ⟨hlt, -⟩ := List.getElem?_eq_some_iff.mp hcall
    have hlength : k = c.calls.length := by
      simp only [execute, List.length_append, List.length_singleton] at hlt
      omega
    subst hlength
    rw [execute, List.getElem?_concat_length] at hcall
    cases hcall
    exact ⟨rfl, rfl, rfl⟩
  | main j outcome foreground id =>
    obtain ⟨other, hother, h⟩ := Option.bind_eq_some_iff.mp h
    have hk : k ≠ j := by
      intro hk
      rw [hk, hother] at hnone
      cases hnone
    rw [(does_calls (does_of_main h) hother).1 k hk, hnone] at hcall
    cases hcall
  | abort j =>
    obtain ⟨other, hother, h⟩ := Option.bind_eq_some_iff.mp h
    have hk : j ≠ k := by
      intro hk
      rw [← hk, hother] at hnone
      cases hnone
    rw [abort_calls h, List.getElem?_modify_ne _ _ hk, hnone] at hcall
    cases hcall
  | replayFailed j =>
    obtain ⟨other, hother, h⟩ := Option.bind_eq_some_iff.mp h
    obtain ⟨-, h⟩ := Option.ite_none_right_eq_some.mp h
    cases h
    exact hsame stopOwned_calls
  | terminal =>
    cases h
    exact hsame ((stop_calls _).trans (setControl_calls _))
  | observeRuntimeEpoch epoch id =>
    cases h
    exact hsame (setControl_calls _)
  | goOn r input =>
    obtain ⟨control, -, rfl⟩ := Option.map_eq_some_iff.mp h
    exact hsame (setControl_calls _)
  | close =>
    cases h
    exact hsame ((setControl_calls _).trans (stop_calls _))

theorem stopOwned_owner {j : ℕ} (h : (c.stopOwnedRecovery k lease).owner = some j) :
    c.owner = some j :=
  stop_owner ((setControl_owner _).symm.trans h)

theorem step_owner {i : Step} {j : ℕ} (h : c.step i = some c') (howner : c'.owner = some j) :
    c.owner = some j ∨ ∃ call, c.calls[j]? = some call ∧ call.main = .serving ∧
      call.aborted = false := by
  cases i with
  | execute planFingerprint coordinateChecksum =>
    cases h
    exact .inl howner
  | main k outcome foreground id =>
    obtain ⟨call, hcall, h⟩ := Option.bind_eq_some_iff.mp h
    rcases does_owner (does_of_main h) howner with hold | ⟨rfl, hmain, hopen⟩
    · exact .inl hold
    · exact .inr ⟨call, hcall, hmain, hopen⟩
  | abort k =>
    obtain ⟨call, hcall, h⟩ := Option.bind_eq_some_iff.mp h
    obtain ⟨-, listeners, hfired | hstopped⟩ := abort_cases h
    · rw [hfired] at howner
      exact .inl howner
    · rw [hstopped] at howner
      have hold := stopOwned_owner howner
      exact .inl hold
  | replayFailed k =>
    obtain ⟨call, hcall, h⟩ := Option.bind_eq_some_iff.mp h
    obtain ⟨-, h⟩ := Option.ite_none_right_eq_some.mp h
    cases h
    exact .inl (stopOwned_owner howner)
  | terminal =>
    cases h
    exact .inl ((setControl_owner _).symm.trans (stop_owner howner))
  | observeRuntimeEpoch epoch id =>
    cases h
    exact .inl ((setControl_owner _).symm.trans howner)
  | goOn r input =>
    obtain ⟨control, -, rfl⟩ := Option.map_eq_some_iff.mp h
    exact .inl ((setControl_owner _).symm.trans howner)
  | close =>
    cases h
    exact .inl (stop_owner ((setControl_owner _).symm.trans howner))

theorem stopOwned_lease {owner : TransferRecoveryLease}
    (h : (c.stopOwnedRecovery k owner).control.recoveryLease = some lease) :
      c.control.recoveryLease = some lease := by
  have hreleased := release_lease (c := c.stopRecoverySigner (some k)) h
  rwa [stop_control] at hreleased

theorem step_lease {i : Step} (h : c.step i = some c')
    (hlease : c'.control.recoveryLease = some lease) :
    c.control.recoveryLease = some lease ∨ ∃ k outcome foreground id call,
      i = .main k outcome foreground id ∧
      c.calls[k]? = some call ∧ lease = call.lease ∧ call.main = .leasing ∧
        c.control.closed = false := by
  cases i with
  | execute planFingerprint coordinateChecksum =>
    cases h
    exact .inl hlease
  | main k outcome foreground id =>
    obtain ⟨call, hcall, h⟩ := Option.bind_eq_some_iff.mp h
    rcases does_lease (does_of_main h) hlease with hold | ⟨hown, hmain, hopen⟩
    · exact .inl hold
    · exact .inr ⟨k, outcome, foreground, id, call, rfl, hcall, hown, hmain, hopen⟩
  | abort k =>
    obtain ⟨call, hcall, h⟩ := Option.bind_eq_some_iff.mp h
    obtain ⟨-, listeners, hfired | hstopped⟩ := abort_cases h
    · rw [hfired] at hlease
      exact .inl hlease
    · rw [hstopped] at hlease
      have hold := stopOwned_lease hlease
      exact .inl hold
  | replayFailed k =>
    obtain ⟨call, hcall, h⟩ := Option.bind_eq_some_iff.mp h
    obtain ⟨-, h⟩ := Option.ite_none_right_eq_some.mp h
    cases h
    exact .inl (stopOwned_lease hlease)
  | terminal =>
    cases h
    rw [stop_control, setControl_control] at hlease
    rcases Control.release_cases (c := c.control) none with hsame | ⟨hreleased, -⟩
    · rw [hsame] at hlease
      exact .inl hlease
    · rw [hreleased] at hlease
      cases hlease
  | observeRuntimeEpoch epoch id =>
    cases h
    rw [setControl_control, Control.lease_observe] at hlease
    exact .inl hlease
  | goOn r input =>
    obtain ⟨control, hcontrol, rfl⟩ := Option.map_eq_some_iff.mp h
    rw [setControl_control] at hlease
    obtain ⟨operation, -, hsame | ⟨-, hnone⟩⟩ := Control.lease_goOn hcontrol
    · exact .inl (hsame.symm.trans hlease)
    · rw [hnone] at hlease
      cases hlease
  | close =>
    cases h
    rw [setControl_control] at hlease
    cases hlease

theorem setControl_integrity (hintegrity : c.integrityAuditSigner = c.owner) (control : Control) :
    (c.setControl control).integrityAuditSigner = (c.setControl control).owner := by
  rw [setControl_owner, ← hintegrity]
  rcases setControl_cases (c := c) control with ⟨hsame, -⟩ | ⟨previous, -, -, hdisposed⟩
  · rw [hsame]
  · rw [hdisposed]

theorem does_integrity {foreground id : String} (hintegrity : c.integrityAuditSigner = c.owner)
    (h : Does c k call foreground id c') : c'.integrityAuditSigner = c'.owner := by
  cases h with
  | move main hmain => exact hintegrity
  | take hmain => exact sound_stop hintegrity none
  | install hmain hopen => rfl
  | complete hmain hown => exact hintegrity.trans hown
  | stop integrityStopped hmain hstopped => exact hintegrity
  | unsign hmain => exact sound_stop hintegrity (some k)
  | register hmain =>
    unfold registerLease
    dsimp only
    have hlistened : { c with listeners := k :: c.listeners }.integrityAuditSigner =
        { c with listeners := k :: c.listeners }.owner := hintegrity
    split
    · exact hintegrity
    · have hput := setControl_integrity hlistened (c.control.registerRecoveryLease call.lease)
      let registered := ({ c with listeners := k :: c.listeners }.setControl
        (c.control.registerRecoveryLease call.lease)).update k fun call => { call with
          leaseRegistered := true }
      have hregistered : registered.integrityAuditSigner = registered.owner := hput
      split
      · exact setControl_integrity hregistered _
      · exact hput
  | ask => exact setControl_integrity hintegrity _
  | fence => exact setControl_integrity (sound_stop hintegrity (some k)) _
  | release => exact setControl_integrity hintegrity _

theorem stopOwned_integrity (hintegrity : c.integrityAuditSigner = c.owner) :
    (c.stopOwnedRecovery k lease).integrityAuditSigner = (c.stopOwnedRecovery k lease).owner :=
  setControl_integrity (sound_stop hintegrity (some k)) _

theorem step_integrity {i : Step} (hintegrity : c.integrityAuditSigner = c.owner)
    (h : c.step i = some c') :
    c'.integrityAuditSigner = c'.owner := by
  cases i with
  | execute planFingerprint coordinateChecksum =>
    cases h
    exact hintegrity
  | main k outcome foreground id =>
    obtain ⟨call, -, h⟩ := Option.bind_eq_some_iff.mp h
    exact does_integrity hintegrity (does_of_main h)
  | abort k =>
    obtain ⟨call, -, h⟩ := Option.bind_eq_some_iff.mp h
    obtain ⟨-, listeners, hfired | hstopped⟩ := abort_cases h
    · rw [hfired]
      exact hintegrity
    · rw [hstopped]
      refine stopOwned_integrity ?_
      exact hintegrity
  | replayFailed k =>
    obtain ⟨call, -, h⟩ := Option.bind_eq_some_iff.mp h
    obtain ⟨-, h⟩ := Option.ite_none_right_eq_some.mp h
    cases h
    exact stopOwned_integrity hintegrity
  | terminal =>
    cases h
    exact sound_stop (setControl_integrity hintegrity _) none
  | observeRuntimeEpoch epoch id =>
    cases h
    exact setControl_integrity hintegrity _
  | goOn r input =>
    obtain ⟨control, -, rfl⟩ := Option.map_eq_some_iff.mp h
    exact setControl_integrity hintegrity _
  | close =>
    cases h
    exact setControl_integrity (sound_stop hintegrity none) _

theorem step_sound {i : Step} (hs : Sound c) (h : c.step i = some c') : Sound c' := by
  -- where a call of the new state comes from
  have hfrom : ∀ (k : ℕ) (call' : Call), c'.calls[k]? = some call' →
      (∃ call, c.calls[k]? = some call ∧ Moves k call c' call') ∨ call'.lease.ref = k ∧
        call'.leaseRegistered = false := by
    intro k call' hcall'
    cases hcall : c.calls[k]? with
    | none =>
      obtain ⟨href, -, hleased⟩ := step_new h hcall hcall'
      exact .inr ⟨href, hleased⟩
    | some call =>
      obtain ⟨call'', hcall'', hmoves⟩ := step_call h hcall
      obtain rfl := Option.some.inj (hcall'.symm.trans hcall'')
      exact .inl ⟨call, rfl, hmoves⟩
  refine ⟨fun k call' hcall' => ?_, step_integrity hs.integrity h,
    fun lease hlease => ?_, fun k call' hcall' hstarting => ?_⟩
  · rcases hfrom k call' hcall' with ⟨call, hcall, hmoves⟩ | ⟨href, -⟩
    · rw [hmoves.lease]
      exact hs.refs k call hcall
    · exact href
  · have hthere : ∃ call, c.calls[lease.ref]? = some call ∧ call.lease = lease := by
      rcases step_lease h hlease with hold | ⟨k, outcome, foreground, id, call, -, hcall, rfl, -, -⟩
      · exact hs.registered lease hold
      · refine ⟨call, ?_, rfl⟩
        rw [hs.refs k call hcall]
        exact hcall
    obtain ⟨call, hcall, hsame⟩ := hthere
    obtain ⟨call', hcall', hmoves⟩ := step_call h hcall
    exact ⟨call', hcall', hmoves.lease.trans hsame⟩
  · rcases hfrom k call' hcall' with ⟨call, hcall, hmoves⟩ | ⟨-, hnone⟩
    · obtain ⟨hbefore, hsame⟩ := hmoves.starting hstarting
      exact hsame.trans (hs.starting k call hcall hbefore)
    · exact hnone

theorem start_sound : Sound Client.start := by
  refine ⟨fun k call h => ?_, rfl, nofun, fun k call h => ?_⟩
  · cases h
  · cases h

variable {A : TransferRecoveryLease} {i : Step}

def Registered (b : ℕ) (lease : TransferRecoveryLease) (c : Client) : Prop :=
  ∃ B, c.calls[b]? = some B ∧ B.lease = lease ∧ B.signersRegistered = true ∧
    B.leaseRegistered = true

/-- Call `b` has both registered, and the aborted call `a` is about to take its signers, or to
register a lease. -/
def Overrides (a b : ℕ) (c : Client) : Step → Prop
  | .main k _ _ _ => k = a ∧ ∃ B ∈ c.calls[b]?, ∃ A ∈ c.calls[a]?, B.signersRegistered = true ∧
      B.leaseRegistered = true ∧ A.aborted = true ∧
      (A.main = .acquiring ∧ c.owner = some b ∨ A.main = .leasing ∧ c.control.closed = false)
  | _ => False

/-- A step of the call, of its listener, of its replays, or of the operations for its lease. -/
def Step.acts (a : ℕ) (A : TransferRecoveryLease) (c : Client) : Step → Prop
  | .main k _ _ _ | .abort k | .replayFailed k => k = a
  | .goOn r _ => ∃ operation ∈ c.control.operations[r]?, operation.lease = A
  | _ => False

structure Absent (a : ℕ) (A : TransferRecoveryLease) (c : Client) : Prop where
  signers : c.owner ≠ some a
  integrity : c.integrityAuditSigner ≠ some a
  lease : c.control.recoveryLease ≠ some A

/-- Call `a` is aborted, and has nothing registered from where call `b` has. -/
structure Fence (a b : ℕ) (A : TransferRecoveryLease) (c : Client) : Prop where
  call : ∃ call, c.calls[a]? = some call ∧ call.lease = A ∧ call.aborted = true
  signers : ∀ B : Call, c.calls[b]? = some B → B.signersRegistered = true → c.owner ≠ some a
  lease : ∀ B : Call, c.calls[b]? = some B → B.signersRegistered = true → B.leaseRegistered = true →
    c.control.recoveryLease ≠ some A

theorem step_fence (hs : Sound c) (hne : a ≠ b) (hf : Fence a b A c) (h : c.step i = some c')
    (hgood : ¬ Overrides a b c i) : Fence a b A c' := by
  obtain ⟨call, hcall, hlease, haborted⟩ := hf.call
  obtain ⟨call', hcall', hmoves⟩ := step_call h hcall
  -- where call `b` of the new state comes from
  have hfrom : ∀ B', c'.calls[b]? = some B' → B'.signersRegistered = true →
      ∃ B, c.calls[b]? = some B ∧ Moves b B c' B' := by
    intro B' hB' hsigners
    cases hB : c.calls[b]? with
    | none =>
      obtain ⟨-, hnone, -⟩ := step_new h hB hB'
      rw [hnone] at hsigners
      cases hsigners
    | some B =>
      obtain ⟨B'', hB'', hmovesB⟩ := step_call h hB
      obtain rfl := Option.some.inj (hB'.symm.trans hB'')
      exact ⟨B, rfl, hmovesB⟩
  refine ⟨⟨call', hcall', hmoves.lease.trans hlease, hmoves.aborted haborted⟩,
    fun B' hB' hsigners howner => ?_,
    fun B' hB' hsigners hleased hregistered => ?_⟩
  · obtain ⟨B, hB, hmovesB⟩ := hfrom B' hB' hsigners
    rcases hmovesB.signers hsigners with hbefore | ⟨hown, -⟩
    · rcases step_owner h howner with hold | ⟨serving, hserving, -, hopen⟩
      · exact hf.signers B hB hbefore hold
      · obtain rfl := Option.some.inj (hcall.symm.trans hserving)
        rw [haborted] at hopen
        cases hopen
    · exact hne (Option.some.inj (howner.symm.trans hown))
  · obtain ⟨B, hB, hmovesB⟩ := hfrom B' hB' hsigners
    rcases hmovesB.leases hleased with hbefore | hown
    · have hsigned : B.signersRegistered = true := by
        rcases hmovesB.signers hsigners with hsigned | ⟨-, hstarting⟩
        · exact hsigned
        · rw [hs.starting b B hB hstarting] at hbefore
          cases hbefore
      rcases step_lease h hregistered with hold |
        ⟨k, outcome, foreground, id, other, rfl, hother, hown, hmain, hopen⟩
      · exact hf.lease B hB hsigned hbefore hold
      · -- only the call itself registers its lease
        have hk : k = a := by rw [← hs.refs k other hother, ← hown, ← hlease, hs.refs a call hcall]
        subst hk
        obtain rfl := Option.some.inj (hcall.symm.trans hother)
        exact hgood ⟨rfl, B, hB, call, hcall, hsigned, hbefore, haborted, .inr ⟨hmain, hopen⟩⟩
    · have hleases : A = B.lease := Option.some.inj (hregistered.symm.trans hown)
      apply hne
      rw [← hs.refs a call hcall, ← hs.refs b B hB, hlease, hleases]

theorem acts_spares (hs : Sound c) (hne : a ≠ b) (hf : Fence a b A c) {B : Call}
    (hB : c.calls[b]? = some B)
    (hsigners : B.signersRegistered = true) (hleased : B.leaseRegistered = true)
    (h : c.step i = some c')
    (hacts : i.acts a A c) (hgood : ¬ Overrides a b c i) : Spares b B.lease c c' := by
  obtain ⟨call, hcall, hlease, haborted⟩ := hf.call
  have hother : call.lease ≠ B.lease := by
    intro hsame
    apply hne
    rw [← hs.refs a call hcall, ← hs.refs b B hB, hsame]
  have hregistered : ∀ other, c.control.recoveryLease = some other → other.ref = b →
      other = B.lease := by
    intro other hlease href
    obtain ⟨owner, howner, rfl⟩ := hs.registered other hlease
    rw [href] at howner
    obtain rfl := Option.some.inj (hB.symm.trans howner)
    rfl
  cases i with
  | main k outcome foreground id =>
    obtain rfl : k = a := hacts
    obtain ⟨call', hcall', h⟩ := Option.bind_eq_some_iff.mp h
    obtain rfl := Option.some.inj (hcall.symm.trans hcall')
    refine main_spares hs hne (hs.refs k call hcall) hother hregistered (fun htakes howner => ?_)
      (fun hmain hopen _ => ?_) (does_of_main h)
    · rcases htakes with hmain | ⟨-, hopen⟩
      · exact hgood ⟨rfl, B, hB, call, hcall, hsigners, hleased, haborted, .inl ⟨hmain, howner⟩⟩
      · rw [haborted] at hopen
        cases hopen
    · exact hgood ⟨rfl, B, hB, call, hcall, hsigners, hleased, haborted, .inr ⟨hmain, hopen⟩⟩
  | abort k =>
    obtain rfl : k = a := hacts
    obtain ⟨call', hcall', h⟩ := Option.bind_eq_some_iff.mp h
    obtain rfl := Option.some.inj (hcall.symm.trans hcall')
    rw [(abort_cases h).1] at haborted
    cases haborted
  | replayFailed k =>
    obtain rfl : k = a := hacts
    obtain ⟨call', hcall', h⟩ := Option.bind_eq_some_iff.mp h
    obtain rfl := Option.some.inj (hcall.symm.trans hcall')
    obtain ⟨-, h⟩ := Option.ite_none_right_eq_some.mp h
    cases h
    exact spares_stopOwned hne hs.integrity hother hregistered
  | goOn r input =>
    obtain ⟨operation, hoperation, hown⟩ := hacts
    obtain ⟨control, hcontrol, rfl⟩ := Option.map_eq_some_iff.mp h
    obtain ⟨operation', hoperation', hcases⟩ := Control.lease_goOn hcontrol
    obtain rfl := Option.some.inj ((Option.mem_def.mp hoperation).symm.trans hoperation')
    refine spares_setControl (fun hkept => ?_) hregistered
    rcases hcases with hsame | ⟨hreleased, -⟩
    · exact hsame.trans hkept
    · have hsame := Option.some.inj (hreleased.symm.trans hkept)
      exact absurd (hlease.trans (hown.symm.trans hsame)) hother
  | execute planFingerprint coordinateChecksum => exact hacts.elim
  | terminal => exact hacts.elim
  | observeRuntimeEpoch epoch id => exact hacts.elim
  | close => exact hacts.elim

/-- A step that overrides call `b` takes its signers, or leaves a lease of the aborted call
registered. -/
theorem overrides_harms (h : c.step i = some c')
    (hcall : ∃ call, c.calls[a]? = some call ∧ call.lease = A)
    (hbad : Overrides a b c i) : ¬ (Spares b lease c c' ∧ Absent a A c') := by
  intro ⟨hspares, habsent⟩
  cases i with
  | main k outcome foreground id =>
    obtain ⟨rfl, B, hB, call, hcall', hsigners, hleased, haborted, hcases⟩ := hbad
    obtain ⟨other, hother, hlease⟩ := hcall
    obtain rfl := Option.some.inj (hother.symm.trans hcall')
    obtain ⟨other, hother', h⟩ := Option.bind_eq_some_iff.mp h
    obtain rfl := Option.some.inj (hother.symm.trans hother')
    rcases hcases with ⟨hmain, howner⟩ | ⟨hmain, hopen⟩
    · obtain ⟨registration, hsigner, hown⟩ := Option.map_eq_some_iff.mp howner
      have hkept := hspares.signers registration hsigner hown
      have htaken : c'.recoverySigner = none := by
        cases outcome <;> simp only [executeProviderTransfer, hmain, Option.some.injEq,
          reduceCtorEq] at h
        rw [← h]
        rfl
      rw [htaken] at hkept
      cases hkept
    · have hput : c'.control.recoveryLease = some other.lease := by
        cases outcome <;> simp only [executeProviderTransfer, hmain, Option.some.injEq,
          reduceCtorEq] at h
        rcases register_cases (c := c) (k := k) other foreground id with ⟨hclosed, -⟩ | ⟨-, hput, -⟩
        · rw [hopen] at hclosed
          cases hclosed
        · rw [← h]
          exact hput
      exact habsent.lease (hput.trans (congrArg some hlease))
  | execute planFingerprint coordinateChecksum => exact hbad
  | abort k => exact hbad
  | replayFailed k => exact hbad
  | terminal => exact hbad
  | observeRuntimeEpoch epoch id => exact hbad
  | goOn r input => exact hbad
  | close => exact hbad

theorem step_registered (hregistered : Registered b lease c) (h : c.step i = some c') :
    Registered b lease c' := by
  obtain ⟨B, hB, hlease, hsigners, hleased⟩ := hregistered
  obtain ⟨B', hB', hmoves⟩ := step_call h hB
  exact ⟨B', hB', hmoves.lease.trans hlease, hmoves.registered hsigners, hmoves.leased hleased⟩

theorem Fence.absent (hs : Sound c) (hf : Fence a b A c) (hregistered : Registered b lease c) :
    Absent a A c := by
  obtain ⟨B, hB, -, hsigners, hleased⟩ := hregistered
  have howner := hf.signers B hB hsigners
  refine ⟨howner, fun h => howner ?_, hf.lease B hB hsigners hleased⟩
  rw [← hs.integrity]
  exact h

theorem fence_of_aborted {call : Call} (hcall : c.calls[a]? = some call)
    (haborted : call.aborted = true)
    (hbefore : ∀ B : Call, c.calls[b]? = some B → B.signersRegistered = false) :
      Fence a b call.lease c := by
  refine ⟨⟨call, hcall, rfl, haborted⟩, fun B hB hsigners => ?_, fun B hB hsigners => ?_⟩
  · rw [hbefore B hB] at hsigners
    cases hsigners
  · rw [hbefore B hB] at hsigners
    cases hsigners

/-- In a run where an aborted call never takes the signers of another call of its transfer, or
registers its lease, once that other call has both registered since: from there on nothing of the
aborted call is registered, and what it does leaves the other call's signers and lease alone
exactly where it is no such step. -/
theorem typescript_fenced_spares {earlier middle later : List Step} {v u w : Client} {call : Call}
    (hne : a ≠ b)
    (hv : Run.after step Client.start earlier = some v) (hcall : v.calls[a]? = some call)
    (haborted : call.aborted = true)
    (hbefore : ∀ B : Call, v.calls[b]? = some B → B.signersRegistered = false ∧
      B.leaseRegistered = false)
    (hu : Run.after step v middle = some u) (hregistered : Registered b lease u)
    (hw : Run.after step u later = some w)
    (hnever : Run.Never step v (middle ++ later) (Overrides a b)) :
    Absent a call.lease w ∧ ∀ i w', i.acts a call.lease w → w.step i = some w' →
      (Spares b lease w w' ∧ Absent a call.lease w' ↔ ¬ Overrides a b w i) := by
  have hsound : Sound v := Run.after_invariant (fun _ _ _ hs h => step_sound hs h) start_sound hv
  have hvw : Run.after step v (middle ++ later) = some w := Run.after_append.mpr ⟨u, hu, hw⟩
  have hstart := fence_of_aborted hcall haborted fun B hB => (hbefore B hB).1
  obtain ⟨hsoundw, hfence⟩ := Run.invariant_along (I := fun c => Sound c ∧ Fence a b call.lease c)
    (P := fun _ => True)
    (fun _ _ _ hI h _ hgood => ⟨step_sound hI.1 h, step_fence hI.1 hne hI.2 h hgood⟩)
      ⟨hsound, hstart⟩ hvw
    (fun _ _ _ _ _ => trivial) hnever
  have hthere : Registered b lease w :=
    Run.after_invariant (fun _ _ _ hr h => step_registered hr h) hregistered hw
  refine ⟨hfence.absent hsoundw hthere, fun i w' hacts h => ⟨fun hboth hbad => ?_, fun hgood => ?_⟩⟩
  · obtain ⟨call', hcall', hlease, -⟩ := hfence.call
    exact overrides_harms h ⟨call', hcall', hlease⟩ hbad hboth
  · obtain ⟨B, hB, rfl, hsigners, hleased⟩ := hthere
    have hspares := acts_spares hsoundw hne hfence hB hsigners hleased h hacts hgood
    have hfence' := step_fence hsoundw hne hfence h hgood
    exact ⟨hspares, hfence'.absent (step_sound hsoundw h)
      (step_registered ⟨B, hB, rfl, hsigners, hleased⟩ h)⟩

def sampleExecute : Step := .execute "fingerprint" "checksum"

def sampleMain (k : ℕ) : Step := .main k .proceed "foreground" "generation"

/-- A call up to the return of `startProviderRouteRecoverySigner`. -/
def sampleStart (k : ℕ) : List Step := List.replicate 4 (sampleMain k)

def sampleAborted : List Step :=
    [sampleExecute, sampleExecute, sampleMain 0, sampleMain 0, .abort 0]

def sampleReplaced : List Step := sampleStart 1 ++ [sampleMain 1]

/-- It puts its lease in the place of the other call's, and leaves it there. -/
theorem sample_typescript_overridden : ∃ v u w A B,
    Run.after step Client.start sampleAborted = some v ∧ v.calls[0]? = some A ∧
    A.aborted = true ∧
      (∀ B : Call, v.calls[1]? = some B → B.signersRegistered = false ∧ B.leaseRegistered = false) ∧
    Run.after step v sampleReplaced = some u ∧ u.calls[1]? = some B ∧ B.aborted = false ∧
      Registered 1 B.lease u ∧
    Run.after step u [sampleMain 0, sampleMain 0] = some w ∧ ¬ Spares 1 B.lease u w ∧
      ¬ Absent 0 A.lease w ∧
    ∀ A : Call, w.calls[0]? = some A → A.main = .returned := by
  refine ⟨_, _, _, _, _, rfl, rfl, rfl, ?_, rfl, rfl, rfl, ⟨_, rfl, rfl, rfl, rfl⟩, rfl,
    fun h => ?_, fun h => ?_, ?_⟩
  · intro B hB
    cases hB
    exact ⟨rfl, rfl⟩
  · exact absurd (h.lease rfl) (by decide)
  · exact h.lease rfl
  · intro A hA
    cases hA
    rfl

instance (a b : ℕ) (c : Client) : (i : Step) → Decidable (Overrides a b c i)
  | .main k _ _ _ =>
      inferInstanceAs (Decidable (k = a ∧ ∃ B ∈ c.calls[b]?, ∃ A ∈ c.calls[a]?, _ ∧ _ ∧ _ ∧ _))
  | .execute _ _ | .abort _ | .replayFailed _ | .terminal | .observeRuntimeEpoch _ _ |
      .goOn _ _ | .close =>
    inferInstanceAs (Decidable False)

def sampleFailed : List Step := [.main 0 .failed "foreground" "generation"]

def sampleAfter (c : Client) (is : List Step) : Client := (Run.after step c is).getD Client.start

def sampleFenced : Client := sampleAfter Client.start sampleAborted

def sampleServed : Client := sampleAfter sampleFenced sampleReplaced

def sampleReturned : Client := sampleAfter sampleServed sampleFailed

theorem sample_typescript_spares : ∃ A, sampleFenced.calls[0]? = some A ∧
    Absent 0 A.lease sampleReturned := by
  have hnever : Run.Never step sampleFenced (sampleReplaced ++ sampleFailed) (Overrides 0 1) :=
    Run.never_of_check (by decide)
  have hv : Run.after step Client.start sampleAborted = some sampleFenced := rfl
  have hu : Run.after step sampleFenced sampleReplaced = some sampleServed := rfl
  have hw : Run.after step sampleServed sampleFailed = some sampleReturned := rfl
  obtain ⟨A, hA, haborted⟩ : ∃ A, sampleFenced.calls[0]? = some A ∧ A.aborted = true :=
    ⟨_, rfl, rfl⟩
  have hbefore : ∀ B : Call, sampleFenced.calls[1]? = some B → B.signersRegistered = false ∧
      B.leaseRegistered = false := by
    intro B hB
    cases hB
    exact ⟨rfl, rfl⟩
  have hregistered : Registered 1 ⟨1, "fingerprint", "checksum"⟩ sampleServed :=
    ⟨_, rfl, rfl, rfl, rfl⟩
  exact ⟨A, hA,
    (typescript_fenced_spares (by decide) hv hA haborted hbefore hu hregistered hw hnever).1⟩

end Client
end Beam.TypeScript
