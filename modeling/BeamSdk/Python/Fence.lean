import BeamSdk.Python.Ownership
import BeamSdk.Library.Holders

/-! A call whose ownership was cancelled leaves alone what another call has registered since, unless
it is about to register its lease, or to release whatever is registered after a failure of its own.
-/

namespace Beam.Python
namespace Control
variable {c c' : Control} {task : RecoveryTask} {r : ℕ}

theorem lease_request (lease : RecoveryLease) (epoch : Epoch) :
    (c.request lease epoch).recoveryLease = c.recoveryLease := by
  unfold request scheduleRecovery
  split <;> rfl

theorem lease_continue (id : String) : (c.continueRecoveryLease id).recoveryLease =
    c.recoveryLease := by
  unfold continueRecoveryLease
  split
  · rfl
  · exact lease_request _ _

theorem lease_observe (runtimeEpoch transportEpoch : Option String) :
    (c.observeRuntimeEpochs runtimeEpoch transportEpoch).recoveryLease = c.recoveryLease := by
  unfold observeRuntimeEpochs
  split
  · dsimp only
    split
    · rfl
    · split
      · rfl
      · exact lease_request _ _
  · rfl

theorem lease_loop (id : String) : (c.loop r task id).recoveryLease = c.recoveryLease := by
  unfold loop
  split <;> rfl

theorem lease_settle (epoch : Option Epoch) (id : String) :
    (c.settle r task epoch id).recoveryLease = c.recoveryLease := by
  unfold settle
  split
  · exact lease_loop id
  · dsimp only
    split <;> rfl

def Releases (task : RecoveryTask) (c c' : Control) : Prop :=
  c'.recoveryLease = c.recoveryLease ∨
    c.recoveryLease.map RecoveryLease.replayRoutes = some task.lease.replayRoutes ∧
      c'.recoveryLease = none

theorem releases_giveUp : Releases task c (c.giveUp r task) := by
  have hrelease : Releases task c (c.releaseRecoveryLease (some task.lease.replayRoutes)) := by
    unfold releaseRecoveryLease
    split
    · exact .inl rfl
    · rename_i hown
      refine .inr ⟨?_, rfl⟩
      by_contra hother
      exact hown ⟨nofun, hother⟩
  exact hrelease

theorem releases_failed (error : LifecycleError) : Releases task c (c.failed r task error) := by
  unfold failed
  split
  · exact .inl rfl
  · exact releases_giveUp

theorem releases_answered (epoch : Option Epoch) (generationID : String) (result : ResumeResult)
    (id : String) :
    Releases task c (c.answered r task epoch generationID result id) := by
  unfold answered
  split
  · exact releases_giveUp
  · split
    · exact .inl rfl
    · split
      · exact .inl rfl
      · exact .inl (lease_settle epoch id)

theorem releases_turn (hturn : Turn c r task c') : Releases task c c' := by
  cases hturn with
  | loop hphase id => exact .inl (lease_loop id)
  | send epoch generationID sent hphase => exact .inl rfl
  | failed hphase error => exact releases_failed error
  | answered epoch generationID hphase result id =>
      exact releases_answered epoch generationID result id
  | settle epoch hphase hserved id => exact .inl (lease_settle epoch id)
  | callback hphase =>
    refine .inl ?_
    split <;> rfl
  | cancelled hclosed => exact .inl rfl

theorem releases_recover {input : Input} (h : c.step (.recoverTransfer r input) = some c') :
    ∃ task, c.tasks[r]? = some task ∧ Releases task c c' := by
  obtain ⟨task, hentry, hturn⟩ := Option.bind_eq_some_iff.mp h
  exact ⟨task, hentry, releases_turn (turn_of_recoverTransfer hturn)⟩

end Control

namespace Signer
variable {s : Signer} {a k : ℕ}

structure Lacks (a : ℕ) (s : Signer) : Prop where
  generation : s.generation ≠ some a
  subscription : s.subscription ≠ some a

theorem lacks_clear (h : Lacks a s) : Lacks a s.clear := ⟨h.generation, nofun⟩

theorem lacks_stop : Lacks a s.stop := ⟨nofun, nofun⟩

theorem lacks_serve (hne : k ≠ a) : Lacks a (s.serve k) := by
  refine ⟨fun h => hne ?_, nofun⟩
  exact Option.some.inj h

theorem lacks_subscribe (h : Lacks a s) (hne : k ≠ a) : Lacks a (s.subscribe k) := by
  refine ⟨h.generation, fun hk => hne ?_⟩
  exact Option.some.inj hk

theorem lacks_drop (h : Lacks a s) : Lacks a (s.drop k) := ⟨h.generation, h.subscription⟩

end Signer

namespace Client
variable {c c' : Client} {call : Call} {control : Control} {a b k : ℕ} {id : String}

/-- No signer and no integrity context of the call is registered, and none can be that it has begun
to serve. -/
structure Lacks (a : ℕ) (c : Client) : Prop where
  route : c.route.Lacks a
  integrity : c.integrity.Lacks a
  context : c.integrityContext ≠ some a

theorem setControl_cases (control : Control) :
    c.setControl control = { c with control := control } ∨
    ∃ previous, c.control.recoveryLease = some previous ∧ c.setControl control =
      { c with
        control := control
        callbacks := c.callbacks.filter fun k => k ≠ previous.replayRoutes
        disposed := c.disposed ++ [previous.replayRoutes] } := by
  unfold setControl
  split
  · exact .inl rfl
  · rename_i previous hprevious
    split
    · exact .inl rfl
    · exact .inr ⟨previous, hprevious, rfl⟩

structure Put (c : Client) (control : Control) (c' : Client) : Prop where
  control : c'.control = control
  calls : c'.calls = c.calls
  route : c'.route = c.route
  integrity : c'.integrity = c.integrity
  context : c'.integrityContext = c.integrityContext

theorem put_setControl (control : Control) : Put c control (c.setControl control) := by
  rcases setControl_cases (c := c) control with hsame | ⟨previous, -, hdisposed⟩
  · rw [hsame]
    exact ⟨rfl, rfl, rfl, rfl, rfl⟩
  · rw [hdisposed]
    exact ⟨rfl, rfl, rfl, rfl, rfl⟩

theorem Put.lacks (h : Put c control c') (hlacks : Lacks a c) : Lacks a c' := by
  refine ⟨?_, ?_, ?_⟩
  · rw [h.route]
    exact hlacks.route
  · rw [h.integrity]
    exact hlacks.integrity
  · rw [h.context]
    exact hlacks.context

theorem lacks_stopRoute (hlacks : Lacks a c) : Lacks a c.stopRouteRecoverySigner :=
  ⟨Signer.lacks_stop, Signer.lacks_stop, hlacks.context⟩

theorem lacks_stop (hlacks : Lacks a c) (prepared : Option ℕ) :
    Lacks a (c.stopRecoverySigner prepared) := by
  unfold stopRecoverySigner
  split
  · exact hlacks
  · exact ⟨Signer.lacks_stop, Signer.lacks_stop, nofun⟩

theorem lacks_release (hlacks : Lacks a c) (replayRoutes : Option ℕ) :
    Lacks a (c.releaseRecoveryLease replayRoutes) := by
  unfold releaseRecoveryLease
  split
  · exact hlacks
  · exact lacks_stopRoute ((put_setControl _).lacks hlacks)

theorem lacks_stopOwned (hlacks : Lacks a c) (k : ℕ) : Lacks a (c.stopOwnedRecovery k) :=
  lacks_release (lacks_stop hlacks _) _

theorem lacks_continue (hlacks : Lacks a c) (id : String) : Lacks a (c.continueRecoveryLease id) :=
  (put_setControl _).lacks hlacks

theorem lacks_update (hlacks : Lacks a c) (k : ℕ) (f : Call → Call) : Lacks a (c.update k f) :=
  ⟨hlacks.route, hlacks.integrity, hlacks.context⟩

theorem lacks_register (hlacks : Lacks a c) (k : ℕ) (call : Call) (id : String) :
    Lacks a (c.registerLease k call id) := by
  have hput :
      Lacks a (c.setControl
        (c.control.registerRecoveryLease call.planFingerprint call.coordinateChecksum k)) :=
    (put_setControl _).lacks hlacks
  unfold registerLease
  dsimp only
  split
  · exact lacks_update (lacks_continue (lacks_stopOwned (lacks_update hput _ _) _) _) _ _
  · exact ⟨hput.route, hput.integrity, hput.context⟩

theorem lacks_recovered (hlacks : Lacks a c) (control : Control) :
    Lacks a (c.recovered control) := by
  unfold recovered
  split
  · exact (put_setControl _).lacks hlacks
  · exact lacks_stopRoute ((put_setControl _).lacks hlacks)

theorem Put.owner (h : Put c control c') :
    c'.owner = control.recoveryLease.map RecoveryLease.replayRoutes := by
  rw [Client.owner, h.control]

theorem stop_owner (prepared : Option ℕ) : (c.stopRecoverySigner prepared).owner = c.owner := by
  unfold stopRecoverySigner
  split <;> rfl

theorem release_owner (replayRoutes : Option ℕ) :
    (c.releaseRecoveryLease replayRoutes).owner = c.owner ∧
    replayRoutes ≠ none ∧ c.owner ≠ replayRoutes ∨
      (c.releaseRecoveryLease replayRoutes).owner = none := by
  unfold releaseRecoveryLease
  split
  · rename_i hother
    exact .inl ⟨rfl, hother⟩
  · rename_i hown
    have hgone : (c.control.releaseRecoveryLease replayRoutes).recoveryLease = none :=
      congrArg Control.recoveryLease (if_neg hown)
    refine .inr ((put_setControl (c := c) _).owner.trans ?_)
    rw [hgone]
    rfl

theorem continue_owner (id : String) : (c.continueRecoveryLease id).owner = c.owner := by
  refine (put_setControl (c := c) _).owner.trans ?_
  rw [Control.lease_continue]
  rfl

theorem release_keeps {replayRoutes : Option ℕ} (hlease : c.owner ≠ some a) :
    (c.releaseRecoveryLease replayRoutes).owner ≠ some a := by
  rcases release_owner (c := c) replayRoutes with ⟨hsame, -⟩ | hnone
  · rw [hsame]
    exact hlease
  · rw [hnone]
    exact nofun

theorem stopOwned_keeps (hlease : c.owner ≠ some a) : (c.stopOwnedRecovery k).owner ≠ some a := by
  refine release_keeps ?_
  rw [stop_owner]
  exact hlease

theorem register_owner (call : Call) (id : String) : (c.registerLease k call id).owner =
    if call.cancelled then none else some k := by
  have hput :
      (c.setControl
        (c.control.registerRecoveryLease call.planFingerprint call.coordinateChecksum k)).owner =
      some k := (put_setControl (c := c) _).owner
  unfold registerLease
  dsimp only
  split
  · refine (continue_owner id).trans ?_
    let registered :=
      (c.setControl (c.control.registerRecoveryLease call.planFingerprint call.coordinateChecksum
      k)).update k fun call => { call with leaseRegistered := true }
    rcases release_owner (c := registered.stopRecoverySigner (some k))
      (some k) with ⟨-, -, hother⟩ | hnone
    · rw [stop_owner] at hother
      exact absurd hput hother
    · exact hnone
  · exact hput

/-- The call goes on to `register_recovery_lease` without its integrity signer. -/
def Registers (call : Call) (outcome : Outcome) : Prop :=
  call.main = .integrity ∧ outcome = .failed ∨ call.main = .unsubscribing ∧ outcome ≠ .cancelled

inductive Does (c : Client) (k : ℕ) (call : Call) (outcome : Outcome) (id : String) : Client → Prop
  | move (main : Main) : Does c k call outcome id (c.setMain k main)
  | serve (hopen : call.cancelled = false) :
    Does c k call outcome id
      ({ c.stopRecoverySigner none with
        route := (c.stopRecoverySigner none).route.serve k }.setMain k .serving)
  | late : Does c k call outcome id ({ c with route := c.route.drop k }.setMain k .returned)
  | lapse (hserved : c.route.generation = some k) :
    Does c k call outcome id ({ c with route := c.route.subscribe k }.setMain k .returned)
  | sign (hserved : c.route.generation = some k) (hopen : call.cancelled = false) :
    Does c k call outcome id
      ({ c with
          route := c.route.subscribe k
          integrityContext := some k
          integrity := c.integrity.serve k }.update k fun call =>
        { call with main := .integrity, signersRegistered := true })
  | supersede : Does c k call outcome id
      ({ c with integrity := c.integrity.drop k }.setMain k .unsubscribing)
  | complete (hserved : c.integrity.generation = some k) :
    Does c k call outcome id
      ({ c with integrity := c.integrity.subscribe k }.registerLease k call id)
  | register (hregisters : Registers call outcome) :
      Does c k call outcome id (c.registerLease k call id)
  | ask : Does c k call outcome id ((c.continueRecoveryLease id).setMain k .returned)
  | fence : Does c k call outcome id ((c.stopOwnedRecovery k).setMain k .returned)
  | release (hmain : call.main = .aborting) :
    Does c k call outcome id
      (((c.releaseRecoveryLease none).stopRecoverySigner none).setMain k .returned)

theorem does_of_main {outcome : Outcome} (h : c.runProviderTransfer k call outcome id = some c') :
    Does c k call outcome id c' := by
  unfold runProviderTransfer at h
  split at h <;> try cases h
  all_goals rename_i hmain
  · exact .move _
  · exact .move _
  · exact .move _
  · exact .move _
  · exact .move _
  · exact .move _
  · exact .move _
  · split
    · exact .move _
    · rename_i hopen
      exact .serve (eq_false_of_ne_true hopen)
  · split
    · exact .late
    · rename_i hnot
      push Not at hnot
      split
      · exact .lapse hnot.2
      · rename_i hopen
        exact .sign hnot.2 (eq_false_of_ne_true hopen)
  · split
    · exact .supersede
    · rename_i hnot
      push Not at hnot
      exact .complete hnot.2
  · exact .register (.inl ⟨hmain, rfl⟩)
  · exact .register (.inr ⟨hmain, nofun⟩)
  · exact .register (.inr ⟨hmain, nofun⟩)
  · exact .move _
  · exact .move _
  · exact .ask
  · exact .ask
  · exact .ask
  · exact .ask
  · exact .ask
  · split
    · exact .fence
    · exact .move _
  · split
    · exact .fence
    · exact .move _
  · exact .move _
  · exact .move _
  · exact .release hmain
  · exact .release hmain
  · exact .release hmain

variable {outcome : Outcome} {i : Step}

theorem does_lacks (h : Does c k call outcome id c') (ha : a ≠ k ∨ call.cancelled = true)
    (hlacks : Lacks a c) :
    Lacks a c' := by
  -- the call that has served is another one
  have hroute : c.route.generation = some k → k ≠ a :=
    fun hserved hk => hlacks.route.generation (hk ▸ hserved)
  have hintegrity : c.integrity.generation = some k → k ≠ a :=
    fun hserved hk => hlacks.integrity.generation (hk ▸ hserved)
  cases h with
  | move main => exact lacks_update hlacks _ _
  | serve hopen =>
    have hne : k ≠ a := by
      intro hk
      rcases ha with hne | hcancelled
      · exact hne hk.symm
      · rw [hopen] at hcancelled
        cases hcancelled
    have hstopped := lacks_stop hlacks none
    exact ⟨Signer.lacks_serve hne, hstopped.integrity, hstopped.context⟩
  | late => exact ⟨Signer.lacks_drop hlacks.route, hlacks.integrity, hlacks.context⟩
  | lapse hserved =>
      exact ⟨Signer.lacks_subscribe hlacks.route (hroute hserved), hlacks.integrity, hlacks.context⟩
  | sign hserved hopen =>
    have hne := hroute hserved
    refine ⟨Signer.lacks_subscribe hlacks.route hne, Signer.lacks_serve hne, fun hk => hne ?_⟩
    exact Option.some.inj hk
  | supersede => exact ⟨hlacks.route, Signer.lacks_drop hlacks.integrity, hlacks.context⟩
  | complete hserved =>
    have hsubscribed : Lacks a { c with integrity := c.integrity.subscribe k } :=
      ⟨hlacks.route, Signer.lacks_subscribe hlacks.integrity (hintegrity hserved), hlacks.context⟩
    exact lacks_register hsubscribed _ _ _
  | register hregisters => exact lacks_register hlacks _ _ _
  | ask => exact lacks_update (lacks_continue hlacks _) _ _
  | fence => exact lacks_update (lacks_stopOwned hlacks _) _ _
  | release hmain => exact lacks_update (lacks_stop (lacks_release hlacks _) _) _ _

theorem register_keeps (ha : a ≠ k ∨ call.cancelled = true) :
    (c.registerLease k call id).owner ≠ some a := by
  rw [register_owner]
  split
  · exact nofun
  · rename_i hopen
    rcases ha with hne | hcancelled
    · exact fun hk => hne (Option.some.inj hk).symm
    · exact absurd hcancelled hopen

theorem does_owner (h : Does c k call outcome id c') (ha : a ≠ k ∨ call.cancelled = true)
    (hlease : c.owner ≠ some a) :
    c'.owner ≠ some a := by
  cases h with
  | move main => exact hlease
  | serve hopen =>
    have hstopped : (c.stopRecoverySigner none).owner ≠ some a := by
      rw [stop_owner]
      exact hlease
    exact hstopped
  | late => exact hlease
  | lapse hserved => exact hlease
  | sign hserved hopen => exact hlease
  | supersede => exact hlease
  | complete hserved => exact register_keeps ha
  | register hregisters => exact register_keeps ha
  | ask =>
    have hasked : (c.continueRecoveryLease id).owner ≠ some a := by
      rw [continue_owner]
      exact hlease
    exact hasked
  | fence => exact stopOwned_keeps hlease
  | release hmain =>
    have hreleased : ((c.releaseRecoveryLease none).stopRecoverySigner none).owner ≠ some a := by
      rw [stop_owner]
      exact release_keeps hlease
    exact hreleased

theorem cancel_cases {elsewhere : Bool} (h : c.cancel k call elsewhere = some c') :
    call.cancelled = false ∧
    ∃ c₁ : Client, (∃ callbacks f, c₁ = { c with callbacks }.update k f ∧
      ∀ call : Call, (f call).cancelled = true ∧
        (f call).signersRegistered = call.signersRegistered ∧
        (f call).leaseRegistered = call.leaseRegistered) ∧
          (c' = c₁ ∨ c' = c₁.stopOwnedRecovery k) := by
  unfold cancel at h
  split at h
  · cases h
  · rename_i hopen
    refine ⟨eq_false_of_ne_true hopen, ?_⟩
    cases h
    split
    · split
      · refine ⟨_, ⟨c.callbacks.filter fun j => j ≠ k, fun call =>
          { call with cancelled := true, scheduled := true }, ?_,
          fun _ => ⟨rfl, rfl, rfl⟩⟩, .inl rfl⟩
        rw [update, update, update, List.modify_modify_eq]
        rfl
      · exact ⟨_, ⟨_, fun call => { call with cancelled := true }, rfl, fun _ => ⟨rfl, rfl, rfl⟩⟩,
          .inr rfl⟩
    · exact ⟨_, ⟨_, fun call => { call with cancelled := true }, rfl, fun _ => ⟨rfl, rfl, rfl⟩⟩,
        .inl rfl⟩

theorem scheduled_cases (h : c.stopScheduled k call = some c') :
    c' = (c.update k fun call => { call with scheduled := false }).stopOwnedRecovery k := by
  obtain ⟨-, h⟩ := Option.ite_none_right_eq_some.mp h
  exact (Option.some.inj h).symm

theorem replayFailed_cases (h : c.replayFailed k call = some c') : c' = c.stopOwnedRecovery k := by
  obtain ⟨-, h⟩ := Option.ite_none_right_eq_some.mp h
  exact (Option.some.inj h).symm

theorem step_lacks (hcall : c.calls[a]? = some call) (hcancelled : call.cancelled = true)
    (hlacks : Lacks a c)
    (h : c.step i = some c') : Lacks a c' := by
  cases i with
  | execute planFingerprint coordinateChecksum =>
    cases h
    exact ⟨hlacks.route, hlacks.integrity, hlacks.context⟩
  | main k outcome id =>
    obtain ⟨other, hother, h⟩ := Option.bind_eq_some_iff.mp h
    refine does_lacks (does_of_main h) ?_ hlacks
    by_cases hk : a = k
    · subst hk
      obtain rfl := Option.some.inj (hother.symm.trans hcall)
      exact .inr hcancelled
    · exact .inl hk
  | cancel k elsewhere =>
    obtain ⟨other, hother, h⟩ := Option.bind_eq_some_iff.mp h
    obtain ⟨-, c₁, ⟨callbacks, f, rfl, -⟩, hcases⟩ := cancel_cases h
    have hfired : Lacks a ({ c with callbacks }.update k f) :=
      ⟨hlacks.route, hlacks.integrity, hlacks.context⟩
    rcases hcases with rfl | rfl
    · exact hfired
    · exact lacks_stopOwned hfired k
  | stopScheduled k =>
    obtain ⟨other, hother, h⟩ := Option.bind_eq_some_iff.mp h
    rw [scheduled_cases h]
    exact lacks_stopOwned (lacks_update hlacks _ _) k
  | replayFailed k =>
    obtain ⟨other, hother, h⟩ := Option.bind_eq_some_iff.mp h
    rw [replayFailed_cases h]
    exact lacks_stopOwned hlacks k
  | terminal =>
    cases h
    exact lacks_stop (lacks_release hlacks _) _
  | observeRuntimeEpochs runtimeEpoch transportEpoch =>
    cases h
    exact (put_setControl _).lacks hlacks
  | recoverTransfer r input =>
    obtain ⟨control, -, rfl⟩ := Option.map_eq_some_iff.mp h
    exact lacks_recovered hlacks control
  | close =>
    cases h
    have hput : Lacks a (c.setControl c.control.close) := (put_setControl _).lacks hlacks
    exact ⟨Signer.lacks_clear hlacks.route, Signer.lacks_clear hlacks.integrity, hput.context⟩

theorem recovered_owner (control : Control) : (c.recovered control).owner =
    control.recoveryLease.map RecoveryLease.replayRoutes := by
  unfold recovered
  split <;> exact (put_setControl (c := c) _).owner

theorem step_owner (hcall : c.calls[a]? = some call) (hcancelled : call.cancelled = true)
    (hlease : c.owner ≠ some a)
    (h : c.step i = some c') : c'.owner ≠ some a := by
  cases i with
  | execute planFingerprint coordinateChecksum =>
    cases h
    exact hlease
  | main k outcome id =>
    obtain ⟨other, hother, h⟩ := Option.bind_eq_some_iff.mp h
    refine does_owner (does_of_main h) ?_ hlease
    by_cases hk : a = k
    · subst hk
      obtain rfl := Option.some.inj (hother.symm.trans hcall)
      exact .inr hcancelled
    · exact .inl hk
  | cancel k elsewhere =>
    obtain ⟨other, hother, h⟩ := Option.bind_eq_some_iff.mp h
    obtain ⟨-, c₁, ⟨callbacks, f, rfl, -⟩, rfl | rfl⟩ := cancel_cases h
    · exact hlease
    · have hsame : ({ c with callbacks }.update k f).owner ≠ some a := hlease
      exact stopOwned_keeps hsame
  | stopScheduled k =>
    obtain ⟨other, hother, h⟩ := Option.bind_eq_some_iff.mp h
    rw [scheduled_cases h]
    exact stopOwned_keeps (c := c.update k _) hlease
  | replayFailed k =>
    obtain ⟨other, hother, h⟩ := Option.bind_eq_some_iff.mp h
    rw [replayFailed_cases h]
    exact stopOwned_keeps hlease
  | terminal =>
    cases h
    rw [stop_owner]
    exact release_keeps hlease
  | observeRuntimeEpochs runtimeEpoch transportEpoch =>
    cases h
    rw [(put_setControl (c := c) _).owner, Control.lease_observe]
    exact hlease
  | recoverTransfer r input =>
    obtain ⟨control, hcontrol, rfl⟩ := Option.map_eq_some_iff.mp h
    rw [recovered_owner]
    obtain ⟨task, -, hsame | ⟨-, hnone⟩⟩ := Control.releases_recover hcontrol
    · rw [hsame]
      exact hlease
    · rw [hnone]
      exact nofun
  | close =>
    cases h
    have hput : (c.setControl c.control.close).owner = none := (put_setControl (c := c) _).owner
    have hnone : (c.setControl c.control.close).owner ≠ some a := by
      rw [hput]
      exact nofun
    exact hnone

variable {call' : Call}

/-- What is registered stays said, and is the last that was when it is said first. -/
structure Moves (k : ℕ) (c' : Client) (call call' : Call) : Prop where
  cancelled : call.cancelled = true → call'.cancelled = true
  registered : call.signersRegistered = true → call'.signersRegistered = true
  leased : call.leaseRegistered = true → call'.leaseRegistered = true
  signers : call'.signersRegistered = true → call.signersRegistered = true ∨ ∀ a, a ≠ k → Lacks a c'
  lease : call'.leaseRegistered = true → call.leaseRegistered = true ∨ ∀ a, a ≠ k →
    c'.owner ≠ some a

theorem moves_of_flags (hcancelled : call.cancelled = true → call'.cancelled = true)
    (hsigners : call'.signersRegistered = call.signersRegistered)
    (hleased : call'.leaseRegistered = call.leaseRegistered) : Moves k c' call call' := by
  refine ⟨hcancelled, fun h => hsigners.trans h, fun h => hleased.trans h, fun h =>
    .inl ?_, fun h => .inl ?_⟩
  · exact hsigners.symm.trans h
  · exact hleased.symm.trans h

theorem stop_calls (prepared : Option ℕ) : (c.stopRecoverySigner prepared).calls = c.calls := by
  unfold stopRecoverySigner
  split <;> rfl

theorem release_calls (replayRoutes : Option ℕ) :
    (c.releaseRecoveryLease replayRoutes).calls = c.calls := by
  unfold releaseRecoveryLease
  split
  · rfl
  · exact (put_setControl _).calls

theorem stopOwned_calls : (c.stopOwnedRecovery k).calls = c.calls :=
    (release_calls _).trans (stop_calls _)

theorem continue_calls : (c.continueRecoveryLease id).calls = c.calls := (put_setControl _).calls

theorem recovered_calls (control : Control) : (c.recovered control).calls = c.calls := by
  unfold recovered
  split <;> exact (put_setControl (c := c) control).calls

theorem register_calls (call : Call) (id : String) : ∃ main, (c.registerLease k call id).calls =
    c.calls.modify k fun call => { call with main, leaseRegistered := true } := by
  let put :=
    c.setControl (c.control.registerRecoveryLease call.planFingerprint call.coordinateChecksum k)
  have hput : put.calls = c.calls := (put_setControl _).calls
  have hboth (main : Main) :
      (put.calls.modify k fun call => { call with leaseRegistered := true }).modify k
      (fun call => { call with main }) = c.calls.modify k fun call =>
        { call with main, leaseRegistered := true } := by
    rw [hput, List.modify_modify_eq]
    rfl
  unfold registerLease
  dsimp only
  split
  · refine ⟨.returned, ?_⟩
    rw [setMain, update, continue_calls, stopOwned_calls]
    exact hboth .returned
  · exact ⟨.announcing, hboth .announcing⟩

theorem register_moves (hopen : ∃ main, call' = { call with main, leaseRegistered := true })
    {other : Call} :
    Moves k (c.registerLease k other id) call call' := by
  obtain ⟨main, rfl⟩ := hopen
  refine ⟨fun h => h, fun h => h, fun _ => rfl, .inl, fun _ => .inr fun a ha => ?_⟩
  exact register_keeps (.inl ha)

def Changes (k : ℕ) (c c' : Client) : Prop :=
  ∃ f, c'.calls = c.calls.modify k f ∧ ∀ call, c.calls[k]? = some call → Moves k c' call (f call)

theorem changes_main (c₁ : Client) (hcalls : c₁.calls = c.calls) (main : Main) :
    Changes k c (c₁.setMain k main) := by
  refine ⟨_, congrArg (List.modify · k _) hcalls, fun call _ => ?_⟩
  exact moves_of_flags (fun h => h) rfl rfl

theorem changes_none (hcalls : c'.calls = c.calls) : Changes k c c' := by
  refine ⟨fun call => call, ?_, fun call _ => moves_of_flags (fun h => h) rfl rfl⟩
  rw [hcalls]
  exact (List.modify_id k c.calls).symm

theorem changes_register {c₁ : Client} (hcalls : c₁.calls = c.calls) :
    Changes k c (c₁.registerLease k call id) := by
  obtain ⟨main, hmain⟩ := register_calls (c := c₁) (k := k) call id
  rw [hcalls] at hmain
  exact ⟨_, hmain, fun call _ => register_moves ⟨main, rfl⟩⟩

theorem does_changes (h : Does c k call outcome id c') : Changes k c c' := by
  cases h with
  | move main => exact changes_main c rfl main
  | serve hopen =>
    exact changes_main { c.stopRecoverySigner none with route := _ } (stop_calls none) _
  | late => exact changes_main { c with route := _ } rfl _
  | lapse hserved => exact changes_main { c with route := _ } rfl _
  | sign hserved hopen =>
    refine ⟨_, rfl, fun call _ =>
      ⟨fun h => h, fun _ => rfl, fun h => h, fun _ => .inr fun a ha => ?_, .inl⟩⟩
    -- the call's entries are the only ones
    refine ⟨⟨fun h => ha ?_, fun h => ha ?_⟩, Signer.lacks_serve ha.symm, fun h => ha ?_⟩
    · exact (Option.some.inj (hserved.symm.trans h)).symm
    · exact (Option.some.inj h).symm
    · exact (Option.some.inj h).symm
  | supersede => exact changes_main { c with integrity := _ } rfl _
  | complete hserved => exact changes_register rfl
  | register hregisters => exact changes_register rfl
  | ask => exact changes_main _ continue_calls _
  | fence => exact changes_main _ stopOwned_calls _
  | release hmain => exact changes_main _ ((stop_calls _).trans (release_calls _)) _

theorem step_changes (h : c.step i = some c') :
    (∃ k, Changes k c c') ∨ ∃ planFingerprint coordinateChecksum,
      i = .execute planFingerprint coordinateChecksum := by
  cases i with
  | execute planFingerprint coordinateChecksum => exact .inr ⟨_, _, rfl⟩
  | main k outcome id =>
    obtain ⟨call, -, h⟩ := Option.bind_eq_some_iff.mp h
    exact .inl ⟨k, does_changes (does_of_main h)⟩
  | cancel k elsewhere =>
    obtain ⟨call, -, h⟩ := Option.bind_eq_some_iff.mp h
    obtain ⟨-, c₁, ⟨callbacks, f, rfl, hflags⟩, hcases⟩ := cancel_cases h
    refine .inl ⟨k, f, ?_, fun call _ => moves_of_flags (fun _ => (hflags call).1)
      (hflags call).2.1 (hflags call).2.2⟩
    rcases hcases with rfl | rfl
    · rfl
    · exact stopOwned_calls
  | stopScheduled k =>
    obtain ⟨call, -, h⟩ := Option.bind_eq_some_iff.mp h
    rw [scheduled_cases h]
    refine .inl ⟨k, fun call => { call with scheduled := false }, stopOwned_calls, fun call _ => ?_⟩
    exact moves_of_flags (fun h => h) rfl rfl
  | replayFailed k =>
    obtain ⟨call, -, h⟩ := Option.bind_eq_some_iff.mp h
    rw [replayFailed_cases h]
    exact .inl ⟨k, changes_none stopOwned_calls⟩
  | terminal =>
    cases h
    exact .inl ⟨0, changes_none ((stop_calls _).trans (release_calls _))⟩
  | observeRuntimeEpochs runtimeEpoch transportEpoch =>
    cases h
    exact .inl ⟨0, changes_none (put_setControl _).calls⟩
  | recoverTransfer r input =>
    obtain ⟨control, -, rfl⟩ := Option.map_eq_some_iff.mp h
    exact .inl ⟨0, changes_none (recovered_calls control)⟩
  | close =>
    cases h
    have hput : (c.setControl c.control.close).calls = c.calls := (put_setControl _).calls
    exact .inl ⟨0, changes_none hput⟩

theorem step_call (h : c.step i = some c') (hcall : c.calls[k]? = some call) :
    ∃ call', c'.calls[k]? = some call' ∧ Moves k c' call call' := by
  rcases step_changes h with ⟨j, f, hcalls, hmoves⟩ | ⟨planFingerprint, coordinateChecksum, rfl⟩
  · rw [hcalls]
    by_cases hj : j = k
    · subst hj
      exact ⟨f call, Holders.getElem?_modify_entry hcall, hmoves call hcall⟩
    · refine ⟨call, (List.getElem?_modify_ne _ _ hj).trans hcall,
        moves_of_flags (fun h => h) rfl rfl⟩
  · cases h
    refine ⟨call, ?_, moves_of_flags (fun h => h) rfl rfl⟩
    exact (List.getElem?_append_left (List.getElem?_eq_some_iff.mp hcall).1).trans hcall

theorem step_new (h : c.step i = some c') (hnone : c.calls[k]? = none)
    (hcall : c'.calls[k]? = some call) :
    call.signersRegistered = false ∧ call.leaseRegistered = false := by
  rcases step_changes h with ⟨j, f, hcalls, -⟩ | ⟨planFingerprint, coordinateChecksum, rfl⟩
  · rw [hcalls, List.getElem?_modify, hnone] at hcall
    cases hcall
  · cases h
    have hk : c.calls.length ≤ k := List.getElem?_eq_none_iff.mp hnone
    rw [execute, List.getElem?_append_right hk] at hcall
    obtain ⟨hlt, hentry⟩ := List.getElem?_eq_some_iff.mp hcall
    rw [List.getElem_singleton] at hentry
    rw [← hentry]
    exact ⟨rfl, rfl⟩

/-- What a step leaves of the signers and the lease of call `b`. -/
structure Spares (b : ℕ) (c c' : Client) : Prop where
  route : c.route.subscription = some b → c'.route.subscription = some b
  integrity : c.integrity.subscription = some b →
    c'.integrity.subscription = some b ∧ c'.integrityContext = c.integrityContext
  unsubscribed : b ∈ c'.route.unsubscribed → b ∈ c.route.unsubscribed
  integrityUnsubscribed : b ∈ c'.integrity.unsubscribed → b ∈ c.integrity.unsubscribed
  lease : c.owner = some b → c'.control.recoveryLease = c.control.recoveryLease
  disposed : b ∈ c'.disposed → b ∈ c.disposed

structure Absent (a : ℕ) (c : Client) : Prop where
  signers : Lacks a c
  lease : c.owner ≠ some a

def Holds (b : ℕ) (c : Client) : Prop :=
  c.route.subscription = some b ∨ c.integrity.subscription = some b ∨ c.owner = some b

def Registered (b : ℕ) (c : Client) : Prop :=
  ∃ B, c.calls[b]? = some B ∧ B.signersRegistered = true ∧ B.leaseRegistered = true

/-- The call is about to register its lease, or to release whatever is registered, while something
of `b` is. -/
def Overrides (a b : ℕ) (c : Client) : Step → Prop
  | .main k outcome _ => k = a ∧ Holds b c ∧ ∃ A ∈ c.calls[a]?, A.main = .aborting ∨
      Registers A outcome
  | _ => False

/-- A step of the call, of its callback, of its replays, or of the tasks for its lease. -/
def Step.acts (a : ℕ) (c : Client) : Step → Prop
  | .main k _ _ | .cancel k _ | .stopScheduled k | .replayFailed k => k = a
  | .recoverTransfer r _ => ∃ task ∈ c.control.tasks[r]?, task.lease.replayRoutes = a
  | _ => False

/-- The ownership of call `a` was cancelled, and nothing of it is registered from where call `b`
has. -/
structure Fence (a b : ℕ) (c : Client) : Prop where
  cancelled : ∃ A, c.calls[a]? = some A ∧ A.cancelled = true
  signers : ∀ B : Call, c.calls[b]? = some B → B.signersRegistered = true → Lacks a c
  lease : ∀ B : Call, c.calls[b]? = some B → B.leaseRegistered = true → c.owner ≠ some a

theorem step_fence (hne : a ≠ b) (hf : Fence a b c) (h : c.step i = some c') : Fence a b c' := by
  obtain ⟨A, hA, hcancelled⟩ := hf.cancelled
  obtain ⟨A', hA', hmoves⟩ := step_call h hA
  -- where call `b` of the new state comes from
  have hfrom : ∀ B', c'.calls[b]? = some B' → (∃ B, c.calls[b]? = some B ∧ Moves b c' B B') ∨
      B'.signersRegistered = false ∧ B'.leaseRegistered = false := by
    intro B' hB'
    cases hB : c.calls[b]? with
    | none => exact .inr (step_new h hB hB')
    | some B =>
      obtain ⟨B'', hB'', hmovesB⟩ := step_call h hB
      obtain rfl := Option.some.inj (hB'.symm.trans hB'')
      exact .inl ⟨B, rfl, hmovesB⟩
  refine ⟨⟨A', hA', hmoves.cancelled hcancelled⟩,
    fun B' hB' hsigners => ?_, fun B' hB' hleased => ?_⟩
  · rcases hfrom B' hB' with ⟨B, hB, hmovesB⟩ | ⟨hnone, -⟩
    · rcases hmovesB.signers hsigners with hbefore | hfirst
      · exact step_lacks hA hcancelled (hf.signers B hB hbefore) h
      · exact hfirst a hne
    · rw [hnone] at hsigners
      cases hsigners
  · rcases hfrom B' hB' with ⟨B, hB, hmovesB⟩ | ⟨-, hnone⟩
    · rcases hmovesB.lease hleased with hbefore | hfirst
      · exact step_owner hA hcancelled (hf.lease B hB hbefore) h
      · exact hfirst a hne
    · rw [hnone] at hleased
      cases hleased

theorem step_registered (hregistered : Registered b c) (h : c.step i = some c') :
    Registered b c' := by
  obtain ⟨B, hB, hsigners, hleased⟩ := hregistered
  obtain ⟨B', hB', hmoves⟩ := step_call h hB
  exact ⟨B', hB', hmoves.registered hsigners, hmoves.leased hleased⟩

theorem Fence.absent (hf : Fence a b c) (hregistered : Registered b c) : Absent a c := by
  obtain ⟨B, hB, hsigners, hleased⟩ := hregistered
  exact ⟨hf.signers B hB hsigners, hf.lease B hB hleased⟩

theorem stopOwned_absent (h : Absent a c) : c.stopOwnedRecovery a = c := by
  have hstop : c.stopRecoverySigner (some a) = c := if_pos ⟨nofun, h.signers.context⟩
  rw [stopOwnedRecovery, hstop]
  exact if_pos ⟨nofun, h.lease⟩

theorem spares_setControl (hkeeps : control.recoveryLease = c.control.recoveryLease) :
    Spares b c (c.setControl control) := by
  have hsame : c.setControl control = { c with control := control } := by
    unfold setControl
    split
    · rfl
    · rename_i previous hprevious
      exact if_pos (hkeeps.trans hprevious)
  rw [hsame]
  exact ⟨fun h => h, fun h => ⟨h, rfl⟩, fun h => h, fun h => h, fun _ => hkeeps, fun h => h⟩

theorem mem_drop {s : Signer} (hne : a ≠ b) (h : b ∈ (s.drop a).unsubscribed) :
    b ∈ s.unsubscribed := by
  rcases List.mem_append.mp h with hold | hnew
  · exact hold
  · exact absurd (List.mem_singleton.mp hnew).symm hne

theorem Spares.update (h : Spares b c c') (k : ℕ) (f : Call → Call) : Spares b c (c'.update k f) :=
  ⟨h.route, h.integrity, h.unsubscribed, h.integrityUnsubscribed, h.lease, h.disposed⟩

theorem spares_rfl : Spares b c c :=
    ⟨fun h => h, fun h => ⟨h, rfl⟩, fun h => h, fun h => h, fun _ => rfl, fun h => h⟩

theorem Spares.trans {c'' : Client} (h : Spares b c c') (h' : Spares b c' c'') :
    Spares b c c'' where
  route hb := h'.route (h.route hb)
  integrity hb := by
    obtain ⟨hkept, hcontext⟩ := h.integrity hb
    obtain ⟨hkept', hcontext'⟩ := h'.integrity hkept
    exact ⟨hkept', hcontext'.trans hcontext⟩
  unsubscribed hb := h.unsubscribed (h'.unsubscribed hb)
  integrityUnsubscribed hb := h.integrityUnsubscribed (h'.integrityUnsubscribed hb)
  lease hb := by
    have hkept := h.lease hb
    refine (h'.lease ?_).trans hkept
    rw [owner, hkept]
    exact hb
  disposed hb := h.disposed (h'.disposed hb)

def Skips (b : ℕ) (c c' : Client) : Prop := Spares b c c' ∧ ¬ Holds b c'

theorem Skips.trans {c'' : Client} (h : Skips b c c') (h' : ¬ Holds b c' → Skips b c' c'') :
    Skips b c c'' :=
  ⟨h.1.trans (h' h.2).1, (h' h.2).2⟩

theorem mem_clear {s : Signer} (hs : s.subscription ≠ some b) (h : b ∈ s.clear.unsubscribed) :
    b ∈ s.unsubscribed := by
  rcases List.mem_append.mp h with hold | hnew
  · exact hold
  · exact absurd (Option.mem_toList.mp hnew) hs

theorem skips_update (hb : ¬ Holds b c) (k : ℕ) (f : Call → Call) : Skips b c (c.update k f) :=
    ⟨spares_rfl.update k f, hb⟩

theorem skips_setControl (hb : ¬ Holds b c)
    (hcontrol : control.recoveryLease.map RecoveryLease.replayRoutes ≠ some b) :
    Skips b c (c.setControl control) := by
  simp only [Holds, not_or] at hb
  obtain ⟨hroute, hintegrity, hlease⟩ := hb
  have hput := put_setControl (c := c) control
  refine ⟨⟨fun h => absurd h hroute, fun h => absurd h hintegrity, fun h => ?_,
    fun h => ?_, fun h => absurd h hlease,
    fun h => ?_⟩, ?_⟩
  · rw [hput.route] at h
    exact h
  · rw [hput.integrity] at h
    exact h
  · rcases setControl_cases (c := c) control with hsame | ⟨previous, hprevious, hdisposed⟩
    · rw [hsame] at h
      exact h
    · rw [hdisposed] at h
      rcases List.mem_append.mp h with hold | hnew
      · exact hold
      · -- the lease that was disposed is no lease of the call
        refine absurd ?_ hlease
        rw [owner, hprevious, List.mem_singleton.mp hnew]
        rfl
  · simp only [Holds, not_or, hput.route, hput.integrity, hput.owner]
    exact ⟨hroute, hintegrity, hcontrol⟩

theorem skips_stopRoute (hb : ¬ Holds b c) : Skips b c c.stopRouteRecoverySigner := by
  simp only [Holds, not_or] at hb
  obtain ⟨hroute, hintegrity, hlease⟩ := hb
  refine ⟨⟨fun h => absurd h hroute, fun h => absurd h hintegrity, mem_clear hroute,
    mem_clear hintegrity,
    fun h => absurd h hlease, fun h => h⟩, ?_⟩
  simp only [Holds, not_or]
  exact ⟨nofun, nofun, hlease⟩

theorem skips_stop (hb : ¬ Holds b c) (prepared : Option ℕ) :
    Skips b c (c.stopRecoverySigner prepared) := by
  unfold stopRecoverySigner
  split
  · exact ⟨spares_rfl, hb⟩
  · obtain ⟨hspares, hnot⟩ := skips_stopRoute hb
    refine ⟨⟨hspares.route, fun h => absurd (.inr (.inl h)) hb, hspares.unsubscribed,
      hspares.integrityUnsubscribed,
      hspares.lease, hspares.disposed⟩, hnot⟩

theorem skips_release (hb : ¬ Holds b c) (replayRoutes : Option ℕ) :
    Skips b c (c.releaseRecoveryLease replayRoutes) := by
  have hlease : c.owner ≠ some b := fun h => hb (.inr (.inr h))
  unfold releaseRecoveryLease
  split
  · exact ⟨spares_rfl, hb⟩
  · refine (skips_setControl hb ?_).trans skips_stopRoute
    unfold Control.releaseRecoveryLease
    split
    · exact hlease
    · exact nofun

theorem skips_continue (hb : ¬ Holds b c) (id : String) :
    Skips b c (c.continueRecoveryLease id) := by
  refine skips_setControl hb ?_
  rw [Control.lease_continue]
  exact fun h => hb (.inr (.inr h))

theorem skips_register (hne : a ≠ b) (hb : ¬ Holds b c) (hcancelled : call.cancelled = true) :
    Skips b c (c.registerLease a call id) := by
  have hput :
      Skips b c
        (c.setControl
        (c.control.registerRecoveryLease call.planFingerprint call.coordinateChecksum a)) :=
    skips_setControl hb fun h => hne (Option.some.inj h)
  unfold registerLease
  dsimp only
  rw [if_pos hcancelled]
  have hregistered := hput.trans fun hb => skips_update hb a fun call =>
    { call with leaseRegistered := true }
  have hstopped := (hregistered.trans fun hb => skips_stop hb (some a)).trans fun hb =>
    skips_release hb (some a)
  exact (hstopped.trans fun hb => skips_continue hb id).trans fun hb => skips_update hb a _

theorem does_spares (hne : a ≠ b) (h : Absent a c) (hcancelled : call.cancelled = true)
    (hdoes : Does c a call outcome id c')
    (hharmless : call.main = .aborting ∨ Registers call outcome → ¬ Holds b c) :
    Spares b c c' := by
  cases hdoes with
  | move main => exact spares_rfl.update _ _
  | serve hopen =>
    rw [hcancelled] at hopen
    cases hopen
  | late =>
    have hdrop : Spares b c { c with route := c.route.drop a } :=
      ⟨fun h => h, fun h => ⟨h, rfl⟩, mem_drop hne, fun h => h, fun _ => rfl, fun h => h⟩
    exact hdrop.update _ _
  | lapse hserved => exact absurd hserved h.signers.route.generation
  | sign hserved hopen => exact absurd hserved h.signers.route.generation
  | supersede =>
    have hdrop : Spares b c { c with integrity := c.integrity.drop a } :=
      ⟨fun h => h, fun h => ⟨h, rfl⟩, fun h => h, mem_drop hne, fun _ => rfl, fun h => h⟩
    exact hdrop.update _ _
  | complete hserved => exact absurd hserved h.signers.integrity.generation
  | register hregisters => exact (skips_register hne (hharmless (.inr hregisters)) hcancelled).1
  | ask => exact (spares_setControl (Control.lease_continue id)).update _ _
  | fence =>
    rw [stopOwned_absent h]
    exact spares_rfl.update _ _
  | release hmain =>
    have hreleased := skips_release (hharmless (.inl hmain)) none
    exact (hreleased.trans fun hb => skips_stop hb none).1.update _ _

theorem acts_spares (hne : a ≠ b) (hf : Fence a b c) (habsent : Absent a c) (h : c.step i = some c')
    (hacts : i.acts a c)
    (hgood : ¬ Overrides a b c i) : Spares b c c' := by
  obtain ⟨A, hA, hcancelled⟩ := hf.cancelled
  cases i with
  | main k outcome id =>
    obtain rfl : k = a := hacts
    obtain ⟨other, hother, h⟩ := Option.bind_eq_some_iff.mp h
    obtain rfl := Option.some.inj (hA.symm.trans hother)
    refine does_spares hne habsent hcancelled (does_of_main h) fun hharm hholds => ?_
    exact hgood ⟨rfl, hholds, A, hA, hharm⟩
  | cancel k elsewhere =>
    obtain rfl : k = a := hacts
    obtain ⟨other, hother, h⟩ := Option.bind_eq_some_iff.mp h
    obtain rfl := Option.some.inj (hA.symm.trans hother)
    rw [(cancel_cases h).1] at hcancelled
    cases hcancelled
  | stopScheduled k =>
    obtain rfl : k = a := hacts
    obtain ⟨other, hother, h⟩ := Option.bind_eq_some_iff.mp h
    rw [scheduled_cases h, stopOwned_absent ⟨lacks_update habsent.signers _ _, habsent.lease⟩]
    exact spares_rfl.update _ _
  | replayFailed k =>
    obtain rfl : k = a := hacts
    obtain ⟨other, hother, h⟩ := Option.bind_eq_some_iff.mp h
    rw [replayFailed_cases h, stopOwned_absent habsent]
    exact spares_rfl
  | recoverTransfer r input =>
    obtain ⟨control, hcontrol, rfl⟩ := Option.map_eq_some_iff.mp h
    obtain ⟨task, htask, hreleases⟩ := Control.releases_recover hcontrol
    obtain ⟨own, hown, howner⟩ := hacts
    obtain rfl := Option.some.inj ((Option.mem_def.mp hown).symm.trans htask)
    -- a task for the call's lease has none to release
    have hsame : control.recoveryLease = c.control.recoveryLease := by
      rcases hreleases with hsame | ⟨hreleased, -⟩
      · exact hsame
      · rw [howner] at hreleased
        exact absurd hreleased habsent.lease
    rw [recovered, if_pos hsame]
    exact spares_setControl hsame
  | execute planFingerprint coordinateChecksum => exact hacts.elim
  | terminal => exact hacts.elim
  | observeRuntimeEpochs runtimeEpoch transportEpoch => exact hacts.elim
  | close => exact hacts.elim

theorem Spares.holds (h : Spares b c c') (hb : Holds b c) : Holds b c' := by
  rcases hb with hroute | hintegrity | hlease
  · exact .inl (h.route hroute)
  · exact .inr (.inl (h.integrity hintegrity).1)
  · refine .inr (.inr ?_)
    rw [owner, h.lease hlease]
    exact hlease

def Silent (c : Client) : Prop := c.route.subscription = none ∧ c.integrity.subscription = none

theorem silent_put (h : Silent c) (control : Control) : Silent (c.setControl control) := by
  rw [Silent, (put_setControl control).route, (put_setControl control).integrity]
  exact h

theorem silent_stop (h : Silent c) (prepared : Option ℕ) :
    Silent (c.stopRecoverySigner prepared) := by
  unfold stopRecoverySigner
  split
  · exact h
  · exact ⟨rfl, rfl⟩

theorem silent_release {replayRoutes : Option ℕ}
    (hown : replayRoutes = none ∨ c.owner = replayRoutes) :
    Silent (c.releaseRecoveryLease replayRoutes) := by
  rw [releaseRecoveryLease, if_neg fun h => hown.elim h.1 h.2]
  exact ⟨rfl, rfl⟩

theorem silent_register (hcancelled : call.cancelled = true) :
    Silent (c.registerLease a call id) := by
  have hput :
      (c.setControl
        (c.control.registerRecoveryLease call.planFingerprint call.coordinateChecksum a)).owner =
      some a := (put_setControl (c := c) _).owner
  unfold registerLease
  dsimp only
  rw [if_pos hcancelled]
  refine silent_put (silent_release (.inr ?_)) _
  rw [stop_owner]
  exact hput

theorem overrides_harms (hne : a ≠ b) (hf : Fence a b c) (h : c.step i = some c')
    (hbad : Overrides a b c i) :
    ¬ Spares b c c' := by
  intro hspares
  obtain ⟨A, hA, hcancelled⟩ := hf.cancelled
  cases i with
  | main k outcome id =>
    obtain ⟨rfl, hholds, other, hother, hcases⟩ := hbad
    obtain rfl := Option.some.inj (hA.symm.trans hother)
    obtain ⟨other, hother', h⟩ := Option.bind_eq_some_iff.mp h
    obtain rfl := Option.some.inj (hA.symm.trans hother')
    have hempty : Silent c' ∧ c'.owner ≠ some b := by
      rcases hcases with hmain | hregisters
      · have howner : ((c.releaseRecoveryLease none).stopRecoverySigner none).owner ≠ some b := by
          rw [stop_owner]
          rcases release_owner (c := c) none with ⟨-, hnone, -⟩ | hnone
          · exact absurd rfl hnone
          · rw [hnone]
            exact nofun
        have hsilent := silent_stop (silent_release (c := c) (.inl rfl)) none
        cases outcome <;> simp only [runProviderTransfer, hmain, Option.some.injEq,
          reduceCtorEq] at h
        all_goals
          rw [← h]
          exact ⟨hsilent, howner⟩
      · have hregistered : c' = c.registerLease k A id := by
          rcases hregisters with ⟨hmain, rfl⟩ | ⟨hmain, houtcome⟩
          · simp only [runProviderTransfer, hmain, Option.some.injEq] at h
            exact h.symm
          · cases outcome <;> simp only [runProviderTransfer, hmain, Option.some.injEq,
              reduceCtorEq] at h
            · exact h.symm
            · exact h.symm
            · exact absurd rfl houtcome
        rw [hregistered]
        exact ⟨silent_register hcancelled, register_keeps (.inl hne.symm)⟩
    obtain ⟨⟨hroute, hintegrity⟩, howner⟩ := hempty
    rcases hspares.holds hholds with hb | hb | hb
    · rw [hroute] at hb
      cases hb
    · rw [hintegrity] at hb
      cases hb
    · exact howner hb
  | execute planFingerprint coordinateChecksum => exact hbad
  | cancel k elsewhere => exact hbad
  | stopScheduled k => exact hbad
  | replayFailed k => exact hbad
  | terminal => exact hbad
  | observeRuntimeEpochs runtimeEpoch transportEpoch => exact hbad
  | recoverTransfer r input => exact hbad
  | close => exact hbad

theorem Overrides.acts (h : Overrides a b c i) : i.acts a c := by
  cases i with
  | main k outcome id => exact h.1
  | execute planFingerprint coordinateChecksum => exact h.elim
  | cancel k elsewhere => exact h.elim
  | stopScheduled k => exact h.elim
  | replayFailed k => exact h.elim
  | terminal => exact h.elim
  | observeRuntimeEpochs runtimeEpoch transportEpoch => exact h.elim
  | recoverTransfer r input => exact h.elim
  | close => exact h.elim

/-- A fence is put up where the ownership of a call is cancelled and another has nothing registered
yet. -/
theorem fence_of_cancelled (hcall : c.calls[a]? = some call) (hcancelled : call.cancelled = true)
    (hbefore : ∀ B : Call, c.calls[b]? = some B → B.signersRegistered = false ∧
      B.leaseRegistered = false) :
    Fence a b c := by
  refine ⟨⟨call, hcall, hcancelled⟩, fun B hB hsigners => ?_, fun B hB hleased => ?_⟩
  · rw [(hbefore B hB).1] at hsigners
    cases hsigners
  · rw [(hbefore B hB).2] at hleased
    cases hleased

/-- Once another call of the transfer has registered its signers and its lease, after the ownership
of a call was cancelled, nothing of that call is registered in any state that follows, and each of
its steps leaves the other call's signers and lease alone exactly where none of them is about to
register its lease, or to release what is registered. -/
theorem python_fenced_spares {middle later : List Step} {v u w : Client} (hne : a ≠ b)
    (hcall : v.calls[a]? = some call)
    (hcancelled : call.cancelled = true)
    (hbefore : ∀ B : Call, v.calls[b]? = some B → B.signersRegistered = false ∧
      B.leaseRegistered = false)
    (hu : Run.after step v middle = some u) (hregistered : Registered b u)
    (hw : Run.after step u later = some w) :
    Run.Always step u later (Absent a) ∧
      (Run.Each step u later (fun c i c' => i.acts a c → Spares b c c') ↔
        Run.Never step u later (Overrides a b)) := by
  have hfence : Fence a b u :=
    Run.after_invariant (fun _ _ _ hf h => step_fence hne hf h)
      (fence_of_cancelled hcall hcancelled hbefore) hu
  have hI : Fence a b u ∧ Registered b u := ⟨hfence, hregistered⟩
  have hstep : ∀ c i c', Fence a b c ∧ Registered b c → c.step i = some c' → Fence a b c' ∧
      Registered b c' :=
    fun c i c' hI h => ⟨step_fence hne hI.1 h, step_registered hI.2 h⟩
  refine ⟨fun earlier rest c hsplit hc =>
    ?_, Run.each_iff_never (fun c i c' hI h hbad hspares => ?_)
    (fun c i c' hI h hgood => ⟨hstep c i c' hI h, fun hacts => ?_⟩) hI hw⟩
  · obtain ⟨hf, hr⟩ := Run.after_invariant hstep hI hc
    exact hf.absent hr
  · exact overrides_harms hne hI.1 h hbad (hspares hbad.acts)
  · exact acts_spares hne hI.1 (hI.1.absent hI.2) h hacts hgood

def sampleExecute : Step := .execute "fingerprint" "checksum"

def sampleMain (k : ℕ) : Step := .main k .proceed "epoch"

def sampleCancelled : List Step :=
    [sampleExecute, sampleExecute, sampleMain 0, sampleMain 0, .cancel 0 false]

def sampleReplaced : List Step := List.replicate 3 (sampleMain 1)

/-- The first finds its integrity signer superseded, and registers its lease all the same. -/
def sampleLate : List Step := [sampleMain 0, sampleMain 0]

theorem sample_python_overridden : ∃ v u w A, Run.after step Client.start sampleCancelled = some v ∧
    v.calls[0]? = some A ∧
    A.cancelled = true ∧
      (∀ B : Call, v.calls[1]? = some B → B.signersRegistered = false ∧ B.leaseRegistered = false) ∧
    Run.after step v sampleReplaced = some u ∧ Registered 1 u ∧
      Run.after step u sampleLate = some w ∧
    (∀ B : Call, w.calls[1]? = some B → B.cancelled = false) ∧ Holds 1 u ∧ ¬ Spares 1 u w ∧
      ¬ Holds 1 w ∧
    1 ∈ w.disposed := by
  have hnone :
      ¬ Holds 1
        ((Run.after step Client.start (sampleCancelled ++ sampleReplaced ++ sampleLate)).getD
      Client.start) := by
    rintro (h | h | h) <;> cases h
  refine ⟨_, _, _, _, rfl, rfl, rfl, ?_, rfl, ⟨_, rfl, rfl, rfl⟩, rfl, ?_, .inl rfl,
    fun h => ?_, hnone, by decide⟩
  · intro B hB
    cases hB
    exact ⟨rfl, rfl⟩
  · intro B hB
    cases hB
    rfl
  · exact hnone (h.holds (.inl rfl))

instance (a b : ℕ) (c : Client) : (i : Step) → Decidable (Overrides a b c i)
  | .main k outcome _ =>
    inferInstanceAs (Decidable (k = a ∧ (_ ∨ _ ∨ _) ∧ ∃ A ∈ c.calls[a]?, A.main = .aborting ∨
      (A.main = .integrity ∧ outcome = .failed ∨ A.main = .unsubscribing ∧ outcome ≠ .cancelled)))
  | .execute _ _ | .cancel _ _ | .stopScheduled _ | .replayFailed _ | .terminal |
      .observeRuntimeEpochs _ _
  | .recoverTransfer _ _ | .close => inferInstanceAs (Decidable False)

def sampleAfter (c : Client) (is : List Step) : Client := (Run.after step c is).getD Client.start

def sampleFenced : Client :=
    sampleAfter Client.start [sampleExecute, sampleExecute, sampleMain 0, .cancel 0 false]

def sampleServed : Client := sampleAfter sampleFenced sampleReplaced

theorem sample_python_spares : ∃ w, Run.after step sampleServed [sampleMain 0] = some w ∧
    Spares 1 sampleServed w ∧ Absent 0 w := by
  obtain ⟨A, hA, hcancelled⟩ : ∃ A, sampleFenced.calls[0]? = some A ∧ A.cancelled = true :=
    ⟨_, rfl, rfl⟩
  have hbefore : ∀ B : Call, sampleFenced.calls[1]? = some B → B.signersRegistered = false ∧
      B.leaseRegistered = false := by
    intro B hB
    cases hB
    exact ⟨rfl, rfl⟩
  have hu : Run.after step sampleFenced sampleReplaced = some sampleServed := rfl
  have hregistered : Registered 1 sampleServed := ⟨_, rfl, rfl, rfl⟩
  have hw : Run.after step sampleServed [sampleMain 0] =
      some (sampleAfter sampleServed [sampleMain 0]) := rfl
  obtain ⟨habsent, hspares⟩ :=
    python_fenced_spares (by decide) hA hcancelled hbefore hu hregistered hw
  have hnever : Run.Never step sampleServed [sampleMain 0] (Overrides 0 1) :=
    Run.never_of_check (by decide)
  exact ⟨_, hw, hspares.mpr hnever [] (sampleMain 0) [] _ _ rfl rfl hw rfl, habsent.last hw⟩

end Client
end Beam.Python
