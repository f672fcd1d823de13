import BeamSdk.Go.Registered

/-! A recovery that is asked for is not forgotten while its lease is current, unless the call names
the epoch that a loop already on its way has started from. -/

namespace Beam.Go
variable {shardOf : String → ℕ}

def Phase.asked : Phase → Option (Option Epoch)
  | .sent epoch _ | .replayCheck epoch _ | .replaying epoch _ | .settle epoch => some epoch
  | _ => none

namespace Control
variable {c c' c'' : Control} {lease : Lease} {transferID other : String} {r : ℕ}
    {run : RecoveryRun} {epoch : Epoch}
  {i : Step}

/-- The step sets a transfer's newest requested epoch to this one. An epoch seen again counts where
it was not the newest. -/
def Step.requests (shardOf : String → ℕ) (c : Control) (transferID : String)
    (epoch : Epoch) : Step → Prop
  | .continueRecoveryLease lease id =>
    lease.transferID = transferID ∧ c.current lease ∧ c.continuedEpoch shardOf lease id = epoch
  | .observeRuntimeEpochs shardID runtimeEpoch transportEpoch =>
    (runtimeEpoch, transportEpoch) = (some epoch.1, some epoch.2) ∧
      c.recoveryRequested.get transferID ≠ some epoch ∧
      ∃ lease ∈ c.affected shardOf shardID epoch, lease.transferID = transferID
  | _ => False

/-- The step names the epoch that the registered loop's attempt started from, whose request may be
on its way. -/
def Coalesces (shardOf : String → ℕ) (c : Control) (i : Step) : Prop :=
  ∃ transferID r run epoch, c.registered transferID = some (r, run) ∧
    run.phase.asked = some (some epoch) ∧
    i.requests shardOf c transferID epoch

structure Working (c : Control) (transferID : String) (run : RecoveryRun) : Prop where
  lease : c.recoveryLeases.get transferID = some run.lease
  uncancelled : run.cancelled = false
  finishing : run.phase ≠ .finishing
  done : run.phase ≠ .done
  stale : run.phase = .stale → c.ownershipErr run.lease = true

structure Sound (c : Control) : Prop extends Consistent c where
  keys : (c.recoveryLeases.map Prod.fst).Nodup
  keyed : ∀ entry ∈ c.recoveryLeases, entry.2.transferID = entry.1
  loop : ∀ transferID r run, c.registered transferID = some (r, run) → Working c transferID run

/-- What a step leaves of a transfer's lease, requested epoch and registered loop. -/
structure Same (c c' : Control) (transferID : String) : Prop where
  lease : c'.recoveryLeases.get transferID = c.recoveryLeases.get transferID
  requested : c'.recoveryRequested.get transferID = c.recoveryRequested.get transferID
  registered : c'.registered transferID = c.registered transferID

structure Requested (c c' : Control) (transferID : String) (epoch : Epoch) : Prop where
  lease : c'.recoveryLeases.get transferID = c.recoveryLeases.get transferID
  requested : c'.recoveryRequested.get transferID = some epoch
  registered :
    (c.registered transferID ≠ none ∧ c'.registered transferID = c.registered transferID) ∨
    ∃ lease r, c.recoveryLeases.get transferID = some lease ∧ c.registered transferID = none ∧
      c'.registered transferID = some (r, ⟨lease, false, .check⟩)

inductive Effect (shardOf : String → ℕ) (c : Control) (i : Step) (c' : Control)
    (transferID : String) : Prop
  | same (h : Same c c' transferID)
  | replaced (lease : Lease) (hlease : c'.recoveryLeases.get transferID = some lease)
      (hrequested : c'.recoveryRequested.get transferID = c.recoveryRequested.get transferID)
      (hregistered : c'.registered transferID = (c.registered transferID).filter fun entry =>
        some lease = some entry.2.lease)
  | released (hlease : c'.recoveryLeases.get transferID = none)
      (hregistered : c'.registered transferID = none)
  | requested (epoch : Epoch) (h : Requested c c' transferID epoch)
      (hnew : c.recoveryRequested.get transferID = some epoch ∨
        i.requests shardOf c transferID epoch)
  | moved (r : ℕ) (run : RecoveryRun) (phase : Phase)
      (hold : c.registered transferID = some (r, run))
      (hregistered : c'.registered transferID = some (r, { run with phase := phase }))
      (hlease : c'.recoveryLeases.get transferID = c.recoveryLeases.get transferID)
      (hrequested : c'.recoveryRequested.get transferID = c.recoveryRequested.get transferID)
      (hlive : phase ≠ .finishing ∧ phase ≠ .done ∧
        (phase = .stale → c.ownershipErr run.lease = true))
      (hasked : phase.asked = none ∨ phase.asked = run.phase.asked ∨
        ∃ generationID, c'.resumes = c.resumes ++ [⟨run.lease, generationID⟩])
  | ended (r : ℕ) (run : RecoveryRun) (hold : c.registered transferID = some (r, run))
      (hphase : run.phase = .settle (c.recoveryRequested.get transferID))
      (hregistered : c'.registered transferID = none)
      (hlease : c'.recoveryLeases.get transferID = c.recoveryLeases.get transferID)

theorem ownershipErr_mono (hsub : c.relinquished ⊆ c'.relinquished)
    (h : c.ownershipErr lease = true) :
    c'.ownershipErr lease = true := by
  obtain ⟨owner, howner, hmem⟩ := (Option.any_eq_true _ _).mp h
  exact (Option.any_eq_true _ _).mpr
    ⟨owner, howner, List.contains_iff_mem.mpr (hsub (List.contains_iff_mem.mp hmem))⟩

theorem Working.congr (h : Working c transferID run)
    (hlease : c'.recoveryLeases.get transferID = c.recoveryLeases.get transferID)
    (hsub : c.relinquished ⊆ c'.relinquished) : Working c' transferID run :=
  ⟨hlease.trans h.lease, h.uncancelled, h.finishing, h.done, fun hstale =>
    ownershipErr_mono hsub (h.stale hstale)⟩

theorem Same.rfl : Same c c transferID := ⟨Eq.refl _, Eq.refl _, Eq.refl _⟩

theorem Same.trans (h : Same c c' transferID) (h' : Same c' c'' transferID) :
    Same c c'' transferID :=
  ⟨h'.lease.trans h.lease, h'.requested.trans h.requested, h'.registered.trans h.registered⟩

theorem Requested.same (h : Requested c c' transferID epoch) (h' : Same c' c'' transferID) :
    Requested c c'' transferID epoch where
  lease := h'.lease.trans h.lease
  requested := h'.requested.trans h.requested
  registered := by
    rw [h'.registered]
    exact h.registered

theorem Same.requested_of (h : Same c c' transferID) (h' : Requested c' c'' transferID epoch) :
    Requested c c'' transferID epoch where
  lease := h'.lease.trans h.lease
  requested := h'.requested
  registered := by
    rw [← h.registered, ← h.lease]
    exact h'.registered

theorem Requested.trans (h : Requested c c' transferID epoch)
    (h' : Requested c' c'' transferID epoch) :
    Requested c c'' transferID epoch := by
  have hsome : c'.registered transferID ≠ none := by
    rcases h.registered with ⟨hsome, heq⟩ | ⟨lease, r, -, -, heq⟩
    · exact heq ▸ hsome
    · rw [heq]
      exact nofun
  rcases h'.registered with ⟨-, heq⟩ | ⟨lease, r, -, hnone, -⟩
  · refine ⟨h'.lease.trans h.lease, h'.requested, ?_⟩
    rw [heq]
    exact h.registered
  · exact absurd hnone hsome

theorem registered_setRequested : (c.setRequested lease epoch).registered transferID =
    c.registered transferID := rfl

variable (c lease epoch) in
theorem request_frame : (c.request lease epoch).recoveryLeases = c.recoveryLeases ∧
    (c.request lease epoch).resumes = c.resumes ∧
      (c.request lease epoch).relinquished = c.relinquished := by
  obtain ⟨hleases, -, hresumes, hrelinquished⟩ := start_frame (c.setRequested lease epoch) lease
  exact ⟨hleases, hresumes, hrelinquished⟩

theorem request_recoveryRequested :
    (c.request lease epoch).recoveryRequested = c.recoveryRequested.set lease.transferID epoch :=
  (start_frame (c.setRequested lease epoch) lease).2.1

theorem request_same (hc : Consistent c) (h : transferID ≠ lease.transferID) (epoch : Epoch) :
    Same c (c.request lease epoch) transferID where
  lease := by rw [(request_frame _ _ _).1]
  requested := by
    rw [request_recoveryRequested]
    exact OrderedMap.get_set_of_ne _ h _
  registered := registered_start_other (c := c.setRequested lease epoch) ⟨hc.run⟩ h

theorem request_requested (hs : Sound c)
    (hlease : c.recoveryLeases.get lease.transferID = some lease) (epoch : Epoch) :
    Requested c (c.request lease epoch) lease.transferID epoch := by
  have hc : Consistent (c.setRequested lease epoch) := ⟨hs.toConsistent.run⟩
  refine ⟨?_, ?_, ?_⟩
  · rw [(request_frame _ _ _).1]
  · rw [request_recoveryRequested]
    exact OrderedMap.get_set_self _ _ _
  · have hstart := registered_start_self hc lease
    rw [registered_setRequested] at hstart
    cases hregistered : c.registered lease.transferID with
    | none =>
      rw [hregistered] at hstart
      obtain ⟨hnone, -⟩ | ⟨-, hnew⟩ := hstart
      · cases hnone
      · exact .inr ⟨lease, _, hlease, rfl, hnew⟩
    | some entry =>
      have hcurrent := (hs.loop _ entry.1 entry.2 hregistered).lease
      rw [hlease] at hcurrent
      rw [hregistered, Option.map_some] at hstart
      obtain ⟨-, hsame⟩ | ⟨hother, -⟩ := hstart
      · exact .inl ⟨nofun, hsame⟩
      · exact absurd hcurrent.symm hother

theorem Consistent.request (hc : Consistent c) : Consistent (c.request lease epoch) :=
  Consistent.start (c := c.setRequested lease epoch) ⟨hc.run⟩ lease

theorem Sound.request (hs : Sound c) (hlease : c.recoveryLeases.get lease.transferID = some lease) :
    Sound (c.request lease epoch) := by
  obtain ⟨hleases, -, hrelinquished⟩ := request_frame c lease epoch
  refine ⟨hs.toConsistent.request, hleases ▸ hs.keys, hleases ▸ hs.keyed,
    fun transferID r run hrun => ?_⟩
  have hcongr : Working c transferID run → Working (c.request lease epoch) transferID run :=
    fun h => h.congr (by rw [hleases]) (hrelinquished ▸ List.Subset.refl _)
  by_cases hid : transferID = lease.transferID
  · subst hid
    rcases (request_requested hs hlease _).registered with ⟨-, heq⟩ | ⟨lease', r', hlease', -, heq⟩
    · exact hcongr (hs.loop _ r run (heq ▸ hrun))
    · rw [heq] at hrun
      cases hrun
      exact hcongr ⟨hlease', rfl, nofun, nofun, nofun⟩
  · exact hcongr (hs.loop _ r run ((request_same hs.toConsistent hid _).registered ▸ hrun))

theorem foldl_request {leases : List Lease} (hs : Sound c) (epoch : Epoch)
    (hleases : ∀ lease ∈ leases, c.recoveryLeases.get lease.transferID = some lease) :
    Sound (leases.foldl (fun c lease => c.request lease epoch) c) ∧
      ((leases.foldl (fun c lease => c.request lease epoch) c).resumes = c.resumes ∧
        (leases.foldl (fun c lease => c.request lease epoch) c).relinquished = c.relinquished) ∧
      ∀ transferID, Same c (leases.foldl (fun c lease => c.request lease epoch) c) transferID ∨
        Requested c (leases.foldl (fun c lease => c.request lease epoch) c) transferID epoch ∧
          ∃ lease ∈ leases, lease.transferID = transferID := by
  induction leases generalizing c with
  | nil => exact ⟨hs, ⟨rfl, rfl⟩, fun _ => .inl Same.rfl⟩
  | cons lease leases ih =>
    have hlease := hleases lease (List.mem_cons_self ..)
    obtain ⟨hsame, hresumes, hrelinquished⟩ := request_frame c lease epoch
    obtain ⟨hsound, hframe, heffect⟩ := ih (hs.request hlease) fun other hother => by
      rw [hsame]
      exact hleases other (List.mem_cons_of_mem _ hother)
    rw [List.foldl_cons]
    refine ⟨hsound, ⟨hframe.1.trans hresumes, hframe.2.trans hrelinquished⟩, fun transferID => ?_⟩
    by_cases hid : transferID = lease.transferID
    · subst hid
      refine .inr ⟨?_, lease, List.mem_cons_self .., rfl⟩
      have hfirst := request_requested hs hlease epoch
      rcases heffect lease.transferID with hrest | ⟨hrest, -⟩
      · exact hfirst.same hrest
      · exact hfirst.trans hrest
    · have hfirst := request_same hs.toConsistent hid epoch
      rcases heffect transferID with hrest | ⟨hrest, other, hother, hotherid⟩
      · exact .inl (hfirst.trans hrest)
      · exact .inr ⟨hfirst.requested_of hrest, other, List.mem_cons_of_mem _ hother, hotherid⟩

theorem Sound.current_of_mem (hs : Sound c) (h : lease ∈ c.recoveryLeases.map Prod.snd) :
    c.recoveryLeases.get lease.transferID = some lease := by
  obtain ⟨entry, hentry, rfl⟩ := List.mem_map.mp h
  rw [hs.keyed entry hentry]
  exact (OrderedMap.get_eq_some hs.keys).mpr hentry

theorem mem_affected {shardID : ℕ} (h : lease ∈ c.affected shardOf shardID epoch) :
    lease ∈ c.recoveryLeases.map Prod.snd := by
  unfold affected at h
  split at h
  · cases h
  · split at h
    · cases h
    · exact List.mem_of_mem_filter h

/-- What every step keeps, besides the sound registrations: no resume is taken back, and no owner
comes back. -/
structure Keeps (shardOf : String → ℕ) (c : Control) (i : Step) (c' : Control) : Prop where
  sound : Sound c'
  resumes : c.resumes <+: c'.resumes
  relinquished : c.relinquished ⊆ c'.relinquished
  effect : ∀ transferID, Effect shardOf c i c' transferID

theorem sound_of_effect (hs : Sound c) (hc : Consistent c')
    (hkeys : (c'.recoveryLeases.map Prod.fst).Nodup)
    (hkeyed : ∀ entry ∈ c'.recoveryLeases, entry.2.transferID = entry.1)
    (hsub : c.relinquished ⊆ c'.relinquished)
    (heffect : ∀ transferID, Effect shardOf c i c' transferID) : Sound c' := by
  refine ⟨hc, hkeys, hkeyed, fun transferID r run hrun => ?_⟩
  cases heffect transferID with
  | same h => exact (hs.loop _ r run (h.registered ▸ hrun)).congr h.lease hsub
  | replaced lease hlease hrequested hregistered =>
    rw [hregistered] at hrun
    obtain ⟨hold, hsame⟩ := Option.filter_eq_some_iff.mp hrun
    have h := hs.loop _ r run hold
    refine ⟨hlease.trans (of_decide_eq_true hsame), h.uncancelled, h.finishing, h.done,
      fun hstale => ?_⟩
    exact ownershipErr_mono hsub (h.stale hstale)
  | released hlease hregistered =>
    rw [hregistered] at hrun
    cases hrun
  | requested epoch h hnew =>
    rcases h.registered with ⟨-, heq⟩ | ⟨lease, r', hlease, -, heq⟩
    · exact (hs.loop _ r run (heq ▸ hrun)).congr h.lease hsub
    · rw [heq] at hrun
      cases hrun
      exact ⟨h.lease.trans hlease, rfl, nofun, nofun, nofun⟩
  | moved r' run' phase hold hregistered hlease hrequested hlive hasked =>
    have h := hs.loop _ r' run' hold
    rw [hregistered] at hrun
    cases hrun
    exact ⟨hlease.trans h.lease, h.uncancelled, hlive.1, hlive.2.1, fun hstale =>
      ownershipErr_mono hsub (hlive.2.2 hstale)⟩
  | ended r' run' hold hphase hregistered hlease =>
    rw [hregistered] at hrun
    cases hrun

theorem Effect.trans_same (h : Effect shardOf c i c' transferID) (h' : Same c' c'' transferID)
    (hresumes : c''.resumes = c'.resumes) : Effect shardOf c i c'' transferID := by
  cases h with
  | same h => exact .same (h.trans h')
  | replaced lease hlease hrequested hregistered =>
    exact .replaced lease (h'.lease.trans hlease) (h'.requested.trans hrequested)
      (h'.registered.trans hregistered)
  | released hlease hregistered =>
      exact .released (h'.lease.trans hlease) (h'.registered.trans hregistered)
  | requested epoch h hnew => exact .requested epoch (h.same h') hnew
  | moved r run phase hold hregistered hlease hrequested hlive hasked =>
    exact .moved r run phase hold (h'.registered.trans hregistered) (h'.lease.trans hlease)
      (h'.requested.trans hrequested) hlive (hresumes ▸ hasked)
  | ended r run hold hphase hregistered hlease =>
    exact .ended r run hold hphase (h'.registered.trans hregistered) (h'.lease.trans hlease)

theorem keeps_rfl (hs : Sound c) : Keeps shardOf c i c :=
    ⟨hs, List.prefix_rfl, List.Subset.refl _, fun _ => .same Same.rfl⟩

theorem register_keeps (hs : Sound c) : Keeps shardOf c i (c.registerRecoveryLease lease) := by
  have hc : Consistent (c.putLease lease) := ⟨hs.toConsistent.run⟩
  obtain ⟨hleases, hrequested, hresumes, hrelinquished⟩ :=
    stop_frame (c.putLease lease) lease.transferID (some lease)
  have hsub : c.relinquished ⊆ (c.registerRecoveryLease lease).relinquished :=
    hrelinquished ▸ List.Subset.refl _
  have heffect : ∀ transferID, Effect shardOf c i (c.registerRecoveryLease lease) transferID := by
    intro transferID
    by_cases hid : transferID = lease.transferID
    · subst hid
      refine .replaced lease ?_ ?_ (registered_stop_self hc)
      · rw [registerRecoveryLease, hleases]
        exact OrderedMap.get_set_self _ _ _
      · rw [registerRecoveryLease, hrequested]
        rfl
    · refine .same ⟨?_, ?_, registered_stop_other hc hid⟩
      · rw [registerRecoveryLease, hleases]
        exact OrderedMap.get_set_of_ne _ hid _
      · rw [registerRecoveryLease, hrequested]
        rfl
  refine ⟨sound_of_effect hs hc.stop ?_ ?_ hsub heffect, hresumes ▸ List.prefix_rfl, hsub, heffect⟩
  · rw [registerRecoveryLease, hleases]
    exact OrderedMap.nodup_set hs.keys _ _
  · rw [registerRecoveryLease, hleases]
    intro entry hentry
    rcases OrderedMap.mem_set hentry with rfl | hentry
    · rfl
    · exact hs.keyed entry hentry

theorem release_keeps (hs : Sound c) {expected : Option Lease} :
    Keeps shardOf c i (c.releaseLease transferID expected) := by
  unfold releaseLease
  split
  · exact keeps_rfl hs
  · have hc : Consistent (c.dropLease transferID) := ⟨hs.toConsistent.run⟩
    obtain ⟨hleases, hrequested, hresumes, hrelinquished⟩ :=
      stop_frame (c.dropLease transferID) transferID none
    have heffect : ∀ other,
        Effect shardOf c i
          ((c.dropLease transferID).stopRecoveryRunLocked transferID none) other := by
      intro other
      by_cases hid : other = transferID
      · subst hid
        refine .released ?_ ?_
        · rw [hleases]
          exact OrderedMap.get_delete_self _ _
        · rw [registered_stop_self hc, Option.filter_eq_none_iff]
          intro _ _ h
          cases of_decide_eq_true h
      · refine .same ⟨?_, ?_, registered_stop_other hc hid⟩
        · rw [hleases]
          exact OrderedMap.get_delete_of_ne _ hid
        · rw [hrequested]
          exact OrderedMap.get_delete_of_ne _ hid
    have hsub : c.relinquished ⊆
        ((c.dropLease transferID).stopRecoveryRunLocked transferID none).relinquished :=
      hrelinquished ▸ List.Subset.refl _
    refine ⟨sound_of_effect hs hc.stop ?_ ?_ hsub heffect, hresumes ▸ List.prefix_rfl,
      hsub, heffect⟩
    · rw [hleases]
      exact hs.keys.sublist (List.filter_sublist.map _)
    · rw [hleases]
      exact fun entry hentry => hs.keyed entry (List.mem_filter.mp hentry).1

theorem continue_keeps (hs : Sound c) {id : String} :
    Keeps shardOf c (.continueRecoveryLease lease id)
      (c.continueRecoveryLease shardOf lease id) := by
  unfold continueRecoveryLease
  split
  · rename_i hcurrent
    obtain ⟨-, hresumes, hrelinquished⟩ :=
      request_frame c lease (c.continuedEpoch shardOf lease id)
    refine ⟨hs.request hcurrent, hresumes ▸ List.prefix_rfl, hrelinquished ▸ List.Subset.refl _,
      fun transferID => ?_⟩
    by_cases hid : transferID = lease.transferID
    · subst hid
      exact .requested _ (request_requested hs hcurrent _) (.inr ⟨rfl, hcurrent, rfl⟩)
    · exact .same (request_same hs.toConsistent hid _)
  · exact keeps_rfl hs

theorem observe_keeps (hs : Sound c) {shardID : ℕ} {runtimeEpoch transportEpoch : Option String} :
    Keeps shardOf c (.observeRuntimeEpochs shardID runtimeEpoch transportEpoch)
      (c.observeRuntimeEpochs shardOf shardID runtimeEpoch transportEpoch) := by
  unfold observeRuntimeEpochs
  split
  · rename_i runtimeEpoch transportEpoch
    split
    · exact keeps_rfl hs
    · have hs' : Sound (c.setRuntimeEpoch shardID (runtimeEpoch, transportEpoch)) :=
        ⟨⟨hs.toConsistent.run⟩, hs.keys, hs.keyed, fun _ r run hrun =>
          (hs.loop _ r run hrun).congr rfl (List.Subset.refl _)⟩
      obtain ⟨hsound, ⟨hresumes, hrelinquished⟩, heffect⟩ :=
        foldl_request hs' (runtimeEpoch, transportEpoch) fun lease hlease =>
          hs.current_of_mem (mem_affected hlease)
      refine ⟨hsound, hresumes ▸ List.prefix_rfl, hrelinquished ▸ List.Subset.refl _,
        fun transferID => ?_⟩
      rcases heffect transferID with hsame | ⟨hrequested, lease, hlease, hid⟩
      · exact .same ⟨hsame.lease, hsame.requested, hsame.registered⟩
      · refine .requested (runtimeEpoch, transportEpoch)
          ⟨hrequested.lease, hrequested.requested, hrequested.registered⟩ ?_
        by_cases hnewest : c.recoveryRequested.get transferID = some (runtimeEpoch, transportEpoch)
        · exact .inl hnewest
        · exact .inr ⟨rfl, hnewest, lease, hlease, hid⟩
  · exact keeps_rfl hs

theorem phase_keeps (hs : Sound c) (hrun : c.runs[r]? = some run) {phase : Phase}
    {sent : List Resume}
    (hlive : c.registered run.lease.transferID = some (r, run) →
      phase ≠ .finishing ∧ phase ≠ .done ∧ (phase = .stale → c.ownershipErr run.lease = true))
    (hasked : phase.asked = none ∨ phase.asked = run.phase.asked ∨
      ∃ generationID, sent = [⟨run.lease, generationID⟩]) :
    Keeps shardOf c i { c.setPhase r phase with resumes := c.resumes ++ sent } := by
  have heffect : ∀ transferID,
      Effect shardOf c i { c.setPhase r phase with resumes := c.resumes ++ sent } transferID := by
    intro transferID
    have hregistered : Control.registered { c.setPhase r phase with resumes := c.resumes ++ sent }
        transferID =
        (c.registered transferID).map fun entry =>
          (entry.1, if entry.1 = r then { entry.2 with phase := phase } else entry.2) := by
      rw [← registered_setPhase]
      rfl
    cases hold : c.registered transferID with
    | none =>
      rw [hold] at hregistered
      exact .same ⟨rfl, rfl, hregistered.trans hold.symm⟩
    | some entry =>
      obtain ⟨r', run'⟩ := entry
      rw [hold] at hregistered
      by_cases hr : r' = r
      · subst hr
        obtain rfl : run = run' := Option.some.inj (hrun.symm.trans (registered_eq.mp hold).2)
        rw [Option.map_some, if_pos rfl] at hregistered
        have hid := hs.lease_transferID hold
        refine .moved r' run phase hold hregistered rfl rfl (hlive (hid ▸ hold)) ?_
        exact hasked.imp_right (Or.imp_right fun ⟨generationID, hsent⟩ =>
          ⟨generationID, by rw [hsent]⟩)
      · rw [Option.map_some, if_neg hr] at hregistered
        exact .same ⟨rfl, rfl, hregistered.trans hold.symm⟩
  have hc : Consistent { c.setPhase r phase with resumes := c.resumes ++ sent } :=
    ⟨(hs.toConsistent.setPhase r phase).run⟩
  exact ⟨sound_of_effect hs hc hs.keys hs.keyed (List.Subset.refl _) heffect, List.prefix_append ..,
    List.Subset.refl _,
    heffect⟩

theorem setPhase_keeps (hs : Sound c) (hrun : c.runs[r]? = some run) {phase : Phase}
    (hlive : c.registered run.lease.transferID = some (r, run) →
      phase ≠ .finishing ∧ phase ≠ .done ∧ (phase = .stale → c.ownershipErr run.lease = true))
    (hasked : phase.asked = none ∨ phase.asked = run.phase.asked) :
      Keeps shardOf c i (c.setPhase r phase) := by
  have h : Keeps shardOf c i { c.setPhase r phase with resumes := c.resumes ++ [] } :=
    phase_keeps hs hrun hlive (hasked.imp_right .inl)
  rwa [List.append_nil] at h

theorem failed_keeps (hs : Sound c) (hrun : c.runs[r]? = some run) (error : LifecycleError) :
    Keeps shardOf c i (c.setPhase r (failed run error)) := by
  refine setPhase_keeps hs hrun (fun hregistered => ?_) (.inl ?_)
  · have hcancelled := (hs.loop _ r run hregistered).uncancelled
    unfold failed
    rw [hcancelled, if_neg Bool.false_ne_true]
    split <;> exact ⟨nofun, nofun, nofun⟩
  · unfold failed
    split
    · rfl
    · split <;> rfl

theorem same_of_unregistered (hs : Sound c) (hrun : c.runs[r]? = some run)
    (h : c.recoveryRunning.get run.lease.transferID ≠ some r) (transferID : String) :
    c.recoveryRunning.get transferID ≠ some r := by
  intro hr
  obtain ⟨run', hrun', hid⟩ := hs.run transferID r hr
  obtain rfl : run = run' := Option.some.inj (hrun.symm.trans hrun')
  exact h (hid ▸ hr)

theorem fenced_of_not_current (hs : Sound c)
    (hregistered : c.registered run.lease.transferID = some (r, run))
    (h : ¬ c.recoveryRunCurrent r run) : c.ownershipErr run.lease = true := by
  have hworking := hs.loop _ r run hregistered
  by_contra hfenced
  exact h ⟨(registered_eq.mp hregistered).1, hworking.lease, hworking.uncancelled,
    Bool.eq_false_iff.mpr hfenced⟩

theorem settle_keeps (hs : Sound c) (hrun : c.runs[r]? = some run) {epoch : Option Epoch}
    (hphase : run.phase = .settle epoch) : Keeps shardOf c i (c.settle r run epoch) := by
  unfold settle
  split
  · rename_i hother
    exact setPhase_keeps hs hrun (fun hregistered => absurd (registered_eq.mp hregistered).1 hother)
      (.inl rfl)
  · rename_i hr
    rw [not_not] at hr
    split
    · exact setPhase_keeps hs hrun (fun _ => by simp) (.inl rfl)
    · rename_i hnewest
      rw [not_not] at hnewest
      have hold : c.registered run.lease.transferID = some (r, run) := registered_eq.mpr ⟨hr, hrun⟩
      have heffect : ∀ transferID, Effect shardOf c i { c.setPhase r .finishing with
          recoveryRunning := c.recoveryRunning.delete run.lease.transferID } transferID := by
        intro transferID
        by_cases hid : transferID = run.lease.transferID
        · subst hid
          refine .ended r run hold (hphase.trans (congrArg Phase.settle hnewest.symm)) ?_ rfl
          rw [registered, OrderedMap.get_delete_self, Option.bind_none]
        · have hne : c.recoveryRunning.get transferID ≠ some r :=
            fun hother => hid (hs.unique hr hother)
          refine .same ⟨rfl, rfl, ?_⟩
          rw [registered, registered, OrderedMap.get_delete_of_ne _ hid]
          cases hget : c.recoveryRunning.get transferID with
          | none => rfl
          | some r' =>
            have hr' : r' ≠ r := fun heq => hne (heq ▸ hget)
            simp only [Option.bind_some, runs_setPhase, if_neg hr', Option.map_id']
      have hc : Consistent { c.setPhase r .finishing with
          recoveryRunning := c.recoveryRunning.delete run.lease.transferID } := by
        refine ⟨fun transferID r' h => ?_⟩
        by_cases hid : transferID = run.lease.transferID
        · subst hid
          rw [OrderedMap.get_delete_self] at h
          cases h
        · rw [OrderedMap.get_delete_of_ne _ hid] at h
          exact (hs.toConsistent.setPhase r .finishing).run transferID r' h
      exact ⟨sound_of_effect hs hc hs.keys hs.keyed (List.Subset.refl _) heffect, List.prefix_rfl,
        List.Subset.refl _,
        heffect⟩

theorem finish_keeps (hs : Sound c) (hrun : c.runs[r]? = some run)
    (hphase : run.phase = .finishing) :
    Keeps shardOf c i (c.finish r run) := by
  have hother : c.recoveryRunning.get run.lease.transferID ≠ some r := fun hr =>
    (hs.loop _ r run (registered_eq.mpr ⟨hr, hrun⟩)).finishing hphase
  have hsame : ∀ transferID, Same c ((c.cancelRun r).setPhase r .done) transferID := by
    intro transferID
    have hne := same_of_unregistered hs hrun hother transferID
    refine ⟨rfl, rfl, ?_⟩
    rw [registered_setPhase, registered_cancelRun hne]
    cases hold : c.registered transferID with
    | none => rfl
    | some entry =>
      have hr : entry.1 ≠ r := fun heq => hne (heq ▸ (registered_eq.mp hold).1)
      rw [Option.map_some, if_neg hr]
  have hc : Consistent ((c.cancelRun r).setPhase r .done) :=
    (hs.toConsistent.cancelRun r).setPhase r .done
  unfold finish
  rw [if_neg hother]
  have heffect : ∀ transferID, Effect shardOf c i ((c.cancelRun r).setPhase r .done) transferID :=
    fun _ => .same (hsame _)
  exact ⟨sound_of_effect hs hc hs.keys hs.keyed (List.Subset.refl _) heffect, List.prefix_rfl,
    List.Subset.refl _, heffect⟩

theorem releasing_keeps (hs : Sound c) (hrun : c.runs[r]? = some run) :
    Keeps shardOf c i ((c.releaseOwnedRecoveryLease run.lease).setPhase r .finishing) := by
  have hreleased : Keeps shardOf c i (c.releaseOwnedRecoveryLease run.lease) := release_keeps hs
  have hrun' : ∃ run', (c.releaseOwnedRecoveryLease run.lease).runs[r]? = some run' ∧
      run'.lease = run.lease := by
    unfold releaseOwnedRecoveryLease releaseLease
    split
    · exact ⟨run, hrun, rfl⟩
    · unfold stopRecoveryRunLocked
      split
      · exact ⟨run, hrun, rfl⟩
      · split
        · exact ⟨run, hrun, rfl⟩
        · rw [runs_cancelRun]
          refine ⟨_, congrArg (Option.map _) hrun, ?_⟩
          split <;> rfl
  obtain ⟨run', hrun', hlease⟩ := hrun'
  have hunregistered : (c.releaseOwnedRecoveryLease run.lease).registered run'.lease.transferID ≠
      some (r, run') := by
    intro hregistered
    have hcurrent := (hreleased.sound.loop _ r run' hregistered).lease
    rw [hlease] at hcurrent
    unfold releaseOwnedRecoveryLease releaseLease at hcurrent
    split at hcurrent
    · rename_i hnot
      exact hnot.2 hcurrent
    · rw [(stop_frame _ _ _).1] at hcurrent
      rw [show ((c.dropLease run.lease.transferID).recoveryLeases).get run.lease.transferID =
        none from
        OrderedMap.get_delete_self _ _] at hcurrent
      cases hcurrent
  have hphase : Keeps shardOf (c.releaseOwnedRecoveryLease run.lease) i
      ((c.releaseOwnedRecoveryLease run.lease).setPhase r .finishing) :=
    setPhase_keeps hreleased.sound hrun' (fun hregistered =>
      absurd hregistered hunregistered) (.inl rfl)
  refine ⟨hphase.sound, hreleased.resumes, hreleased.relinquished, fun transferID => ?_⟩
  refine (hreleased.effect transferID).trans_same ⟨rfl, rfl, ?_⟩ rfl
  rw [registered_setPhase]
  cases hold : (c.releaseOwnedRecoveryLease run.lease).registered transferID with
  | none => rfl
  | some entry =>
    have hr : entry.1 ≠ r := by
      rintro rfl
      obtain ⟨hget, hentry⟩ := registered_eq.mp (show _ = some (entry.1, entry.2) from hold)
      obtain rfl : run' = entry.2 := Option.some.inj (hrun'.symm.trans hentry)
      have hid := hreleased.sound.lease_transferID hold
      exact hunregistered (hid ▸ hold)
    rw [Option.map_some, if_neg hr]

theorem recoverTransfer_keeps (hs : Sound c) (hrun : c.runs[r]? = some run) {input : Input}
    (h : c.recoverTransfer r run input = some c') : Keeps shardOf c i c' := by
  have hstale : ¬ c.recoveryRunCurrent r run →
      Keeps shardOf c i (c.setPhase r .stale) := fun hnot =>
    setPhase_keeps hs hrun (fun hregistered => by simp [fenced_of_not_current hs hregistered hnot])
      (.inl rfl)
  have hgo : ∀ {phase : Phase}, phase ≠ .finishing ∧ phase ≠ .done ∧ phase ≠ .stale →
      (phase.asked = none ∨ phase.asked = run.phase.asked) →
        Keeps shardOf c i (c.setPhase r phase) :=
    fun hlive hasked =>
      setPhase_keeps hs hrun
        (fun _ => ⟨hlive.1, hlive.2.1, fun hstale => absurd hstale hlive.2.2⟩) hasked
  unfold recoverTransfer at h
  split at h
  · -- at the top of the loop
    split at h
    · cases h
      exact hgo (by simp) (.inl rfl)
    · rename_i hnot
      cases h
      exact hstale hnot
  · -- the request goes out, or fails before it does
    cases h
    exact phase_keeps hs hrun (fun _ => by simp) (.inr (.inr ⟨_, rfl⟩))
  · cases h
    exact failed_keeps hs hrun _
  · -- its answer
    rename_i answer hphase
    cases h
    cases answer with
    | error error => exact failed_keeps hs hrun error
    | ok result =>
      unfold answered
      dsimp only
      split
      · exact hgo (by simp) (.inl rfl)
      · split
        · exact hgo (by simp) (.inr (hphase ▸ rfl))
        · exact hgo (by simp) (.inr (hphase ▸ rfl))
  · -- before the replay, and after it
    rename_i hphase
    split at h
    · cases h
      exact hgo (by simp) (.inr (hphase ▸ rfl))
    · rename_i hnot
      cases h
      exact hstale hnot
  · cases h
    exact failed_keeps hs hrun _
  · rename_i hphase
    cases h
    exact hgo (by simp) (.inr (hphase ▸ rfl))
  · -- the attempt succeeded
    rename_i hphase
    cases h
    exact settle_keeps hs hrun hphase
  · -- the end of a wait, by its timer or by the loop's own end
    cases h
    exact hgo (by simp) (.inl rfl)
  · split at h
    · rename_i hcancelled
      cases h
      refine setPhase_keeps hs hrun (fun hregistered => ?_) (.inl rfl)
      rw [(hs.loop _ r run hregistered).uncancelled] at hcancelled
      cases hcancelled
    · cases h
  · -- what a loop does that is not current any more
    rename_i hphase
    cases h
    refine setPhase_keeps hs hrun (fun hregistered => ?_) (.inl ?_)
    · rw [if_pos ((hs.loop _ r run hregistered).stale hphase)]
      simp
    · split <;> rfl
  · cases h
    exact releasing_keeps hs hrun
  · rename_i hphase
    cases h
    exact finish_keeps hs hrun hphase
  · cases h

theorem step_keeps (hs : Sound c) (h : c.step shardOf i = some c') : Keeps shardOf c i c' := by
  cases i with
  | registerRecoveryLease lease =>
    cases h
    exact register_keeps hs
  | releaseLease transferID expected =>
    cases h
    exact release_keeps hs
  | continueRecoveryLease lease id =>
    cases h
    exact continue_keeps hs
  | observeRuntimeEpochs shardID runtimeEpoch transportEpoch =>
    cases h
    exact observe_keeps hs
  | recoverTransfer r input =>
    obtain ⟨run, hrun, h⟩ := Option.bind_eq_some_iff.mp h
    exact recoverTransfer_keeps hs hrun h
  | dispose k =>
    simp only [step, dispose] at h
    split at h
    · cases h
    · cases h
      exact ⟨⟨⟨hs.toConsistent.run⟩, hs.keys, hs.keyed, fun _ r run hrun =>
        (hs.loop _ r run hrun).congr rfl (List.Subset.refl _)⟩,
        List.prefix_rfl, List.Subset.refl _, fun _ => .same ⟨rfl, rfl, rfl⟩⟩
  | relinquish ownership =>
    cases h
    have hsub : c.relinquished ⊆ ownership :: c.relinquished := List.subset_cons_self ..
    exact ⟨⟨⟨hs.toConsistent.run⟩, hs.keys, hs.keyed, fun _ r run hrun =>
      (hs.loop _ r run hrun).congr rfl hsub⟩,
      List.prefix_rfl, hsub, fun _ => .same ⟨rfl, rfl, rfl⟩⟩

def Waiting (c : Control) (lease : Lease) : Prop :=
  ∃ r run, c.registered lease.transferID = some (r, run) ∧ run.lease = lease ∧
    ∀ epoch, run.phase.asked = some epoch → c.recoveryRequested.get lease.transferID ≠ epoch

/-- A resume was sent for the lease after the first `k`. -/
def Served (c : Control) (lease : Lease) (k : ℕ) : Prop :=
    ∃ resume ∈ c.resumes.drop k, resume.lease = lease

structure Pending (lease : Lease) (k : ℕ) (c : Control) : Prop where
  sound : Sound c
  sent : k ≤ c.resumes.length
  pending : Served c lease k ∨ Waiting c lease

theorem step_pending {k : ℕ} (hp : Pending lease k c) (h : c.step shardOf i = some c')
    (hcurrent : c'.current lease)
    (hgood : ¬ Coalesces shardOf c i) : Pending lease k c' := by
  have hkeeps := step_keeps hp.sound h
  refine ⟨hkeeps.sound, Nat.le_trans hp.sent hkeeps.resumes.length_le, ?_⟩
  rcases hp.pending with ⟨resume, hresume, hlease⟩ | ⟨r, run, hold, hlease, hnewer⟩
  · obtain ⟨sent, hsent⟩ := hkeeps.resumes
    refine .inl ⟨resume, ?_, hlease⟩
    rw [← hsent, List.drop_append_of_le_length hp.sent]
    exact List.mem_append_left _ hresume
  · cases hkeeps.effect lease.transferID with
    | same hsame =>
      refine .inr ⟨r, run, hsame.registered.trans hold, hlease, fun epoch hasked => ?_⟩
      rw [hsame.requested]
      exact hnewer epoch hasked
    | replaced lease' hlease' hrequested hregistered =>
      obtain rfl : lease = lease' := Option.some.inj (hcurrent.symm.trans hlease')
      refine .inr ⟨r, run, ?_, hlease, fun epoch hasked => ?_⟩
      · rw [hregistered, hold, Option.filter_some, hlease, decide_eq_true rfl, if_pos rfl]
      · rw [hrequested]
        exact hnewer epoch hasked
    | released hnone hregistered => exact absurd (hcurrent.symm.trans hnone) nofun
    | requested epoch hrequested hnew =>
      obtain ⟨-, hregistered⟩ | ⟨lease', r', -, hnone, -⟩ := hrequested.registered
      · refine .inr ⟨r, run, hregistered.trans hold, hlease, fun started hasked => ?_⟩
        rw [hrequested.requested]
        rcases hnew with hnewest | hrequests
        · exact hnewest ▸ hnewer started hasked
        · rintro rfl
          exact hgood ⟨_, r, run, epoch, hold, hasked, hrequests⟩
      · rw [hold] at hnone
        cases hnone
    | moved r' run' phase hold' hregistered _ hrequested hlive hasked =>
      rw [hold] at hold'
      cases hold'
      rcases hasked with hnone | hsame | ⟨generationID, hsent⟩
      · refine .inr ⟨r, _, hregistered, hlease, fun epoch hasked => ?_⟩
        rw [hnone] at hasked
        cases hasked
      · refine .inr ⟨r, _, hregistered, hlease, fun epoch hasked => ?_⟩
        rw [hrequested]
        exact hnewer epoch (hsame ▸ hasked)
      · refine .inl ⟨⟨run.lease, generationID⟩, ?_, hlease⟩
        rw [hsent, List.drop_append_of_le_length hp.sent]
        exact List.mem_append_right _ (List.mem_singleton_self _)
    | ended r' run' hold' hphase hregistered _ =>
      rw [hold] at hold'
      cases hold'
      exact absurd rfl (hnewer _ (hphase ▸ rfl))

theorem continue_waiting {id : String} (hs : Sound c) (hcurrent : c.current lease)
    (hgood : ¬ Coalesces shardOf c (.continueRecoveryLease lease id)) :
    Waiting (c.continueRecoveryLease shardOf lease id) lease := by
  have hrequested := request_requested hs hcurrent (c.continuedEpoch shardOf lease id)
  rw [continueRecoveryLease, if_pos hcurrent]
  rcases hrequested.registered with ⟨hsome, hsame⟩ | ⟨lease', r, hlease', -, hnew⟩
  · obtain ⟨⟨r, run⟩, hold⟩ := Option.ne_none_iff_exists'.mp hsome
    have hlease : run.lease = lease :=
      Option.some.inj ((hs.loop _ r run hold).lease.symm.trans hcurrent)
    refine ⟨r, run, hsame.trans hold, hlease, fun started hasked => ?_⟩
    rw [hrequested.requested]
    rintro rfl
    exact hgood ⟨_, r, run, _, hold, hasked, rfl, hcurrent, rfl⟩
  · obtain rfl : lease' = lease := Option.some.inj (hlease'.symm.trans hcurrent)
    exact ⟨r, _, hnew, rfl, nofun⟩

theorem start_sound : Sound Control.start := ⟨⟨nofun⟩, List.nodup_nil, nofun, nofun⟩

theorem reachable_sound {is : List Step}
    (h : Run.after (step shardOf) Control.start is = some c) : Sound c :=
  Run.after_invariant (fun _ _ _ hs h => (step_keeps hs h).sound) start_sound h

/-- In a run where no step names an epoch that a loop on its way started from: once recovery is
asked for a current lease, and as long as that lease is current, a resume was sent for it or its
loop is still registered. -/
theorem go_continue_resumes {earlier later : List Step} {u w : Control} {id : String}
    (hu : Run.after (step shardOf) Control.start earlier = some u) (hcurrent : u.current lease)
    (hw : Run.after (step shardOf) (u.continueRecoveryLease shardOf lease id) later = some w)
    (hnever : Run.Never (step shardOf) Control.start
      (earlier ++ .continueRecoveryLease lease id :: later)
      (Coalesces shardOf))
    (hstill : Run.Always (step shardOf) (u.continueRecoveryLease shardOf lease id) later
      (current · lease))
    (hnone : w.recoveryRunning.get lease.transferID = none) :
    ∃ resume ∈ w.resumes.drop u.resumes.length, resume.lease = lease := by
  have hsound := reachable_sound hu
  have hgood : ¬ Coalesces shardOf u (.continueRecoveryLease lease id) :=
    hnever earlier _ later u rfl hu
  have hcall : Run.after (step shardOf) Control.start
      (earlier ++ [.continueRecoveryLease lease id]) =
      some (u.continueRecoveryLease shardOf lease id) := Run.after_snoc.mpr ⟨u, hu, rfl⟩
  have hkeeps : Keeps shardOf u (.continueRecoveryLease lease id)
      (u.continueRecoveryLease shardOf lease id) :=
    continue_keeps hsound
  have hstart : Pending lease u.resumes.length (u.continueRecoveryLease shardOf lease id) :=
    ⟨hkeeps.sound, hkeeps.resumes.length_le, .inr (continue_waiting hsound hcurrent hgood)⟩
  have hlater : Run.Never (step shardOf) (u.continueRecoveryLease shardOf lease id) later
      (Coalesces shardOf) := by
    rw [List.append_cons] at hnever
    exact hnever.of_append hcall
  have hpending :=
    Run.invariant_along (fun _ _ _ hp h hcurrent hgood =>
      step_pending hp h hcurrent hgood) hstart hw
    hstill hlater
  rcases hpending.pending with hserved | ⟨r, run, hregistered, -, -⟩
  · exact hserved
  · rw [(registered_eq.mp hregistered).1] at hnone
    cases hnone

def sampleLease : Lease := ⟨0, "transfer", "fingerprint", "checksum", none⟩

def sampleShard : String → ℕ := fun _ => 0

def sampleAsked : List Step :=
  [.registerRecoveryLease sampleLease, .observeRuntimeEpochs 0 (some "runtime") (some "transport"),
    .continueRecoveryLease sampleLease "first", .recoverTransfer 0 .proceed,
      .recoverTransfer 0 (.send "generation")]

def sampleSettled : List Step :=
  [.recoverTransfer 0 (.resumed (.ok ⟨"reconciling", false⟩)), .recoverTransfer 0 .proceed]

/-- Nothing was sent after the second call. -/
theorem sample_go_forgotten : ∃ u w, Run.after (step sampleShard) Control.start sampleAsked =
    some u ∧ u.current sampleLease ∧
    Run.after (step sampleShard)
      (u.continueRecoveryLease sampleShard sampleLease "second") sampleSettled = some w ∧
    Run.Always (step sampleShard)
      (u.continueRecoveryLease sampleShard sampleLease "second") sampleSettled
      (current · sampleLease) ∧
    w.recoveryRunning.get sampleLease.transferID = none ∧
    ¬ ∃ resume ∈ w.resumes.drop u.resumes.length, resume.lease = sampleLease := by
  exact ⟨_, _, rfl, by decide, rfl, Run.always_of_check (by decide), by decide, by decide⟩

def mayCoalesce (c : Control) : Step → Prop
  | .continueRecoveryLease _ _ | .observeRuntimeEpochs _ _ _ => c.recoveryRunning ≠ []
  | _ => False

instance (c : Control) : (i : Step) → Decidable (mayCoalesce c i)
  | .continueRecoveryLease _ _ | .observeRuntimeEpochs _ _ _ =>
      inferInstanceAs (Decidable (c.recoveryRunning ≠ []))
  | .registerRecoveryLease _ | .releaseLease _ _ | .recoverTransfer _ _ | .dispose _ |
      .relinquish _ =>
    inferInstanceAs (Decidable False)

theorem mayCoalesce_of_coalesces (h : Coalesces shardOf c i) : mayCoalesce c i := by
  obtain ⟨transferID, r, run, epoch, hregistered, -, hrequests⟩ := h
  have hrunning : c.recoveryRunning ≠ [] := by
    intro hempty
    have hget := (registered_eq.mp hregistered).1
    rw [hempty] at hget
    cases hget
  cases i with
  | continueRecoveryLease lease id => exact hrunning
  | observeRuntimeEpochs shardID runtimeEpoch transportEpoch => exact hrunning
  | registerRecoveryLease lease => exact hrequests
  | releaseLease transferID expected => exact hrequests
  | recoverTransfer r input => exact hrequests
  | dispose k => exact hrequests
  | relinquish ownership => exact hrequests

def sampleLoop : List Step :=
  [.recoverTransfer 0 .proceed, .recoverTransfer 0 (.send "generation"),
    .recoverTransfer 0 (.resumed (.ok ⟨"reconciling", false⟩)), .recoverTransfer 0 .proceed]

theorem sample_go_resumes : ∃ u w,
    Run.after (step sampleShard) Control.start [.registerRecoveryLease sampleLease] = some u ∧
    Run.after (step sampleShard)
      (u.continueRecoveryLease sampleShard sampleLease "first") sampleLoop = some w ∧
    ∃ resume ∈ w.resumes.drop u.resumes.length, resume.lease = sampleLease := by
  have hnever : Run.Never (step sampleShard) Control.start
      ([.registerRecoveryLease sampleLease] ++ .continueRecoveryLease sampleLease "first" ::
        sampleLoop) mayCoalesce :=
    Run.never_of_check (by decide)
  have hu : Run.after (step sampleShard) Control.start [.registerRecoveryLease sampleLease] =
      some (Control.start.registerRecoveryLease sampleLease) := rfl
  obtain ⟨w, hw, hnone⟩ : ∃ w, Run.after (step sampleShard)
      ((Control.start.registerRecoveryLease sampleLease)
      |>.continueRecoveryLease sampleShard sampleLease "first") sampleLoop = some w ∧
        w.recoveryRunning.get sampleLease.transferID = none := ⟨_, rfl, by decide⟩
  refine ⟨_, w, hu, hw, go_continue_resumes hu (by decide) hw ?_
    (Run.always_of_check (by decide)) hnone⟩
  exact hnever.mono fun _ _ h => mayCoalesce_of_coalesces h

end Control
end Beam.Go
