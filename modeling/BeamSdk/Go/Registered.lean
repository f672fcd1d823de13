import BeamSdk.Go.Recovery

/-! The loop that is registered for a transfer, as each operation under `recoveryMu` leaves it. -/

namespace Beam.Go.Control
variable {shardOf : String → ℕ} {c : Control} {lease keep : Lease} {transferID other : String}
    {r : ℕ} {run : RecoveryRun}

def registered (c : Control) (transferID : String) : Option (ℕ × RecoveryRun) :=
  (c.recoveryRunning.get transferID).bind fun r => (c.runs[r]?).map fun run => (r, run)

theorem registered_eq : c.registered transferID = some (r, run) ↔
    c.recoveryRunning.get transferID = some r ∧ c.runs[r]? = some run := by
  simp only [registered, Option.bind_eq_some_iff, Option.map_eq_some_iff, Prod.mk.injEq]
  constructor
  · rintro ⟨r', hr', run', hrun', rfl, rfl⟩
    exact ⟨hr', hrun'⟩
  · rintro ⟨hr, hrun⟩
    exact ⟨r, hr, run, hrun, rfl, rfl⟩

structure Consistent (c : Control) : Prop where
  run : ∀ transferID r, c.recoveryRunning.get transferID = some r →
    ∃ run, c.runs[r]? = some run ∧ run.lease.transferID = transferID

theorem Consistent.registered (hc : Consistent c) (h : c.recoveryRunning.get transferID = some r) :
    ∃ run, c.registered transferID = some (r, run) ∧ run.lease.transferID = transferID := by
  obtain ⟨run, hrun, hid⟩ := hc.run transferID r h
  exact ⟨run, registered_eq.mpr ⟨h, hrun⟩, hid⟩

theorem Consistent.registered_none (hc : Consistent c) :
    c.registered transferID = none ↔ c.recoveryRunning.get transferID = none := by
  constructor
  · intro h
    cases hget : c.recoveryRunning.get transferID with
    | none => rfl
    | some r =>
      obtain ⟨run, hrun, -⟩ := hc.registered hget
      rw [h] at hrun
      cases hrun
  · intro h
    rw [Control.registered, h, Option.bind_none]

theorem Consistent.lease_transferID (hc : Consistent c)
    (h : c.registered transferID = some (r, run)) :
    run.lease.transferID = transferID := by
  obtain ⟨hr, hrun⟩ := registered_eq.mp h
  obtain ⟨run', hrun', hid⟩ := hc.run transferID r hr
  rw [hrun] at hrun'
  cases hrun'
  exact hid

theorem Consistent.unique (hc : Consistent c) (h : c.recoveryRunning.get transferID = some r)
    (hother : c.recoveryRunning.get other = some r) : other = transferID := by
  obtain ⟨run, hrun, hid⟩ := hc.run transferID r h
  obtain ⟨run', hrun', hid'⟩ := hc.run other r hother
  rw [hrun] at hrun'
  cases hrun'
  exact hid'.symm.trans hid

theorem runs_cancelRun (r' : ℕ) : (c.cancelRun r).runs[r']? =
    (c.runs[r']?).map fun run => if r' = r then { run with cancelled := true } else run := by
  rw [cancelRun, List.getElem?_modify]
  by_cases h : r = r'
  · simp [h]
  · simp [h, Ne.symm h]

theorem runs_setPhase (phase : Phase) (r' : ℕ) : (c.setPhase r phase).runs[r']? =
    (c.runs[r']?).map fun run => if r' = r then { run with phase := phase } else run := by
  rw [setPhase, List.getElem?_modify]
  by_cases h : r = r'
  · simp [h]
  · simp [h, Ne.symm h]

theorem Consistent.cancelRun (hc : Consistent c) (r : ℕ) : Consistent (c.cancelRun r) where
  run transferID r' h := by
    obtain ⟨run, hrun, hid⟩ := hc.run transferID r' h
    rw [runs_cancelRun, hrun]
    refine ⟨_, rfl, ?_⟩
    split <;> exact hid

theorem Consistent.setPhase (hc : Consistent c) (r : ℕ) (phase : Phase) :
    Consistent (c.setPhase r phase) where
  run transferID r' h := by
    obtain ⟨run, hrun, hid⟩ := hc.run transferID r' h
    rw [runs_setPhase, hrun]
    refine ⟨_, rfl, ?_⟩
    split <;> exact hid

theorem registered_cancelRun (h : c.recoveryRunning.get transferID ≠ some r) :
    (c.cancelRun r).registered transferID = c.registered transferID := by
  show (c.recoveryRunning.get transferID).bind _ = (c.recoveryRunning.get transferID).bind _
  cases hget : c.recoveryRunning.get transferID with
  | none => rfl
  | some r' =>
    have hne : r' ≠ r := fun heq => h (heq ▸ hget)
    simp only [Option.bind_some, runs_cancelRun, if_neg hne, Option.map_id']

theorem registered_setPhase (phase : Phase) : (c.setPhase r phase).registered transferID =
    (c.registered transferID).map fun entry =>
      (entry.1, if entry.1 = r then { entry.2 with phase := phase } else entry.2) := by
  show (c.recoveryRunning.get transferID).bind _ = ((c.recoveryRunning.get transferID).bind _).map _
  cases hget : c.recoveryRunning.get transferID with
  | none => rfl
  | some r' => simp only [Option.bind_some, runs_setPhase, Option.map_map, Function.comp_def]

section Stop
variable {kept : Option Lease}

variable (c transferID kept) in
theorem stop_frame : (c.stopRecoveryRunLocked transferID kept).recoveryLeases = c.recoveryLeases ∧
    (c.stopRecoveryRunLocked transferID kept).recoveryRequested = c.recoveryRequested ∧
    (c.stopRecoveryRunLocked transferID kept).resumes = c.resumes ∧
    (c.stopRecoveryRunLocked transferID kept).relinquished = c.relinquished := by
  unfold stopRecoveryRunLocked
  split
  · exact ⟨rfl, rfl, rfl, rfl⟩
  · split <;> exact ⟨rfl, rfl, rfl, rfl⟩

theorem Consistent.stop (hc : Consistent c) :
    Consistent (c.stopRecoveryRunLocked transferID kept) := by
  unfold stopRecoveryRunLocked
  split
  · exact hc
  · split
    · exact hc
    · refine ⟨fun other r h => ?_⟩
      by_cases hid : other = transferID
      · subst hid
        rw [OrderedMap.get_delete_self] at h
        cases h
      · rw [OrderedMap.get_delete_of_ne _ hid] at h
        exact (hc.cancelRun _).run other r h

theorem registered_stop_self (hc : Consistent c) :
    (c.stopRecoveryRunLocked transferID kept).registered transferID =
    (c.registered transferID).filter fun entry => kept = some entry.2.lease := by
  unfold stopRecoveryRunLocked
  split
  · rename_i hnone
    rw [hc.registered_none.mpr hnone, Option.filter_none]
  · rename_i r hr
    obtain ⟨run, hrun, -⟩ := hc.registered hr
    have hlease : (c.runs[r]?).map RecoveryRun.lease = some run.lease := by
      rw [(registered_eq.mp hrun).2, Option.map_some]
    rw [hlease, hrun]
    by_cases hkept : kept = some run.lease
    · rw [if_pos ⟨hkept ▸ rfl, hkept.symm⟩, hrun]
      rw [Option.filter_some, if_pos (decide_eq_true hkept)]
    · rw [if_neg (fun h => hkept h.2.symm)]
      rw [registered, OrderedMap.get_delete_self, Option.bind_none, Option.filter_some,
        if_neg (fun h => hkept (of_decide_eq_true h))]

theorem registered_stop_other (hc : Consistent c) (h : other ≠ transferID) :
    (c.stopRecoveryRunLocked transferID kept).registered other = c.registered other := by
  unfold stopRecoveryRunLocked
  split
  · rfl
  · rename_i r hr
    split
    · rfl
    · have hne : c.recoveryRunning.get other ≠ some r := fun hother => h (hc.unique hr hother)
      rw [← registered_cancelRun hne, registered, registered, OrderedMap.get_delete_of_ne _ h]
      rfl

end Stop

variable (c lease) in
theorem start_frame : (c.startRecoveryRunLocked lease).recoveryLeases = c.recoveryLeases ∧
    (c.startRecoveryRunLocked lease).recoveryRequested = c.recoveryRequested ∧
    (c.startRecoveryRunLocked lease).resumes = c.resumes ∧
    (c.startRecoveryRunLocked lease).relinquished = c.relinquished := by
  unfold startRecoveryRunLocked
  split
  · exact ⟨rfl, rfl, rfl, rfl⟩
  · split <;> exact ⟨rfl, rfl, rfl, rfl⟩

theorem Consistent.addRun (hc : Consistent c) (lease : Lease) : Consistent (c.addRun lease) where
  run transferID r h := by
    by_cases hid : transferID = lease.transferID
    · subst hid
      rw [Control.addRun, OrderedMap.get_set_self] at h
      cases h
      exact ⟨_, List.getElem?_concat_length, rfl⟩
    · rw [Control.addRun, OrderedMap.get_set_of_ne _ hid] at h
      obtain ⟨run, hrun, hrunid⟩ := hc.run transferID r h
      exact ⟨run, List.getElem?_append_left (List.getElem?_eq_some_iff.mp hrun).1 ▸ hrun, hrunid⟩

theorem registered_addRun_self : (c.addRun lease).registered lease.transferID =
    some (c.runs.length, ⟨lease, false, .check⟩) := by
  refine registered_eq.mpr ⟨?_, List.getElem?_concat_length⟩
  exact OrderedMap.get_set_self _ _ _

theorem registered_addRun_other (hc : Consistent c) (h : other ≠ lease.transferID) :
    (c.addRun lease).registered other = c.registered other := by
  rw [registered, registered, addRun, OrderedMap.get_set_of_ne _ h]
  cases hget : c.recoveryRunning.get other with
  | none => rfl
  | some r =>
    obtain ⟨run, hrun, -⟩ := hc.run other r hget
    show ((c.runs ++ _)[r]?).map _ = (c.runs[r]?).map _
    rw [List.getElem?_append_left (List.getElem?_eq_some_iff.mp hrun).1]

theorem Consistent.start (hc : Consistent c) (lease : Lease) :
    Consistent (c.startRecoveryRunLocked lease) := by
  unfold startRecoveryRunLocked
  split
  · exact hc.addRun lease
  · split
    · exact hc
    · exact (hc.cancelRun _).addRun lease

theorem registered_start_self (hc : Consistent c) (lease : Lease) :
    (c.registered lease.transferID).map (fun entry => entry.2.lease) = some lease ∧
      (c.startRecoveryRunLocked lease).registered lease.transferID = c.registered lease.transferID ∨
    (c.registered lease.transferID).map (fun entry => entry.2.lease) ≠ some lease ∧
      (c.startRecoveryRunLocked lease).registered lease.transferID =
        some (c.runs.length, ⟨lease, false, .check⟩) := by
  unfold startRecoveryRunLocked
  split
  · rename_i hnone
    rw [hc.registered_none.mpr hnone]
    exact .inr ⟨nofun, registered_addRun_self⟩
  · rename_i r hr
    obtain ⟨run, hrun, -⟩ := hc.registered hr
    have hlease : (c.runs[r]?).map RecoveryRun.lease = some run.lease := by
      rw [(registered_eq.mp hrun).2, Option.map_some]
    rw [hlease, hrun, Option.map_some]
    by_cases hsame : some run.lease = some lease
    · rw [if_pos hsame]
      exact .inl ⟨hsame, hrun⟩
    · rw [if_neg hsame]
      refine .inr ⟨hsame, ?_⟩
      rw [registered_addRun_self]
      simp only [cancelRun, List.length_modify]

theorem registered_start_other (hc : Consistent c) (h : other ≠ lease.transferID) :
    (c.startRecoveryRunLocked lease).registered other = c.registered other := by
  unfold startRecoveryRunLocked
  split
  · exact registered_addRun_other hc h
  · rename_i r hr
    split
    · rfl
    · have hne : c.recoveryRunning.get other ≠ some r := fun hother => h (hc.unique hr hother)
      rw [registered_addRun_other (hc.cancelRun r) h, registered_cancelRun hne]

end Beam.Go.Control
