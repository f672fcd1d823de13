import BeamSdk.Rust.Resumes

/-! What becomes of the secrets that a registered lease retains. Its dispose callback is called by
the call that takes it out of the map: under the lock where another lease replaces it, and right
after it elsewhere. -/

namespace Beam.Rust

structure Retention where
  control : Control
  registered : List RecoveryLease
  -- those that a call has taken out of the map and whose callback it calls next
  taken : List RecoveryLease
  disposed : List RecoveryLease
  -- what each `close` has found in the map that has emptied it and not yet returned
  closing : List (Option RecoveryLease)
  returned : Bool

namespace Retention
variable {k k' : Retention} {lease : RecoveryLease}

inductive Act
  | control (step : Control.Step)
  | dispose (lease : RecoveryLease)
  | closeReturns (place : ℕ)

def start : Retention := ⟨Control.start, [], [], [], [], false⟩

def removedLease (before after : Control) : List RecoveryLease :=
  if after.lease = before.lease then [] else before.lease.toList

/-- `close` may return once it has called the callback of what it has found. -/
def step (k : Retention) : Act → Option Retention
  | .control (.registerRecoveryLease lease) => some { k with
      control := k.control.registerRecoveryLease lease
      registered := k.registered ++ [lease]
      disposed := k.disposed ++ (k.control.lease.filter (· ≠ lease)).toList }
  | .control .takeLeases => (k.control.step .takeLeases).map fun control => { k with
      control := control
      taken := k.taken ++ removedLease k.control control
      closing := k.closing ++ [k.control.lease] }
  | .control step => (k.control.step step).map fun control =>
      { k with control := control, taken := k.taken ++ removedLease k.control control }
  | .dispose lease =>
    if lease ∈ k.taken then
      some { k with taken := k.taken.erase lease, disposed := k.disposed ++ [lease] } else none
  | .closeReturns place =>
    match k.closing[place]? with
    | some found =>
      if found.any (· ∈ k.taken) then none
        else some { k with closing := k.closing.eraseIdx place, returned := true }
    | none => none

/-- No callback is called while its lease is registered; of one that is not any more, it was called
once, or is about to be. -/
structure Kept (k : Retention) : Prop where
  retained : ∀ lease, k.control.lease = some lease → lease ∈ k.registered ∧
    k.taken.count lease + k.disposed.count lease = 0
  once : ∀ lease ∈ k.registered, k.control.lease ≠ some lease →
    k.taken.count lease + k.disposed.count lease = 1
  only : ∀ lease ∉ k.registered, k.taken.count lease + k.disposed.count lease = 0

/-- Once `close` has returned, nothing is retained. -/
def Emptied (k : Retention) : Prop := k.returned = true → ∀ lease, k.control.lease = some lease →
    lease ∈ k.disposed

def Repeats (k : Retention) : Act → Prop
  | .control (.registerRecoveryLease lease) => lease ∈ k.registered
  | _ => False

/-- A lease is registered when a `close` has already emptied the map. -/
def Late (k : Retention) : Act → Prop
  | .control (.registerRecoveryLease _) => k.closing ≠ [] ∨ k.returned = true
  | _ => False

theorem spawnRecovery_lease (c : Control) (lease : RecoveryLease) :
    (c.spawnRecovery lease).lease = c.lease := by
  unfold Control.spawnRecovery
  split <;> rfl

theorem release_lease (c : Control) (owner : Option RecoveryLease) :
    (c.releaseRecoveryLease owner).lease = c.lease ∨
      (c.releaseRecoveryLease owner).lease = none := by
  unfold Control.releaseRecoveryLease
  split
  · exact .inl rfl
  · split
    · exact .inl rfl
    · exact .inr rfl

theorem turn_lease {c c' : Control} {r : ℕ} {loop : RecoveryLoop} (h : Control.Turn c r loop c') :
    c'.lease = c.lease ∨ c'.lease = none := by
  cases h with
  | release => exact release_lease c (some loop.lease)
  | hand current => exact .inl (spawnRecovery_lease c current)
  | _ => exact .inl rfl

theorem step_lease {c c' : Control} {step : Control.Step} (hstep : c.step step = some c')
    (hother : ∀ lease, step ≠ .registerRecoveryLease lease) : c'.lease = c.lease ∨
      c'.lease = none := by
  cases step with
  | registerRecoveryLease lease => exact absurd rfl (hother lease)
  | releaseRecoveryLease owner =>
    obtain rfl := Option.some.inj hstep
    exact release_lease c owner
  | continueRecoveryLease owner id =>
    obtain rfl := Option.some.inj hstep
    unfold Control.continueRecoveryLease
    split
    · exact .inl rfl
    · split
      · exact .inl rfl
      · exact .inl (spawnRecovery_lease _ _)
  | observeRuntimeEpochs runtimeEpoch transportEpoch =>
    obtain rfl := Option.some.inj hstep
    unfold Control.observeRuntimeEpochs
    split
    · split
      · exact .inl rfl
      · simp only
        split
        · exact .inl rfl
        · split
          · exact .inl rfl
          · exact .inl (spawnRecovery_lease _ _)
    · exact .inl rfl
  | recoverTransfer r input =>
    obtain ⟨loop, -, hturn⟩ := Option.bind_eq_some_iff.mp hstep
    exact turn_lease (Control.turn_of_recoverTransfer hturn)
  | close =>
    obtain rfl := Option.some.inj hstep
    exact .inl rfl
  | takeLeases =>
    simp only [Control.step, Option.ite_none_right_eq_some, Option.some.injEq] at hstep
    obtain ⟨-, rfl⟩ := hstep
    exact .inr rfl

theorem step_control {step : Control.Step} (hother : ∀ lease, step ≠ .registerRecoveryLease lease)
    (hstep : k.step (.control step) = some k') :
      (k'.control.lease = k.control.lease ∨ k'.control.lease = none)
      ∧ k'.registered = k.registered ∧ k'.taken = k.taken ++ removedLease k.control k'.control ∧
        k'.disposed = k.disposed
      ∧ k'.returned = k.returned ∧ (k'.closing = k.closing ∨ k'.control.lease = none) := by
  cases step with
  | registerRecoveryLease lease => exact absurd rfl (hother lease)
  | takeLeases =>
    obtain ⟨c', hc', rfl⟩ := Option.map_eq_some_iff.mp hstep
    refine ⟨step_lease hc' hother, rfl, rfl, rfl, rfl, .inr ?_⟩
    simp only [Control.step, Option.ite_none_right_eq_some, Option.some.injEq] at hc'
    obtain ⟨-, rfl⟩ := hc'
    rfl
  | _ =>
    simp only [Retention.step, Option.map_eq_some_iff] at hstep
    obtain ⟨c', hc', rfl⟩ := hstep
    exact ⟨step_lease hc' hother, rfl, rfl, rfl, rfl, .inl rfl⟩

theorem count_toList (found : Option RecoveryLease) (lease : RecoveryLease) :
    found.toList.count lease = if found = some lease then 1 else 0 := by
  cases found with
  | none => rfl
  | some other =>
    rw [Option.toList_some, List.count_singleton]
    by_cases hsame : other = lease
    · simp [hsame]
    · simp [hsame]

theorem kept_register (hkept : Kept k) (hfresh : lease ∉ k.registered)
    (hstep : k.step (.control (.registerRecoveryLease lease)) = some k') : Kept k' := by
  obtain rfl := Option.some.inj hstep
  have hcount : ∀ other, (k.control.lease.filter (· ≠ lease)).toList.count other
      = if k.control.lease = some other ∧ other ≠ lease then 1 else 0 := by
    intro other
    rw [count_toList]
    simp only [Option.filter_eq_some_iff, ne_eq, decide_not, Bool.not_eq_true',
      decide_eq_false_iff_not]
  refine ⟨fun other hother => ?_, fun other hmem hother => ?_, fun other hnot => ?_⟩
  · obtain rfl : lease = other := Option.some.inj hother
    have hzero := hkept.only lease hfresh
    refine ⟨List.mem_append_right _ (List.mem_singleton_self _), ?_⟩
    simp only [List.count_append, hcount, ne_eq, not_true_eq_false, and_false, if_false]
    omega
  · have hne : other ≠ lease := fun heq => hother (congrArg some heq.symm)
    have hmem : other ∈ k.registered := (List.mem_append.mp hmem).resolve_right fun h =>
      hne (List.mem_singleton.mp h)
    simp only [List.count_append, hcount]
    by_cases hcurrent : k.control.lease = some other
    · obtain ⟨-, hzero⟩ := hkept.retained other hcurrent
      rw [if_pos ⟨hcurrent, hne⟩]
      omega
    · have hone := hkept.once other hmem hcurrent
      rw [if_neg fun h => hcurrent h.1]
      omega
  · have hnot : other ∉ k.registered := fun hmem => hnot (List.mem_append_left _ hmem)
    have hzero := hkept.only other hnot
    simp only [List.count_append, hcount]
    rw [if_neg fun h => hnot (hkept.retained other h.1).1]
    omega

theorem kept_control {step : Control.Step} (hkept : Kept k)
    (hother : ∀ lease, step ≠ .registerRecoveryLease lease)
    (hstep : k.step (.control step) = some k') : Kept k' := by
  obtain ⟨hlease, hregistered, htaken, hdisposed, -, -⟩ := step_control hother hstep
  have hcount : ∀ other, (removedLease k.control k'.control).count other
      = if k.control.lease = some other ∧ k'.control.lease ≠ some other then 1 else 0 := by
    intro other
    unfold removedLease
    rcases hlease with hsame | hnone
    · rw [if_pos hsame, hsame, if_neg fun h => h.2 h.1]
      rfl
    · by_cases hsame : k'.control.lease = k.control.lease
      · rw [if_pos hsame, hsame, if_neg fun h => h.2 h.1]
        rfl
      · rw [if_neg hsame, count_toList, hnone]
        simp
  have hbefore : ∀ other, k'.control.lease = some other → k.control.lease = some other := by
    intro other hafter
    rcases hlease with hsame | hnone
    · rw [← hsame, hafter]
    · rw [hnone] at hafter
      cases hafter
  refine ⟨fun other hafter => ?_, fun other hmem hafter => ?_, fun other hnot => ?_⟩
  · obtain ⟨hmem, hzero⟩ := hkept.retained other (hbefore other hafter)
    refine ⟨hregistered ▸ hmem, ?_⟩
    rw [htaken, hdisposed, List.count_append, hcount, if_neg fun h => h.2 hafter]
    omega
  · rw [hregistered] at hmem
    rw [htaken, hdisposed, List.count_append, hcount]
    by_cases hcurrent : k.control.lease = some other
    · obtain ⟨-, hzero⟩ := hkept.retained other hcurrent
      rw [if_pos ⟨hcurrent, hafter⟩]
      omega
    · have hone := hkept.once other hmem hcurrent
      rw [if_neg fun h => hcurrent h.1]
      omega
  · rw [hregistered] at hnot
    have hzero := hkept.only other hnot
    rw [htaken, hdisposed, List.count_append, hcount, if_neg fun h =>
      hnot (hkept.retained other h.1).1]
    omega

theorem kept_dispose (hkept : Kept k) (hstep : k.step (.dispose lease) = some k') : Kept k' := by
  simp only [step, Option.ite_none_right_eq_some, Option.some.injEq] at hstep
  obtain ⟨hmem, rfl⟩ := hstep
  have hcount : ∀ other, (k.taken.erase lease).count other + (k.disposed ++ [lease]).count other
      = k.taken.count other + k.disposed.count other := by
    intro other
    rw [List.count_append, List.count_singleton]
    by_cases hsame : lease = other
    · subst hsame
      have hpos := List.count_pos_iff.mpr hmem
      rw [List.count_erase_self]
      simp only [beq_self_eq_true, if_true]
      omega
    · rw [List.count_erase_of_ne (Ne.symm hsame)]
      simp [hsame]
  exact ⟨fun other hother => by rw [hcount]; exact hkept.retained other hother,
    fun other hmem hother => by rw [hcount]; exact hkept.once other hmem hother,
    fun other hnot => by rw [hcount]; exact hkept.only other hnot⟩

theorem kept_step {act : Act} (hkept : Kept k)
    (hstep : k.step act = some k') (hfresh : ¬ k.Repeats act) : Kept k' := by
  cases act with
  | dispose lease => exact kept_dispose hkept hstep
  | closeReturns place =>
    simp only [step] at hstep
    split at hstep
    · rw [Option.ite_none_left_eq_some] at hstep
      obtain ⟨-, hsame⟩ := hstep
      obtain rfl := Option.some.inj hsame
      exact ⟨hkept.retained, hkept.once, hkept.only⟩
    · cases hstep
  | control step =>
    by_cases hregister : ∃ lease, step = .registerRecoveryLease lease
    · obtain ⟨lease, rfl⟩ := hregister
      exact kept_register hkept hfresh hstep
    · exact kept_control hkept (fun lease hsame => hregister ⟨lease, hsame⟩) hstep

/-- Where a `close` has emptied the map, it is empty. -/
def Swept (k : Retention) : Prop := k.closing ≠ [] ∨ k.returned = true → k.control.lease = none

theorem swept_step {act : Act} (hswept : Swept k)
    (hstep : k.step act = some k') (hlate : ¬ k.Late act) : Swept k' := by
  cases act with
  | dispose lease =>
    simp only [step, Option.ite_none_right_eq_some, Option.some.injEq] at hstep
    obtain ⟨-, rfl⟩ := hstep
    exact hswept
  | closeReturns place =>
    simp only [step] at hstep
    split at hstep
    · rename_i found hfound
      rw [Option.ite_none_left_eq_some] at hstep
      obtain ⟨-, hsame⟩ := hstep
      obtain rfl := Option.some.inj hsame
      refine fun _ => hswept (.inl fun hnil => ?_)
      simp [hnil] at hfound
    · cases hstep
  | control step =>
    by_cases hregister : ∃ lease, step = .registerRecoveryLease lease
    · obtain ⟨lease, rfl⟩ := hregister
      obtain rfl := Option.some.inj hstep
      exact fun hclosing => absurd hclosing hlate
    · obtain ⟨hlease, -, -, -, hreturned, hclosing⟩ := step_control
        (fun lease hsame => hregister ⟨lease, hsame⟩) hstep
      intro hsweeps
      rcases hclosing with hsame | hnone
      · rw [hsame, hreturned] at hsweeps
        rcases hlease with hkeeps | hnone
        · rw [hkeeps, hswept hsweeps]
        · exact hnone
      · exact hnone

theorem start_kept : Kept start := by
  refine ⟨fun lease hlease => ?_, fun lease hmem => ?_, fun _ _ => rfl⟩
  · cases hlease
  · cases hmem

/-- Every callback is called once, when its lease leaves the map, and no lease is left in it by a
`close` after which none is registered. -/
theorem disposed_once {acts : List Act} (hfresh : Run.Never step start acts Repeats) :
    Run.Always step start acts Kept
    ∧ (Run.Never step start acts Late → Run.Always step start acts Emptied) := by
  refine ⟨Run.always_of_never (fun u i v => kept_step) start_kept hfresh, fun hlate => ?_⟩
  have hswept := Run.always_of_never (I := Swept) (fun u i v => swept_step) (fun _ => rfl) hlate
  intro earlier later u hsplit hu hreturned lease hlease
  rw [hswept earlier later u hsplit hu (.inr hreturned)] at hlease
  cases hlease

instance (k : Retention) (act : Act) : Decidable (k.Repeats act) := by
  unfold Repeats
  split <;> infer_instance

instance (k : Retention) (act : Act) : Decidable (k.Late act) := by
  unfold Late
  split <;> infer_instance

def firstOwner : RecoveryLease := ⟨0, "plan", "coordinates"⟩

def secondOwner : RecoveryLease := ⟨1, "plan", "coordinates"⟩

/-- A lease is replaced, the other one's recovery ends terminally, and the client is closed. -/
def recovered : List Act :=
  [.control (.registerRecoveryLease firstOwner), .control (.registerRecoveryLease secondOwner),
    .control (.continueRecoveryLease none "epoch"), .control (.recoverTransfer 0 (.proceed "g0")),
    .control (.recoverTransfer 0 (.proceed "g1")), .control (.recoverTransfer 0 .send),
    .control (.recoverTransfer 0 (.resumed (.ok ⟨some "terminal", none⟩))),
      .control (.recoverTransfer 0 (.proceed "g2")),
    .control (.recoverTransfer 0 (.proceed "g3")), .control .close, .dispose secondOwner,
      .control .takeLeases,
    .closeReturns 0]

theorem recovered_disposed :
    (∃ k, Run.after step start recovered = some k ∧ k.disposed = [firstOwner, secondOwner])
    ∧ Run.Always step start recovered Kept ∧ Run.Always step start recovered Emptied := by
  obtain ⟨hkept, hemptied⟩ := disposed_once
    (Run.never_of_check (by decide) : Run.Never step start recovered Repeats)
  exact ⟨⟨_, rfl, rfl⟩, hkept, hemptied (Run.never_of_check (by decide))⟩

/-- A registration after `close` retains its secrets for good. -/
theorem late_retained :
    ∃ k, Run.after step start [.control .close, .control .takeLeases, .closeReturns 0,
    .control (.registerRecoveryLease firstOwner)] = some k ∧ ¬ Emptied k := by
  refine ⟨_, rfl, fun hemptied => ?_⟩
  have hmem := hemptied rfl firstOwner rfl
  cases hmem

end Retention
end Beam.Rust
