import BeamSdk.Web.Handle

/-! What a handle tells of the status it has: its events, and the promise behind `done()`. -/

namespace Beam.Web

namespace Settlement

def fulfils {π : Type*} : Settlement π → Bool
  | fulfilled _ => true
  | rejected _ _ => false

end Settlement

namespace Handle
variable {π : Type*} {maxAttempts : ℕ}

structure SettlesOnce (h : Handle π) : Prop where
  once : (h.emitted.filter fun emission => emission.event.name = .completed).length ≤ 1
  settled : h.terminal → h.closedFirst = false →
    ∃ settlement, h.settlement = some settlement ∧
      (settlement.fulfils = true ↔ h.transfer.status = .completed)
  silent : ∀ emission ∈ h.emitted, emission.afterClose = true → emission.heard = false

structure Follows (h h' : Handle π) : Prop where
  final : h.terminal → h'.transfer.status = h.transfer.status
  announced : h.closed = false → h'.transfer.status ≠ h.transfer.status →
    ∃ emission ∈ h'.emitted.drop h.emitted.length, emission.event = .status h'.transfer.status

def Hears (h : Handle π) (next : Transfer π) : Prop :=
  (next.progress.isSome ∧ .progress ∈ h.listeners) ∨
    (next.status ≠ h.transfer.status ∧ .status ∈ h.listeners)

def ClosesEarly (h : Handle π) (next : Transfer π) (closes : HandleEvent π → Bool) : Prop :=
  (∃ progress, next.progress = some progress ∧ .progress ∈ h.listeners ∧
    closes (.progress progress) = true)
    ∨ (next.status ≠ h.transfer.status ∧ .status ∈ h.listeners ∧
      closes (.status next.status) = true)

/-- A transfer that is fetched, and not applied, changes the status of an open handle, or a
terminal one. -/
def Overwrites (h : Handle π) (next : Transfer π) : Prop :=
  next.status ≠ h.transfer.status ∧ (h.closed = false ∨ h.terminal)

/-- A transfer is applied to a handle that is closed, and changes a terminal status or is heard of
after `close()`; or a listener closes an open handle that is told of a terminal status. -/
def Misapplies (h : Handle π) (next : Transfer π) (closes : HandleEvent π → Bool) : Prop :=
  (h.closed = true ∧
    (h.terminal ∧ next.status ≠ h.transfer.status ∨ h.closeCalled = true ∧ h.Hears next))
    ∨ (h.closed = false ∧ next.status ∈ TERMINAL_STATUSES ∧ h.ClosesEarly next closes)

def Misleads (h : Handle π) : Happening π → Prop
  | .refreshed wire => h.Overwrites (toTransfer wire)
  | .pollAnswered wire => h.Overwrites (toTransfer wire)
  | .event (.transfer wire) closes => h.Misapplies (toTransfer wire) closes
  | .pollApplied closes =>
    match h.poll with
    | .answered next => h.Misapplies next closes
    | _ => False
  | _ => False

instance (h : Handle π) (next : Transfer π) (closes : HandleEvent π → Bool) :
    Decidable (h.ClosesEarly next closes) :=
  inferInstanceAs
    (Decidable
      ((∃ progress ∈ next.progress, .progress ∈ h.listeners ∧ closes (.progress progress) = true)
    ∨ (next.status ≠ h.transfer.status ∧ .status ∈ h.listeners ∧
      closes (.status next.status) = true)))

instance (h : Handle π) (next : Transfer π) (closes : HandleEvent π → Bool) :
    Decidable (h.Misapplies next closes) :=
  inferInstanceAs
    (Decidable
      ((h.closed = true ∧ (h.terminal ∧ next.status ≠ h.transfer.status ∨ h.closeCalled = true
    ∧ ((next.progress.isSome ∧ .progress ∈ h.listeners) ∨
      (next.status ≠ h.transfer.status ∧ .status ∈ h.listeners))))
    ∨ (h.closed = false ∧ next.status ∈ TERMINAL_STATUSES ∧ h.ClosesEarly next closes)))

instance (h : Handle π) (next : Transfer π) : Decidable (h.Overwrites next) :=
  inferInstanceAs (Decidable (_ ∧ (_ ∨ _)))

instance (h : Handle π) (happening : Happening π) : Decidable (h.Misleads happening) := by
  unfold Misleads
  split <;> try infer_instance
  split <;> infer_instance

theorem emit_emitted (h : Handle π) (event : HandleEvent π) (closes : HandleEvent π → Bool) :
    (h.emit event closes).emitted = h.emitted ++
      [⟨event, decide (event.name ∈ h.listeners), h.closeCalled⟩] := by
  unfold emit close
  simp only
  split
  · split <;> rfl
  · rfl

theorem emit_transfer (h : Handle π) (event : HandleEvent π) (closes : HandleEvent π → Bool) :
    (h.emit event closes).transfer = h.transfer := by
  unfold emit close
  simp only
  split
  · split <;> rfl
  · rfl

theorem emit_quiet {h : Handle π} {event : HandleEvent π} {closes : HandleEvent π → Bool}
    (hquiet : ¬ (event.name ∈ h.listeners ∧ closes event = true)) : h.emit event closes
      = { h with emitted := h.emitted ++
        [⟨event, decide (event.name ∈ h.listeners), h.closeCalled⟩] } := by
  unfold emit
  simp only
  rw [if_neg (by simpa using hquiet)]

theorem emit_of_closed {h : Handle π} (event : HandleEvent π) (closes : HandleEvent π → Bool)
    (hclosed : h.closed = true) :
    (h.emit event closes).listeners = h.listeners ∧
      (h.emit event closes).closedFirst = h.closedFirst := by
  unfold emit close
  simp only [hclosed, if_true]
  split <;> exact ⟨rfl, rfl⟩

theorem emit_closing {h : Handle π} (event : HandleEvent π) (closes : HandleEvent π → Bool)
    (hopen : h.closed = false)
    (hheard : event.name ∈ h.listeners ∧ closes event = true) :
    (h.emit event closes).closed = true ∧ (h.emit event closes).listeners = []
      ∧ (h.emit event closes).closeCalled = true ∧
        (h.emit event closes).closedFirst = !decide h.terminal := by
  unfold emit
  simp only
  rw [if_pos (by simpa using hheard)]
  unfold close
  simp only [hopen]
  exact ⟨rfl, rfl, rfl, rfl⟩

theorem closeCalled_emit {h : Handle π} {event : HandleEvent π} {closes : HandleEvent π → Bool}
    (hcalled : h.closeCalled = true) : (h.emit event closes).closeCalled = true := by
  unfold emit close
  simp only
  split
  · split <;> rfl
  · exact hcalled

def progressed (h : Handle π) (next : Transfer π) (closes : HandleEvent π → Bool) : Handle π :=
  { h with transfer := next }.emitProgress next closes

theorem tell_eq (h : Handle π) (next : Transfer π) (closes : HandleEvent π → Bool) :
    h.tell next closes =
    if next.status ≠ h.transfer.status then (h.progressed next closes).emit
      (.status next.status) closes
    else h.progressed next closes := rfl

def progressEmissions (h : Handle π) (next : Transfer π) : List (Emission π) :=
  next.progress.toList.map fun progress =>
    ⟨.progress progress, decide (.progress ∈ h.listeners), h.closeCalled⟩

def statusEmissions (h : Handle π) (next : Transfer π) (closes : HandleEvent π → Bool) :
    List (Emission π) :=
  if next.status ≠ h.transfer.status then
    [⟨.status next.status, decide (.status ∈ (h.progressed next closes).listeners),
      (h.progressed next closes).closeCalled⟩]
  else []

theorem progressed_emitted (h : Handle π) (next : Transfer π) (closes : HandleEvent π → Bool) :
    (h.progressed next closes).emitted = h.emitted ++ h.progressEmissions next
      ∧ (h.progressed next closes).transfer = next := by
  unfold progressed emitProgress progressEmissions
  cases next.progress with
  | none => simp
  | some progress => exact ⟨emit_emitted _ _ _, emit_transfer _ _ _⟩

theorem tell_emitted (h : Handle π) (next : Transfer π) (closes : HandleEvent π → Bool) :
    (h.tell next closes).emitted = h.emitted ++
      (h.progressEmissions next ++ h.statusEmissions next closes)
      ∧ (h.tell next closes).transfer = next := by
  obtain ⟨hemitted, htransfer⟩ := h.progressed_emitted next closes
  rw [tell_eq, statusEmissions]
  split
  · rw [emit_emitted, emit_transfer, hemitted, htransfer, List.append_assoc]
    exact ⟨rfl, rfl⟩
  · rw [hemitted, htransfer, List.append_nil]
    exact ⟨rfl, rfl⟩

theorem mem_told {h : Handle π} {next : Transfer π} {closes : HandleEvent π → Bool}
    {emission : Emission π}
    (hmem : emission ∈ h.progressEmissions next ++ h.statusEmissions next closes) :
    (next.progress.isSome ∧ emission.event.name = .progress ∧
      emission.heard = decide (.progress ∈ h.listeners)
        ∧ emission.afterClose = h.closeCalled)
      ∨ (next.status ≠ h.transfer.status ∧ emission = ⟨.status next.status,
        decide (.status ∈ (h.progressed next closes).listeners),
          (h.progressed next closes).closeCalled⟩) := by
  rcases List.mem_append.mp hmem with hprogress | hstatus
  · obtain ⟨progress, hsome, rfl⟩ := List.mem_map.mp hprogress
    exact .inl ⟨Option.isSome_of_mem (Option.mem_toList.mp hsome), rfl, rfl, rfl⟩
  · unfold statusEmissions at hstatus
    split at hstatus
    · exact .inr ⟨by assumption, List.mem_singleton.mp hstatus⟩
    · cases hstatus

theorem told_completed (h : Handle π) (next : Transfer π) (closes : HandleEvent π → Bool) :
    ((h.progressEmissions next ++ h.statusEmissions next closes).filter fun emission =>
      emission.event.name = .completed) = [] := by
  rw [List.filter_eq_nil_iff]
  intro emission hmem
  rcases mem_told hmem with ⟨-, hname, -, -⟩ | ⟨-, rfl⟩
  · simp [hname]
  · simp [HandleEvent.name]

theorem told_status {h : Handle π} {next : Transfer π} (closes : HandleEvent π → Bool)
    (hchanged : next.status ≠ h.transfer.status) :
    ∃ emission ∈ h.progressEmissions next ++ h.statusEmissions next closes,
      emission.event = .status next.status := by
  have hmem : ⟨.status next.status, decide (.status ∈ (h.progressed next closes).listeners),
      (h.progressed next closes).closeCalled⟩ ∈ h.statusEmissions next closes := by
    rw [statusEmissions, if_pos hchanged]
    exact List.mem_singleton_self _
  exact ⟨_, List.mem_append_right _ hmem, rfl⟩

theorem progressed_of_closed {h : Handle π} (next : Transfer π) (closes : HandleEvent π → Bool)
    (hclosed : h.closed = true) :
    (h.progressed next closes).closed = true ∧ (h.progressed next closes).listeners = h.listeners
      ∧ (h.progressed next closes).closedFirst = h.closedFirst
      ∧ (h.closeCalled = true → (h.progressed next closes).closeCalled = true) := by
  unfold progressed emitProgress
  split
  · obtain ⟨hlisteners, hfirst⟩ := emit_of_closed (h := { h with transfer := next }) _ _ hclosed
    exact ⟨emit_closed _ _ hclosed, hlisteners, hfirst, fun hcalled =>
      closeCalled_emit (h := { h with transfer := next })
      hcalled⟩
  · exact ⟨hclosed, rfl, rfl, id⟩

theorem apply_of_closed {h : Handle π} (next : Transfer π) (closes : HandleEvent π → Bool)
    (hclosed : h.closed = true) :
    h.apply next closes = h.tell next closes ∧ (h.tell next closes).closed = true
      ∧ (h.tell next closes).closedFirst = h.closedFirst
      ∧ (h.closeCalled = true → (h.tell next closes).closeCalled = true) := by
  obtain ⟨hprogressed, -, hfirst, hcalled⟩ := progressed_of_closed next closes hclosed
  have htell : (h.tell next closes).closed = true := tell_closed next closes hclosed
  refine ⟨?_, htell, ?_, ?_⟩
  · rw [apply_eq]
    split
    · unfold settle
      rw [if_pos htell]
    · rfl
  · rw [tell_eq]
    split
    · exact (emit_of_closed _ _ hprogressed).2.trans hfirst
    · exact hfirst
  · intro h
    rw [tell_eq]
    split
    · exact closeCalled_emit (hcalled h)
    · exact hcalled h

theorem progressed_quiet {h : Handle π} {next : Transfer π} {closes : HandleEvent π → Bool}
    (hquiet : ¬ ∃ progress, next.progress = some progress ∧ .progress ∈ h.listeners
      ∧ closes (.progress progress) = true) :
    h.progressed next closes =
      { h with transfer := next, emitted := h.emitted ++ h.progressEmissions next } := by
  unfold progressed emitProgress progressEmissions
  cases hsome : next.progress with
  | none => simp
  | some progress => exact emit_quiet fun hcloses => hquiet ⟨progress, hsome, hcloses⟩

theorem progressed_early {h : Handle π} {next : Transfer π} {closes : HandleEvent π → Bool}
    (hopen : h.closed = false)
    {progress : π} (hsome : next.progress = some progress)
    (hcloses : .progress ∈ h.listeners ∧ closes (.progress progress) = true) :
    (h.progressed next closes).closed = true ∧ (h.progressed next closes).listeners = []
      ∧ (h.progressed next closes).closeCalled = true
      ∧ (h.progressed next closes).closedFirst = !decide (next.status ∈ TERMINAL_STATUSES) := by
  unfold progressed emitProgress
  simp only [hsome]
  exact emit_closing (h := { h with transfer := next }) _ _ hopen hcloses

theorem tell_quiet {h : Handle π} {next : Transfer π} {closes : HandleEvent π → Bool}
    (hquiet : ¬ h.ClosesEarly next closes) : h.tell next closes = { h with
      transfer := next
      emitted := h.emitted ++ (h.progressEmissions next ++ h.statusEmissions next closes) } ∧
    (h.progressed next closes).closeCalled = h.closeCalled := by
  obtain ⟨hprogress, hstatus⟩ := not_or.mp hquiet
  have hprogressed := progressed_quiet hprogress
  refine ⟨?_, by rw [hprogressed]⟩
  rw [tell_eq, statusEmissions, hprogressed]
  split
  · rename_i hchanged
    rw [emit_quiet fun hcloses => hstatus ⟨hchanged, hcloses⟩]
    simp only [List.append_assoc]
    rfl
  · simp

theorem tell_early {h : Handle π} {next : Transfer π} {closes : HandleEvent π → Bool}
    (hopen : h.closed = false)
    (hcalled : h.closeCalled = false) (hearly : h.ClosesEarly next closes) :
    (h.tell next closes).closed = true ∧ (h.tell next closes).closeCalled = true
      ∧ (h.tell next closes).closedFirst = !decide (next.status ∈ TERMINAL_STATUSES)
      ∧ ∀ emission ∈ h.progressEmissions next ++ h.statusEmissions next closes,
        emission.afterClose = true → emission.heard = false := by
  by_cases hprogress : ∃ progress, next.progress = some progress ∧ .progress ∈ h.listeners
      ∧ closes (.progress progress) = true
  · obtain ⟨progress, hsome, hcloses⟩ := hprogress
    obtain ⟨hclosed, hlisteners, hcalled', hfirst⟩ := progressed_early hopen hsome hcloses
    rw [tell_eq]
    refine ⟨?_, ?_, ?_, ?_⟩
    · split
      · exact emit_closed _ _ hclosed
      · exact hclosed
    · split
      · exact closeCalled_emit hcalled'
      · exact hcalled'
    · split
      · exact (emit_of_closed _ _ hclosed).2.trans hfirst
      · exact hfirst
    · intro emission hmem hafter
      rcases mem_told hmem with ⟨-, -, -, hbefore⟩ | ⟨-, rfl⟩
      · rw [hbefore, hcalled] at hafter
        cases hafter
      · simp [hlisteners]
  · have hprogressed := progressed_quiet hprogress
    obtain ⟨hchanged, hcloses⟩ := hearly.resolve_left hprogress
    obtain ⟨hclosed, -, hcalled', hfirst⟩ := emit_closing (.status next.status) closes
      (h := h.progressed next closes) (by rw [hprogressed]; exact hopen)
        (by rw [hprogressed]; exact hcloses)
    rw [tell_eq, if_pos hchanged]
    refine ⟨hclosed, hcalled', ?_, ?_⟩
    · rw [hfirst, hprogressed]
      rfl
    · intro emission hmem hafter
      rcases mem_told hmem with ⟨-, -, -, hbefore⟩ | ⟨-, rfl⟩
      · rw [hbefore, hcalled] at hafter
        cases hafter
      · simp only [hprogressed, hcalled] at hafter
        cases hafter

structure Told (h : Handle π) : Prop extends SettlesOnce h where
  opened : h.closed = false → ¬ h.terminal ∧ h.settlement = none ∧ h.closeCalled = false
    ∧ (h.emitted.filter fun emission => emission.event.name = .completed) = []
  ended : h.closed = true → h.closedFirst = false → h.terminal
  first : h.closedFirst = true → h.closed = true ∧ h.closeCalled = true

theorem settle_told {h : Handle π} {next : Transfer π} (closes : HandleEvent π → Bool)
    (hopen : h.closed = false)
    (hcalled : h.closeCalled = false) (hfirst : h.closedFirst = false)
    (hnone : (h.emitted.filter fun emission => emission.event.name = .completed) = [])
    (hsilent : ∀ emission ∈ h.emitted, emission.afterClose = true → emission.heard = false)
    (htransfer : h.transfer = next) (hterminal : next.status ∈ TERMINAL_STATUSES) :
    Told (h.settle next closes) ∧ ∃ later, (h.settle next closes).emitted = h.emitted ++ later := by
  unfold settle
  simp only [hopen, Bool.false_eq_true, if_false]
  split
  · rename_i hcompleted
    have hemitted := emit_emitted { h with closed := true } (.completed next) closes
    have hstatus := emit_transfer { h with closed := true } (.completed next) closes
    have hkept := (emit_of_closed (h := { h with closed := true }) (.completed next) closes rfl).2
    have hclosed := emit_closed (h := { h with closed := true }) (.completed next) closes rfl
    simp only at hemitted hstatus hkept
    refine ⟨⟨⟨?_, ?_, ?_⟩, ?_, ?_, ?_⟩, _, hemitted⟩
    · simp only [hemitted, List.filter_append, hnone, List.nil_append]
      exact List.length_filter_le _ _
    · intro _ _
      have hfulfilled := (congrArg Transfer.status (hstatus.trans htransfer)).trans hcompleted
      exact ⟨.fulfilled next, rfl, iff_of_true rfl hfulfilled⟩
    · intro emission hmem hafter
      simp only [hemitted] at hmem
      rcases List.mem_append.mp hmem with hold | hnew
      · exact hsilent emission hold hafter
      · obtain rfl := List.mem_singleton.mp hnew
        simp only [hcalled] at hafter
        cases hafter
    · exact fun hopen => by simp [hclosed] at hopen
    · intro _ _
      change ({ h with closed := true }.emit (.completed next) closes).transfer.status ∈
        TERMINAL_STATUSES
      rw [hstatus, htransfer]
      exact hterminal
    · intro hfirst'
      cases hfirst'.symm.trans (hkept.trans hfirst)
  · rename_i hfailed
    refine ⟨⟨⟨by simp [hnone], ?_, hsilent⟩, ?_, ?_, ?_⟩, [], by simp⟩
    · intro _ _
      refine ⟨rejection next, rfl, iff_of_false (by simp [Settlement.fulfils, rejection]) ?_⟩
      simpa [htransfer] using hfailed
    · exact fun hopen => by cases hopen
    · intro _ _
      simpa [terminal, htransfer] using hterminal
    · intro hfirst'
      simp [hfirst] at hfirst'

theorem drop_emitted {h h' : Handle π} {told later : List (Emission π)}
    (hemitted : h'.emitted = h.emitted ++ told ++ later)
    {emission : Emission π} (hmem : emission ∈ told) :
      emission ∈ h'.emitted.drop h.emitted.length := by
  rw [hemitted, List.append_assoc, List.drop_left]
  exact List.mem_append_left _ hmem

theorem apply_told_closed {h : Handle π} {next : Transfer π} {closes : HandleEvent π → Bool}
    (htold : Told h)
    (hclosed : h.closed = true) :
    (h.Misapplies next closes →
      ¬ (Follows h (h.apply next closes) ∧ SettlesOnce (h.apply next closes)))
      ∧ (¬ h.Misapplies next closes → Told (h.apply next closes) ∧
        Follows h (h.apply next closes)) := by
  obtain ⟨happly, hstays, hfirst, hcalled⟩ := apply_of_closed next closes hclosed
  obtain ⟨hemitted, htransfer⟩ := h.tell_emitted next closes
  have hsettlement := tell_settlement h next closes
  obtain ⟨-, hlisteners, -, hcalled'⟩ := progressed_of_closed next closes hclosed
  rw [happly]
  constructor
  · rintro (⟨-, ⟨hterminal, hchanged⟩ | ⟨hafter, hhears⟩⟩ | ⟨hopen, -⟩) ⟨hfollows, hfits⟩
    · exact hchanged (by simpa [htransfer] using hfollows.final hterminal)
    · rcases hhears with ⟨hsome, hlistened⟩ | ⟨hchanged, hlistened⟩
      · obtain ⟨progress, hprogress⟩ := Option.isSome_iff_exists.mp hsome
        have hheard :=
          hfits.silent ⟨.progress progress, decide (.progress ∈ h.listeners), h.closeCalled⟩ (by
          rw [hemitted, progressEmissions, hprogress]
          simp) hafter
        simp [hlistened] at hheard
      · have hheard :=
          hfits.silent ⟨.status next.status,
            decide (.status ∈ (h.progressed next closes).listeners),
            (h.progressed next closes).closeCalled⟩ (by
          rw [hemitted, statusEmissions, if_pos hchanged]
          simp) (hcalled' hafter)
        simp [hlisteners, hlistened] at hheard
    · simp [hclosed] at hopen
  · intro hgood
    have hgood : ¬ (h.terminal ∧ next.status ≠ h.transfer.status) ∧
        ¬ (h.closeCalled = true ∧ h.Hears next) := by
      have hparts := fun hbad => hgood (.inl ⟨hclosed, hbad⟩)
      exact not_or.mp hparts
    have hfinal : h.terminal → next.status = h.transfer.status := fun hterminal => by
      by_contra hchanged
      exact hgood.1 ⟨hterminal, hchanged⟩
    refine ⟨⟨⟨?_, ?_, ?_⟩, ?_, ?_, ?_⟩, ?_, ?_⟩
    · rw [hemitted, List.filter_append, told_completed, List.append_nil]
      exact htold.once
    · intro hterminal hnotfirst
      rw [hfirst] at hnotfirst
      have hbefore := htold.ended hclosed hnotfirst
      rw [hsettlement, htransfer, hfinal hbefore]
      exact htold.settled hbefore hnotfirst
    · intro emission hmem hafter
      rw [hemitted] at hmem
      rcases List.mem_append.mp hmem with hold | hnew
      · exact htold.silent emission hold hafter
      · by_contra hheard
        have hheard : emission.heard = true := by simpa using hheard
        rcases mem_told hnew with ⟨hsome, -, hlistened, hbefore⟩ | ⟨hchanged, rfl⟩
        · rw [hlistened, decide_eq_true_iff] at hheard
          exact hgood.2 ⟨hbefore ▸ hafter, .inl ⟨hsome, hheard⟩⟩
        · -- A status that may change is of a handle closed first.
          have hnotterminal : ¬ h.terminal := fun hterminal => hchanged (hfinal hterminal)
          have hcalledBefore : h.closeCalled = true := by
            cases hcase : h.closedFirst with
            | true => exact (htold.first hcase).2
            | false => exact absurd (htold.ended hclosed hcase) hnotterminal
          simp only [hlisteners, decide_eq_true_iff] at hheard
          exact hgood.2 ⟨hcalledBefore, .inr ⟨hchanged, hheard⟩⟩
    · exact fun hopen => by simp [hstays] at hopen
    · intro _ hnotfirst
      rw [hfirst] at hnotfirst
      have hbefore := htold.ended hclosed hnotfirst
      rw [terminal, htransfer, hfinal hbefore]
      exact hbefore
    · intro hisfirst
      rw [hfirst] at hisfirst
      exact ⟨hstays, hcalled (htold.first hisfirst).2⟩
    · intro hterminal
      rw [htransfer]
      exact hfinal hterminal
    · exact fun hopen => by simp [hclosed] at hopen

theorem apply_told_open {h : Handle π} {next : Transfer π} {closes : HandleEvent π → Bool}
    (htold : Told h)
    (hopen : h.closed = false) :
    (h.Misapplies next closes →
      ¬ (Follows h (h.apply next closes) ∧ SettlesOnce (h.apply next closes)))
      ∧ (¬ h.Misapplies next closes → Told (h.apply next closes) ∧
        Follows h (h.apply next closes)) := by
  obtain ⟨hrunning, hunsettled, hcalled, hnone⟩ := htold.opened hopen
  obtain ⟨hemitted, htransfer⟩ := h.tell_emitted next closes
  have hfirst : h.closedFirst = false := by
    cases hcase : h.closedFirst with
    | false => rfl
    | true => cases hopen.symm.trans (htold.first hcase).1
  have hfollows : ∀ {later}, (h.apply next closes).emitted
      = h.emitted ++ (h.progressEmissions next ++ h.statusEmissions next closes) ++ later →
      (h.apply next closes).transfer = next → Follows h (h.apply next closes) := by
    intro later hlater happlied
    refine ⟨fun hterminal => absurd hterminal hrunning, fun _ hchanged => ?_⟩
    rw [happlied] at hchanged ⊢
    obtain ⟨emission, hmem, hevent⟩ := told_status closes hchanged
    exact ⟨emission, drop_emitted hlater hmem, hevent⟩
  have hnews : (h.tell next closes).emitted.filter
      (fun emission => emission.event.name = .completed) = [] := by
    rw [hemitted, List.filter_append, told_completed, hnone, List.append_nil]
  by_cases hearly : h.ClosesEarly next closes
  · obtain ⟨hclosed, hcalled', hfirst', hquiet⟩ := tell_early hopen hcalled hearly
    have happly : h.apply next closes = h.tell next closes := by
      rw [apply_eq]
      split
      · unfold settle
        rw [if_pos hclosed]
      · rfl
    constructor
    · rintro (⟨hbad, -⟩ | ⟨-, hterminal, -⟩) ⟨-, hfits⟩
      · simp [hopen] at hbad
      · rw [happly] at hfits
        obtain ⟨settlement, hsome, -⟩ :=
          hfits.settled (by rw [terminal, htransfer]; exact hterminal)
          (by simpa [hterminal] using hfirst')
        rw [tell_settlement, hunsettled] at hsome
        cases hsome
    · intro hgood
      have hterminal : next.status ∉ TERMINAL_STATUSES :=
        fun hterminal => hgood (.inr ⟨hopen, hterminal, hearly⟩)
      refine ⟨?_, hfollows (by rw [happly, hemitted, List.append_nil]) (by rw [happly, htransfer])⟩
      rw [happly]
      refine ⟨⟨?_, ?_, ?_⟩, ?_, ?_, ?_⟩
      · rw [hnews]
        exact Nat.zero_le _
      · intro hended
        rw [terminal, htransfer] at hended
        exact absurd hended hterminal
      · intro emission hmem hafter
        rw [hemitted] at hmem
        rcases List.mem_append.mp hmem with hold | hnew
        · exact htold.silent emission hold hafter
        · exact hquiet emission hnew hafter
      · exact fun hopen => by simp [hclosed] at hopen
      · intro _ hnotfirst
        simp [hfirst', hterminal] at hnotfirst
      · exact fun _ => ⟨hclosed, hcalled'⟩
  · obtain ⟨htell, hcalled'⟩ := tell_quiet hearly
    have hsilent : ∀ emission ∈ (h.tell next closes).emitted, emission.afterClose = true →
        emission.heard = false := by
      intro emission hmem hafter
      rw [hemitted] at hmem
      rcases List.mem_append.mp hmem with hold | hnew
      · exact htold.silent emission hold hafter
      · rcases mem_told hnew with ⟨-, -, -, hbefore⟩ | ⟨-, rfl⟩
        · rw [hbefore, hcalled] at hafter
          cases hafter
        · simp only [hcalled', hcalled] at hafter
          cases hafter
    refine ⟨?_, fun _ => ?_⟩
    · rintro (⟨hbad, -⟩ | ⟨-, -, hbad⟩)
      · simp [hopen] at hbad
      · exact absurd hbad hearly
    have hstill : (h.tell next closes).closed = false ∧ (h.tell next closes).closeCalled = false
        ∧ (h.tell next closes).closedFirst = false := by
      rw [htell]
      exact ⟨hopen, hcalled, hfirst⟩
    obtain ⟨hopen', hcalled'', hfirst'⟩ := hstill
    by_cases hterminal : next.status ∈ TERMINAL_STATUSES
    · have happly : h.apply next closes = (h.tell next closes).settle next closes := by
        rw [apply_eq, if_pos hterminal]
      obtain ⟨hsettled, later, hlater⟩ :=
        settle_told closes hopen' hcalled'' hfirst' hnews hsilent htransfer
        hterminal
      have hkept : ((h.tell next closes).settle next closes).transfer = next := by
        unfold settle
        simp only [hopen', Bool.false_eq_true, if_false]
        split
        · exact (emit_transfer _ _ _).trans htransfer
        · exact htransfer
      rw [← happly] at hsettled hlater hkept
      exact ⟨hsettled, hfollows (by rw [hlater, hemitted]) hkept⟩
    · have happly : h.apply next closes = h.tell next closes := by rw [apply_eq, if_neg hterminal]
      refine ⟨?_, hfollows (by rw [happly, hemitted, List.append_nil]) (by rw [happly, htransfer])⟩
      rw [happly]
      have hrunning' : ¬ (h.tell next closes).terminal := by
        rw [terminal, htransfer]
        exact hterminal
      refine ⟨⟨?_, fun hended => absurd hended hrunning', hsilent⟩, ?_, ?_, ?_⟩
      · rw [hnews]
        exact Nat.zero_le _
      · exact fun _ => ⟨hrunning', (tell_settlement _ _ _).trans hunsettled, hcalled'', hnews⟩
      · exact fun hclosed => by simp [hopen'] at hclosed
      · exact fun hbad => by simp [hfirst'] at hbad

theorem apply_told {h : Handle π} (next : Transfer π) (closes : HandleEvent π → Bool)
    (htold : Told h) :
    (h.Misapplies next closes →
      ¬ (Follows h (h.apply next closes) ∧ SettlesOnce (h.apply next closes)))
      ∧ (¬ h.Misapplies next closes → Told (h.apply next closes) ∧
        Follows h (h.apply next closes)) := by
  cases hclosed : h.closed with
  | true => exact apply_told_closed htold hclosed
  | false => exact apply_told_open htold hclosed

theorem Told.of_same {h h' : Handle π} (htold : Told h)
    (hstatus : h'.transfer.status = h.transfer.status)
    (hsettlement : h'.settlement = h.settlement) (hemitted : h'.emitted = h.emitted)
    (hclosed : h'.closed = h.closed ∧ h'.closeCalled = h.closeCalled ∧
      h'.closedFirst = h.closedFirst) : Told h' := by
  obtain ⟨hclosed, hcalled, hfirst⟩ := hclosed
  have hterminal : h'.terminal ↔ h.terminal := by rw [terminal, hstatus, terminal]
  refine ⟨⟨?_, ?_, ?_⟩, ?_, ?_, ?_⟩
  · rw [hemitted]
    exact htold.once
  · rw [hterminal, hfirst, hsettlement, hstatus]
    exact htold.settled
  · rw [hemitted]
    exact htold.silent
  · rw [hclosed, hterminal, hsettlement, hcalled, hemitted]
    exact htold.opened
  · rw [hclosed, hfirst, hterminal]
    exact htold.ended
  · rw [hfirst, hclosed, hcalled]
    exact htold.first

theorem follows_of_status {h h' : Handle π} (hstatus : h'.transfer.status = h.transfer.status) :
    Follows h h' :=
  ⟨fun _ => hstatus, fun _ hchanged => absurd hstatus hchanged⟩

theorem overwrite_told {h h' : Handle π} {next : Transfer π} (htold : Told h)
    (htransfer : h'.transfer = next)
    (hsettlement : h'.settlement = h.settlement) (hemitted : h'.emitted = h.emitted)
    (hclosed : h'.closed = h.closed ∧ h'.closeCalled = h.closeCalled ∧
      h'.closedFirst = h.closedFirst) :
    (h.Overwrites next → ¬ (Follows h h' ∧ SettlesOnce h')) ∧
      (¬ h.Overwrites next → Told h' ∧ Follows h h') := by
  constructor
  · rintro ⟨hchanged, hopen | hterminal⟩ ⟨hfollows, -⟩
    · obtain ⟨emission, hmem, -⟩ := hfollows.announced hopen (by rw [htransfer]; exact hchanged)
      rw [hemitted, List.drop_length] at hmem
      cases hmem
    · exact hchanged (by simpa [htransfer] using hfollows.final hterminal)
  · intro hgood
    by_cases hsame : next.status = h.transfer.status
    · have hstatus : h'.transfer.status = h.transfer.status := by rw [htransfer, hsame]
      exact ⟨htold.of_same hstatus hsettlement hemitted hclosed, follows_of_status hstatus⟩
    · obtain ⟨hclosed, hcalled, hfirst⟩ := hclosed
      obtain ⟨hopen, hrunning⟩ := not_or.mp fun hbad => hgood ⟨hsame, hbad⟩
      have hopen : h.closed = true := by simpa using hopen
      have hfirst' : h.closedFirst = true := by
        by_contra hnotfirst
        exact hrunning (htold.ended hopen (by simpa using hnotfirst))
      refine ⟨⟨⟨?_, ?_, ?_⟩, ?_, ?_, ?_⟩, fun hterminal => absurd hterminal hrunning, ?_⟩
      · rw [hemitted]
        exact htold.once
      · intro _ hbad
        simp [hfirst, hfirst'] at hbad
      · rw [hemitted]
        exact htold.silent
      · exact fun hbad => by simp [hclosed, hopen] at hbad
      · intro _ hbad
        simp [hfirst, hfirst'] at hbad
      · rw [hfirst, hclosed, hcalled]
        exact htold.first
      · exact fun hbad => by simp [hopen] at hbad

theorem close_told {h : Handle π} (htold : Told h) : Told h.close := by
  unfold close
  split
  · rename_i hclosed
    exact ⟨⟨htold.once, htold.settled, htold.silent⟩, fun hopen =>
      absurd hopen (by simp [hclosed]), htold.ended,
      fun hfirst => ⟨hclosed, rfl⟩⟩
  · rename_i hopen
    obtain ⟨hrunning, -, -, -⟩ := htold.opened (by simpa using hopen)
    refine ⟨⟨htold.once, fun hterminal => absurd hterminal hrunning, htold.silent⟩, ?_, ?_,
      fun _ => ⟨rfl, rfl⟩⟩
    · exact fun hbad => by cases hbad
    · intro _ hnotfirst
      simp [hrunning] at hnotfirst

theorem emit_error_told {h : Handle π} (htold : Told h) (hopen : h.closed = false)
    (closes : HandleEvent π → Bool) :
    Told (h.emit .error closes) := by
  obtain ⟨hrunning, hunsettled, hcalled, hnone⟩ := htold.opened hopen
  have herror :
      Told { h with emitted := h.emitted ++
        [⟨.error, decide (.error ∈ h.listeners), h.closeCalled⟩] } := by
    have hnews :
        (h.emitted ++
          [(⟨.error, decide (.error ∈ h.listeners), h.closeCalled⟩ : Emission π)]).filter
        (fun emission => emission.event.name = .completed) = [] := by
      rw [List.filter_append, hnone]
      rfl
    refine ⟨⟨?_, htold.settled, ?_⟩, fun _ => ⟨hrunning, hunsettled, hcalled, hnews⟩, htold.ended,
      htold.first⟩
    · simp only [hnews]
      exact Nat.zero_le _
    · intro emission hmem hafter
      rcases List.mem_append.mp hmem with hold | hnew
      · exact htold.silent emission hold hafter
      · obtain rfl := List.mem_singleton.mp hnew
        simp only [hcalled] at hafter
        cases hafter
  unfold emit
  simp only
  split
  · exact close_told herror
  · exact herror

theorem attemptEnded_same (maxAttempts : ℕ) (h : Handle π) (failure : Option ConnectFailure) :
    (h.attemptEnded maxAttempts failure).transfer = h.transfer
      ∧ (h.attemptEnded maxAttempts failure).settlement = h.settlement
      ∧ (h.attemptEnded maxAttempts failure).emitted = h.emitted
      ∧ (h.attemptEnded maxAttempts failure).closed = h.closed
      ∧ (h.attemptEnded maxAttempts failure).closeCalled = h.closeCalled
      ∧ (h.attemptEnded maxAttempts failure).closedFirst = h.closedFirst := by
  unfold attemptEnded
  simp only
  split
  · simp
  · split
    · simp
    · split <;> simp

theorem attemptEnded_told {h : Handle π} (htold : Told h) (failure : Option ConnectFailure) :
    Told (h.attemptEnded maxAttempts failure) ∧ Follows h (h.attemptEnded maxAttempts failure) := by
  obtain ⟨htransfer, hsettlement, hemitted, hclosed⟩ := attemptEnded_same maxAttempts h failure
  have hstatus := congrArg Transfer.status htransfer
  exact ⟨htold.of_same hstatus hsettlement hemitted hclosed, follows_of_status hstatus⟩

theorem step_told {h h' : Handle π} {happening : Happening π} (htold : Told h)
    (hstep : h.step maxAttempts happening = some h') :
    (h.Misleads happening → ¬ (Follows h h' ∧ SettlesOnce h')) ∧
      (¬ h.Misleads happening → Told h' ∧ Follows h h') := by
  have hfine : ∀ {h' : Handle π}, ¬ h.Misleads happening → Told h' ∧ Follows h h' →
      (h.Misleads happening → ¬ (Follows h h' ∧ SettlesOnce h')) ∧
        (¬ h.Misleads happening → Told h' ∧ Follows h h') :=
    fun hgood hkept => ⟨fun hbad => absurd hbad hgood, fun _ => hkept⟩
  have hsame : ∀ {h' : Handle π}, h'.transfer = h.transfer → h'.settlement = h.settlement →
      h'.emitted = h.emitted →
      h'.closed = h.closed ∧ h'.closeCalled = h.closeCalled ∧ h'.closedFirst = h.closedFirst →
        Told h' ∧ Follows h h' :=
    fun htransfer hsettlement hemitted hclosed =>
      ⟨htold.of_same (congrArg _ htransfer) hsettlement hemitted hclosed,
      follows_of_status (congrArg _ htransfer)⟩
  cases happening with
  | connected =>
    simp only [step, Option.ite_none_right_eq_some, Option.some.injEq] at hstep
    obtain ⟨-, rfl⟩ := hstep
    exact hfine id (hsame rfl rfl rfl ⟨rfl, rfl, rfl⟩)
  | refused failure =>
    simp only [step, Option.ite_none_right_eq_some, Option.some.injEq] at hstep
    obtain ⟨-, rfl⟩ := hstep
    exact hfine id (attemptEnded_told htold _)
  | event data closes =>
    simp only [step, Option.ite_none_right_eq_some] at hstep
    obtain ⟨-, hstep⟩ := hstep
    cases data with
    | malformed =>
      obtain rfl := Option.some.inj hstep
      exact hfine id (hsame rfl rfl rfl ⟨rfl, rfl, rfl⟩)
    | null =>
      obtain rfl := Option.some.inj hstep
      exact hfine id (attemptEnded_told htold _)
    | transfer wire =>
      obtain rfl := Option.some.inj hstep
      exact apply_told _ _ htold
  | streamEnded =>
    simp only [step, Option.ite_none_right_eq_some, Option.some.injEq] at hstep
    obtain ⟨-, rfl⟩ := hstep
    exact hfine id (attemptEnded_told htold _)
  | interrupted =>
    simp only [step, Option.ite_none_right_eq_some, Option.some.injEq] at hstep
    obtain ⟨-, rfl⟩ := hstep
    exact hfine id (attemptEnded_told htold _)
  | delayElapsed =>
    simp only [step, Option.ite_none_right_eq_some, Option.some.injEq] at hstep
    obtain ⟨-, rfl⟩ := hstep
    exact hfine id (hsame rfl rfl rfl ⟨rfl, rfl, rfl⟩)
  | streamRejected closes =>
    simp only [step, Option.ite_none_right_eq_some] at hstep
    obtain ⟨-, hstep⟩ := hstep
    cases hclosed : h.closed with
    | true =>
      simp only [hclosed, if_true, Option.some.injEq] at hstep
      subst hstep
      exact hfine id (hsame rfl rfl rfl ⟨hclosed.symm, rfl, rfl⟩)
    | false =>
      simp only [hclosed, Bool.false_eq_true, if_false, Option.some.injEq] at hstep
      subst hstep
      have hbefore : Told { h with stream := .finished, closed := false } :=
        htold.of_same rfl rfl rfl ⟨hclosed.symm, rfl, rfl⟩
      have herror := emit_error_told hbefore rfl closes
      exact hfine id ⟨herror.of_same rfl rfl rfl ⟨rfl, rfl, rfl⟩,
        follows_of_status (congrArg Transfer.status (emit_transfer _ _ _))⟩
  | pollDue =>
    simp only [step] at hstep
    split at hstep
    · obtain rfl := Option.some.inj hstep
      exact hfine id (hsame rfl rfl rfl ⟨rfl, rfl, rfl⟩)
    · cases hstep
  | pollAnswered wire =>
    simp only [step] at hstep
    split at hstep
    · obtain rfl := Option.some.inj hstep
      exact overwrite_told htold rfl rfl rfl ⟨rfl, rfl, rfl⟩
    · cases hstep
  | pollFailed =>
    simp only [step] at hstep
    split at hstep
    · obtain rfl := Option.some.inj hstep
      exact hfine id (hsame rfl rfl rfl ⟨rfl, rfl, rfl⟩)
    · cases hstep
  | pollApplied closes =>
    simp only [step] at hstep
    split at hstep
    · rename_i next hanswered
      obtain rfl := Option.some.inj hstep
      obtain ⟨hbad, hgood⟩ := apply_told next closes htold
      have hmisleads : h.Misleads (.pollApplied closes) ↔ h.Misapplies next closes := by
        simp only [Misleads, hanswered]
      rw [hmisleads]
      refine ⟨fun hmisapplies hkept => hbad hmisapplies ⟨⟨hkept.1.final, hkept.1.announced⟩, ?_⟩,
        fun hfits => ?_⟩
      · exact ⟨hkept.2.once, hkept.2.settled, hkept.2.silent⟩
      · obtain ⟨htold', hfollows⟩ := hgood hfits
        exact ⟨htold'.of_same rfl rfl rfl ⟨rfl, rfl, rfl⟩, hfollows.final, hfollows.announced⟩
    · cases hstep
  | refreshed wire =>
    obtain rfl := Option.some.inj hstep
    exact overwrite_told htold rfl rfl rfl ⟨rfl, rfl, rfl⟩
  | cancelled =>
    obtain rfl := Option.some.inj hstep
    exact hfine id (hsame rfl rfl rfl ⟨rfl, rfl, rfl⟩)
  | closeCalled =>
    obtain rfl := Option.some.inj hstep
    refine hfine id ⟨close_told htold, follows_of_status ?_⟩
    unfold close
    split <;> rfl
  | listened name =>
    obtain rfl := Option.some.inj hstep
    exact hfine id (hsame rfl rfl rfl ⟨rfl, rfl, rfl⟩)

theorem start_told (transfer : Transfer π) : Told (start transfer) := by
  unfold start
  simp only
  split
  · rename_i hterminal
    exact (settle_told _ rfl rfl rfl rfl (by simp) rfl hterminal).1
  · rename_i hrunning
    refine ⟨⟨by simp, fun hterminal => absurd hterminal hrunning, by simp⟩, ?_, ?_, ?_⟩
    · exact fun _ => ⟨hrunning, rfl, rfl, rfl⟩
    · exact fun hclosed => by cases hclosed
    · exact fun hfirst => by cases hfirst

/-- Events and promise follow the status all along a run exactly where no step of it misleads. -/
theorem each_told {transfer : Transfer π} {happenings : List (Happening π)} {h : Handle π}
    (hrun : Run.after (step maxAttempts) (start transfer) happenings = some h) :
    SettlesOnce (start transfer) ∧ Run.Each (step maxAttempts) (start transfer) happenings
        (fun h _ h' => Follows h h' ∧ SettlesOnce h')
      ↔ Run.Never (step maxAttempts) (start transfer) happenings Misleads := by
  rw [and_iff_right (start_told transfer).toSettlesOnce]
  exact Run.each_iff_never (I := Told) (fun u i v htold hstep => (step_told htold hstep).1)
    (fun u i v htold hstep hgood => by
      obtain ⟨htold', hfollows⟩ := (step_told htold hstep).2 hgood
      exact ⟨htold', hfollows, htold'.toSettlesOnce⟩) (start_told transfer) hrun

/-- A transfer that is watched, told of twice and completed, while a `refresh()` finds what is
known already. -/
def watched : List (Happening Unit) :=
  [.listened .status, .listened .completed, .connected,
    .event (.transfer ⟨none, some (), none⟩) fun _ => false,
    .refreshed ⟨some "running", some (), none⟩,
      .event (.transfer ⟨some "completed", some (), none⟩) fun _ => false,
    .closeCalled]

theorem watched_told : SettlesOnce (start (⟨.running, none, none⟩ : Transfer Unit)) ∧
    Run.Each (step 3) (start ⟨.running, none, none⟩) watched
      (fun h _ h' => Follows h h' ∧ SettlesOnce h') := by
  obtain ⟨h, hrun⟩ : ∃ h, Run.after (step 3)
      (start (⟨.running, none, none⟩ : Transfer Unit)) watched = some h := ⟨_, rfl⟩
  exact (each_told hrun).mpr (Run.never_of_check (by decide))

/-- Polling changes the status without a word, `refresh()` leaves a completed transfer unsettled or
an old answer brings it back, and `close()` does not silence a settled handle. -/
theorem untold :
    (∃ h h', Run.after (step 3) (start (⟨.running, none, none⟩ : Transfer Unit))
      [.refused (.error false),
        .streamRejected fun _ => false, .pollDue] = some h
      ∧ h.step 3 (.pollAnswered ⟨some "completed", none, none⟩) = some h' ∧ ¬ Follows h h')
    ∧ (∃ h, Run.after (step 3) (start (⟨.running, none, none⟩ : Transfer Unit))
        [.refreshed ⟨some "completed", none, none⟩] = some h ∧ ¬ SettlesOnce h)
    ∧ (∃ h h', Run.after (step 3) (start (⟨.running, none, none⟩ : Transfer Unit)) [.connected,
        .event (.transfer ⟨some "completed", none, none⟩) fun _ => false] = some h
      ∧ h.step 3 (.refreshed ⟨some "running", none, none⟩) = some h' ∧ ¬ Follows h h')
    ∧ ∃ h, Run.after (step 3) (start (⟨.running, none, none⟩ : Transfer Unit))
      [.listened .progress, .connected,
        .event (.transfer ⟨some "completed", none, none⟩) fun _ => false, .closeCalled,
        .event (.transfer ⟨some "completed", some (), none⟩) fun _ => false] = some h ∧
          ¬ SettlesOnce h := by
  refine ⟨⟨_, _, rfl, rfl, fun hfollows => ?_⟩, ⟨_, rfl, fun hfits => ?_⟩,
    ⟨_, _, rfl, rfl, fun hfollows => ?_⟩,
    _, rfl, fun hfits => ?_⟩
  · obtain ⟨emission, hmem, -⟩ := hfollows.announced rfl (by decide)
    cases hmem
  · obtain ⟨settlement, hsome, -⟩ := hfits.settled (by decide) rfl
    cases hsome
  · have hfinal := hfollows.final (by decide)
    revert hfinal
    decide
  · have hsilent := hfits.silent
    revert hsilent
    decide

end Handle
end Beam.Web
