import BeamSdk.Relay.Interface

/-! Customers mode: when an organization's transfers are listed, which of them it owes a receipt
for, and where its listing cursor moves. -/

namespace Beam.Relay

def TRAILING_LISTING_MS : ℤ := 604800000

def Period.recent (period : Period) (now : ℤ) : Prop :=
  match period.endedAt with
  | none => True
  | some endedAt => now - endedAt < TRAILING_LISTING_MS

instance (period : Period) (now : ℤ) : Decidable (period.recent now) := by
  unfold Period.recent
  split <;> infer_instance

def listsTransfers (customer : Customer) (now : ℤ) : Prop :=
    ∃ period ∈ customer.periods, period.recent now

instance (customer : Customer) (now : ℤ) : Decidable (listsTransfers customer now) :=
  inferInstanceAs (Decidable (∃ period ∈ customer.periods, period.recent now))

def Period.covers (period : Period) (createdAtMs : ℤ) : Prop :=
  period.startedAt ≤ createdAtMs ∧ ∀ endedAt ∈ period.endedAt, createdAtMs < endedAt

instance (period : Period) (createdAtMs : ℤ) : Decidable (period.covers createdAtMs) := by
  unfold Period.covers
  infer_instance

def createdDuringPeriods (createdAtMs : ℤ) (periods : List Period) : Prop :=
  ∃ period ∈ periods, period.covers createdAtMs

instance (createdAtMs : ℤ) (periods : List Period) :
    Decidable (createdDuringPeriods createdAtMs periods) :=
  inferInstanceAs (Decidable (∃ period ∈ periods, period.covers createdAtMs))

/-- `Math.min` over the head and the rest of a list that is not empty. -/
def minimum (first : ℤ) (rest : List ℤ) : ℤ := rest.foldl min first

theorem minimum_le {first : ℤ} {rest : List ℤ} : ∀ n ∈ first :: rest, minimum first rest ≤ n := by
  induction rest generalizing first with
  | nil =>
    intro n hn
    exact (List.mem_singleton.mp hn).ge
  | cons second rest ih =>
    intro n hn
    have hmin : minimum first (second :: rest) ≤ min first second := ih _ (List.mem_cons_self ..)
    rcases List.mem_cons.mp hn with rfl | hn
    · exact hmin.trans (min_le_left _ _)
    · rcases List.mem_cons.mp hn with rfl | hn
      · exact hmin.trans (min_le_right _ _)
      · exact ih n (List.mem_cons_of_mem _ hn)

theorem foldl_max_cases (n : ℤ) (rest : List ℤ) : rest.foldl max n = n ∨
    rest.foldl max n ∈ rest := by
  induction rest generalizing n with
  | nil => exact .inl rfl
  | cons first rest ih =>
    rcases ih (max n first) with h | h
    · rcases max_cases n first with ⟨hmax, -⟩ | ⟨hmax, -⟩
      · exact .inl (h.trans hmax)
      · exact .inr (List.mem_cons.mpr (.inl (h.trans hmax)))
    · exact .inr (List.mem_cons_of_mem _ h)

def initialTransferCursor (customer : Customer) : ℤ :=
  match customer.periods.map Period.startedAt with
  | [] => 0
  | first :: rest => minimum first rest - 1

/-- Just before the oldest listed transfer that is not done; past the newest when all are. -/
def nextTransferCursor (cursor : ℤ) (listed : List (Timestamp × Bool)) : ℤ :=
  match (listed.filter fun transfer => !transfer.2).map fun transfer => dateParse transfer.1 with
  | first :: rest => max cursor (minimum first rest - 1)
  | [] => (listed.map fun transfer => dateParse transfer.1).foldl max cursor

/-- Past the cursor, what is not done stops it short, and with everything done it stops at a listed
transfer. -/
theorem le_nextTransferCursor_cases {cursor : ℤ} {listed : List (Timestamp × Bool)}
    {time : Timestamp}
    (hcursor : cursor < time) (hle : time ≤ nextTransferCursor cursor listed) :
    (∀ transfer ∈ listed, transfer.2 = false → dateParse time < dateParse transfer.1) ∧
      ((∃ transfer ∈ listed, transfer.2 = false) ∨ ∃ transfer ∈ listed,
        time ≤ dateParse transfer.1) := by
  have hmem : ∀ transfer ∈ listed, transfer.2 = false →
      dateParse transfer.1 ∈ (listed.filter fun transfer => !transfer.2).map fun transfer =>
        dateParse transfer.1 := by
    intro transfer htransfer hdone
    refine List.mem_map.mpr ⟨transfer, List.mem_filter.mpr ⟨htransfer, ?_⟩, rfl⟩
    rw [hdone]
    rfl
  unfold nextTransferCursor at hle
  split at hle
  · rename_i first rest hpending
    have hlt : time ≤ (minimum first rest - 1 : ℤ) := by
      rw [Int.cast_max] at hle
      exact (le_max_iff.mp hle).resolve_left hcursor.not_ge
    have hfloor : dateParse time ≤ minimum first rest - 1 := by
      have h := Int.floor_le_floor hlt
      rwa [Int.floor_intCast] at h
    refine ⟨fun transfer htransfer hdone => ?_, .inl ?_⟩
    · have hmin := minimum_le _ (hpending ▸ hmem transfer htransfer hdone)
      omega
    · have hfirst : first ∈ (listed.filter fun transfer => !transfer.2).map fun transfer =>
          dateParse transfer.1 :=
        hpending ▸ List.mem_cons_self ..
      obtain ⟨transfer, htransfer, -⟩ := List.mem_map.mp hfirst
      obtain ⟨hin, hdone⟩ := List.mem_filter.mp htransfer
      exact ⟨transfer, hin, by simpa using hdone⟩
  · rename_i hpending
    refine ⟨fun transfer htransfer hdone => ?_, .inr ?_⟩
    · exact absurd (hpending ▸ hmem transfer htransfer hdone) List.not_mem_nil
    · rcases foldl_max_cases cursor (listed.map fun transfer => dateParse transfer.1) with h | h
      · rw [h] at hle
        exact (hcursor.not_ge hle).elim
      · obtain ⟨transfer, hin, heq⟩ := List.mem_map.mp h
        exact ⟨transfer, hin, heq ▸ hle⟩

end Beam.Relay
