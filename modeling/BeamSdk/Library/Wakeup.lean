import BeamSdk.Library.Run

/-! Requests that a background loop serves. A request stores what it asks for and starts a loop
where there is none; a loop reads the newest request when an attempt starts, serves, and ends where
it finds the request it has started from. A request is missed where it finds a loop that is past
reading it and will not tell it from the one it has served. -/

namespace Beam.Wakeup
variable {ε : Type*}

/-- What a request finds: no loop; one that will serve before it looks for a newer request; one
that has served the request it read; one that looks at no request any more. -/
inductive Loop (ε : Type*)
  | idle
  | awake
  | asked (request : Option ε)
  | blind

structure Watch (ε : Type*) where
  requested : Option ε
  loop : Loop ε
  sent : ℕ

def Loop.woken : Loop ε → Loop ε
  | .idle => .awake
  | loop => loop

inductive Move : Watch ε → Option ε → Watch ε → Prop
  | stay (w : Watch ε) : Move w none w
  | request (w : Watch ε) (request : ε) : Move w (some request) ⟨some request, w.loop.woken, w.sent⟩
  | wake (requested : Option ε) (loop : Loop ε) (sent : ℕ) :
      Move ⟨requested, loop, sent⟩ none ⟨requested, .awake, sent⟩
  | send (requested : Option ε) (loop loop' : Loop ε) (sent : ℕ) :
    Move ⟨requested, loop, sent⟩ none ⟨requested, loop', sent + 1⟩
  | settle (requested : Option ε) (loop : Loop ε) (sent : ℕ) :
    Move ⟨requested, .asked requested, sent⟩ none ⟨requested, loop, sent⟩
  | idle (requested : Option ε) (loop : Loop ε) (sent : ℕ) (hloop : loop = .idle ∨ loop = .blind) :
    Move ⟨requested, loop, sent⟩ none ⟨requested, .idle, sent⟩

theorem move_woken (w : Watch ε) : Move w none { w with loop := w.loop.woken } := by
  obtain ⟨requested, loop, sent⟩ := w
  cases loop with
  | idle => exact .wake _ _ _
  | awake => exact .stay _
  | asked started => exact .stay _
  | blind => exact .stay _

/-- Something was sent after the first `k`, or will be before the loop ends. -/
structure Pending (k : ℕ) (w : Watch ε) : Prop where
  le : k ≤ w.sent
  owed : k < w.sent ∨ w.loop = .awake ∨ ∃ request, w.loop = .asked request ∧ w.requested ≠ request

def Repeats (w : Watch ε) (request : ε) : Prop := w.loop = .asked (some request)

variable {w w' : Watch ε} {r : Option ε} {request : ε} {k : ℕ}

theorem Pending.move (hp : Pending k w) (h : Move w r w')
    (hr : ∀ request, r = some request → w.requested ≠ some request → ¬ Repeats w request) :
      Pending k w' := by
  obtain ⟨hle, howed⟩ := hp
  cases h with
  | stay => exact ⟨hle, howed⟩
  | request _ request =>
    refine ⟨hle, ?_⟩
    rcases howed with hsent | hawake | ⟨started, hasked, hnewer⟩
    · exact .inl hsent
    · exact .inr (.inl (by rw [hawake]; rfl))
    · refine .inr (.inr ⟨started, by rw [hasked]; rfl, ?_⟩)
      rintro rfl
      exact hr request rfl hnewer hasked
  | wake => exact ⟨hle, .inr (.inl rfl)⟩
  | send => exact ⟨Nat.le_succ_of_le hle, .inl (Nat.lt_succ_of_le hle)⟩
  | settle requested =>
    rcases howed with hsent | hawake | ⟨started, hasked, hnewer⟩
    · exact ⟨hle, .inl hsent⟩
    · cases hawake
    · cases hasked
      exact absurd rfl hnewer
  | idle requested loop sent hloop =>
    rcases howed with hsent | hawake | ⟨started, hasked, hnewer⟩
    · exact ⟨hle, .inl hsent⟩
    · rcases hloop with rfl | rfl <;> cases hawake
    · rcases hloop with rfl | rfl <;> cases hasked

/-- A request is pending once it is made, unless the loop it finds is blind or takes it for the one
it has served. -/
theorem pending_request (hblind : w.loop ≠ .blind) (hrepeats : ¬ Repeats w request) :
    Pending w.sent ⟨some request, w.loop.woken, w.sent⟩ := by
  refine ⟨Nat.le_refl _, ?_⟩
  cases hloop : w.loop with
  | idle => exact .inr (.inl rfl)
  | awake => exact .inr (.inl rfl)
  | asked started =>
    refine .inr (.inr ⟨started, rfl, fun hsame => hrepeats ?_⟩)
    rw [Repeats, hloop, ← hsame]
  | blind => exact absurd hloop hblind

theorem Pending.sent (hp : Pending k w) (hidle : w.loop = .idle) : k < w.sent := by
  rcases hp.owed with hsent | hawake | ⟨started, hasked, -⟩
  · exact hsent
  · rw [hidle] at hawake
    cases hawake
  · rw [hidle] at hasked
    cases hasked

section Runs
variable {σ ι : Type*} {step : σ → ι → Option σ} {s t : σ} {is : List ι}

/-- Along a run that stays where its steps are moves, and no step of which repeats a request to a
loop that has served it, what is pending stays so until it is sent. -/
theorem pending_along {I P : σ → Prop} {B : σ → ι → Prop} (watch : σ → Watch ε)
    (hstep : ∀ u i v, I u → P u → step u i = some v → I v ∧ (P v → ∃ r, Move (watch u) r (watch v) ∧
      ∀ request, r = some request → (watch u).requested ≠ some request →
        Repeats (watch u) request → B u i))
    (hI : I s) (hp : Pending k (watch s)) (h : Run.after step s is = some t)
    (hP : Run.Always step s is P)
    (hB : Run.Never step s is B) : Pending k (watch t) := by
  have hstart : I s ∧ P s ∧ Pending k (watch s) := ⟨hI, hP [] is s rfl rfl, hp⟩
  have hstep' : ∀ u i v, I u ∧ P u ∧ Pending k (watch u) → step u i = some v → P v → ¬ B u i →
      I v ∧ P v ∧ Pending k (watch v) := by
    intro u i v ⟨hI, hP, hp⟩ h hv hgood
    obtain ⟨hI, hmove⟩ := hstep u i v hI hP h
    obtain ⟨r, hmove, hrepeats⟩ := hmove hv
    exact ⟨hI, hv, hp.move hmove fun request hr hnew hsame =>
      hgood (hrepeats request hr hnew hsame)⟩
  exact (Run.invariant_along hstep' hstart h hP hB).2.2

end Runs

theorem exists_later {α : Type*} {log log' : List α} {p : α → Bool} (hlog : log <+: log')
    (h : log.countP p < log'.countP p) : ∃ entry ∈ log'.drop log.length, p entry = true := by
  obtain ⟨later, rfl⟩ := hlog
  rw [List.countP_append] at h
  rw [List.drop_left]
  exact List.countP_pos_iff.mp (by omega)

end Beam.Wakeup
