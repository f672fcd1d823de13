import BeamSdk.Library.Script

/-! What a program called and was told, call by call, where each call may be answered anew: how the
log of a program splits into the logs of its parts. -/

namespace Beam.Script
variable {C : Type} {A : C → Type} {ε α β : Type}

abbrev Told (A : C → Type) (ε : Type) := (c : C) × Except ε (A c)

/-- The program makes the calls of the log, told what it says, and comes to the result. -/
inductive Trace : Script C A ε α → List (Told A ε) → Except ε α → Prop
  | done (a : α) : Trace (done a) [] (.ok a)
  | fail (e : ε) : Trace (fail e) [] (.error e)
  | call {c : C} {k : Except ε (A c) → Script C A ε α} {r : Except ε (A c)} {log : List (Told A ε)}
      {x : Except ε α} :
      Trace (k r) log x → Trace (call c k) (⟨c, r⟩ :: log) x

variable {s : Script C A ε α} {log : List (Told A ε)} {x : Except ε α} {f : α → Script C A ε β}
    {y : Except ε β}

theorem trace_run (answers : (c : C) → Except ε (A c)) (s : Script C A ε α) :
    s.Trace ((s.run answers).2.map fun c => ⟨c, answers c⟩) (s.run answers).1 := by
  induction s with
  | done a => exact .done a
  | fail e => exact .fail e
  | call c k ih => exact .call (ih (answers c))

theorem Trace.of_bind (h : (s >>= f).Trace log y) :
    (∃ e, y = .error e ∧ s.Trace log (.error e)) ∨
      ∃ a first rest, log = first ++ rest ∧ s.Trace first (.ok a) ∧ (f a).Trace rest y := by
  induction s generalizing log with
  | done a => exact .inr ⟨a, [], log, rfl, .done a, h⟩
  | fail e =>
    cases h
    exact .inl ⟨e, rfl, .fail e⟩
  | call c k ih =>
    cases h with
    | call hk =>
      rcases ih _ hk with ⟨e, rfl, he⟩ | ⟨a, first, rest, rfl, hfirst, hrest⟩
      · exact .inl ⟨e, rfl, .call he⟩
      · exact .inr ⟨a, _ :: first, rest, rfl, .call hfirst, hrest⟩

theorem Trace.of_attempt {x : Except ε (Except ε α)} (h : s.attempt.Trace log x) : ∃ r, x = .ok r ∧
    s.Trace log r := by
  induction s generalizing log with
  | done a =>
    cases h
    exact ⟨.ok a, rfl, .done a⟩
  | fail e =>
    cases h
    exact ⟨.error e, rfl, .fail e⟩
  | call c k ih =>
    cases h with
    | call hk =>
      obtain ⟨r, rfl, hr⟩ := ih _ hk
      exact ⟨r, rfl, .call hr⟩

theorem Trace.of_io {c : C} {x : Except ε (A c)}
    (h : (Script.io c : Script C A ε (A c)).Trace log x) :
    log = [⟨c, x⟩] := by
  cases h with
  | @call _ _ r _ _ hk =>
    cases r <;>
    · cases hk
      rfl

theorem Trace.of_ofExcept {r : Except ε α} (h : (Script.ofExcept r : Script C A ε α).Trace log x) :
    log = [] ∧ x = r := by
  cases r <;>
  · cases h
    exact ⟨rfl, rfl⟩

theorem Trace.foldlM_keeps {γ : Type} {I : α → Prop} {f : α → γ → Script C A ε α}
    {xs : List γ} {a b : α}
    (hf : ∀ x ∈ xs, ∀ a b log, I a → (f a x).Trace log (.ok b) → I b)
    (h : (xs.foldlM f a).Trace log (.ok b))
    (ha : I a) : I b := by
  induction xs generalizing a log with
  | nil =>
    cases h
    exact ha
  | cons x xs ih =>
    rw [List.foldlM_cons] at h
    rcases h.of_bind with ⟨e, he, -⟩ | ⟨a', first, rest, rfl, hround, hrest⟩
    · cases he
    · exact ih (fun y hy => hf y (List.mem_cons_of_mem _ hy)) hrest
        (hf x (List.mem_cons_self ..) a a' first ha hround)

/-- What a loop's rounds keep of the elements done, the state and the log, where all the log's
answers are of one kind. -/
theorem Trace.foldlM_log {γ : Type} {I : List γ → α → List (Told A ε) → Prop} {P : Told A ε → Prop}
    {f : α → γ → Script C A ε α} {xs : List γ} {a b : α}
    (hf : ∀ done x a b log new, (done ++ [x]) <+: xs → I done a log → (f a x).Trace new (.ok b) →
      (∀ event ∈ new, P event) → I (done ++ [x]) b (log ++ new))
    (h : (xs.foldlM f a).Trace log (.ok b)) (hlog : ∀ event ∈ log, P event) (ha : I [] a []) :
      I xs b log := by
  have hrest : ∀ rest done a before log, done ++ rest = xs → I done a before →
      (rest.foldlM f a).Trace log (.ok b) →
      (∀ event ∈ log, P event) → I xs b (before ++ log) := by
    intro rest
    induction rest with
    | nil =>
      intro done a before log hdone hI h _
      cases h
      rw [List.append_nil] at hdone ⊢
      exact hdone ▸ hI
    | cons x rest ih =>
      intro done a before log hdone hI h hlog
      rw [List.foldlM_cons] at h
      rcases h.of_bind with ⟨e, he, -⟩ | ⟨a', new, later, rfl, hround, hlater⟩
      · cases he
      obtain ⟨hnew, hafter⟩ := List.forall_mem_append.mp hlog
      have hprefix : (done ++ [x]) <+: xs :=
        ⟨rest, by rw [← hdone, List.append_assoc, List.singleton_append]⟩
      rw [← List.append_assoc]
      refine ih (done ++ [x]) a' (before ++ new) later ?_
        (hf done x a a' before new hprefix hI hround hnew) hlater hafter
      rw [← hdone, List.append_assoc, List.singleton_append]
  exact hrest xs [] a [] log rfl ha h hlog

theorem Raises.foldlM {γ : Type} {own : ε → Prop} {f : α → γ → Script C A ε α} {xs : List γ} (a : α)
    (hf : ∀ x ∈ xs, ∀ a, (f a x).Raises own) : (xs.foldlM f a).Raises own := by
  induction xs generalizing a with
  | nil => trivial
  | cons x xs ih =>
    rw [List.foldlM_cons]
    exact (hf x (List.mem_cons_self ..) a).bind fun b => ih b fun y hy =>
      hf y (List.mem_cons_of_mem _ hy)

theorem Uses.of_mem_trace {allowed : C → Prop} {event : Told A ε} (h : s.Uses allowed)
    (htrace : s.Trace log x)
    (hmem : event ∈ log) : allowed event.1 := by
  induction htrace with
  | done a => cases hmem
  | fail e => cases hmem
  | call hk ih =>
    rcases List.mem_cons.mp hmem with rfl | hmem
    · exact h.1
    · exact ih (h.2 _) hmem

end Beam.Script
