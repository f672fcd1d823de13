import Mathlib.Data.List.Basic

/-! Inverting computations that return an `Except`. -/

namespace Beam
universe u v
variable {ε : Type u} {α β σ : Type v}

theorem bind_eq_ok {x : Except ε α} {f : α → Except ε β} {b : β} :
    (x >>= f) = .ok b ↔ ∃ a, x = .ok a ∧ f a = .ok b := by
  cases x with
  | error e =>
    constructor
    · intro h
      cases h
    · rintro ⟨_, h, _⟩
      cases h
  | ok a =>
    constructor
    · intro h
      exact ⟨a, rfl, h⟩
    · rintro ⟨_, h, h'⟩
      cases h
      exact h'

theorem bind_eq_error {x : Except ε α} {f : α → Except ε β} {e : ε} :
    (x >>= f) = .error e ↔ x = .error e ∨ ∃ a, x = .ok a ∧ f a = .error e := by
  cases x with
  | error e' =>
    constructor
    · intro h
      cases h
      exact .inl rfl
    · rintro (h | ⟨_, h, _⟩) <;> cases h
      rfl
  | ok a =>
    constructor
    · intro h
      exact .inr ⟨a, rfl, h⟩
    · rintro (h | ⟨_, h, h'⟩) <;> cases h
      exact h'

theorem ok_of_toOption {x : Except ε α} {a : α} (h : x.toOption = some a) : x = .ok a := by
  cases x with
  | error e => cases h
  | ok b => exact congrArg Except.ok (Option.some.inj h)

theorem guard_eq_ok {c : Prop} [Decidable c] {e : ε} {α : Type v} {k : α → Except ε β}
    {x : Except ε β} {b : β} :
    (if c then (throw e >>= k) else x) = .ok b ↔ ¬ c ∧ x = .ok b := by
  by_cases hc : c
  · rw [if_pos hc]
    constructor
    · intro h
      cases h
    · rintro ⟨hnot, -⟩
      exact absurd hc hnot
  · rw [if_neg hc]
    exact ⟨fun h => ⟨hc, h⟩, fun h => h.2⟩

theorem foldlM_cons_eq_ok {f : σ → α → Except ε σ} {s t : σ} {x : α} {xs : List α} :
    (x :: xs).foldlM f s = .ok t ↔ ∃ u, f s x = .ok u ∧ xs.foldlM f u = .ok t := by
  rw [List.foldlM_cons, bind_eq_ok]

theorem mapM_eq_ok {f : α → Except ε β} {xs : List α} {ys : List β} (h : xs.mapM f = .ok ys) :
    ys.length = xs.length ∧ ∀ y ∈ ys, ∃ x ∈ xs, f x = .ok y := by
  induction xs generalizing ys with
  | nil =>
    cases h
    exact ⟨rfl, fun y hy => absurd hy List.not_mem_nil⟩
  | cons x xs ih =>
    rw [List.mapM_cons] at h
    obtain ⟨y, hy, h⟩ := bind_eq_ok.mp h
    obtain ⟨ys', hys, h⟩ := bind_eq_ok.mp h
    cases h
    obtain ⟨hlength, hmem⟩ := ih hys
    refine ⟨congrArg Nat.succ hlength,
      List.forall_mem_cons.mpr ⟨⟨x, List.mem_cons_self .., hy⟩, fun z hz => ?_⟩⟩
    obtain ⟨w, hw, hwz⟩ := hmem z hz
    exact ⟨w, List.mem_cons_of_mem _ hw, hwz⟩

theorem foldlM_invariant {f : σ → α → Except ε σ} {P : σ → Prop} {xs : List α} {s t : σ}
    (hstep : ∀ s, P s → ∀ x ∈ xs, ∀ u, f s x = .ok u → P u) (h : xs.foldlM f s = .ok t) (hs : P s) :
    P t := by
  induction xs generalizing s with
  | nil =>
    cases h
    exact hs
  | cons x xs ih =>
    obtain ⟨u, hu, hxs⟩ := foldlM_cons_eq_ok.mp h
    have hP : P u := hstep s hs x (List.mem_cons_self ..) u hu
    exact ih (fun s hs y hy => hstep s hs y (List.mem_cons_of_mem _ hy)) hxs hP

theorem foldlM_error {f : σ → α → Except ε σ} {P : σ → Prop} {xs : List α} {s : σ} {e : ε}
    (hstep : ∀ s, P s → ∀ x ∈ xs, ∀ u, f s x = .ok u → P u) (hs : P s)
    (h : xs.foldlM f s = .error e) :
    ∃ x ∈ xs, ∃ u, P u ∧ f u x = .error e := by
  induction xs generalizing s with
  | nil => cases h
  | cons x xs ih =>
    rw [List.foldlM_cons] at h
    rcases bind_eq_error.mp h with hx | ⟨u, hu, hxs⟩
    · exact ⟨x, List.mem_cons_self .., s, hs, hx⟩
    · have hP : P u := hstep s hs x (List.mem_cons_self ..) u hu
      obtain ⟨y, hy, v, hv, hfail⟩ :=
        ih (fun s hs y hy => hstep s hs y (List.mem_cons_of_mem _ hy)) hP hxs
      exact ⟨y, List.mem_cons_of_mem _ hy, v, hv, hfail⟩

/-- A loop whose steps are related by `R` and settle their own element, where what is settled stays
so along `R`, settles every element. -/
theorem foldlM_settles {f : σ → α → Except ε σ} {R : σ → σ → Prop} {S : α → σ → Prop} {xs : List α}
    (hrefl : ∀ s, R s s) (htrans : ∀ s t u, R s t → R t u → R s u)
    {I : σ → Prop} (hI : ∀ s t, I s → R s t → I t)
    (hstep : ∀ s, I s → ∀ x ∈ xs, ∀ t, f s x = .ok t → R s t ∧ S x t)
    (hstable : ∀ x ∈ xs, ∀ s t, I s → R s t → S x s → S x t) {s t : σ} (hs : I s)
    (h : xs.foldlM f s = .ok t) : R s t ∧ ∀ x ∈ xs, S x t := by
  induction xs generalizing s with
  | nil =>
    cases h
    exact ⟨hrefl _, fun x hx => absurd hx List.not_mem_nil⟩
  | cons x xs ih =>
    obtain ⟨u, hu, hxs⟩ := foldlM_cons_eq_ok.mp h
    obtain ⟨hsu, hx⟩ := hstep s hs x (List.mem_cons_self ..) u hu
    have hIu := hI s u hs hsu
    obtain ⟨hut, hrest⟩ := ih (fun s hs y hy => hstep s hs y (List.mem_cons_of_mem _ hy))
      (fun y hy => hstable y (List.mem_cons_of_mem _ hy)) hIu hxs
    refine ⟨htrans s u t hsu hut, fun y hy => ?_⟩
    rcases List.mem_cons.mp hy with rfl | hy
    · exact hstable y (List.mem_cons_self ..) u t hIu hut hx
    · exact hrest y hy

theorem foldlM_total {f : σ → α → Except ε σ} {I : σ → Prop} {xs : List α}
    (hstep : ∀ s, I s → ∀ x ∈ xs, ∃ t, f s x = .ok t ∧ I t) {s : σ} (hs : I s) : ∃ t,
      xs.foldlM f s = .ok t ∧ I t := by
  induction xs generalizing s with
  | nil => exact ⟨s, rfl, hs⟩
  | cons x xs ih =>
    obtain ⟨u, hu, hIu⟩ := hstep s hs x (List.mem_cons_self ..)
    obtain ⟨t, ht, hIt⟩ := ih (fun s hs y hy => hstep s hs y (List.mem_cons_of_mem _ hy)) hIu
    exact ⟨t, foldlM_cons_eq_ok.mpr ⟨u, hu, ht⟩, hIt⟩

theorem step_of_foldlM_eq_ok {f : σ → α → Except ε σ} {xs : List α} {s t : σ}
    (h : xs.foldlM f s = .ok t) {x : α}
    (hx : x ∈ xs) : ∃ u v, f u x = .ok v := by
  induction xs generalizing s with
  | nil => exact absurd hx List.not_mem_nil
  | cons y xs ih =>
    obtain ⟨u, hu, hxs⟩ := foldlM_cons_eq_ok.mp h
    rcases List.mem_cons.mp hx with rfl | hx
    · exact ⟨s, u, hu⟩
    · exact ih hxs hx

theorem foldlM_eq_self {f : σ → α → Except ε σ} {xs : List α} {s : σ}
    (h : ∀ x ∈ xs, f s x = .ok s) :
    xs.foldlM f s = .ok s := by
  induction xs with
  | nil => rfl
  | cons x xs ih =>
    have hxs := ih fun y hy => h y (List.mem_cons_of_mem _ hy)
    exact foldlM_cons_eq_ok.mpr ⟨s, h x (List.mem_cons_self ..), hxs⟩

end Beam
