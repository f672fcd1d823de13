import Mathlib.Algebra.BigOperators.Group.List.Basic
import Mathlib.Algebra.Order.Monoid.Canonical.Defs
import BeamSdk.Library.Script

/-! Runs of a program against an environment that may answer each call in several ways, and the
rules for what such runs can spend, call and come to. -/

namespace Beam.Script
variable {C : Type} {A : C → Type} {ε α β γ : Type}

/-- The calls a run makes, each answered as the environment may, and what the run comes to. -/
inductive Runs (env : (c : C) → Except ε (A c) → Prop) : Script C A ε α → List C → Except ε α → Prop
  | done (a : α) : Runs env (done a) [] (.ok a)
  | fail (e : ε) : Runs env (fail e) [] (.error e)
  | call {c : C} {k : Except ε (A c) → Script C A ε α} {r : Except ε (A c)} {calls : List C}
      {x : Except ε α} :
      env c r → Runs env (k r) calls x → Runs env (call c k) (c :: calls) x

theorem Runs.of_run {env : (c : C) → Except ε (A c) → Prop} {answers : (c : C) → Except ε (A c)}
    (h : ∀ c, env c (answers c)) (s : Script C A ε α) :
      Runs env s (s.run answers).2 (s.run answers).1 := by
  induction s with
  | done a => exact .done a
  | fail e => exact .fail e
  | call c k ih => exact .call (h c) (ih (answers c))

section Spends
variable {M : Type} [AddCommMonoid M] [PartialOrder M]

/-- Every run spends at most so much, makes only the calls allowed, and comes to a value or a
failure as told. -/
def Spends (env : (c : C) → Except ε (A c) → Prop) (price : C → M) (allowed : C → Prop)
    (failure : ε → Prop)
    (P : α → Prop) : Script C A ε α → M → Prop
  | done a, _ => P a
  | fail e, _ => failure e
  | call c k, n => allowed c ∧ ∃ m, price c + m ≤ n ∧ ∀ r, env c r →
      Spends env price allowed failure P (k r) m

variable {env : (c : C) → Except ε (A c) → Prop} {price : C → M} {allowed : C → Prop}
    {failure : ε → Prop}
  {P Q : α → Prop} {s : Script C A ε α} {n m : M}

theorem Spends.mono (h : s.Spends env price allowed failure P n) (hnm : n ≤ m)
    (hP : ∀ a, P a → Q a) :
    s.Spends env price allowed failure Q m := by
  induction s generalizing n m with
  | done a => exact hP a h
  | fail e => exact h
  | call c k ih =>
    obtain ⟨hc, m', hle, hk⟩ := h
    exact ⟨hc, m', hle.trans hnm, fun r hr => ih r (hk r hr) (le_refl m')⟩

theorem Spends.io {c : C} {P : A c → Prop} (hc : allowed c) (hok : ∀ a, env c (.ok a) → P a)
    (herror : ∀ e, env c (.error e) → failure e) :
    (Script.io c : Script C A ε (A c)).Spends env price allowed failure P (price c) := by
  refine ⟨hc, 0, (add_zero _).le, fun r hr => ?_⟩
  cases r with
  | ok a => exact hok a hr
  | error e => exact herror e hr

theorem Spends.ofExcept {x : Except ε α} (hok : ∀ a, x = .ok a → P a)
    (herror : ∀ e, x = .error e → failure e) :
    (Script.ofExcept x : Script C A ε α).Spends env price allowed failure P n := by
  cases x with
  | ok a => exact hok a rfl
  | error e => exact herror e rfl

section Ordered
variable [IsOrderedAddMonoid M] [CanonicallyOrderedAdd M]

theorem Spends.bind {R : β → Prop} {f : α → Script C A ε β}
    (h : s.Spends env price allowed failure P n)
    (hf : ∀ a, P a → (f a).Spends env price allowed failure R m) :
    (s >>= f).Spends env price allowed failure R (n + m) := by
  induction s generalizing n with
  | done a => exact (hf a h).mono (le_add_of_nonneg_left (zero_le)) fun _ hb => hb
  | fail e => exact h
  | call c k ih =>
    obtain ⟨hc, n', hle, hk⟩ := h
    refine ⟨hc, n' + m, ?_, fun r hr => ih r (hk r hr)⟩
    calc price c + (n' + m) = price c + n' + m := (add_assoc _ _ _).symm
      _ ≤ n + m := add_le_add_left hle m

theorem Spends.foldlM {f : α → γ → Script C A ε α} {xs : List γ} {cost : γ → M} {adds : γ → ℕ}
    {size : α → ℕ}
    {a : α}
    (hf : ∀ x ∈ xs, ∀ b, (f b x).Spends env price allowed failure
      (fun b' => size b' ≤ size b + adds x) (cost x)) :
    (xs.foldlM f a).Spends env price allowed failure (fun b => size b ≤ size a + (xs.map adds).sum)
    (xs.map cost).sum := by
  induction xs generalizing a with
  | nil =>
    exact Nat.le_add_right (size a) 0
  | cons x xs ih =>
    rw [List.foldlM_cons, List.map_cons, List.sum_cons]
    refine (hf x (List.mem_cons_self ..) a).bind fun b hb => ?_
    refine (ih (a := b) fun y hy => hf y (List.mem_cons_of_mem _ hy)).mono (le_refl _) fun b' hb' =>
      ?_
    omega

theorem Spends.runs {calls : List C} {x : Except ε α} (h : s.Spends env price allowed failure P n)
    (hrun : Runs env s calls x) :
    (calls.map price).sum ≤ n ∧ (∀ c ∈ calls, allowed c) ∧ (∀ a, x = .ok a → P a) ∧
      ∀ e, x = .error e → failure e := by
  induction hrun generalizing n with
  | done a =>
    refine ⟨zero_le, fun c hc => absurd hc List.not_mem_nil, fun b hb => ?_, fun e he => nomatch he⟩
    cases hb
    exact h
  | fail e =>
    refine ⟨zero_le, fun c hc => absurd hc List.not_mem_nil, fun b hb =>
      (nomatch hb), fun e' he => ?_⟩
    cases he
    exact h
  | call henv _ ih =>
    obtain ⟨hc, m, hle, hk⟩ := h
    obtain ⟨hsum, hallowed, hresult⟩ := ih (hk _ henv)
    refine ⟨?_, List.forall_mem_cons.mpr ⟨hc, hallowed⟩, hresult⟩
    rw [List.map_cons, List.sum_cons]
    exact (add_le_add_right hsum _).trans hle

end Ordered
end Spends
end Beam.Script
