import Mathlib.Data.Set.Finite.Basic
import Mathlib.Data.Fintype.Pigeonhole

/-! The states that a partial function leads to, one after the other. -/

namespace Beam.Orbit
variable {σ : Type*} (next : σ → Option σ)

def orbit (s : σ) : ℕ → Option σ
  | 0 => some s
  | k + 1 => (orbit s k).bind next

def Ends (s : σ) : Prop := ∃ k, orbit next s k = none

def Revisits (s : σ) : Prop := ∃ i j t, i < j ∧ orbit next s i = some t ∧ orbit next s j = some t

variable {next} {s t : σ}

theorem orbit_add (m n : ℕ) : orbit next s (m + n) = (orbit next s m).bind fun t =>
    orbit next t n := by
  induction n with
  | zero =>
    exact (Option.bind_fun_some _).symm
  | succ n ih =>
    show (orbit next s (m + n)).bind next = _
    rw [ih, Option.bind_assoc]
    rfl

theorem orbit_none {k n : ℕ} (h : orbit next s k = none) (hle : k ≤ n) : orbit next s n = none := by
  obtain ⟨d, rfl⟩ := Nat.exists_eq_add_of_le hle
  rw [orbit_add, h]
  rfl

theorem orbit_succ (h : next s = some t) (k : ℕ) : orbit next s (k + 1) = orbit next t k := by
  rw [Nat.add_comm, orbit_add]
  show (next s).bind _ = _
  rw [h]
  rfl

theorem Revisits.not_ends (h : Revisits next s) : ¬ Ends next s := by
  obtain ⟨i, j, t, hlt, hi, hj⟩ := h
  obtain ⟨d, rfl⟩ := Nat.exists_eq_add_of_le (Nat.le_of_lt hlt)
  have hd : 0 < d := by omega
  have hloop : orbit next t d = some t := by
    rw [orbit_add, hi] at hj
    exact hj
  have hback : ∀ n, orbit next s (i + d * n) = some t := by
    intro n
    induction n with
    | zero => exact hi
    | succ n ih =>
      rw [Nat.mul_succ, ← Nat.add_assoc, orbit_add, ih]
      exact hloop
  rintro ⟨k, hk⟩
  have hnone :=
    orbit_none hk (Nat.le_trans (Nat.le_mul_of_pos_left k hd) (Nat.le_add_left (d * k) i))
  rw [hback k] at hnone
  cases hnone

theorem ends_or_revisits {states : Set σ} (hfinite : states.Finite)
    (hmem : ∀ k t, orbit next s k = some t → t ∈ states) :
    Ends next s ∨ Revisits next s := by
  by_cases hends : Ends next s
  · exact .inl hends
  · have hsome : ∀ k, ∃ t, orbit next s k = some t :=
      fun k => Option.ne_none_iff_exists'.mp fun hnone => hends ⟨k, hnone⟩
    choose state hstate using hsome
    have hfinite' : Finite states := hfinite
    obtain ⟨i, j, hne, heq⟩ := Finite.exists_ne_map_eq_of_infinite fun k =>
      (⟨state k, hmem k _ (hstate k)⟩ : states)
    have heq : state i = state j := congrArg Subtype.val heq
    rcases Nat.lt_or_gt_of_ne hne with hlt | hgt
    · exact .inr ⟨i, j, state i, hlt, hstate i, heq ▸ hstate j⟩
    · exact .inr ⟨j, i, state i, hgt, heq ▸ hstate j, hstate i⟩

theorem ends_iff {states : Set σ} (hfinite : states.Finite)
    (hmem : ∀ k t, orbit next s k = some t → t ∈ states) :
    Ends next s ↔ ¬ Revisits next s :=
  ⟨fun hends hrevisits => hrevisits.not_ends hends, fun hnot =>
    (ends_or_revisits hfinite hmem).resolve_right hnot⟩

end Beam.Orbit
