import Mathlib.Data.List.Induction
import Mathlib.Logic.Relation

/-! Labelled transition systems: runs, reachable states, and the two induction rules that carry an
invariant along a run and a relation across one. -/

namespace Beam

structure System (σ ι : Type*) where
  init : σ → Prop
  step : σ → ι → σ → Prop

namespace System
variable {σ ι : Type*} (S : System σ ι)

/-- `S.Runs s is t`: taking the labels `is` in order leads from `s` to `t`. -/
inductive Runs : σ → List ι → σ → Prop
  | nil (s : σ) : Runs s [] s
  | snoc {s t u : σ} {is : List ι} {i : ι} : Runs s is t → S.step t i u → Runs s (is ++ [i]) u

def Later (s t : σ) : Prop := ∃ is, S.Runs s is t

def Reachable (s : σ) : Prop := ∃ s₀, S.init s₀ ∧ S.Later s₀ s

variable {S}

theorem Runs.append {s t u : σ} {is js : List ι} (h : S.Runs s is t) (h' : S.Runs t js u) :
    S.Runs s (is ++ js) u := by
  induction h' with
  | nil => simpa only [List.append_nil] using h
  | snoc _ hstep ih => simpa only [List.append_assoc] using ih.snoc hstep

theorem Later.refl (s : σ) : S.Later s s := ⟨[], .nil s⟩

theorem Later.single {s t : σ} {i : ι} (h : S.step s i t) : S.Later s t :=
    ⟨[i], (Runs.nil s).snoc h⟩

theorem Later.trans {s t u : σ} (h : S.Later s t) (h' : S.Later t u) : S.Later s u := by
  obtain ⟨is, his⟩ := h
  obtain ⟨js, hjs⟩ := h'
  exact ⟨is ++ js, his.append hjs⟩

theorem Reachable.later {s t : σ} (h : S.Reachable s) (h' : S.Later s t) : S.Reachable t := by
  obtain ⟨s₀, hinit, hs⟩ := h
  exact ⟨s₀, hinit, hs.trans h'⟩

theorem Later.invariant {I : σ → Prop} (hstep : ∀ s i t, I s → S.step s i t → I t) {s t : σ}
    (h : S.Later s t) (hs : I s) : I t := by
  obtain ⟨is, hr⟩ := h
  induction hr with
  | nil => exact hs
  | snoc _ hlast ih => exact hstep _ _ _ ih hlast

theorem Reachable.invariant {I : σ → Prop} (hinit : ∀ s, S.init s → I s)
    (hstep : ∀ s i t, I s → S.step s i t → I t) {s : σ} (h : S.Reachable s) : I s := by
  obtain ⟨s₀, h₀, hl⟩ := h
  exact hl.invariant hstep (hinit s₀ h₀)

/-- A reflexive and transitive relation that holds across every step from a state with the
invariant holds across every run from one. -/
theorem Later.relates {I : σ → Prop} {R : σ → σ → Prop}
    (hstep : ∀ s i t, I s → S.step s i t → I t) (hrefl : ∀ s, R s s)
    (htrans : ∀ s t u, R s t → R t u → R s u) (hrel : ∀ s i t, I s → S.step s i t → R s t)
    {s t : σ} (h : S.Later s t) (hs : I s) : R s t := by
  obtain ⟨is, hr⟩ := h
  induction hr with
  | nil => exact hrefl _
  | snoc hprev hlast ih =>
    have hI := Later.invariant hstep ⟨_, hprev⟩ hs
    exact htrans _ _ _ ih (hrel _ _ _ hI hlast)

/-- A machine whose labels may happen in some states only and then change the state in one way. -/
def guarded (init : σ → Prop) (allowed : σ → ι → Prop) (apply : σ → ι → σ) : System σ ι where
  init := init
  step s i t := allowed s i ∧ t = apply s i

theorem guarded_runs_iff {init : σ → Prop} {allowed : σ → ι → Prop} {apply : σ → ι → σ} {s t : σ}
    {is : List ι} :
    (guarded init allowed apply).Runs s is t ↔
      t = is.foldl apply s ∧ ∀ done i rest, is = done ++ i :: rest →
        allowed (done.foldl apply s) i := by
  constructor
  · intro h
    induction h with
    | nil =>
      refine ⟨rfl, fun done i rest he => ?_⟩
      simp only [List.nil_eq, List.append_eq_nil_iff, reduceCtorEq, and_false] at he
    | snoc _ hstep ih =>
      obtain ⟨hallowed, rfl⟩ := hstep
      obtain ⟨rfl, hdone⟩ := ih
      refine ⟨by rw [List.foldl_append]; rfl, fun done i rest he => ?_⟩
      rcases List.eq_nil_or_concat rest with rfl | ⟨rest, k, rfl⟩
      · obtain ⟨rfl, hj⟩ := List.append_inj' he rfl
        cases hj
        exact hallowed
      · rw [List.concat_eq_append, ← List.cons_append, ← List.append_assoc] at he
        exact hdone done i rest (List.append_inj' he rfl).1
  · rintro ⟨rfl, hallowed⟩
    induction is using List.reverseRecOn with
    | nil => exact .nil s
    | append_singleton is i ih =>
      rw [List.foldl_append]
      refine (ih fun done j rest he => ?_).snoc ⟨hallowed is i [] rfl, rfl⟩
      refine hallowed done j (rest ++ [i]) ?_
      rw [he, List.append_assoc, List.cons_append]

end System
end Beam
