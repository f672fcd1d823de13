import Mathlib.Logic.Function.Basic
import BeamSdk.Library.Transition

/-! Maps that a run fills in: where the entries of the later map come from. -/

namespace Beam

/-- Each entry of `g` is as in `f`, or was absent there and has `source` for its origin. -/
def Became {α β : Type} (absent : β → Prop) (source : α → β → Prop) (f g : α → β) : Prop :=
  ∀ a, g a = f a ∨ (absent (f a) ∧ source a (g a))

namespace Became
variable {α β : Type} {absent : β → Prop} {source source' : α → β → Prop} {f g h : α → β}

theorem refl (f : α → β) : Became absent source f f := fun _ => .inl rfl

theorem trans (hfg : Became absent source f g) (hgh : Became absent source g h) :
    Became absent source f h := by
  intro a
  rcases hgh a with he | ⟨habsent, hsource⟩
  · rcases hfg a with hf | ⟨habsent, hsource⟩
    · exact .inl (he.trans hf)
    · exact .inr ⟨habsent, he ▸ hsource⟩
  · rcases hfg a with hf | ⟨habsent', -⟩
    · exact .inr ⟨hf ▸ habsent, hsource⟩
    · exact .inr ⟨habsent', hsource⟩

theorem update [DecidableEq α] {x : α} {b : β} (habsent : absent (f x)) (hsource : source x b) :
    Became absent source f (Function.update f x b) := by
  intro a
  by_cases ha : a = x
  · subst ha
    exact .inr ⟨habsent, by rwa [Function.update_self]⟩
  · exact .inl (Function.update_of_ne ha b f)

theorem mono (hfg : Became absent source f g) (hsource : ∀ a b, source a b → source' a b) :
    Became absent source' f g :=
  fun a => (hfg a).imp_right fun ha => ⟨ha.1, hsource a _ ha.2⟩

/-- Along a run, what was absent and is there has an origin: a label of the run that wrote it where
it was still absent. -/
theorem of_runs {σ ι : Type} {S : System σ ι} {I : σ → Prop} (view : σ → α → β)
    (wrote : σ → ι → α → β → Prop)
    (hI : ∀ s i t, I s → S.step s i t → I t)
    (hstep : ∀ s i t, I s → S.step s i t → Became absent (wrote s i) (view s) (view t))
    {s t : σ} {is : List ι} (hr : S.Runs s is t) (hs : I s) :
    Became absent (fun a b => ∃ before i after u, is = before ++ i :: after ∧ S.Runs s before u ∧
      absent (view u a) ∧ wrote u i a b) (view s) (view t) := by
  induction hr with
  | nil => exact .refl _
  | @snoc t u is i hr hlast ih =>
    have hIt : I t := System.Later.invariant hI ⟨is, hr⟩ hs
    refine (ih.mono ?_).trans ?_
    · rintro a b ⟨before, j, after, v, rfl, hv, hwrote⟩
      exact ⟨before, j, after ++ [i], v, by rw [List.append_assoc, List.cons_append], hv, hwrote⟩
    · intro a
      refine (hstep t i u hIt hlast a).imp_right fun ha => ⟨ha.1, is, i, [], t, rfl, hr, ha⟩

end Became

end Beam
