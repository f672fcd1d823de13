import BeamSdk.Library.Result

/-! What calling an iterator until it has nothing left yields. -/

namespace Beam
variable {ε α σ : Type*}

/-- From a state, calls of `next` yield the items, and the call after the last of them finds that
none is left. -/
inductive Drains (next : σ → Except ε (Option α) × σ) : σ → List α → Prop
  | nil {s s' : σ} (hnext : next s = (.ok none, s')) : Drains next s []
  | cons {s s' : σ} {item : α} {items : List α} (hnext : next s = (.ok (some item), s'))
      (hrest : Drains next s' items) : Drains next s (item :: items)

namespace Drains
variable {next : σ → Except ε (Option α) × σ} {s s' : σ} {items items' : List α}

theorem unique (h : Drains next s items) (h' : Drains next s items') : items = items' := by
  induction h generalizing items' with
  | nil hnext =>
    cases h' with
    | nil _ => rfl
    | cons hnext' _ => simp [hnext'] at hnext
  | cons hnext _ ih =>
    cases h' with
    | nil hnext' => simp [hnext'] at hnext
    | cons hnext' hrest' =>
      simp only [hnext', Prod.mk.injEq, Except.ok.injEq, Option.some.injEq] at hnext
      obtain ⟨rfl, rfl⟩ := hnext
      rw [ih hrest']

theorem of_next_eq (hnext : next s = next s') (h : Drains next s' items) : Drains next s items := by
  cases h with
  | nil hnext' => exact .nil (hnext.trans hnext')
  | cons hnext' hrest => exact .cons (hnext.trans hnext') hrest

end Drains

section Loops
universe u v
variable {m : Type u → Type v} [Monad m] [LawfulMonad m] {α : Type*} {β : Type u}

theorem mapM_eq_pure {f : α → m β} {g : α → β} {xs : List α} (h : ∀ x ∈ xs, f x = pure (g x)) :
    xs.mapM f = pure (xs.map g) := by
  induction xs with
  | nil => exact List.mapM_nil
  | cons x xs ih =>
    have hrest := ih fun y hy => h y (List.mem_cons_of_mem _ hy)
    simp only [List.mapM_cons, h x List.mem_cons_self, hrest, pure_bind, List.map_cons]

end Loops
end Beam
