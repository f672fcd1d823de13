import Mathlib.Data.List.Basic

/-! Workers that hold keys: a list of workers, each of which holds one key or none, where no key is
held twice. -/

namespace Beam.Holders
variable {α κ : Type*} {key : α → Option κ} {ws : List α} {w : α} {k : κ} {r : ℕ} {f : α → α}

def keyAt (key : α → Option κ) (ws : List α) (r : ℕ) : Option κ := (ws[r]?).bind key

def Exclusive (key : α → Option κ) (ws : List α) : Prop :=
  ∀ r r' k, keyAt key ws r = some k → keyAt key ws r' = some k → r = r'

theorem keyAt_entry (hentry : ws[r]? = some w) : keyAt key ws r = key w := by
  rw [keyAt, hentry, Option.bind_some]

theorem entry_of_keyAt (h : keyAt key ws r = some k) : ∃ w, ws[r]? = some w ∧ key w = some k :=
  Option.bind_eq_some_iff.mp h

theorem keyAt_append : keyAt key (ws ++ [w]) r = some k ↔ keyAt key ws r = some k ∨ r = ws.length ∧
    key w = some k := by
  unfold keyAt
  rcases Nat.lt_trichotomy r ws.length with hlt | rfl | hlt
  · rw [List.getElem?_append_left hlt]
    exact (or_iff_left fun h => Nat.ne_of_lt hlt h.1).symm
  · rw [List.getElem?_concat_length, List.getElem?_eq_none (Nat.le_refl _)]
    simp
  · rw [List.getElem?_eq_none (by simp; omega), List.getElem?_eq_none (Nat.le_of_lt hlt)]
    simp [Nat.ne_of_gt hlt]

theorem getElem?_modify_entry (hentry : ws[r]? = some w) : (ws.modify r f)[r]? = some (f w) := by
  rw [List.getElem?_modify_eq, hentry]
  rfl

theorem keyAt_modify (hentry : ws[r]? = some w) : keyAt key (ws.modify r f) r = key (f w) :=
  keyAt_entry (getElem?_modify_entry hentry)

theorem keyAt_modify_ne {r' : ℕ} (hr : r ≠ r') : keyAt key (ws.modify r f) r' =
    keyAt key ws r' := by
  rw [keyAt, List.getElem?_modify_ne _ _ hr, keyAt]

theorem keyAt_of_modify (hentry : ws[r]? = some w)
    (hkeeps : key (f w) = some k → key w = some k) {r' : ℕ}
    (h : keyAt key (ws.modify r f) r' = some k) : keyAt key ws r' = some k := by
  by_cases hr : r = r'
  · subst hr
    rw [keyAt_modify hentry] at h
    rw [keyAt_entry hentry]
    exact hkeeps h
  · rwa [keyAt_modify_ne hr] at h

theorem Exclusive.modify (hs : Exclusive key ws) (hentry : ws[r]? = some w)
    (hkeeps : ∀ k, key (f w) = some k → key w = some k) : Exclusive key (ws.modify r f) :=
  fun r₁ r₂ k h₁ h₂ => hs r₁ r₂ k (keyAt_of_modify hentry (hkeeps k) h₁)
    (keyAt_of_modify hentry (hkeeps k) h₂)

variable [DecidableEq κ]

def holder (key : α → Option κ) (ws : List α) (k : κ) : Option α := ws.find? fun w => key w = some k

theorem holder_eq_none : holder key ws k = none ↔ ∀ w ∈ ws, key w ≠ some k := by
  simp [holder]

theorem holder_eq_none_iff_keyAt : holder key ws k = none ↔ ∀ r, keyAt key ws r ≠ some k := by
  rw [holder_eq_none]
  constructor
  · intro h r hr
    obtain ⟨w, hentry, hkey⟩ := entry_of_keyAt hr
    exact h w (List.mem_of_getElem? hentry) hkey
  · intro h w hmem hkey
    obtain ⟨r, hentry⟩ := List.mem_iff_getElem?.mp hmem
    exact h r ((keyAt_entry hentry).trans hkey)

theorem entry_of_holder (h : holder key ws k = some w) : ∃ r : ℕ, ws[r]? = some w ∧
    key w = some k := by
  have hkey := List.find?_some h
  obtain ⟨r, hr⟩ := List.mem_iff_getElem?.mp (List.mem_of_find?_eq_some h)
  exact ⟨r, hr, of_decide_eq_true hkey⟩

theorem holder_of_entry (hs : Exclusive key ws) (hentry : ws[r]? = some w) (hkey : key w = some k) :
    holder key ws k = some w := by
  cases hholder : holder key ws k with
  | none => exact absurd hkey (holder_eq_none.mp hholder w (List.mem_of_getElem? hentry))
  | some w' =>
    obtain ⟨r', hr', hkey'⟩ := entry_of_holder hholder
    obtain rfl := hs r r' k ((keyAt_entry hentry).trans hkey) ((keyAt_entry hr').trans hkey')
    exact hr'.symm.trans hentry

theorem holder_eq_some (hs : Exclusive key ws) : holder key ws k = some w ↔
    ∃ r : ℕ, ws[r]? = some w ∧ key w = some k := by
  constructor
  · exact entry_of_holder
  · intro ⟨r, hr, hkey⟩
    exact holder_of_entry hs hr hkey

theorem Exclusive.count_le (hs : Exclusive key ws) (k : κ) :
    ws.countP (fun w => key w = some k) ≤ 1 := by
  induction ws with
  | nil => simp
  | cons w ws ih =>
    have htail : Exclusive key ws := fun r r' k hr hr' =>
      Nat.succ.inj (hs (r + 1) (r' + 1) k hr hr')
    by_cases hkey : key w = some k
    · have hnone : ws.countP (fun w => key w = some k) = 0 := by
        apply List.countP_eq_zero.mpr
        intro w' hmem hkey'
        obtain ⟨r', hr'⟩ := List.mem_iff_getElem?.mp hmem
        have hlater : keyAt key (w :: ws) (r' + 1) = some k :=
          (keyAt_entry hr').trans (of_decide_eq_true hkey')
        have hsame := hs 0 (r' + 1) k hkey hlater
        exact absurd hsame (by simp)
      simp [hnone, hkey]
    · simpa [hkey] using ih htail

theorem Exclusive.append (hs : Exclusive key ws)
    (hnew : ∀ k, key w = some k → holder key ws k = none) :
    Exclusive key (ws ++ [w]) := by
  intro r r' k hr hr'
  rcases keyAt_append.mp hr with hold | ⟨rfl, hkey⟩
  · rcases keyAt_append.mp hr' with hold' | ⟨rfl, hkey⟩
    · exact hs r r' k hold hold'
    · exact absurd hold (holder_eq_none_iff_keyAt.mp (hnew k hkey) r)
  · rcases keyAt_append.mp hr' with hold' | ⟨rfl, -⟩
    · exact absurd hold' (holder_eq_none_iff_keyAt.mp (hnew k hkey) r')
    · rfl

theorem holder_append (hkey : key w = some k) (hnone : holder key ws k = none) :
    holder key (ws ++ [w]) k = some w := by
  have hold : ws.find? (fun w => key w = some k) = none := hnone
  simp [holder, List.find?_append, hold, hkey]

theorem holder_append_ne (hkey : key w ≠ some k) : holder key (ws ++ [w]) k = holder key ws k := by
  simp [holder, List.find?_append, hkey]

theorem holder_modify (hs : Exclusive key ws) (hentry : ws[r]? = some w) (hkey : key w = some k)
    (hkey' : key (f w) = some k) : holder key (ws.modify r f) k = some (f w) := by
  have hs' : Exclusive key (ws.modify r f) := by
    apply hs.modify hentry
    intro k' hk'
    rw [hkey, ← hkey', hk']
  exact holder_of_entry hs' (getElem?_modify_entry hentry) hkey'

theorem holder_modify_ne (hs : Exclusive key ws) (hentry : ws[r]? = some w)
    (hkeeps : ∀ k, key (f w) = some k → key w = some k) (hkey : key w ≠ some k) :
    holder key (ws.modify r f) k = holder key ws k := by
  apply Option.ext
  intro w'
  rw [holder_eq_some hs, holder_eq_some (hs.modify hentry hkeeps)]
  apply exists_congr
  intro r'
  by_cases hr : r = r'
  · subst hr
    rw [getElem?_modify_entry hentry, hentry]
    constructor
    · intro ⟨heq, hw'⟩
      cases heq
      exact absurd (hkeeps k hw') hkey
    · intro ⟨heq, hw'⟩
      cases heq
      exact absurd hw' hkey
  · rw [List.getElem?_modify_ne _ _ hr]

theorem holder_modify_none (hs : Exclusive key ws) (hentry : ws[r]? = some w)
    (hkey : key w = some k)
    (hkey' : key (f w) ≠ some k) : holder key (ws.modify r f) k = none := by
  apply holder_eq_none_iff_keyAt.mpr
  intro r' hr'
  by_cases hr : r = r'
  · subst hr
    rw [keyAt_modify hentry] at hr'
    exact hkey' hr'
  · rw [keyAt_modify_ne hr] at hr'
    exact hr (hs r r' k ((keyAt_entry hentry).trans hkey) hr')

end Beam.Holders
