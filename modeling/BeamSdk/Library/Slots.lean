import Mathlib.Logic.Function.Basic
import Mathlib.Data.List.Nodup

/-! An array with the position of each of its entries: membership and removal take constant time,
and removal moves the last entry into the freed slot. -/

namespace Beam

structure Slots (κ : Type*) where
  keys : List κ
  position : κ → ℕ

namespace Slots
variable {κ : Type*}

def empty : Slots κ := ⟨[], fun _ => 0⟩

def Positioned (s : Slots κ) : Prop := ∀ k i, s.position k = i + 1 ↔ s.keys[i]? = some k

theorem Positioned.empty : (Slots.empty : Slots κ).Positioned := by
  intro k i
  simp [Slots.empty]

theorem Positioned.position_eq_zero {s : Slots κ} (h : s.Positioned) (k : κ) : s.position k = 0 ↔
    k ∉ s.keys := by
  constructor
  · intro hp hk
    obtain ⟨i, hi⟩ := List.mem_iff_getElem?.mp hk
    have := (h k i).mpr hi
    omega
  · intro hk
    rcases hp : s.position k with _ | i
    · rfl
    · exact absurd (List.mem_of_getElem? ((h k i).mp hp)) hk

theorem Positioned.nodup {s : Slots κ} (h : s.Positioned) : s.keys.Nodup := by
  rw [List.nodup_iff_getElem?_ne_getElem?]
  intro i j hij hj he
  rw [List.getElem?_eq_getElem hj] at he
  have hi := (h _ i).mpr he
  have hj' := (h _ j).mpr (List.getElem?_eq_getElem hj)
  omega

variable [DecidableEq κ]

def push (s : Slots κ) (k : κ) : Slots κ where
  keys := s.keys ++ [k]
  position := Function.update s.position k (s.keys.length + 1)

/-- The last entry takes the slot of `k`, unless it is `k` itself, and the array shrinks by one.
`none` is an index outside the array. -/
def swapPop (s : Slots κ) (k : κ) : Option (Slots κ) :=
  match s.keys.getLast? with
  | none => none
  | some moved =>
    if s.position k = s.keys.length then
      some ⟨s.keys.dropLast, Function.update s.position k 0⟩
    else if s.position k - 1 < s.keys.length then
      some ⟨(s.keys.set (s.position k - 1) moved).dropLast,
        Function.update (Function.update s.position moved (s.position k)) k 0⟩
    else none

theorem mem_push (s : Slots κ) (k j : κ) : j ∈ (s.push k).keys ↔ j ∈ s.keys ∨ j = k := by
  simp only [push, List.mem_append, List.mem_singleton]

theorem Positioned.push {s : Slots κ} (h : s.Positioned) {k : κ} (hk : k ∉ s.keys) :
    (s.push k).Positioned := by
  intro j i
  have hz := (h.position_eq_zero k).mpr hk
  have hkey := h j i
  simp only [Slots.push, Function.update_apply, List.getElem?_append]
  by_cases hj : j = k
  · subst hj
    have hne : s.keys[i]? ≠ some j := fun he => by
      have := hkey.mpr he
      omega
    grind
  · grind

/-- Removing a key the array holds stays inside the array, keeps every position right and drops
that key alone. -/
theorem Positioned.swapPop {s : Slots κ} (h : s.Positioned) {k : κ} (hk : k ∈ s.keys) :
    ∃ t, s.swapPop k = some t ∧ t.Positioned ∧ t.keys.length + 1 = s.keys.length ∧
      ∀ j, j ∈ t.keys ↔ j ∈ s.keys ∧ j ≠ k := by
  obtain ⟨p, hp⟩ := List.mem_iff_getElem?.mp hk
  have hpos : s.position k = p + 1 := (h k p).mpr hp
  have hlt : p < s.keys.length := (List.getElem?_eq_some_iff.mp hp).1
  obtain ⟨moved, hmoved⟩ : ∃ moved, s.keys[s.keys.length - 1]? = some moved :=
    ⟨_, List.getElem?_eq_getElem (by omega)⟩
  have hposm : s.position moved = s.keys.length := by
    have := (h moved (s.keys.length - 1)).mpr hmoved
    omega
  simp only [Slots.swapPop, List.getLast?_eq_getElem?, hmoved, hpos]
  by_cases he : p + 1 = s.keys.length
  · rw [if_pos he]
    have hok : Positioned ⟨s.keys.dropLast, Function.update s.position k 0⟩ := by
      intro j i
      have hji := h j i
      simp only [Function.update_apply, List.getElem?_dropLast]
      grind
    refine ⟨_, rfl, hok, ?_, fun j => ?_⟩
    · simp only [List.length_dropLast]
      omega
    · have hj := hok.position_eq_zero j
      have hj' := h.position_eq_zero j
      simp only [Function.update_apply] at hj
      grind
  · rw [if_neg he, if_pos (by omega)]
    have hok : Positioned ⟨(s.keys.set p moved).dropLast,
        Function.update (Function.update s.position moved (p + 1)) k 0⟩ := by
      intro j i
      have hji := h j i
      simp only [Function.update_apply, List.getElem?_dropLast, List.length_set, List.getElem?_set]
      grind
    refine ⟨_, rfl, hok, ?_, fun j => ?_⟩
    · simp only [Nat.add_sub_cancel, List.length_dropLast, List.length_set]
      omega
    · have hj := hok.position_eq_zero j
      have hj' := h.position_eq_zero j
      simp only [Function.update_apply] at hj
      grind

theorem Positioned.swapPop_position {s t : Slots κ} (h : s.Positioned) {k : κ}
    (ht : s.swapPop k = some t) (j : κ) :
    t.position j ≤ s.position j := by
  unfold Slots.swapPop at ht
  split at ht
  · cases ht
  · rename_i moved hmoved
    have hlast : s.position moved = s.keys.length := by
      obtain ⟨i, hi⟩ : ∃ i, s.keys.length = i + 1 :=
        Nat.exists_eq_succ_of_ne_zero fun h0 => by simp [List.length_eq_zero_iff.mp h0] at hmoved
      rw [List.getLast?_eq_getElem?, hi, Nat.add_sub_cancel] at hmoved
      rw [(h moved i).mpr hmoved, hi]
    split_ifs at ht with he hlt
    · cases ht
      simp only [Function.update_apply]
      split_ifs
      · exact Nat.zero_le _
      · exact Nat.le_refl _
    · cases ht
      simp only [Function.update_apply]
      split_ifs with hjk hjm
      · exact Nat.zero_le _
      · rw [hjm, hlast]
        omega
      · exact Nat.le_refl _

end Slots
end Beam
