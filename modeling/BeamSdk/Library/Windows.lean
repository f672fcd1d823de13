import Mathlib.Data.List.Basic
import Mathlib.Algebra.Order.Floor.Div

/-! The consecutive windows of a text, as a reader cuts them who is given the text piece by piece;
and digests that are given it piece by piece. -/

namespace Beam.Windows
variable {α β : Type*}

def window (size : ℕ) (body : List α) (i : ℕ) : List α := (body.drop (i * size)).take size

def windows (size : ℕ) (body : List α) : List (List α) :=
    (List.range (body.length ⌈/⌉ size)).map (window size body)

def full (size : ℕ) (body : List α) : List (List α) :=
    (List.range (body.length / size)).map (window size body)

def rest (size : ℕ) (body : List α) : List α := body.drop (body.length / size * size)

variable {size : ℕ} {body piece : List α}

theorem windows_length : (windows size body).length = body.length ⌈/⌉ size := by
  rw [windows, List.length_map, List.length_range]

theorem rest_length : (rest size body).length = body.length % size := by
  rw [rest, List.length_drop]
  have hsplit := Nat.div_add_mod' body.length size
  omega

theorem full_length : (full size body).length = body.length / size := by
  rw [full, List.length_map, List.length_range]

theorem window_append {i : ℕ} (h : i * size + size ≤ body.length) :
    window size (body ++ piece) i = window size body i := by
  unfold window
  rw [List.drop_append_of_le_length (Nat.le_of_add_right_le h), List.take_append_of_le_length]
  rw [List.length_drop]
  omega

theorem window_inside {i : ℕ} (h : i < body.length / size) : i * size + size ≤ body.length := by
  have hle := Nat.mul_le_mul_right size (Nat.succ_le_of_lt h)
  rw [Nat.succ_mul] at hle
  exact Nat.le_trans hle (Nat.div_mul_le_self _ _)

theorem full_prefix (size : ℕ) (body piece : List α) :
    (List.range (body.length / size)).map (window size (body ++ piece)) = full size body := by
  refine List.map_congr_left fun i hi => window_append (window_inside (List.mem_range.mp hi))

theorem append_short (h : (rest size body).length + piece.length < size) :
    full size (body ++ piece) = full size body ∧
      rest size (body ++ piece) = rest size body ++ piece := by
  rw [rest_length] at h
  have hdiv : (body ++ piece).length / size = body.length / size := by
    rw [List.length_append]
    have hsplit := Nat.div_add_mod' body.length size
    refine Nat.div_eq_of_lt_le (by omega) ?_
    rw [Nat.succ_mul]
    omega
  constructor
  · unfold full
    rw [hdiv]
    exact full_prefix size body piece
  · unfold rest
    rw [hdiv, List.drop_append_of_le_length (Nat.div_mul_le_self _ _)]

theorem append_full (hsize : 0 < size) (h : (rest size body).length + piece.length = size) :
    full size (body ++ piece) = full size body ++ [rest size body ++ piece] ∧
      rest size (body ++ piece) = [] := by
  have hlength := h
  rw [rest_length] at hlength
  have hsplit := Nat.div_add_mod' body.length size
  have htotal : (body ++ piece).length = (body.length / size + 1) * size := by
    rw [List.length_append, Nat.succ_mul]
    omega
  have hdiv : (body ++ piece).length / size = body.length / size + 1 := by
    rw [htotal, Nat.mul_div_cancel _ hsize]
  have hlast : window size (body ++ piece) (body.length / size) = rest size body ++ piece := by
    unfold window
    rw [List.drop_append_of_le_length (Nat.div_mul_le_self _ _)]
    refine List.take_of_length_le ?_
    rw [List.length_append]
    exact Nat.le_of_eq h
  constructor
  · rw [full, hdiv, List.range_succ, List.map_append, full_prefix, List.map_singleton, hlast]
  · rw [rest, hdiv, ← htotal, List.drop_length]

theorem ceilDiv_eq (hsize : 0 < size) (length : ℕ) :
    length ⌈/⌉ size = if 0 < length % size then length / size + 1 else length / size := by
  rw [Nat.ceilDiv_eq_add_pred_div]
  have hsplit := Nat.div_add_mod' length size
  have hlt := Nat.mod_lt length hsize
  split
  · refine Nat.div_eq_of_lt_le ?_ ?_
    · rw [Nat.succ_mul]
      omega
    · rw [Nat.succ_mul, Nat.succ_mul]
      omega
  · refine Nat.div_eq_of_lt_le (by omega) ?_
    rw [Nat.succ_mul]
    omega

theorem windows_eq (hsize : 0 < size) (body : List α) :
    windows size body = full size body ++ if 0 < (rest size body).length then [rest size body]
      else [] := by
  rw [rest_length, windows, ceilDiv_eq hsize]
  split
  · have hlast : window size body (body.length / size) = rest size body := by
      refine List.take_of_length_le ?_
      change (rest size body).length ≤ size
      rw [rest_length]
      exact Nat.le_of_lt (Nat.mod_lt _ hsize)
    rw [List.range_succ, List.map_append, List.map_singleton, hlast]
    rfl
  · rw [List.append_nil]
    rfl

end Beam.Windows

namespace Beam

/-- A digest that is computed as the text comes: two pieces, one after the other, are like both at
once. -/
structure Incremental (α β : Type) where
  State : Type
  init : State
  update : State → List α → State
  finalize : State → β
  update_nil : ∀ s, update s [] = s
  update_append : ∀ s text text', update (update s text) text' = update s (text ++ text')

namespace Incremental
variable {α β : Type}

def digest (h : Incremental α β) (text : List α) : β := h.finalize (h.update h.init text)

def ofDigest (digest : List α → β) : Incremental α β where
  State := List α
  init := []
  update s text := s ++ text
  finalize := digest
  update_nil := List.append_nil
  update_append s text text' := List.append_assoc s text text'

end Incremental
end Beam
