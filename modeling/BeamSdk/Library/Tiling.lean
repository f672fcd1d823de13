import Mathlib.Data.List.Perm.Basic
import Mathlib.Data.List.Range
import Mathlib.Tactic.Linarith
import Mathlib.Tactic.Ring

/-! Ranges laid one after the other, and the numbering of a grid row by row. -/

namespace Beam.Tiling

/-- The ranges, each an offset and a length, follow each other without a gap from `start` to
`stop`. -/
def Tiles : ℤ → ℤ → List (ℤ × ℤ) → Prop
  | start, stop, [] => start = stop
  | start, stop, (offset, length) :: rest =>
      offset = start ∧ 0 < length ∧ Tiles (start + length) stop rest

variable {start stop : ℤ} {ranges : List (ℤ × ℤ)}

theorem Tiles.le (h : Tiles start stop ranges) : start ≤ stop := by
  induction ranges generalizing start with
  | nil => exact le_of_eq h
  | cons range rest ih =>
    obtain ⟨-, hlength, hrest⟩ := h
    have hstep := ih hrest
    linarith

theorem Tiles.pos (h : Tiles start stop ranges) : ∀ range ∈ ranges, 0 < range.2 := by
  induction ranges generalizing start with
  | nil => nofun
  | cons range rest ih =>
    obtain ⟨-, hlength, hrest⟩ := h
    intro other hother
    rcases List.mem_cons.mp hother with rfl | hother
    · exact hlength
    · exact ih hrest other hother

theorem Tiles.start_le (h : Tiles start stop ranges) : ∀ range ∈ ranges, start ≤ range.1 := by
  induction ranges generalizing start with
  | nil => nofun
  | cons range rest ih =>
    obtain ⟨hoffset, hlength, hrest⟩ := h
    intro other hother
    rcases List.mem_cons.mp hother with rfl | hother
    · exact le_of_eq hoffset.symm
    · have hstep := ih hrest other hother
      linarith

theorem Tiles.pairwise (h : Tiles start stop ranges) :
    ranges.Pairwise fun range other => range.1 + range.2 ≤ other.1 := by
  induction ranges generalizing start with
  | nil => exact List.Pairwise.nil
  | cons range rest ih =>
    obtain ⟨hoffset, -, hrest⟩ := h
    refine List.Pairwise.cons (fun other hother => ?_) (ih hrest)
    rw [hoffset]
    exact hrest.start_le other hother

theorem Tiles.mem_iff (h : Tiles start stop ranges) (point : ℤ) :
    (start ≤ point ∧ point < stop) ↔ ∃ range ∈ ranges, range.1 ≤ point ∧
      point < range.1 + range.2 := by
  induction ranges generalizing start with
  | nil =>
    have heq : start = stop := h
    constructor
    · rintro ⟨hlow, hhigh⟩
      linarith
    · rintro ⟨range, hrange, -⟩
      cases hrange
  | cons range rest ih =>
    obtain ⟨hoffset, hlength, hrest⟩ := h
    have hstop := hrest.le
    have hih := ih hrest
    constructor
    · rintro ⟨hlow, hhigh⟩
      by_cases hfirst : point < start + range.2
      · exact ⟨range, List.mem_cons_self, by rwa [hoffset], by rwa [hoffset]⟩
      · obtain ⟨other, hother, hin⟩ := hih.mp ⟨not_lt.mp hfirst, hhigh⟩
        exact ⟨other, List.mem_cons_of_mem _ hother, hin⟩
    · rintro ⟨other, hother, hlow, hhigh⟩
      rcases List.mem_cons.mp hother with rfl | hother
      · rw [hoffset] at hlow hhigh
        exact ⟨hlow, hhigh.trans_le hstop⟩
      · obtain ⟨hlow', hhigh'⟩ := hih.mpr ⟨other, hother, hlow, hhigh⟩
        exact ⟨by linarith, hhigh'⟩

def count (size chunk : ℤ) : ℤ := (size + chunk - 1) / chunk

section Chunks
variable {size chunk : ℤ}

theorem count_nonneg (hsize : 0 ≤ size) (hchunk : 0 < chunk) : 0 ≤ count size chunk :=
  Int.ediv_nonneg (by linarith) hchunk.le

theorem lt_count (hchunk : 0 < chunk) (index : ℤ) : index < count size chunk ↔
    index * chunk < size := by
  rw [count, ← Int.add_one_le_iff, Int.le_ediv_iff_mul_le hchunk, add_mul, one_mul]
  constructor <;> intro h <;> linarith

theorem tiles_chunks_from (hchunk : 0 < chunk) (n k : ℕ) (h : (k + n : ℤ) = count size chunk) :
    Tiles (min (k * chunk) size) size
      ((List.range' k n).map fun i : ℕ => ((i : ℤ) * chunk, min chunk (size - i * chunk))) := by
  induction n generalizing k with
  | zero =>
    have hend : ¬ (k : ℤ) * chunk < size := by
      rw [← lt_count hchunk, ← h]
      simp
    exact min_eq_right (not_lt.mp hend)
  | succ n ih =>
    have hbefore : (k : ℤ) * chunk < size := by
      rw [← lt_count hchunk, ← h]
      push_cast
      linarith
    rw [List.range'_succ, List.map_cons, min_eq_left hbefore.le]
    refine ⟨rfl, lt_min hchunk (by linarith), ?_⟩
    have hnext := ih (k + 1) (by rw [← h]; push_cast; ring)
    rwa [show (k : ℤ) * chunk + min chunk (size - k * chunk) = min ((k + 1 : ℕ) * chunk) size by
      rw [← min_add_add_left]
      push_cast
      congr 1 <;> ring]

theorem tiles_chunks (hsize : 0 ≤ size) (hchunk : 0 < chunk) :
    Tiles 0 size ((List.range (count size chunk).toNat).map fun i : ℕ =>
      ((i : ℤ) * chunk, min chunk (size - i * chunk))) := by
  have hcount : ((0 : ℕ) + (count size chunk).toNat : ℤ) = count size chunk := by
    rw [Int.toNat_of_nonneg (count_nonneg hsize hchunk)]
    simp
  have h := tiles_chunks_from hchunk (count size chunk).toNat 0 hcount
  rw [List.range_eq_range']
  simpa only [Nat.cast_zero, zero_mul, min_eq_left hsize] using h

end Chunks

theorem perm_grid (columns : List ℤ) (width : ℕ) (h : columns.Perm ((List.range width).map (↑)))
    (rows : ℕ) :
    ((List.range rows).flatMap fun row : ℕ => columns.map fun column =>
      (row * width + column : ℤ)).Perm
      ((List.range (rows * width)).map (↑)) := by
  induction rows with
  | zero => simp
  | succ rows ih =>
    have hrow := h.map fun column => (rows * width + column : ℤ)
    simp only [List.range_succ, List.flatMap_append, List.flatMap_singleton, add_mul, one_mul,
      List.range_add,
      List.map_append]
    refine ih.append (hrow.trans ?_)
    simp only [List.map_map, Function.comp_def, Nat.cast_add, Nat.cast_mul, List.Perm.refl]

end Beam.Tiling
