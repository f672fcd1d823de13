import Mathlib.Algebra.GroupWithZero.Nat
import BeamSdk.Library.Abi

/-! `abi.encode` of a fixed number of strings tells them apart: no two tuples of strings have one
encoding, so a hash of it collides only where the hash itself does. -/

namespace Beam.Abi

theorem shift_or_toNat {w : Word} (b : UInt8) (hw : w.toNat * 256 < 2 ^ 256) :
    (w <<< 8 ||| BitVec.ofNat 256 b.toNat).toNat = w.toNat * 256 + b.toNat := by
  have hb : b.toNat < 2 ^ 8 := b.toNat_lt
  have hshift : (w <<< 8).toNat = w.toNat <<< 8 := by
    rw [BitVec.toNat_shiftLeft, Nat.shiftLeft_eq, Nat.mod_eq_of_lt hw]
  have hbyte : (BitVec.ofNat 256 b.toNat).toNat = b.toNat := by
    rw [BitVec.toNat_ofNat, Nat.mod_eq_of_lt (Nat.lt_trans hb (by decide))]
  rw [BitVec.toNat_or, hshift, hbyte, ← Nat.shiftLeft_add_eq_or_of_lt hb, Nat.shiftLeft_eq]

theorem shift_or_lt {w : Word} {n : ℕ} (b : UInt8) (hn : n + 1 ≤ 32)
    (hw : w.toNat < 256 ^ (32 - (n + 1))) :
    (w <<< 8 ||| BitVec.ofNat 256 b.toNat).toNat = w.toNat * 256 + b.toNat ∧
      w.toNat * 256 + b.toNat < 256 ^ (32 - n) := by
  have hpow : 256 ^ (32 - n) = 256 ^ (32 - (n + 1)) * 256 := by
    rw [← Nat.pow_succ, show (32 - (n + 1)).succ = 32 - n by omega]
  have hle : 256 ^ (32 - n) ≤ 256 ^ 32 := Nat.pow_le_pow_right (by decide) (Nat.sub_le _ _)
  have hall : 256 ^ 32 = 2 ^ 256 := (Nat.pow_mul 2 8 32).symm
  have hb := b.toNat_lt
  have hlt : w.toNat * 256 + b.toNat < 256 ^ (32 - n) := by
    rw [hpow]
    omega
  rw [hall] at hle
  exact ⟨shift_or_toNat b (Nat.lt_of_le_of_lt (Nat.le_add_right _ _) (Nat.lt_of_lt_of_le hlt hle)),
    hlt⟩

theorem foldl_shift_injective {xs ys : List UInt8} (hlength : xs.length = ys.length)
    (hfit : xs.length ≤ 32)
    {v w : Word} (hv : v.toNat < 256 ^ (32 - xs.length)) (hw : w.toNat < 256 ^ (32 - xs.length))
    (h : xs.foldl (fun (w : Word) b => w <<< 8 ||| BitVec.ofNat 256 b.toNat) v =
      ys.foldl (fun (w : Word) b => w <<< 8 ||| BitVec.ofNat 256 b.toNat) w) : v = w ∧ xs = ys := by
  induction xs generalizing ys v w with
  | nil =>
    obtain rfl := List.eq_nil_of_length_eq_zero hlength.symm
    exact ⟨h, rfl⟩
  | cons x xs ih =>
    obtain ⟨y, ys, rfl⟩ := List.exists_cons_of_length_eq_add_one hlength.symm
    obtain ⟨hvx, hvx'⟩ := shift_or_lt x hfit hv
    obtain ⟨hwy, hwy'⟩ := shift_or_lt y hfit hw
    obtain ⟨hhead, rfl⟩ := ih (Nat.succ.inj hlength) (Nat.le_of_succ_le hfit) (hvx ▸ hvx')
      (hwy ▸ hwy') h
    have hnat := congrArg BitVec.toNat hhead
    rw [hvx, hwy] at hnat
    have hx := x.toNat_lt
    have hy := y.toNat_lt
    exact ⟨BitVec.eq_of_toNat_eq (by omega), congrArg (· :: xs) (UInt8.toNat_inj.mp (by omega))⟩

theorem leftAligned_injective {xs ys : List UInt8} (hlength : xs.length = ys.length)
    (hfit : xs.length ≤ 32)
    (h : leftAligned xs = leftAligned ys) : xs = ys := by
  have hwords : ∀ zs : List UInt8, ((List.range 32).map fun i => zs.getD i 0).length = 32 :=
    fun zs => by
    rw [List.length_map, List.length_range]
  have hpos : (0 : Word).toNat <
      256 ^ (32 - ((List.range 32).map fun i => xs.getD i 0).length) := by
    rw [hwords]
    decide
  obtain ⟨-, hpadded⟩ := foldl_shift_injective ((hwords xs).trans (hwords ys).symm)
    (Nat.le_of_eq (hwords xs)) hpos
    hpos h
  refine List.ext_getElem hlength fun i hx hy => ?_
  have hi := List.map_inj_left.mp hpadded i (List.mem_range.mpr (Nat.lt_of_lt_of_le hx hfit))
  rwa [List.getD_eq_getElem?_getD, List.getD_eq_getElem?_getD, List.getElem?_eq_getElem hx,
    List.getElem?_eq_getElem hy] at hi

theorem packed_injective {n : ℕ} {xs ys : List UInt8} (hlength : xs.length = ys.length)
    (hfit : xs.length ≤ 32 * n)
    (h : packed n xs = packed n ys) : xs = ys := by
  induction n generalizing xs ys with
  | zero =>
    have hx : xs.length = 0 := Nat.le_zero.mp hfit
    exact (List.eq_nil_of_length_eq_zero hx).trans
      (List.eq_nil_of_length_eq_zero (hlength ▸ hx)).symm
  | succ n ih =>
    obtain ⟨hhead, htail⟩ := List.cons.inj h
    have htake : xs.take 32 = ys.take 32 := by
      refine leftAligned_injective ?_ (List.length_take_le _ _) hhead
      rw [List.length_take, List.length_take, hlength]
    have hdrop : xs.drop 32 = ys.drop 32 := by
      refine ih ?_ ?_ htail
      · rw [List.length_drop, List.length_drop, hlength]
      · rw [List.length_drop]
        omega
    rw [← List.take_append_drop 32 xs, htake, hdrop, List.take_append_drop]

theorem length_packed (n : ℕ) (xs : List UInt8) : (packed n xs).length = n := by
  induction n generalizing xs with
  | zero => rfl
  | succ n ih => rw [packed, List.length_cons, ih]

theorem length_offsets (start : ℕ) (tails : List (List Word)) :
    (offsets start tails).length = tails.length := by
  induction tails generalizing start with
  | nil => rfl
  | cons tail tails ih => rw [offsets, List.length_cons, List.length_cons, ih]

theorem bytesTail_append_injective {xs ys : List UInt8} {us vs : List Word}
    (hx : xs.length < 2 ^ 256)
    (hy : ys.length < 2 ^ 256) (h : bytesTail xs ++ us = bytesTail ys ++ vs) : xs = ys ∧
      us = vs := by
  obtain ⟨hhead, htail⟩ := List.cons.inj h
  have hlength : xs.length = ys.length := by
    have hnat := congrArg BitVec.toNat hhead
    rwa [BitVec.toNat_ofNat, BitVec.toNat_ofNat, Nat.mod_eq_of_lt hx, Nat.mod_eq_of_lt hy] at hnat
  rw [← hlength] at htail
  obtain ⟨hpacked, hrest⟩ := List.append_inj htail (by rw [length_packed, length_packed])
  exact ⟨packed_injective hlength (by omega) hpacked, hrest⟩

theorem flatten_bytesTail_injective {xss yss : List (List UInt8)}
    (hlength : xss.length = yss.length)
    (hx : ∀ xs ∈ xss, xs.length < 2 ^ 256) (hy : ∀ ys ∈ yss, ys.length < 2 ^ 256)
    (h : (xss.map bytesTail).flatten = (yss.map bytesTail).flatten) : xss = yss := by
  induction xss generalizing yss with
  | nil => rw [List.eq_nil_of_length_eq_zero hlength.symm]
  | cons xs xss ih =>
    obtain ⟨ys, yss, rfl⟩ := List.exists_cons_of_length_eq_add_one hlength.symm
    rw [List.map_cons, List.flatten_cons, List.map_cons, List.flatten_cons] at h
    obtain ⟨rfl, hrest⟩ := bytesTail_append_injective (hx xs (List.mem_cons_self ..))
      (hy ys (List.mem_cons_self ..)) h
    rw [ih (Nat.succ.inj hlength) (fun zs hz => hx zs (List.mem_cons_of_mem _ hz))
      (fun zs hz => hy zs (List.mem_cons_of_mem _ hz)) hrest]

theorem encodeStrings_injective {xss yss : List (List UInt8)} (hlength : xss.length = yss.length)
    (hx : ∀ xs ∈ xss, xs.length < 2 ^ 256) (hy : ∀ ys ∈ yss, ys.length < 2 ^ 256)
    (h : encodeStrings xss = encodeStrings yss) : xss = yss := by
  refine flatten_bytesTail_injective hlength hx hy (List.append_inj h ?_).2
  rw [length_offsets, length_offsets, List.length_map, List.length_map, hlength]

end Beam.Abi
