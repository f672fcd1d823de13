import Mathlib.Algebra.GroupWithZero.Nat
import Mathlib.Data.Nat.Basic
import Mathlib.Algebra.BigOperators.Group.List.Basic

/-! Lowercase hexadecimal digits, read and written in groups with a dash between them. -/

namespace Beam.Hex

def digit (n : ℕ) : Char := if n < 10 then Char.ofNat (48 + n) else Char.ofNat (87 + n)

def value (c : Char) : ℕ := if c.toNat < 58 then c.toNat - 48 else c.toNat - 87

def isDigit (c : Char) : Bool := (48 ≤ c.toNat && c.toNat ≤ 57) || (97 ≤ c.toNat && c.toNat ≤ 102)

def digits : ℕ → ℕ → List Char
  | 0, _ => []
  | k + 1, n => digits k (n / 16) ++ [digit (n % 16)]

def read (cs : List Char) : ℕ := cs.foldl (fun n c => 16 * n + value c) 0

def join : List ℕ → List Char → List Char
  | [], _ => []
  | [_], cs => cs
  | n :: ns, cs => cs.take n ++ '-' :: join ns (cs.drop n)

/-- The digits of such groups without their dashes; `none` where the text has another shape. -/
def split : List ℕ → List Char → Option (List Char)
  | [], _ => none
  | [n], cs => if cs.length = n ∧ cs.all isDigit then some cs else none
  | n :: ns, cs =>
    if (cs.take n).length = n ∧ (cs.take n).all isDigit then
      match cs.drop n with
      | '-' :: rest => (split ns rest).map (cs.take n ++ ·)
      | _ => none
    else none

theorem value_digit : ∀ n < 16, value (digit n) = n := by decide

theorem isDigit_digit : ∀ n < 16, isDigit (digit n) = true := by decide

theorem toLower_digit : ∀ n < 16, (digit n).toLower = digit n := by decide

theorem length_digits (k n : ℕ) : (digits k n).length = k := by
  induction k generalizing n with
  | zero => rfl
  | succ k ih => rw [digits, List.length_append, ih, List.length_singleton]

theorem mem_digits {k n : ℕ} {c : Char} (h : c ∈ digits k n) : ∃ d < 16, c = digit d := by
  induction k generalizing n with
  | zero => cases h
  | succ k ih =>
    rw [digits, List.mem_append, List.mem_singleton] at h
    rcases h with h | h
    · exact ih h
    · exact ⟨n % 16, Nat.mod_lt _ (by decide), h⟩

theorem read_digits (k n : ℕ) : read (digits k n) = n % 16 ^ k := by
  induction k generalizing n with
  | zero => rw [pow_zero, Nat.mod_one]; rfl
  | succ k ih =>
    have hlast : value (digit (n % 16)) = n % 16 := value_digit _ (Nat.mod_lt _ (by decide))
    have hread : read (digits (k + 1) n) = 16 * read (digits k (n / 16)) + n % 16 := by
      rw [digits, read, List.foldl_append]
      simp only [List.foldl_cons, List.foldl_nil, hlast, read]
    have hmod : n % 16 ^ (k + 1) = n % 16 + 16 * (n / 16 % 16 ^ k) := by
      rw [pow_succ', Nat.mod_mul]
    rw [hread, ih, hmod, Nat.add_comm]

theorem all_isDigit_digits (k n : ℕ) : (digits k n).all isDigit = true := by
  rw [List.all_eq_true]
  intro c hc
  obtain ⟨d, hd, rfl⟩ := mem_digits hc
  exact isDigit_digit d hd

theorem mem_join {ns : List ℕ} {cs : List Char} {c : Char} (h : c ∈ join ns cs) : c = '-' ∨
    c ∈ cs := by
  induction ns generalizing cs with
  | nil => cases h
  | cons n ns ih =>
    cases ns with
    | nil => exact .inr h
    | cons m ns =>
      rcases List.mem_append.mp h with h | h
      · exact .inr (List.mem_of_mem_take h)
      · rcases List.mem_cons.mp h with h | h
        · exact .inl h
        · exact (ih h).imp_right List.mem_of_mem_drop

theorem split_join {ns : List ℕ} {cs : List Char} (hns : ns ≠ []) (hlen : cs.length = ns.sum)
    (hall : cs.all isDigit = true) : split ns (join ns cs) = some cs := by
  induction ns generalizing cs with
  | nil => exact absurd rfl hns
  | cons n ns ih =>
    cases ns with
    | nil =>
      rw [List.sum_singleton] at hlen
      simp only [join, split, hlen, hall, and_self, if_true]
    | cons m ns =>
      rw [List.sum_cons] at hlen
      have htake : (cs.take n).length = n := by
        rw [List.length_take]
        omega
      have hall' : ∀ c ∈ cs, isDigit c = true := List.all_eq_true.mp hall
      have hdrop : split (m :: ns) (join (m :: ns) (cs.drop n)) = some (cs.drop n) := by
        apply ih (List.cons_ne_nil m ns)
        · rw [List.length_drop]
          omega
        · exact List.all_eq_true.mpr fun c hc => hall' c (List.mem_of_mem_drop hc)
      have hhead : (cs.take n).all isDigit = true :=
        List.all_eq_true.mpr fun c hc => hall' c (List.mem_of_mem_take hc)
      rw [join, split]
      · rw [List.take_left' htake, List.drop_left' htake]
        simp only [htake, hhead, and_self, if_true, hdrop, Option.map_some, List.take_append_drop]
      · exact fun h => nomatch h
      · exact fun h => nomatch h

end Beam.Hex
