import Mathlib.Algebra.Group.Nat.Defs
import Mathlib.Algebra.Group.Int.Defs
import Mathlib.Data.List.Basic
import Mathlib.Order.Monotone.Basic

/-! Values as MessagePack writes them, and the number of bytes that each takes. -/

namespace Beam.Msgpack
variable {α : Type}

inductive Value (α : Type)
  | string (value : String)
  | scalar (value : α)
  | array (items : List (Value α))
  | map (entries : List (String × Value α))

/-- The number of bytes of a string that has so many of its own, and of what comes before the items
of an array or the entries of a map. -/
structure Encoder (α : Type) where
  string : ℕ → ℕ
  scalar : α → ℕ
  arrayLen : ℕ → ℕ
  mapLen : ℕ → ℕ
  string_mono : Monotone string
  arrayLen_mono : Monotone arrayLen

namespace Encoder
variable (e : Encoder α)

def key (name : String) : ℕ := e.string name.utf8ByteSize

mutual

def size : Value α → ℕ
  | .string value => e.string value.utf8ByteSize
  | .scalar value => e.scalar value
  | .array items => e.arrayLen items.length + sizeItems items
  | .map entries => e.mapLen entries.length + sizeEntries entries

def sizeItems : List (Value α) → ℕ
  | [] => 0
  | item :: items => size item + sizeItems items

def sizeEntries : List (String × Value α) → ℕ
  | [] => 0
  | (name, value) :: entries => e.key name + size value + sizeEntries entries

end

def integer (value : ℤ) : ℕ :=
  if -32 ≤ value ∧ value < 2 ^ 7 then 1
  else if -2 ^ 7 ≤ value ∧ value < 2 ^ 8 then 2
  else if -2 ^ 15 ≤ value ∧ value < 2 ^ 16 then 3
  else if -2 ^ 31 ≤ value ∧ value < 2 ^ 32 then 5
  else 9

def standard (scalar : α → ℕ) : Encoder α where
  string n := n + if n < 32 then 1 else if n < 2 ^ 8 then 2 else if n < 2 ^ 16 then 3 else 5
  scalar
  arrayLen n := if n < 16 then 1 else if n < 2 ^ 16 then 3 else 5
  mapLen n := if n < 16 then 1 else if n < 2 ^ 16 then 3 else 5
  string_mono := by
    intro m n h
    dsimp only
    split_ifs <;> omega
  arrayLen_mono := by
    intro m n h
    dsimp only
    split_ifs <;> omega

variable {e}

theorem sizeItems_append (items items' : List (Value α)) :
    e.sizeItems (items ++ items') = e.sizeItems items + e.sizeItems items' := by
  induction items with
  | nil => rw [List.nil_append, sizeItems, Nat.zero_add]
  | cons item items ih => rw [List.cons_append, sizeItems, sizeItems, ih, Nat.add_assoc]

theorem array_le_append (items items' : List (Value α)) :
    e.size (.array items) ≤ e.size (.array (items ++ items')) := by
  rw [size, size, sizeItems_append, List.length_append]
  exact Nat.add_le_add (e.arrayLen_mono (Nat.le_add_right ..)) (Nat.le_add_right ..)

end Encoder
end Beam.Msgpack
