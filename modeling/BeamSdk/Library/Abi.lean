import Mathlib.Data.List.Basic

/-! Solidity's `abi.encode`, as the list of 32-byte words it lays out. -/

namespace Beam.Abi

abbrev Word := BitVec 256

def leftAligned (bytes : List UInt8) : Word :=
  ((List.range 32).map fun i => bytes.getD i 0).foldl
    (fun w b => w <<< 8 ||| BitVec.ofNat 256 b.toNat) 0

def packed : ℕ → List UInt8 → List Word
  | 0, _ => []
  | n + 1, bytes => leftAligned (bytes.take 32) :: packed n (bytes.drop 32)

/-- The tail of a `bytes` or `string` value: its length, then its bytes. -/
def bytesTail (bytes : List UInt8) : List Word :=
  BitVec.ofNat 256 bytes.length :: packed ((bytes.length + 31) / 32) bytes

def offsets : ℕ → List (List Word) → List Word
  | _, [] => []
  | start, tail :: tails => BitVec.ofNat 256 start :: offsets (start + 32 * tail.length) tails

/-- `abi.encode` of a tuple of strings: an offset for each, then their tails. -/
def encodeStrings (values : List (List UInt8)) : List Word :=
  let tails := values.map bytesTail
  offsets (32 * values.length) tails ++ tails.flatten

end Beam.Abi
