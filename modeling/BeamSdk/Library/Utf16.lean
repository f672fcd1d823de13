import Mathlib.Algebra.GroupWithZero.Nat
import Mathlib.Data.List.Basic

/-! UTF-16: the code units of a text, which are what JavaScript counts, cuts and hashes. -/

namespace Beam.Utf16

def encodeChar (c : Char) : List UInt16 :=
  if c.toNat < 0x10000 then [c.toNat.toUInt16]
  else [(0xd800 + (c.toNat - 0x10000) / 0x400).toUInt16,
    (0xdc00 + (c.toNat - 0x10000) % 0x400).toUInt16]

def encode (text : String) : List UInt16 := text.toList.flatMap encodeChar

end Beam.Utf16
