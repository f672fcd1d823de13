import BeamSdk.Library.Sha256

namespace Beam.Md5
open Sha256 (word rotate groups)

def sines : List ℕ :=
  [0xd76aa478, 0xe8c7b756, 0x242070db, 0xc1bdceee, 0xf57c0faf, 0x4787c62a, 0xa8304613, 0xfd469501,
    0x698098d8, 0x8b44f7af, 0xffff5bb1, 0x895cd7be, 0x6b901122, 0xfd987193, 0xa679438e, 0x49b40821,
    0xf61e2562, 0xc040b340, 0x265e5a51, 0xe9b6c7aa, 0xd62f105d, 0x02441453, 0xd8a1e681, 0xe7d3fbc8,
    0x21e1cde6, 0xc33707d6, 0xf4d50d87, 0x455a14ed, 0xa9e3e905, 0xfcefa3f8, 0x676f02d9, 0x8d2a4c8a,
    0xfffa3942, 0x8771f681, 0x6d9d6122, 0xfde5380c, 0xa4beea44, 0x4bdecfa9, 0xf6bb4b60, 0xbebfbc70,
    0x289b7ec6, 0xeaa127fa, 0xd4ef3085, 0x04881d05, 0xd9d4d039, 0xe6db99e5, 0x1fa27cf8, 0xc4ac5665,
    0xf4292244, 0x432aff97, 0xab9423a7, 0xfc93a039, 0x655b59c3, 0x8f0ccc92, 0xffeff47d, 0x85845dd1,
    0x6fa87e4f, 0xfe2ce6e0, 0xa3014314, 0x4e0811a1, 0xf7537e82, 0xbd3af235, 0x2ad7d2bb, 0xeb86d391]

/-- How far the four steps that repeat within each round turn their word to the left. -/
def shifts : List (List ℕ) := [[7, 12, 17, 22], [5, 9, 14, 20], [4, 11, 16, 23], [6, 10, 15, 21]]

structure State where
  a : ℕ
  b : ℕ
  c : ℕ
  d : ℕ

def initial : State := ⟨0x67452301, 0xefcdab89, 0x98badcfe, 0x10325476⟩

def complement (n : ℕ) : ℕ := 2 ^ 32 - 1 - n

/-- What a step of one of the four rounds mixes of the state, and which word of the block it reads.
-/
def mix (s : State) (i : ℕ) : ℕ × ℕ :=
  match i / 16 with
  | 0 => ((s.b &&& s.c) ||| (complement s.b &&& s.d), i)
  | 1 => ((s.d &&& s.b) ||| (complement s.d &&& s.c), (5 * i + 1) % 16)
  | 2 => (s.b ^^^ s.c ^^^ s.d, (3 * i + 5) % 16)
  | _ => (s.c ^^^ (s.b ||| complement s.d), 7 * i % 16)

def step (words : List ℕ) (s : State) (i : ℕ) : State :=
  let (f, j) := mix s i
  let turned := rotate (word (s.a + f + sines.getD i 0 + words.getD j 0))
    (32 - (shifts.getD (i / 16) []).getD (i % 4) 0)
  ⟨s.d, word (s.b + turned), s.b, s.c⟩

def compress (s : State) (words : List ℕ) : State :=
  let t := (List.range 64).foldl (step words) s
  ⟨word (s.a + t.a), word (s.b + t.b), word (s.c + t.c), word (s.d + t.d)⟩

def littleEndian : ℕ → ℕ → List ℕ
  | 0, _ => []
  | k + 1, n => n % 256 :: littleEndian k (n / 256)

def pad (bytes : List ℕ) : List ℕ :=
  bytes ++ 0x80 :: List.replicate ((119 - bytes.length % 64) % 64) 0 ++
    littleEndian 8 (8 * bytes.length)

def blocks (bytes : List ℕ) : List (List ℕ) :=
  (groups 64 (bytes.length / 64) bytes).map fun block =>
    (groups 4 16 block).map fun four => four.foldr (fun byte n => 256 * n + byte) 0

def digest (bytes : List UInt8) : List UInt8 :=
  let s := (blocks (pad (bytes.map UInt8.toNat))).foldl compress initial
  ([s.a, s.b, s.c, s.d].flatMap (littleEndian 4)).map Nat.toUInt8

end Beam.Md5
