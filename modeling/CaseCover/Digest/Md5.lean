import CaseCover.Text

/-!
# MD5

The digest of a sequence of bytes: 64-byte blocks are mixed one after the other into a state of four
words. The last block holds the number of bits, after a byte with the highest bit set and zeros.
-/

namespace CaseCover.Md5

/-- Four words. -/
structure State where
  a : UInt32
  b : UInt32
  c : UInt32
  d : UInt32
deriving DecidableEq

/-- The state before the first block. -/
def State.start : State := ⟨0x67452301, 0xefcdab89, 0x98badcfe, 0x10325476⟩

/-- How far the words are rotated in each of the four rounds. -/
def rotations : List (List UInt32) :=
  [[7, 12, 17, 22], [5, 9, 14, 20], [4, 11, 16, 23], [6, 10, 15, 21]]

/-- The constants of the 64 steps: the whole part of `2 ^ 32` times the absolute sine of 1 to 64. -/
def constants : List UInt32 :=
  [0xd76aa478, 0xe8c7b756, 0x242070db, 0xc1bdceee, 0xf57c0faf, 0x4787c62a, 0xa8304613, 0xfd469501,
   0x698098d8, 0x8b44f7af, 0xffff5bb1, 0x895cd7be, 0x6b901122, 0xfd987193, 0xa679438e, 0x49b40821,
   0xf61e2562, 0xc040b340, 0x265e5a51, 0xe9b6c7aa, 0xd62f105d, 0x02441453, 0xd8a1e681, 0xe7d3fbc8,
   0x21e1cde6, 0xc33707d6, 0xf4d50d87, 0x455a14ed, 0xa9e3e905, 0xfcefa3f8, 0x676f02d9, 0x8d2a4c8a,
   0xfffa3942, 0x8771f681, 0x6d9d6122, 0xfde5380c, 0xa4beea44, 0x4bdecfa9, 0xf6bb4b60, 0xbebfbc70,
   0x289b7ec6, 0xeaa127fa, 0xd4ef3085, 0x04881d05, 0xd9d4d039, 0xe6db99e5, 0x1fa27cf8, 0xc4ac5665,
   0xf4292244, 0x432aff97, 0xab9423a7, 0xfc93a039, 0x655b59c3, 0x8f0ccc92, 0xffeff47d, 0x85845dd1,
   0x6fa87e4f, 0xfe2ce6e0, 0xa3014314, 0x4e0811a1, 0xf7537e82, 0xbd3af235, 0x2ad7d2bb, 0xeb86d391]

/-- A word with its bits rotated to the left. -/
def rotate (x n : UInt32) : UInt32 := (x <<< n) ||| (x >>> (32 - n))

/-- How a round mixes three words. -/
def mix (round : Nat) (b c d : UInt32) : UInt32 :=
  match round with
  | 0 => (b &&& c) ||| (~~~b &&& d)
  | 1 => (d &&& b) ||| (~~~d &&& c)
  | 2 => b ^^^ c ^^^ d
  | _ => c ^^^ (b ||| ~~~d)

/-- Which word of the block a step takes. -/
def wordIndex (step : Nat) : Nat :=
  match step / 16 with
  | 0 => step
  | 1 => (5 * step + 1) % 16
  | 2 => (3 * step + 5) % 16
  | _ => (7 * step) % 16

/-- One step with the words of a block. -/
def step (words : List UInt32) (s : State) (i : Nat) (constant : UInt32) : State :=
  let f := mix (i / 16) s.b s.c s.d
  let word := words[wordIndex i]?.getD 0
  let turn := (rotations[i / 16]?.getD [])[i % 4]?.getD 0
  ⟨s.d, s.b + rotate (s.a + f + constant + word) turn, s.b, s.c⟩

/-- The words of a block: four bytes each, the lowest first. -/
def wordsOf : Text → List UInt32
  | a :: b :: c :: d :: rest =>
    (a.toUInt32 ||| (b.toUInt32 <<< 8) ||| (c.toUInt32 <<< 16) ||| (d.toUInt32 <<< 24)) ::
      wordsOf rest
  | _ => []

/-- The state after a block. -/
def block (s : State) (bytes : Text) : State :=
  let words := wordsOf bytes
  let r := (constants.zipIdx).foldl (fun r (c, i) => step words r i c) s
  ⟨s.a + r.a, s.b + r.b, s.c + r.c, s.d + r.d⟩

/-- The lowest `count` bytes of a number, the lowest first. -/
def littleEndian (count n : Nat) : Text :=
  (List.range count).map fun i => UInt8.ofNat (n / 256 ^ i % 256)

/-- The bytes filled up to whole blocks. -/
def padded (bytes : Text) : Text :=
  let zeros := (119 - bytes.length % 64) % 64
  bytes ++ [0x80] ++ Text.repeated zeros 0 ++ littleEndian 8 (bytes.length * 8)

/-- The state after all blocks. -/
def blocks (s : State) : Nat → Text → State
  | 0, _ => s
  | n + 1, bytes => blocks (block s (bytes.take 64)) n (bytes.drop 64)

/-- The sixteen bytes of the digest. -/
def digest (bytes : Text) : Text :=
  let all := padded bytes
  let s := blocks .start (all.length / 64) all
  [s.a, s.b, s.c, s.d].flatMap fun w => littleEndian 4 w.toNat

/-- The digest in hexadecimal. -/
def hexDigest (bytes : Text) : Text := Text.hex (digest bytes)

end CaseCover.Md5
