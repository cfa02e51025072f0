/-!
# `Chip8.Random.ChaCha`: the block function of the ChaCha stream with twelve rounds

A block is sixteen 32-bit words. It starts from four constants, the eight words of a
key and a 64-bit counter. Six double rounds mix it, and each of them mixes the columns
of the 4 × 4 square and then its diagonals. The start is added back at the end, so the
mixing cannot be undone.
-/

set_option autoImplicit false

namespace Chip8.Random

/-- What a stream of random bytes is made from: eight words. -/
abbrev Key := Vector UInt32 8

/-- The key of eight zeros. -/
def Key.zero : Key := .replicate 8 0

namespace ChaCha

/-- The sixteen words, the square row by row. -/
abbrev Block := Vector UInt32 16

/-- The bits of `w` moved `n` places to the left, for `n` below 32. The ones that leave come
back on the right. -/
def rotateLeft (w n : UInt32) : UInt32 := (w <<< n) ||| (w >>> ((32 - n) % 32))

/-- Adds word `b` to word `a`, and mixes the sum into word `d`, which is turned by `n` bits. -/
def mix (s : Block) (a b d : Fin 16) (n : UInt32) : Block :=
  let s := s.set a (s[a] + s[b]) a.isLt
  s.set d (rotateLeft (s[d] ^^^ s[a]) n) d.isLt

/-- Mixes four words. -/
def quarterRound (s : Block) (a b c d : Fin 16) : Block :=
  mix (mix (mix (mix s a b d 16) c d b 12) a b d 8) c d b 7

/-- Mixes the four columns. -/
def columnRound (s : Block) : Block :=
  let s := quarterRound s 0 4 8 12
  let s := quarterRound s 1 5 9 13
  let s := quarterRound s 2 6 10 14
  quarterRound s 3 7 11 15

/-- Mixes the four diagonals. -/
def diagonalRound (s : Block) : Block :=
  let s := quarterRound s 0 5 10 15
  let s := quarterRound s 1 6 11 12
  let s := quarterRound s 2 7 8 13
  quarterRound s 3 4 9 14

/-- Mixes columns and diagonals `n` times. -/
def doubleRounds : Nat → Block → Block
  | 0, s => s
  | n + 1, s => doubleRounds n (diagonalRound (columnRound s))

/-- The block before it is mixed. -/
def start (key : Key) (counter : UInt64) : Block :=
  #v[0x61707865, 0x3320646e, 0x79622d32, 0x6b206574,
    key[0], key[1], key[2], key[3], key[4], key[5], key[6], key[7],
    counter.toUInt32, (counter >>> 32).toUInt32, 0, 0]

/-- Block number `counter` of the stream of a key. -/
def block (key : Key) (counter : UInt64) : Block :=
  Vector.zipWith (· + ·) (doubleRounds 6 (start key counter)) (start key counter)

end ChaCha

end Chip8.Random
