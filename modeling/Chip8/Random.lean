import Chip8.Random.ChaCha

/-!
# `Chip8.Random`: the random bytes of a key

The random bytes of a key are the low bytes of the words of its ChaCha stream, one byte for
each word. `byteAt` gives them by position, and `next` draws them one after the other.

A seed of 64 bits is expanded to a key by a permuted congruential generator. Where there is
no seed, the key is the entropy that the system hands out, and may be any.
-/

set_option autoImplicit false

namespace Chip8

/-- A stream of random bytes, by its key, and how many of them were drawn. -/
@[ext]
structure Random where
  key : Random.Key
  drawn : Nat
  deriving DecidableEq

namespace Random

/-- One step of the congruential generator. -/
def advance (s : UInt64) : UInt64 := s * 6364136223846793005 + 11634580027462260723

/-- The output of the generator: its high bits, folded and turned by its five highest. -/
def permute (s : UInt64) : UInt32 :=
  let folded := (((s >>> 18) ^^^ s) >>> 27).toUInt32
  let turn := (s >>> 59).toUInt32
  (folded >>> turn) ||| (folded <<< ((32 - turn) % 32))

/-- The state of the generator after `n` steps. -/
def stateAt (seed : UInt64) : Nat → UInt64
  | 0 => seed
  | n + 1 => advance (stateAt seed n)

/-- The key that a seed is expanded to: the first eight outputs. -/
def expand (seed : UInt64) : Key := Vector.ofFn fun n => permute (stateAt seed (n.val + 1))

/-- The start of the stream of the seed, or of the entropy if there is no seed. -/
def start (seed : Option UInt64) (entropy : Key) : Random := ⟨(seed.map expand).getD entropy, 0⟩

/-- The random byte number `n` of a key, counted from zero. -/
def byteAt (key : Key) (n : Nat) : UInt8 :=
  (ChaCha.block key (UInt64.ofNat (n / 16)))[n % 16].toUInt8

/-- Draws the next byte. -/
def next (r : Random) : UInt8 × Random := (byteAt r.key r.drawn, { r with drawn := r.drawn + 1 })

/-- The start of the stream of seed seven. -/
example : ((ChaCha.block (expand 7) 0).toList.take 5).map UInt32.toUInt8
    = [190, 233, 134, 232, 205] := by decide +kernel

end Random

end Chip8
