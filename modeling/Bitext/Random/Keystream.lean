/-
A reproducible stream of random words.

The words are those of the ChaCha stream cipher with twelve rounds and a nonce of zero:
block number `i` is a function of the key and of `i` alone, and its sixteen words are
handed out in order.  So a generator is a key and the number of words it has handed
out, and two generators that agree in both go on alike forever.

A key of eight words is spread out from a single number by a congruential generator
with a permuted output, one step for each word, so that seeds which differ in one bit
give unrelated keys.

The die of a keystream takes words of 32 bits, and words of 64 bits made of two for bounds
that do not fit.
-/
import Bitext.Random.Dice

namespace Bitext

/-- The sixteen words of a block. -/
abbrev Block := Vector UInt32 16

/-- The eight words of a key. -/
abbrev Key := Vector UInt32 8

namespace ChaCha

/-- Rotates a word to the left. -/
def rotateLeft (x n : UInt32) : UInt32 := (x <<< n) ||| (x >>> (32 - n))

/-- Rotates a word to the right. -/
def rotateRight (x n : UInt32) : UInt32 := (x >>> n) ||| (x <<< ((32 - n) % 32))

/-- Mixes four words of a block. -/
def quarterRound (s : Block) (i j k l : Fin 16) : Block :=
  let a := s[i] + s[j]
  let d := rotateLeft (s[l] ^^^ a) 16
  let c := s[k] + d
  let b := rotateLeft (s[j] ^^^ c) 12
  let a := a + b
  let d := rotateLeft (d ^^^ a) 8
  let c := c + d
  let b := rotateLeft (b ^^^ c) 7
  (((s.set i a).set j b).set k c).set l d

/-- Mixes the columns of a block, then its diagonals. -/
def doubleRound (s : Block) : Block :=
  let s := quarterRound s 0 4 8 12
  let s := quarterRound s 1 5 9 13
  let s := quarterRound s 2 6 10 14
  let s := quarterRound s 3 7 11 15
  let s := quarterRound s 0 5 10 15
  let s := quarterRound s 1 6 11 12
  let s := quarterRound s 2 7 8 13
  quarterRound s 3 4 9 14

/-- The block before mixing: four constants, the key, the block number in two words and
the nonce. -/
def start (key : Key) (number : Nat) : Block :=
  #v[0x61707865, 0x3320646e, 0x79622d32, 0x6b206574,
     key[0], key[1], key[2], key[3], key[4], key[5], key[6], key[7],
     UInt32.ofNat number, UInt32.ofNat (number / UInt32.size), 0, 0]

/-- The number of double rounds. -/
def doubleRounds : Nat := 6

/-- The words of a block. -/
def block (key : Key) (number : Nat) : Block :=
  let initial := start key number
  let mixed := doubleRounds.repeat doubleRound initial
  Vector.zipWith (· + ·) mixed initial

end ChaCha

/-- A generator of random words: a key, and how many words it has handed out. -/
structure Keystream where
  key : Key
  position : Nat
  deriving DecidableEq

namespace Keystream

/-- The word at a position of the stream. -/
def wordAt (key : Key) (position : Nat) : UInt32 :=
  (ChaCha.block key (position / 16)).get ⟨position % 16, Nat.mod_lt _ (by omega)⟩

/-- The next word and the generator after it. -/
def next (g : Keystream) : UInt32 × Keystream :=
  (wordAt g.key g.position, { g with position := g.position + 1 })

/-! ### Seeds -/

/-- One step of the congruential generator that spreads out a seed. -/
def stepSeed (seed : UInt64) : UInt64 := seed * 6364136223846793005 + 11634580027462260723

/-- The word of a key that a step gives: the high bits folded down, and rotated by the
highest five. -/
def seedWord (seed : UInt64) : UInt32 :=
  ChaCha.rotateRight (((seed >>> 18) ^^^ seed) >>> 27).toUInt32 (seed >>> 59).toUInt32

/-- The state of the seed generator after some steps. -/
def seedState (seed : UInt64) (steps : Nat) : UInt64 := steps.repeat stepSeed seed

/-- The key that a seed is spread out to. -/
def keyOfSeed (seed : UInt64) : Key := Vector.ofFn fun i => seedWord (seedState seed (i + 1))

/-- The generator of a seed, which is taken modulo 2^64. -/
def ofSeed (seed : Nat) : Keystream := ⟨keyOfSeed (UInt64.ofNat seed), 0⟩

/-! ### Draws -/

/-- A word of 64 bits, the low half first. -/
def nextLong (g : Keystream) : Nat × Keystream :=
  let (low, g) := g.next
  let (high, g) := g.next
  (low.toNat + high.toNat * UInt32.size, g)

/-- A word of 32 bits. -/
def nextWord (g : Keystream) : Nat × Keystream :=
  let (word, g) := g.next
  (word.toNat, g)

/-- Words of 32 and of 64 bits are below their bounds. -/
theorem nextWord_lt (g : Keystream) : g.nextWord.1 < UInt32.size := UInt32.toNat_lt_size _

theorem nextLong_lt (g : Keystream) : g.nextLong.1 < UInt64.size := by
  have low := UInt32.toNat_lt g.next.1
  have high := UInt32.toNat_lt g.next.2.next.1
  show g.next.1.toNat + g.next.2.next.1.toNat * 4294967296 < 18446744073709551616
  omega

/-- The die of a keystream. -/
def dice : Dice Keystream where
  roll g bound hb :=
    if bound < UInt32.size then
      drawWith UInt32.size (fun g => (⟨g.nextWord.1, g.nextWord_lt⟩, g.nextWord.2)) g bound hb
    else
      drawWith UInt64.size (fun g => (⟨g.nextLong.1, g.nextLong_lt⟩, g.nextLong.2)) g bound hb

/-- Keystreams as a generator. -/
def generator : Generator Keystream where
  dice := dice
  ofSeed seed := ofSeed seed.toNat

end Keystream

end Bitext
