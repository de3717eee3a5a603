/-!
# Streams of draws

A measurement consumes one 64-bit draw. `Generator` is whatever supplies them;
`SeededDraws` is a reproducible one, the keystream of the ChaCha cipher with
twelve rounds. Its key of 256 bits is spread out from a 64-bit seed, or made of
random words.
-/

namespace CircuitGrid

/-- A source of 64-bit draws. -/
class Generator (G : Type) where
  next : G → UInt64 × G

/-! ## The ChaCha keystream -/

namespace ChaCha

/-- The sixteen words of a block. -/
abbrev Block := Vector UInt32 16

/-- The eight words of a key. -/
abbrev Key := Vector UInt32 8

/-- Rotate a word to the left. -/
def rotateLeft (x : UInt32) (n : UInt32) : UInt32 := (x <<< n) ||| (x >>> (32 - n))

/-- Rotate a word to the right. -/
def rotateRight (x : UInt32) (n : UInt32) : UInt32 := (x >>> n) ||| (x <<< ((32 - n) % 32))

/-- Mix four words of a block. -/
def quarterRound (block : Block) (a b c d : Fin 16) : Block :=
  let mix (block : Block) (x y z : Fin 16) (n : UInt32) : Block :=
    let sum := block[x] + block[y]
    (block.set x sum).set z (rotateLeft (block[z] ^^^ sum) n)
  let block := mix block a b d 16
  let block := mix block c d b 12
  let block := mix block a b d 8
  mix block c d b 7

/-- Mix the columns of a block, then its diagonals. -/
def doubleRound (block : Block) : Block :=
  let block := quarterRound block 0 4 8 12
  let block := quarterRound block 1 5 9 13
  let block := quarterRound block 2 6 10 14
  let block := quarterRound block 3 7 11 15
  let block := quarterRound block 0 5 10 15
  let block := quarterRound block 1 6 11 12
  let block := quarterRound block 2 7 8 13
  quarterRound block 3 4 9 14

/-- The block with the given number of the keystream: four constants, the key, a
64-bit block number and a zero nonce, mixed by twelve rounds and added to the
unmixed words. -/
def keystreamBlock (key : Key) (number : Nat) : Block :=
  let constants : Vector UInt32 4 := #v[0x61707865, 0x3320646e, 0x79622d32, 0x6b206574]
  let input : Block :=
    (constants ++ key ++ #v[number.toUInt32, (number >>> 32).toUInt32, 0, 0]).cast (by decide)
  let mixed := Nat.repeat doubleRound 6 input
  mixed.zipWith (· + ·) input

/-- The key made of the halves of four long words, of each the low one first. -/
def Key.ofLongWords (words : Vector UInt64 4) : Key :=
  Vector.ofFn fun i => (words[i.val / 2] >>> (32 * (i.val % 2)).toUInt64).toUInt32

end ChaCha

/-! ## Seeded draws -/

/-- A position in the stream of draws of a key. -/
structure SeededDraws where
  key : ChaCha.Key
  /-- How many draws were taken. -/
  position : Nat

namespace SeededDraws

/-- One step of the generator that spreads a seed: the next state, and a word
taken from it by a shift and a rotation that the state itself selects. -/
def spread (state : UInt64) : UInt32 × UInt64 :=
  let state := state * 6364136223846793005 + 11634580027462260723
  let word := (((state >>> 18) ^^^ state) >>> 27).toUInt32
  (ChaCha.rotateRight word (state >>> 59).toUInt32, state)

/-- The key that a seed is spread out to. -/
def keyOfSeed (seed : UInt64) : ChaCha.Key :=
  let (words, _) := Nat.fold 8
    (fun i _ (words, state) =>
      let (word, state) := spread state
      (words.setIfInBounds i word, state))
    ((Vector.replicate 8 0 : ChaCha.Key), seed)
  words

/-- The first draw of the stream of a key. -/
def ofKey (key : ChaCha.Key) : SeededDraws := ⟨key, 0⟩

/-- The first draw of the stream of a seed. -/
def ofSeed (seed : UInt64) : SeededDraws := ofKey (keyOfSeed seed)

/-- The draw at a position: two successive words of the keystream, the first one
low. A block holds eight draws. -/
def drawAt (key : ChaCha.Key) (position : Nat) : UInt64 :=
  let block := ChaCha.keystreamBlock key (position / 8)
  let low := block[2 * (position % 8)]
  let high := block[2 * (position % 8) + 1]
  high.toUInt64 <<< 32 ||| low.toUInt64

instance : Generator SeededDraws where
  next draws := (drawAt draws.key draws.position, { draws with position := draws.position + 1 })

end SeededDraws

end CircuitGrid
