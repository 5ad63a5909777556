/-!
# A reproducible stream of random words

The figures of a seeded machine come from a stream of 32-bit words that the seed
determines: the ChaCha cipher with twelve rounds.  The seed is expanded to a key
of eight words.  Block `n` of the stream is a mix of sixteen words: four
constants, the key, the counter `n` and a zero nonce.  Words are taken block by
block, so word `i` is word `i % 16` of block `i / 16`, and the stream is a
function of the index.  A reader of the stream only keeps an index.

`Stream.draw` reads a number below a bound without bias.  A number of whole words
is scaled to the bound, and the remainder of the scaling tells whether the number
belongs to the surplus that would favour some results.  If so, the next words are
tried.  The counter has 64 bits, so the stream repeats after `Stream.period`
words, and that many trials have seen all there is to see.
-/

namespace DriveShell

/-! ## Words and blocks -/

/-- A word with its bits turned to the left. -/
def rotateLeft (word : UInt32) (steps : UInt32) : UInt32 :=
  (word <<< steps) ||| (word >>> (32 - steps))

/-- Sixteen words. -/
abbrev Block := Vector UInt32 16

namespace Block

/-- Mixes four words of a block. -/
def quarterRound (block : Block) (i j k l : Fin 16) : Block :=
  let a := block[i] + block[j]
  let d := rotateLeft (block[l] ^^^ a) 16
  let c := block[k] + d
  let b := rotateLeft (block[j] ^^^ c) 12
  let a := a + b
  let d := rotateLeft (d ^^^ a) 8
  let c := c + d
  let b := rotateLeft (b ^^^ c) 7
  (((block.set i a).set j b).set k c).set l d

/-- Mixes the columns of a block and then its diagonals. -/
def doubleRound (block : Block) : Block :=
  let block := block.quarterRound 0 4 8 12
  let block := block.quarterRound 1 5 9 13
  let block := block.quarterRound 2 6 10 14
  let block := block.quarterRound 3 7 11 15
  let block := block.quarterRound 0 5 10 15
  let block := block.quarterRound 1 6 11 12
  let block := block.quarterRound 2 7 8 13
  block.quarterRound 3 4 9 14

/-- A block after a number of double rounds. -/
def rounds (block : Block) : Nat → Block
  | 0 => block
  | n + 1 => block.doubleRound.rounds n

/-- The block with a key and a counter, before mixing. -/
def initial (key : Vector UInt32 8) (counter : Nat) : Block :=
  #v[0x61707865, 0x3320646e, 0x79622d32, 0x6b206574,
    key[0], key[1], key[2], key[3], key[4], key[5], key[6], key[7],
    UInt32.ofNat counter, UInt32.ofNat (counter / UInt32.size), 0, 0]

/-- The block of the stream with a key and a counter: twelve rounds, and the
block before mixing added word by word. -/
def ofKey (key : Vector UInt32 8) (counter : Nat) : Block :=
  let start := initial key counter
  (start.rounds 6).zipWith (· + ·) start

end Block

/-- The state of the expansion of a seed after one step. -/
def expansionStep (state : UInt64) : UInt64 := state * 6364136223846793005 + 11634580027462260723

/-- The word that a state of the expansion gives. -/
def expansionWord (state : UInt64) : UInt32 :=
  let word : UInt32 := (((state >>> 18) ^^^ state) >>> 27).toUInt32
  let stepsRight : UInt32 := (state >>> 59).toUInt32
  rotateLeft word (32 - stepsRight)

/-- The key that a seed expands to. -/
def keyOfSeed (seed : UInt64) : Vector UInt32 8 :=
  Vector.ofFn fun i => expansionWord (Nat.repeat expansionStep (i.val + 1) seed)

/-! ## The stream -/

/-- The words of a stream by their index. -/
abbrev Stream := Nat → UInt32

namespace Stream

/-- The stream of a key. -/
def ofKey (key : Vector UInt32 8) : Stream :=
  fun i => (Block.ofKey key (i / 16)).get ⟨i % 16, Nat.mod_lt _ (by decide)⟩

/-- The stream of a seed. -/
def ofSeed (seed : UInt64) : Stream := ofKey (keyOfSeed seed)

/-- The number that some words from an index on make, the low word first. -/
def number (words : Stream) (index : Nat) : Nat → Nat
  | 0 => 0
  | count + 1 => (words index).toNat + UInt32.size * words.number (index + 1) count

/-- The number of words after which a stream repeats. -/
def period : Nat := Nat.pow 2 68

/-- A number below `span` from groups of `count` words, and the index after the
last word read.  A group whose remainder exceeds `zone` is passed over. -/
def drawFrom (words : Stream) (count span zone : Nat) : (trials : Nat) → (index : Nat) → Nat × Nat
  | 0, index => (0, index)
  | trials + 1, index =>
    let scaled := words.number index count * span
    if scaled % UInt32.size.pow count ≤ zone then (scaled / UInt32.size.pow count, index + count)
    else words.drawFrom count span zone trials (index + count)

/-- A number below `span` from pairs of words.  The zone is the largest multiple
of the span by a power of two that fits 64 bits. -/
def drawLong (words : Stream) (span index : Nat) : Nat × Nat :=
  words.drawFrom 2 span ((span <<< (63 - span.log2)) - 1) period index

/-- A number below `span` from single words.  The zone is the largest multiple of
the span that fits 32 bits. -/
def drawShort (words : Stream) (span index : Nat) : Nat × Nat :=
  words.drawFrom 1 span (UInt32.size - 1 - UInt32.size % span) period index

end Stream

end DriveShell
