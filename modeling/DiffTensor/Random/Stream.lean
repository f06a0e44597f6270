/-!
# The random stream

Random bits come from a stream cipher with twelve rounds: a key of eight words and a
counter are mixed into blocks of sixteen words, and the words are used in order, two
for each 64-bit draw. The whole stream is fixed by the key, so the state is the key and
the number of draws made so far: draw `n` is found in block `n / 8`.

`ofSeed` stretches a 64-bit seed into a key.
-/

namespace DiffTensor

/-- A stream of 64-bit words, and how many of them have been drawn (`StdRng`). -/
structure Stream where
  key : Vector UInt32 8
  drawn : Nat := 0
  deriving DecidableEq

namespace Stream

/-- The sixteen words that are mixed. -/
abbrev Block := Vector UInt32 16

def rotateLeft (x : UInt32) (n : UInt32) : UInt32 := (x <<< n) ||| (x >>> (32 - n))

/-- Mixes four words of the block. -/
def quarter (s : Block) (a b c d : Fin 16) : Block :=
  let s := s.set a (s[a] + s[b])
  let s := s.set d (rotateLeft (s[d] ^^^ s[a]) 16)
  let s := s.set c (s[c] + s[d])
  let s := s.set b (rotateLeft (s[b] ^^^ s[c]) 12)
  let s := s.set a (s[a] + s[b])
  let s := s.set d (rotateLeft (s[d] ^^^ s[a]) 8)
  let s := s.set c (s[c] + s[d])
  s.set b (rotateLeft (s[b] ^^^ s[c]) 7)

/-- One round over the columns and one over the diagonals of the block. -/
def doubleRound (s : Block) : Block :=
  let s := quarter s 0 4 8 12
  let s := quarter s 1 5 9 13
  let s := quarter s 2 6 10 14
  let s := quarter s 3 7 11 15
  let s := quarter s 0 5 10 15
  let s := quarter s 1 6 11 12
  let s := quarter s 2 7 8 13
  quarter s 3 4 9 14

def rounds : Nat → Block → Block
  | 0, s => s
  | n + 1, s => rounds n (doubleRound s)

/-- The words of a block before they are mixed: four constants, the key, and the counter. -/
def initialBlock (key : Vector UInt32 8) (counter : UInt64) : Block :=
  #v[0x61707865, 0x3320646e, 0x79622d32, 0x6b206574,
     key[0], key[1], key[2], key[3], key[4], key[5], key[6], key[7],
     counter.toUInt32, (counter >>> 32).toUInt32, 0, 0]

/-- The words of a block. -/
def block (key : Vector UInt32 8) (counter : UInt64) : Block :=
  let start := initialBlock key counter
  Vector.zipWith (· + ·) (rounds 6 start) start

/-- The draw with the given number: the first of its two words is the low half. -/
def word (key : Vector UInt32 8) (n : Nat) : UInt64 :=
  let words := block key (n / 8).toUInt64
  let low := words.toArray.getD (2 * (n % 8)) 0
  let high := words.toArray.getD (2 * (n % 8) + 1) 0
  low.toUInt64 ||| (high.toUInt64 <<< 32)

/-- Draws 64 bits. -/
def next (s : Stream) : UInt64 × Stream := (word s.key s.drawn, { s with drawn := s.drawn + 1 })

/-- The next state of the sequence that a key is taken from. -/
def seedStep (seed : UInt64) : UInt64 := seed * 6364136223846793005 + 11634580027462260723

/-- The key word of a state: its high bits folded, and rotated by the highest five. -/
def seedWord (seed : UInt64) : UInt32 :=
  let x := (((seed >>> 18) ^^^ seed) >>> 27).toUInt32
  let n := (seed >>> 59).toUInt32
  (x >>> n) ||| (x <<< ((32 - n) % 32))

/-- The first `n` key words of a seed. -/
def seedWords : Nat → UInt64 → List UInt32
  | 0, _ => []
  | n + 1, seed => seedWord (seedStep seed) :: seedWords n (seedStep seed)

/-- The stream of a seed, at its start (`seed_from_u64`, as `manual_seed` calls it). -/
def ofSeed (seed : UInt64) : Stream :=
  let words := (seedWords 8 seed).toArray
  { key := Vector.ofFn fun i => words.getD i 0 }

end Stream

end DiffTensor
