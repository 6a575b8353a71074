/-!
# The generator of random bytes

A key determines a stream of bytes: the low bytes of the words of the ChaCha key stream with twelve
rounds. A generator draws the bytes of a stream one after the other, and a restart begins a stream.
With a seed it is the same stream each time, and a linear congruential generator stretches its key
from the seed. Without one the operating system gives a new key to each restart; the keys that it
will give are a parameter.
-/
namespace ByteMachine

abbrev StreamKey := Vector UInt32 8

/-- Bytes by their place. -/
abbrev ByteStream := Nat → UInt8

/-- The keys that the operating system gives, in the order in which it is asked for them. -/
abbrev Entropy := Nat → StreamKey

namespace StreamKey

def rotateLeft (x : UInt32) (k : UInt32) : UInt32 := (x <<< k) ||| (x >>> (32 - k))

def rotateRight (x : UInt32) (k : UInt32) : UInt32 := (x >>> k) ||| (x <<< (32 - k))

def advanceSeed (s : UInt64) : UInt64 := s * 6364136223846793005 + 11634580027462260723

/-- The word that a state of the congruential generator gives. -/
def seedWord (s : UInt64) : UInt32 :=
  rotateRight (((s >>> 18) ^^^ s) >>> 27).toUInt32 (s >>> 59).toUInt32

/-- The words that the states after a seed give. -/
def seedWords : Nat → UInt64 → List UInt32
  | 0, _ => []
  | n + 1, s => seedWord (advanceSeed s) :: seedWords n (advanceSeed s)

abbrev Block := Vector UInt32 16

def quarterRound (a b c d : Fin 16) (s : Block) : Block :=
  let half (a b d : Fin 16) (k : UInt32) (s : Block) : Block :=
    let sum := s.get a + s.get b
    let s := s.set a sum
    s.set d (rotateLeft (s.get d ^^^ sum) k)
  let s := half a b d 16 s
  let s := half c d b 12 s
  let s := half a b d 8 s
  half c d b 7 s

/-- A round on the columns and a round on the diagonals. -/
def doubleRound (s : Block) : Block :=
  let s := quarterRound 0 4 8 12 s
  let s := quarterRound 1 5 9 13 s
  let s := quarterRound 2 6 10 14 s
  let s := quarterRound 3 7 11 15 s
  let s := quarterRound 0 5 10 15 s
  let s := quarterRound 1 6 11 12 s
  let s := quarterRound 2 7 8 13 s
  quarterRound 3 4 9 14 s

/-- The block before the rounds: four constants, the key, a counter of two words, two zeros. -/
def initialBlock (key : StreamKey) (counter : Nat) : Block :=
  let words := [0x61707865, 0x3320646e, 0x79622d32, 0x6b206574] ++ key.toList ++
    [UInt32.ofNat counter, UInt32.ofNat (counter / 0x100000000), 0, 0]
  Vector.ofFn fun i => words.getD i 0

def doubleRounds : Nat → Block → Block
  | 0, s => s
  | n + 1, s => doubleRounds n (doubleRound s)

def block (key : StreamKey) (counter : Nat) : Block :=
  let start := initialBlock key counter
  start.zipWith (· + ·) (doubleRounds 6 start)

def stream (key : StreamKey) : ByteStream := fun n =>
  ((block key (n / 16)).get (Fin.ofNat 16 n)).toUInt8

def ofSeed (seed : UInt64) : StreamKey :=
  let words := seedWords 8 seed
  Vector.ofFn fun i => words.getD i 0

end StreamKey

/-- As many keys as are needed from a single one. -/
def Entropy.ofKey (key : StreamKey) : Entropy := fun n =>
  let words := key.block n
  Vector.ofFn fun i => words.get (i.castLE (by decide))

/-- What the restarts of a generator begin, the present restart being the first. -/
inductive RandomSource where
  | seeded (stream : ByteStream)
  | unseeded (streams : Nat → ByteStream)

namespace RandomSource

def new (seed : Option UInt64) (entropy : Entropy) : RandomSource :=
  match seed with
  | some seed => seeded (StreamKey.ofSeed seed).stream
  | none => unseeded fun n => (entropy n).stream

/-- The stream of a restart, counted from the present one. -/
def stream : RandomSource → Nat → ByteStream
  | seeded stream, _ => stream
  | unseeded streams, n => streams n

/-- The source after one more restart. -/
def next : RandomSource → RandomSource
  | seeded stream => seeded stream
  | unseeded streams => unseeded fun n => streams (n + 1)

theorem stream_next (source : RandomSource) (n : Nat) :
    source.next.stream n = source.stream (n + 1) := by
  cases source <;> rfl

end RandomSource

/-- A source, and how many bytes of its present stream have been drawn. -/
structure Generator where
  source : RandomSource
  drawn : Nat := 0

namespace Generator

def draw (g : Generator) : UInt8 × Generator :=
  (g.source.stream 0 g.drawn, { g with drawn := g.drawn + 1 })

def restart (g : Generator) : Generator := { source := g.source.next }

end Generator
end ByteMachine
