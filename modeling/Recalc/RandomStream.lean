import Recalc.Address

/-!
# Random samples of a cell

Each cell has a stream of uniform samples that depends on nothing but a seed and its address. The
address is hashed by rotating and multiplying, the hash is spread over 256 bits by a congruential
generator, and the stream itself comes from a generator of shifts and rotations.
-/

namespace Recalc.RandomStream

def rotateLeft (x : UInt64) (n : UInt64) : UInt64 :=
  (x <<< n) ||| (x >>> (64 - n))

/-! ### Hashing an address -/

def mix (hash word : UInt64) : UInt64 :=
  (rotateLeft hash 5 ^^^ word) * 0x517cc1b727220a95

/-- The number that bytes write, the least significant first. -/
def littleEndian (bytes : List UInt8) : UInt64 :=
  bytes.foldr (fun b n => (n <<< 8) ||| b.toUInt64) 0

/-- Mixes up to seven bytes in runs of four, two and one. -/
def mixTail (hash : UInt64) (bytes : List UInt8) : UInt64 :=
  let (hash, bytes) :=
    if 4 ≤ bytes.length then (mix hash (littleEndian (bytes.take 4)), bytes.drop 4)
    else (hash, bytes)
  let (hash, bytes) :=
    if 2 ≤ bytes.length then (mix hash (littleEndian (bytes.take 2)), bytes.drop 2)
    else (hash, bytes)
  match bytes with
  | b :: _ => mix hash b.toUInt64
  | [] => hash

/-- Mixes bytes in runs of eight, then the rest. -/
def mixBytes (hash : UInt64) : List UInt8 → UInt64
  | a :: b :: c :: d :: e :: f :: g :: h :: rest =>
    mixBytes (mix hash (littleEndian [a, b, c, d, e, f, g, h])) rest
  | tail => mixTail hash tail

/-- Mixes a text and a byte that no text contains. -/
def mixText (hash : UInt64) (s : String) : UInt64 :=
  mix (mixBytes hash s.toUTF8.toList) 0xff

def seedOf (seed : UInt64) (a : Address) : UInt64 :=
  let hash := mixText (mixText (mix 0 seed) a.unit) a.sheet
  mix (mix hash (UInt64.ofNat a.row)) (UInt64.ofNat a.col)

/-! ### The generator -/

structure State where
  a : UInt64
  b : UInt64
  c : UInt64
  d : UInt64
deriving DecidableEq, Repr

/-- One step of the congruential generator that spreads a seed. -/
def advance (s : UInt64) : UInt64 :=
  s * 6364136223846793005 + 11634580027462260723

/-- The 32 bits that a state of the congruential generator gives. -/
def spreadBits (s : UInt64) : UInt32 :=
  let x := (((s >>> 18) ^^^ s) >>> 27).toUInt32
  let n := (s >>> 59).toUInt32
  (x >>> n) ||| (x <<< ((32 - n) % 32))

/-- A word of two consecutive outputs, the first one low, and the state after them. -/
def spreadWord (s : UInt64) : UInt64 × UInt64 :=
  let low := advance s
  let high := advance low
  ((spreadBits high).toUInt64 <<< 32 ||| (spreadBits low).toUInt64, high)

/-- The state that a seed starts from. -/
def start (seed : UInt64) : State :=
  let (a, s) := spreadWord seed
  let (b, s) := spreadWord s
  let (c, s) := spreadWord s
  let (d, _) := spreadWord s
  ⟨a, b, c, d⟩

def output (s : State) : UInt64 :=
  rotateLeft (s.a + s.d) 23 + s.a

def next (s : State) : State :=
  let c := s.c ^^^ s.a
  let d := s.d ^^^ s.b
  ⟨s.a ^^^ d, s.b ^^^ c, c ^^^ (s.b <<< 17), rotateLeft d 45⟩

/-- The sample at an index of the stream of a cell, at least zero and below one. -/
def sample (seed : UInt64) (a : Address) (index : Nat) : Float :=
  let state := Nat.repeat next index (start (seedOf seed a))
  Float.ofNat (output state >>> 11).toNat / 9007199254740992.0

end Recalc.RandomStream
