import SequenceChart.Geometry

namespace SequenceChart

/-- A Mersenne Twister: a ring of 624 words, and the place of the word to be renewed next. -/
structure Twister where
  words : Array UInt32
  position : Nat
  deriving DecidableEq

namespace Twister

/-- The number of words in the ring. -/
def size : Nat := 624

/-- The distance between the words that are combined. -/
def shift : Nat := 397

/-- The word at a place of the ring, counted on around it. -/
def word (words : Array UInt32) (i : Nat) : UInt32 :=
  words.getD (i % size) 0

/-- The high bits of a word mixed into it, for spreading a seed. -/
def spread (previous : UInt32) : UInt32 :=
  previous ^^^ (previous >>> 30)

/-- The ring that one word makes. -/
def plainWords (seed : UInt32) : Array UInt32 :=
  (List.range (size - 1)).foldl
    (fun words i => words.push (1812433253 * spread (word words i) + UInt32.ofNat (i + 1))) #[seed]

/-- The words of a number, the low ones first. There is at least one. -/
def seedWords (seed : Nat) : List UInt32 :=
  UInt32.ofNat seed :: if h : seed < 4294967296 then [] else seedWords (seed / 4294967296)
termination_by seed
decreasing_by
  exact Nat.div_lt_self (by omega) (by decide)

/-- Renews the word at a place in the ring, which is never the first one. A round ends by copying
    the last word to the first place. -/
def renew (value : UInt32 → UInt32 → UInt32) (words : Array UInt32) (place : Nat) :
    Array UInt32 × Nat :=
  let renewed := words.setIfInBounds place (value (word words place) (word words (place - 1)))
  if place + 1 < size then (renewed, place + 1)
  else (renewed.setIfInBounds 0 (word renewed (size - 1)), 1)

/-- Mixes the words of a seed into the ring, and counts the place and the word of the seed on. -/
def mixSeed (key : Array UInt32) (words : Array UInt32) (place : Nat) : Array UInt32 × Nat :=
  (List.range (max size key.size)).foldl
    (fun (words, place) step =>
      let j := step % key.size
      renew
        (fun own previous =>
          (own ^^^ (spread previous * 1664525)) + key.getD j 0 + UInt32.ofNat j)
        words place)
    (words, place)

/-- Mixes the ring with itself. -/
def mixPlaces (words : Array UInt32) (place : Nat) : Array UInt32 × Nat :=
  (List.range (size - 1)).foldl
    (fun (words, place) _ =>
      renew (fun own previous => (own ^^^ (spread previous * 1566083941)) - UInt32.ofNat place)
        words place)
    (words, place)

/-- The generator of a seed, whose sign does not matter. -/
def ofSeed (seed : Int) : Twister :=
  let key := (seedWords seed.natAbs).toArray
  let (words, place) := mixSeed key (plainWords 19650218) 1
  let (words, _) := mixPlaces words place
  { words := words.setIfInBounds 0 0x80000000, position := 0 }

/-- The generator of a seed, or the one that there is if none is given. -/
def seeded (fresh : Twister) : Option Int → Twister
  | some seed => ofSeed seed
  | none => fresh

/-- The word that takes the place of one in the ring. -/
def renewed (words : Array UInt32) (i : Nat) : UInt32 :=
  let joined := (word words i &&& 0x80000000) ||| (word words (i + 1) &&& 0x7fffffff)
  word words (i + shift) ^^^ (joined >>> 1) ^^^ (if joined &&& 1 = 0 then 0 else 0x9908b0df)

/-- The bits of a word shuffled. -/
def temper (y : UInt32) : UInt32 :=
  let y := y ^^^ (y >>> 11)
  let y := y ^^^ ((y <<< 7) &&& 0x9d2c5680)
  let y := y ^^^ ((y <<< 15) &&& 0xefc60000)
  y ^^^ (y >>> 18)

/-- The next random word. -/
def next (generator : Twister) : UInt32 × Twister :=
  let value := renewed generator.words generator.position
  (temper value,
    { words := generator.words.setIfInBounds generator.position value
      position := (generator.position + 1) % size })

variable {α : Type} [Add α] [Sub α] [Mul α] [Div α] [∀ n, OfNat α n]

/-- A random number from zero to below one, made of 53 bits of two words. -/
def unit : StateM Twister α := do
  let high ← next
  let low ← next
  return ofCount ((high >>> 5).toNat * 67108864 + (low >>> 6).toNat) / ofCount 9007199254740992

/-- A random number between two bounds. -/
def uniform (low high : α) : StateM Twister α := do
  let share ← unit
  return low + (high - low) * share

end Twister

end SequenceChart
