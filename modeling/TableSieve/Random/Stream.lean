/-!
The stream of pseudo-random words: the ChaCha block function with eight rounds, a 64-bit block
counter and a zero nonce. A 64-bit seed grows into the key by eight steps of a linear congruential
generator whose states are scrambled by a rotation that the state itself chooses.
-/

namespace TableSieve.Random

def rotateLeft (word : UInt32) (count : UInt32) : UInt32 :=
  (word <<< count) ||| (word >>> (32 - count))

/-- A rotation by zero places leaves the word alone. -/
def rotateRight (word : UInt32) (count : UInt32) : UInt32 :=
  if count = 0 then word else (word >>> count) ||| (word <<< (32 - count))

abbrev Block := Vector UInt32 16

def quarterRound (block : Block) (a b c d : Fin 16) : Block :=
  let a1 := block[a] + block[b]
  let d1 := rotateLeft (block[d] ^^^ a1) 16
  let c1 := block[c] + d1
  let b1 := rotateLeft (block[b] ^^^ c1) 12
  let a2 := a1 + b1
  let d2 := rotateLeft (d1 ^^^ a2) 8
  let c2 := c1 + d2
  let b2 := rotateLeft (b1 ^^^ c2) 7
  (((block.set a a2).set b b2).set c c2).set d d2

def columnRound (block : Block) : Block :=
  let block := quarterRound block 0 4 8 12
  let block := quarterRound block 1 5 9 13
  let block := quarterRound block 2 6 10 14
  quarterRound block 3 7 11 15

def diagonalRound (block : Block) : Block :=
  let block := quarterRound block 0 5 10 15
  let block := quarterRound block 1 6 11 12
  let block := quarterRound block 2 7 8 13
  quarterRound block 3 4 9 14

def doubleRound (block : Block) : Block :=
  diagonalRound (columnRound block)

abbrev Key := Vector UInt32 8

def startBlock (key : Key) (counter : UInt64) : Block :=
  #v[0x61707865, 0x3320646e, 0x79622d32, 0x6b206574,
    key[0], key[1], key[2], key[3], key[4], key[5], key[6], key[7],
    counter.toUInt32, (counter >>> 32).toUInt32, 0, 0]

def keyBlock (key : Key) (counter : UInt64) : Block :=
  let start := startBlock key counter
  let mixed := doubleRound (doubleRound (doubleRound (doubleRound start)))
  Vector.zipWith (· + ·) mixed start

structure Generator where
  key : Key
  counter : UInt64
  pending : List UInt32

def nextSeedState (state : UInt64) : UInt64 :=
  state * 6364136223846793005 + 11634580027462260723

def scramble (state : UInt64) : UInt32 :=
  rotateRight (((state >>> 18) ^^^ state) >>> 27).toUInt32 (state >>> 59).toUInt32

def seedWords (seed : UInt64) : Key :=
  let s1 := nextSeedState seed
  let s2 := nextSeedState s1
  let s3 := nextSeedState s2
  let s4 := nextSeedState s3
  let s5 := nextSeedState s4
  let s6 := nextSeedState s5
  let s7 := nextSeedState s6
  let s8 := nextSeedState s7
  #v[s1, s2, s3, s4, s5, s6, s7, s8].map scramble

def Generator.ofSeed (seed : UInt64) : Generator :=
  ⟨seedWords seed, 0, []⟩

def Generator.next (generator : Generator) : UInt32 × Generator :=
  match generator.pending with
  | word :: rest => (word, { generator with pending := rest })
  | [] =>
    let block := keyBlock generator.key generator.counter
    (block[0], ⟨generator.key, generator.counter + 1, block.toList.drop 1⟩)

def wordCount : Nat := 4294967296

/-- After so many words the block counter is back where it was, and the same words come again. -/
def streamLength : Nat := 16 * (wordCount * wordCount)

inductive Width
  | single
  | double

def Width.limit : Width → Nat
  | .single => wordCount
  | .double => wordCount * wordCount

/-- The next number of a width; of two words the first is the low half. -/
def Generator.draw (generator : Generator) : Width → Nat × Generator
  | .single =>
    let (word, generator) := generator.next
    (word.toNat, generator)
  | .double =>
    let (low, generator) := generator.next
    let (high, generator) := generator.next
    (low.toNat + wordCount * high.toNat, generator)

theorem Generator.draw_lt (generator : Generator) (width : Width) :
    (generator.draw width).1 < width.limit := by
  have word_lt (word : UInt32) : word.toNat < wordCount := word.toNat_lt
  cases width with
  | single => exact word_lt _
  | double =>
      have low := word_lt generator.next.1
      have high := word_lt generator.next.2.next.1
      calc generator.next.1.toNat + wordCount * generator.next.2.next.1.toNat
          < wordCount * (generator.next.2.next.1.toNat + 1) := by rw [Nat.mul_succ]; omega
        _ ≤ wordCount * wordCount := Nat.mul_le_mul_left wordCount high

/-- A number below a positive bound: the high half of a drawn number times the bound, with a second
draw to decide the carry when the low half is too close to the top. -/
def Generator.scaled (width : Width) (generator : Generator) (bound : Nat) : Nat × Generator :=
  let (drawn, generator) := generator.draw width
  let product := drawn * bound
  if width.limit - bound < product % width.limit then
    let (second, generator) := generator.draw width
    ((product + second * bound / width.limit) / width.limit, generator)
  else (product / width.limit, generator)

/-- The same, or none if the low half is one of those that would favour some numbers. -/
def Generator.unbiased? (width : Width) (generator : Generator) (bound : Nat) :
    Option Nat × Generator :=
  let (drawn, generator) := generator.draw width
  let product := drawn * bound
  if product % width.limit < (width.limit - bound) % bound then (none, generator)
  else (some (product / width.limit), generator)

def Generator.below (generator : Generator) (bound : Nat) : Nat × Generator :=
  generator.scaled (if bound < wordCount then .single else .double) bound

theorem Width.limit_pos (width : Width) : 0 < width.limit := by
  cases width <;> decide

theorem Width.scaled_le {width : Width} {drawn : Nat} (small : drawn < width.limit) (bound : Nat) :
    drawn * bound + bound ≤ bound * width.limit :=
  calc drawn * bound + bound = bound * (drawn + 1) := by
        rw [Nat.mul_comm bound, Nat.add_mul, Nat.one_mul]
    _ ≤ bound * width.limit := Nat.mul_le_mul_left bound small

theorem Width.half_lt {width : Width} {drawn bound : Nat} (small : drawn < width.limit)
    (positive : 0 < bound) : drawn * bound / width.limit < bound := by
  have room := Width.scaled_le small bound
  exact (Nat.div_lt_iff_lt_mul width.limit_pos).mpr (by omega)

theorem Generator.scaled_lt (width : Width) (generator : Generator) {bound : Nat}
    (positive : 0 < bound) : (generator.scaled width bound).1 < bound := by
  have first := generator.draw_lt width
  simp only [scaled]
  split
  · have room := Width.scaled_le first bound
    have carry := Width.half_lt ((generator.draw width).2.draw_lt width) positive
    exact (Nat.div_lt_iff_lt_mul width.limit_pos).mpr (by omega)
  · exact Width.half_lt first positive

theorem Generator.unbiased?_lt {width : Width} {generator : Generator} {bound position : Nat}
    (positive : 0 < bound) (found : (generator.unbiased? width bound).1 = some position) :
    position < bound := by
  simp only [unbiased?] at found
  split at found
  · cases found
  · cases found
    exact Width.half_lt (generator.draw_lt width) positive

theorem Generator.below_lt (generator : Generator) {bound : Nat} (positive : 0 < bound) :
    (generator.below bound).1 < bound :=
  generator.scaled_lt _ positive

end TableSieve.Random
