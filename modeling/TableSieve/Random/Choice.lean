import TableSieve.Number.Binary64
import TableSieve.Random.Stream

/-!
Choosing positions at random: some of `size` positions without repetition, or any number of them
with repetition. What is proved of the tables made this way holds of every way of choosing that
gives what it must, so both are described first. Then follows the way of the program, which knows
three methods. A few positions are collected one by one, keeping the list free of repetitions; many
of all there are come from the front of a shuffled list; and many that are still few among all there
are drawn until enough different ones have come.
-/

namespace TableSieve.Random

open TableSieve.Number

structure Choice (bound count : Nat) (positions : List Nat) : Prop where
  distinct : positions.Nodup
  inRange : ∀ position ∈ positions, position < bound
  length : positions.length = count

/-- Chooses positions as a seed has it, from the number of them all and of those to choose. -/
abbrev Sampler := Nat → Nat → UInt64 → List Nat

def Sampler.Lawful (sampler : Sampler) : Prop :=
  ∀ size count, count ≤ size → ∀ seed, Choice size count (sampler size count seed)

structure Numbers (State : Type) where
  below : Nat → State → Nat × State

def Numbers.Lawful {State : Type} (numbers : Numbers State) : Prop :=
  ∀ bound state, 0 < bound → (numbers.below bound state).1 < bound

def drawEach {State : Type} (numbers : Numbers State) (size : Nat) (state : State) :
    Nat → List Nat × State
  | 0 => ([], state)
  | count + 1 =>
    let (position, state) := numbers.below size state
    let (rest, state) := drawEach numbers size state count
    (position :: rest, state)

def Generator.numbers : Numbers Generator :=
  ⟨fun bound generator => generator.below bound⟩

/-! The three methods -/

/-- Adds one position up to `last`. One that is already there becomes `last`, which is new. -/
def extendChoice (chosen : List Nat) (last : Nat) (generator : Generator) :
    List Nat × Generator :=
  let (position, generator) := generator.below (last + 1)
  if chosen.contains position then
    (chosen.map (fun other => if other = position then last else other) ++ [position], generator)
  else (chosen ++ [position], generator)

def chooseOneByOne (chosen : List Nat) (generator : Generator) : List Nat → List Nat × Generator
  | [] => (chosen, generator)
  | last :: rest =>
    let (chosen, generator) := extendChoice chosen last generator
    chooseOneByOne chosen generator rest

def shuffleFront (positions : Array Nat) (generator : Generator) : List Nat → Array Nat × Generator
  | [] => (positions, generator)
  | place :: rest =>
    let (offset, generator) := generator.below (positions.size - place)
    shuffleFront (positions.swapIfInBounds place (place + offset)) generator rest

def chooseByShuffling (size count : Nat) (generator : Generator) : List Nat × Generator :=
  let (positions, generator) := shuffleFront (Array.range size) generator (List.range count)
  (positions.toList.take count, generator)

/-- Goes on drawing until there are enough different positions. It gives up after so many draws. -/
def chooseByRejection? (width : Width) (size count : Nat) (chosen : List Nat)
    (generator : Generator) : Nat → Option (List Nat × Generator)
  | 0 => none
  | draws + 1 =>
    if chosen.length = count then some (chosen, generator)
    else
      match generator.unbiased? width size with
      | (none, generator) => chooseByRejection? width size count chosen generator draws
      | (some position, generator) =>
        let chosen := if chosen.contains position then chosen else chosen ++ [position]
        chooseByRejection? width size count chosen generator draws

/-! The choice among them -/

inductive Method
  | oneByOne
  | shuffling
  | rejection (width : Width)

def toSingle (value : Nat) : Nat :=
  let unit := twoTo (value.log2 - 23)
  halfEven value unit * unit

/-- Which method is quickest. The bounds are the products of binary fractions of 24 digits; where
the rounding can change nothing, they are compared as whole numbers. -/
def methodFor (size count : Nat) : Method :=
  if wordCount ≤ size then .rejection .double
  else if count < 163 then
    if 11 < count && 5 * size < (50 + 8 * count) * count then .shuffling else .oneByOne
  else
    let few :=
      if size < 500000 then 270 * count ≤ size
      else toSingle (9611947 * toSingle count) ≤ toSingle size * twoTo 18
    if few then .rejection .single else .shuffling

/-- `count` different positions below `size`. Rejection is given as many draws as the generator has
words; if they were not enough, no later word would bring another position. -/
def choose (size count : Nat) (generator : Generator) : List Nat × Generator :=
  match methodFor size count with
  | .oneByOne => chooseOneByOne [] generator (List.range' (size - count) count)
  | .shuffling => chooseByShuffling size count generator
  | .rejection width =>
    match chooseByRejection? width size count [] generator streamLength with
    | some choice => choice
    | none => chooseByShuffling size count generator

def sampler : Sampler :=
  fun size count seed => (choose size count (.ofSeed seed)).1

end TableSieve.Random
