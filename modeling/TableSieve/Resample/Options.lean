import TableSieve.Json.Basic
import TableSieve.Number.Binary64

/-!
Options of a resampling run, with their defaults. They are read from an object, in which an option
may be left out and other members are ignored, or from a list of the options in their order, which
may end early.
-/

namespace TableSieve

open TableSieve.Number

structure ResampleOptions where
  maxTrials : Nat
  ratio : Float
  progressEvery : Nat
  seed : UInt64
  deriving DecidableEq

namespace ResampleOptions

def default : ResampleOptions :=
  ⟨300, 10, 10, 42⟩

def names : List String :=
  ["max_trials", "sampling_ratio", "progress_every", "seed"]

def natBelow? (bound : Nat) : Json → Option Nat
  | .int value => if 0 ≤ value ∧ value < bound then some value.toNat else none
  | _ => none

def ratio? : Json → Option Float
  | .int value => some (ofInt value)
  | .float value => some value
  | _ => none

def optionOr? {α : Type} (present : Option Json) (default : α) (read : Json → Option α) :
    Option α :=
  match present with
  | none => some default
  | some json => read json

def ofParts? (parts : List (Option Json)) : Option ResampleOptions := do
  let part (index : Nat) : Option Json := (parts[index]?).join
  some {
    maxTrials := ← optionOr? (part 0) default.maxTrials (natBelow? (twoTo 32))
    ratio := ← optionOr? (part 1) default.ratio ratio?
    progressEvery := ← optionOr? (part 2) default.progressEvery (natBelow? (twoTo 32))
    seed := ← optionOr? (part 3) default.seed fun json =>
      (natBelow? (twoTo 64) json).map UInt64.ofNat }

def ofJson? : Json → Option ResampleOptions
  | .object members => ofParts? (names.map fun name => NameMap.get? members name)
  | .array items => if items.length ≤ names.length then ofParts? (items.map some) else none
  | _ => none

end ResampleOptions

end TableSieve
