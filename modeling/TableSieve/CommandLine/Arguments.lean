import TableSieve.CommandLine.Options
import TableSieve.Text.Split

/-!
Reading the arguments of a command line. The value of an option is attached to it or is the next
argument; an option that waits for its value ends when the next option begins or the arguments
end, and only then is its value checked. Two hyphens end the options, and what follows them has no
meaning. Where there are commands, the first argument that names one ends the reading.
-/

namespace TableSieve.CommandLine

open TableSieve.Text

structure Vocabulary where
  options : List OptionSpec
  commands : List String

/-- The options that have ended, and the one that waits for its value or its end. -/
structure Reading where
  given : Given
  pending : Option (OptionSpec × Option String)

namespace Reading

def empty : Reading :=
  ⟨.empty, none⟩

def settle (reading : Reading) : Except UsageError Reading :=
  match reading.pending with
  | none => .ok reading
  | some (option, text) => (reading.given.add option text).map fun given => ⟨given, none⟩

def add (reading : Reading) (option : OptionSpec) (text : Option String) :
    Except UsageError Reading := do
  let settled ← reading.settle
  .ok { settled with given := ← settled.given.add option text }

def await (reading : Reading) (option : OptionSpec) : Except UsageError Reading :=
  reading.settle.map fun settled => { settled with pending := some (option, none) }

def withAttached (reading : Reading) (option : OptionSpec) : Option String →
    Except UsageError Reading
  | some text => reading.add option (some text)
  | none => reading.await option

def readLong (reading : Reading) (vocabulary : Vocabulary) (chars : List Char) :
    Except UsageError Reading :=
  let name := String.ofList (chars.takeWhile (· ≠ '='))
  let attached := match chars.dropWhile (· ≠ '=') with
    | _ :: rest => some (String.ofList rest)
    | [] => none
  match vocabulary.options.find? (·.name = name) with
  | none => .error .unknownArgument
  | some option =>
    if option.kind.takesValue then reading.withAttached option attached
    else if attached.isSome then .error .unexpectedValue
    else reading.add option none

/-- What follows the letter of an option that takes a value, without a leading equals sign. -/
def attachedText : List Char → Option String
  | [] => none
  | '=' :: rest => some (String.ofList rest)
  | chars => some (String.ofList chars)

def readLetters (vocabulary : Vocabulary) (reading : Reading) :
    List Char → Except UsageError Reading
  | [] => .ok reading
  | letter :: rest =>
    match vocabulary.options.find? (·.letter = some letter) with
    | none => .error .unknownArgument
    | some option =>
      if option.kind.takesValue then reading.withAttached option (attachedText rest)
      else do readLetters vocabulary (← reading.add option none) rest

def takeValue? (reading : Reading) (argument : String) : Option Reading :=
  match reading.pending with
  | some (option, none) => some { reading with pending := some (option, some argument) }
  | _ => none

def isWaiting (reading : Reading) : Bool :=
  match reading.pending with
  | some (_, none) => true
  | _ => false

end Reading

def Vocabulary.refusal (vocabulary : Vocabulary) (afterHyphens : Bool) (argument : String) :
    UsageError :=
  if vocabulary.commands.isEmpty || (afterHyphens && vocabulary.commands.contains argument) then
    .unknownArgument
  else .unknownCommand

inductive Shape
  | hyphens
  | long (chars : List Char)
  | letters (chars : List Char)
  | word

def shapeOf (argument : String) : Shape :=
  match argument.toList with
  | ['-', '-'] => .hyphens
  | '-' :: '-' :: chars => .long chars
  | ['-'] => .word
  | '-' :: chars => .letters chars
  | _ => .word

abbrev Found := Option (String × List String)

/-- Two hyphens must be the last argument. -/
def readAfterHyphens (vocabulary : Vocabulary) (reading : Reading) :
    List String → Except UsageError (Reading × Found)
  | [] => .ok (reading, none)
  | argument :: _ => .error (vocabulary.refusal true argument)

def readArguments (vocabulary : Vocabulary) (reading : Reading) :
    List String → Except UsageError (Reading × Found)
  | [] => .ok (reading, none)
  | argument :: rest =>
    if !reading.isWaiting && vocabulary.commands.contains argument then
      .ok (reading, some (argument, rest))
    else match shapeOf argument with
      | .hyphens => readAfterHyphens vocabulary reading rest
      | .long chars => do
        readArguments vocabulary (← reading.readLong vocabulary chars) rest
      | .letters chars => do
        readArguments vocabulary (← Reading.readLetters vocabulary reading chars) rest
      | .word =>
        match reading.takeValue? argument with
        | some next => readArguments vocabulary next rest
        | none => .error (vocabulary.refusal false argument)

end TableSieve.CommandLine
