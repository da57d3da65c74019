/-!
Records of comma-separated values. A field that begins with a quote runs to the next quote that is
not doubled, and what follows it up to the separator belongs to the field as well; a quote anywhere
else is a plain byte. A line feed or a carriage return ends a record, and more of them before the
next record are skipped. The bytes are read one after another.
-/

namespace TableSieve.Csv

structure Position where
  record : Nat
  line : Nat
  byte : Nat
  deriving DecidableEq

structure Record where
  start : Position
  fields : List (List UInt8)
  deriving DecidableEq

inductive Place
  | betweenRecords
  | fieldStart
  | plain
  | quoted
  | quoteInQuoted
  deriving DecidableEq

/-- The finished records, the fields of the current one and the bytes of the current field all stand
last first. -/
structure Scanner where
  place : Place
  start : Position
  here : Position
  records : List Record
  fields : List (List UInt8)
  field : List UInt8

def comma : UInt8 := 44

def quote : UInt8 := 34

def lineFeed : UInt8 := 10

def carriageReturn : UInt8 := 13

def endsRecord (byte : UInt8) : Bool :=
  byte == lineFeed || byte == carriageReturn

namespace Scanner

def empty : Scanner :=
  ⟨.betweenRecords, ⟨0, 1, 0⟩, ⟨0, 1, 0⟩, [], [], []⟩

def moveTo (scanner : Scanner) (place : Place) : Scanner :=
  { scanner with place }

def keep (scanner : Scanner) (byte : UInt8) (place : Place) : Scanner :=
  { scanner with place, field := byte :: scanner.field }

def endField (scanner : Scanner) : Scanner :=
  { scanner with
    place := .fieldStart
    fields := scanner.field.reverse :: scanner.fields
    field := [] }

def endRecord (scanner : Scanner) : Scanner :=
  let fields := (scanner.field.reverse :: scanner.fields).reverse
  let here := { scanner.here with record := scanner.here.record + 1 }
  ⟨.betweenRecords, here, here, ⟨scanner.start, fields⟩ :: scanner.records, [], []⟩

def advance (scanner : Scanner) (byte : UInt8) : Scanner :=
  let here := scanner.here
  let line := if byte == lineFeed then here.line + 1 else here.line
  { scanner with here := { here with line, byte := here.byte + 1 } }

def readPlain (scanner : Scanner) (byte : UInt8) : Scanner :=
  if byte == comma then scanner.endField
  else if endsRecord byte then scanner.endRecord
  else scanner.keep byte .plain

def readFirst (scanner : Scanner) (byte : UInt8) : Scanner :=
  if byte == quote then scanner.moveTo .quoted else scanner.readPlain byte

def step (scanner : Scanner) (byte : UInt8) : Scanner :=
  let scanner := scanner.advance byte
  match scanner.place with
  | .betweenRecords => if endsRecord byte then scanner else scanner.readFirst byte
  | .fieldStart => scanner.readFirst byte
  | .plain => scanner.readPlain byte
  | .quoted =>
    if byte == quote then scanner.moveTo .quoteInQuoted else scanner.keep byte .quoted
  | .quoteInQuoted =>
    if byte == quote then scanner.keep byte .quoted else scanner.readPlain byte

def finish (scanner : Scanner) : List Record :=
  let last := if scanner.place = .betweenRecords then scanner else scanner.endRecord
  last.records.reverse

def skipMark : List UInt8 → Scanner × List UInt8
  | 0xEF :: 0xBB :: 0xBF :: rest => ({ empty with here := ⟨0, 1, 3⟩ }, rest)
  | bytes => (empty, bytes)

end Scanner

def recordsOf (bytes : List UInt8) : List Record :=
  let (scanner, rest) := Scanner.skipMark bytes
  (rest.foldl Scanner.step scanner).finish

end TableSieve.Csv
