import TableSieve.Csv.Column
import TableSieve.Csv.Record
import TableSieve.Table.Basic
import TableSieve.Text.Blank
import TableSieve.Text.Utf8

/-!
Reading a table from comma-separated values. The first record names the columns, and every other one
must have as many fields. Names and cells are trimmed, also where they are quoted. Records are
checked in their order, so the first one at fault gives the error.
-/

namespace TableSieve.Csv

open TableSieve.Number TableSieve.Text

inductive Fault
  | fieldCount (start : Position) (found expected : Nat)
  | notText (start : Position) (field index : Nat)
  deriving DecidableEq

def Fault.message : Fault → String
  | .fieldCount start found expected =>
    s!"CSV error: record {natText start.record} (line: {natText start.line}, " ++
      s!"byte: {natText start.byte}): found record with {natText found} fields, " ++
      s!"but the previous record has {natText expected} fields"
  | .notText start field index =>
    s!"CSV parse error: record {natText start.record} (line {natText start.line}, " ++
      s!"field: {natText field}, byte: {natText start.byte}): invalid utf-8: " ++
      s!"invalid UTF-8 in field {natText field} near byte index {natText index}"

inductive ReadError
  | fault (fault : Fault)
  | table (error : TableError)

def isAsciiBlank (byte : UInt8) : Bool :=
  byte == 32 || byte == 9 || byte == 10 || byte == 12 || byte == 13

def trimBytes (bytes : List UInt8) : List UInt8 :=
  ((bytes.dropWhile isAsciiBlank).reverse.dropWhile isAsciiBlank).reverse

def decodeFields (start : Position) (number : Nat) :
    List (List UInt8) → Except Fault (List String)
  | [] => .ok []
  | field :: rest =>
    match decode field with
    | .error index => .error (.notText start number index)
    | .ok text => (decodeFields start (number + 1) rest).map (trim text :: ·)

def readNames (record : Record) : Except Fault (List String) :=
  decodeFields record.start 0 record.fields

/-- Bytes that are blanks are trimmed before the fields are decoded, and so are not counted. -/
def readTexts (width : Nat) (record : Record) : Except Fault (List String) :=
  if record.fields.length ≠ width then
    .error (.fieldCount record.start record.fields.length width)
  else decodeFields record.start 0 (record.fields.map trimBytes)

def readRows (bytes : List UInt8) : Except Fault (List String × List (List String)) :=
  match recordsOf bytes with
  | [] => .ok ([], [])
  | header :: records => do
    let names ← readNames header
    let rows ← records.mapM (readTexts header.fields.length)
    .ok (names, rows)

def tableOf (names : List String) (rows : List (List String)) : Except TableError Table := do
  let columns ← (names.zip (transpose names.length rows)).mapM fun entry =>
    columnOf entry.1 entry.2
  Table.ofColumns columns

def readTable (bytes : List UInt8) : Except ReadError Table := do
  let (names, rows) ← (readRows bytes).mapError .fault
  (tableOf names rows).mapError .table

end TableSieve.Csv
