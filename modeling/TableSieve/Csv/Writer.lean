import TableSieve.Csv.Column
import TableSieve.Table.Basic

/-!
Writing a table as comma-separated values: the names of the columns, then the rows. A field is
quoted where it would not read back otherwise, and so is a record that would be an empty line.
-/

namespace TableSieve.Csv

def needsQuotes (c : Char) : Bool :=
  c = ',' || c = '"' || c = '\n' || c = '\r'

def doubledQuote (c : Char) : List Char :=
  if c = '"' then ['"', '"'] else [c]

def fieldText (text : String) : String :=
  if text.toList.any needsQuotes then
    String.ofList ('"' :: (text.toList.flatMap doubledQuote ++ ['"']))
  else text

def recordText (fields : List String) : String :=
  let line := ",".intercalate (fields.map fieldText)
  if line.isEmpty then "\"\"\n" else line ++ "\n"

def tableText (table : Table) : String :=
  String.join (recordText table.names ::
    table.rows.map fun row => recordText (row.map cellText))

end TableSieve.Csv
