import TableSieve.Number.Digits

/-!
White space, comments, keys and strings of TOML documents. A string stands between double quotes,
with escapes, or between single quotes, without. Three quotes open a string that may span lines: a
line break right after them is dropped, every other one counts as a line feed, and up to two quotes
may stand right before the three that close it.
-/

namespace TableSieve.Toml

open TableSieve.Number
open TableSieve.Text (isAsciiDigit)

def isSpace (c : Char) : Bool :=
  c = ' ' || c = '\t'

def skipSpace (chars : List Char) : List Char :=
  chars.dropWhile isSpace

def afterBreak? : List Char → Option (List Char)
  | '\n' :: rest => some rest
  | '\r' :: '\n' :: rest => some rest
  | _ => none

/-- Tabs and all characters but the controls of ASCII. -/
def isPlain (c : Char) : Bool :=
  c = '\t' || (32 ≤ c.toNat && c.toNat ≠ 127)

def skipComment : List Char → List Char
  | '#' :: rest => rest.dropWhile isPlain
  | chars => chars

def endLine? (chars : List Char) : Option (List Char) :=
  match skipComment (skipSpace chars) with
  | [] => some []
  | rest => afterBreak? rest

def skipBreaks : List Char → List Char
  | '\r' :: '\n' :: rest => skipBreaks rest
  | c :: rest => if isSpace c || c = '\n' then skipBreaks rest else c :: rest
  | [] => []

def skipFiller (inComment : Bool) : List Char → List Char
  | [] => []
  | '\n' :: rest => skipFiller false rest
  | '\r' :: '\n' :: rest => skipFiller false rest
  | c :: rest =>
    if inComment then if isPlain c then skipFiller true rest else c :: rest
    else if c = '#' then skipFiller true rest
    else if isSpace c then skipFiller false rest
    else c :: rest

def codeChar? (digits : List Char) : Option Char := do
  let values ← digits.mapM hexValue?
  let code := values.foldl (fun total value => 16 * total + value) 0
  if code < 0xD800 ∨ (0xDFFF < code ∧ code ≤ 0x10FFFF) then some (Char.ofNat code) else none

def readEscape? : List Char → Option (Char × List Char)
  | 'b' :: rest => some (Char.ofNat 8, rest)
  | 'f' :: rest => some (Char.ofNat 12, rest)
  | 'n' :: rest => some ('\n', rest)
  | 'r' :: rest => some ('\r', rest)
  | 't' :: rest => some ('\t', rest)
  | '"' :: rest => some ('"', rest)
  | '\\' :: rest => some ('\\', rest)
  | 'u' :: a :: b :: c :: d :: rest => (codeChar? [a, b, c, d]).map fun meant => (meant, rest)
  | 'U' :: a :: b :: c :: d :: e :: f :: g :: h :: rest =>
    (codeChar? [a, b, c, d, e, f, g, h]).map fun meant => (meant, rest)
  | _ => none

theorem readEscape?_length {chars rest : List Char} {meant : Char}
    (read : readEscape? chars = some (meant, rest)) : rest.length < chars.length := by
  unfold readEscape? at read
  split at read <;> simp_all <;> grind

def readQuoted (done : List Char) (chars : List Char) : Option (List Char × List Char) :=
  match chars with
  | [] => none
  | '"' :: rest => some (done.reverse, rest)
  | '\\' :: rest =>
    match read : readEscape? rest with
    | some (meant, after) =>
      have := readEscape?_length read
      readQuoted (meant :: done) after
    | none => none
  | c :: rest => if isPlain c then readQuoted (c :: done) rest else none
termination_by chars.length

def readLiteral : List Char → Option (List Char × List Char)
  | [] => none
  | c :: rest =>
    if c = '\'' then some ([], rest)
    else if isPlain c then (readLiteral rest).map fun read => (c :: read.1, read.2)
    else none

/-- The quotes before the closing three, and what follows these. -/
def closeQuotes (quote : Char) (afterThree : List Char) : List Char × List Char :=
  let extra := (afterThree.take 2).takeWhile (· == quote)
  (extra, afterThree.drop extra.length)

theorem skipBreaks_length_le (chars : List Char) : (skipBreaks chars).length ≤ chars.length := by
  fun_induction skipBreaks chars <;> simp_all <;> omega

theorem afterBreak?_length {chars rest : List Char} (found : afterBreak? chars = some rest) :
    rest.length < chars.length := by
  unfold afterBreak? at found
  split at found
  · cases found
    exact Nat.lt_succ_self _
  · cases found
    exact Nat.lt_succ_of_lt (Nat.lt_succ_self _)
  · cases found

theorem skipSpace_length_le (chars : List Char) : (skipSpace chars).length ≤ chars.length :=
  (List.dropWhile_suffix isSpace).length_le

/-- The rest of a string between three double quotes. A backslash at the end of a line joins it to
the next character that is not white space. -/
def readQuotedLines (done : List Char) (chars : List Char) : Option (List Char × List Char) :=
  match chars with
  | [] => none
  | '"' :: '"' :: '"' :: rest =>
    let closing := closeQuotes '"' rest
    some (done.reverse ++ closing.1, closing.2)
  | '\\' :: rest =>
    match joined : afterBreak? (skipSpace rest) with
    | some after =>
      have := afterBreak?_length joined
      have := skipSpace_length_le rest
      have := skipBreaks_length_le after
      readQuotedLines done (skipBreaks after)
    | none =>
      match read : readEscape? rest with
      | some (meant, after) =>
        have := readEscape?_length read
        readQuotedLines (meant :: done) after
      | none => none
  | '\n' :: rest => readQuotedLines ('\n' :: done) rest
  | '\r' :: '\n' :: rest => readQuotedLines ('\n' :: done) rest
  | c :: rest => if isPlain c then readQuotedLines (c :: done) rest else none
termination_by chars.length

def readLiteralLines (done : List Char) : List Char → Option (List Char × List Char)
  | [] => none
  | '\'' :: '\'' :: '\'' :: rest =>
    let closing := closeQuotes '\'' rest
    some (done.reverse ++ closing.1, closing.2)
  | '\n' :: rest => readLiteralLines ('\n' :: done) rest
  | '\r' :: '\n' :: rest => readLiteralLines ('\n' :: done) rest
  | c :: rest => if isPlain c then readLiteralLines (c :: done) rest else none

def dropBreak (chars : List Char) : List Char :=
  (afterBreak? chars).getD chars

def readString? (chars : List Char) : Option (String × List Char) :=
  let read := match chars with
    | '"' :: '"' :: '"' :: rest => readQuotedLines [] (dropBreak rest)
    | '"' :: rest => readQuoted [] rest
    | '\'' :: '\'' :: '\'' :: rest => readLiteralLines [] (dropBreak rest)
    | '\'' :: rest => readLiteral rest
    | _ => none
  read.map fun found => (String.ofList found.1, found.2)

def isBareKeyChar (c : Char) : Bool :=
  isAsciiDigit c || ('a' ≤ c && c ≤ 'z') || ('A' ≤ c && c ≤ 'Z') || c = '_' || c = '-'

def readKey? (chars : List Char) : Option (String × List Char) :=
  match chars with
  | '"' :: rest => (readQuoted [] rest).map fun read => (String.ofList read.1, read.2)
  | '\'' :: rest => (readLiteral rest).map fun read => (String.ofList read.1, read.2)
  | _ =>
    let key := chars.takeWhile isBareKeyChar
    if key.isEmpty then none else some (String.ofList key, chars.drop key.length)

/-- A dotted key has fewer parts than this. -/
def keyPartLimit : Nat := 80

def readKeys? : Nat → List Char → Option (List String × List Char)
  | 0, _ => none
  | limit + 1, chars => do
    let (key, rest) ← readKey? (skipSpace chars)
    match skipSpace rest with
    | '.' :: more => do
      let (keys, final) ← readKeys? limit more
      some (key :: keys, final)
    | rest => some ([key], rest)

def readPath? (chars : List Char) : Option (List String × List Char) :=
  readKeys? (keyPartLimit - 1) chars

end TableSieve.Toml
