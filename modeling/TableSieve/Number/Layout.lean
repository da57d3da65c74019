import TableSieve.Number.Shortest

/-!
Writing floating-point numbers. The shortest digits of a number are laid out by a layout, which says
where positional notation begins and ends, whether a whole number keeps its point and whether a
positive exponent carries its sign. Literals and cells of a file keep the point so that they read
back as floats; a displayed value drops it.
-/

namespace TableSieve.Number

/-- Decimal orders that are not positional are written with an exponent. -/
structure Layout where
  positional : Int → Bool
  keepsPoint : Bool
  signsExponent : Bool
  tie : Tie

/-- Positional from `0.0001` to below `10 ^ 16`. -/
def Layout.literal : Layout where
  positional order := -4 ≤ order && order < 16
  keepsPoint := true
  signsExponent := false
  tie := .up

/-- Positional from `0.00001` to below `10 ^ 16`; every exponent carries its sign. -/
def Layout.json : Layout where
  positional order := -5 ≤ order && order < 16
  keepsPoint := true
  signsExponent := true
  tie := .even

def Layout.plain : Layout where
  positional _ := true
  keepsPoint := false
  signsExponent := false
  tie := .up

def positionalChars (keepsPoint : Bool) (digits : List Char) (order : Int) : List Char :=
  if order < 0 then '0' :: '.' :: (List.replicate (-order - 1).toNat '0' ++ digits)
  else
    let whole := order.toNat + 1
    if digits.length ≤ whole then
      digits ++ List.replicate (whole - digits.length) '0' ++
        (if keepsPoint then ['.', '0'] else [])
    else digits.take whole ++ '.' :: digits.drop whole

def exponentChars (signsExponent : Bool) (digits : List Char) (order : Int) : List Char :=
  let fraction := match digits with
    | first :: next :: more => first :: '.' :: next :: more
    | few => few
  let sign := if signsExponent && 0 ≤ order then ['+'] else []
  fraction ++ 'e' :: (sign ++ intChars order)

def stripZeros (digits : List Char) : List Char :=
  (digits.reverse.dropWhile (· == '0')).reverse

def significant (decimal : Decimal) : List Char × Int :=
  let digits := digitsOf decimal.digits
  (stripZeros digits, decimal.exponent + digits.length - 1)

def Layout.magnitudeChars (layout : Layout) (bits : Nat) : List Char :=
  if bits = 0 then positionalChars layout.keepsPoint ['0'] 0
  else
    let parts := significant (shortest layout.tie bits)
    if layout.positional parts.2 then positionalChars layout.keepsPoint parts.1 parts.2
    else exponentChars layout.signsExponent parts.1 parts.2

def Layout.chars (layout : Layout) (value : Float) : List Char :=
  if isNaN value then ['N', 'a', 'N']
  else
    let size :=
      if isFinite value then layout.magnitudeChars (magnitudeBits value) else ['i', 'n', 'f']
    if isNegative value then '-' :: size else size

def Layout.text (layout : Layout) (value : Float) : String :=
  String.ofList (layout.chars value)

end TableSieve.Number
