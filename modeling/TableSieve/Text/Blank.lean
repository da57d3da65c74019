/-!
White space. A blank is a character of the Unicode property White_Space; trimming removes the
blanks at both ends of a text and leaves those inside alone.
-/

namespace TableSieve.Text

def isBlank (c : Char) : Bool :=
  let code := c.toNat
  (9 ≤ code && code ≤ 13) || code == 0x20 || code == 0x85 || code == 0xA0 || code == 0x1680 ||
    (0x2000 ≤ code && code ≤ 0x200A) || code == 0x2028 || code == 0x2029 || code == 0x202F ||
    code == 0x205F || code == 0x3000

def dropBlanks (chars : List Char) : List Char :=
  chars.dropWhile isBlank

def trimChars (chars : List Char) : List Char :=
  (dropBlanks (dropBlanks chars).reverse).reverse

def trim (text : String) : String :=
  String.ofList (trimChars text.toList)

def isBlankText (text : String) : Bool :=
  text.toList.all isBlank

def withoutBlanks (chars : List Char) : List Char :=
  chars.filter fun c => !isBlank c

theorem dropBlanks_length_le (chars : List Char) : (dropBlanks chars).length ≤ chars.length :=
  (List.dropWhile_suffix isBlank).length_le

end TableSieve.Text
