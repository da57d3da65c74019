/-!
Decoding of UTF-8. Bytes that encode no text are refused with the position of the first character
that cannot be decoded.
-/

namespace TableSieve.Text

def firstChar? (bytes : List UInt8) : Option Char :=
  ByteArray.utf8DecodeChar? (bytes.take 4).toByteArray 0

def decodeFrom (position : Nat) : List UInt8 → Except Nat (List Char)
  | [] => .ok []
  | byte :: rest =>
    match firstChar? (byte :: rest) with
    | none => .error position
    | some c =>
      (decodeFrom (position + c.utf8Size) (rest.drop (c.utf8Size - 1))).map (c :: ·)
termination_by bytes => bytes.length
decreasing_by
  simp only [List.length_drop, List.length_cons]
  omega

def decode (bytes : List UInt8) : Except Nat String :=
  (decodeFrom 0 bytes).map String.ofList

end TableSieve.Text
