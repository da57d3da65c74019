import TableSieve.Text.Blank

/-!
Cutting texts: at every occurrence of a separator, or by a fixed beginning and end.
-/

namespace TableSieve.Text

/-- The pieces between the separators; there is one more piece than separators. -/
def split (separator : Char) : List Char → List (List Char)
  | [] => [[]]
  | c :: rest =>
    if c = separator then [] :: split separator rest
    else match split separator rest with
      | [] => [[c]]
      | piece :: pieces => (c :: piece) :: pieces

def after? : List Char → List Char → Option (List Char)
  | [], chars => some chars
  | _ :: _, [] => none
  | expected :: more, c :: rest => if c = expected then after? more rest else none

def between? (opening closing : Char) (chars : List Char) : Option (List Char) :=
  match chars with
  | [] => none
  | c :: rest =>
    if c = opening then
      match rest.getLast? with
      | some last => if last = closing then some rest.dropLast else none
      | none => none
    else none

def squeezeBlanks : List Char → List Char
  | [] => []
  | c :: rest =>
    if isBlank c then
      match rest with
      | next :: _ => if isBlank next then squeezeBlanks rest else ' ' :: squeezeBlanks rest
      | [] => [' ']
    else c :: squeezeBlanks rest

theorem after?_length {expected chars rest : List Char}
    (found : after? expected chars = some rest) :
    rest.length + expected.length = chars.length := by
  induction expected generalizing chars with
  | nil =>
      simp only [after?, Option.some.injEq] at found
      simp [found]
  | cons first more ih =>
      cases chars with
      | nil => simp [after?] at found
      | cons c chars =>
          simp only [after?] at found
          split at found
          · have := ih found
            simp only [List.length_cons]
            omega
          · simp at found

end TableSieve.Text
