/-!
Lines and blanks of a text.
-/

namespace ScriptTyping

def isBlank (char : Char) : Bool :=
  let code := char.toNat
  (0x9 ≤ code && code ≤ 0xd) || code == 0x20 || code == 0x85 || code == 0xa0 || code == 0x1680 ||
    (0x2000 ≤ code && code ≤ 0x200a) || code == 0x2028 || code == 0x2029 || code == 0x202f ||
    code == 0x205f || code == 0x3000

def trimBlankEnd (line : List Char) : List Char :=
  (line.reverse.dropWhile isBlank).reverse

def trimBlanks (line : List Char) : List Char := trimBlankEnd (line.dropWhile isBlank)

def cutAfter (ends : Char → Bool) : List Char → List (List Char)
  | [] => []
  | char :: rest =>
    if ends char then [char] :: cutAfter ends rest
    else
      match cutAfter ends rest with
      | [] => [[char]]
      | piece :: pieces => (char :: piece) :: pieces

def dropLineEnd (line : List Char) : List Char :=
  match line.reverse with
  | '\n' :: '\r' :: rest => rest.reverse
  | '\n' :: rest => rest.reverse
  | _ => line

def textLines (text : String) : List (List Char) :=
  (cutAfter (· == '\n') text.toList).map dropLineEnd

end ScriptTyping
