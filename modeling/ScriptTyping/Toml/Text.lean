import ScriptTyping.Number.Read

/-!
The characters of TOML documents: blanks, line ends and comments, strings and keys.
-/

namespace ScriptTyping

namespace TomlText

/-! ### Blanks and lines -/

def isBlank (char : Char) : Bool := char == ' ' || char == '\t'

def isPlain (char : Char) : Bool := char == '\t' || (' ' ≤ char && char != '\x7f')

def skipBlanks (text : List Char) : List Char := text.dropWhile isBlank

def newline? : List Char → Option (List Char)
  | '\n' :: rest => some rest
  | '\r' :: '\n' :: rest => some rest
  | _ => none

def skipComment : List Char → List Char
  | '#' :: rest => rest.dropWhile isPlain
  | rest => rest

def endLine? (text : List Char) : Option (List Char) :=
  match skipComment (skipBlanks text) with
  | [] => some []
  | rest => newline? rest

/-- Skips blanks, line ends and comments; `inComment` says whether the text starts in one. -/
def skipGaps (inComment : Bool) : List Char → List Char
  | [] => []
  | '\n' :: rest => skipGaps false rest
  | '\r' :: '\n' :: rest => skipGaps false rest
  | char :: rest =>
    if char = '#' ∨ (inComment && isPlain char) then skipGaps true rest
    else if isBlank char then skipGaps false rest
    else char :: rest

def skipBreaks : List Char → List Char
  | [] => []
  | '\r' :: '\n' :: rest => skipBreaks rest
  | char :: rest => if isBlank char || char == '\n' then skipBreaks rest else char :: rest

/-! ### Strings -/

def readCodePoint? (count : Nat) (text : List Char) : Option (Char × List Char) :=
  let digits := (text.take count).filterMap (NumberText.digit? 16)
  let value := digits.foldl (fun value digit => value * 16 + digit) 0
  if digits.length = count ∧ value.isValidChar then some (Char.ofNat value, text.drop count)
  else none

def readEscape? : List Char → Option (Char × List Char)
  | 'b' :: rest => some ('\x08', rest)
  | 't' :: rest => some ('\t', rest)
  | 'n' :: rest => some ('\n', rest)
  | 'f' :: rest => some ('\x0c', rest)
  | 'r' :: rest => some ('\r', rest)
  | '"' :: rest => some ('"', rest)
  | '\\' :: rest => some ('\\', rest)
  | 'u' :: rest => readCodePoint? 4 rest
  | 'U' :: rest => readCodePoint? 8 rest
  | _ => none

def readBasic : Nat → List Char → Option (List Char × List Char)
  | 0, _ => none
  | _ + 1, [] => none
  | _ + 1, '"' :: rest => some ([], rest)
  | fuel + 1, '\\' :: rest => do
    let (char, rest) ← readEscape? rest
    let (chars, rest) ← readBasic fuel rest
    some (char :: chars, rest)
  | fuel + 1, char :: rest =>
    if isPlain char then do
      let (chars, rest) ← readBasic fuel rest
      some (char :: chars, rest)
    else none

def readLiteral : List Char → Option (List Char × List Char)
  | [] => none
  | '\'' :: rest => some ([], rest)
  | char :: rest =>
    if isPlain char then do
      let (chars, rest) ← readLiteral rest
      some (char :: chars, rest)
    else none

/-- Reads the lines of a string up to its three closing quotes. Of a longer run of quotes at the end
the first two at most belong to the string. -/
def readLines (quote : Char) (hasEscapes : Bool) : Nat → List Char → Option (List Char × List Char)
  | 0, _ => none
  | _ + 1, [] => none
  | fuel + 1, char :: rest =>
    if char = quote then
      let run := (char :: rest).takeWhile (· == quote)
      let after := (char :: rest).dropWhile (· == quote)
      if run.length < 3 then do
        let (chars, rest) ← readLines quote hasEscapes fuel after
        some (run ++ chars, rest)
      else
        let kept := min (run.length - 3) 2
        some (run.take kept, run.drop (kept + 3) ++ after)
    else if char = '\\' ∧ hasEscapes then
      match newline? (skipBlanks rest) with
      | some rest => readLines quote hasEscapes fuel (skipBreaks rest)
      | none => do
        let (char, rest) ← readEscape? rest
        let (chars, rest) ← readLines quote hasEscapes fuel rest
        some (char :: chars, rest)
    else
      match newline? (char :: rest) with
      | some rest => do
        let (chars, rest) ← readLines quote hasEscapes fuel rest
        some ('\n' :: chars, rest)
      | none =>
        if isPlain char then do
          let (chars, rest) ← readLines quote hasEscapes fuel rest
          some (char :: chars, rest)
        else none

def readBlock (quote : Char) (hasEscapes : Bool) (text : List Char) :
    Option (List Char × List Char) :=
  readLines quote hasEscapes (text.length + 1) ((newline? text).getD text)

def readString? : List Char → Option (List Char × List Char)
  | '"' :: '"' :: '"' :: rest => readBlock '"' true rest
  | '"' :: rest => readBasic (rest.length + 1) rest
  | '\'' :: '\'' :: '\'' :: rest => readBlock '\'' false rest
  | '\'' :: rest => readLiteral rest
  | _ => none

/-! ### Keys -/

def isKeyChar (char : Char) : Bool := char.isAlphanum || char == '_' || char == '-'

def readPart : List Char → Option (List Char × List Char)
  | '"' :: rest => readBasic (rest.length + 1) rest
  | '\'' :: rest => readLiteral rest
  | text =>
    match text.takeWhile isKeyChar with
    | [] => none
    | word => some (word, text.dropWhile isKeyChar)

def readParts : Nat → List Char → Option (List String × List Char)
  | 0, _ => none
  | fuel + 1, text => do
    let (part, rest) ← readPart (skipBlanks text)
    match skipBlanks rest with
    | '.' :: rest => do
      let (parts, rest) ← readParts fuel rest
      some (String.ofList part :: parts, rest)
    | rest => some ([String.ofList part], rest)

def maxNesting : Nat := 79

def readKey (text : List Char) : Option (List String × List Char) := readParts maxNesting text

end TomlText

end ScriptTyping
