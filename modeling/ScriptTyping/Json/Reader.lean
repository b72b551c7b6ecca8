import ScriptTyping.Json.Basic
import ScriptTyping.Number.Read

/-!
Reading JSON text.
-/

namespace ScriptTyping

namespace JsonText

def isGap (char : Char) : Bool :=
  char == ' ' || char == '\t' || char == '\n' || char == '\r'

def skipGaps (text : List Char) : List Char := text.dropWhile isGap

/-! ### Strings -/

/-- A character of a string, or a 16-bit unit that is written as an escape. -/
inductive Piece where
  | char (char : Char)
  | unit (code : Nat)
  deriving DecidableEq, Repr

def escaped? : Char → Option Char
  | '"' => some '"'
  | '\\' => some '\\'
  | '/' => some '/'
  | 'b' => some '\x08'
  | 'f' => some '\x0c'
  | 'n' => some '\n'
  | 'r' => some '\r'
  | 't' => some '\t'
  | _ => none

def hexValue? (digits : List Char) : Option Nat :=
  digits.foldlM (fun value char => (NumberText.digit? 16 char).map (value * 16 + ·)) 0

def readPieces : List Char → Option (List Piece × List Char)
  | '"' :: rest => some ([], rest)
  | '\\' :: 'u' :: a :: b :: c :: d :: rest => do
    let code ← hexValue? [a, b, c, d]
    let (pieces, rest) ← readPieces rest
    some (.unit code :: pieces, rest)
  | '\\' :: char :: rest => do
    let char ← escaped? char
    let (pieces, rest) ← readPieces rest
    some (.char char :: pieces, rest)
  | char :: rest =>
    if char.toNat < 0x20 || char == '\\' then none
    else do
      let (pieces, rest) ← readPieces rest
      some (.char char :: pieces, rest)
  | [] => none

def isHighSurrogate (code : Nat) : Bool := 0xd800 ≤ code && code < 0xdc00

def isLowSurrogate (code : Nat) : Bool := 0xdc00 ≤ code && code < 0xe000

/-- The text of the pieces, in which a high surrogate has to stand just before a low one. -/
def joinPieces? : List Piece → Option (List Char)
  | [] => some []
  | .char char :: rest => (joinPieces? rest).map (char :: ·)
  | .unit high :: .unit low :: rest =>
    if isHighSurrogate high then
      if isLowSurrogate low then
        let code := 0x10000 + (high - 0xd800) * 0x400 + (low - 0xdc00)
        (joinPieces? rest).map (Char.ofNat code :: ·)
      else none
    else if isLowSurrogate high then none
    else (joinPieces? (.unit low :: rest)).map (Char.ofNat high :: ·)
  | .unit code :: rest =>
    if isHighSurrogate code || isLowSurrogate code then none
    else (joinPieces? rest).map (Char.ofNat code :: ·)

def readString (text : List Char) : Option (Option String × List Char) := do
  let (pieces, rest) ← readPieces text
  some ((joinPieces? pieces).map String.ofList, rest)

/-! ### Numbers -/

def readDigits? (text : List Char) : Option (List Char × List Char) :=
  match NumberText.spanDigits text with
  | ([], _) => none
  | split => some split

def readWhole? : List Char → Option (List Char × List Char)
  | '0' :: rest => some (['0'], rest)
  | text => readDigits? text

def readFraction? : List Char → Option (List Char × List Char)
  | '.' :: rest => do
    let (digits, rest) ← readDigits? rest
    some ('.' :: digits, rest)
  | rest => some ([], rest)

def readPower? : List Char → Option (List Char × List Char)
  | letter :: rest =>
    if letter == 'e' || letter == 'E' then do
      let (sign, rest) := match rest with
        | '+' :: rest => (['+'], rest)
        | '-' :: rest => (['-'], rest)
        | rest => ([], rest)
      let (digits, rest) ← readDigits? rest
      some (letter :: sign ++ digits, rest)
    else some ([], letter :: rest)
  | [] => some ([], [])

def readNumber? (isNegative : Bool) (text : List Char) : Option (Json × List Char) := do
  let (whole, rest) ← readWhole? text
  let (fraction, rest) ← readFraction? rest
  let (power, rest) ← readPower? rest
  let value : Int := NumberText.decimalValue whole
  let sign := if isNegative then ['-'] else []
  if fraction.isEmpty && power.isEmpty && !(isNegative && value == 0) then
    some (.integer (if isNegative then -value else value), rest)
  else some (.decimal (String.ofList (sign ++ whole ++ fraction ++ power)), rest)

/-! ### Values -/

def ofMembers (members : List (Option String × Json)) : Json :=
  match members.mapM fun (name, value) => name.map fun name => (name, value) with
  | some members => .object members
  | none => .unpaired

mutual

def readValue : Nat → List Char → Option (Json × List Char)
  | 0, _ => none
  | fuel + 1, text =>
    match text with
    | 'n' :: 'u' :: 'l' :: 'l' :: rest => some (.null, rest)
    | 't' :: 'r' :: 'u' :: 'e' :: rest => some (.bool true, rest)
    | 'f' :: 'a' :: 'l' :: 's' :: 'e' :: rest => some (.bool false, rest)
    | '"' :: rest => do
      let (string, rest) ← readString rest
      some (match string with
        | some value => .string value
        | none => .unpaired, rest)
    | '[' :: rest =>
      match skipGaps rest with
      | ']' :: rest => some (.array [], rest)
      | rest => do
        let (items, rest) ← readItems fuel rest
        some (.array items, rest)
    | '{' :: rest =>
      match skipGaps rest with
      | '}' :: rest => some (.object [], rest)
      | rest => do
        let (members, rest) ← readMembers fuel rest
        some (ofMembers members, rest)
    | '-' :: rest => readNumber? true rest
    | rest => readNumber? false rest

def readItems : Nat → List Char → Option (List Json × List Char)
  | 0, _ => none
  | fuel + 1, text => do
    let (item, rest) ← readValue fuel (skipGaps text)
    match skipGaps rest with
    | ',' :: rest => do
      let (items, rest) ← readItems fuel rest
      some (item :: items, rest)
    | ']' :: rest => some ([item], rest)
    | _ => none

def readMembers : Nat → List Char → Option (List (Option String × Json) × List Char)
  | 0, _ => none
  | fuel + 1, text =>
    match skipGaps text with
    | '"' :: rest => do
      let (name, rest) ← readString rest
      match skipGaps rest with
      | ':' :: rest => do
        let (value, rest) ← readValue fuel (skipGaps rest)
        match skipGaps rest with
        | ',' :: rest => do
          let (members, rest) ← readMembers fuel rest
          some ((name, value) :: members, rest)
        | '}' :: rest => some ([(name, value)], rest)
        | _ => none
      | _ => none
    | _ => none

end

end JsonText

/-- The value that a text holds, with nothing but blanks around it. Each step of the reader inside
a bracket leaves less of the text, so twice its length is steps enough. -/
def Json.ofText? (text : String) : Option Json :=
  let chars := text.toList
  match JsonText.readValue (2 * chars.length + 2) (JsonText.skipGaps chars) with
  | some (json, rest) => if (JsonText.skipGaps rest).isEmpty then some json else none
  | none => none

end ScriptTyping
