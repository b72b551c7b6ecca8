import ScriptTyping.Json.Basic

/-!
Writing JSON text, on one line or laid out with two spaces for each level.
-/

namespace ScriptTyping

namespace JsonText

def hexDigit (value : Nat) : Char := (Nat.toDigits 16 value).headD '0'

def escapeChar (char : Char) : List Char :=
  if char == '"' then ['\\', '"']
  else if char == '\\' then ['\\', '\\']
  else if char == '\x08' then ['\\', 'b']
  else if char == '\x0c' then ['\\', 'f']
  else if char == '\n' then ['\\', 'n']
  else if char == '\r' then ['\\', 'r']
  else if char == '\t' then ['\\', 't']
  else if char.toNat < 0x20 then
    ['\\', 'u', '0', '0', hexDigit (char.toNat / 16), hexDigit (char.toNat % 16)]
  else [char]

def quote (text : String) : String :=
  "\"" ++ String.ofList (text.toList.flatMap escapeChar) ++ "\""

def indent (level : Nat) : String := "\n" ++ String.ofList (List.replicate (2 * level) ' ')

mutual

def compact : Json → String
  | .null => "null"
  | .bool value => if value then "true" else "false"
  | .integer value => toString value
  | .decimal text => text
  | .string value => quote value
  | .array items => "[" ++ ",".intercalate (compactItems items) ++ "]"
  | .object members => "\x7b" ++ ",".intercalate (compactMembers members) ++ "\x7d"
  | .unpaired => "null"

def compactItems : List Json → List String
  | [] => []
  | item :: rest => compact item :: compactItems rest

def compactMembers : List (String × Json) → List String
  | [] => []
  | (name, value) :: rest => (quote name ++ ":" ++ compact value) :: compactMembers rest

end

mutual

def pretty (level : Nat) : Json → String
  | .array [] => "[]"
  | .object [] => "\x7b\x7d"
  | .array items =>
    "[" ++ indent (level + 1) ++
      ("," ++ indent (level + 1)).intercalate (prettyItems (level + 1) items) ++ indent level ++ "]"
  | .object members =>
    "\x7b" ++ indent (level + 1) ++
      ("," ++ indent (level + 1)).intercalate (prettyMembers (level + 1) members) ++
        indent level ++ "\x7d"
  | json => compact json

def prettyItems (level : Nat) : List Json → List String
  | [] => []
  | item :: rest => pretty level item :: prettyItems level rest

def prettyMembers (level : Nat) : List (String × Json) → List String
  | [] => []
  | (name, value) :: rest =>
    (quote name ++ ": " ++ pretty level value) :: prettyMembers level rest

end

end JsonText

def Json.text (json : Json) : String := JsonText.compact json

def Json.prettyText (json : Json) : String := JsonText.pretty 0 json

end ScriptTyping
