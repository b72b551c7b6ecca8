import ScriptTyping.Toml.Scalar
import ScriptTyping.Toml.Table

/-!
TOML documents, read into the values that JSON has.
-/

namespace ScriptTyping

namespace TomlText

/-! ### Values -/

def readItems (readValue : List Char → Option (Json × List Char)) :
    Nat → List Char → Option (List Json × List Char)
  | 0, _ => none
  | fuel + 1, text =>
    match skipGaps false text with
    | ']' :: rest => some ([], rest)
    | text => do
      let (item, rest) ← readValue text
      match skipGaps false rest with
      | ',' :: rest => do
        let (items, rest) ← readItems readValue fuel rest
        some (item :: items, rest)
      | ']' :: rest => some ([item], rest)
      | _ => none

def readPair (readValue : List Char → Option (Json × List Char)) (text : List Char) :
    Option ((List String × Json) × List Char) := do
  let (key, rest) ← readKey text
  match rest with
  | '=' :: rest => do
    let (json, rest) ← readValue (skipBlanks rest)
    some ((key, json), rest)
  | _ => none

def readPairs (readValue : List Char → Option (Json × List Char)) :
    Nat → List Char → Option (List (List String × Json) × List Char)
  | 0, _ => none
  | fuel + 1, text => do
    let (pair, rest) ← readPair readValue text
    match skipBlanks rest with
    | ',' :: rest => do
      let (pairs, rest) ← readPairs readValue fuel rest
      some (pair :: pairs, rest)
    | '}' :: rest => some ([pair], rest)
    | _ => none

def inlineTable? (pairs : List (List String × Json)) : Option Json :=
  (TomlEntries.insertAll pairs []).map fun entries => .object (TomlItem.members entries)

def readValue (depth : Nat) (text : List Char) : Option (Json × List Char) :=
  match text with
  | '[' :: rest =>
    match depth with
    | 0 => none
    | depth + 1 => do
      let (items, rest) ← readItems (readValue depth) (rest.length + 1) rest
      some (.array items, rest)
  | '\x7b' :: rest =>
    match depth with
    | 0 => none
    | depth + 1 =>
      match skipBlanks rest with
      | '\x7d' :: rest => some (.object [], rest)
      | _ => do
        let (pairs, rest) ← readPairs (readValue depth) (rest.length + 1) rest
        let json ← inlineTable? pairs
        some (json, rest)
  | _ =>
    match text.head? with
    | some '"' => (readString? text).map fun (chars, rest) => (.string (String.ofList chars), rest)
    | some '\'' => (readString? text).map fun (chars, rest) => (.string (String.ofList chars), rest)
    | _ => readBare text

/-! ### Documents -/

structure Group where
  isRepeated : Bool
  path : List String
  pairs : List (List String × Json)

def readHeader (isRepeated : Bool) (text : List Char) : Option (List String × List Char) := do
  let (path, rest) ← readKey text
  match isRepeated, rest with
  | true, ']' :: ']' :: rest => some (path, ← endLine? rest)
  | false, ']' :: rest => some (path, ← endLine? rest)
  | _, _ => none

def readLinesOf : Nat → List Char → Option (List (List String × Json) × List Group)
  | 0, _ => none
  | fuel + 1, text =>
    match skipGaps false text with
    | [] => some ([], [])
    | '[' :: '[' :: rest => do
      let (path, rest) ← readHeader true rest
      let (pairs, groups) ← readLinesOf fuel rest
      some ([], ⟨true, path, pairs⟩ :: groups)
    | '[' :: rest => do
      let (path, rest) ← readHeader false rest
      let (pairs, groups) ← readLinesOf fuel rest
      some ([], ⟨false, path, pairs⟩ :: groups)
    | text => do
      let (pair, rest) ← readPair (readValue maxNesting) text
      let (pairs, groups) ← readLinesOf fuel (← endLine? rest)
      some (pair :: pairs, groups)

def addGroup (entries : TomlEntries) (group : Group) : Option TomlEntries :=
  match group.path.getLast? with
  | none => none
  | some key =>
    entries.change group.path.dropLast
      (if group.isRepeated then TomlEntries.addTable key group.pairs
        else TomlEntries.openTable key group.pairs)

end TomlText

def Json.ofToml? (text : String) : Option Json := do
  let chars := match text.toList with
    | '\ufeff' :: rest => rest
    | chars => chars
  let (pairs, groups) ← TomlText.readLinesOf (chars.length + 1) chars
  let entries ← TomlEntries.insertAll pairs []
  let entries ← groups.foldlM TomlText.addGroup entries
  some (.object (TomlItem.members entries))

end ScriptTyping
