import ScriptTyping.Json.Basic

/-!
The tables of a TOML document as they grow. Which further lines may add to a table depends on how it
came about.
-/

namespace ScriptTyping

inductive TomlOrigin where
  /-- By a header of its own. -/
  | header
  /-- By a header that leads through it. -/
  | implied
  /-- By a key that leads through it. -/
  | dotted
  deriving DecidableEq, Repr

inductive TomlItem where
  | value (json : Json)
  | table (origin : TomlOrigin) (entries : List (String × TomlItem))
  /-- The tables of a repeated header. -/
  | tables (items : List (List (String × TomlItem)))

abbrev TomlEntries := List (String × TomlItem)

namespace TomlEntries

def find? (entries : TomlEntries) (key : String) : Option TomlItem :=
  (List.find? (·.1 == key) entries).map (·.2)

def put (entries : TomlEntries) (key : String) (item : TomlItem) : TomlEntries :=
  entries.filter (·.1 != key) ++ [(key, item)]

/-- Adds a value under a key, whose last part must be new. A key leads through tables that keys or
other headers made, and the last of those must be made by keys. -/
def insert (json : Json) : List String → TomlEntries → Option TomlEntries
  | [], _ => none
  | [key], entries =>
    if (entries.find? key).isSome then none else some (entries.put key (.value json))
  | key :: next :: path, entries =>
    match entries.find? key with
    | none => do
      let inner ← insert json (next :: path) []
      some (entries.put key (.table .dotted inner))
    | some (.table .dotted inner) => do
      let inner ← insert json (next :: path) inner
      some (entries.put key (.table .dotted inner))
    | some (.table .implied inner) =>
      if path.isEmpty then none
      else do
        let inner ← insert json (next :: path) inner
        some (entries.put key (.table .implied inner))
    | some (.tables items) =>
      match path.isEmpty, items.getLast? with
      | false, some last => do
        let last ← insert json (next :: path) last
        some (entries.put key (.tables (items.dropLast ++ [last])))
      | _, _ => none
    | _ => none

def insertAll : List (List String × Json) → TomlEntries → Option TomlEntries
  | [], entries => some entries
  | (key, json) :: rest, entries => do
    let entries ← insert json key entries
    insertAll rest entries

/-- Changes the table at the end of a path of headers. Tables that are missing on the way are
implied, and of repeated tables the path leads through the last. -/
def change (path : List String) (edit : TomlEntries → Option TomlEntries) (entries : TomlEntries) :
    Option TomlEntries :=
  match path with
  | [] => edit entries
  | key :: path =>
    match entries.find? key with
    | none => do
      let inner ← change path edit []
      some (entries.put key (.table .implied inner))
    | some (.value _) => none
    | some (.table origin inner) => do
      let inner ← change path edit inner
      some (entries.put key (.table origin inner))
    | some (.tables items) =>
      match items.getLast? with
      | some last => do
        let last ← change path edit last
        some (entries.put key (.tables (items.dropLast ++ [last])))
      | none => none

/-- Opens a table by its header and fills it. Only a table that is implied so far may be there. -/
def openTable (key : String) (pairs : List (List String × Json)) (entries : TomlEntries) :
    Option TomlEntries :=
  match entries.find? key with
  | none => do
    let inner ← insertAll pairs []
    some (entries.put key (.table .header inner))
  | some (.table .implied inner) => do
    let inner ← insertAll pairs inner
    some (entries.put key (.table .header inner))
  | _ => none

def addTable (key : String) (pairs : List (List String × Json)) (entries : TomlEntries) :
    Option TomlEntries := do
  let inner ← insertAll pairs []
  match entries.find? key with
  | none => some (entries.put key (.tables [inner]))
  | some (.tables items) => some (entries.put key (.tables (items ++ [inner])))
  | _ => none

end TomlEntries

namespace TomlItem

mutual

def json : TomlItem → Json
  | value json => json
  | table _ entries => .object (members entries)
  | tables items => .array (objects items)

def members : List (String × TomlItem) → List (String × Json)
  | [] => []
  | (key, item) :: rest => (key, item.json) :: members rest

def objects : List (List (String × TomlItem)) → List Json
  | [] => []
  | entries :: rest => .object (members entries) :: objects rest

end

end TomlItem

end ScriptTyping
