/-!
Finite maps from names, in the order in which the names were first put in.
-/

namespace ScriptTyping

structure Table (α : Type) where
  entries : List (String × α) := []
  deriving Repr, Inhabited

namespace Table

variable {α : Type}

def lookup (name : String) : List (String × α) → Option α
  | [] => none
  | (key, value) :: rest => if key = name then some value else lookup name rest

/-- Replaces the value of `name` where it stands, or puts it at the end. -/
def replace (name : String) (value : α) : List (String × α) → List (String × α)
  | [] => [(name, value)]
  | (key, old) :: rest =>
    if key = name then (key, value) :: rest else (key, old) :: replace name value rest

def get? (table : Table α) (name : String) : Option α := lookup name table.entries

def contains (table : Table α) (name : String) : Bool := (table.get? name).isSome

def insert (table : Table α) (name : String) (value : α) : Table α :=
  ⟨replace name value table.entries⟩

def size (table : Table α) : Nat := table.entries.length

def keys (table : Table α) : List String := table.entries.map Prod.fst

@[simp]
theorem get?_empty (name : String) : (⟨[]⟩ : Table α).get? name = none := rfl

theorem lookup_replace (name other : String) (value : α) (entries : List (String × α)) :
    lookup other (replace name value entries) =
      if name = other then some value else lookup other entries := by
  induction entries with
  | nil => simp [replace, lookup]
  | cons entry rest ih =>
    obtain ⟨key, old⟩ := entry
    by_cases first : key = name
    · by_cases wanted : name = other <;> simp_all [replace, lookup]
    · by_cases wanted : key = other
      · subst wanted
        simp [replace, lookup, first, Ne.symm first]
      · simp [replace, lookup, first, wanted, ih]

theorem get?_insert (table : Table α) (name other : String) (value : α) :
    (table.insert name value).get? other =
      if name = other then some value else table.get? other :=
  lookup_replace name other value table.entries

@[simp]
theorem get?_insert_self (table : Table α) (name : String) (value : α) :
    (table.insert name value).get? name = some value := by
  simp [get?_insert]

end Table

end ScriptTyping
