/-!
Line starts of a source text, for turning byte offsets into line and column numbers.
-/

namespace ScriptTyping

def lineStartsFrom (offset : Nat) : List Char → List Nat
  | [] => []
  | char :: rest =>
    let next := offset + char.utf8Size
    if char = '\n' then next :: lineStartsFrom next rest else lineStartsFrom next rest

structure LineIndex where
  starts : List Nat
  deriving DecidableEq, Repr

namespace LineIndex

def ofSource (source : String) : LineIndex := ⟨0 :: lineStartsFrom 0 source.toList⟩

def lineCount (index : LineIndex) : Nat := index.starts.length

def position (index : LineIndex) (offset : Nat) : Nat × Nat :=
  let reached := index.starts.takeWhile (· ≤ offset)
  (reached.length, offset - reached.getLastD 0 + 1)

def position? (index : LineIndex) (offset : Nat) : Option (Nat × Nat) :=
  let (line, column) := index.position offset
  if line < Nat.pow 2 32 ∧ column < Nat.pow 2 32 then some (line, column) else none

end LineIndex

end ScriptTyping
