/-!
Byte ranges of syntax nodes in the text they were read from.
-/

namespace ScriptTyping

/-- A range of byte offsets: `start` is inside it, `stop` is the first offset after it. Offsets
are below `2 ^ 32`, which every reader of spans checks. -/
structure Span where
  start : Nat
  stop : Nat
  deriving DecidableEq, Repr, Inhabited

namespace Span

def nowhere : Span := ⟨0, 0⟩

def point (offset : Nat) : Span := ⟨offset, offset⟩

def length (span : Span) : Nat := span.stop - span.start

def isEmpty (span : Span) : Bool := span.start == span.stop

def merge (left right : Span) : Span :=
  ⟨min left.start right.start, max left.stop right.stop⟩

def cover? (spans : List Span) : Option Span :=
  match spans.filter (· ≠ nowhere) with
  | [] => none
  | first :: rest => some (rest.foldl merge first)

end Span

end ScriptTyping
