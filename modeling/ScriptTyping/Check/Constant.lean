import ScriptTyping.Check.Basic
import ScriptTyping.Literal

/-!
Rules for literals, which fold to constants. A malformed number counts as zero, with a warning.
-/

namespace ScriptTyping

namespace Rule

open Check

def number {α : Type} (id : NodeId) (zero : α) (read : String → Except NumberTextError α) :
    Check α := do
  let text ← textOf id
  match read text with
  | .ok value => return value
  | .error error => do
    warnAt id (.malformedLiteral text error.message)
    return zero

def truth (id : NodeId) (value : Bool) : Check Ty := setConst id .bool (.bool value)

def integer (id : NodeId) : Check Ty := do
  setConst id .int (.int (← number id 0 Literal.integer))

def long (id : NodeId) : Check Ty := do
  setConst id .long (.long (← number id 0 Literal.long))

def double (id : NodeId) : Check Ty := do
  setConst id .double (.double (← number id .zero Literal.double))

def text (id : NodeId) : Check Ty := do
  setConst id .string (.string (← textOf id))

def string (id : NodeId) : Check Ty := do
  setConst id .string (.string (Literal.unquote (← textOf id)))

def character (id : NodeId) : Check Ty := do
  let text := Literal.unquote (← textOf id)
  match text.toList with
  | [char] => setConst id .char (.char char)
  | _ => setConst id .string (.string text)

end Rule

end ScriptTyping
