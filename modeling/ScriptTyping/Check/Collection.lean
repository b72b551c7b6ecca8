import ScriptTyping.Check.Arguments

/-!
Rules for collections and interpolated text.
-/

namespace ScriptTyping

namespace Rule

open Check

/-- The type of all elements in the slots when they agree; otherwise `Object`, to which each is
brought. -/
def elements (visit : Visit) (slots : List Slot) : Check Ty := do
  match ← visitAll visit slots with
  | [] => return .object
  | first :: rest =>
    if rest.all (· == first) then return first
    else do
      coerceAll .object slots
      return .object

def array (visit : Visit) (id : NodeId) : Check Ty := do
  return .array (← elements visit (← slots id))

def set (visit : Visit) (id : NodeId) : Check Ty := do
  return .set (← elements visit (← slots id))

def alternate {α : Type} : List α → List α × List α
  | [] => ([], [])
  | item :: rest =>
    let (evens, odds) := alternate rest
    (item :: odds, evens)

theorem alternate_subset {α : Type} (items : List α) :
    (alternate items).1 ⊆ items ∧ (alternate items).2 ⊆ items := by
  induction items with
  | nil => exact ⟨List.nil_subset _, List.nil_subset _⟩
  | cons item rest ih =>
      obtain ⟨evens, odds⟩ := ih
      rw [alternate]
      exact ⟨List.cons_subset_cons item odds,
        fun _ member => List.mem_cons_of_mem item (evens member)⟩

def keys (visit : Visit) : List Slot → Check Unit
  | [] => return ()
  | slot :: rest => do
    let _ ← visit (← occupant slot)
    let _ ← coerce slot .string
    keys visit rest

/-- Keys and values alternate; all keys are checked before the values. -/
def dict (visit : Visit) (id : NodeId) : Check Ty := do
  let slots ← slots id
  if slots.length % 2 ≠ 0 then failAt id (.missingChild .dict .expr)
  else do
    let (keySlots, valueSlots) := alternate slots
    keys visit keySlots
    return .dict (← elements visit valueSlots)

def interpolation (visit : Visit) (id : NodeId) : Check Ty := do
  let slots ← slots id
  let _ ← visitAll visit slots
  coerceAll .object slots
  bindInvoke id .unique (.member RuntimeMember.interpolation)
  return .string

end Rule

end ScriptTyping
