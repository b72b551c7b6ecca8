import Mathlib.Data.List.ModifyLast
import ScriptTyping.Scope

/-!
Scopes with everything outermost first. The functions are frames in one list, and the parameters of
a function are the first of its blocks, so that only the number of open blocks tells whether one may
be closed. Each operation does the same here as on scopes that start with the innermost.
-/

namespace ScriptTyping

structure Frame where
  name : String
  parent : Option Nat
  paramTypes : List Ty := []
  blocks : List Block := [{}]
  returnType : Option Ty := none

structure FrameStack where
  frames : List Frame := []
  toplevel : List Block := []

def outer? : Nat → Option Nat
  | 0 => none
  | index + 1 => some index

namespace FrameStack

def inFunction (stack : FrameStack) : Bool := !stack.frames.isEmpty

def blocks (stack : FrameStack) : List Block :=
  match stack.frames.getLast? with
  | some frame => frame.blocks
  | none => stack.toplevel

def withBlocks (stack : FrameStack) (blocks : List Block) : FrameStack :=
  match stack.frames.getLast? with
  | some frame => { stack with frames := stack.frames.dropLast ++ [{ frame with blocks }] }
  | none => { stack with toplevel := blocks }

def changeFrame (stack : FrameStack) (change : Frame → Option Frame) : Option FrameStack :=
  match stack.frames.getLast? with
  | some frame => (change frame).map fun frame =>
    { stack with frames := stack.frames.dropLast ++ [frame] }
  | none => some stack

def enterFunction (stack : FrameStack) (name : String) : FrameStack :=
  { stack with frames := stack.frames ++ [{ name, parent := outer? stack.frames.length }] }

def exitFunction (stack : FrameStack) : Option (Frame × FrameStack) :=
  stack.frames.getLast?.map fun frame => (frame, { stack with frames := stack.frames.dropLast })

def setParams (stack : FrameStack) (params : List (String × Ty)) : Option FrameStack :=
  stack.changeFrame fun frame =>
    match frame.blocks with
    | [] => none
    | block :: blocks => some { frame with
        blocks := params.foldl (fun block (name, ty) => block.insert name ty) block :: blocks
        paramTypes := params.map (·.2) }

def beginBlock (stack : FrameStack) : FrameStack :=
  stack.withBlocks (stack.blocks ++ [{ entries := [] }])

def kept (stack : FrameStack) : Nat := if stack.inFunction then 1 else 0

def endBlock (stack : FrameStack) : Option FrameStack :=
  if stack.kept < stack.blocks.length then some (stack.withBlocks stack.blocks.dropLast) else none

def declare (stack : FrameStack) (name : String) (ty : Ty) : FrameStack :=
  stack.withBlocks (stack.blocks.modifyLast (·.insert name ty))

def varType? (stack : FrameStack) (name : String) : Option Ty :=
  stack.blocks.reverse.findSome? (·.get? name)

def setReturnType (stack : FrameStack) (ty : Ty) : Option FrameStack :=
  stack.changeFrame fun frame => some { frame with returnType := frame.returnType.or (some ty) }

end FrameStack

def FunctionScope.frame (scope : FunctionScope) : Frame where
  name := scope.name
  parent := scope.parent
  paramTypes := scope.paramTypes
  blocks := scope.params :: scope.blocks.reverse
  returnType := scope.returnType

namespace ScopeStack

def framed (scopes : ScopeStack) : FrameStack where
  frames := (scopes.functions.map FunctionScope.frame).reverse
  toplevel := scopes.toplevel.reverse

variable (scopes : ScopeStack) (scope : FunctionScope) (rest : List FunctionScope)
  (toplevel : List Block)

theorem frames_cons : (ScopeStack.mk (scope :: rest) toplevel).framed.frames =
    (rest.map FunctionScope.frame).reverse ++ [scope.frame] := by
  rw [framed, List.map_cons, List.reverse_cons]

theorem framed_inFunction : scopes.framed.inFunction = scopes.inFunction := by
  simp [FrameStack.inFunction, inFunction, framed]

theorem framed_blocks : scopes.framed.blocks = scopes.visible.reverse := by
  obtain ⟨functions, toplevel⟩ := scopes
  cases functions with
  | nil => rfl
  | cons scope rest =>
      rw [FrameStack.blocks, frames_cons, List.getLast?_concat, visible, List.reverse_append]
      rfl

theorem framed_withBlocks {blocks : List Block} {change : FunctionScope}
    (same : change.frame = { scope.frame with blocks }) :
    (ScopeStack.mk (scope :: rest) toplevel).framed.withBlocks blocks =
      (ScopeStack.mk (change :: rest) toplevel).framed := by
  rw [FrameStack.withBlocks, frames_cons, List.getLast?_concat, List.dropLast_concat]
  simp only [framed, List.map_cons, List.reverse_cons, same]

theorem framed_changeFrame {step : Frame → Option Frame} {change : FunctionScope}
    (same : step scope.frame = some change.frame) :
    (ScopeStack.mk (scope :: rest) toplevel).framed.changeFrame step =
      some (ScopeStack.mk (change :: rest) toplevel).framed := by
  rw [FrameStack.changeFrame, frames_cons, List.getLast?_concat, List.dropLast_concat]
  simp only [same, Option.map_some, framed, List.map_cons, List.reverse_cons]

theorem framed_enterFunction (name : String) :
    scopes.framed.enterFunction name = (scopes.enterFunction name).framed := by
  simp only [enterFunction, framed, FrameStack.enterFunction, List.map_cons, List.reverse_cons,
    List.length_reverse, List.length_map]
  rfl

theorem framed_exitFunction : scopes.framed.exitFunction =
    scopes.exitFunction.toOption.map fun (scope, scopes) => (scope.frame, scopes.framed) := by
  obtain ⟨functions, toplevel⟩ := scopes
  cases functions with
  | nil => rfl
  | cons scope rest =>
      rw [FrameStack.exitFunction, frames_cons, List.getLast?_concat, List.dropLast_concat]
      rfl

theorem framed_setParams (params : List (String × Ty)) :
    scopes.framed.setParams params = some (scopes.setParams params).framed := by
  obtain ⟨functions, toplevel⟩ := scopes
  cases functions with
  | nil => rfl
  | cons scope rest => exact framed_changeFrame scope rest toplevel rfl

theorem framed_beginBlock : scopes.framed.beginBlock = scopes.beginBlock.framed := by
  rw [FrameStack.beginBlock, framed_blocks, ← List.reverse_cons]
  obtain ⟨functions, toplevel⟩ := scopes
  cases functions with
  | nil => rfl
  | cons scope rest =>
      refine framed_withBlocks scope rest toplevel ?_
      simp [FunctionScope.frame, visible]

/-- A block can be closed if it is not the only one of a function, the one of the parameters. -/
theorem endBlock_cases :
    (∃ later, scopes.endBlock = .ok later ∧ scopes.framed.kept < scopes.framed.blocks.length ∧
      scopes.framed.withBlocks scopes.framed.blocks.dropLast = later.framed) ∨
    (scopes.endBlock = .error .noBlock ∧ scopes.framed.blocks.length = scopes.framed.kept) := by
  rw [FrameStack.kept, framed_inFunction, framed_blocks, List.dropLast_reverse]
  obtain ⟨functions, toplevel⟩ := scopes
  cases functions with
  | nil =>
      cases toplevel with
      | nil => exact .inr ⟨rfl, rfl⟩
      | cons block blocks => exact .inl ⟨_, rfl, by simp [inFunction, visible], rfl⟩
  | cons scope rest =>
      obtain ⟨name, parent, paramTypes, params, blocks, returnType⟩ := scope
      cases blocks with
      | nil => exact .inr ⟨rfl, rfl⟩
      | cons block blocks =>
          refine .inl ⟨_, rfl, by simp [inFunction, visible], framed_withBlocks _ rest toplevel ?_⟩
          simp [FunctionScope.frame, visible]

theorem framed_endBlock : scopes.framed.endBlock = scopes.endBlock.toOption.map framed := by
  rw [FrameStack.endBlock]
  rcases scopes.endBlock_cases with ⟨later, ended, isOpen, same⟩ | ⟨shut, kept⟩
  · rw [if_pos isOpen, ended, same]
    rfl
  · rw [if_neg (Nat.not_lt.mpr (Nat.le_of_eq kept)), shut]
    rfl

theorem framed_declare (name : String) (ty : Ty) :
    scopes.framed.declare name ty = (scopes.declare name ty).framed := by
  rw [FrameStack.declare, framed_blocks]
  obtain ⟨functions, toplevel⟩ := scopes
  cases functions with
  | nil =>
      cases toplevel with
      | nil => rfl
      | cons block blocks =>
          show FrameStack.withBlocks _ (List.modifyLast _ (block :: blocks).reverse) = _
          rw [List.reverse_cons, List.modifyLast_concat, ← List.reverse_cons]
          rfl
  | cons scope rest =>
      obtain ⟨scopeName, parent, paramTypes, params, blocks, returnType⟩ := scope
      cases blocks with
      | nil => exact framed_withBlocks _ rest toplevel rfl
      | cons block blocks =>
          refine framed_withBlocks _ rest toplevel ?_
          simp only [visible, FunctionScope.frame, List.cons_append, List.reverse_cons,
            List.modifyLast_concat]
          simp

theorem framed_setReturnType (ty : Ty) :
    scopes.framed.setReturnType ty = some (scopes.setReturnType ty).framed := by
  obtain ⟨functions, toplevel⟩ := scopes
  cases functions with
  | nil => rfl
  | cons scope rest => exact framed_changeFrame scope rest toplevel rfl

end ScopeStack

end ScriptTyping
