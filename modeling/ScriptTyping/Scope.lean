import ScriptTyping.Table
import ScriptTyping.Ty.Basic

/-!
The scopes that are open while a unit is checked. Each function has its parameters, the blocks open
inside it and its return type, which may be found only while its body is checked. Code outside
functions has blocks of its own, so that its loop variables do not become globals.
-/

namespace ScriptTyping

abbrev Block := Table Ty

structure FunctionScope where
  name : String
  /-- The position of the enclosing function, the outermost at 0. -/
  parent : Option Nat
  paramTypes : List Ty := []
  /-- The parameters, and variables declared outside any block of the function. -/
  params : Block := {}
  /-- The blocks open above the parameters, innermost first. -/
  blocks : List Block := []
  returnType : Option Ty := none
  deriving Repr, Inhabited

structure ScopeStack where
  /-- The functions that are open, innermost first. -/
  functions : List FunctionScope := []
  /-- The blocks that are open outside all functions, innermost first. -/
  toplevel : List Block := []
  deriving Repr, Inhabited

inductive ScopeFault where
  | noBlock
  | noFunction
  deriving DecidableEq, Repr

def ScopeFault.message : ScopeFault → String
  | noBlock => "unbalanced end_local_var_scope"
  | noFunction => "exit_function without enter_function"

namespace ScopeStack

def inFunction (scopes : ScopeStack) : Bool := !scopes.functions.isEmpty

def current? (scopes : ScopeStack) : Option FunctionScope := scopes.functions.head?

def visible (scopes : ScopeStack) : List Block :=
  match scopes.functions with
  | scope :: _ => scope.blocks ++ [scope.params]
  | [] => scopes.toplevel

def enterFunction (scopes : ScopeStack) (name : String) : ScopeStack :=
  let parent := match scopes.functions.length with
    | 0 => none
    | depth + 1 => some depth
  { scopes with functions := { name, parent } :: scopes.functions }

def exitFunction (scopes : ScopeStack) : Except ScopeFault (FunctionScope × ScopeStack) :=
  match scopes.functions with
  | [] => .error .noFunction
  | scope :: rest => .ok (scope, { scopes with functions := rest })

def setParams (scopes : ScopeStack) (params : List (String × Ty)) : ScopeStack :=
  match scopes.functions with
  | [] => scopes
  | scope :: rest =>
    let block := params.foldl (fun block (name, ty) => block.insert name ty) scope.params
    { scopes with
      functions := { scope with params := block, paramTypes := params.map (·.2) } :: rest }

def beginBlock (scopes : ScopeStack) : ScopeStack :=
  match scopes.functions with
  | [] => { scopes with toplevel := {} :: scopes.toplevel }
  | scope :: rest =>
    { scopes with functions := { scope with blocks := {} :: scope.blocks } :: rest }

def endBlock (scopes : ScopeStack) : Except ScopeFault ScopeStack :=
  match scopes.functions with
  | [] =>
    match scopes.toplevel with
    | [] => .error .noBlock
    | _ :: blocks => .ok { scopes with toplevel := blocks }
  | scope :: rest =>
    match scope.blocks with
    | [] => .error .noBlock
    | _ :: blocks => .ok { scopes with functions := { scope with blocks := blocks } :: rest }

def hasLocalScope (scopes : ScopeStack) : Bool := !scopes.visible.isEmpty

def declare (scopes : ScopeStack) (name : String) (ty : Ty) : ScopeStack :=
  match scopes.functions with
  | [] =>
    match scopes.toplevel with
    | [] => scopes
    | block :: blocks => { scopes with toplevel := block.insert name ty :: blocks }
  | scope :: rest =>
    let scope := match scope.blocks with
      | [] => { scope with params := scope.params.insert name ty }
      | block :: blocks => { scope with blocks := block.insert name ty :: blocks }
    { scopes with functions := scope :: rest }

def varType? (scopes : ScopeStack) (name : String) : Option Ty :=
  scopes.visible.findSome? (·.get? name)

def hasVariable (scopes : ScopeStack) (name : String) : Bool := (scopes.varType? name).isSome

def returnType? (scopes : ScopeStack) : Option Ty := scopes.current?.bind (·.returnType)

/-- Fixes the return type of the innermost function. Only the first call has an effect. -/
def setReturnType (scopes : ScopeStack) (ty : Ty) : ScopeStack :=
  match scopes.functions with
  | [] => scopes
  | scope :: rest =>
    { scopes with
      functions := { scope with returnType := scope.returnType.or (some ty) } :: rest }

end ScopeStack

end ScriptTyping
