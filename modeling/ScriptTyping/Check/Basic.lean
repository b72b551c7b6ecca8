import ScriptTyping.Syntax.Tree
import ScriptTyping.Environment.Basic
import ScriptTyping.Finding.Basic
import ScriptTyping.Scope

/-!
Checking as a computation. A rule works on the tree, the environment and the open scopes, and it
fails with an error and a node to put in place of the statement that it occurs in. What a failed
rule did to the state stays done.
-/

namespace ScriptTyping

structure Failure where
  error : CheckError
  replacement : NodeId
  deriving Repr

def Failure.ofError (tree : Tree) (error : CheckError) : Failure × Tree :=
  let (replacement, tree) := tree.alloc {
    tag := .error
    span := error.span
    text := some error.message
    ty := some .never
    done := true }
  (⟨error, replacement⟩, tree)

/-- Why checking stops as a whole. No tree whose nodes have one parent each leads to a fault. -/
inductive Fault where
  /-- A node has no child at a position at which it had one. -/
  | noChild (parent : NodeId) (index : Nat)
  /-- A resolution names an argument that is not there. -/
  | noArgument (index : Nat)
  /-- A scope was closed that is not open. -/
  | scope (fault : ScopeFault)
  /-- A line or column number does not fit 32 bits. -/
  | columnOverflow
  /-- The tree is deeper than the visits that were allowed. -/
  | tooDeep
  deriving Repr

inductive Event where
  /-- A rule failed, or found something that it does not fail for. -/
  | raised (finding : Finding)
  /-- A node got its type, in this environment: it was visited, or made to convert another. -/
  | typed (node : NodeId) (environment : Environment)
  deriving Repr

/-- All events so far, if a log is kept. -/
abbrev Log := Option (List Event)

/-- What a step of checking may look at. -/
structure CheckView where
  tree : Tree
  environment : Environment
  scopes : ScopeStack := {}
  deriving Repr

structure CheckState extends CheckView where
  /-- The errors and warnings found so far, in order. -/
  errors : List CheckError := []
  warnings : List CheckWarning := []
  log : Log := none
  deriving Repr

def CheckState.noted (state : CheckState) (event : Event) : CheckState :=
  { state with log := state.log.map (· ++ [event]) }

abbrev Check := ExceptT Failure (StateT CheckState (Except Fault))

abbrev Visit := NodeId → Check Ty

namespace Check

/-! ### State -/

def read {α : Type} (view : CheckView → α) : Check α :=
  ExceptT.mk fun state => .ok (.ok (view state.toCheckView), state)

def write (change : CheckState → CheckState) : Check Unit :=
  ExceptT.mk fun state => .ok (.ok (), change state)

def stop {α : Type} (fault : Fault) : Check α := ExceptT.mk fun _ => .error fault

def attempt {α : Type} (step : Check α) : Check (Except Failure α) :=
  ExceptT.mk fun state => do
    let (result, state) ← step.run.run state
    .ok (.ok result, state)

def settle {α : Type} (result : Except Failure α) : Check α :=
  ExceptT.mk fun state => .ok (result, state)

def note (event : Event) : Check Unit := write (·.noted event)

def raise {α : Type} (failure : Failure) : Check α := do
  note (.raised (.error failure.error))
  settle (.error failure)

def orRaise {α : Type} : Except Failure α → Check α
  | .ok result => return result
  | .error failure => raise failure

def recordError (error : CheckError) : Check Unit :=
  write fun state => { state with errors := state.errors ++ [error] }

def report (error : CheckError) : Check Unit := do
  note (.raised (.error error))
  recordError error

def warn (warning : CheckWarning) : Check Unit := do
  note (.raised (.warning warning))
  write fun state => { state with warnings := state.warnings ++ [warning] }

def environment : Check Environment := read (·.environment)

def noteTyped (id : NodeId) : Check Unit := do
  note (.typed id (← environment))

def setEnvironment (environment : Environment) : Check Unit :=
  write fun state => { state with environment := environment }

/-! ### Tree -/

def tree : Check Tree := read (·.tree)

def modifyTree (change : Tree → Tree) : Check Unit :=
  write fun state => { state with tree := change state.tree }

def build {α : Type} (change : Tree → α × Tree) : Check α :=
  ExceptT.mk fun state =>
    let (result, tree) := change state.tree
    .ok (.ok result, { state with tree := tree })

def fail {α : Type} (error : CheckError) : Check α := do
  raise (← build (Failure.ofError · error))

def tagOf (id : NodeId) : Check Tag := read (·.tree.tag id)

def spanOf (id : NodeId) : Check Span := read (·.tree.span id)

def textOf (id : NodeId) : Check String := read (·.tree.text id)

def bindingOf (id : NodeId) : Check Binding := read (·.tree.binding id)

def childIds (id : NodeId) : Check (List NodeId) := read (·.tree.childIds id)

def child? (id : NodeId) (label : Label) : Check (Option NodeId) := read (·.tree.child? id label)

def has (id : NodeId) (label : Label) : Check Bool := read (·.tree.has id label)

def setType (id : NodeId) (ty : Ty) : Check Unit := modifyTree (·.setType id ty)

def setBinding (id : NodeId) (binding : Binding) : Check Unit :=
  modifyTree (·.setBinding id binding)

def setConst (id : NodeId) (ty : Ty) (value : Const) : Check Ty := do
  modifyTree (·.setConst id ty value)
  return ty

def markDone (id : NodeId) : Check Unit := modifyTree (·.markDone id)

def failAt {α : Type} (id : NodeId) (cause : ErrorCause) : Check α := do
  fail ⟨cause, ← spanOf id⟩

def warnAt (id : NodeId) (cause : WarningCause) : Check Unit := do
  warn ⟨cause, ← spanOf id⟩

def required (id : NodeId) (label : Label) : Check NodeId := do
  match ← child? id label with
  | some child => return child
  | none => failAt id (.missingChild (← tagOf id) label)

def requiredOrFirst (id : NodeId) (label : Label) : Check NodeId := do
  match (← child? id label).or (← childIds id).head? with
  | some child => return child
  | none => required id label

/-! ### Scopes -/

def scopes : Check ScopeStack := read (·.scopes)

def modifyScopes (change : ScopeStack → ScopeStack) : Check Unit :=
  write fun state => { state with scopes := change state.scopes }

def enterFunction (name : String) : Check Unit := modifyScopes (·.enterFunction name)

def exitFunction : Check FunctionScope := do
  match (← scopes).exitFunction with
  | .ok (scope, rest) =>
    modifyScopes fun _ => rest
    return scope
  | .error fault => stop (.scope fault)

def endBlock : Check Unit := do
  match (← scopes).endBlock with
  | .ok rest => modifyScopes fun _ => rest
  | .error fault => stop (.scope fault)

/-- Runs a step in a block of its own, which is closed also when the step fails. -/
def inBlock {α : Type} (step : Check α) : Check α := do
  modifyScopes (·.beginBlock)
  let result ← attempt step
  endBlock
  settle result

def inBlockIf {α : Type} (wanted : Bool) (step : Check α) : Check α :=
  if wanted then inBlock step else step

end Check

end ScriptTyping
