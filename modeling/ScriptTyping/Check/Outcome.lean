import ScriptTyping.Check.Visit
import ScriptTyping.Finding.Diagnostic

/-!
Checking one unit against an environment.
-/

namespace ScriptTyping

structure Outcome where
  /-- The type of the root, unless there is no root or the root itself failed. -/
  result : Option Ty
  errors : List CheckError
  warnings : List CheckWarning
  /-- The tree with types, bindings and conversions. -/
  tree : Tree
  /-- The environment with what the unit imported and declared. -/
  environment : Environment
  deriving Repr

namespace Outcome

def ofRun (result : Except Failure (Option Ty)) (state : CheckState) : Outcome where
  result := match result with
    | .ok ty => ty
    | .error _ => none
  errors := state.errors
  warnings := state.warnings
  tree := state.tree
  environment := state.environment

def diagnostics (outcome : Outcome) : List Diagnostic :=
  diagnosticsOf outcome.errors outcome.warnings

end Outcome

def Tree.check (tree : Tree) (environment : Environment) : Except Fault Outcome := do
  let (result, state) ← checkRoot.run.run { tree, environment }
  .ok (.ofRun result state)

end ScriptTyping
