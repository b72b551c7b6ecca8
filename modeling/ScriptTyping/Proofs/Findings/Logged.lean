import ScriptTyping.Check.Outcome
import ScriptTyping.Proofs.Findings.Statement

/-!
Checking a tree with a log. Without its log this is the check itself.
-/

namespace ScriptTyping

/-- Checks a tree against an environment, and gives all events of the check in their order. -/
def Tree.checkLogged (tree : Tree) (environment : Environment) :
    Except Fault (Outcome × List Event) := do
  let (result, state) ← checkRoot.run.run { tree, environment, log := some [] }
  .ok (.ofRun result state, state.log.getD [])

/-- However it is logged, a check stops in the same way, or comes to the same result and adds the
same events. -/
theorem checkRoot_logs (tree : Tree) (environment : Environment) :
    Check.Stops checkRoot { tree, environment } ∨ ∃ result new events,
      Check.Logs checkRoot { tree, environment } none events result new (Check.owedBy result) := by
  have tells : Check.Tells Places.everywhere checkRoot := checkRoot_tells
  rcases tells { tree, environment } (Places.everywhere_cover tree) with
    stops | ⟨result, new, events, _, _, logs⟩
  · exact .inl stops
  · exact .inr ⟨result, new, events, logs⟩

namespace Tree

variable {tree : Tree} {environment : Environment} {outcome : Outcome}

/-- The log makes no difference to the check. -/
theorem check_eq_checkLogged (tree : Tree) (environment : Environment) :
    tree.check environment = (tree.checkLogged environment).map (·.1) := by
  unfold check checkLogged
  rcases checkRoot_logs tree environment with ⟨fault, stops⟩ | ⟨result, new, events, logs⟩
  · rw [stops none, stops (some [])]
    rfl
  · rw [logs.runs none, logs.runs (some [])]
    rfl

theorem exists_checkLogged (checked : tree.check environment = .ok outcome) :
    ∃ events, tree.checkLogged environment = .ok (outcome, events) := by
  rw [check_eq_checkLogged] at checked
  cases logged : tree.checkLogged environment with
  | error fault =>
      rw [logged] at checked
      cases checked
  | ok answer =>
      rw [logged] at checked
      cases checked
      exact ⟨answer.2, rfl⟩

end Tree

end ScriptTyping
