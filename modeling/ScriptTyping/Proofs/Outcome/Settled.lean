import ScriptTyping.Check.Outcome
import ScriptTyping.Syntax.Stored
import ScriptTyping.Proofs.Findings.Logged
import ScriptTyping.Proofs.Rule.Visit

/-!
What checking a stored tree leaves: an arena whose root stands above settled nodes only.
-/

namespace ScriptTyping

namespace Tree

theorem Stands.setRoot {tree : Tree} {branch : Branch} (stands : tree.Stands branch)
    (root : NodeId) : (tree.setRoot root).Stands branch :=
  stands.frame (Nat.le_refl tree.nodes.size) fun _ _ => rfl

theorem ofStored_stands (source : Option String) (stored : StoredNode) :
    ∃ branch, (ofStored source stored).root = some branch.id ∧
      (ofStored source stored).Stands branch ∧ branch.stored = stored ∧ branch.Blank ∧
        branch.Packed := by
  obtain ⟨branch, builds⟩ := load_builds { source } stored
  refine ⟨branch, ?_, builds.stands.setRoot _, builds.stored, builds.blank, builds.packed⟩
  rw [builds.id]
  rfl

/-- What the reader loads is a stored tree. -/
theorem eq_ofStored {text : String} {tree : Tree} (loads : ofText? text = some tree) :
    ∃ source stored, tree = ofStored source stored := by
  obtain ⟨json, _, loads⟩ := Option.bind_eq_some_iff.mp loads
  unfold ofJson? at loads
  split at loads
  · simp only [bind, Option.bind_eq_some_iff, Option.some.injEq] at loads
    obtain ⟨source, _, stored, _, same⟩ := loads
    exact ⟨source, stored, same.symm⟩
  · simp at loads

end Tree

theorem Check.run_checkRoot {state : CheckState} {root : NodeId} (isRoot : state.tree.root = some root) :
    checkRoot.run.run state =
      match (visit state.tree.visitDepth root).run.run state with
      | .error fault => .error fault
      | .ok (.ok ty, new) => .ok (.ok (some ty), new)
      | .ok (.error failure, new) => .ok (.ok none, { new with
          tree := new.tree.setRoot failure.replacement
          errors := new.errors ++ [failure.error] }) := by
  have reads : (Check.tree).run.run state = .ok (.ok state.tree, state) := rfl
  rw [checkRoot, run_bind, reads]
  simp only [isRoot]
  rw [run_bind, run_attempt]
  cases (visit state.tree.visitDepth root).run.run state with
  | error fault => rfl
  | ok answer =>
      obtain ⟨result, new⟩ := answer
      cases result <;> rfl

theorem Tree.check_eq {tree : Tree} {root : NodeId} {environment : Environment}
    (isRoot : tree.root = some root) : tree.check environment =
      match (visit tree.visitDepth root).run.run { tree, environment } with
      | .error fault => .error fault
      | .ok (.ok ty, new) => .ok ⟨some ty, new.errors, new.warnings, new.tree, new.environment⟩
      | .ok (.error failure, new) => .ok ⟨none, new.errors ++ [failure.error], new.warnings,
          new.tree.setRoot failure.replacement, new.environment⟩ := by
  have run := @Check.run_checkRoot { tree, environment } root isRoot
  unfold Tree.check
  simp only [bind, Except.bind, run]
  cases (visit tree.visitDepth root).run.run { tree, environment } with
  | error fault => rfl
  | ok answer =>
      obtain ⟨result, new⟩ := answer
      cases result <;> rfl

theorem Tree.checkLogged_eq {tree : Tree} {root : NodeId} {environment : Environment}
    (isRoot : tree.root = some root) : tree.checkLogged environment =
      match (visit tree.visitDepth root).run.run { tree, environment, log := some [] } with
      | .error fault => .error fault
      | .ok (.ok ty, new) => .ok (.ofRun (.ok (some ty)) new, new.log.getD [])
      | .ok (.error failure, new) => .ok (⟨none, new.errors ++ [failure.error], new.warnings,
          new.tree.setRoot failure.replacement, new.environment⟩, new.log.getD []) := by
  have run := @Check.run_checkRoot { tree, environment, log := some [] } root isRoot
  unfold Tree.checkLogged
  simp only [bind, Except.bind, run]
  cases (visit tree.visitDepth root).run.run { tree, environment, log := some [] } with
  | error fault => rfl
  | ok answer =>
      obtain ⟨result, new⟩ := answer
      cases result <;> rfl

def Premise.nothing : Premise where
  plain := False
  lone := False
  tidy := False
  aside := fun _ => True

theorem Premise.allows_nothing (node : StoredNode) : nothing.Allows node :=
  ⟨False.elim, False.elim, False.elim, fun _ _ => trivial, False.elim, fun _ => trivial,
    fun _ => trivial⟩

theorem Tree.ofStored_raw {premise : Premise} {stored : StoredNode} (source : Option String)
    (allows : ∀ node ∈ stored.all, premise.Allows node)
    (isLoaded : premise.loaded = {} ∨ premise.loaded = ofStored source stored) :
    premise.loaded.nodes.size ≤ (ofStored source stored).nodes.size ∧
      ∃ branch, (ofStored source stored).root = some branch.id ∧
        (ofStored source stored).Stands branch ∧ branch.stored = stored ∧ Raw premise branch := by
  obtain ⟨branch, root, stands, isStored, blank, packed⟩ := ofStored_stands source stored
  rcases isLoaded with isEmpty | isLoaded
  · have none : premise.loaded.nodes.size = 0 := by rw [isEmpty]; rfl
    refine ⟨none ▸ Nat.zero_le _, branch, root, stands, isStored, blank, isStored ▸ allows, ?_⟩
    exact packed.placedLater fun _ _ => none ▸ Nat.zero_le _
  · refine ⟨Nat.le_of_eq (by rw [isLoaded]), branch, root, stands, isStored, blank,
      isStored ▸ allows, ?_⟩
    rw [isLoaded]
    exact packed.placed stands.holds

def Outcome.moment (outcome : Outcome) (events : List Event) : Moment :=
  ⟨outcome.environment, outcome.errors, some events⟩

/-- Whether an outcome is a settled tree, checked in environments from the first on with these
events, and the errors account for the failed statements in it. -/
structure Outcome.Settles (premise : Premise) (start : Environment) (outcome : Outcome)
    (events : List Event) (branch : Branch) : Prop where
  root : outcome.tree.root = some branch.id
  stands : outcome.tree.Stands branch
  leads : start.Leads outcome.environment
  settled : ∃ returnType, Settled premise start (outcome.moment events) returnType branch
  accounts : Accounts [] outcome.errors 0 branch.notes

theorem Log.Leads.eq_some {log : Log} (leads : Leads (some []) log) : log = some (log.getD []) := by
  obtain ⟨more, rfl⟩ := leads
  rfl

/-- Checking a stored tree settles it, unless it stops as a whole. -/
theorem Tree.checkLogged_settles {premise : Premise} {stored : StoredNode}
    (allows : ∀ node ∈ stored.all, premise.Allows node) (source : Option String)
    (isLoaded : premise.loaded = {} ∨ premise.loaded = ofStored source stored)
    (environment : Environment) :
    match (ofStored source stored).checkLogged environment with
    | .error fault => fault.Allowed
    | .ok (outcome, events) => ∃ branch, outcome.Settles premise environment events branch := by
  obtain ⟨later, branch, root, stands, _, raw⟩ := ofStored_raw source allows isLoaded
  have silent : branch.notes = 0 := raw.blank.notes_eq
  have visited := Check.visit_yields (ofStored source stored).visitDepth
    { tree := ofStored source stored, environment, log := some [] } branch stands later raw
  rw [checkLogged_eq root]
  unfold Check.Yields at visited
  cases ran : (visit (ofStored source stored).visitDepth branch.id).run.run
      { tree := ofStored source stored, environment, log := some [] } with
  | error fault =>
      rw [ran] at visited
      exact visited
  | ok answer =>
      obtain ⟨result, new⟩ := answer
      rw [ran] at visited
      cases result with
      | ok ty =>
          obtain ⟨after, becomes, _, _, settled⟩ := visited
          refine ⟨after, ?_, becomes.stands, becomes.evolves.environment,
            ⟨new.scopes.returnType?, ?_⟩, silent ▸ becomes.accounts⟩
          · show new.tree.root = some after.id
            rw [becomes.turns.root, becomes.turns.id]
            exact root
          · rw [CheckState.moment, becomes.evolves.log.eq_some] at settled
            exact settled
      | error failure =>
          refine ⟨failure.leaf none, rfl, (visited.leaf none).setRoot _,
            visited.evolves.environment,
            ⟨none, settled_leaf failure none visited.evolves.environment⟩, ?_⟩
          rw [failure.notes_leaf]
          exact .replaced visited.evolves.errors visited.fatal

theorem Tree.check_settles {premise : Premise} {stored : StoredNode}
    (allows : ∀ node ∈ stored.all, premise.Allows node) (source : Option String)
    (isLoaded : premise.loaded = {} ∨ premise.loaded = ofStored source stored)
    (environment : Environment) :
    match (ofStored source stored).check environment with
    | .error fault => fault.Allowed
    | .ok outcome => ∃ events branch,
        (ofStored source stored).checkLogged environment = .ok (outcome, events) ∧
          outcome.Settles premise environment events branch := by
  have settles := checkLogged_settles allows source isLoaded environment
  rw [check_eq_checkLogged]
  cases logged : (ofStored source stored).checkLogged environment with
  | error fault =>
      rw [logged] at settles
      exact settles
  | ok answer =>
      rw [logged] at settles
      obtain ⟨branch, settles⟩ := settles
      exact ⟨answer.2, branch, rfl, settles⟩

/-! ### Runs on given trees -/

/-- A run on a given tree, by evaluation. -/
theorem Tree.exists_outcome {tree : Tree} {environment : Environment} {test : Outcome → Bool}
    (run : (tree.check environment).toOption.any test = true) :
    ∃ outcome, tree.check environment = .ok outcome ∧ test outcome = true := by
  cases checked : tree.check environment with
  | error fault => simp [checked, Except.toOption] at run
  | ok outcome => exact ⟨outcome, rfl, by simpa [checked, Except.toOption] using run⟩

def Environment.zoo : Environment :=
  let animals : NamespaceDecl :=
    { path := "zoo"
      types := [{ name := "Animal" }, { name := "Dog", supertype := some "Animal" }]
      functions := [{ name := "dog", returns := "Dog" }, { name := "feed", params := ["Animal"] }] }
  let farm : NamespaceDecl := { path := "farm", types := [{ name := "Dog" }] }
  (((ofOptions {}).addNamespace animals).addNamespace farm).importNamespace "zoo" |>.1

theorem Environment.zoo_built : zoo.Built :=
  .step (.addNamespace _ (.addNamespace _ (.start {}))) (.importNamespace _ "zoo")

end ScriptTyping
