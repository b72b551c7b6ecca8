import ScriptTyping.Proofs.Environment.Globals
import ScriptTyping.Proofs.Outcome.Scopes
import ScriptTyping.Proofs.Outcome.Settled
import ScriptTyping.Proofs.Ty.Written

/-!
Whole sessions: declarations, imports and checks one after another, whether they succeed or fail.
The units that are checked may be any trees, also such that share nodes or lead back to themselves.
-/

namespace ScriptTyping

/-- A visit, successful or failed, only imports namespaces and declares globals. -/
theorem visit_leads {depth : Nat} {id : NodeId} {old new : CheckState} {result : Except Failure Ty}
    (ran : (visit depth id).run.run old = .ok (result, new)) :
    old.environment.Leads new.environment := by
  have pairs : (Realm.whole old.tree.source).Pairs old old :=
    ⟨Realm.whole_joins old.tree, rfl, rfl⟩
  have inside : (Realm.whole old.tree.source).inside id := trivial
  have runs := (visit_agrees (Nat.le_refl depth) inside).ends old old pairs
  rw [ran] at runs
  cases runs with
  | gives _ advances => exact advances.leads
  | fails _ advances => exact advances.leads

theorem Tree.check_of_no_root {tree : Tree} (isEmpty : tree.root = none) (environment : Environment) :
    tree.check environment = .ok ⟨none, [], [], tree, environment⟩ := by
  have run : checkRoot.run.run { tree, environment } = .ok (.ok none, { tree, environment }) := by
    have reads : (Check.tree).run.run { tree, environment } =
        .ok (.ok tree, { tree, environment }) := rfl
    rw [checkRoot, Check.run_bind, reads]
    simp only [isEmpty]
    rfl
  unfold check
  simp only [bind, Except.bind, run]
  rfl

theorem Tree.check_leads {tree : Tree} {environment : Environment} {outcome : Outcome}
    (checked : tree.check environment = .ok outcome) : environment.Leads outcome.environment := by
  cases isRoot : tree.root with
  | none =>
      rw [check_of_no_root isRoot] at checked
      cases checked
      exact .refl
  | some root =>
      rw [check_eq isRoot] at checked
      split at checked
      · cases checked
      · rename_i ran
        cases checked
        exact visit_leads ran
      · rename_i ran
        cases checked
        exact visit_leads ran

inductive Command where
  | addNamespace (decl : NamespaceDecl)
  | importNamespace (path : String)
  | declareGlobal (name : String) (ty : Ty)
  | check (tree : Tree)

namespace Environment

def perform (environment : Environment) : Command → Except Fault Environment
  | .addNamespace decl => .ok (environment.addNamespace decl)
  | .importNamespace path => .ok (environment.importNamespace path).1
  | .declareGlobal name ty =>
    match environment.declareGlobal name ty with
    | .ok (next, _) => .ok next
    | .error _ => .ok environment
  | .check tree => do
    let outcome ← tree.check environment
    .ok outcome.environment

def performAll (environment : Environment) : List Command → Except Fault Environment
  | [] => .ok environment
  | command :: rest => do
    let next ← environment.perform command
    next.performAll rest

variable {environment next later : Environment} {command : Command} {commands : List Command}

theorem perform_keeps (built : environment.Built) (performed : environment.perform command = .ok next) :
    next.Built ∧ environment.globals.toList <+: next.globals.toList := by
  cases command with
  | addNamespace decl =>
      cases performed
      exact ⟨.addNamespace decl built, List.prefix_refl _⟩
  | importNamespace path =>
      cases performed
      have step := Step.importNamespace environment path
      exact ⟨built.step step, step.grows.globals⟩
  | declareGlobal name ty =>
      simp only [perform] at performed
      split at performed
      · rename_i declared
        cases performed
        have step := Step.declareGlobal declared
        exact ⟨built.step step, step.grows.globals⟩
      · cases performed
        exact ⟨built, List.prefix_refl _⟩
  | check tree =>
      obtain ⟨outcome, checked, isNext⟩ := Except.bind_eq_ok.mp performed
      cases isNext
      have leads := Tree.check_leads checked
      exact ⟨built.leads leads, leads.grows.globals⟩

theorem performAll_keeps (built : environment.Built)
    (performed : environment.performAll commands = .ok later) :
    later.Built ∧ environment.globals.toList <+: later.globals.toList := by
  induction commands generalizing environment with
  | nil =>
      cases performed
      exact ⟨built, List.prefix_refl _⟩
  | cons command rest ih =>
      obtain ⟨next, first, others⟩ := Except.bind_eq_ok.mp performed
      obtain ⟨nextBuilt, early⟩ := perform_keeps built first
      obtain ⟨laterBuilt, late⟩ := ih nextBuilt others
      exact ⟨laterBuilt, early.trans late⟩

/-- After any session every global has its own name, position and storage, a declaration gives the
position of the name, and the names that were declared before keep position, type and storage. -/
theorem performAll_globals (built : environment.Built)
    (performed : environment.performAll commands = .ok later) :
    later.WellNamed ∧
      (∀ name ty next id, later.declareGlobal name ty = .ok (next, id) →
        next.globalId? name = some id ∧ ((next.global id).ty == ty) = true) ∧
      ∀ name id, environment.globalId? name = some id →
        later.globalId? name = some id ∧ later.global id = environment.global id := by
  obtain ⟨laterBuilt, grows⟩ := performAll_keeps built performed
  refine ⟨laterBuilt.wellNamed, ?_, ?_⟩
  · intro name ty next id declared
    exact laterBuilt.globalId?_declareGlobal declared
  · intro name id known
    exact built.wellNamed.persists laterBuilt.wellNamed grows known

/-- One assignment of an unknown name that stands in its unit twice. -/
def sharing : Tree where
  root := some 3
  nodes := #[
    { tag := .name, text := some "y" },
    { tag := .integer, text := some "1" },
    { tag := .assign, children := [⟨some .left, 0⟩, ⟨some .right, 1⟩] },
    { tag := .source, children := [⟨none, 2⟩, ⟨none, 2⟩] }]

def shell : Environment := { ofOptions { shellMode := true } with globals := #[⟨"x", .int⟩] }

theorem shell_built : shell.Built := by
  have declared : (ofOptions { shellMode := true }).declareGlobal "x" .int = .ok (shell, 0) := by
    simp [declareGlobal, globalId?, ofOptions, shell]
  exact .step (.start _) (.declareGlobal declared)

/-- A name is declared again with another type and an unknown namespace is imported; both fail. The
unit declares one more name, once. -/
theorem performAll_globals_shell : ∃ later, shell.performAll
      [.declareGlobal "x" .string, .importNamespace "nowhere", .check sharing] = .ok later ∧
    later.globals.size = 2 ∧ later.globalId? "y" = some 1 ∧ later.globalId? "x" = some 0 ∧
      (later.global 0).symbol 0 = "g0_x" ∧ (later.global 0).symbol 0 ≠ (later.global 1).symbol 1 := by
  let commands : List Command :=
    [.declareGlobal "x" .string, .importNamespace "nowhere", .check sharing]
  have run : (shell.performAll commands).toOption.any (fun later =>
      decide (later.globals.size = 2 ∧ (later.global 1).name = "y")) = true := by decide +kernel
  cases performed : shell.performAll commands with
  | error fault => simp [performed, Except.toOption] at run
  | ok later =>
      obtain ⟨size, isY⟩ : later.globals.size = 2 ∧ (later.global 1).name = "y" := by
        simpa [performed, Except.toOption] using run
      obtain ⟨wellNamed, _, persists⟩ := performAll_globals shell_built performed
      obtain ⟨stays, same⟩ := persists "x" 0 (by decide +kernel)
      have second : later.globalId? "y" = some 1 :=
        (wellNamed.found "y" 1).mpr ⟨by rw [size]; decide, isY⟩
      have apart : (later.global 0).symbol 0 ≠ (later.global 1).symbol 1 := by
        intro shared
        have equal := wellNamed.symbols 0 1 (by rw [size]; decide) (by rw [size]; decide) shared
        exact absurd equal (by decide)
      exact ⟨later, rfl, size, second, stays, by rw [same]; decide, apart⟩

end Environment

end ScriptTyping
