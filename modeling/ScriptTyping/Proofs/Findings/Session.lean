import ScriptTyping.Proofs.Findings.Logged
import ScriptTyping.Proofs.Outcome.Settled
import ScriptTyping.Proofs.Ty.Written

/-!
What the results of a session hold. All checks of a session raise into one sink, and each result
takes what is in it; so a result holds what its own check raised, and the diagnostics list this in
the order of the source.
-/

namespace ScriptTyping

/-! ### The order of diagnostics -/

section Order

variable (errors : List CheckError) (warnings : List CheckWarning)

theorem diagnosticsOf_perm : (diagnosticsOf errors warnings).Perm
    (errors.map (·.diagnostic) ++ warnings.map (·.diagnostic)) :=
  List.mergeSort_perm _ _

theorem startsBefore_trans (first second third : Diagnostic)
    (early : decide (first.span.start ≤ second.span.start) = true)
    (late : decide (second.span.start ≤ third.span.start) = true) :
    decide (first.span.start ≤ third.span.start) = true := by
  rw [decide_eq_true_eq] at *
  omega

theorem startsBefore_total (first second : Diagnostic) :
    (decide (first.span.start ≤ second.span.start) ||
      decide (second.span.start ≤ first.span.start)) = true := by
  rw [Bool.or_eq_true, decide_eq_true_eq, decide_eq_true_eq]
  omega

theorem diagnosticsOf_sorted : (diagnosticsOf errors warnings).Pairwise
    fun first second => first.span.start ≤ second.span.start := by
  have sorted := List.pairwise_mergeSort startsBefore_trans startsBefore_total
    (errors.map (·.diagnostic) ++ warnings.map (·.diagnostic))
  exact sorted.imp fun before => of_decide_eq_true before

/-- Sorting leaves findings that start at the same place in their order. -/
theorem diagnosticsOf_filter (start : Nat) :
    (diagnosticsOf errors warnings).filter (fun diagnostic => diagnostic.span.start = start) =
      (errors.map (·.diagnostic) ++ warnings.map (·.diagnostic)).filter
        fun diagnostic => diagnostic.span.start = start := by
  let here : Diagnostic → Bool := fun diagnostic => diagnostic.span.start = start
  let found := errors.map (·.diagnostic) ++ warnings.map (·.diagnostic)
  have together : (found.filter here).Pairwise
      fun first second => decide (first.span.start ≤ second.span.start) = true := by
    apply List.pairwise_of_forall_mem_list
    intro first isFirst second isSecond
    have firstHere := of_decide_eq_true (List.mem_filter.mp isFirst).2
    have secondHere := of_decide_eq_true (List.mem_filter.mp isSecond).2
    rw [decide_eq_true_eq]
    omega
  have kept : (found.filter here).Sublist (diagnosticsOf errors warnings) :=
    List.sublist_mergeSort startsBefore_trans startsBefore_total together List.filter_sublist
  have again := kept.filter here
  simp only [List.filter_filter, Bool.and_self] at again
  have lengths := ((diagnosticsOf_perm errors warnings).filter here).length_eq
  exact (again.eq_of_length lengths.symm).symm

end Order

/-- What a result holds of a check that raised these findings. -/
structure Outcome.Lists (outcome : Outcome) (raised : List Finding) : Prop where
  errors : outcome.errors = errorsOf raised
  warnings : outcome.warnings = warningsOf raised
  /-- The diagnostics are the findings, each of them once. -/
  perm : outcome.diagnostics.Perm
    ((errorsOf raised).map (·.diagnostic) ++ (warningsOf raised).map (·.diagnostic))
  sorted : outcome.diagnostics.Pairwise fun first second => first.span.start ≤ second.span.start
  /-- Of those that start at one place the errors come first, and each kind as it was raised. -/
  ties : ∀ start, outcome.diagnostics.filter (fun diagnostic => diagnostic.span.start = start) =
    ((errorsOf raised).filter fun error => error.span.start = start).map (·.diagnostic) ++
      ((warningsOf raised).filter fun warning => warning.span.start = start).map (·.diagnostic)

theorem Outcome.lists_of_sound {outcome : Outcome} {raised : List Finding}
    (errors : outcome.errors = errorsOf raised) (warnings : outcome.warnings = warningsOf raised) :
    outcome.Lists raised := by
  refine ⟨errors, warnings, ?_, ?_, fun start => ?_⟩
  · rw [diagnostics, errors, warnings]
    exact diagnosticsOf_perm _ _
  · exact diagnosticsOf_sorted _ _
  · rw [diagnostics, errors, warnings, diagnosticsOf_filter, List.filter_append, List.filter_map,
      List.filter_map]
    rfl

/-! ### One check -/

theorem checkRoot_succeeds {old new : CheckState} {result : Except Failure (Option Ty)}
    (run : checkRoot.run.run old = .ok (result, new)) : ∃ ty, result = .ok ty := by
  cases isRoot : old.tree.root with
  | none =>
      have reads : (Check.tree).run.run old = .ok (.ok old.tree, old) := rfl
      rw [checkRoot, Check.run_bind, reads] at run
      simp only [isRoot] at run
      cases run
      exact ⟨none, rfl⟩
  | some root =>
      rw [Check.run_checkRoot isRoot] at run
      split at run
      · cases run
      · cases run
        exact ⟨_, rfl⟩
      · cases run
        exact ⟨none, rfl⟩

/-- A check that does not stop as a whole holds what its log says was raised. -/
theorem Tree.checkLogged_lists {tree : Tree} {start : Environment} {outcome : Outcome}
    {events : List Event} (logged : tree.checkLogged start = .ok (outcome, events)) :
    outcome.Lists (raisedIn events) := by
  unfold checkLogged at logged
  rcases checkRoot_logs tree start with ⟨fault, stops⟩ | ⟨result, new, added, logs⟩
  · rw [stops (some [])] at logged
    cases logged
  · have run := logs.runs (some [])
    rw [run] at logged
    cases logged
    obtain ⟨ty, rfl⟩ := checkRoot_succeeds run
    have errors : new.errors = errorsOf (raisedIn added) := by
      simpa [Check.owedBy] using logs.errors
    exact Outcome.lists_of_sound errors logs.warnings

/-! ### One check after another -/

structure Sink where
  errors : List CheckError := []
  warnings : List CheckWarning := []
  deriving Repr

/-- Checks a tree in a session. What is raised goes into the sink of the session, and the result
takes all that is there. -/
def Tree.checkInto (tree : Tree) (environment : Environment) (sink : Sink) :
    Except Fault (Outcome × Sink) := do
  let (result, state) ← checkRoot.run.run
    { tree, environment, errors := sink.errors, warnings := sink.warnings }
  .ok (.ofRun result state, {})

/-- An empty sink leaves the check as it is alone. -/
theorem Tree.checkInto_empty (tree : Tree) (environment : Environment) :
    tree.checkInto environment {} = (tree.check environment).map fun outcome => (outcome, {}) := by
  simp only [checkInto, check, bind, Except.bind]
  cases checkRoot.run.run { tree, environment } with
  | error fault => rfl
  | ok answer => rfl

namespace Environment

def checkAll (environment : Environment) (sink : Sink) :
    List Tree → Except Fault (List Outcome × Environment × Sink)
  | [] => .ok ([], environment, sink)
  | tree :: rest => do
    let (outcome, sink) ← tree.checkInto environment sink
    let (outcomes, last) ← outcome.environment.checkAll sink rest
    .ok (outcome :: outcomes, last)

def starts (environment : Environment) (outcomes : List Outcome) : List Environment :=
  environment :: outcomes.map (·.environment)

variable {environment last : Environment} {trees : List Tree} {outcomes : List Outcome}
  {sink : Sink}

theorem checkAll_cons {tree : Tree} {rest : List Tree}
    (checked : environment.checkAll {} (tree :: rest) = .ok (outcomes, last, sink)) :
    ∃ outcome others, tree.check environment = .ok outcome ∧ outcomes = outcome :: others ∧
      outcome.environment.checkAll {} rest = .ok (others, last, sink) := by
  obtain ⟨⟨outcome, after⟩, first, later⟩ := Except.bind_eq_ok.mp checked
  obtain ⟨⟨others, ended⟩, onward, isAnswer⟩ := Except.bind_eq_ok.mp later
  rw [Tree.checkInto_empty] at first
  cases alone : tree.check environment with
  | error fault =>
      rw [alone] at first
      cases first
  | ok result =>
      rw [alone] at first
      cases first
      cases isAnswer
      exact ⟨outcome, others, rfl, rfl, onward⟩

/-- Each result of a session holds exactly the errors and warnings that its own check raised, in the
order in which a log of that check tells of them, and its diagnostics list each of them once, in the
order of the source. Nothing is left in the sink, so nothing comes back later. -/
theorem checkAll_lists (checked : environment.checkAll {} trees = .ok (outcomes, last, sink)) :
    sink = {} ∧ outcomes.length = trees.length ∧
      ∀ (index : Nat) (tree : Tree) (outcome : Outcome) (start : Environment),
        trees[index]? = some tree → outcomes[index]? = some outcome →
        (environment.starts outcomes)[index]? = some start →
        tree.check start = .ok outcome ∧ ∃ events,
          tree.checkLogged start = .ok (outcome, events) ∧ outcome.Lists (raisedIn events) := by
  induction trees generalizing environment outcomes with
  | nil =>
      cases checked
      exact ⟨rfl, rfl, fun index tree _ _ isTree => by simp at isTree⟩
  | cons tree rest ih =>
      obtain ⟨outcome, others, alone, rfl, onward⟩ := checkAll_cons checked
      obtain ⟨isEmpty, lengths, later⟩ := ih onward
      refine ⟨isEmpty, congrArg (· + 1) lengths, ?_⟩
      intro index which result start isTree isResult isStart
      cases index with
      | zero =>
          simp only [List.getElem?_cons_zero, Option.some.injEq] at isTree isResult
          have isFirst : environment = start := Option.some.inj isStart
          subst isTree isResult isFirst
          obtain ⟨events, logged⟩ := Tree.exists_checkLogged alone
          exact ⟨alone, events, logged, Tree.checkLogged_lists logged⟩
      | succ index => exact later index which result start isTree isResult isStart

def misspelt : Tree :=
  Tree.ofStored none (.mk none .source none .nowhere [
    .mk none .integer "12x" ⟨4, 7⟩ [],
    .mk none .name "y" ⟨4, 5⟩ [],
    .mk none .integer "9z" ⟨0, 2⟩ []])

/-- The unit that is checked after it raises nothing. -/
theorem checkAll_lists_misspelt : ∃ outcomes last,
    (ofOptions {}).checkAll {} [misspelt, {}] = .ok (outcomes, last, {}) ∧
      outcomes.map (fun outcome => (outcome.errors.length, outcome.warnings.length)) =
        [(1, 2), (0, 0)] ∧
      ∃ outcome events, outcomes[0]? = some outcome ∧
        misspelt.checkLogged (ofOptions {}) = .ok (outcome, events) ∧
        outcome.Lists (raisedIn events) := by
  have run : ((ofOptions {}).checkAll {} [misspelt, {}]).toOption.any (fun answer => decide
      (answer.1.map (fun outcome => (outcome.errors.length, outcome.warnings.length)) =
        [(1, 2), (0, 0)])) = true := by
    decide +kernel
  cases checked : (ofOptions {}).checkAll {} [misspelt, {}] with
  | error fault => simp [checked, Except.toOption] at run
  | ok answer =>
      obtain ⟨outcomes, last, sink⟩ := answer
      obtain ⟨rfl, lengths, each⟩ := checkAll_lists checked
      have counts : outcomes.map (fun outcome =>
          (outcome.errors.length, outcome.warnings.length)) = [(1, 2), (0, 0)] := by
        simpa [checked, Except.toOption] using run
      obtain ⟨outcome, rest, rfl⟩ := List.exists_cons_of_length_eq_add_one lengths
      obtain ⟨_, events, logged, lists⟩ :=
        each 0 misspelt outcome (ofOptions {}) rfl rfl rfl
      exact ⟨outcome :: rest, last, rfl, counts, outcome, events, rfl, logged, lists⟩

end Environment

end ScriptTyping
