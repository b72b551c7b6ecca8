import ScriptTyping.Proofs.Outcome.Scopes
import ScriptTyping.Proofs.Outcome.Statements

/-!
Declarations of globals. A variable or a defined function may be declared again with the type that
the global of its name has, and a prototype not even then.
-/

namespace ScriptTyping

inductive Declaration.Form where
  | value (isInitialized : Bool)
  | function
  | prototype
  deriving DecidableEq

structure Declaration where
  form : Declaration.Form
  nameNode : NodeId
  name : String
  ty : Ty

def Declaration.Clashes (declared : Declaration) (environment : Environment) : Prop :=
  ∃ id, environment.globalId? declared.name = some id ∧
    (declared.form = .prototype ∨ ((environment.global id).ty == declared.ty) = false)

theorem Declaration.exists_global {environment : Environment} (declared : Declaration)
    (free : ¬ declared.Clashes environment) : ∃ next globalId,
      environment.declareGlobal declared.name declared.ty = .ok (next, globalId) ∧
      next.globalId? declared.name = some globalId ∧
      ((next.global globalId).ty == declared.ty) = true ∧
      (environment.globalId? declared.name ≠ none → next = environment) := by
  cases known : environment.globalId? declared.name with
  | none =>
      have made : environment.declareGlobal declared.name declared.ty = .ok
          ({ environment with globals := environment.globals.push ⟨declared.name, declared.ty⟩ },
            environment.globals.size) := by
        simp [Environment.declareGlobal, known]
      refine ⟨_, _, made, ?_, (Environment.declareGlobal_global made).2, absurd rfl⟩
      rw [Environment.globalId?, Array.findIdx?_eq_none_iff] at known
      simp [Environment.globalId?, Array.findIdx?_push, Array.findIdx?_eq_none_iff.mpr known]
  | some globalId =>
      have same : ((environment.global globalId).ty == declared.ty) = true := by
        by_contra different
        exact free ⟨globalId, known, .inr (Bool.eq_false_iff.mpr different)⟩
      refine ⟨environment, globalId, ?_, known, same, fun _ => rfl⟩
      simp [Environment.declareGlobal, known, same]

namespace Rule

open Check

variable {visit : Visit} {id nameNode : NodeId} {old new : CheckState} {declared : Declaration}

/-! ### Working out and declaring -/

def workOutVariable (visit : Visit) (id : NodeId) : Check Declaration := do
  let nameNode ← required id .name
  let name ← textOf nameNode
  let written ← annotation? id .type
  let isInitialized ← has id .expr
  let ty ← variableType visit id nameNode written
  setType nameNode ty
  return ⟨.value isInitialized, nameNode, name, ty⟩

def workOutFunction (visit : Visit) (id : NodeId) : Check Declaration := do
  let nameNode ← required id .name
  let name ← textOf nameNode
  let written ← annotation? id .type
  let params ← parameterList id
  match ← child? id .body with
  | none => return ⟨.prototype, nameNode, name, .fn (params.map (·.2)) (written.getD .void)⟩
  | some body => do
    let result ← functionBody visit id body name written params
    setAnnotation id result
    setType nameNode result
    return ⟨.function, nameNode, name, .fn (params.map (·.2)) result⟩

def workOut? (visit : Visit) (id : NodeId) : Tag → Option (Check Declaration)
  | .varDecl => some (workOutVariable visit id)
  | .funcDecl => some (workOutFunction visit id)
  | _ => none

def makeDeclaration (id : NodeId) (declared : Declaration) : Check Ty :=
  match declared.form with
  | .value isInitialized => do
    if (← scopes).hasLocalScope then do
      modifyScopes (·.declare declared.name declared.ty)
      return .void
    else do
      let globalId ← declareGlobal declared.name declared.ty declared.nameNode
      if isInitialized then do
        globalStore id globalId
        return declared.ty
      else do
        markDone id
        return .void
  | .function => do
    let globalId ← declareGlobal declared.name declared.ty declared.nameNode
    setBinding id (.field .set (.global globalId))
    return .void
  | .prototype => prototype id declared.nameNode declared.name declared.ty

theorem varDecl_eq (visit : Visit) (id : NodeId) :
    varDecl visit id = workOutVariable visit id >>= makeDeclaration id := by
  simp only [varDecl, workOutVariable, bind_assoc, pure_bind]
  rfl

theorem funcDecl_eq_workOut (visit : Visit) (id : NodeId) :
    funcDecl visit id = workOutFunction visit id >>= makeDeclaration id := by
  simp only [funcDecl_eq, workOutFunction, bind_assoc]
  refine bind_congr fun nameNode => bind_congr fun name => bind_congr fun written => ?_
  refine bind_congr fun params => bind_congr fun found => ?_
  cases found with
  | none => rfl
  | some body => simp only [define, bind_assoc, pure_bind]; rfl

theorem ofTag_eq_workOut {tag : Tag} {step : Check Declaration}
    (isDeclaration : workOut? visit id tag = some step) :
    ofTag visit id tag = step >>= makeDeclaration id := by
  cases tag with
  | varDecl => cases isDeclaration; exact varDecl_eq visit id
  | funcDecl => cases isDeclaration; exact funcDecl_eq_workOut visit id
  | _ => cases isDeclaration

/-! ### Scopes -/

section Scopes

variable {realm : Realm} {other : Visit}

theorem workOutVariable_agrees (alike : Alike realm visit other) (inside : realm.inside id) :
    Agrees realm Any (workOutVariable visit id) (workOutVariable other id) := by
  refine .bind (required_obeys inside .name) fun nameNode nameIn => ?_
  refine .bind (.textOf nameIn) fun name _ => ?_
  refine .bind (annotation?_obeys inside .type) fun written _ => ?_
  refine .bind (.has inside .expr) fun isInitialized _ => ?_
  refine .bind (variableType_agrees alike inside nameIn written) fun ty _ => ?_
  exact .bind (setType_obeys nameIn ty) fun _ _ => .pure trivial

theorem workOutFunction_agrees (alike : Alike realm visit other) (inside : realm.inside id) :
    Agrees realm Any (workOutFunction visit id) (workOutFunction other id) := by
  refine .bind (required_obeys inside .name) fun nameNode nameIn => ?_
  refine .bind (.textOf nameIn) fun name _ => ?_
  refine .bind (annotation?_obeys inside .type) fun written _ => ?_
  refine .bind (parameterList_obeys inside) fun params _ => ?_
  refine .bind (.child? inside .body) fun found each => ?_
  cases found with
  | none => exact .pure trivial
  | some body =>
      refine .bind (functionBody_agrees alike inside (each body rfl) name written params) ?_
      refine fun result _ => .bind (setAnnotation_obeys inside result) fun _ _ => ?_
      exact .bind (setType_obeys nameIn result) fun _ _ => .pure trivial

theorem workOut?_widens {depth : Nat} {tag : Tag} {step : Check Declaration}
    (isDeclaration : workOut? (ScriptTyping.visit depth) id tag = some step)
    (worksOut : step.run.run old = .ok (.ok declared, new)) : old.scopes.Widens new.scopes := by
  have pairs : (Realm.whole old.tree.source).Pairs old old :=
    ⟨Realm.whole_joins old.tree, rfl, rfl⟩
  have inside : (Realm.whole old.tree.source).inside id := trivial
  have alike := @visit_agrees (Realm.whole old.tree.source) depth depth (Nat.le_refl depth)
  have agrees : Agrees (Realm.whole old.tree.source) Any step step := by
    cases tag with
    | varDecl => cases isDeclaration; exact workOutVariable_agrees alike inside
    | funcDecl => cases isDeclaration; exact workOutFunction_agrees alike inside
    | _ => cases isDeclaration
  have ends := agrees.ends old old pairs
  rw [worksOut] at ends
  cases ends with
  | gives _ advances => exact advances.widens

end Scopes

/-! ### Runs -/

theorem run_declareGlobal (name : String) (ty : Ty) (nameNode : NodeId) (state : CheckState) :
    (declareGlobal name ty nameNode).run.run state =
      match state.environment.declareGlobal name ty with
      | .ok (environment, id) => .ok (.ok id, { state with environment })
      | .error existing => (failAt nameNode (.duplicateDeclaration name existing)).run.run state := by
  have reads : (environment).run.run state = .ok (.ok state.environment, state) := rfl
  rw [declareGlobal, run_bind, reads]
  dsimp only
  cases state.environment.declareGlobal name ty <;> rfl

/-- A declaration that clashes fails, and changes nothing but the tree and the log. -/
theorem run_makeDeclaration_of_clashes (outside : old.scopes.hasLocalScope = false)
    (clashes : declared.Clashes old.environment) :
    ∃ globalId failure tree log, old.environment.globalId? declared.name = some globalId ∧
      (makeDeclaration id declared).run.run old = .ok (.error failure, { old with tree, log }) ∧
      failure.error = ⟨.duplicateDeclaration declared.name (old.environment.global globalId).ty,
        old.tree.span declared.nameNode⟩ := by
  obtain ⟨globalId, found, different⟩ := clashes
  let cause := ErrorCause.duplicateDeclaration declared.name (old.environment.global globalId).ty
  let failed := Failure.ofError old.tree ⟨cause, old.tree.span declared.nameNode⟩
  let log : Log := old.log.map (· ++ [.raised (.error failed.1.error)])
  refine ⟨globalId, failed.1, failed.2, log, found, ?_, rfl⟩
  have fails {α : Type} : (failAt declared.nameNode cause : Check α).run.run old =
      .ok (.error failed.1, { old with tree := failed.2, log }) := rfl
  obtain ⟨form, nameNode, name, ty⟩ := declared
  have declares : form ≠ .prototype →
      (declareGlobal name ty nameNode).run.run old =
        .ok (.error failed.1, { old with tree := failed.2, log }) := by
    intro other
    have unequal := different.resolve_left other
    rw [run_declareGlobal, Environment.declareGlobal]
    simp only at found unequal
    simp only [found, unequal, Bool.false_eq_true, if_false]
    exact fails
  cases form with
  | value isInitialized =>
      have reads : (scopes).run.run old = .ok (.ok old.scopes, old) := rfl
      rw [makeDeclaration, run_bind, reads]
      simp only [outside, Bool.false_eq_true, if_false]
      rw [run_bind, declares (by simp)]
  | function => rw [makeDeclaration, run_bind, declares (by simp)]
  | prototype =>
      have reads : (environment).run.run old = .ok (.ok old.environment, old) := rfl
      rw [makeDeclaration, prototype, run_bind, reads]
      simp only [found]
      exact fails

/-- A declaration that does not clash succeeds. The global of its name is the one that there was, if
there was one. -/
theorem run_makeDeclaration (outside : old.scopes.hasLocalScope = false)
    (free : ¬ declared.Clashes old.environment) :
    ∃ ty tree environment globalId,
      (makeDeclaration id declared).run.run old = .ok (.ok ty, { old with tree, environment }) ∧
      environment.globalId? declared.name = some globalId ∧
      ((environment.global globalId).ty == declared.ty) = true ∧
      (old.environment.globalId? declared.name ≠ none → environment = old.environment) := by
  obtain ⟨next, globalId, made, found, same, kept⟩ := declared.exists_global free
  obtain ⟨form, nameNode, name, ty⟩ := declared
  have runs : (declareGlobal name ty nameNode).run.run old =
      .ok (.ok globalId, { old with environment := next }) := by
    rw [run_declareGlobal, made]
  cases form with
  | value isInitialized =>
      have reads : (scopes).run.run old = .ok (.ok old.scopes, old) := rfl
      simp only [makeDeclaration, run_bind _ _ old, reads, outside, Bool.false_eq_true, if_false, runs]
      cases isInitialized with
      | true => exact ⟨_, _, _, globalId, rfl, found, same, kept⟩
      | false => exact ⟨_, _, _, globalId, rfl, found, same, kept⟩
  | function =>
      simp only [makeDeclaration, run_bind _ _ old, runs]
      exact ⟨_, _, _, globalId, rfl, found, same, kept⟩
  | prototype =>
      have reads : (environment).run.run old = .ok (.ok old.environment, old) := rfl
      have isNew : old.environment.globalId? name = none := by
        by_contra known
        obtain ⟨globalId, isKnown⟩ := Option.ne_none_iff_exists'.mp known
        exact free ⟨globalId, isKnown, .inl rfl⟩
      simp only [makeDeclaration, prototype, run_bind _ _ old, reads, isNew, runs]
      exact ⟨_, _, _, globalId, rfl, found, same, absurd rfl⟩

end Rule

/-- Whether making a declaration ends as the globals next to it demand. -/
structure Declaration.Ends (declared : Declaration) (reached after : CheckState) : Prop where
  reports : declared.Clashes reached.environment ↔
    ∃ id, reached.environment.globalId? declared.name = some id ∧
      after.errors = reached.errors ++ [⟨.duplicateDeclaration declared.name
        (reached.environment.global id).ty, reached.tree.span declared.nameNode⟩]
  succeeds : ¬ declared.Clashes reached.environment → after.errors = reached.errors ∧
    ∃ id, after.environment.globalId? declared.name = some id ∧
      ((after.environment.global id).ty == declared.ty) = true
  keeps : reached.environment.globalId? declared.name ≠ none →
    after.environment = reached.environment

namespace Tree

/-- A declaration among the statements of a unit, whose name and type were worked out, is an error if
and only if it clashes with a global. The global that has its name already stays as it was. -/
theorem declaration_ends {source : Option String} {stored : StoredNode} {environment : Environment}
    {depth index : Nat} {sequence child : NodeId} {start before reached : CheckState} {ty : Ty}
    {step : Check Declaration} {declared : Declaration}
    (comes : (ofStored source stored).ComesTo environment (depth + 2) sequence start)
    (isSequence : (start.tree.tag sequence).isSequence = true)
    (run : (Rule.statementsFrom (visit (depth + 1)) sequence .void 0 index).run.run start =
      .ok (.ok ty, before))
    (isChild : before.tree.childAt? sequence index = some child)
    (isDeclaration : Rule.workOut? (visit depth) child (before.tree.tag child) = some step)
    (worksOut : step.run.run before = .ok (.ok declared, reached)) :
    ∃ last after, (Rule.statementsFrom (visit (depth + 1)) sequence .void 0 (index + 1)).run.run
        start = .ok (.ok last, after) ∧ declared.Ends reached after := by
  obtain ⟨branch, rfl, awaits⟩ := comes.awaits
  rw [awaits.stands.holds.tag_eq] at isSequence
  obtain ⟨kid, later, rfl, awaitsKid, isLater, stands, found⟩ :=
    awaits.statement isSequence run isChild
  have undone : (before.tree.get kid.id).done = false := by
    rw [awaitsKid.stands.holds.get_eq]
    exact awaitsKid.raw.blank.done_eq
  have outside : reached.scopes.hasLocalScope = false :=
    ((Rule.workOut?_widens isDeclaration worksOut).evolves.bare awaitsKid.bare).hasLocalScope
  -- The visit of the statement is the making of its declaration, in the state that was reached.
  have visited := @Rule.run_visit kid.id before depth undone
  rw [Rule.ofTag_eq_workOut isDeclaration, Check.run_bind, worksOut] at visited
  simp only at visited
  rw [Rule.run_statementsFrom_succ run, Nat.zero_add, Rule.run_statementsFrom_some ty 0 isChild]
  by_cases clashes : declared.Clashes reached.environment
  · obtain ⟨globalId, failure, tree, log, known, made, isError⟩ :=
      @Rule.run_makeDeclaration_of_clashes kid.id reached declared outside clashes
    rw [made] at visited
    have breaks := (Check.visit_yields (depth + 1) before kid awaitsKid.stands awaitsKid.later
      awaitsKid.raw).error visited
    have isHere := (breaks.replaced stands found).1
    rw [visited]
    simp only
    rw [Check.run_bind, Check.run_replace _ (isLater ▸ isHere)]
    refine ⟨_, _, rfl, ⟨fun _ => ⟨globalId, known, ?_⟩, fun _ => clashes⟩,
      absurd clashes, fun _ => rfl⟩
    rw [← isError]
  · obtain ⟨made, tree, environment, globalId, runs, known, same, kept⟩ :=
      @Rule.run_makeDeclaration kid.id reached declared outside clashes
    rw [runs] at visited
    rw [visited]
    refine ⟨_, _, rfl, ⟨fun clash => absurd clash clashes, ?_⟩, fun _ => ⟨rfl, globalId, known, same⟩,
      kept⟩
    rintro ⟨_, _, added⟩
    simp at added

end Tree

def Check.passes {α : Type} (step : Check α) (state : CheckState) (test : α → CheckState → Bool) :
    Bool :=
  match step.run.run state with
  | .ok (.ok result, new) => test result new
  | _ => false

theorem Check.exists_run {α : Type} {step : Check α} {state : CheckState}
    {test : α → CheckState → Bool} (passes : step.passes state test = true) :
    ∃ result new, step.run.run state = .ok (.ok result, new) ∧ test result new = true := by
  unfold Check.passes at passes
  split at passes
  · rename_i result new ran
    exact ⟨result, new, ran, passes⟩
  · cases passes

/-- The same function is announced twice. -/
def StoredNode.announcing : StoredNode :=
  let announced := mk none .funcDecl none .nowhere [mk (some .name) .name (some "f") .nowhere []]
  mk none .source none .nowhere [announced, announced]

/-- The second prototype clashes with the first although the types are the same. -/
theorem Tree.declaration_ends_announcing : ∃ (declared : Declaration) (reached after : CheckState),
    declared.form = .prototype ∧ reached.environment.globalId? declared.name = some 0 ∧
      ((reached.environment.global 0).ty == declared.ty) = true ∧ declared.Ends reached after := by
  let start : CheckState := { tree := ofStored none .announcing, environment := .ofOptions {} }
  let again (declared : Declaration) (reached : CheckState) : Bool := decide (
    declared.form = .prototype ∧ reached.environment.globalId? declared.name = some 0 ∧
      ((reached.environment.global 0).ty == declared.ty) = true)
  let test (_ : Ty) (before : CheckState) : Bool := decide (
    before.tree.childAt? 0 1 = some 3 ∧ before.tree.tag 3 = .funcDecl ∧
      (Rule.workOutFunction (visit 10) 3).passes before again = true)
  have evaluated : (Rule.statementsFrom (visit 11) 0 .void 0 1).passes start test = true := by
    decide +kernel
  obtain ⟨ty, before, run, holds⟩ := Check.exists_run evaluated
  obtain ⟨isChild, isTag, holds⟩ := of_decide_eq_true holds
  obtain ⟨declared, reached, worksOut, holds⟩ := Check.exists_run holds
  obtain ⟨isPrototype, known, same⟩ := of_decide_eq_true holds
  have comes : (ofStored none .announcing).ComesTo (.ofOptions {}) (10 + 2) 0 start :=
    .root (by decide)
  have isDeclaration : Rule.workOut? (visit 10) 3 (before.tree.tag 3) =
      some (Rule.workOutFunction (visit 10) 3) := by rw [isTag]; rfl
  obtain ⟨_, after, _, ends⟩ :=
    declaration_ends comes (by decide) run isChild isDeclaration worksOut
  exact ⟨declared, reached, after, isPrototype, known, same, ends⟩

end ScriptTyping
