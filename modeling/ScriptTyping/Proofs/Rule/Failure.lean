import ScriptTyping.Proofs.Rule.Stages
import ScriptTyping.Proofs.Rule.Visit

/-!
What a rule leaves of the globals and imports when it fails. Variables, functions and imports are
made known at the end of their rules, and an assignment declares an unknown name at its beginning.
-/

namespace ScriptTyping

namespace StoredNode

def nests (mode : Mode) (node : StoredNode) : Bool :=
  node.children.any (mayDeclare (if node.tag = .funcDecl then { mode with inside := true } else mode))

def assigned? (node : StoredNode) : Option String :=
  match node.tag with
  | .assign => node.targetName?
  | .compound _ => if (node.first? .right).isSome then node.targetName? else none
  | _ => none

end StoredNode

namespace Environment

def imply (environment : Environment) : Option String → Environment
  | some name =>
    if environment.options.shellMode && !environment.hasGlobal name then
      { environment with globals := environment.globals.push ⟨name, .object⟩ }
    else environment
  | none => environment

theorem imply_of_not_shellMode {environment : Environment}
    (strict : environment.options.shellMode = false) (name? : Option String) :
    environment.imply name? = environment := by
  cases name? with
  | none => rfl
  | some name => simp only [imply, strict, Bool.false_and, Bool.false_eq_true, if_false]

/-- An unknown name is declared as an object. -/
theorem declareGlobal_of_unknown {environment : Environment} {name : String}
    (unknown : environment.hasGlobal name = false) (ty : Ty) :
    environment.declareGlobal name ty =
      .ok ({ environment with globals := environment.globals.push ⟨name, ty⟩ },
        environment.globals.size) := by
  rw [hasGlobal, Option.isSome_eq_false_iff, Option.isNone_iff_eq_none] at unknown
  rw [declareGlobal, unknown]

theorem imply_leads (environment : Environment) (name? : Option String) :
    environment.Leads (environment.imply name?) := by
  cases name? with
  | none => exact .refl
  | some name =>
      rw [imply]
      split
      · rename_i implicit
        rw [Bool.and_eq_true, Bool.not_eq_true'] at implicit
        exact .single (.declareGlobal (declareGlobal_of_unknown implicit.2 .object))
      · exact .refl

/-- An import that fails leaves nothing behind but registered members. -/
theorem importNamespace_still {environment : Environment} {path : String} {error : ImportError}
    (failed : (environment.importNamespace path).2 = some error) :
    environment.Still (environment.importNamespace path).1 := by
  rcases environment.importNamespace_cases path with
    ⟨_, run⟩ | ⟨_, _, run⟩ | ⟨_, _, _, _, _, run⟩ | ⟨_, _, _, _, run⟩ <;> rw [run] at failed ⊢
  · cases failed
  · exact .refl _
  · exact ⟨rfl, rfl⟩
  · cases failed

end Environment

def ScopeStack.Bare (scopes : ScopeStack) : Prop := scopes.functions = [] ∧ scopes.toplevel = []

theorem ScopeStack.Evolves.bare {old new : ScopeStack} (evolves : old.Evolves new)
    (bare : old.Bare) : new.Bare := by
  cases evolves with
  | inside => simp [Bare] at bare
  | @outside blocks _ count _ =>
      have none : blocks = [] := bare.2
      rw [none, List.length_nil, List.length_eq_zero_iff] at count
      exact ⟨rfl, count⟩

theorem ScopeStack.Bare.inFunction {scopes : ScopeStack} (bare : scopes.Bare) :
    scopes.inFunction = false := by
  rw [ScopeStack.inFunction, bare.1]
  rfl

theorem ScopeStack.Bare.hasLocalScope {scopes : ScopeStack} (bare : scopes.Bare) :
    scopes.hasLocalScope = false := by
  rw [ScopeStack.hasLocalScope, ScopeStack.visible, bare.1, bare.2]
  rfl

theorem ScopeStack.Bare.hasVariable {scopes : ScopeStack} (bare : scopes.Bare) (name : String) :
    scopes.hasVariable name = false := by
  rw [ScopeStack.hasVariable, ScopeStack.varType?, ScopeStack.visible, bare.1, bare.2]
  rfl

namespace Check

variable {α β : Type} {calm : Calm} {step : Check α} {next : α → Check β} {old later : CheckState}
  {branch before : Branch} {environment : Environment} {goal between : α → CheckState → Branch → Prop}
  {result : α}

def Leaves (step : Check α) (old : CheckState) (environment : Environment) : Prop :=
  ∀ failure new, step.run.run old = .ok (.error failure, new) →
    environment.Still new.environment

theorem Leaves.ofYields (yields : step.Yields calm old before goal) (isStill : calm.still old.mode) :
    step.Leaves old old.environment := by
  intro failure new run
  exact (yields.error run).keeps.still isStill

theorem Leaves.ofRest {rest : Check α} (same : step.run.run old = rest.run.run later)
    (leaves : rest.Leaves later environment) : step.Leaves old environment := by
  intro failure new run
  exact leaves failure new (same.symm.trans run)

theorem Leaves.bindRun (run : step.run.run old = .ok (.ok result, later))
    (rest : (next result).Leaves later environment) : (step >>= next).Leaves old environment :=
  .ofRest (by rw [run_bind, run]) rest

theorem Leaves.bindRead {view : CheckView → α}
    (rest : (next (view old.toCheckView)).Leaves old environment) :
    (read view >>= next).Leaves old environment :=
  .bindRun rfl rest

theorem Yields.bindLeaves (first : step.Yields calm old before between) (isStill : calm.still old.mode)
    (rest : ∀ result new after, Becomes calm old before new after → between result new after →
      calm.still new.mode → (next result).Leaves new new.environment) :
    (step >>= next).Leaves old old.environment := by
  intro failure last run
  rw [run_bind] at run
  split at run
  · cases run
  · rename_i result new ran
    obtain ⟨after, becomes, reached⟩ := first.ok ran
    have stays : calm.still new.mode := by
      rw [becomes.evolves.mode]
      exact isStill
    exact (becomes.keeps.still isStill).trans
      (rest result new after becomes reached stays failure last run)
  · rename_i failed new ran
    cases run
    exact (first.error ran).keeps.still isStill

theorem Leaves.bindSame {found : α → Prop}
    (first : step.Yields calm old before fun result new after =>
      new = old ∧ after = before ∧ found result) (isStill : calm.still old.mode)
    (rest : ∀ result, found result → (next result).Leaves old old.environment) :
    (step >>= next).Leaves old old.environment := by
  refine first.bindLeaves isStill ?_
  rintro result _ _ _ ⟨rfl, rfl, isFound⟩ _
  exact rest result isFound

/-- Steps that cannot fail come after one that can. -/
theorem Leaves.andThen (first : step.Leaves old environment)
    (rest : ∀ result new failure last, (next result).run.run new ≠ .ok (.error failure, last)) :
    (step >>= next).Leaves old environment := by
  intro failure last run
  rw [run_bind] at run
  split at run
  · cases run
  · rename_i result new _
    exact absurd run (rest result new failure last)
  · rename_i ran
    cases run
    exact first _ _ ran

theorem Leaves.failAt (id : NodeId) (cause : ErrorCause) :
    (Check.failAt id cause : Check α).Leaves old old.environment := by
  intro failure new run
  cases run
  exact .refl _

theorem Leaves.trans {earlier : Environment} (leaves : step.Leaves old environment)
    (still : earlier.Still environment) : step.Leaves old earlier :=
  fun failure new run => still.trans (leaves failure new run)

theorem Leaves.pure (result : α) : (Pure.pure result : Check α).Leaves old environment := by
  intro failure new run
  cases run

end Check

namespace Rule

open Check

variable {premise : Premise} {calm : Calm} {first : Environment} {old : CheckState}
  {branch target : Branch} {index : Nat} {visit : Visit}

/-! ### Declarations -/

theorem declareGlobal_leaves (name : String) (ty : Ty) (nameNode : NodeId) :
    (declareGlobal name ty nameNode).Leaves old old.environment := by
  refine .bindRead ?_
  split
  · exact .bindRun rfl (.pure _)
  · exact .failAt _ _

theorem importDecl_leaves (stands : old.tree.Stands branch) (isStill : calm.still old.mode) :
    (importDecl branch.id).Leaves old old.environment := by
  refine .bindSame (@requiredOrFirst_yields calm _ _ _ stands) isStill ?_
  rintro _ ⟨_, target, _, rfl⟩
  refine .bindRead ?_
  simp only
  split
  · exact .failAt _ _
  · rename_i path _
    refine .bindRead ?_
    cases failed : (old.environment.importNamespace path).2 with
    | none => exact .bindRun rfl (.bindRun rfl (.pure _))
    | some error =>
        exact .bindRun rfl (.trans (.failAt _ _) (Environment.importNamespace_still failed))

theorem varDecl_leaves (visits : Visits premise visit)
    (isOpen : Open premise calm first (Unseen []) old branch) (isStill : calm.still old.mode)
    (asideType : ∀ index kid, branch.Kid .type index kid → premise.aside kid.node.tag) :
    (varDecl visit branch.id).Leaves old old.environment := by
  refine .bindSame (@required_yields calm _ _ _ _ isOpen.stands isOpen.stands.holds) isStill ?_
  rintro _ ⟨index, nameKid, isName, rfl⟩
  refine .bindRead ?_
  refine (written?_yields isOpen (by decide) asideType).bindLeaves isStill ?_
  rintro written new after _ ⟨alike, others, _, _, _, opens⟩ stillNew
  rw [← alike.id]
  refine .bindRead ?_
  refine (variableType_yields visits opens (by decide) nameKid.id written).bindLeaves stillNew ?_
  rintro ty later afterLater _ _ _
  refine .bindRun rfl (.bindRead ?_)
  split
  · exact .bindRun rfl (.pure _)
  · refine .andThen (declareGlobal_leaves _ _ _) ?_
    intro globalId last failure final run
    split at run <;> cases run

theorem holdFunction_leaves (id nameNode : NodeId) (name : String) (params : List Ty) (result : Ty) :
    (holdFunction id nameNode name params result).Leaves old old.environment := by
  refine .bindRun rfl (.andThen (declareGlobal_leaves _ _ _) ?_)
  intro globalId new failure last run
  cases run

/-- What is left of a function once its parameters and its annotation have types. -/
theorem sketched_leaves {environment : Environment} {written : Option Ty} {params : List Ty}
    (visits : Visits premise visit) (stands : old.tree.Stands branch)
    (later : premise.loaded.nodes.size ≤ old.tree.nodes.size)
    (sketch : Sketch premise environment written params branch) (isStill : calm.still old.mode)
    (enters : ∀ index body, branch.Kid .body index body → calm.Enters body.stored.calm)
    (nameNode : NodeId) (name : String) (given : List (String × Ty)) :
    (declareFunction visit branch.id nameNode name written given).Leaves old old.environment := by
  refine .bindRead ?_
  rw [stands.holds.child?_eq]
  cases found : branch.first? .body with
  | none =>
      refine .bindRead ?_
      split
      · exact .failAt _ _
      · refine .andThen (declareGlobal_leaves _ _ _) ?_
        intro globalId new failure last run
        cases run
  | some body =>
      obtain ⟨index, isBody⟩ := Branch.first?_eq_some_iff.mp found
      refine (functionBody_yields visits stands later isBody (sketch.body index body isBody)
        (enters index body isBody) name written given).bindLeaves isStill ?_
      rintro result new after _ _ _
      rw [ setAnnotation, bind_assoc]
      refine .bindRead ?_
      split
      · exact .bindRun rfl (holdFunction_leaves _ _ _ _ _)
      · exact .bindRun rfl (holdFunction_leaves _ _ _ _ _)

theorem funcDecl_leaves (visits : Visits premise visit) (stands : old.tree.Stands branch)
    (later : premise.loaded.nodes.size ≤ old.tree.nodes.size) (raw : Raw premise branch)
    (isTag : branch.node.tag = .funcDecl) (isStill : calm.still old.mode)
    (enters : ∀ index body, branch.Kid .body index body → calm.Enters body.stored.calm) :
    (funcDecl visit branch.id).Leaves old old.environment := by
  rw [funcDecl_eq]
  refine .bindSame (@required_yields calm _ _ _ _ stands stands.holds) isStill ?_
  rintro _ ⟨place, named, _, rfl⟩
  refine .bindRead ?_
  refine (headed_yields stands raw isTag).bindLeaves isStill ?_
  rintro written new after becomes ⟨same, sameId, headed, _, bodies⟩ stillNew
  rw [← sameId]
  refine (parameterList_yields becomes.stands headed).bindLeaves stillNew ?_
  rintro params final last becomesLast ⟨_, sameIdLast, sketch, _, bodiesLast⟩ stillLast
  rw [← sameIdLast]
  refine sketched_leaves visits becomesLast.stands
    (later.trans (becomes.turns.size.trans becomesLast.turns.size)) sketch stillLast ?_ _ _ params
  exact fun index body isBody => enters index body (bodies index body (bodiesLast index body isBody))

/-! ### Assignments -/

theorem run_required {label : Label} {kid : Branch} (stands : old.tree.Stands branch)
    (isKid : branch.Kid label index kid) :
    (required branch.id label).run.run old = .ok (.ok kid.id, old) := by
  have reads : (child? branch.id label).run.run old = .ok (.ok (some kid.id), old) := by
    show Except.ok (Except.ok (old.tree.child? branch.id label), old) = _
    rw [stands.holds.child?_eq, isKid.first?]
    rfl
  rw [required, run_bind, reads]
  rfl

/-- Outside functions and blocks an unknown name is declared whenever unknown names are. -/
theorem run_declareImplicit (bare : old.scopes.Bare) (holds : old.tree.Holds target) :
    (declareImplicit target.id).run.run old = .ok (.ok (), { old with
      environment := old.environment.imply
        (if target.node.tag = .name then some (target.node.text.getD "") else none) }) := by
  rw [run_declareImplicit_eq, holds.tag_eq, bare.inFunction]
  by_cases isName : target.node.tag = .name
  · cases shell : old.environment.options.shellMode with
    | false => simp [Environment.imply, isName, shell]; rfl
    | true =>
        simp only [isName, Bool.not_false, Bool.and_true, decide_true, if_true, Environment.imply,
          shell, Bool.true_and]
        have reads : (textOf target.id).run.run old =
            .ok (.ok (target.node.text.getD ""), old) := by
          show Except.ok (Except.ok (old.tree.text target.id), old) = _
          rw [holds.text_eq]
        rw [run_bind, reads]
        simp only [bare.hasVariable, Bool.not_false, Bool.true_and]
        cases known : old.environment.hasGlobal (target.node.text.getD "") with
        | true => rfl
        | false =>
            simp only [declareUnknown, Environment.declareGlobal_of_unknown known, Bool.not_false,
              if_true]
            rfl
  · simp [Environment.imply, isName]
    rfl

/-- An assignment that fails has declared the name that it stores to, and nothing else. -/
theorem assign_leaves (visits : Visits premise visit)
    (isOpen : Open premise calm first (Unseen []) old branch) (isTag : branch.node.tag = .assign)
    (unbound : branch.node.binding = .unbound) (clear : premise.tidy → branch.first? .expr = none)
    (aims : branch.Aims premise) (isStill : calm.still old.mode) (bare : old.scopes.Bare) :
    (assign visit branch.id).Leaves old (old.environment.imply branch.stored.targetName?) := by
  cases found : branch.first? .left with
  | none =>
      have noName : branch.stored.targetName? = none := by
        rw [StoredNode.targetName?, Branch.first?_stored, found]
        rfl
      rw [noName]
      refine .bindSame (@required_yields calm _ _ _ _ isOpen.stands isOpen.stands.holds) isStill ?_
      rintro _ ⟨index, target, isTarget, _⟩
      simp [isTarget.first?] at found
  | some target =>
      obtain ⟨index, isTarget⟩ := Branch.first?_eq_some_iff.mp found
      rw [Branch.targetName?_stored isTarget]
      refine .bindRun (run_required isOpen.stands isTarget) ?_
      refine .bindRun (run_declareImplicit bare (isOpen.stands.kid isTarget.mem).holds) ?_
      let name? := if target.node.tag = .name then some (target.node.text.getD "") else none
      let implied : CheckState := { old with environment := old.environment.imply name? }
      have evolves : old.Evolves implied := .ofEnvironment (old.environment.imply_leads name?)
      have stillNew : calm.still implied.mode := by
        rw [evolves.mode]
        exact isStill
      exact .ofYields (store_yields visits (isOpen.ofState rfl evolves) isTag unbound clear isTarget
        (aims target isTarget.first?)) stillNew

theorem compoundAssign_leaves (visits : Visits premise visit)
    (isOpen : Open premise calm first (Unseen []) old branch)
    (unbound : branch.node.binding = .unbound) (clear : premise.tidy → branch.first? .expr = none)
    (aims : branch.Aims premise) (isStill : calm.still old.mode) (bare : old.scopes.Bare)
    (op : CompoundOp) :
    (compoundAssign visit op branch.id).Leaves old (old.environment.imply
      (if (branch.stored.first? .right).isSome then branch.stored.targetName? else none)) := by
  have reads := fun label => @required_yields calm old branch label branch isOpen.stands
    isOpen.stands.holds
  cases foundLeft : branch.first? .left with
  | none =>
      have noName : branch.stored.targetName? = none := by
        rw [StoredNode.targetName?, Branch.first?_stored, foundLeft]
        rfl
      rw [noName, ite_self]
      refine .bindSame (reads .left) isStill ?_
      rintro _ ⟨index, target, isTarget, _⟩
      simp [isTarget.first?] at foundLeft
  | some target =>
      obtain ⟨index, isTarget⟩ := Branch.first?_eq_some_iff.mp foundLeft
      refine .bindRun (run_required isOpen.stands isTarget) ?_
      cases foundRight : branch.first? .right with
      | none =>
          rw [Branch.first?_stored, foundRight]
          refine .bindSame (reads .right) isStill ?_
          rintro _ ⟨place, right, isRight, _⟩
          simp [isRight.first?] at foundRight
      | some right =>
          obtain ⟨place, isRight⟩ := Branch.first?_eq_some_iff.mp foundRight
          rw [Branch.first?_stored, foundRight, Option.map_some, Option.isSome_some, if_pos rfl,
            Branch.targetName?_stored isTarget]
          obtain ⟨tree, after, run, becomes, opens, isTag, stillUnbound, isTargetLater, same⟩ :=
            desugared isOpen unbound isTarget isRight op
          refine .bindRun (run_required isOpen.stands isRight) (.ofRest (run (assign visit)) ?_)
          rw [← Branch.targetName?_stored isTargetLater]
          exact assign_leaves visits opens isTag stillUnbound (fun tidy => same.trans (clear tidy))
            (aims.congr becomes.turns.id (isTargetLater.first?.trans isTarget.first?.symm)) isStill bare

/-! ### Statements -/

def aloof (mode : Mode) : Calm := ⟨False, fun other => other = mode, fun _ _ => False⟩

theorem not_mayDeclare_of_mem {mode : Mode} {kid : Branch}
    (lone : branch.stored.nests mode = false) (member : kid ∈ branch.kids) : kid.stored.mayDeclare
      (if branch.node.tag = .funcDecl then { mode with inside := true } else mode) = false := by
  rw [StoredNode.nests, Branch.children_stored, Branch.tag_stored, List.any_eq_false] at lone
  exact Bool.eq_false_iff.mpr (lone kid.stored (List.mem_map_of_mem member))

theorem still_of_nests {kid : Branch} (opened : branch.node.tag ≠ .funcDecl)
    (lone : branch.stored.nests old.mode = false) (member : kid ∈ branch.kids) :
    ∀ mode, (aloof old.mode).still mode → kid.stored.calm.still mode := by
  rintro mode rfl
  have quiet := not_mayDeclare_of_mem lone member
  rw [if_neg opened] at quiet
  exact quiet

/-- Outside functions and blocks, a rule that fails leaves no more than the name that an assignment
declares, as far as nothing strictly inside declares something. -/
theorem ofTag_leaves (visits : Visits premise visit) (stands : old.tree.Stands branch)
    (later : premise.loaded.nodes.size ≤ old.tree.nodes.size) (raw : Raw premise branch)
    (bare : old.scopes.Bare) (lone : branch.stored.nests old.mode = false) :
    (ofTag visit branch.id branch.node.tag).Leaves old
      (old.environment.imply branch.stored.assigned?) := by
  have isStill : (aloof old.mode).still old.mode := rfl
  have unbound := raw.blank.binding_eq
  by_cases isFunction : branch.node.tag = .funcDecl
  · rw [StoredNode.assigned?, Branch.tag_stored, isFunction]
    refine funcDecl_leaves visits stands later raw isFunction isStill fun index body isBody => ?_
    refine ⟨?_, fun _ _ => False.elim⟩
    rintro _ rfl
    have quiet := not_mayDeclare_of_mem lone isBody.mem
    rw [if_pos isFunction] at quiet
    exact quiet
  by_cases isError : branch.node.tag = .error
  · rw [StoredNode.assigned?, Branch.tag_stored, isError]
    exact .pure _
  by_cases isLoop : branch.node.tag = .forEach
  · rw [StoredNode.assigned?, Branch.tag_stored, isLoop]
    exact .ofYields (loop_yields visits stands later raw isLoop (fun kid member _ =>
      ⟨False.elim, still_of_nests isFunction lone member, fun _ _ => False.elim⟩) fun kid member _ =>
      ⟨False.elim, still_of_nests isFunction lone member, fun _ _ => False.elim⟩) isStill
  have isOpen : Open premise (aloof old.mode) old.environment (Unseen []) old branch :=
    .start stands later raw isFunction isError fun _ _ found _ => ⟨False.elim,
      still_of_nests isFunction lone (List.mem_of_getElem? found), fun _ _ => False.elim⟩
  -- What is left declares nothing here, or is a declaration with a rule of its own.
  by_cases quiet : branch.node.tag.declares old.mode = false
  · have yields := inside_yields visits isOpen raw isLoop ⟨id, fun _ => id, fun _ _ => False.elim⟩
      (fun _ => id) (fun _ same => same ▸ quiet) fun _ _ => False.elim
    have strict : ∀ name?, (old.mode.shell && !old.mode.inside) = false →
        old.environment.imply name? = old.environment := by
      intro name? isStrict
      simp only [CheckState.mode, bare.inFunction, Bool.not_false, Bool.and_true] at isStrict
      exact Environment.imply_of_not_shellMode isStrict name?
    have same : old.environment.imply branch.stored.assigned? = old.environment := by
      rw [StoredNode.assigned?, Branch.tag_stored]
      split
      · rename_i isTag
        rw [isTag] at quiet
        exact strict _ quiet
      · rename_i isTag
        rw [isTag] at quiet
        exact strict _ quiet
      · rfl
    rw [same]
    exact .ofYields yields isStill
  · rw [StoredNode.assigned?, Branch.tag_stored]
    cases isTag : branch.node.tag with
    | importDecl => exact importDecl_leaves stands isStill
    | varDecl =>
        exact varDecl_leaves visits isOpen isStill (raw.top.asideVariable isTag (by decide))
    | assign =>
        exact assign_leaves visits isOpen isTag unbound (raw.top.noExpr (isTag ▸ rfl))
          (raw.aims (by simp [isTag])) isStill bare
    | compound op =>
        exact compoundAssign_leaves visits isOpen unbound (raw.top.noExpr (isTag ▸ rfl))
          (raw.aims (by simp [isTag])) isStill bare op
    | _ => simp [isTag, Tag.declares] at quiet isFunction

end Rule

/-- What a visit that fails leaves of the globals and imports. -/
theorem Check.visit_leaves {premise : Premise} {old : CheckState} {branch : Branch} (depth : Nat)
    (stands : old.tree.Stands branch) (later : premise.loaded.nodes.size ≤ old.tree.nodes.size)
    (raw : Raw premise branch)
    (bare : old.scopes.Bare) (lone : branch.stored.nests old.mode = false) :
    (visit depth branch.id).Leaves old (old.environment.imply branch.stored.assigned?) := by
  cases depth with
  | zero =>
      intro failure new run
      cases run
  | succ depth =>
      refine .bindRead ?_
      rw [stands.holds.get_eq, if_neg (by simp [raw.blank.done_eq])]
      refine .andThen (Rule.ofTag_leaves (visit_yields depth) stands later raw bare lone) ?_
      intro ty new failure last run
      cases run

end ScriptTyping
