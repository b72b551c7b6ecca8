import ScriptTyping.Proofs.Rule.Declaration

/-!
Functions. Their parameters and annotations get types without a visit, and only the body is checked,
in a scope of its own.
-/

namespace ScriptTyping

def Branch.Asleep (premise : Premise) (branch : Branch) : Prop :=
  ∀ first last returnType, Settled premise first last returnType branch

def CheckState.entered (state : CheckState) (name : String) (written : Option Ty)
    (params : List (String × Ty)) : CheckState :=
  let named := state.scopes.enterFunction name
  let returning := match written with
    | some ty => named.setReturnType ty
    | none => named
  { state with scopes := returning.setParams params }

theorem CheckState.entered_eq (state : CheckState) (name : String) (written : Option Ty)
    (params : List (String × Ty)) : ∃ scope : FunctionScope, scope.returnType = written ∧
      state.entered name written params = { state with
        scopes := { state.scopes with functions := scope :: state.scopes.functions } } := by
  cases written with
  | none => exact ⟨_, rfl, rfl⟩
  | some ty => exact ⟨_, rfl, rfl⟩

namespace Rule

open Check

variable {premise : Premise} {calm : Calm} {first : Environment} {old : CheckState}
  {branch kid : Branch} {index : Nat} {visit : Visit}

/-! ### Parameters -/

theorem parameter_yields {param : Branch} (stands : old.tree.Stands param)
    (raw : Raw premise param) (aside : premise.aside param.node.tag)
    (asideType : ∀ index kid, param.Kid .type index kid → premise.aside kid.node.tag) :
    (parameter param.id).Yields calm old param fun result new after =>
      after.node.ty = some result.2 ∧ after.Asleep premise ∧
        new.environment = old.environment ∧ new.scopes = old.scopes := by
  refine .bindRead stands (.bindRead stands ?_)
  refine (annotation?_yields stands).bind ?_
  rintro written new after becomes ⟨environment, scopes, found⟩
  have sameId : param.id = after.id := becomes.turns.id.symm
  let ty := written.getD .object
  have turns : new.tree.Turns after (new.tree.setType param.id ty) (after.typed ty) := by
    rw [sameId]
    exact .alter becomes.stands rfl rfl
  refine .bindRun rfl (.ofTree turns (Branch.notes_alter rfl))
    (.pure turns.stands ⟨rfl, ?_, environment, scopes⟩)
  intro first last returnType
  rcases found with ⟨_, _, rfl, _⟩ | ⟨inner, index, kid, _, isKid, rfl, _⟩
  · exact raw.typed aside ty
  · exact raw.typedParameter aside isKid (asideType index kid isKid)

theorem parameters_yields {list : Branch} {front rest : List Branch}
    (stands : old.tree.Stands list) (kids : list.kids = front ++ rest)
    (raw : ∀ param ∈ rest, Raw premise param)
    (aside : ∀ param ∈ rest, premise.aside param.node.tag ∧
      ∀ index kid, param.Kid .type index kid → premise.aside kid.node.tag) :
    (parameters (rest.map Branch.id)).Yields calm old list fun params new after => ∃ typed,
      after = list.withKids (front ++ typed) ∧
        typed.map (·.node.ty) = params.map (fun param => some param.2) ∧
        (∀ param ∈ typed, param.Asleep premise) ∧ List.Forall₂ Branch.Remains typed rest ∧
        new.environment = old.environment ∧ new.scopes = old.scopes := by
  induction rest generalizing front list old with
  | nil =>
      refine .pure stands ⟨[], ?_, rfl, fun _ member => by simp at member, .nil, rfl, rfl⟩
      rw [← kids]
      exact (Branch.Alike.refl stands).changed
  | cons param rest ih =>
      have found : list.kids[front.length]? = some param := by
        rw [kids]
        simp
      obtain ⟨asideParam, asideType⟩ := aside param List.mem_cons_self
      have stepped := @parameter_yields _ calm _ _ (stands.kid (List.mem_of_getElem? found))
        (raw param List.mem_cons_self) asideParam asideType
      refine (stepped.inside stands found).bind ?_
      rintro first new _ becomes ⟨newParam, becomesParam, ⟨typed, asleep, environment, scopes⟩, rfl⟩
      have kidsNew : (list.setKid front.length newParam).kids = (front ++ [newParam]) ++ rest := by
        rw [Branch.kids_setKid, kids, List.append_assoc, List.singleton_append,
          List.set_append_right _ _ (Nat.le_refl _), Nat.sub_self, List.set_cons_zero]
      refine (ih becomes.stands kidsNew (fun other member => raw other (List.mem_cons_of_mem _ member))
        fun other member => aside other (List.mem_cons_of_mem _ member)).bind ?_
      rintro others last _ becomesLast
        ⟨more, rfl, types, allAsleep, remains, laterEnvironment, laterScopes⟩
      refine .pure becomesLast.stands ⟨newParam :: more, ?_, ?_, ?_,
        .cons (.inr ⟨becomesParam.turns.id, becomesParam.turns.note⟩) remains,
        laterEnvironment.trans environment, laterScopes.trans scopes⟩
      · rw [List.append_assoc, List.singleton_append]
        rfl
      · rw [List.map_cons, List.map_cons, typed, types]
      · exact List.forall_mem_cons.mpr ⟨asleep, allAsleep⟩

/-! ### Bodies -/

theorem run_exitFunction (state : CheckState) :
    exitFunction.run.run state =
      match state.scopes.exitFunction with
      | .ok (scope, rest) => .ok (.ok scope, { state with scopes := rest })
      | .error fault => .error (.scope fault) := by
  rw [exitFunction, run_bind]
  have reads : (scopes).run.run state = .ok (.ok state.scopes, state) := rfl
  rw [reads]
  dsimp only
  cases state.scopes.exitFunction <;> rfl

theorem run_leaveFunction (state : CheckState) :
    leaveFunction.run.run state =
      match state.scopes.exitFunction with
      | .ok (scope, rest) => .ok (.ok (scope.returnType.getD .void), { state with scopes := rest })
      | .error fault => .error (.scope fault) := by
  rw [leaveFunction, run_bind, run_exitFunction]
  cases state.scopes.exitFunction <;> rfl

theorem run_functionBody (id body : NodeId) (name : String) (written : Option Ty)
    (params : List (String × Ty)) (state : CheckState) :
    (functionBody visit id body name written params).run.run state =
      match (visit body).run.run (state.entered name written params) with
      | .error fault => .error fault
      | .ok (result, later) =>
        let replaced := match result with
          | .ok _ => later
          | .error failure => { later with
            tree := later.tree.setChild id .body failure.replacement
            errors := later.errors ++ [failure.error] }
        match replaced.scopes.exitFunction with
        | .ok (scope, rest) => .ok (.ok (scope.returnType.getD .void), { replaced with scopes := rest })
        | .error fault => .error (.scope fault) := by
  have entered : (functionBody visit id body name written params).run.run state =
      (checkBody visit id body).run.run (state.entered name written params) := by
    cases written <;> rfl
  rw [entered, checkBody, run_bind, run_attempt]
  cases (visit body).run.run (state.entered name written params) with
  | error fault => rfl
  | ok answer =>
      obtain ⟨result, later⟩ := answer
      cases result with
      | ok ty => exact run_leaveFunction later
      | error failure => exact run_leaveFunction _

theorem setChild_eq {tree : Tree} (top : tree.get branch.id = branch.node)
    (stands : old.tree.Stands branch) {label : Label} (isKid : branch.Kid label index kid)
    (child : NodeId) : tree.setChild branch.id label child = tree.replaceAt branch.id index child := by
  refine tree.modify_congr ?_
  have present : branch.node.indexOf? label = some index := by
    rw [← stands.holds.get_eq, stands.holds.indexOf?_eq]
    exact isKid.first
  simp only [top, Node.setChild, present]

/-- What a step inside a function keeps is kept once the function is left. -/
theorem keeps_left {quiet : Calm} {scope : FunctionScope} {new last : CheckState}
    (enters : calm.Enters quiet)
    (keeps : quiet.Keeps
      { old with scopes := { old.scopes with functions := scope :: old.scopes.functions } } new)
    (environment : last.environment = new.environment) (scopes : last.scopes = old.scopes) :
    calm.Keeps old last := by
  let inner : CheckState :=
    { old with scopes := { old.scopes with functions := scope :: old.scopes.functions } }
  have place : inner.place = old.place.enter := by
    simp [CheckState.place, CheckState.mode, Place.enter, inner, ScopeStack.inFunction,
      ScopeStack.hasLocalScope, ScopeStack.visible]
  refine ⟨fun _ => by rw [scopes], fun isStill => ?_, fun name spared => ?_⟩
  · rw [environment]
    exact keeps.still (enters.still _ isStill)
  · rw [environment]
    exact keeps.spares name (place ▸ enters.spares _ name spared)

/-- The body of a function is settled for the return type that the function has after it. -/
theorem functionBody_yields {body : Branch} (visits : Visits premise visit)
    (stands : old.tree.Stands branch) (later : premise.loaded.nodes.size ≤ old.tree.nodes.size)
    (isBody : branch.Kid .body index body)
    (raw : Raw premise body) (enters : calm.Enters body.stored.calm)
    (name : String) (written : Option Ty) (params : List (String × Ty)) :
    (functionBody visit branch.id body.id name written params).Yields calm old branch
      fun result new after => ∃ newBody returnType, result = Option.getD returnType .void ∧
        (∀ ty, written = some ty → returnType = some ty) ∧ newBody.label = body.label ∧
        after = branch.setKid index newBody ∧
        Settled premise old.environment new.moment returnType newBody ∧
        old.environment.Leads new.environment ∧ new.scopes = old.scopes := by
  obtain ⟨scope, isWritten, entered⟩ := old.entered_eq name written params
  let inner : CheckState :=
    { old with scopes := { old.scopes with functions := scope :: old.scopes.functions } }
  have standsInner : inner.tree.Stands branch := stands
  have visited := visits (old.entered name written params) body
    (by rw [entered]; exact stands.kid isBody.mem) (by rw [entered]; exact later) raw
  rw [entered] at visited
  unfold Yields at *
  rw [run_functionBody, entered]
  -- However the visit of the body ends, short of stopping, the function is left in the same way. Only
  -- what stands in the place of the body differs.
  split at visited
  · rename_i stopped
    rw [stopped]
    exact visited
  · rename_i ty new ran
    obtain ⟨newBody, becomes, _, settled⟩ := visited
    obtain ⟨left, exits, returns, evolves⟩ := becomes.evolves.scopes.exitFunction
    rw [ran]
    simp only [exits]
    rw [returns] at settled
    have whole := becomes.inside standsInner isBody.found
    refine ⟨branch.setKid index newBody, ⟨whole.turns, ⟨becomes.evolves.environment, .refl _,
      becomes.evolves.errors, becomes.evolves.warnings, becomes.evolves.log⟩,
      keeps_left enters becomes.keeps rfl rfl, whole.accounts⟩, newBody, left.returnType, rfl, ?_,
      becomes.turns.label, rfl, settled.2, becomes.evolves.environment, trivial⟩
    exact fun ty isSome => evolves.returnType ty (isWritten.trans isSome)
  · rename_i failure new ran
    obtain ⟨left, exits, returns, evolves⟩ := visited.evolves.scopes.exitFunction
    have turns := (visited.replaced stands isBody.found).2
    have top : new.tree.get branch.id = branch.node := by
      rw [visited.frame _ stands.holds.bound (stands.id_notMem isBody.mem), stands.holds.get_eq]
    rw [ran]
    simp only [exits, setChild_eq top stands isBody]
    refine ⟨branch.setKid index (failure.leaf body.label), ⟨turns, ⟨
      visited.evolves.environment, .refl _, visited.evolves.errors.trans (List.prefix_append _ _),
      visited.evolves.warnings, visited.evolves.log⟩, keeps_left enters visited.keeps rfl rfl,
      visited.recorded isBody.found⟩, failure.leaf body.label, left.returnType, rfl, ?_, rfl, rfl,
      settled_leaf failure body.label visited.evolves.environment, visited.evolves.environment,
      trivial⟩
    exact fun ty isSome => evolves.returnType ty (isWritten.trans isSome)

/-! ### Declarations -/

structure Sketch (premise : Premise) (environment : Environment) (written : Option Ty)
    (params : List Ty) (branch : Branch) : Prop where
  tag : branch.node.tag = .funcDecl
  unbound : branch.node.binding = .unbound
  asleep : ∀ kid ∈ branch.kids, kid.Asleep premise
  name : ∀ index kid, branch.Kid .name index kid → ∀ ty, (kid.typed ty).Asleep premise
  written : (written = none ∧ branch.first? .type = none) ∨
    ∃ ty index kid, written = some ty ∧ branch.Kid .type index kid ∧
      (∀ ty, (kid.typed ty).Asleep premise) ∧
      environment.resolveType (kid.node.text.getD "") = .ok ty
  params : (((branch.first? .param).map Branch.kids).getD []).map (·.node.ty) = params.map some
  body : ∀ index kid, branch.Kid .body index kid → Raw premise kid

theorem ruled_function {new : CheckState} {returnType : Option Ty} {ty : Ty}
    (isFunction : branch.node.tag = .funcDecl) (leads : first.Leads new.environment)
    (facts : (branch.typed ty).Declares new.environment returnType)
    (kids : ∀ kid ∈ branch.kids, Settled premise first new.moment returnType kid) :
    Ruled premise first ty new branch := by
  have isFact : (branch.typed ty).Facts premise new.environment new.errors returnType := by
    unfold Branch.Facts
    simp only [Branch.typed, Branch.node_alter, isFunction]
    exact facts
  have other : (branch.typed ty).node.binding.isTied = false := by
    rcases facts.1 with unbound | ⟨globalId, isGlobal⟩
    · rw [unbound]
      rfl
    · rw [isGlobal]
      rfl
  let event : Event := .typed branch.id new.environment
  have noted : new.moment.Leads (new.noted event).moment := (CheckState.Evolves.noted new event).moment
  exact ⟨.checked leads noted isFact (.ofOther other) (fun _ => Log.holds_note new.log event)
    (fun opened => absurd isFunction opened)
    fun kid member => (kids kid member).mono noted fun _ known => known,
    fun isList => by simp [isFunction] at isList⟩

section Sketches

variable {environment : Environment} {written : Option Ty} {params : List Ty}

theorem Sketch.annotation {kid : Branch}
    (sketch : Sketch premise environment written params branch)
    (isType : branch.first? .type = some kid) : ∃ ty, written = some ty ∧
      (∀ ty, (kid.typed ty).Asleep premise) ∧
      environment.resolveType (kid.node.text.getD "") = .ok ty := by
  rcases sketch.written with ⟨_, absent⟩ | ⟨ty, _, other, isSome, isOther, asleep, resolved⟩
  · rw [absent] at isType
    cases isType
  · rw [isOther.first?, Option.some.injEq] at isType
    subst isType
    exact ⟨ty, isSome, asleep, resolved⟩

theorem prototype_yields (stands : old.tree.Stands branch) (leads : first.Leads old.environment)
    (sketch : Sketch premise environment written params branch)
    {name : String} (noBody : branch.first? .body = none) (loud : ∀ mode, ¬ calm.still mode)
    (named : ∀ place, ¬ calm.spares place name) (nameNode : NodeId) (ty : Ty) :
    (prototype branch.id nameNode name ty).Yields calm old branch (Ruled premise first) := by
  refine .bindRead stands ?_
  split
  · exact .failAt stands _ rfl
  · refine (declareGlobal_yields stands (loud _) (named _) ty nameNode).bind ?_
    rintro globalId new after becomes ⟨rfl, _, _, evolves, _⟩
    let done := after.alter fun node => { node with done := true }
    have turns : new.tree.Turns after (new.tree.markDone after.id) done :=
      .alter becomes.stands rfl rfl
    refine .bindRun rfl (.ofTree turns (Branch.notes_alter ?_)) (.pure turns.stands ?_)
    · rw [Node.notes_other (by simp [sketch.tag]), Node.notes_other (by simp [sketch.tag])]
    have absent : (done.typed .void).first? .body = none := noBody
    have facts : (done.typed .void).Declares new.environment none :=
      ⟨.inl sketch.unbound, fun isSome => by simp [absent] at isSome⟩
    exact ruled_function sketch.tag (leads.trans evolves.environment) facts
      fun kid member => sketch.asleep kid member _ _ _

structure Worked (premise : Premise) (first : Environment) (params : List Ty)
    (returnType : Option Ty) (place : Nat) (named : Branch) (state : CheckState)
    (branch : Branch) : Prop where
  tag : branch.node.tag = .funcDecl
  isName : branch.Kid .name place named
  asleep : ∀ ty, (named.typed ty).Asleep premise
  kids : ∀ kid ∈ branch.kids, Settled premise first state.moment returnType kid
  params : (((branch.first? .param).map Branch.kids).getD []).map (·.node.ty) = params.map some

/-- The annotation of a function takes the type that the function returns. -/
theorem setAnnotation_yields {returnType : Option Ty} {named : Branch} {place : Nat} {result : Ty}
    (stands : old.tree.Stands branch)
    (worked : Worked premise first params returnType place named old branch)
    (asleep : ∀ index kid, branch.Kid .type index kid → (kid.typed result).Asleep premise) :
    ( setAnnotation branch.id result).Yields calm old branch fun _ new after =>
      new.environment = old.environment ∧
        Worked premise first params returnType place named new after ∧
        after.first? .type = (branch.first? .type).map (·.typed result) := by
  refine .bindRead stands ?_
  rw [stands.holds.child?_eq]
  cases found : branch.first? .type with
  | none => exact .pure stands ⟨rfl, worked, found⟩
  | some kid =>
      obtain ⟨index, isType⟩ := Branch.first?_eq_some_iff.mp found
      have turns : old.tree.Turns kid (old.tree.setType kid.id result) (kid.typed result) :=
        .alter (stands.kid isType.mem) rfl rfl
      have becomes : Becomes calm old kid _ (kid.typed result) :=
        .ofTree turns (Branch.notes_alter rfl)
      have sameLabel : (kid.typed result).label = kid.label := rfl
      refine .ofRun rfl (becomes.inside stands isType.found) ⟨rfl, ⟨worked.tag, ?_, worked.asleep,
        ?_, ?_⟩, (isType.setKid_self sameLabel).first?⟩
      · exact worked.isName.setKid_other isType.found sameLabel
          (isType.ne worked.isName (by decide))
      · intro other member
        rcases List.mem_or_eq_of_mem_set member with isOld | rfl
        · exact worked.kids other isOld
        · exact asleep index kid isType _ _ _
      · rw [Branch.first?_setKid_other isType sameLabel (by decide)]
        exact worked.params

/-- The end of a function with a body, which becomes a global of its type. -/
theorem bound_yields {returnType : Option Ty} {named : Branch} {place : Nat} {name : String}
    (stands : old.tree.Stands branch) (leads : first.Leads old.environment)
    (worked : Worked premise first params returnType place named old branch)
    (isWritten : ∀ kid, branch.first? .type = some kid →
      kid.node.ty = some (returnType.getD .void) ∧ ∃ earlier, Environment.Leads earlier
        old.environment ∧ earlier.resolveType (kid.node.text.getD "") = .ok (returnType.getD .void))
    (loud : ∀ mode, ¬ calm.still mode) (exposed : ∀ place, ¬ calm.spares place name) :
    (holdFunction branch.id named.id name params (returnType.getD .void)).Yields calm old branch
      (Ruled premise first) := by
  obtain ⟨isTag, isName, asleep, kids, typed⟩ := worked
  let result := returnType.getD .void
  have turnsName : old.tree.Turns named (old.tree.setType named.id result) (named.typed result) :=
    .alter (stands.kid isName.mem) rfl rfl
  have becomesName : Becomes calm old named _ (named.typed result) :=
    .ofTree turnsName (Branch.notes_alter rfl)
  have becomes := becomesName.inside stands isName.found
  refine .bindRun rfl becomes ?_
  refine (declareGlobal_yields becomes.stands (loud _) (exposed _) (.fn params result)
    named.id).bind ?_
  rintro globalId new _ becomesNew ⟨rfl, _, _, evolves, bound, declared⟩
  let declaring := branch.setKid place (named.typed result)
  let stored := declaring.alter fun node => { node with binding := .field .set (.global globalId) }
  have turns : new.tree.Turns declaring
      (new.tree.setBinding branch.id (.field .set (.global globalId))) stored :=
    .alter becomesNew.stands rfl rfl
  refine .bindRun rfl (.ofTree turns (Branch.notes_alter rfl)) (.pure turns.stands ?_)
  have facts : (stored.typed .void).Declares new.environment returnType := by
    refine ⟨.inr ⟨globalId, rfl⟩, fun _ => ⟨globalId, params, rfl, bound, declared, ?_, ?_⟩⟩
    · have sameParams : (stored.typed .void).first? .param = branch.first? .param :=
        Branch.first?_setKid_other isName rfl (by decide)
      rw [sameParams]
      exact typed
    · intro kid isType
      have sameType : (stored.typed .void).first? .type = branch.first? .type :=
        Branch.first?_setKid_other isName rfl (by decide)
      rw [sameType] at isType
      obtain ⟨isTyped, earlier, before, resolved⟩ := isWritten kid isType
      exact ⟨isTyped, earlier, before.trans evolves.environment, resolved⟩
  refine ruled_function isTag (leads.trans evolves.environment) facts ?_
  intro kid member
  rcases List.mem_or_eq_of_mem_set member with isOld | rfl
  · exact (kids kid isOld).mono evolves.moment fun _ known => known
  · exact asleep result _ _ _

/-- A function with a body becomes a global once the body is checked. -/
theorem declared_yields (visits : Visits premise visit) (stands : old.tree.Stands branch)
    (later : premise.loaded.nodes.size ≤ old.tree.nodes.size)
    (sketch : Sketch premise environment written params branch) {named body : Branch} {place : Nat}
    (leads : environment.Leads old.environment)
    (isName : branch.Kid .name place named) (isBody : branch.Kid .body index body) {name : String}
    (enters : calm.Enters body.stored.calm) (loud : ∀ mode, ¬ calm.still mode)
    (exposed : ∀ place, ¬ calm.spares place name) (given : List (String × Ty))
    (same : given.map (·.2) = params) :
    (define visit branch.id named.id body.id name written given).Yields calm old branch
      (Ruled premise old.environment) := by
  refine (functionBody_yields visits stands later isBody (sketch.body index body isBody)
    enters name written given).bind ?_
  rintro _ new _ becomes ⟨newBody, returnType, rfl, isWritten, label, rfl, settled, leadsNew, _⟩
  have other := fun {wanted : Label} (differs : Label.body ≠ wanted) =>
    @Branch.first?_setKid_other _ _ _ _ _ _ isBody label differs
  subst same
  have worked : Worked premise old.environment (given.map (·.2)) returnType place named new
      (branch.setKid index newBody) := by
    refine ⟨sketch.tag, isName.setKid_other isBody.found label (isBody.ne isName (by decide)),
      sketch.name place named isName, fun kid member => ?_, ?_⟩
    · rcases List.mem_or_eq_of_mem_set member with isOld | rfl
      · exact sketch.asleep kid isOld _ _ _
      · exact settled
    · rw [other (by decide)]
      exact sketch.params
  refine (setAnnotation_yields becomes.stands worked ?_).bind ?_
  · intro spot kid isType
    obtain ⟨_, _, asleep, _⟩ := sketch.annotation ((other (by decide)).symm.trans isType.first?)
    exact asleep _
  · rintro _ last after becomesLast ⟨sameLast, workedLast, isAnnotated⟩
    have sameId : after.id = branch.id := becomesLast.turns.id
    rw [← sameId]
    refine bound_yields becomesLast.stands (sameLast ▸ leadsNew) workedLast ?_ loud exposed
    intro kid isType
    rw [isAnnotated, other (by decide), Option.map_eq_some_iff] at isType
    obtain ⟨unannotated, isType, rfl⟩ := isType
    obtain ⟨ty, isSome, _, resolved⟩ := sketch.annotation isType
    rw [isWritten ty isSome]
    exact ⟨rfl, environment, leads.trans (sameLast ▸ leadsNew), resolved⟩

end Sketches

structure Headed (premise : Premise) (environment : Environment) (written : Option Ty)
    (branch : Branch) : Prop where
  tag : branch.node.tag = .funcDecl
  unbound : branch.node.binding = .unbound
  asleep : ∀ kid ∈ branch.kids, kid.Asleep premise
  raw : ∀ label index kid, label ≠ .type → branch.Kid label index kid → Raw premise kid
  name : ∀ index kid, branch.Kid .name index kid → premise.aside kid.node.tag
  written : (written = none ∧ branch.first? .type = none) ∨
    ∃ ty index kid, written = some ty ∧ branch.Kid .type index kid ∧
      (∀ ty, (kid.typed ty).Asleep premise) ∧
      environment.resolveType (kid.node.text.getD "") = .ok ty
  params : ∀ index list, branch.Kid .param index list → ∀ param ∈ list.kids,
    premise.aside param.node.tag ∧
      ∀ index kid, param.Kid .type index kid → premise.aside kid.node.tag

/-- What the names, annotations and parameters of a function may be. -/
theorem asides_function (allows : premise.Allows branch.stored)
    (isTag : branch.node.tag = .funcDecl) :
    (∀ index kid, branch.Kid .name index kid → premise.aside kid.node.tag) ∧
      (∀ index kid, branch.Kid .type index kid → premise.aside kid.node.tag) ∧
      ∀ index list, branch.Kid .param index list → ∀ param ∈ list.kids,
        premise.aside param.node.tag ∧
          ∀ index kid, param.Kid .type index kid → premise.aside kid.node.tag := by
  have asides := allows.aside
  simp only [StoredNode.asides, Branch.tag_stored, isTag, List.mem_append, List.mem_filterMap,
    Branch.first?_stored] at asides
  refine ⟨?_, ?_, ?_⟩
  · intro index kid isKid
    rw [← Branch.tag_stored]
    exact asides kid.stored (.inl ⟨.name, by simp, by rw [isKid.first?]; rfl⟩)
  · intro index kid isKid
    rw [← Branch.tag_stored]
    exact asides kid.stored (.inl ⟨.type, by simp, by rw [isKid.first?]; rfl⟩)
  · intro index list isList param member
    have isParam : ∀ node, node ∈ param.stored :: (param.stored.first? .type).toList →
        premise.aside node.tag := by
      intro node isNode
      refine asides node (.inr ?_)
      rw [isList.first?, Option.map_some, Option.map_some, Option.getD_some, Branch.children_stored,
        List.mem_flatMap]
      exact ⟨param.stored, List.mem_map_of_mem member, isNode⟩
    refine ⟨?_, ?_⟩
    · rw [← Branch.tag_stored]
      exact isParam _ List.mem_cons_self
    · intro place kid isKid
      rw [← Branch.tag_stored]
      refine isParam _ (List.mem_cons_of_mem _ ?_)
      rw [isKid.first?_stored]
      exact List.mem_singleton_self _

theorem headed_yields (stands : old.tree.Stands branch) (raw : Raw premise branch)
    (isTag : branch.node.tag = .funcDecl) :
    ( annotation? branch.id .type).Yields calm old branch fun written new after =>
      new.environment = old.environment ∧ after.id = branch.id ∧
        Headed premise old.environment written after ∧
        (∀ index kid, branch.Kid .name index kid → after.Kid .name index kid) ∧
        ∀ index kid, after.Kid .body index kid → branch.Kid .body index kid := by
  obtain ⟨asideName, asideType, asideParams⟩ := asides_function raw.top isTag
  refine (annotation?_yields stands).mono ?_
  rintro written new after _ ⟨environment, _, ⟨rfl, rfl, rfl, absent⟩ | found⟩
  · refine ⟨environment, rfl, ⟨isTag, raw.blank.binding_eq, fun kid member _ _ _ =>
      (raw.kid member).settled, fun _ _ kid _ isKid => raw.kid isKid.mem, asideName,
      .inl ⟨rfl, absent⟩, asideParams⟩, fun _ _ isKid => isKid, fun _ _ isKid => isKid⟩
  · obtain ⟨ty, spot, annotated, rfl, isType, rfl, resolved⟩ := found
    have asleep : ∀ ty, (annotated.typed ty).Asleep premise := fun ty _ _ _ =>
      (raw.kid isType.mem).typed (asideType spot annotated isType) ty
    have sameLabel : (annotated.typed ty).label = annotated.label := rfl
    have wasKid : ∀ {label index kid}, label ≠ .type →
        (branch.setKid spot (annotated.typed ty)).Kid label index kid →
          branch.Kid label index kid :=
      fun different isKid => isKid.of_setKid isType sameLabel (Ne.symm different)
    refine ⟨environment, rfl, ⟨isTag, raw.blank.binding_eq, ?_, ?_, ?_, ?_, ?_⟩, ?_,
      fun _ _ isBody => wasKid (by decide) isBody⟩
    · intro kid member
      rcases List.mem_or_eq_of_mem_set member with isOld | rfl
      · exact fun _ _ _ => (raw.kid isOld).settled
      · exact asleep ty
    · exact fun _ _ kid different isKid => raw.kid (wasKid different isKid).mem
    · exact fun index kid isKid => asideName index kid (wasKid (by decide) isKid)
    · exact .inr ⟨ty, spot, annotated.typed ty, rfl, isType.setKid_self sameLabel, asleep, resolved⟩
    · exact fun index list isList => asideParams index list (wasKid (by decide) isList)
    · exact fun index kid isKid => isKid.setKid_other isType.found sameLabel
        (isType.ne isKid (by decide))

theorem Headed.sketch {environment : Environment} {written : Option Ty}
    (headed : Headed premise environment written branch) (none : branch.first? .param = none) :
    Sketch premise environment written [] branch := by
  refine ⟨headed.tag, headed.unbound, headed.asleep, ?_, headed.written, ?_, ?_⟩
  · intro index kid isKid ty _ _ _
    exact (headed.raw .name index kid (by decide) isKid).typed (headed.name index kid isKid) ty
  · rw [none]
    rfl
  · exact fun index kid isKid => headed.raw .body index kid (by decide) isKid

theorem listed_yields {environment : Environment} {written : Option Ty} {list : Branch}
    (stands : old.tree.Stands branch) (headed : Headed premise environment written branch)
    (isList : branch.Kid .param index list) :
    (childIds list.id >>= parameters).Yields calm old branch fun params new after =>
      new.environment = old.environment ∧ after.id = branch.id ∧
        Sketch premise environment written (params.map (·.2)) after ∧
        (∀ index kid, branch.Kid .name index kid → after.Kid .name index kid) ∧
        ∀ index kid, after.Kid .body index kid → branch.Kid .body index kid := by
  have rawList := headed.raw .param index list (by decide) isList
  have standsList := stands.kid isList.mem
  have listed := @parameters_yields _ calm _ _ _ _ standsList (List.nil_append _).symm
    (fun param member => rawList.kid member) (headed.params index list isList)
  refine .bindRead stands ?_
  rw [standsList.holds.childIds_eq]
  refine (listed.inside stands isList.found).mono ?_
  rintro params new _ _ ⟨_, _, ⟨typed, rfl, types, asleep, remains, same, _⟩, rfl⟩
  rw [List.nil_append]
  have sameLabel : (list.withKids typed).label = list.label := rfl
  have wasKid : ∀ {label index kid}, label ≠ .param →
      (branch.setKid _ (list.withKids typed)).Kid label index kid → branch.Kid label index kid :=
    fun different isKid => isKid.of_setKid isList sameLabel (Ne.symm different)
  refine ⟨same, rfl, ⟨headed.tag, headed.unbound, ?_, ?_, ?_, ?_, ?_⟩, ?_,
    fun _ _ isBody => wasKid (by decide) isBody⟩
  · intro kid member
    rcases List.mem_or_eq_of_mem_set member with isOld | rfl
    · exact headed.asleep kid isOld
    · exact fun _ _ _ => .idle (rawList.idle rfl rfl rfl rawList.untyped fun _ => remains)
        fun kid member => asleep kid member _ _ _
  · intro position kid isKid ty _ _ _
    have isOld := wasKid (by decide) isKid
    exact (headed.raw .name position kid (by decide) isOld).typed (headed.name position kid isOld) ty
  · rcases headed.written with ⟨isNone, absent⟩ | ⟨ty, place, kid, isSome, isType, rest⟩
    · refine .inl ⟨isNone, ?_⟩
      rw [Branch.first?_setKid_other isList sameLabel (by decide)]
      exact absent
    · exact .inr ⟨ty, place, kid, isSome, isType.setKid_other isList.found sameLabel
        (isList.ne isType (by decide)), rest⟩
  · rw [(isList.setKid_self sameLabel).first?, List.map_map]
    exact types
  · exact fun position kid isKid => headed.raw .body position kid (by decide) (wasKid (by decide) isKid)
  · exact fun position kid isKid => isKid.setKid_other isList.found sameLabel
      (isList.ne isKid (by decide))

theorem parameterList_yields {environment : Environment} {written : Option Ty}
    (stands : old.tree.Stands branch) (headed : Headed premise environment written branch) :
    (parameterList branch.id).Yields calm old branch fun params new after =>
      new.environment = old.environment ∧ after.id = branch.id ∧
        Sketch premise environment written (params.map (·.2)) after ∧
        (∀ index kid, branch.Kid .name index kid → after.Kid .name index kid) ∧
        ∀ index kid, after.Kid .body index kid → branch.Kid .body index kid := by
  refine .bindRead stands ?_
  rw [stands.holds.child?_eq]
  cases found : branch.first? .param with
  | none =>
      exact .pure stands
        ⟨rfl, rfl, headed.sketch found, fun _ _ isName => isName, fun _ _ isBody => isBody⟩
  | some list =>
      obtain ⟨index, isList⟩ := Branch.first?_eq_some_iff.mp found
      exact listed_yields stands headed isList

/-- What is left of a declaration once the parameters and the annotation have types. -/
theorem sketched_yields {environment : Environment} {written : Option Ty} {named : Branch}
    {place : Nat} (visits : Visits premise visit) (stands : old.tree.Stands branch)
    (later : premise.loaded.nodes.size ≤ old.tree.nodes.size)
    (leads : environment.Leads old.environment) (isName : branch.Kid .name place named)
    (enters : ∀ index body, branch.Kid .body index body → calm.Enters body.stored.calm)
    (loud : ∀ mode, ¬ calm.still mode) {name : String}
    (exposed : ∀ place, ¬ calm.spares place name) (given : List (String × Ty))
    (sketch : Sketch premise environment written (given.map (·.2)) branch) :
    (declareFunction visit branch.id named.id name written given).Yields calm old branch
      (Ruled premise old.environment) := by
  refine .bindRead stands ?_
  rw [stands.holds.child?_eq]
  cases found : branch.first? .body with
  | none => exact prototype_yields stands .refl sketch found loud exposed named.id _
  | some body =>
      obtain ⟨index, isBody⟩ := Branch.first?_eq_some_iff.mp found
      exact declared_yields visits stands later sketch leads isName isBody (enters index body isBody)
        loud exposed given rfl

theorem funcDecl_yields (visits : Visits premise visit) (stands : old.tree.Stands branch)
    (later : premise.loaded.nodes.size ≤ old.tree.nodes.size) (raw : Raw premise branch)
    (isTag : branch.node.tag = .funcDecl)
    (enters : ∀ index body, branch.Kid .body index body → calm.Enters body.stored.calm)
    (loud : ∀ mode, ¬ calm.still mode)
    (exposed : ∀ place name, calm.spares place name → branch.stored.exposed? place ≠ some name) :
    (funcDecl visit branch.id).Yields calm old branch (Ruled premise old.environment) := by
  rw [funcDecl_eq]
  refine .bindRequired stands ?_
  intro place named isName
  refine .bindRead stands ?_
  have isExposed : ∀ place, ¬ calm.spares place (old.tree.text named.id) := by
    refine fun place spared => exposed _ _ spared ?_
    rw [(stands.kid isName.mem).holds.text_eq]
    simp [StoredNode.exposed?, isTag, isName.first?_stored]
  refine (headed_yields stands raw isTag).bind ?_
  rintro written new after becomes ⟨same, sameId, headed, names, bodies⟩
  rw [← sameId]
  refine (parameterList_yields becomes.stands headed).bind ?_
  rintro params final last becomesLast ⟨sameLast, sameIdLast, sketch, namesLast, bodiesLast⟩
  rw [← same, ← sameLast] at sketch ⊢
  rw [← sameIdLast]
  have laterLast := later.trans (becomes.turns.size.trans becomesLast.turns.size)
  exact sketched_yields visits becomesLast.stands laterLast .refl
    (namesLast place named (names place named isName)) (fun index body isBody =>
      enters index body (bodies index body (bodiesLast index body isBody))) loud isExposed params
    sketch

end Rule

end ScriptTyping
