import ScriptTyping.Proofs.Locality.Expression
import ScriptTyping.Proofs.Rule.Control
import ScriptTyping.Proofs.Rule.Function

/-!
The rules for statements end alike on a realm. What a block or a function opens is closed again,
whether its body succeeds or fails.
-/

namespace ScriptTyping

/-! ### Scopes of their own -/

section Scoped

variable {realm : Realm} {left right newLeft newRight : CheckState}

theorem Realm.Pairs.enter (pairs : realm.Pairs left right) (opened : ScopeStack) :
    realm.Pairs { left with scopes := opened } { right with scopes := opened } :=
  ⟨pairs.trees, pairs.environment, rfl⟩

theorem Realm.Advances.leave {opened closed : ScopeStack}
    (advances : realm.Advances { left with scopes := opened } { right with scopes := opened }
      newLeft newRight) (widens : left.scopes.Widens closed) :
    realm.Advances left right { newLeft with scopes := closed }
      { newRight with scopes := closed } :=
  ⟨advances.trees, advances.environment, advances.leads, rfl, widens, advances.errors,
    advances.warnings, advances.log⟩

end Scoped

namespace Check

variable {α : Type} {realm : Realm} {fits : α → Prop} {step other : Check α}

theorem inBlock_agrees (agrees : Agrees realm fits step other) :
    Agrees realm fits (inBlock step) (inBlock other) := by
  refine ⟨fun left right pairs => ?_⟩
  have runs := agrees.ends _ _ (pairs.enter left.scopes.beginBlock)
  rw [run_inBlock, run_inBlock, pairs.scopes]
  generalize step.run.run _ = ends at runs
  generalize other.run.run _ = otherEnds at runs
  cases runs with
  | gives reached advances =>
      obtain ⟨closed, ended, widens⟩ := advances.widens.evolves.endBlock_widens
      simp only [advances.scopes, ended]
      exact .gives reached (advances.leave widens)
  | fails inside advances =>
      obtain ⟨closed, ended, widens⟩ := advances.widens.evolves.endBlock_widens
      simp only [advances.scopes, ended]
      exact .fails inside (advances.leave widens)
  | stops allowed => exact .stops allowed
  | deeper => exact .deeper

theorem inBlockIf_agrees (agrees : Agrees realm fits step other) (wanted : Bool) :
    Agrees realm fits (inBlockIf wanted step) (inBlockIf wanted other) := by
  cases wanted with
  | true => exact inBlock_agrees agrees
  | false => exact agrees

end Check

namespace Rule

open Check

variable {realm : Realm} {id nameNode iterated target : NodeId} {visit other : Visit}

theorem functionBody_agrees (alike : Alike realm visit other) (inside : realm.inside id)
    {body : NodeId} (bodyIn : realm.inside body) (name : String) (written : Option Ty)
    (params : List (String × Ty)) :
    Agrees realm Any (functionBody visit id body name written params)
      (functionBody other id body name written params) := by
  refine ⟨fun left right pairs => ?_⟩
  obtain ⟨scope, _, entered⟩ := left.entered_eq name written params
  have enteredRight : right.entered name written params = { right with
      scopes := { left.scopes with functions := scope :: left.scopes.functions } } := by
    have same := congrArg (·.scopes) entered
    unfold CheckState.entered at same ⊢
    rw [pairs.scopes]
    exact congrArg (fun scopes => { right with scopes }) same
  have runs := (alike bodyIn).ends _ _
    (pairs.enter { left.scopes with functions := scope :: left.scopes.functions })
  rw [run_functionBody, run_functionBody, entered, enteredRight]
  generalize (visit body).run.run _ = ends at runs
  generalize (other body).run.run _ = otherEnds at runs
  cases runs with
  | @gives result newLeft newRight reached advances =>
      obtain ⟨later, exits, _⟩ := advances.widens.evolves.exitFunction
      simp only [advances.scopes, exits]
      exact .gives trivial (advances.leave (.refl _))
  | @fails failure newLeft newRight within advances =>
      obtain ⟨later, exits, _⟩ := advances.widens.evolves.exitFunction
      have replaced := advances.trees.joins.setChild inside .body within
      simp only [advances.scopes, exits]
      refine .gives trivial ⟨advances.trees.trans replaced, advances.environment, advances.leads, rfl,
        .refl _, ?_, advances.warnings, advances.log⟩
      exact advances.errors.trans ⟨[failure.error], rfl, rfl⟩
  | stops allowed => exact .stops allowed
  | deeper => exact .deeper

/-! ### Sequences -/

theorem statementsFrom_agrees (alike : Alike realm visit other) (inside : realm.inside id)
    (count index : Nat) (last : Ty) :
    Agrees realm Any (statementsFrom visit id last index count)
      (statementsFrom other id last index count) := by
  induction count generalizing index last with
  | zero => exact .pure trivial
  | succ count ih =>
      refine .bindTree fun left right joins => ?_
      rw [joins.childAt? inside]
      cases found : left.childAt? id index with
      | none => exact .pure trivial
      | some child =>
          refine .bind (alike (joins.closed.childAt? inside found)).attempt fun result fits => ?_
          cases result with
          | ok ty => exact ih (index + 1) ty
          | error failure =>
              refine .bind (replace_obeys inside fits) fun _ _ => ?_
              exact .bind (.recordError failure.error) fun _ _ => ih (index + 1) .never

theorem statements_agrees (alike : Alike realm visit other) (inside : realm.inside id) :
    Agrees realm Any (statements visit id) (statements other id) :=
  .bind (.childIds inside) fun _ _ => statementsFrom_agrees alike inside _ _ _

theorem statementList_agrees (alike : Alike realm visit other) (inside : realm.inside id) :
    Agrees realm Any (statementList visit id) (statementList other id) :=
  .bind (statements_agrees alike inside) fun _ _ => .pure trivial

theorem block_agrees (alike : Alike realm visit other) (inside : realm.inside id) :
    Agrees realm Any (block visit id) (block other id) :=
  .bind .scopes fun _ _ => inBlockIf_agrees (statementList_agrees alike inside) _

/-! ### Branches and loops -/

theorem assertionMessage_obeys (inside : realm.inside id) :
    Obeys realm Any (assertionMessage id) := by
  refine .bindTree fun left right joins => ?_
  have same : right.position? id = left.position? id := by
    rw [Tree.position?, joins.source, joins.span inside, Tree.position?]
  rw [same]
  cases found : left.position? id with
  | none => exact .pure trivial
  | some place =>
      cases place with
      | some position => exact .pure trivial
      | none =>
          obtain ⟨text, isText, overflows⟩ := Option.map_eq_some_iff.mp found
          refine .stop ⟨text, (left.span id).start, ?_, ?_, overflows⟩
          · rw [← joins.closed.source, isText]
          · exact (joins.closed.admits inside).start

theorem bindAssertion_obeys (inside : realm.inside id) : Obeys realm Any (bindAssertion id) :=
  .bind (setBinding_obeys inside _) fun _ _ => .pure trivial

theorem assertion_agrees (alike : Alike realm visit other) (inside : realm.inside id) :
    Agrees realm Any (assertion visit id) (assertion other id) := by
  refine .bind (enforce_agrees alike inside .cond .bool) fun condition conditionIn => ?_
  refine .bind (.has inside .msg) fun hasMessage _ => ?_
  cases hasMessage with
  | true =>
      exact .bind (enforce_agrees alike inside .msg .string) fun _ _ => bindAssertion_obeys inside
  | false =>
      refine .bind (assertionMessage_obeys conditionIn) fun text _ => ?_
      refine .bind (.spanOf conditionIn) fun span starts => ?_
      refine .bind (.build fun _ _ joins => joins.alloc ⟨starts, by simp⟩) fun message within => ?_
      refine .bind (make_obeys inside (by simp [conditionIn, within])) fun _ _ => ?_
      exact bindAssertion_obeys inside

theorem optional_agrees (alike : Alike realm visit other) (inside : realm.inside id)
    (label : Label) : Agrees realm Any (optional visit id label) (optional other id label) := by
  refine .bind (.child? inside label) fun found each => ?_
  cases found with
  | none => exact .pure trivial
  | some child => exact .bind (alike (each child rfl)) fun _ _ => .pure trivial

theorem visitRequired_agrees (alike : Alike realm visit other) (inside : realm.inside id)
    (label : Label) : Agrees realm Any (required id label >>= visit)
      (required id label >>= other) :=
  .bind (required_obeys inside label) fun _ within => alike within

theorem ifStmt_agrees (alike : Alike realm visit other) (inside : realm.inside id) :
    Agrees realm Any (ifStmt visit id) (ifStmt other id) := by
  refine .bind (enforce_agrees alike inside .cond .bool) fun _ _ => ?_
  refine .bind (required_obeys inside .thenBranch) fun branch branchIn => ?_
  refine .bind (alike branchIn) fun _ _ => ?_
  exact .bind (optional_agrees alike inside .elseBranch) fun _ _ => .pure trivial

theorem conditional_agrees (alike : Alike realm visit other) (inside : realm.inside id) :
    Agrees realm Any (conditional visit id) (conditional other id) := by
  refine .bind (enforce_agrees alike inside .cond .bool) fun _ _ => ?_
  refine .bind (required_obeys inside .thenBranch) fun branch branchIn => ?_
  refine .bind (alike branchIn) fun thenTy _ => ?_
  refine .bind (requiredSlot_obeys inside .elseBranch) fun slot slotIn => ?_
  refine .bind (occupant_obeys slotIn) fun node nodeIn => .bind (alike nodeIn) fun elseTy _ => ?_
  split
  · exact .pure trivial
  · exact .bind (coerce_obeys slotIn thenTy) fun _ _ => .pure trivial

theorem body_agrees (alike : Alike realm visit other) (inside : realm.inside id) :
    Agrees realm Any (body visit id) (body other id) := by
  refine .bind (required_obeys inside .body) fun node nodeIn => ?_
  exact .bind (alike nodeIn) fun _ _ => .pure trivial

theorem whileLoop_agrees (alike : Alike realm visit other) (inside : realm.inside id) :
    Agrees realm Any (whileLoop visit id) (whileLoop other id) :=
  .bind (enforce_agrees alike inside .cond .bool) fun _ _ => body_agrees alike inside

theorem loopSteps_agrees (alike : Alike realm visit other) (inside : realm.inside id) :
    Agrees realm Any (loopSteps visit id) (loopSteps other id) :=
  .bind (optional_agrees alike inside .iter) fun _ _ => body_agrees alike inside

theorem forLoop_agrees (alike : Alike realm visit other) (inside : realm.inside id) :
    Agrees realm Any (forLoop visit id) (forLoop other id) := by
  refine .bind .scopes fun scopes _ => inBlockIf_agrees ?_ _
  refine .bind (optional_agrees alike inside .init) fun _ _ => ?_
  refine .bind (.has inside .cond) fun hasCondition _ => ?_
  cases hasCondition with
  | true =>
      exact .bind (enforce_agrees alike inside .cond .bool) fun _ _ => loopSteps_agrees alike inside
  | false => exact loopSteps_agrees alike inside

theorem elementType_obeys (inside : realm.inside id) (ty : Ty) :
    Obeys realm Any (elementType id ty) := by
  unfold elementType
  split
  · exact .pure trivial
  · refine .bind .environment fun environment _ => ?_
    dsimp only
    split
    · exact .bind (setBinding_obeys inside _) fun _ _ => .pure trivial
    · exact reject_obeys inside _ _

theorem loopVariable_obeys (inside : realm.inside iterated) (written : Option Ty) (element : Ty) :
    Obeys realm Any (loopVariable iterated written element) := by
  cases written with
  | none => exact .pure trivial
  | some ty =>
      refine .bind .environment fun environment _ => ?_
      split
      · exact .pure trivial
      · exact failAt_obeys inside _

theorem loopOver_agrees (alike : Alike realm visit other) (inside : realm.inside id)
    (written : Option Ty) :
    Agrees realm Any (loopOver visit id written) (loopOver other id written) := by
  refine .bind (required_obeys inside .name) fun nameNode nameIn => ?_
  refine .bind (.textOf nameIn) fun name _ => ?_
  refine .bind (required_obeys inside .iter) fun iterated iteratedIn => ?_
  refine .bind (alike iteratedIn) fun iteratedTy _ => ?_
  refine .bind (elementType_obeys inside iteratedTy) fun element _ => ?_
  refine .bind (loopVariable_obeys iteratedIn written element) fun ty _ => ?_
  refine .bind (setType_obeys nameIn ty) fun _ _ => inBlock_agrees ?_
  refine .bind (.modifyScopes fun scopes => scopes.declare_widens name ty) fun _ _ => ?_
  exact body_agrees alike inside

theorem forEach_agrees (alike : Alike realm visit other) (inside : realm.inside id) :
    Agrees realm Any (forEach visit id) (forEach other id) := by
  rw [forEach_eq, forEach_eq]
  refine .bindAny ?_ fun written => loopOver_agrees alike inside written
  refine .bind (.child? inside .type) fun found each => ?_
  cases found with
  | none => exact .pure trivial
  | some node => exact .bind (denotation_obeys (each node rfl)) fun _ _ => .pure trivial

/-! ### Imports and functions -/

theorem path?_eq {left right : Tree} (joins : realm.Joins left right) (depth : Nat) {id : NodeId}
    (inside : realm.inside id) : right.path? depth id = left.path? depth id := by
  induction depth generalizing id with
  | zero => rfl
  | succ depth ih =>
      rw [Tree.path?, Tree.path?, joins.tag inside, joins.text inside, joins.child? inside]
      cases left.tag id with
      | field =>
          cases isFront : left.child? id .recv with
          | none => rfl
          | some front =>
              cases isName : left.child? id .name with
              | none => rfl
              | some name =>
                  simp only [Option.bind_eq_bind, Option.bind_some,
                    ih (joins.closed.child? inside isFront),
                    joins.text (joins.closed.child? inside isName)]
      | _ => rfl

theorem importDecl_obeys (inside : realm.inside id) : Obeys realm Any (importDecl id) := by
  refine .bind (requiredOrFirst_obeys inside .name) fun target targetIn => ?_
  refine .bindTree fun left right joins => ?_
  rw [joins.size, path?_eq joins _ targetIn, joins.text targetIn]
  split
  · exact failAt_obeys inside _
  · rename_i path _
    refine .bindEnvironment fun environment => ?_
    refine .bind (.setEnvironment (.single (.importNamespace environment path))) fun _ _ => ?_
    split
    · exact failAt_obeys inside _
    · exact .bind (markDone_obeys inside) fun _ _ => .pure trivial

theorem declareGlobal_obeys (inside : realm.inside nameNode) (name : String) (ty : Ty) :
    Obeys realm Any (declareGlobal name ty nameNode) := by
  refine .bindEnvironment fun environment => ?_
  split
  · rename_i declared
    exact .bind (.setEnvironment (.single (.declareGlobal declared))) fun _ _ => .pure trivial
  · exact (failAt_obeys inside _).within

theorem parameter_obeys (inside : realm.inside id) : Obeys realm Any (parameter id) := by
  refine .bind (.child? inside .name) fun found each => ?_
  have named : realm.inside (found.getD id) := by
    cases found with
    | none => exact inside
    | some node => exact each node rfl
  refine .bind (.textOf named) fun name _ => ?_
  refine .bind (annotation?_obeys inside .type) fun ty _ => ?_
  exact .bind (setType_obeys inside _) fun _ _ => .pure trivial

theorem parameters_obeys {ids : List NodeId} (each : ∀ id ∈ ids, realm.inside id) :
    Obeys realm Any (parameters ids) := by
  induction ids with
  | nil => exact .pure trivial
  | cons id rest ih =>
      refine .bind (parameter_obeys (each id List.mem_cons_self)) fun _ _ => ?_
      refine .bind (ih fun later member => each later (List.mem_cons_of_mem _ member)) fun _ _ => ?_
      exact .pure trivial

theorem prototype_obeys (inside : realm.inside id) (nameIn : realm.inside nameNode)
    (name : String) (ty : Ty) : Obeys realm Any (prototype id nameNode name ty) := by
  refine .bind .environment fun environment _ => ?_
  split
  · exact failAt_obeys nameIn _
  · refine .bind (declareGlobal_obeys nameIn name ty) fun _ _ => ?_
    exact .bind (markDone_obeys inside) fun _ _ => .pure trivial

theorem parameterList_obeys (inside : realm.inside id) :
    Obeys realm Any (parameterList id) := by
  refine .bind (.child? inside .param) fun found each => ?_
  cases found with
  | none => exact .pure trivial
  | some list => exact .bind (.childIds (each list rfl)) fun _ kids => parameters_obeys kids

theorem setAnnotation_obeys (inside : realm.inside id) (ty : Ty) :
    Obeys realm Any ( setAnnotation id ty) := by
  refine .bind (.child? inside .type) fun found each => ?_
  cases found with
  | none => exact .pure trivial
  | some node => exact setType_obeys (each node rfl) ty

theorem define_agrees (alike : Alike realm visit other) (inside : realm.inside id)
    (nameIn : realm.inside nameNode) {body : NodeId} (bodyIn : realm.inside body) (name : String)
    (written : Option Ty) (params : List (String × Ty)) :
    Agrees realm Any (define visit id nameNode body name written params)
      (define other id nameNode body name written params) := by
  refine .bind (functionBody_agrees alike inside bodyIn name written params) fun result _ => ?_
  refine .bind (setAnnotation_obeys inside result) fun _ _ => ?_
  refine .bind (setType_obeys nameIn result) fun _ _ => ?_
  refine .bind (declareGlobal_obeys nameIn name _) fun globalId _ => ?_
  exact .bind (setBinding_obeys inside _) fun _ _ => .pure trivial

theorem funcDecl_agrees (alike : Alike realm visit other) (inside : realm.inside id) :
    Agrees realm Any (funcDecl visit id) (funcDecl other id) := by
  rw [funcDecl_eq, funcDecl_eq]
  refine .bind (required_obeys inside .name) fun nameNode nameIn => ?_
  refine .bind (.textOf nameIn) fun name _ => ?_
  refine .bind (annotation?_obeys inside .type) fun written _ => ?_
  refine .bind (parameterList_obeys inside) fun params _ => ?_
  refine .bind (.child? inside .body) fun found each => ?_
  cases found with
  | none => exact prototype_obeys inside nameIn name _
  | some body => exact define_agrees alike inside nameIn (each body rfl) name written params

theorem fixReturn_obeys (ty : Ty) : Obeys realm Any (fixReturn ty) :=
  .bind (.modifyScopes fun scopes => scopes.setReturnType_widens ty) fun _ _ => .pure trivial

theorem firstReturn_agrees (alike : Alike realm visit other) (inside : realm.inside id) :
    Agrees realm Any (firstReturn visit id) (firstReturn other id) := by
  refine .bind (.child? inside .expr) fun found each => ?_
  cases found with
  | none => exact fixReturn_obeys .void
  | some child => exact .bind (alike (each child rfl)) fun ty _ => fixReturn_obeys ty

theorem returnStmt_agrees (alike : Alike realm visit other) (inside : realm.inside id) :
    Agrees realm Any (returnStmt visit id) (returnStmt other id) := by
  refine .bind .scopes fun scopes _ => ?_
  split
  · exact failAt_obeys inside _
  · split
    · exact firstReturn_agrees alike inside
    · refine .bind (.modifyTree fun _ _ joins => joins.removeChild inside .expr) fun _ _ => ?_
      exact .pure trivial
    · exact .bind (enforce_agrees alike inside .expr _) fun _ _ => .pure trivial

/-! ### Variables -/

theorem variableType_agrees (alike : Alike realm visit other) (inside : realm.inside id)
    (nameIn : realm.inside nameNode) (written : Option Ty) :
    Agrees realm Any (variableType visit id nameNode written)
      (variableType other id nameNode written) := by
  refine .bind (.has inside .expr) fun isInitialized _ => ?_
  cases written with
  | some ty =>
      cases isInitialized with
      | true => exact .bind (enforce_agrees alike inside .expr ty) fun _ _ => .pure trivial
      | false => exact .pure trivial
  | none =>
      cases isInitialized with
      | true => exact visitRequired_agrees alike inside .expr
      | false =>
          refine .bind (.textOf nameIn) fun text _ => ?_
          exact .bind (warnAt_obeys nameIn _) fun _ _ => .pure trivial

theorem globalStore_obeys (inside : realm.inside id) (globalId : GlobalId) :
    Obeys realm Any (globalStore id globalId) := by
  refine .bind (.modifyTree fun left right joins => ?_) fun _ _ => setBinding_obeys inside _
  have removed := joins.removeChild inside .type
  have named := removed.joins.relabel inside .name .left
  have valued := named.joins.relabel inside .expr .right
  exact ((removed.trans named).trans valued).trans (valued.joins.setTag inside rfl)

theorem varDecl_agrees (alike : Alike realm visit other) (inside : realm.inside id) :
    Agrees realm Any (varDecl visit id) (varDecl other id) := by
  refine .bind (required_obeys inside .name) fun nameNode nameIn => ?_
  refine .bind (.textOf nameIn) fun name _ => ?_
  refine .bind (annotation?_obeys inside .type) fun written _ => ?_
  refine .bind (.has inside .expr) fun isInitialized _ => ?_
  refine .bind (variableType_agrees alike inside nameIn written) fun ty _ => ?_
  refine .bind (setType_obeys nameIn ty) fun _ _ => .bind .scopes fun scopes _ => ?_
  split
  · refine .bind (.modifyScopes fun scopes => scopes.declare_widens name ty) fun _ _ => ?_
    exact .pure trivial
  · refine .bind (declareGlobal_obeys nameIn name ty) fun globalId _ => ?_
    split
    · exact .bind (globalStore_obeys inside globalId) fun _ _ => .pure trivial
    · exact .bind (markDone_obeys inside) fun _ _ => .pure trivial

/-! ### Assignments -/

theorem declareImplicit_obeys (inside : realm.inside target) :
    Obeys realm Any (declareImplicit target) := by
  refine .bindEnvironment fun environment => .bindRead (fun _ _ pairs => pairs.scopes) fun scopes => ?_
  refine .bindRead (fun _ _ pairs => pairs.trees.tag inside) fun tag => ?_
  split
  · refine .bindRead (fun _ _ pairs => pairs.trees.text inside) fun name => ?_
    split
    · split
      · rename_i declared
        exact .setEnvironment (.single (.declareGlobal declared))
      · exact (Agrees.pure trivial).within
    · exact (Agrees.pure trivial).within
  · exact (Agrees.pure trivial).within

theorem storeIndexed_agrees (alike : Alike realm visit other) (inside : realm.inside id)
    (targetIn : realm.inside target) :
    Agrees realm Any (storeIndexed visit id target) (storeIndexed other id target) := by
  refine .bind (required_obeys targetIn .recv) fun receiver receiverIn => ?_
  refine .bind (argumentList_obeys targetIn) fun indices indicesIn => ?_
  refine .bind (required_obeys inside .right) fun value valueIn => ?_
  refine .bind (.childIds indicesIn) fun items itemsIn => ?_
  refine .bind (.build fun _ _ joins => joins.sequence .list ?_) fun list listIn => ?_
  · exact List.forall_mem_append.mpr ⟨itemsIn, by simpa using valueIn⟩
  refine .bind (make_obeys inside (by simp [receiverIn, listIn])) fun _ _ => ?_
  exact accessor_agrees alike inside receiverIn listIn "set" _ _ _

theorem storeDynamic_agrees (alike : Alike realm visit other) (inside : realm.inside id)
    (targetIn : realm.inside target) :
    Agrees realm Any (storeDynamic visit id target) (storeDynamic other id target) := by
  refine .bind (.childIds targetIn) fun parts partsIn => ?_
  refine .bind (requiredSlot_obeys inside .right) fun slot slotIn => ?_
  refine .bind (occupant_obeys slotIn) fun node nodeIn => .bind (alike nodeIn) fun _ _ => ?_
  refine .bind (coerce_obeys slotIn .object) fun value valueIn => ?_
  refine .bind (flatten_obeys inside ?_) fun _ _ => ?_
  · exact List.forall_mem_append.mpr ⟨partsIn, by simpa using valueIn⟩
  · exact .bind (setBinding_obeys inside _) fun _ _ => .pure trivial

theorem storeMember_obeys (inside : realm.inside id) (targetIn : realm.inside target)
    (member : MemberId) : Obeys realm Any (storeMember id target member) := by
  refine .bind .environment fun environment _ => ?_
  dsimp only
  split
  · exact failAt_obeys targetIn _
  · split
    · refine .bind (.child? targetIn .recv) fun found each => ?_
      cases found with
      | none => exact .pure trivial
      | some receiver =>
          refine .modifyTree fun left right joins => ?_
          have moved := joins.setChild inside .left (each receiver rfl)
          exact moved.trans (moved.joins.relabel inside .left .recv)
    · exact .pure trivial

theorem bindPlace_obeys (inside : realm.inside id) (place : FieldTarget) :
    Obeys realm Any (bindPlace id place) := by
  refine .bind (.modifyTree fun _ _ joins => joins.relabel inside .right .expr) fun _ _ => ?_
  exact setBinding_obeys inside _

theorem bindStore_obeys (inside : realm.inside id) (targetIn : realm.inside target) :
    Obeys realm Any (bindStore id target) := by
  refine .bind (.bindingOf targetIn) fun binding _ => ?_
  split
  · rename_i place _
    cases place with
    | member member =>
        exact .bind (storeMember_obeys inside targetIn member) fun _ _ => bindPlace_obeys inside _
    | global globalId => exact bindPlace_obeys inside _
  · exact .pure trivial

theorem assign_agrees (alike : Alike realm visit other) (inside : realm.inside id) :
    Agrees realm Any (assign visit id) (assign other id) := by
  refine .bind (required_obeys inside .left) fun target targetIn => ?_
  refine .bind (declareImplicit_obeys targetIn) fun _ _ => .bind (.tagOf targetIn) fun tag _ => ?_
  split
  · exact storeIndexed_agrees alike inside targetIn
  · refine .bind (alike targetIn) fun ty _ => ?_
    refine .bindAny ?_ fun isRead => ?_
    · refine .bind (.bindingOf targetIn) fun binding _ => ?_
      split <;> exact .pure trivial
    · split
      · exact storeDynamic_agrees alike inside targetIn
      · refine .bind (enforce_agrees alike inside .right ty) fun _ _ => ?_
        exact .bind (bindStore_obeys inside targetIn) fun _ _ => .pure trivial

theorem compoundAssign_agrees (alike : Alike realm visit other) (op : CompoundOp)
    (inside : realm.inside id) :
    Agrees realm Any (compoundAssign visit op id) (compoundAssign other op id) := by
  refine .bind (required_obeys inside .left) fun target targetIn => ?_
  refine .bind (required_obeys inside .right) fun right rightIn => ?_
  refine .bind (.build fun _ _ joins => joins.dup targetIn) fun copy copyIn => ?_
  refine .bind (.build fun _ _ joins => joins.labelled _ (by simp [copyIn, rightIn])) ?_
  refine fun value valueIn => .bind (.modifyTree fun left right joins => ?_) fun _ _ => ?_
  · have placed := joins.setChild inside .right valueIn
    exact placed.trans (placed.joins.setTag inside rfl)
  · exact assign_agrees alike inside

end Rule

end ScriptTyping
