import ScriptTyping.Proofs.Plain.Expression

/-!
The rules for statements bring in no type variables, and so does a visit: what it declares and what
it writes into the tree has none.
-/

namespace ScriptTyping

open Ty (AllPlain)

namespace Rule

open Check

variable {visit : Visit} {ty : Ty} {written : Option Ty} {params : List (String × Ty)}

/-! ### Sequences -/

theorem statementsFrom_plain (visits : VisitsPlain visit) (id : NodeId) {last : Ty}
    (isLast : last.Plain) (index count : Nat) :
    StaysPlain Ty.Plain (statementsFrom visit id last index count) := by
  induction count generalizing index last with
  | zero => exact .pure isLast
  | succ count ih =>
      refine .bindRead fun tree => ?_
      split
      · exact .pure isLast
      · rename_i child _
        refine .bind (visits child).attempt fun result reached => ?_
        cases result with
        | ok ty => exact ih (reached ty rfl) (index + 1)
        | error failure =>
            have isNever : Ty.never.Plain := rfl
            refine .andThen (replace_plain _ _) fun _ => ?_
            exact .andThen (.recordError failure.error) fun _ => ih isNever (index + 1)

theorem statements_plain (visits : VisitsPlain visit) (id : NodeId) :
    StaysPlain Ty.Plain (statements visit id) := by
  have isVoid : Ty.void.Plain := rfl
  exact .bindRead fun _ => statementsFrom_plain visits id isVoid _ _

theorem statementList_plain (visits : VisitsPlain visit) (id : NodeId) :
    StaysPlain Ty.Plain (statementList visit id) :=
  .bind (statements_plain visits id) fun _ _ => .pure rfl

theorem block_plain (visits : VisitsPlain visit) (id : NodeId) :
    StaysPlain Ty.Plain (block visit id) :=
  .bindRead fun _ => inBlockIf_plain _ (statementList_plain visits id)

/-! ### Branches and loops -/

theorem assertionMessage_plain (id : NodeId) : KeepsPlain (assertionMessage id) := by
  refine .bindRead fun tree => ?_
  split
  · exact .pure trivial
  · exact .pure trivial
  · exact .stop _

theorem bindAssertion_plain (id : NodeId) : StaysPlain Ty.Plain (bindAssertion id) :=
  .andThen (bindStatic_plain id _) fun _ => .pure rfl

theorem assertion_plain (visits : VisitsPlain visit) (id : NodeId) :
    StaysPlain Ty.Plain (assertion visit id) := by
  refine .andThen (enforce_plain visits id .cond rfl) fun condition => .bindRead fun hasMessage => ?_
  cases hasMessage with
  | true => exact .andThen (enforce_plain visits id .msg rfl) fun _ => bindAssertion_plain id
  | false =>
      refine .andThen (assertionMessage_plain condition) fun text => .bindRead fun span => ?_
      refine .andThen (.build fun _ plain => plain.alloc ⟨fun _ isTy => ?_, trivial⟩) fun message => ?_
      · exact Option.some.inj isTy ▸ rfl
      · exact .andThen (make_plain id _) fun _ => bindAssertion_plain id

theorem optional_plain (visits : VisitsPlain visit) (id : NodeId) (label : Label) :
    KeepsPlain (optional visit id label) := by
  refine .bindRead fun found => ?_
  cases found with
  | none => exact .pure trivial
  | some child => exact .andThen (visits.keeps child) fun _ => .pure trivial

theorem visitRequired_plain (visits : VisitsPlain visit) (id : NodeId) (label : Label) :
    StaysPlain Ty.Plain (required id label >>= visit) :=
  .andThen (required_plain id label) visits

theorem ifStmt_plain (visits : VisitsPlain visit) (id : NodeId) :
    StaysPlain Ty.Plain (ifStmt visit id) := by
  refine .andThen (enforce_plain visits id .cond rfl) fun _ => ?_
  refine .andThen (required_plain id .thenBranch) fun branch => ?_
  refine .andThen (visits.keeps branch) fun _ => ?_
  exact .andThen (optional_plain visits id .elseBranch) fun _ => .pure rfl

theorem conditional_plain (visits : VisitsPlain visit) (id : NodeId) :
    StaysPlain Ty.Plain (conditional visit id) := by
  refine .andThen (enforce_plain visits id .cond rfl) fun _ => ?_
  refine .andThen (required_plain id .thenBranch) fun branch => ?_
  refine .bind (visits branch) fun thenTy isThen => ?_
  refine .andThen (requiredSlot_plain id .elseBranch) fun slot => ?_
  refine .andThen (occupant_plain slot) fun node => .andThen (visits.keeps node) fun elseTy => ?_
  split
  · exact .pure isThen
  · exact .andThen (coerce_plain slot isThen) fun _ => .pure isThen

theorem body_plain (visits : VisitsPlain visit) (id : NodeId) :
    StaysPlain Ty.Plain (body visit id) :=
  .andThen (required_plain id .body) fun node => .andThen (visits.keeps node) fun _ => .pure rfl

theorem whileLoop_plain (visits : VisitsPlain visit) (id : NodeId) :
    StaysPlain Ty.Plain (whileLoop visit id) :=
  .andThen (enforce_plain visits id .cond rfl) fun _ => body_plain visits id

theorem loopSteps_plain (visits : VisitsPlain visit) (id : NodeId) :
    StaysPlain Ty.Plain (loopSteps visit id) :=
  .andThen (optional_plain visits id .iter) fun _ => body_plain visits id

theorem forLoop_plain (visits : VisitsPlain visit) (id : NodeId) :
    StaysPlain Ty.Plain (forLoop visit id) := by
  refine .bindRead fun scopes => inBlockIf_plain _ ?_
  refine .andThen (optional_plain visits id .init) fun _ => .bindRead fun hasCondition => ?_
  cases hasCondition with
  | true => exact .andThen (enforce_plain visits id .cond rfl) fun _ => loopSteps_plain visits id
  | false => exact loopSteps_plain visits id

theorem elementType_plain (id : NodeId) {iterated : Ty} (isPlain : iterated.Plain) :
    StaysPlain Ty.Plain (elementType id iterated) := by
  unfold elementType
  split
  · rename_i found
    exact .pure (elementType?_plain isPlain found)
  · refine .bindRead fun environment => ?_
    dsimp only
    split
    · rename_i found
      have resolved := Environment.resolve_plain (Option.mem_filter_iff.mp found).1
      refine .andThen (setBinding_plain id resolved.typeArgs) fun _ => ?_
      exact .pure (resolved.result.args.headD rfl)
    · exact reject_plain id _ _

theorem loopVariable_plain (iterated : NodeId) (isWritten : ∀ ty ∈ written, ty.Plain)
    {element : Ty} (isElement : element.Plain) :
    StaysPlain Ty.Plain (loopVariable iterated written element) := by
  cases written with
  | none => exact .pure isElement
  | some ty =>
      refine .bindRead fun environment => ?_
      split
      · exact .pure (isWritten ty rfl)
      · exact failAt_plain iterated _

theorem loopOver_plain (visits : VisitsPlain visit) (id : NodeId)
    (isWritten : ∀ ty ∈ written, ty.Plain) : StaysPlain Ty.Plain (loopOver visit id written) := by
  refine .andThen (required_plain id .name) fun nameNode => .bindRead fun name => ?_
  refine .andThen (required_plain id .iter) fun iterated => ?_
  refine .bind (visits iterated) fun iteratedTy isIterated => ?_
  refine .bind (elementType_plain id isIterated) fun element isElement => ?_
  refine .bind (loopVariable_plain iterated isWritten isElement) fun ty isPlain => ?_
  refine .andThen (setType_plain nameNode isPlain) fun _ => inBlock_plain ?_
  refine .andThen (.modifyScopes fun _ plain => plain.declare name isPlain) fun _ => ?_
  exact body_plain visits id

theorem forEach_plain (visits : VisitsPlain visit) (id : NodeId) :
    StaysPlain Ty.Plain (forEach visit id) := by
  rw [forEach_eq]
  refine .bind (.bindRead fun found => ?_) fun written isWritten => loopOver_plain visits id isWritten
  cases found with
  | none => exact .pure fun _ none => by cases none
  | some node =>
      refine .bind (denotation_plain node) fun ty isPlain => .pure fun other isOther => ?_
      exact Option.some.inj isOther ▸ isPlain

/-! ### Imports and functions -/

theorem importDecl_plain (id : NodeId) : StaysPlain Ty.Plain (importDecl id) := by
  refine .andThen (requiredOrFirst_plain id .name) fun target => .bindRead fun tree => ?_
  split
  · exact failAt_plain id _
  · rename_i path _
    refine .bind .environment fun environment isPlain => ?_
    refine .andThen (.setEnvironment (isPlain.importNamespace path)) fun _ => ?_
    split
    · exact failAt_plain id _
    · exact .andThen (markDone_plain id) fun _ => .pure rfl

theorem declareGlobal_plain (name : String) (isPlain : ty.Plain) (nameNode : NodeId) :
    KeepsPlain (declareGlobal name ty nameNode) := by
  refine .bind .environment fun environment arePlain => ?_
  split
  · rename_i declared
    exact .andThen (.setEnvironment (arePlain.declareGlobal isPlain declared)) fun _ => .pure trivial
  · exact failAt_plain nameNode _

theorem parameter_plain (id : NodeId) :
    StaysPlain (fun param : String × Ty => param.2.Plain) (parameter id) := by
  refine .bindRead fun found => .bindRead fun name => ?_
  refine .bind (annotation?_plain id .type) fun written isWritten => ?_
  have isPlain : (written.getD .object).Plain := by
    cases written with
    | none => rfl
    | some ty => exact isWritten ty rfl
  exact .andThen (setType_plain id isPlain) fun _ => .pure isPlain

theorem parameters_plain (ids : List NodeId) :
    StaysPlain (fun params : List (String × Ty) => AllPlain (params.map (·.2))) (parameters ids) := by
  induction ids with
  | nil => exact .pure fun _ absent => absurd absent List.not_mem_nil
  | cons id rest ih =>
      refine .bind (parameter_plain id) fun first isFirst => .bind ih fun others areOthers => ?_
      exact .pure (List.forall_mem_cons.mpr ⟨isFirst, areOthers⟩)

theorem parameterList_plain (id : NodeId) :
    StaysPlain (fun params : List (String × Ty) => AllPlain (params.map (·.2)))
      (parameterList id) := by
  refine .bindRead fun found => ?_
  cases found with
  | none => exact .pure fun _ absent => absurd absent List.not_mem_nil
  | some list => exact .bindRead fun kids => parameters_plain kids

theorem prototype_plain (id nameNode : NodeId) (name : String) (isPlain : ty.Plain) :
    StaysPlain Ty.Plain (prototype id nameNode name ty) := by
  refine .bindRead fun environment => ?_
  split
  · exact failAt_plain nameNode _
  · refine .andThen (declareGlobal_plain name isPlain nameNode) fun _ => ?_
    exact .andThen (markDone_plain id) fun _ => .pure rfl

theorem leaveFunction_plain : StaysPlain Ty.Plain leaveFunction := by
  refine .bind exitFunction_plain fun scope isScope => .pure ?_
  cases fixed : scope.returnType with
  | none => rfl
  | some ty => exact isScope.returnType ty fixed

theorem enteredBody_plain (visits : VisitsPlain visit) (id body : NodeId)
    (areParams : AllPlain (params.map (·.2))) :
    StaysPlain Ty.Plain (enteredBody visit id body params) := by
  refine .andThen (.modifyScopes fun _ plain => plain.setParams areParams) fun _ => ?_
  refine .bind (visits body).attempt fun result _ => ?_
  cases result with
  | ok ty => exact leaveFunction_plain
  | error failure =>
      refine .andThen (.modifyTree fun _ plain => plain.setChild id _ _) fun _ => ?_
      exact .andThen (.recordError failure.error) fun _ => leaveFunction_plain

theorem functionBody_plain (visits : VisitsPlain visit) (id body : NodeId) (name : String)
    (isWritten : ∀ ty ∈ written, ty.Plain) (areParams : AllPlain (params.map (·.2))) :
    StaysPlain Ty.Plain (functionBody visit id body name written params) := by
  rw [functionBody_eq]
  refine .andThen (.modifyScopes fun _ plain => plain.enterFunction name) fun _ => ?_
  cases written with
  | none => exact enteredBody_plain visits id body areParams
  | some ty =>
      refine .andThen (.modifyScopes fun _ plain => plain.setReturnType (isWritten ty rfl)) fun _ => ?_
      exact enteredBody_plain visits id body areParams

theorem setAnnotation_plain (id : NodeId) (isPlain : ty.Plain) :
    KeepsPlain ( setAnnotation id ty) := by
  refine .bindRead fun found => ?_
  cases found with
  | none => exact .pure trivial
  | some node => exact setType_plain node isPlain

theorem define_plain (visits : VisitsPlain visit) (id nameNode body : NodeId) (name : String)
    (isWritten : ∀ ty ∈ written, ty.Plain) (areParams : AllPlain (params.map (·.2))) :
    StaysPlain Ty.Plain (define visit id nameNode body name written params) := by
  refine .bind (functionBody_plain visits id body name isWritten areParams) fun result isResult => ?_
  refine .andThen (setAnnotation_plain id isResult) fun _ => ?_
  refine .andThen (setType_plain nameNode isResult) fun _ => ?_
  have isFunction := Ty.plain_fn_iff.mpr ⟨areParams, isResult⟩
  refine .andThen (declareGlobal_plain name isFunction nameNode) fun globalId => ?_
  exact .andThen (setBinding_plain id trivial) fun _ => .pure rfl

theorem funcDecl_plain (visits : VisitsPlain visit) (id : NodeId) :
    StaysPlain Ty.Plain (funcDecl visit id) := by
  rw [funcDecl_eq]
  refine .andThen (required_plain id .name) fun nameNode => .bindRead fun name => ?_
  refine .bind (annotation?_plain id .type) fun written isWritten => ?_
  refine .bind (parameterList_plain id) fun params areParams => .bindRead fun found => ?_
  cases found with
  | none =>
      refine prototype_plain id nameNode name (Ty.plain_fn_iff.mpr ⟨areParams, ?_⟩)
      cases written with
      | none => rfl
      | some ty => exact isWritten ty rfl
  | some body => exact define_plain visits id nameNode body name isWritten areParams

theorem fixReturn_plain (isPlain : ty.Plain) : StaysPlain Ty.Plain (fixReturn ty) :=
  .andThen (.modifyScopes fun _ plain => plain.setReturnType isPlain) fun _ => .pure rfl

theorem firstReturn_plain (visits : VisitsPlain visit) (id : NodeId) :
    StaysPlain Ty.Plain (firstReturn visit id) := by
  refine .bindRead fun found => ?_
  cases found with
  | none => exact fixReturn_plain rfl
  | some child => exact .bind (visits child) fun ty isPlain => fixReturn_plain isPlain

theorem returnStmt_plain (visits : VisitsPlain visit) (id : NodeId) :
    StaysPlain Ty.Plain (returnStmt visit id) := by
  refine .bind .scopes fun scopes isPlain => ?_
  split
  · exact failAt_plain id _
  · split
    · exact firstReturn_plain visits id
    · exact .andThen (.modifyTree fun _ plain => plain.removeChild id _) fun _ => .pure rfl
    · rename_i found
      exact .andThen (enforce_plain visits id .expr (isPlain.returnType? found)) fun _ => .pure rfl

/-! ### Variables -/

theorem variableType_plain (visits : VisitsPlain visit) (id nameNode : NodeId)
    (isWritten : ∀ ty ∈ written, ty.Plain) :
    StaysPlain Ty.Plain (variableType visit id nameNode written) := by
  refine .bindRead fun isInitialized => ?_
  cases written with
  | some ty =>
      cases isInitialized with
      | true =>
          refine .andThen (enforce_plain visits id .expr (isWritten ty rfl)) fun _ => ?_
          exact .pure (isWritten ty rfl)
      | false => exact .pure (isWritten ty rfl)
  | none =>
      cases isInitialized with
      | true => exact visitRequired_plain visits id .expr
      | false =>
          refine .bindRead fun text => ?_
          exact .andThen (warnAt_plain nameNode _) fun _ => .pure rfl

theorem globalStore_plain (id : NodeId) (globalId : GlobalId) :
    KeepsPlain (globalStore id globalId) := by
  refine .andThen (.modifyTree fun _ plain => ?_) fun _ => setBinding_plain id trivial
  exact (((plain.removeChild id _).relabel id _ _).relabel id _ _).setTag id _

theorem varDecl_plain (visits : VisitsPlain visit) (id : NodeId) :
    StaysPlain Ty.Plain (varDecl visit id) := by
  refine .andThen (required_plain id .name) fun nameNode => .bindRead fun name => ?_
  refine .bind (annotation?_plain id .type) fun written isWritten => .bindRead fun isInitialized => ?_
  refine .bind (variableType_plain visits id nameNode isWritten) fun ty isPlain => ?_
  refine .andThen (setType_plain nameNode isPlain) fun _ => .bindRead fun scopes => ?_
  split
  · exact .andThen (.modifyScopes fun _ plain => plain.declare name isPlain) fun _ => .pure rfl
  · refine .andThen (declareGlobal_plain name isPlain nameNode) fun globalId => ?_
    split
    · exact .andThen (globalStore_plain id globalId) fun _ => .pure isPlain
    · exact .andThen (markDone_plain id) fun _ => .pure rfl

/-! ### Assignments -/

theorem declareImplicit_plain (target : NodeId) : KeepsPlain (declareImplicit target) := by
  refine .bind .environment fun environment arePlain => .bindRead fun scopes => .bindRead fun tag => ?_
  split
  · refine .bindRead fun name => ?_
    split
    · split
      · rename_i declared
        have isObject : Ty.object.Plain := rfl
        exact .setEnvironment (arePlain.declareGlobal isObject declared)
      · exact .pure trivial
    · exact .pure trivial
  · exact .pure trivial

theorem storeIndexed_plain (visits : VisitsPlain visit) (id target : NodeId) :
    StaysPlain Ty.Plain (storeIndexed visit id target) := by
  refine .andThen (required_plain target .recv) fun receiver => ?_
  refine .andThen (argumentList_plain target) fun indices => ?_
  refine .andThen (required_plain id .right) fun value => .bindRead fun items => ?_
  refine .andThen (.build fun _ plain => plain.sequence .list _) fun list => ?_
  exact .andThen (make_plain id _) fun _ => accessor_plain visits id receiver list "set" _ _ rfl

theorem storeDynamic_plain (visits : VisitsPlain visit) (id target : NodeId) :
    StaysPlain Ty.Plain (storeDynamic visit id target) := by
  refine .bindRead fun parts => .andThen (requiredSlot_plain id .right) fun slot => ?_
  refine .andThen (occupant_plain slot) fun node => .andThen (visits.keeps node) fun _ => ?_
  refine .andThen (coerce_plain slot rfl) fun value => .andThen (flatten_plain id _) fun _ => ?_
  exact .andThen (bindStatic_plain id _) fun _ => .pure rfl

theorem storeMember_plain (id target : NodeId) (member : MemberId) :
    KeepsPlain (storeMember id target member) := by
  refine .bindRead fun environment => ?_
  dsimp only
  split
  · exact failAt_plain target _
  · split
    · refine .bindRead fun found => ?_
      cases found with
      | none => exact .pure trivial
      | some receiver =>
          exact .modifyTree fun _ plain => (plain.setChild id _ _).relabel id _ _
    · exact .pure trivial

theorem bindPlace_plain (id : NodeId) (place : FieldTarget) : KeepsPlain (bindPlace id place) :=
  .andThen (.modifyTree fun _ plain => plain.relabel id _ _) fun _ => setBinding_plain id trivial

theorem bindStore_plain (id target : NodeId) : KeepsPlain (bindStore id target) := by
  refine .bindRead fun binding => ?_
  split
  · rename_i place
    cases place with
    | member member =>
        exact .andThen (storeMember_plain id target member) fun _ => bindPlace_plain id _
    | global globalId => exact bindPlace_plain id _
  · exact .pure trivial

theorem assign_plain (visits : VisitsPlain visit) (id : NodeId) :
    StaysPlain Ty.Plain (assign visit id) := by
  refine .andThen (required_plain id .left) fun target => ?_
  refine .andThen (declareImplicit_plain target) fun _ => .bindRead fun tag => ?_
  split
  · exact storeIndexed_plain visits id target
  · refine .bind (visits target) fun ty isPlain => .andThen (.bindRead fun binding => ?_) ?_
    · split <;> exact .pure trivial
    · intro isRead
      split
      · exact storeDynamic_plain visits id target
      · refine .andThen (enforce_plain visits id .right isPlain) fun _ => ?_
        exact .andThen (bindStore_plain id target) fun _ => .pure isPlain

theorem compoundAssign_plain (visits : VisitsPlain visit) (op : CompoundOp) (id : NodeId) :
    StaysPlain Ty.Plain (compoundAssign visit op id) := by
  refine .andThen (required_plain id .left) fun target => ?_
  refine .andThen (required_plain id .right) fun right => ?_
  refine .andThen (.build fun _ plain => plain.dup target) fun copy => ?_
  refine .andThen (.build fun _ plain => plain.labelled _ _) fun value => ?_
  refine .andThen (.modifyTree fun _ plain => (plain.setChild id _ _).setTag id _) fun _ => ?_
  exact assign_plain visits id

/-! ### Visits -/

theorem unsupported_plain (tag : Tag) (id : NodeId) : StaysPlain Ty.Plain (unsupported tag id) :=
  .bindRead fun _ => .andThen (.report _) fun _ => .pure rfl

theorem ofTag_plain (visits : VisitsPlain visit) (id : NodeId) (tag : Tag) :
    StaysPlain Ty.Plain (ofTag visit id tag) := by
  cases tag with
  | source => exact statements_plain visits id
  | statementList => exact statementList_plain visits id
  | block => exact block_plain visits id
  | importDecl => exact importDecl_plain id
  | funcDecl => exact funcDecl_plain visits id
  | returnStmt => exact returnStmt_plain visits id
  | varDecl => exact varDecl_plain visits id
  | assign => exact assign_plain visits id
  | compound op => exact compoundAssign_plain visits op id
  | expression => exact .andThen (requiredOrFirst_plain id .expr) visits
  | assertion => exact assertion_plain visits id
  | ifStmt => exact ifStmt_plain visits id
  | conditional => exact conditional_plain visits id
  | whileLoop => exact whileLoop_plain visits id
  | forLoop => exact forLoop_plain visits id
  | forEach => exact forEach_plain visits id
  | name => exact name_plain id
  | cast => exact cast_plain visits id
  | field => exact field_plain visits id
  | indexer => exact indexer_plain visits id
  | apply => exact apply_plain visits id
  | methodApply => exact methodApply_plain visits id
  | new => exact construct_plain visits id
  | array => exact array_plain visits id
  | set => exact set_plain visits id
  | dict => exact dict_plain visits id
  | interpolation => exact interpolation_plain visits id
  | conjunction | disjunction => exact connective_plain visits id
  | negation => exact negation_plain visits id
  | instanceOf => exact instanceOf_plain visits id
  | binary op => exact binary_plain visits op id
  | unary op => exact unary_plain visits op id
  | trueValue | falseValue => exact setConst_plain id .bool rfl _
  | integer => exact integer_plain id
  | long => exact long_plain id
  | float | double => exact double_plain id
  | text => exact text_plain id
  | string => exact string_plain id
  | character => exact character_plain id
  | nullValue | continueStmt | breakStmt | error => exact .pure rfl
  | param | list | type | upCast | downCast => exact unsupported_plain _ id

end Rule

open Check

theorem visit_plain (depth : Nat) : VisitsPlain (visit depth) := by
  induction depth with
  | zero => exact fun _ => .stop _
  | succ depth ih =>
      intro id
      have isNode : StaysPlain Node.Plain (read fun state => state.tree.get id) :=
        .read fun _ plain => plain.tree id
      refine .bind isNode fun node isPlain => ?_
      split
      · refine .pure ?_
        cases found : node.ty with
        | none => rfl
        | some ty => exact isPlain.ty ty found
      · refine .bind (Rule.ofTag_plain ih id node.tag) fun ty isTy => ?_
        refine .andThen (setType_plain id isTy) fun _ => ?_
        exact .andThen (.noteTyped id) fun _ => .pure isTy

theorem checkRoot_plain : KeepsPlain checkRoot := by
  refine .bindRead fun tree => ?_
  split
  · exact .pure trivial
  · rename_i root _
    refine .bind (visit_plain _ root).attempt fun result _ => ?_
    cases result with
    | ok ty => exact .pure trivial
    | error failure =>
        refine .andThen (.modifyTree fun _ plain => plain) fun _ => ?_
        exact .andThen (.recordError failure.error) fun _ => .pure trivial

end ScriptTyping
