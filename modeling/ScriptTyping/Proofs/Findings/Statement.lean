import ScriptTyping.Proofs.Findings.Expression

/-!
The rules for statements account for what they raise, and so does a visit. Sequences, function bodies
and the check of a whole tree record the errors that nodes below them fail with.
-/

namespace ScriptTyping

namespace Rule

open Check

variable {places : Places} {visit : Visit}

/-! ### Sequences -/

/-- A sequence records what each statement fails with before it goes on. -/
theorem statementsFrom_tells (visits : VisitsTell places visit) (id : NodeId) (last : Ty)
    (index count : Nat) : Tells places (statementsFrom visit id last index count) := by
  induction count generalizing index last with
  | zero => exact .pure last
  | succ count ih =>
      refine .bindRead fun tree => ?_
      split
      · exact .pure last
      · rename_i child _
        refine .recover (visits child) (fun ty => ih ty (index + 1)) fun failure => ?_
        refine (replace_quiet _ _).andThen fun _ => ?_
        exact .bind (.record failure.error) fun _ => ih .never (index + 1)

theorem statements_tells (visits : VisitsTell places visit) (id : NodeId) :
    Tells places (statements visit id) :=
  .bindRead fun _ => statementsFrom_tells visits id .void 0 _

theorem statementList_tells (visits : VisitsTell places visit) (id : NodeId) :
    Tells places (statementList visit id) :=
  .bind (statements_tells visits id) fun _ => .pure _

theorem block_tells (visits : VisitsTell places visit) (id : NodeId) :
    Tells places (block visit id) :=
  .bindRead fun _ => inBlockIf_tells _ (statementList_tells visits id)

/-! ### Branches and loops -/

theorem assertionMessage_quiet (id : NodeId) : Quiet places (assertionMessage id) := by
  refine .bind (.read _) fun tree => ?_
  split
  · exact .pure _
  · exact .pure _
  · exact .stop _

theorem bindAssertion_tells (id : NodeId) : Tells places (bindAssertion id) :=
  (bindStatic_quiet id _).andThen fun _ => .pure _

theorem assertion_tells (visits : VisitsTell places visit) (id : NodeId) :
    Tells places (assertion visit id) := by
  refine .bind (enforce_tells visits id .cond _) fun condition => .bindRead fun hasMessage => ?_
  cases hasMessage with
  | true => exact .bind (enforce_tells visits id .msg _) fun _ => bindAssertion_tells id
  | false =>
      refine (assertionMessage_quiet condition).andThen fun text => .bindSpanOf fun span holds => ?_
      refine (Quiet.build fun _ cover => cover.alloc holds).andThen fun message => ?_
      exact (make_quiet id _).andThen fun _ => bindAssertion_tells id

theorem optional_tells (visits : VisitsTell places visit) (id : NodeId) (label : Label) :
    Tells places (optional visit id label) := by
  refine .bindRead fun found => ?_
  cases found with
  | none => exact .pure ()
  | some child => exact .bind (visits child) fun _ => .pure ()

theorem ifStmt_tells (visits : VisitsTell places visit) (id : NodeId) :
    Tells places (ifStmt visit id) := by
  refine .bind (enforce_tells visits id .cond _) fun _ => ?_
  refine .bind (required_tells id .thenBranch) fun branch => .bind (visits branch) fun _ => ?_
  exact .bind (optional_tells visits id .elseBranch) fun _ => .pure _

theorem conditional_tells (visits : VisitsTell places visit) (id : NodeId) :
    Tells places (conditional visit id) := by
  refine .bind (enforce_tells visits id .cond _) fun _ => ?_
  refine .bind (required_tells id .thenBranch) fun branch => .bind (visits branch) fun thenTy => ?_
  refine .bind (requiredSlot_tells id .elseBranch) fun slot => ?_
  refine visitSlot_tells visits slot fun elseTy => ?_
  split
  · exact .pure thenTy
  · exact .bind (coerce_tells slot thenTy) fun _ => .pure thenTy

theorem body_tells (visits : VisitsTell places visit) (id : NodeId) :
    Tells places (body visit id) :=
  .bind (required_tells id .body) fun node => .bind (visits node) fun _ => .pure _

theorem whileLoop_tells (visits : VisitsTell places visit) (id : NodeId) :
    Tells places (whileLoop visit id) :=
  .bind (enforce_tells visits id .cond _) fun _ => body_tells visits id

theorem loopSteps_tells (visits : VisitsTell places visit) (id : NodeId) :
    Tells places (loopSteps visit id) :=
  .bind (optional_tells visits id .iter) fun _ => body_tells visits id

theorem forLoop_tells (visits : VisitsTell places visit) (id : NodeId) :
    Tells places (forLoop visit id) := by
  refine .bindRead fun scopes => inBlockIf_tells _ ?_
  refine .bind (optional_tells visits id .init) fun _ => .bindRead fun hasCondition => ?_
  cases hasCondition with
  | true => exact .bind (enforce_tells visits id .cond _) fun _ => loopSteps_tells visits id
  | false => exact loopSteps_tells visits id

theorem elementType_tells (id : NodeId) (iterated : Ty) :
    Tells places (elementType id iterated) := by
  unfold elementType
  split
  · exact .pure _
  · refine .bindRead fun environment => ?_
    dsimp only
    split
    · exact (setBinding_quiet id _).andThen fun _ => .pure _
    · exact reject_tells id _ _

theorem loopVariable_tells (iterated : NodeId) (written : Option Ty) (element : Ty) :
    Tells places (loopVariable iterated written element) := by
  cases written with
  | none => exact .pure element
  | some ty =>
      refine .bindRead fun environment => ?_
      split
      · exact .pure ty
      · exact failAt_tells iterated _

theorem loopOver_tells (visits : VisitsTell places visit) (id : NodeId) (written : Option Ty) :
    Tells places (loopOver visit id written) := by
  refine .bind (required_tells id .name) fun nameNode => .bindRead fun name => ?_
  refine .bind (required_tells id .iter) fun iterated => .bind (visits iterated) fun iteratedTy => ?_
  refine .bind (elementType_tells id iteratedTy) fun element => ?_
  refine .bind (loopVariable_tells iterated written element) fun ty => ?_
  refine (setType_quiet nameNode ty).andThen fun _ => inBlock_tells ?_
  exact (Quiet.modifyScopes _).andThen fun _ => body_tells visits id

theorem forEach_tells (visits : VisitsTell places visit) (id : NodeId) :
    Tells places (forEach visit id) := by
  rw [forEach_eq]
  refine .bind (.bindRead fun found => ?_) fun written => loopOver_tells visits id written
  cases found with
  | none => exact .pure none
  | some node => exact .bind (denotation_tells node) fun ty => .pure _

/-! ### Imports and functions -/

theorem importDecl_tells (id : NodeId) : Tells places (importDecl id) := by
  refine .bind (requiredOrFirst_tells id .name) fun target => .bindRead fun tree => ?_
  split
  · exact failAt_tells id _
  · refine .bindRead fun environment => (Quiet.setEnvironment _).andThen fun _ => ?_
    split
    · exact failAt_tells id _
    · exact (markDone_quiet id).andThen fun _ => .pure _

theorem declareGlobal_tells (name : String) (ty : Ty) (nameNode : NodeId) :
    Tells places (declareGlobal name ty nameNode) := by
  refine .bindRead fun environment => ?_
  split
  · exact (Quiet.setEnvironment _).andThen fun _ => .pure _
  · exact failAt_tells nameNode _

theorem parameter_tells (id : NodeId) : Tells places (parameter id) := by
  refine .bindRead fun found => .bindRead fun name => ?_
  refine .bind (annotation?_tells id .type) fun written => ?_
  exact (setType_quiet id _).andThen fun _ => .pure _

theorem parameters_tells (ids : List NodeId) : Tells places (parameters ids) := by
  induction ids with
  | nil => exact .pure []
  | cons id rest ih =>
      exact .bind (parameter_tells id) fun first => .bind ih fun others => .pure (first :: others)

theorem parameterList_tells (id : NodeId) : Tells places (parameterList id) := by
  refine .bindRead fun found => ?_
  cases found with
  | none => exact .pure []
  | some list => exact .bindRead fun kids => parameters_tells kids

theorem prototype_tells (id nameNode : NodeId) (name : String) (ty : Ty) :
    Tells places (prototype id nameNode name ty) := by
  refine .bindRead fun environment => ?_
  split
  · exact failAt_tells nameNode _
  · refine .bind (declareGlobal_tells name ty nameNode) fun _ => ?_
    exact (markDone_quiet id).andThen fun _ => .pure _

theorem leaveFunction_tells : Tells places leaveFunction :=
  exitFunction_quiet.andThen fun _ => .pure _

/-- A function records what its body fails with before its scope is closed. -/
theorem enteredBody_tells (visits : VisitsTell places visit) (id body : NodeId)
    (params : List (String × Ty)) : Tells places (enteredBody visit id body params) := by
  refine (Quiet.modifyScopes _).andThen fun _ => ?_
  refine .recover (visits body) (fun _ => leaveFunction_tells) fun failure => ?_
  refine .bindModify (fun _ _ => Tree.span_setChild _ _) ?_
  exact .bind (.record failure.error) fun _ => leaveFunction_tells

theorem functionBody_tells (visits : VisitsTell places visit) (id body : NodeId) (name : String)
    (written : Option Ty) (params : List (String × Ty)) :
    Tells places (functionBody visit id body name written params) := by
  rw [functionBody_eq]
  refine (Quiet.modifyScopes _).andThen fun _ => ?_
  cases written with
  | none => exact enteredBody_tells visits id body params
  | some ty => exact (Quiet.modifyScopes _).andThen fun _ => enteredBody_tells visits id body params

theorem setAnnotation_quiet (id : NodeId) (ty : Ty) : Quiet places ( setAnnotation id ty) := by
  refine .bind (.read _) fun found => ?_
  cases found with
  | none => exact .pure ()
  | some node => exact setType_quiet node ty

theorem define_tells (visits : VisitsTell places visit) (id nameNode body : NodeId)
    (name : String) (written : Option Ty) (params : List (String × Ty)) :
    Tells places (define visit id nameNode body name written params) := by
  refine .bind (functionBody_tells visits id body name written params) fun result => ?_
  refine (setAnnotation_quiet id result).andThen fun _ => ?_
  refine (setType_quiet nameNode result).andThen fun _ => ?_
  refine .bind (declareGlobal_tells name _ nameNode) fun globalId => ?_
  exact (setBinding_quiet id _).andThen fun _ => .pure _

theorem funcDecl_tells (visits : VisitsTell places visit) (id : NodeId) :
    Tells places (funcDecl visit id) := by
  rw [funcDecl_eq]
  refine .bind (required_tells id .name) fun nameNode => .bindRead fun name => ?_
  refine .bind (annotation?_tells id .type) fun written => ?_
  refine .bind (parameterList_tells id) fun params => .bindRead fun found => ?_
  cases found with
  | none => exact prototype_tells id nameNode name _
  | some body => exact define_tells visits id nameNode body name written params

theorem fixReturn_tells (ty : Ty) : Tells places (fixReturn ty) :=
  (Quiet.modifyScopes _).andThen fun _ => .pure _

theorem firstReturn_tells (visits : VisitsTell places visit) (id : NodeId) :
    Tells places (firstReturn visit id) := by
  refine .bindRead fun found => ?_
  cases found with
  | none => exact fixReturn_tells .void
  | some child => exact .bind (visits child) fixReturn_tells

theorem returnStmt_tells (visits : VisitsTell places visit) (id : NodeId) :
    Tells places (returnStmt visit id) := by
  refine .bindRead fun scopes => ?_
  split
  · exact failAt_tells id _
  · split
    · exact firstReturn_tells visits id
    · exact .bindModify (fun _ _ => Tree.span_removeChild _) (.pure _)
    · exact .bind (enforce_tells visits id .expr _) fun _ => .pure _

/-! ### Variables -/

theorem variableType_tells (visits : VisitsTell places visit) (id nameNode : NodeId)
    (written : Option Ty) : Tells places (variableType visit id nameNode written) := by
  refine .bindRead fun isInitialized => ?_
  cases written with
  | some ty =>
      cases isInitialized with
      | true => exact .bind (enforce_tells visits id .expr ty) fun _ => .pure ty
      | false => exact .pure ty
  | none =>
      cases isInitialized with
      | true => exact .bind (required_tells id .expr) visits
      | false =>
          exact .bindRead fun text => .bind (warnAt_tells nameNode _) fun _ => .pure _

theorem globalStore_quiet (id : NodeId) (globalId : GlobalId) :
    Quiet places (globalStore id globalId) := by
  refine .bind (.modifyTree fun tree other => ?_) fun _ => setBinding_quiet id _
  rw [Tree.span_setTag, Tree.span_relabel, Tree.span_relabel, Tree.span_removeChild]

theorem varDecl_tells (visits : VisitsTell places visit) (id : NodeId) :
    Tells places (varDecl visit id) := by
  refine .bind (required_tells id .name) fun nameNode => .bindRead fun name => ?_
  refine .bind (annotation?_tells id .type) fun written => .bindRead fun isInitialized => ?_
  refine .bind (variableType_tells visits id nameNode written) fun ty => ?_
  refine (setType_quiet nameNode ty).andThen fun _ => .bindRead fun scopes => ?_
  split
  · exact (Quiet.modifyScopes _).andThen fun _ => .pure _
  · refine .bind (declareGlobal_tells name ty nameNode) fun globalId => ?_
    split
    · exact (globalStore_quiet id globalId).andThen fun _ => .pure ty
    · exact (markDone_quiet id).andThen fun _ => .pure _

/-! ### Assignments -/

theorem declareImplicit_quiet (target : NodeId) : Quiet places (declareImplicit target) := by
  refine .bind (.read _) fun environment => .bind (.read _) fun scopes => .bind (.read _) fun tag => ?_
  split
  · refine .bind (.read _) fun name => ?_
    split
    · split
      · exact .setEnvironment _
      · exact .pure ()
    · exact .pure ()
  · exact .pure ()

theorem storeIndexed_tells (visits : VisitsTell places visit) (id target : NodeId) :
    Tells places (storeIndexed visit id target) := by
  refine .bind (required_tells target .recv) fun receiver => ?_
  refine (argumentList_quiet target).andThen fun indices => ?_
  refine .bind (required_tells id .right) fun value => .bindRead fun items => ?_
  refine (Quiet.build fun _ cover => cover.sequence .list _).andThen fun list => ?_
  exact (make_quiet id _).andThen fun _ => accessor_tells visits id receiver list "set" _ _ _

theorem storeDynamic_tells (visits : VisitsTell places visit) (id target : NodeId) :
    Tells places (storeDynamic visit id target) := by
  refine .bindRead fun parts => .bind (requiredSlot_tells id .right) fun slot => ?_
  refine visitSlot_tells visits slot fun _ => .bind (coerce_tells slot .object) fun value => ?_
  refine (flatten_quiet id _).andThen fun _ => ?_
  exact (bindStatic_quiet id _).andThen fun _ => .pure _

theorem storeMember_tells (id target : NodeId) (member : MemberId) :
    Tells places (storeMember id target member) := by
  refine .bindRead fun environment => ?_
  dsimp only
  split
  · exact failAt_tells target _
  · split
    · refine .bindRead fun found => ?_
      cases found with
      | none => exact .pure ()
      | some receiver =>
          refine Quiet.tells (.modifyTree fun tree other => ?_)
          rw [Tree.span_relabel, Tree.span_setChild]
    · exact .pure ()

theorem bindPlace_tells (id : NodeId) (place : FieldTarget) : Tells places (bindPlace id place) :=
  .bindModify (fun _ _ => Tree.span_relabel _ _) (setBinding_quiet id _).tells

theorem bindStore_tells (id target : NodeId) : Tells places (bindStore id target) := by
  refine .bindRead fun binding => ?_
  split
  · rename_i place
    cases place with
    | member member =>
        exact .bind (storeMember_tells id target member) fun _ => bindPlace_tells id _
    | global globalId => exact bindPlace_tells id _
  · exact .pure ()

theorem isDynamicRead_quiet (id : NodeId) : Quiet places (isDynamicRead id) := by
  refine .bind (.read _) fun binding => ?_
  split
  · exact .pure _
  · exact .pure _

theorem assign_tells (visits : VisitsTell places visit) (id : NodeId) :
    Tells places (assign visit id) := by
  refine .bind (required_tells id .left) fun target => ?_
  refine (declareImplicit_quiet target).andThen fun _ => .bindRead fun tag => ?_
  split
  · exact storeIndexed_tells visits id target
  · refine .bind (visits target) fun ty => (isDynamicRead_quiet target).andThen fun isRead => ?_
    split
    · exact storeDynamic_tells visits id target
    · refine .bind (enforce_tells visits id .right ty) fun _ => ?_
      exact .bind (bindStore_tells id target) fun _ => .pure ty

theorem compoundAssign_tells (visits : VisitsTell places visit) (op : CompoundOp) (id : NodeId) :
    Tells places (compoundAssign visit op id) := by
  refine .bind (required_tells id .left) fun target => ?_
  refine .bind (required_tells id .right) fun right => ?_
  refine (Quiet.build fun _ cover => cover.dup target).andThen fun copy => ?_
  refine (Quiet.build fun _ cover => cover.labelled _ _).andThen fun value => ?_
  refine .bindModify (fun tree other => ?_) (assign_tells visits id)
  rw [Tree.span_setTag, Tree.span_setChild]

/-! ### Visits -/

theorem unsupported_tells (tag : Tag) (id : NodeId) : Tells places (unsupported tag id) :=
  .bindSpanOf fun _ holds => .bind (.report holds) fun _ => .pure _

theorem ofTag_tells (visits : VisitsTell places visit) (id : NodeId) (tag : Tag) :
    Tells places (ofTag visit id tag) := by
  cases tag with
  | source => exact statements_tells visits id
  | statementList => exact statementList_tells visits id
  | block => exact block_tells visits id
  | importDecl => exact importDecl_tells id
  | funcDecl => exact funcDecl_tells visits id
  | returnStmt => exact returnStmt_tells visits id
  | varDecl => exact varDecl_tells visits id
  | assign => exact assign_tells visits id
  | compound op => exact compoundAssign_tells visits op id
  | expression => exact .bind (requiredOrFirst_tells id .expr) visits
  | assertion => exact assertion_tells visits id
  | ifStmt => exact ifStmt_tells visits id
  | conditional => exact conditional_tells visits id
  | whileLoop => exact whileLoop_tells visits id
  | forLoop => exact forLoop_tells visits id
  | forEach => exact forEach_tells visits id
  | name => exact name_tells id
  | cast => exact cast_tells visits id
  | field => exact field_tells visits id
  | indexer => exact indexer_tells visits id
  | apply => exact apply_tells visits id
  | methodApply => exact methodApply_tells visits id
  | new => exact construct_tells visits id
  | array => exact array_tells visits id
  | set => exact set_tells visits id
  | dict => exact dict_tells visits id
  | interpolation => exact interpolation_tells visits id
  | conjunction | disjunction => exact connective_tells visits id
  | negation => exact negation_tells visits id
  | instanceOf => exact instanceOf_tells visits id
  | binary op => exact binary_tells visits op id
  | unary op => exact unary_tells visits op id
  | trueValue | falseValue => exact (setConst_quiet id _ _).tells
  | integer => exact integer_tells id
  | long => exact long_tells id
  | float | double => exact double_tells id
  | text => exact text_tells id
  | string => exact string_tells id
  | character => exact character_tells id
  | nullValue | continueStmt | breakStmt | error => exact .pure _
  | param | list | type | upCast | downCast => exact unsupported_tells _ id

end Rule

open Check

variable {places : Places}

theorem visit_tells (depth : Nat) : VisitsTell places (visit depth) := by
  induction depth with
  | zero => exact fun _ => .stop _
  | succ depth ih =>
      refine fun id => .bindRead fun node => ?_
      split
      · exact .pure _
      · refine .bind (Rule.ofTag_tells ih id node.tag) fun ty => ?_
        refine (setType_quiet id ty).andThen fun _ => ?_
        exact (noteTyped_quiet id).andThen fun _ => .pure ty

/-- The check of a whole tree records what its root fails with, so it owes nothing in the end. -/
theorem checkRoot_tells : Tells places checkRoot := by
  refine .bindRead fun tree => ?_
  split
  · exact .pure none
  · rename_i root _
    refine .recover (visit_tells _ root) (fun ty => .pure _) fun failure => ?_
    refine .bindModify (fun _ _ => Tree.span_setRoot _) ?_
    exact .bind (.record failure.error) fun _ => .pure none

end ScriptTyping
