import ScriptTyping.Proofs.Plain.Step
import ScriptTyping.Proofs.Rule.Stages

/-!
The rules for expressions bring in no type variables. Each member that a rule picks may have them
in its signature: lookups and fields close what they take from it.
-/

namespace ScriptTyping

open Ty (AllPlain)

namespace Rule

open Check

variable {visit : Visit} {slot : Slot} {slots : List Slot} {found joined ty : Ty}

/-! ### Literals -/

theorem number_plain {α : Type} (id : NodeId) (zero : α)
    (read : String → Except NumberTextError α) : KeepsPlain (number id zero read) := by
  refine .bindRead fun text => ?_
  split
  · exact .pure trivial
  · exact .andThen (warnAt_plain id _) fun _ => .pure trivial

theorem integer_plain (id : NodeId) : StaysPlain Ty.Plain (integer id) :=
  .andThen (number_plain id _ _) fun _ => setConst_plain id .int rfl _

theorem long_plain (id : NodeId) : StaysPlain Ty.Plain (long id) :=
  .andThen (number_plain id _ _) fun _ => setConst_plain id .long rfl _

theorem double_plain (id : NodeId) : StaysPlain Ty.Plain (double id) :=
  .andThen (number_plain id _ _) fun _ => setConst_plain id .double rfl _

theorem text_plain (id : NodeId) : StaysPlain Ty.Plain (text id) :=
  .bindRead fun _ => setConst_plain id .string rfl _

theorem string_plain (id : NodeId) : StaysPlain Ty.Plain (string id) :=
  .bindRead fun _ => setConst_plain id .string rfl _

theorem character_plain (id : NodeId) : StaysPlain Ty.Plain (character id) := by
  refine .bindRead fun text => ?_
  dsimp only
  split
  · exact setConst_plain id .char rfl _
  · exact setConst_plain id .string rfl _

/-! ### Operators -/

theorem operand_plain (slot : Slot) (isFound : found.Plain) (isJoined : joined.Plain) :
    StaysPlain Ty.Plain (operand slot found joined) := by
  unfold operand
  split
  · exact .pure isFound
  · split
    · rename_i entry _
      refine .andThen (occupant_plain slot) fun node => ?_
      refine .andThen (.build fun _ plain => ?_) fun wrapper => ?_
      · exact plain.convert node .cast isJoined (Binding.plain_static entry.member)
      · refine .andThen (.noteTyped wrapper) fun _ => ?_
        exact .andThen (replace_plain slot wrapper) fun _ => .pure isJoined
    · refine .bindRead fun environment => ?_
      split
      · exact .andThen (coerce_plain slot isJoined) fun _ => .pure isJoined
      · exact .pure isFound

theorem operands_plain (operatorClass : OperatorClass) {left right : Slot × Ty}
    (isLeft : left.2.Plain) (isRight : right.2.Plain) :
    StaysPlain (fun types : Ty × Ty => types.1.Plain ∧ types.2.Plain)
      (operands operatorClass left right) := by
  refine .bindRead fun environment => ?_
  split
  · rename_i joined joins
    have isJoined := OperatorClass.join?_plain (Environment.unbox_plain isLeft) joins
    refine .bind (operand_plain left.1 isLeft isJoined) fun leftTy leftPlain => ?_
    refine .bind (operand_plain right.1 isRight isJoined) fun rightTy rightPlain => ?_
    exact .pure ⟨leftPlain, rightPlain⟩
  · exact .pure ⟨isLeft, isRight⟩

theorem conclude_plain (id : NodeId) (hint : Hint) (what : String) (environment : Environment)
    (receiver args : List Ty) (candidates : List MemberId) (slots : List Slot) :
    StaysPlain Ty.Plain
      (conclude id hint what (environment.resolve receiver candidates args) slots) := by
  unfold conclude
  split
  · rename_i found
    exact accept_plain id hint (Environment.resolve_plain found) slots
  · exact reject_plain id what _

theorem binary_plain (visits : VisitsPlain visit) (op : BinaryOp) (id : NodeId) :
    StaysPlain Ty.Plain (binary visit op id) := by
  refine .andThen (requiredSlot_plain id .left) fun left => ?_
  refine .andThen (requiredSlot_plain id .right) fun right => ?_
  refine .andThen (occupant_plain left) fun leftNode => ?_
  refine .bind (visits leftNode) fun leftTy isLeft => ?_
  refine .andThen (occupant_plain right) fun rightNode => ?_
  refine .bind (visits rightNode) fun rightTy isRight => ?_
  refine .bind (operands_plain op.operatorClass isLeft isRight) fun types _ => ?_
  exact .bindRead fun environment => conclude_plain id _ _ environment _ _ _ _

theorem unary_plain (visits : VisitsPlain visit) (op : UnaryOp) (id : NodeId) :
    StaysPlain Ty.Plain (unary visit op id) := by
  refine .andThen (requiredSlot_plain id .expr) fun slot => ?_
  refine .andThen (occupant_plain slot) fun node => .bind (visits node) fun found isFound => ?_
  refine .bindRead fun environment => ?_
  refine .bind (operand_plain slot isFound (Environment.unbox_plain isFound)) fun ty _ => ?_
  exact .bindRead fun environment => conclude_plain id _ _ environment _ _ _ _

theorem connective_plain (visits : VisitsPlain visit) (id : NodeId) :
    StaysPlain Ty.Plain (connective visit id) := by
  refine .andThen (enforce_plain visits id .left rfl) fun _ => ?_
  exact .andThen (enforce_plain visits id .right rfl) fun _ => .pure rfl

theorem negation_plain (visits : VisitsPlain visit) (id : NodeId) :
    StaysPlain Ty.Plain (negation visit id) :=
  .andThen (enforce_plain visits id .expr rfl) fun _ => .pure rfl

/-! ### Names and fields -/

theorem isValue_plain (name : String) : KeepsPlain (isValue name) :=
  .bindRead fun _ => .bindRead fun _ => .pure trivial

theorem name_plain (id : NodeId) : StaysPlain Ty.Plain (name id) := by
  refine .bindRead fun text => .bind .scopes fun scopes isPlain => ?_
  split
  · rename_i found
    exact .pure (isPlain.varType? found)
  · refine .bind .environment fun environment arePlain => ?_
    split
    · rename_i found
      exact .andThen (setBinding_plain id trivial) fun _ => .pure (arePlain.global found)
    · exact failAt_plain id _

theorem typeReceiver?_plain (receiver : NodeId) : KeepsPlain (typeReceiver? receiver) := by
  refine .bindRead fun tag => ?_
  split
  · refine .bindRead fun text => .andThen (isValue_plain text) fun isValue => ?_
    split
    · exact .pure trivial
    · refine .bindRead fun environment => ?_
      split
      · rename_i found
        have isPlain := Environment.typeNamed?_plain found
        refine .andThen (setType_plain receiver isPlain) fun _ => ?_
        exact .andThen (markDone_plain receiver) fun _ => .pure trivial
      · exact .pure trivial
  · exact .pure trivial

theorem nameConstant_plain (id : NodeId) : KeepsPlain (nameConstant id) := by
  refine .bindRead fun text => .andThen (.modifyTree fun _ plain => plain.setTag id _) fun _ => ?_
  exact .bind (setConst_plain id .string rfl _) fun _ _ => markDone_plain id

theorem staticField_plain (id : NodeId) (owner : Ty) (name : String) :
    StaysPlain Ty.Plain (staticField id owner name) := by
  refine .bindRead fun environment => ?_
  split
  · exact reject_plain id _ _
  · dsimp only
    split
    · exact .andThen (setBinding_plain id trivial) fun _ => .pure (fieldType_plain _ _)
    · exact failAt_plain id _

theorem valueField_plain (visits : VisitsPlain visit) (id receiver nameNode : NodeId)
    (name : String) : StaysPlain Ty.Plain (valueField visit id receiver nameNode name) := by
  refine .andThen (visits.keeps receiver) fun receiverTy => .bindRead fun environment => ?_
  split
  · exact .andThen (setBinding_plain id trivial) fun _ => .pure (fieldType_plain _ _)
  · split
    · refine .andThen (nameConstant_plain nameNode) fun _ => .andThen (flatten_plain id _) fun _ => ?_
      exact .andThen (bindStatic_plain id _) fun _ => .pure rfl
    · exact reject_plain id _ _

theorem field_plain (visits : VisitsPlain visit) (id : NodeId) :
    StaysPlain Ty.Plain (field visit id) := by
  refine .andThen (required_plain id .recv) fun receiver => ?_
  refine .andThen (required_plain id .name) fun nameNode => .bindRead fun name => ?_
  refine .andThen (typeReceiver?_plain receiver) fun owner => ?_
  cases owner with
  | some owner => exact staticField_plain id owner name
  | none => exact valueField_plain visits id receiver nameNode name

theorem dispatch_plain (id : NodeId) (slots : List Slot) (items : List NodeId) (member : MemberId)
    (isPlain : ty.Plain) : StaysPlain Ty.Plain (dispatch id slots items member ty) := by
  refine .andThen (coerceAll_plain .object rfl slots) fun _ => .andThen (flatten_plain id _) fun _ => ?_
  exact .andThen (bindStatic_plain id _) fun _ => .pure isPlain

theorem accessor_plain (visits : VisitsPlain visit) (id receiver list : NodeId) (name what : String)
    (member : MemberId) (isPlain : ty.Plain) :
    StaysPlain Ty.Plain (accessor visit id receiver list name what member ty) := by
  refine .andThen (visits.keeps receiver) fun receiverTy => .bindRead fun slots => ?_
  refine .bind (visitAll_plain visits slots) fun types _ => .bindRead fun environment => ?_
  dsimp only
  split
  · rename_i found
    exact accept_plain id _ (Environment.resolve_plain found) slots
  · split
    · exact dispatch_plain id slots _ member isPlain
    · exact reject_plain id _ _

theorem indexer_plain (visits : VisitsPlain visit) (id : NodeId) :
    StaysPlain Ty.Plain (indexer visit id) := by
  rw [indexer_eq]
  refine .andThen (required_plain id .recv) fun receiver => ?_
  refine .andThen (argumentList_plain id) fun list => ?_
  exact accessor_plain visits id receiver list _ _ _ rfl

/-! ### Calls -/

theorem applyValue_plain (id : NodeId) (name : String) (slots : List Slot) (args : List Ty)
    {params : List Ty} {result : Ty} (isFunction : (Ty.fn params result).Plain) :
    StaysPlain Ty.Plain (applyValue id name slots args params result) := by
  obtain ⟨areParams, isResult⟩ := Ty.plain_fn_iff.mp isFunction
  refine .bindRead fun environment => ?_
  dsimp only
  split
  · exact failAt_plain id _
  · refine .andThen (coerceEach_plain fun pair member => ?_) fun _ => ?_
    · exact areParams pair.2 (List.of_mem_zip member).2
    · refine .andThen (.modifyTree fun _ plain => plain.relabel id _ _) fun _ => ?_
      exact .andThen (bindInvoke_plain id _ _) fun _ => .pure isResult

theorem applyCallable_plain (id callee list : NodeId) (slots : List Slot) :
    StaysPlain Ty.Plain (applyCallable id callee list slots) := by
  refine .bindRead fun environment => ?_
  dsimp only
  split
  · exact failAt_plain id _
  · exact dispatch_plain id slots _ _ rfl

theorem applyFunction_plain (id : NodeId) (name : String) (slots : List Slot) (args : List Ty) :
    StaysPlain Ty.Plain (applyFunction id name slots args) :=
  .bindRead fun environment => conclude_plain id _ _ environment _ _ _ slots

theorem apply_plain (visits : VisitsPlain visit) (id : NodeId) :
    StaysPlain Ty.Plain (apply visit id) := by
  refine .andThen (required_plain id .name) fun nameNode => .bindRead fun name => ?_
  refine .andThen (argumentList_plain id) fun list => .bindRead fun slots => ?_
  refine .bind (visitAll_plain visits slots) fun args _ => .bind .scopes fun scopes isPlain => ?_
  dsimp only
  split
  · rename_i scope enclosing
    split
    · rename_i result returns
      have isScope := isPlain.current? (Option.mem_filter_iff.mp enclosing).1
      exact .andThen (bindInvoke_plain id _ _) fun _ => .pure (isScope.returnType result returns)
    · exact failAt_plain id _
  · refine .andThen (isValue_plain name) fun isValue => ?_
    split
    · refine .bind (visits nameNode) fun valueTy isValueTy => ?_
      split
      · exact applyValue_plain id name slots args isValueTy
      · split
        · exact applyCallable_plain id nameNode list slots
        · exact applyFunction_plain id name slots args
    · exact applyFunction_plain id name slots args

theorem applyStatic_plain (visits : VisitsPlain visit) (id : NodeId) (owner : Ty) (name : String)
    (slots : List Slot) : StaysPlain Ty.Plain (applyStatic visit id owner name slots) := by
  refine .bind (visitAll_plain visits slots) fun args _ => .bindRead fun environment => ?_
  dsimp only
  split
  · exact failAt_plain id _
  · exact conclude_plain id _ _ environment _ _ _ slots

theorem applyDynamic_plain (id receiver nameNode list : NodeId) (slots : List Slot) :
    StaysPlain Ty.Plain (applyDynamic id receiver nameNode list slots) := by
  refine .bindRead fun environment => ?_
  dsimp only
  split
  · exact failAt_plain id _
  · refine .andThen (coerceAll_plain .object rfl slots) fun _ => ?_
    refine .andThen (nameConstant_plain nameNode) fun _ => .andThen (flatten_plain id _) fun _ => ?_
    exact .andThen (bindInvoke_plain id _ _) fun _ => .pure rfl

theorem applyOnValue_plain (visits : VisitsPlain visit) (id receiver nameNode list : NodeId)
    (name : String) (slots : List Slot) :
    StaysPlain Ty.Plain (applyOnValue visit id receiver nameNode list name slots) := by
  refine .andThen (visits.keeps receiver) fun receiverTy => ?_
  refine .bind (visitAll_plain visits slots) fun args _ => .bindRead fun environment => ?_
  dsimp only
  split
  · rename_i found
    exact accept_plain id _ (Environment.resolve_plain found) slots
  · split
    · exact applyDynamic_plain id receiver nameNode list slots
    · exact reject_plain id _ _

theorem methodApply_plain (visits : VisitsPlain visit) (id : NodeId) :
    StaysPlain Ty.Plain (methodApply visit id) := by
  refine .andThen (required_plain id .recv) fun receiver => ?_
  refine .andThen (required_plain id .name) fun nameNode => .bindRead fun name => ?_
  refine .andThen (argumentList_plain id) fun list => .bindRead fun slots => ?_
  refine .andThen (typeReceiver?_plain receiver) fun owner => ?_
  cases owner with
  | some owner => exact applyStatic_plain visits id owner name slots
  | none => exact applyOnValue_plain visits id receiver nameNode list name slots

theorem construct_plain (visits : VisitsPlain visit) (id : NodeId) :
    StaysPlain Ty.Plain (construct visit id) := by
  refine .andThen (required_plain id .type) fun typeNode => ?_
  refine .bind (annotation_plain typeNode) fun ty _ => ?_
  refine .andThen (argumentList_plain id) fun list => .bindRead fun slots => ?_
  refine .bind (visitAll_plain visits slots) fun args _ => .bindRead fun environment => ?_
  dsimp only
  split
  · rename_i found
    have resolved := Environment.resolve_plain found
    refine .andThen (convertArguments_plain slots resolved _) fun _ => ?_
    exact .andThen (setBinding_plain id resolved.construction) fun _ => .pure resolved.result
  · exact reject_plain id _ _

/-! ### Casts -/

theorem cast_plain (visits : VisitsPlain visit) (id : NodeId) :
    StaysPlain Ty.Plain (cast visit id) := by
  refine .andThen (required_plain id .type) fun typeNode => ?_
  refine .bind (annotation_plain typeNode) fun target isTarget => ?_
  refine .andThen (requiredSlot_plain id .expr) fun slot => ?_
  refine .andThen (occupant_plain slot) fun inner => ?_
  refine .andThen (visits.keeps inner) fun found => .bindRead fun environment => ?_
  have remade (tag : Tag) :
      KeepsPlain (modifyTree fun tree => (tree.make id [(.expr, inner)]).setTag id tag) :=
    .modifyTree fun _ plain => (plain.make id _).setTag id tag
  split
  · refine .andThen (make_plain id _) fun _ => ?_
    exact .andThen (bindStatic_plain id _) fun _ => .pure isTarget
  · split
    · exact .andThen (remade .upCast) fun _ => .pure isTarget
    · split
      · exact .andThen (remade .downCast) fun _ => .pure isTarget
      · exact failAt_plain id _

theorem instanceOf_plain (visits : VisitsPlain visit) (id : NodeId) :
    StaysPlain Ty.Plain (instanceOf visit id) := by
  refine .andThen (required_plain id .left) fun left => .andThen (visits.keeps left) fun found => ?_
  refine .andThen (required_plain id .right) fun right => ?_
  refine .bind (annotation_plain right) fun target _ => .bindRead fun environment => ?_
  split
  · exact .pure rfl
  · exact .andThen (warnAt_plain id _) fun _ => setConst_plain id .bool rfl _

/-! ### Collections -/

theorem elements_plain (visits : VisitsPlain visit) (slots : List Slot) :
    StaysPlain Ty.Plain (elements visit slots) := by
  refine .bind (visitAll_plain visits slots) fun types arePlain => ?_
  cases types with
  | nil => exact .pure rfl
  | cons first rest =>
      dsimp only
      split
      · exact .pure (arePlain first List.mem_cons_self)
      · exact .andThen (coerceAll_plain .object rfl slots) fun _ => .pure rfl

/-- A collection of one type argument has no variables if its elements have none. -/
theorem generic_plain (name : String) {element : Ty} (isPlain : element.Plain) :
    (Ty.generic name [element]).Plain :=
  Ty.plain_applied_iff.mpr (List.forall_mem_singleton.mpr isPlain)

theorem array_plain (visits : VisitsPlain visit) (id : NodeId) :
    StaysPlain Ty.Plain (array visit id) :=
  .bindRead fun slots => .bind (elements_plain visits slots) fun _ isPlain =>
    .pure (generic_plain _ isPlain)

theorem set_plain (visits : VisitsPlain visit) (id : NodeId) :
    StaysPlain Ty.Plain (set visit id) :=
  .bindRead fun slots => .bind (elements_plain visits slots) fun _ isPlain =>
    .pure (generic_plain _ isPlain)

theorem keys_plain (visits : VisitsPlain visit) (slots : List Slot) :
    KeepsPlain (keys visit slots) := by
  induction slots with
  | nil => exact .pure trivial
  | cons slot rest ih =>
      refine .andThen (occupant_plain slot) fun node => .andThen (visits.keeps node) fun _ => ?_
      exact .andThen (coerce_plain slot rfl) fun _ => ih

theorem dict_plain (visits : VisitsPlain visit) (id : NodeId) :
    StaysPlain Ty.Plain (dict visit id) := by
  refine .bindRead fun slots => ?_
  split
  · exact failAt_plain id _
  · refine .andThen (keys_plain visits _) fun _ => ?_
    exact .bind (elements_plain visits _) fun _ isPlain => .pure (generic_plain _ isPlain)

theorem interpolation_plain (visits : VisitsPlain visit) (id : NodeId) :
    StaysPlain Ty.Plain (interpolation visit id) := by
  refine .bindRead fun slots => .bind (visitAll_plain visits slots) fun _ _ => ?_
  refine .andThen (coerceAll_plain .object rfl slots) fun _ => ?_
  exact .andThen (bindInvoke_plain id _ _) fun _ => .pure rfl

end Rule

end ScriptTyping
