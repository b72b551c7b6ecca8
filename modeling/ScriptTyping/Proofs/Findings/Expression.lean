import ScriptTyping.Proofs.Findings.Step
import ScriptTyping.Proofs.Rule.Stages

/-!
The rules for expressions account for what they raise. Literals and type tests warn, and go on;
everything else that is raised here is an error that the rule fails with.
-/

namespace ScriptTyping

namespace Rule

open Check

variable {places : Places} {visit : Visit}

/-! ### Literals -/

theorem number_tells {α : Type} (id : NodeId) (zero : α)
    (read : String → Except NumberTextError α) : Tells places (number id zero read) := by
  refine .bindRead fun text => ?_
  split
  · exact .pure _
  · exact .bind (warnAt_tells id _) fun _ => .pure zero

theorem integer_tells (id : NodeId) : Tells places (integer id) :=
  .bind (number_tells id _ _) fun _ => (setConst_quiet id _ _).tells

theorem long_tells (id : NodeId) : Tells places (long id) :=
  .bind (number_tells id _ _) fun _ => (setConst_quiet id _ _).tells

theorem double_tells (id : NodeId) : Tells places (double id) :=
  .bind (number_tells id _ _) fun _ => (setConst_quiet id _ _).tells

theorem text_tells (id : NodeId) : Tells places (text id) :=
  .bindRead fun _ => (setConst_quiet id _ _).tells

theorem string_tells (id : NodeId) : Tells places (string id) :=
  .bindRead fun _ => (setConst_quiet id _ _).tells

theorem character_tells (id : NodeId) : Tells places (character id) := by
  refine .bindRead fun text => ?_
  dsimp only
  split
  · exact (setConst_quiet id _ _).tells
  · exact (setConst_quiet id _ _).tells

/-! ### Operators -/

theorem operand_tells (slot : Slot) (found joined : Ty) :
    Tells places (operand slot found joined) := by
  unfold operand
  split
  · exact .pure found
  · split
    · refine (occupant_quiet slot).andThen fun node => ?_
      refine (Quiet.build fun _ cover => ?_).andThen fun wrapper => ?_
      · exact cover.convert node _ _ _
      · refine (noteTyped_quiet wrapper).andThen fun _ => ?_
        exact (replace_quiet slot wrapper).andThen fun _ => .pure joined
    · refine .bindRead fun environment => ?_
      split
      · exact .bind (coerce_tells slot joined) fun _ => .pure joined
      · exact .pure found

theorem operands_tells (operatorClass : OperatorClass) (left right : Slot × Ty) :
    Tells places (operands operatorClass left right) := by
  refine .bindRead fun environment => ?_
  split
  · refine .bind (operand_tells left.1 _ _) fun leftTy => ?_
    exact .bind (operand_tells right.1 _ _) fun rightTy => .pure (leftTy, rightTy)
  · exact .pure (left.2, right.2)

theorem conclude_tells (id : NodeId) (hint : Hint) (what : String) (lookup : Lookup)
    (slots : List Slot) : Tells places (conclude id hint what lookup slots) := by
  unfold conclude
  split
  · exact accept_tells id hint _ slots
  · exact reject_tells id what _

theorem binary_tells (visits : VisitsTell places visit) (op : BinaryOp) (id : NodeId) :
    Tells places (binary visit op id) := by
  refine .bind (requiredSlot_tells id .left) fun left => ?_
  refine .bind (requiredSlot_tells id .right) fun right => ?_
  refine visitSlot_tells visits left fun leftTy => ?_
  refine visitSlot_tells visits right fun rightTy => ?_
  refine .bind (operands_tells op.operatorClass _ _) fun types => .bindRead fun environment => ?_
  exact conclude_tells id _ _ _ _

theorem unary_tells (visits : VisitsTell places visit) (op : UnaryOp) (id : NodeId) :
    Tells places (unary visit op id) := by
  refine .bind (requiredSlot_tells id .expr) fun slot => ?_
  refine visitSlot_tells visits slot fun found => .bindRead fun environment => ?_
  refine .bind (operand_tells slot found _) fun ty => .bindRead fun environment => ?_
  exact conclude_tells id _ _ _ _

theorem connective_tells (visits : VisitsTell places visit) (id : NodeId) :
    Tells places (connective visit id) := by
  refine .bind (enforce_tells visits id .left _) fun _ => ?_
  exact .bind (enforce_tells visits id .right _) fun _ => .pure _

theorem negation_tells (visits : VisitsTell places visit) (id : NodeId) :
    Tells places (negation visit id) :=
  .bind (enforce_tells visits id .expr _) fun _ => .pure _

/-! ### Names and fields -/

theorem isValue_quiet (name : String) : Quiet places (isValue name) :=
  .bind (.read _) fun _ => .bind (.read _) fun _ => .pure _

theorem name_tells (id : NodeId) : Tells places (name id) := by
  refine .bindRead fun text => .bindRead fun scopes => ?_
  split
  · exact .pure _
  · refine .bindRead fun environment => ?_
    split
    · exact (setBinding_quiet id _).andThen fun _ => .pure _
    · exact failAt_tells id _

theorem typeReceiver?_quiet (receiver : NodeId) : Quiet places (typeReceiver? receiver) := by
  refine .bind (.read _) fun tag => ?_
  split
  · refine .bind (.read _) fun text => .bind (isValue_quiet text) fun isValue => ?_
    split
    · exact .pure none
    · refine .bind (.read _) fun environment => ?_
      split
      · refine .bind (setType_quiet receiver _) fun _ => ?_
        exact .bind (markDone_quiet receiver) fun _ => .pure _
      · exact .pure none
  · exact .pure none

theorem nameConstant_quiet (id : NodeId) : Quiet places (nameConstant id) := by
  refine .bind (.read _) fun text => .bind (.modifyTree fun _ _ => Tree.span_setTag _) fun _ => ?_
  exact .bind (setConst_quiet id _ _) fun _ => markDone_quiet id

theorem staticField_tells (id : NodeId) (owner : Ty) (name : String) :
    Tells places (staticField id owner name) := by
  refine .bindRead fun environment => ?_
  split
  · exact reject_tells id _ _
  · dsimp only
    split
    · exact (setBinding_quiet id _).andThen fun _ => .pure _
    · exact failAt_tells id _

theorem valueField_tells (visits : VisitsTell places visit) (id receiver nameNode : NodeId)
    (name : String) : Tells places (valueField visit id receiver nameNode name) := by
  refine .bind (visits receiver) fun receiverTy => .bindRead fun environment => ?_
  split
  · exact (setBinding_quiet id _).andThen fun _ => .pure _
  · split
    · refine (nameConstant_quiet nameNode).andThen fun _ => (flatten_quiet id _).andThen fun _ => ?_
      exact (bindStatic_quiet id _).andThen fun _ => .pure _
    · exact reject_tells id _ _

theorem field_tells (visits : VisitsTell places visit) (id : NodeId) :
    Tells places (field visit id) := by
  refine .bind (required_tells id .recv) fun receiver => ?_
  refine .bind (required_tells id .name) fun nameNode => .bindRead fun name => ?_
  refine (typeReceiver?_quiet receiver).andThen fun owner => ?_
  cases owner with
  | some owner => exact staticField_tells id owner name
  | none => exact valueField_tells visits id receiver nameNode name

theorem dispatch_tells (id : NodeId) (slots : List Slot) (items : List NodeId)
    (member : MemberId) (ty : Ty) : Tells places (dispatch id slots items member ty) := by
  refine .bind (coerceAll_tells .object slots) fun _ => (flatten_quiet id _).andThen fun _ => ?_
  exact (bindStatic_quiet id member).andThen fun _ => .pure ty

theorem accessor_tells (visits : VisitsTell places visit) (id receiver list : NodeId)
    (name what : String) (member : MemberId) (ty : Ty) :
    Tells places (accessor visit id receiver list name what member ty) := by
  refine .bind (visits receiver) fun receiverTy => .bindRead fun slots => ?_
  refine .bind (visitAll_tells visits slots) fun types => .bindRead fun environment => ?_
  dsimp only
  split
  · exact accept_tells id _ _ slots
  · split
    · exact dispatch_tells id slots _ _ _
    · exact reject_tells id _ _

theorem indexer_tells (visits : VisitsTell places visit) (id : NodeId) :
    Tells places (indexer visit id) := by
  rw [indexer_eq]
  refine .bind (required_tells id .recv) fun receiver => ?_
  refine (argumentList_quiet id).andThen fun list => ?_
  exact accessor_tells visits id receiver list _ _ _ _

/-! ### Calls -/

theorem applyValue_tells (id : NodeId) (name : String) (slots : List Slot) (args params : List Ty)
    (result : Ty) : Tells places (applyValue id name slots args params result) := by
  refine .bindRead fun environment => ?_
  dsimp only
  split
  · exact failAt_tells id _
  · refine .bind (coerceEach_tells _) fun _ => ?_
    refine .bindModify (fun _ _ => Tree.span_relabel _ _) ?_
    exact (bindInvoke_quiet id _ _).andThen fun _ => .pure result

theorem applyCallable_tells (id callee list : NodeId) (slots : List Slot) :
    Tells places (applyCallable id callee list slots) := by
  refine .bindRead fun environment => ?_
  dsimp only
  split
  · exact failAt_tells id _
  · exact dispatch_tells id slots _ _ _

theorem applyFunction_tells (id : NodeId) (name : String) (slots : List Slot) (args : List Ty) :
    Tells places (applyFunction id name slots args) :=
  .bindRead fun _ => conclude_tells id _ _ _ slots

theorem apply_tells (visits : VisitsTell places visit) (id : NodeId) :
    Tells places (apply visit id) := by
  refine .bind (required_tells id .name) fun nameNode => .bindRead fun name => ?_
  refine (argumentList_quiet id).andThen fun list => .bindRead fun slots => ?_
  refine .bind (visitAll_tells visits slots) fun args => .bindRead fun scopes => ?_
  dsimp only
  split
  · split
    · exact (bindInvoke_quiet id _ _).andThen fun _ => .pure _
    · exact failAt_tells id _
  · refine (isValue_quiet name).andThen fun isValue => ?_
    split
    · refine .bind (visits nameNode) fun valueTy => ?_
      split
      · exact applyValue_tells id name slots args _ _
      · split
        · exact applyCallable_tells id nameNode list slots
        · exact applyFunction_tells id name slots args
    · exact applyFunction_tells id name slots args

theorem applyStatic_tells (visits : VisitsTell places visit) (id : NodeId) (owner : Ty)
    (name : String) (slots : List Slot) : Tells places (applyStatic visit id owner name slots) := by
  refine .bind (visitAll_tells visits slots) fun args => .bindRead fun environment => ?_
  dsimp only
  split
  · exact failAt_tells id _
  · exact conclude_tells id _ _ _ slots

theorem applyDynamic_tells (id receiver nameNode list : NodeId) (slots : List Slot) :
    Tells places (applyDynamic id receiver nameNode list slots) := by
  refine .bindRead fun environment => ?_
  dsimp only
  split
  · exact failAt_tells id _
  · refine .bind (coerceAll_tells .object slots) fun _ => ?_
    refine (nameConstant_quiet nameNode).andThen fun _ => (flatten_quiet id _).andThen fun _ => ?_
    exact (bindInvoke_quiet id _ _).andThen fun _ => .pure _

theorem applyOnValue_tells (visits : VisitsTell places visit) (id receiver nameNode list : NodeId)
    (name : String) (slots : List Slot) :
    Tells places (applyOnValue visit id receiver nameNode list name slots) := by
  refine .bind (visits receiver) fun receiverTy => ?_
  refine .bind (visitAll_tells visits slots) fun args => .bindRead fun environment => ?_
  dsimp only
  split
  · exact accept_tells id _ _ slots
  · split
    · exact applyDynamic_tells id receiver nameNode list slots
    · exact reject_tells id _ _

theorem methodApply_tells (visits : VisitsTell places visit) (id : NodeId) :
    Tells places (methodApply visit id) := by
  refine .bind (required_tells id .recv) fun receiver => ?_
  refine .bind (required_tells id .name) fun nameNode => .bindRead fun name => ?_
  refine (argumentList_quiet id).andThen fun list => .bindRead fun slots => ?_
  refine (typeReceiver?_quiet receiver).andThen fun owner => ?_
  cases owner with
  | some owner => exact applyStatic_tells visits id owner name slots
  | none => exact applyOnValue_tells visits id receiver nameNode list name slots

theorem construct_tells (visits : VisitsTell places visit) (id : NodeId) :
    Tells places (construct visit id) := by
  refine .bind (required_tells id .type) fun typeNode => ?_
  refine .bind (annotation_tells typeNode) fun ty => ?_
  refine (argumentList_quiet id).andThen fun list => .bindRead fun slots => ?_
  refine .bind (visitAll_tells visits slots) fun args => .bindRead fun environment => ?_
  dsimp only
  split
  · refine .bind (convertArguments_tells slots _ _) fun _ => ?_
    exact (setBinding_quiet id _).andThen fun _ => .pure _
  · exact reject_tells id _ _

/-! ### Casts -/

theorem cast_tells (visits : VisitsTell places visit) (id : NodeId) :
    Tells places (cast visit id) := by
  refine .bind (required_tells id .type) fun typeNode => ?_
  refine .bind (annotation_tells typeNode) fun target => ?_
  refine .bind (requiredSlot_tells id .expr) fun slot => ?_
  refine (occupant_quiet slot).andThen fun inner => ?_
  refine .bind (visits inner) fun found => .bindRead fun environment => ?_
  have remade (tag : Tag) : Quiet places
      (modifyTree fun tree => (tree.make id [(.expr, inner)]).setTag id tag) :=
    .modifyTree fun _ _ => by rw [Tree.span_setTag, Tree.span_make]
  split
  · refine (make_quiet id _).andThen fun _ => ?_
    exact (bindStatic_quiet id _).andThen fun _ => .pure target
  · split
    · exact (remade .upCast).andThen fun _ => .pure target
    · split
      · exact (remade .downCast).andThen fun _ => .pure target
      · exact failAt_tells id _

theorem instanceOf_tells (visits : VisitsTell places visit) (id : NodeId) :
    Tells places (instanceOf visit id) := by
  refine .bind (required_tells id .left) fun left => .bind (visits left) fun found => ?_
  refine .bind (required_tells id .right) fun right => ?_
  refine .bind (annotation_tells right) fun target => .bindRead fun environment => ?_
  split
  · exact .pure _
  · exact .bind (warnAt_tells id _) fun _ => (setConst_quiet id _ _).tells

/-! ### Collections -/

theorem elements_tells (visits : VisitsTell places visit) (slots : List Slot) :
    Tells places (elements visit slots) := by
  refine .bind (visitAll_tells visits slots) fun types => ?_
  cases types with
  | nil => exact .pure _
  | cons first rest =>
      dsimp only
      split
      · exact .pure first
      · exact .bind (coerceAll_tells .object slots) fun _ => .pure _

theorem array_tells (visits : VisitsTell places visit) (id : NodeId) :
    Tells places (array visit id) :=
  .bindRead fun slots => .bind (elements_tells visits slots) fun _ => .pure _

theorem set_tells (visits : VisitsTell places visit) (id : NodeId) : Tells places (set visit id) :=
  .bindRead fun slots => .bind (elements_tells visits slots) fun _ => .pure _

theorem keys_tells (visits : VisitsTell places visit) (slots : List Slot) :
    Tells places (keys visit slots) := by
  induction slots with
  | nil => exact .pure ()
  | cons slot rest ih =>
      refine visitSlot_tells visits slot fun _ => ?_
      exact .bind (coerce_tells slot .string) fun _ => ih

theorem dict_tells (visits : VisitsTell places visit) (id : NodeId) :
    Tells places (dict visit id) := by
  refine .bindRead fun slots => ?_
  split
  · exact failAt_tells id _
  · refine .bind (keys_tells visits _) fun _ => ?_
    exact .bind (elements_tells visits _) fun _ => .pure _

theorem interpolation_tells (visits : VisitsTell places visit) (id : NodeId) :
    Tells places (interpolation visit id) := by
  refine .bindRead fun slots => .bind (visitAll_tells visits slots) fun _ => ?_
  refine .bind (coerceAll_tells .object slots) fun _ => ?_
  exact (bindInvoke_quiet id _ _).andThen fun _ => .pure _

end Rule

end ScriptTyping
