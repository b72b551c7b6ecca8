import ScriptTyping.Proofs.Locality.Conversion
import ScriptTyping.Proofs.Rule.Stages

/-!
The rules for expressions end alike on a realm.
-/

namespace ScriptTyping

namespace Rule

open Check

variable {realm : Realm} {id receiver nameNode list : NodeId} {slot : Slot} {slots : List Slot}
  {visit other : Visit}

/-! ### Literals -/

theorem number_obeys {α : Type} (inside : realm.inside id) (zero : α)
    (read : String → Except NumberTextError α) : Obeys realm Any (number id zero read) := by
  refine .bind (.textOf inside) fun text _ => ?_
  cases read text with
  | ok value => exact .pure trivial
  | error error => exact .bind (warnAt_obeys inside _) fun _ _ => .pure trivial

theorem integer_obeys (inside : realm.inside id) : Obeys realm Any (integer id) :=
  .bind (number_obeys inside _ _) fun _ _ => setConst_obeys inside _ _

theorem long_obeys (inside : realm.inside id) : Obeys realm Any (long id) :=
  .bind (number_obeys inside _ _) fun _ _ => setConst_obeys inside _ _

theorem double_obeys (inside : realm.inside id) : Obeys realm Any (double id) :=
  .bind (number_obeys inside _ _) fun _ _ => setConst_obeys inside _ _

theorem text_obeys (inside : realm.inside id) : Obeys realm Any (text id) :=
  .bind (.textOf inside) fun _ _ => setConst_obeys inside _ _

theorem string_obeys (inside : realm.inside id) : Obeys realm Any (string id) :=
  .bind (.textOf inside) fun _ _ => setConst_obeys inside _ _

theorem character_obeys (inside : realm.inside id) : Obeys realm Any (character id) := by
  refine .bind (.textOf inside) fun text _ => ?_
  dsimp only
  split
  · exact setConst_obeys inside _ _
  · exact setConst_obeys inside _ _

/-! ### Operators -/

theorem operand_obeys (inside : SlotIn realm slot) (found joined : Ty) :
    Obeys realm Any (operand slot found joined) := by
  unfold operand
  split
  · exact .pure trivial
  · split
    · refine .bind (occupant_obeys inside) fun node nodeInside => ?_
      refine .bind (.build fun _ _ joins => joins.convert nodeInside _ _ _) fun wrapper within => ?_
      refine .bindAny (.noteTyped wrapper) fun _ => ?_
      exact .bind (replace_obeys inside within) fun _ _ => .pure trivial
    · refine .bind .environment fun environment _ => ?_
      split
      · exact .bind (coerce_obeys inside joined) fun _ _ => .pure trivial
      · exact .pure trivial

theorem operands_obeys (operatorClass : OperatorClass) {left right : Slot × Ty}
    (leftIn : SlotIn realm left.1) (rightIn : SlotIn realm right.1) :
    Obeys realm Any (operands operatorClass left right) := by
  refine .bind .environment fun environment _ => ?_
  split
  · refine .bind (operand_obeys leftIn _ _) fun _ _ => ?_
    exact .bind (operand_obeys rightIn _ _) fun _ _ => .pure trivial
  · exact .pure trivial

theorem conclude_obeys (inside : realm.inside id) (hint : Hint) (what : String) (lookup : Lookup)
    (each : ∀ slot ∈ slots, SlotIn realm slot) :
    Obeys realm Any (conclude id hint what lookup slots) := by
  unfold conclude
  split
  · exact accept_obeys inside hint _ each
  · exact reject_obeys inside what _

theorem binary_agrees (alike : Alike realm visit other) (op : BinaryOp)
    (inside : realm.inside id) : Agrees realm Any (binary visit op id) (binary other op id) := by
  refine .bind (requiredSlot_obeys inside .left) fun left leftIn => ?_
  refine .bind (requiredSlot_obeys inside .right) fun right rightIn => ?_
  refine .bind (occupant_obeys leftIn) fun leftNode leftInside => ?_
  refine .bind (alike leftInside) fun leftTy _ => ?_
  refine .bind (occupant_obeys rightIn) fun rightNode rightInside => ?_
  refine .bind (alike rightInside) fun rightTy _ => ?_
  refine .bind (operands_obeys op.operatorClass leftIn rightIn) fun types _ => ?_
  exact .bind .environment fun _ _ => conclude_obeys inside _ _ _ (by simp [leftIn, rightIn])

theorem unary_agrees (alike : Alike realm visit other) (op : UnaryOp)
    (inside : realm.inside id) : Agrees realm Any (unary visit op id) (unary other op id) := by
  refine .bind (requiredSlot_obeys inside .expr) fun slot slotIn => ?_
  refine .bind (occupant_obeys slotIn) fun node nodeInside => ?_
  refine .bind (alike nodeInside) fun found _ => ?_
  refine .bind .environment fun environment _ => ?_
  refine .bind (operand_obeys slotIn _ _) fun ty _ => ?_
  exact .bind .environment fun _ _ => conclude_obeys inside _ _ _ (by simp [slotIn])

theorem connective_agrees (alike : Alike realm visit other) (inside : realm.inside id) :
    Agrees realm Any (connective visit id) (connective other id) := by
  refine .bind (enforce_agrees alike inside .left .bool) fun _ _ => ?_
  exact .bind (enforce_agrees alike inside .right .bool) fun _ _ => .pure trivial

theorem negation_agrees (alike : Alike realm visit other) (inside : realm.inside id) :
    Agrees realm Any (negation visit id) (negation other id) :=
  .bind (enforce_agrees alike inside .expr .bool) fun _ _ => .pure trivial

/-! ### Names and fields -/

theorem isValue_obeys (name : String) : Obeys realm Any (isValue name) :=
  .bind .scopes fun _ _ => .bind .environment fun _ _ => .pure trivial

theorem name_obeys (inside : realm.inside id) : Obeys realm Any (name id) := by
  refine .bind (.textOf inside) fun text _ => .bind .scopes fun scopes _ => ?_
  split
  · exact .pure trivial
  · refine .bind .environment fun environment _ => ?_
    split
    · exact .bind (setBinding_obeys inside _) fun _ _ => .pure trivial
    · exact failAt_obeys inside _

theorem typeReceiver?_obeys (inside : realm.inside receiver) :
    Obeys realm Any (typeReceiver? receiver) := by
  refine .bind (.tagOf inside) fun tag _ => ?_
  split
  · refine .bind (.textOf inside) fun name _ => .bind (isValue_obeys name) fun isValue _ => ?_
    split
    · exact .pure trivial
    · refine .bind .environment fun environment _ => ?_
      split
      · refine .bind (setType_obeys inside _) fun _ _ => ?_
        exact .bind (markDone_obeys inside) fun _ _ => .pure trivial
      · exact .pure trivial
  · exact .pure trivial

theorem nameConstant_obeys (inside : realm.inside id) : Obeys realm Any (nameConstant id) := by
  refine .bind (.textOf inside) fun name _ => ?_
  refine .bind (modify_obeys inside (fun _ => .inr rfl) fun _ admits => admits.same rfl rfl) ?_
  intro _ _
  exact .bind (setConst_obeys inside _ _) fun _ _ => markDone_obeys inside

theorem staticField_obeys (inside : realm.inside id) (owner : Ty) (name : String) :
    Obeys realm Any (staticField id owner name) := by
  refine .bind .environment fun environment _ => ?_
  split
  · exact reject_obeys inside _ _
  · dsimp only
    split
    · exact .bind (setBinding_obeys inside _) fun _ _ => .pure trivial
    · exact failAt_obeys inside _

theorem valueField_agrees (alike : Alike realm visit other) (inside : realm.inside id)
    (receiverIn : realm.inside receiver) (nameIn : realm.inside nameNode) (name : String) :
    Agrees realm Any (valueField visit id receiver nameNode name)
      (valueField other id receiver nameNode name) := by
  refine .bind (alike receiverIn) fun receiverTy _ => .bind .environment fun environment _ => ?_
  split
  · exact .bind (setBinding_obeys inside _) fun _ _ => .pure trivial
  · split
    · refine .bind (nameConstant_obeys nameIn) fun _ _ => ?_
      refine .bind (flatten_obeys inside (by simp [receiverIn, nameIn])) fun _ _ => ?_
      exact .bind (setBinding_obeys inside _) fun _ _ => .pure trivial
    · exact reject_obeys inside _ _

theorem field_agrees (alike : Alike realm visit other) (inside : realm.inside id) :
    Agrees realm Any (field visit id) (field other id) := by
  refine .bind (required_obeys inside .recv) fun receiver receiverIn => ?_
  refine .bind (required_obeys inside .name) fun nameNode nameIn => ?_
  refine .bind (.textOf nameIn) fun name _ => ?_
  refine .bind (typeReceiver?_obeys receiverIn) fun owner _ => ?_
  cases owner with
  | some owner => exact staticField_obeys inside owner name
  | none => exact valueField_agrees alike inside receiverIn nameIn name

theorem dispatch_obeys (inside : realm.inside id) (slotsIn : ∀ slot ∈ slots, SlotIn realm slot)
    {items : List NodeId} (itemsIn : ∀ item ∈ items, realm.inside item) (member : MemberId)
    (ty : Ty) : Obeys realm Any (dispatch id slots items member ty) := by
  refine .bind (coerceAll_obeys .object slotsIn) fun _ _ => ?_
  refine .bind (flatten_obeys inside itemsIn) fun _ _ => ?_
  exact .bind (setBinding_obeys inside _) fun _ _ => .pure trivial

theorem accessor_agrees (alike : Alike realm visit other) (inside : realm.inside id)
    (receiverIn : realm.inside receiver) (listIn : realm.inside list) (name what : String)
    (member : MemberId) (ty : Ty) :
    Agrees realm Any (accessor visit id receiver list name what member ty)
      (accessor other id receiver list name what member ty) := by
  refine .bind (alike receiverIn) fun receiverTy _ => ?_
  refine .bind (slots_obeys listIn) fun slots slotsIn => ?_
  refine .bind (visitAll_agrees alike slotsIn) fun types _ => .bind .environment fun _ _ => ?_
  dsimp only
  split
  · exact accept_obeys inside _ _ slotsIn
  · split
    · exact dispatch_obeys inside slotsIn (by simp [receiverIn, listIn]) _ _
    · exact reject_obeys inside _ _

theorem indexer_agrees (alike : Alike realm visit other) (inside : realm.inside id) :
    Agrees realm Any (indexer visit id) (indexer other id) := by
  rw [indexer_eq, indexer_eq]
  refine .bind (required_obeys inside .recv) fun receiver receiverIn => ?_
  refine .bind (argumentList_obeys inside) fun list listIn => ?_
  exact accessor_agrees alike inside receiverIn listIn _ _ _ _

/-! ### Calls -/

theorem applyValue_obeys (inside : realm.inside id) (name : String)
    (slotsIn : ∀ slot ∈ slots, SlotIn realm slot) (args params : List Ty) (result : Ty) :
    Obeys realm Any (applyValue id name slots args params result) := by
  refine .bind .environment fun environment _ => ?_
  dsimp only
  split
  · exact failAt_obeys inside _
  · refine .bind (coerceEach_obeys fun pair member => ?_) fun _ _ => ?_
    · exact slotsIn pair.1 (List.of_mem_zip member).1
    · refine .bind (.modifyTree fun _ _ joins => joins.relabel inside .name .recv) fun _ _ => ?_
      exact .bind (setBinding_obeys inside _) fun _ _ => .pure trivial

theorem applyCallable_obeys (inside : realm.inside id) {callee : NodeId}
    (calleeIn : realm.inside callee) (listIn : realm.inside list)
    (slotsIn : ∀ slot ∈ slots, SlotIn realm slot) :
    Obeys realm Any (applyCallable id callee list slots) := by
  refine .bind .environment fun environment _ => ?_
  dsimp only
  split
  · exact failAt_obeys inside _
  · exact dispatch_obeys inside slotsIn (by simp [calleeIn, listIn]) _ _

theorem applyFunction_obeys (inside : realm.inside id) (name : String)
    (slotsIn : ∀ slot ∈ slots, SlotIn realm slot) (args : List Ty) :
    Obeys realm Any (applyFunction id name slots args) :=
  .bind .environment fun _ _ => conclude_obeys inside _ _ _ slotsIn

theorem apply_agrees (alike : Alike realm visit other) (inside : realm.inside id) :
    Agrees realm Any (apply visit id) (apply other id) := by
  refine .bind (required_obeys inside .name) fun nameNode nameIn => ?_
  refine .bind (.textOf nameIn) fun name _ => ?_
  refine .bind (argumentList_obeys inside) fun list listIn => ?_
  refine .bind (slots_obeys listIn) fun slots slotsIn => ?_
  refine .bind (visitAll_agrees alike slotsIn) fun args _ => .bind .scopes fun scopes _ => ?_
  dsimp only
  split
  · split
    · exact .bind (setBinding_obeys inside _) fun _ _ => .pure trivial
    · exact failAt_obeys inside _
  · refine .bind (isValue_obeys name) fun isValue _ => ?_
    split
    · refine .bind (alike nameIn) fun valueTy _ => ?_
      split
      · exact applyValue_obeys inside name slotsIn args _ _
      · split
        · exact applyCallable_obeys inside nameIn listIn slotsIn
        · exact applyFunction_obeys inside name slotsIn args
    · exact applyFunction_obeys inside name slotsIn args

theorem applyStatic_agrees (alike : Alike realm visit other) (inside : realm.inside id)
    (owner : Ty) (name : String) (slotsIn : ∀ slot ∈ slots, SlotIn realm slot) :
    Agrees realm Any (applyStatic visit id owner name slots)
      (applyStatic other id owner name slots) := by
  refine .bind (visitAll_agrees alike slotsIn) fun args _ => .bind .environment fun _ _ => ?_
  dsimp only
  split
  · exact failAt_obeys inside _
  · exact conclude_obeys inside _ _ _ slotsIn

theorem applyDynamic_obeys (inside : realm.inside id) (receiverIn : realm.inside receiver)
    (nameIn : realm.inside nameNode) (listIn : realm.inside list)
    (slotsIn : ∀ slot ∈ slots, SlotIn realm slot) :
    Obeys realm Any (applyDynamic id receiver nameNode list slots) := by
  refine .bind .environment fun environment _ => ?_
  dsimp only
  split
  · exact failAt_obeys inside _
  · refine .bind (coerceAll_obeys .object slotsIn) fun _ _ => ?_
    refine .bind (nameConstant_obeys nameIn) fun _ _ => ?_
    refine .bind (flatten_obeys inside (by simp [receiverIn, nameIn, listIn])) fun _ _ => ?_
    exact .bind (setBinding_obeys inside _) fun _ _ => .pure trivial

theorem applyOnValue_agrees (alike : Alike realm visit other) (inside : realm.inside id)
    (receiverIn : realm.inside receiver) (nameIn : realm.inside nameNode)
    (listIn : realm.inside list) (name : String)
    (slotsIn : ∀ slot ∈ slots, SlotIn realm slot) :
    Agrees realm Any (applyOnValue visit id receiver nameNode list name slots)
      (applyOnValue other id receiver nameNode list name slots) := by
  refine .bind (alike receiverIn) fun receiverTy _ => ?_
  refine .bind (visitAll_agrees alike slotsIn) fun args _ => .bind .environment fun _ _ => ?_
  dsimp only
  split
  · exact accept_obeys inside _ _ slotsIn
  · split
    · exact applyDynamic_obeys inside receiverIn nameIn listIn slotsIn
    · exact reject_obeys inside _ _

theorem methodApply_agrees (alike : Alike realm visit other) (inside : realm.inside id) :
    Agrees realm Any (methodApply visit id) (methodApply other id) := by
  refine .bind (required_obeys inside .recv) fun receiver receiverIn => ?_
  refine .bind (required_obeys inside .name) fun nameNode nameIn => ?_
  refine .bind (.textOf nameIn) fun name _ => ?_
  refine .bind (argumentList_obeys inside) fun list listIn => ?_
  refine .bind (slots_obeys listIn) fun slots slotsIn => ?_
  refine .bind (typeReceiver?_obeys receiverIn) fun owner _ => ?_
  cases owner with
  | some owner => exact applyStatic_agrees alike inside owner name slotsIn
  | none => exact applyOnValue_agrees alike inside receiverIn nameIn listIn name slotsIn

theorem construct_agrees (alike : Alike realm visit other) (inside : realm.inside id) :
    Agrees realm Any (construct visit id) (construct other id) := by
  refine .bind (required_obeys inside .type) fun typeNode typeIn => ?_
  refine .bind (annotation_obeys typeIn) fun ty _ => ?_
  refine .bind (argumentList_obeys inside) fun list listIn => ?_
  refine .bind (slots_obeys listIn) fun slots slotsIn => ?_
  refine .bind (visitAll_agrees alike slotsIn) fun args _ => .bind .environment fun _ _ => ?_
  dsimp only
  split
  · refine .bind (convertArguments_obeys slotsIn _ _) fun _ _ => ?_
    exact .bind (setBinding_obeys inside _) fun _ _ => .pure trivial
  · exact reject_obeys inside _ _

/-! ### Casts -/

theorem cast_agrees (alike : Alike realm visit other) (inside : realm.inside id) :
    Agrees realm Any (cast visit id) (cast other id) := by
  refine .bind (required_obeys inside .type) fun typeNode typeIn => ?_
  refine .bind (annotation_obeys typeIn) fun target _ => ?_
  refine .bind (requiredSlot_obeys inside .expr) fun slot slotIn => ?_
  refine .bind (occupant_obeys slotIn) fun inner innerIn => ?_
  refine .bind (alike innerIn) fun found _ => .bind .environment fun environment _ => ?_
  have remade {tag : Tag} (given : tag.isGiven = true) : Obeys realm Any
      (modifyTree fun tree => (tree.make id [(.expr, inner)]).setTag id tag) := by
    refine .modifyTree fun left right joins => ?_
    have made := joins.make inside (by simpa using innerIn : ∀ pair ∈ [(Label.expr, inner)], _)
    exact made.trans (made.joins.setTag inside given)
  split
  · refine .bind (make_obeys inside (by simpa using innerIn)) fun _ _ => ?_
    exact .bind (setBinding_obeys inside _) fun _ _ => .pure trivial
  · split
    · exact .bind (remade rfl) fun _ _ => .pure trivial
    · split
      · exact .bind (remade rfl) fun _ _ => .pure trivial
      · exact failAt_obeys inside _

theorem instanceOf_agrees (alike : Alike realm visit other) (inside : realm.inside id) :
    Agrees realm Any (instanceOf visit id) (instanceOf other id) := by
  refine .bind (required_obeys inside .left) fun left leftIn => .bind (alike leftIn) fun _ _ => ?_
  refine .bind (required_obeys inside .right) fun right rightIn => ?_
  refine .bind (annotation_obeys rightIn) fun target _ => .bind .environment fun _ _ => ?_
  split
  · exact .pure trivial
  · exact .bind (warnAt_obeys inside _) fun _ _ => setConst_obeys inside _ _

/-! ### Collections -/

theorem elements_agrees (alike : Alike realm visit other)
    (slotsIn : ∀ slot ∈ slots, SlotIn realm slot) :
    Agrees realm Any (elements visit slots) (elements other slots) := by
  refine .bind (visitAll_agrees alike slotsIn) fun types _ => ?_
  cases types with
  | nil => exact .pure trivial
  | cons first rest =>
      dsimp only
      split
      · exact .pure trivial
      · exact .bind (coerceAll_obeys .object slotsIn) fun _ _ => .pure trivial

theorem array_agrees (alike : Alike realm visit other) (inside : realm.inside id) :
    Agrees realm Any (array visit id) (array other id) := by
  refine .bind (slots_obeys inside) fun slots slotsIn => ?_
  exact .bind (elements_agrees alike slotsIn) fun _ _ => .pure trivial

theorem set_agrees (alike : Alike realm visit other) (inside : realm.inside id) :
    Agrees realm Any (set visit id) (set other id) := by
  refine .bind (slots_obeys inside) fun slots slotsIn => ?_
  exact .bind (elements_agrees alike slotsIn) fun _ _ => .pure trivial

theorem keys_agrees (alike : Alike realm visit other)
    (slotsIn : ∀ slot ∈ slots, SlotIn realm slot) :
    Agrees realm Any (keys visit slots) (keys other slots) := by
  induction slots with
  | nil => exact .pure trivial
  | cons slot rest ih =>
      have slotIn := slotsIn slot List.mem_cons_self
      refine .bind (occupant_obeys slotIn) fun node nodeIn => ?_
      refine .bind (alike nodeIn) fun _ _ => .bind (coerce_obeys slotIn .string) fun _ _ => ?_
      exact ih fun later member => slotsIn later (List.mem_cons_of_mem _ member)

theorem dict_agrees (alike : Alike realm visit other) (inside : realm.inside id) :
    Agrees realm Any (dict visit id) (dict other id) := by
  refine .bind (slots_obeys inside) fun slots slotsIn => ?_
  split
  · exact failAt_obeys inside _
  · obtain ⟨evens, odds⟩ := alternate_subset slots
    refine .bind (keys_agrees alike fun slot member => slotsIn slot (evens member)) ?_
    refine fun _ _ => .bind (elements_agrees alike fun slot member => ?_) fun _ _ => .pure trivial
    exact slotsIn slot (odds member)

theorem interpolation_agrees (alike : Alike realm visit other) (inside : realm.inside id) :
    Agrees realm Any (interpolation visit id) (interpolation other id) := by
  refine .bind (slots_obeys inside) fun slots slotsIn => ?_
  refine .bind (visitAll_agrees alike slotsIn) fun _ _ => ?_
  refine .bind (coerceAll_obeys .object slotsIn) fun _ _ => ?_
  exact .bind (setBinding_obeys inside _) fun _ _ => .pure trivial

end Rule

end ScriptTyping
