import ScriptTyping.Proofs.Locality.Step

/-!
The steps that rules share end alike on a realm: reading and replacing children, failing at a node,
conversions, annotations, arguments and lookups.
-/

namespace ScriptTyping

namespace Check

def SlotIn (realm : Realm) (slot : Slot) : Prop := realm.inside slot.parent

def Alike (realm : Realm) (visit other : Visit) : Prop :=
  ∀ {id : NodeId}, realm.inside id → Agrees realm Any (visit id) (other id)

section Steps

variable {α : Type} {realm : Realm} {fits : α → Prop} {id kid node : NodeId} {label : Label}
  {slot : Slot} {slots : List Slot} {visit other : Visit}

theorem failAt_obeys (inside : realm.inside id) (cause : ErrorCause) :
    Obeys realm fits (failAt id cause) :=
  .bind (.spanOf inside) fun _ starts => .fail starts

theorem warnAt_obeys (inside : realm.inside id) (cause : WarningCause) :
    Obeys realm Any (warnAt id cause) :=
  .bind (.spanOf inside) fun _ _ => .warn _

/-! ### Changes of one node -/

theorem modify_obeys (inside : realm.inside id) {change : Node → Node}
    (kind : ∀ node : Node, node.tag.Leads (change node).tag)
    (admits : ∀ node, realm.Admits node → realm.Admits (change node)) :
    Obeys realm Any (modifyTree (·.modify id change)) :=
  .modifyTree fun left _ joins => joins.modify inside kind (admits (left.get id))

theorem setType_obeys (inside : realm.inside id) (ty : Ty) : Obeys realm Any (setType id ty) :=
  modify_obeys inside (fun _ => .refl _) fun _ admits => admits.same rfl rfl

theorem setBinding_obeys (inside : realm.inside id) (binding : Binding) :
    Obeys realm Any (setBinding id binding) :=
  modify_obeys inside (fun _ => .refl _) fun _ admits => admits.same rfl rfl

theorem setConst_obeys (inside : realm.inside id) (ty : Ty) (value : Const) :
    Obeys realm Any (setConst id ty value) :=
  .bind (modify_obeys inside (fun _ => .refl _) fun _ admits => admits.same rfl rfl) fun _ _ =>
    .pure trivial

theorem markDone_obeys (inside : realm.inside id) : Obeys realm Any (markDone id) :=
  modify_obeys inside (fun _ => .refl _) fun _ admits => admits.same rfl rfl

theorem make_obeys (inside : realm.inside id) {children : List (Label × NodeId)}
    (each : ∀ pair ∈ children, realm.inside pair.2) :
    Obeys realm Any (modifyTree (·.make id children)) :=
  .modifyTree fun _ _ joins => joins.make inside each

theorem flatten_obeys (inside : realm.inside id) {items : List NodeId}
    (each : ∀ item ∈ items, realm.inside item) :
    Obeys realm Any (modifyTree (·.flatten id items)) :=
  .modifyTree fun _ _ joins => joins.flatten inside each

/-! ### Children -/

theorem required_obeys (inside : realm.inside id) (label : Label) :
    Obeys realm realm.inside (required id label) := by
  refine .bind (.child? inside label) fun found member => ?_
  cases found with
  | none => exact .bind (.tagOf inside) fun _ _ => failAt_obeys inside _
  | some kid => exact .pure (member kid rfl)

theorem requiredOrFirst_obeys (inside : realm.inside id) (label : Label) :
    Obeys realm realm.inside (requiredOrFirst id label) := by
  refine .bind (.child? inside label) fun found member => ?_
  refine .bind (.childIds inside) fun kids each => ?_
  cases found with
  | some kid => exact .pure (member kid rfl)
  | none =>
      cases kids with
      | nil => exact required_obeys inside label
      | cons first rest => exact .pure (each first List.mem_cons_self)

theorem occupant_obeys (inside : SlotIn realm slot) :
    Obeys realm realm.inside (occupant slot) := by
  refine .bindTree fun left right joins => ?_
  rw [joins.childAt? inside]
  cases found : left.childAt? slot.parent slot.index with
  | some kid => exact .pure (joins.closed.childAt? inside found)
  | none => exact .stop trivial

theorem replace_obeys (inside : SlotIn realm slot) (kidInside : realm.inside kid) :
    Obeys realm Any (replace slot kid) := by
  refine .bind (occupant_obeys inside) fun _ _ => ?_
  exact modify_obeys inside (fun _ => .refl _) fun _ admits => admits.replaceAt _ kidInside

theorem requiredSlot_obeys (inside : realm.inside id) (label : Label) :
    Obeys realm (SlotIn realm) (requiredSlot id label) := by
  refine .bindTree fun left right joins => ?_
  rw [joins.get inside]
  cases (left.get id).indexOf? label with
  | some index => exact .pure inside
  | none => exact .bind (required_obeys inside label) fun _ _ => .pure inside

theorem slots_obeys (inside : realm.inside id) :
    Obeys realm (∀ slot ∈ ·, SlotIn realm slot) (Check.slots id) := by
  refine .read fun left right pairs => ?_
  refine ⟨by rw [Tree.slots, pairs.trees.get inside, Tree.slots], fun slot member => ?_⟩
  obtain ⟨index, _, rfl⟩ := List.mem_map.mp member
  exact inside

/-! ### Conversions -/

theorem noteConversion_obeys (node coerced : NodeId) :
    Obeys realm Any (noteConversion node coerced) := by
  unfold noteConversion
  split
  · exact .pure trivial
  · exact .noteTyped coerced

theorem coerce_obeys (inside : SlotIn realm slot) (ty : Ty) :
    Obeys realm realm.inside (coerce slot ty) := by
  refine .bind (occupant_obeys inside) fun node nodeInside => ?_
  refine .bind .environment fun environment _ => ?_
  refine .bind (.build fun left right joins => joins.enforce nodeInside environment ty) ?_
  rintro result ⟨failed, succeeded⟩
  have raised : Obeys realm realm.inside (Check.orRaise result) := by
    refine .orRaise ?_
    cases result with
    | ok coerced => exact succeeded coerced rfl
    | error failure => exact failed failure rfl
  refine .bind raised fun coerced coercedInside => ?_
  refine .bindAny (noteConversion_obeys node coerced) fun _ => ?_
  exact .bind (replace_obeys inside coercedInside) fun _ _ => .pure coercedInside

theorem coerceAll_obeys (ty : Ty) (each : ∀ slot ∈ slots, SlotIn realm slot) :
    Obeys realm Any (coerceAll ty slots) := by
  induction slots with
  | nil => exact .pure trivial
  | cons slot rest ih =>
      refine .bind (coerce_obeys (each slot List.mem_cons_self) ty) fun _ _ => ?_
      exact ih fun other member => each other (List.mem_cons_of_mem _ member)

theorem coerceEach_obeys {pairs : List (Slot × Ty)}
    (each : ∀ pair ∈ pairs, SlotIn realm pair.1) : Obeys realm Any (coerceEach pairs) := by
  induction pairs with
  | nil => exact .pure trivial
  | cons pair rest ih =>
      refine .bind (coerce_obeys (each pair List.mem_cons_self) pair.2) fun _ _ => ?_
      exact ih fun other member => each other (List.mem_cons_of_mem _ member)

theorem denotation_obeys (inside : realm.inside node) : Obeys realm Any ( denotation node) := by
  refine .bind (.textOf inside) fun text _ => .bind .environment fun environment _ => ?_
  cases environment.resolveType text with
  | ok ty => exact .pure trivial
  | error error => exact failAt_obeys inside _

theorem annotation_obeys (inside : realm.inside node) : Obeys realm Any ( annotation node) := by
  refine .bind (denotation_obeys inside) fun ty _ => ?_
  exact .bind (setType_obeys inside ty) fun _ _ => .pure trivial

theorem annotation?_obeys (inside : realm.inside id) (label : Label) :
    Obeys realm Any (annotation? id label) := by
  refine .bind (.child? inside label) fun found member => ?_
  cases found with
  | some node => exact .bind (annotation_obeys (member node rfl)) fun _ _ => .pure trivial
  | none => exact .pure trivial

/-! ### Arguments and lookups -/

theorem argumentList_obeys (inside : realm.inside id) :
    Obeys realm realm.inside (argumentList id) :=
  .build fun _ _ joins => joins.argumentList inside .param

theorem convertArguments_obeys (each : ∀ slot ∈ slots, SlotIn realm slot)
    (resolution : Resolution) (indices : List Nat) :
    Obeys realm Any (convertArguments slots resolution indices) := by
  induction indices with
  | nil => exact .pure trivial
  | cons index rest ih =>
      rw [convertArguments]
      split
      · rename_i slot ty found _
        exact .bind (coerce_obeys (each slot (List.mem_of_getElem? found)) ty) fun _ _ => ih
      · exact .stop trivial

theorem accept_obeys (inside : realm.inside id) (hint : Hint) (resolution : Resolution)
    (each : ∀ slot ∈ slots, SlotIn realm slot) :
    Obeys realm Any (accept id hint resolution slots) := by
  refine .bind (convertArguments_obeys each resolution _) fun _ _ => ?_
  exact .bind (setBinding_obeys inside _) fun _ _ => .pure trivial

theorem reject_obeys (inside : realm.inside id) (what : String) (rejected : List Rejection) :
    Obeys realm fits (reject id what rejected) :=
  .bind .environment fun _ _ => failAt_obeys inside _

/-! ### Checking children -/

theorem enforce_agrees (alike : Alike realm visit other) (inside : realm.inside id) (label : Label)
    (ty : Ty) : Agrees realm realm.inside (enforce visit id label ty)
      (enforce other id label ty) := by
  refine .bind (requiredSlot_obeys inside label) fun slot slotIn => ?_
  refine .bind (occupant_obeys slotIn) fun node nodeInside => ?_
  exact .bind (alike nodeInside) fun _ _ => coerce_obeys slotIn ty

theorem visitAll_agrees (alike : Alike realm visit other)
    (each : ∀ slot ∈ slots, SlotIn realm slot) :
    Agrees realm Any (visitAll visit slots) (visitAll other slots) := by
  induction slots with
  | nil => exact .pure trivial
  | cons slot rest ih =>
      refine .bind (occupant_obeys (each slot List.mem_cons_self)) fun node nodeInside => ?_
      refine .bind (alike nodeInside) fun _ _ => ?_
      refine .bind (ih fun later member => each later (List.mem_cons_of_mem _ member)) fun _ _ => ?_
      exact .pure trivial

end Steps

end Check

end ScriptTyping
