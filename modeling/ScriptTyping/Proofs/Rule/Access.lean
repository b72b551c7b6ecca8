import ScriptTyping.Proofs.Rule.Lookup

/-!
Names, fields and indexers.
-/

namespace ScriptTyping

/-- What calls a member as an indexer, or as an assignment to one, has what the rules ensure. -/
theorem Branch.Facts.ofIndexed {premise : Premise} {environment : Environment}
    {errors : List CheckError} {returnType : Option Ty} {branch : Branch} {hook : MemberId}
    {more : Nat} (hooks : branch.node.tag.Hooks hook more)
    (called : branch.node.binding.isCall = true)
    (calls : branch.Calls environment [.apply, .methodApply])
    (serves : branch.Serves environment errors) (hooked : branch.Indexed premise hook more) :
    branch.Facts premise environment errors returnType := by
  unfold Branch.Facts
  generalize branch.node.tag = tag at hooks
  cases hooks with
  | get => exact ⟨calls, serves, fun _ => hooked⟩
  | set => exact ⟨calls, fun _ => .ofCall called, serves, fun _ _ => hooked⟩

namespace Rule

open Check

variable {premise : Premise} {calm : Calm} {first : Environment} {seen : List Label}
  {unseen : Nat → Option Label → Prop} {old : CheckState} {branch kid : Branch} {visit : Visit}
  {tag : Tag} {index : Nat}

theorem name_yields (isOpen : Open premise calm first (Unseen []) old branch)
    (isTag : branch.node.tag = .name) (unbound : branch.node.binding = .unbound) :
    (name branch.id).Yields calm old branch (Ruled premise first) := by
  refine .bindRead isOpen.stands (.bindRead isOpen.stands ?_)
  split
  · exact .pure isOpen.stands (isOpen.closeUnread (.inl isTag) (fun _ => by simp [unbound])
      (.ofOther fun _ _ _ => by simp [Branch.typed, unbound]))
  · refine .bindRead isOpen.stands ?_
    split
    · rename_i globalId found
      refine .bindModify isOpen rfl rfl (isOpen.inside.reading (.inl isTag) _) ?_
      intro new opens environment _
      refine .pure opens.stands (opens.closeRead (.inl isTag) ⟨?_, ?_, ?_⟩
        (.ofOther fun _ _ _ => by simp [Branch.typed]))
      · intro _ _ index kid found _
        exact opens.silent found fun _ none => absurd none List.not_mem_nil
      · intro other bound
        simp only [Branch.typed, Branch.node_alter, Binding.field.injEq, FieldTarget.global.injEq,
          true_and] at bound
        subst bound
        rw [environment]
        exact ⟨(Array.findIdx?_eq_some_iff_getElem.mp found).1, rfl⟩
      · intro memberId bound
        simp [Branch.typed] at bound
    · exact .failAt isOpen.stands _ rfl

theorem isValue_yields (stands : old.tree.Stands branch) (name : String) :
    (isValue name).Yields calm old branch fun _ new after => new = old ∧ after = branch ∧ True := by
  refine .bindRead stands ?_
  exact .bindRead stands (.pure stands ⟨rfl, rfl, trivial⟩)

/-- A receiver that names a type has the type after that and is not visited. -/
theorem typeReceiver?_yields (isOpen : Open premise calm first (Unseen seen) old branch)
    (isKid : branch.Kid .recv index kid) (isNew : Label.recv ∉ seen) :
    (typeReceiver? kid.id).Yields calm old branch fun owner new after =>
      (owner = none ∧ new = old ∧ after = branch) ∨
        owner.isSome = true ∧ (∃ newKid, newKid.label = kid.label ∧ newKid.node.tag = .name ∧
          newKid.node.ty = owner ∧ after = branch.setKid index newKid) ∧
          Open premise calm first (Unseen (.recv :: seen)) new after := by
  have same : (pure none : Check (Option Ty)).Yields calm old branch fun owner new after =>
      (owner = none ∧ new = old ∧ after = branch) ∨
        owner.isSome = true ∧ (∃ newKid, newKid.label = kid.label ∧ newKid.node.tag = .name ∧
          newKid.node.ty = owner ∧ after = branch.setKid index newKid) ∧
          Open premise calm first (Unseen (.recv :: seen)) new after :=
    .pure isOpen.stands (.inl ⟨rfl, rfl, rfl⟩)
  have raw := isOpen.raw index kid isKid.found (unseen_kid isKid isNew)
  refine .bindRead isOpen.stands ?_
  rw [(isOpen.stands.kid isKid.mem).holds.tag_eq]
  split
  · rename_i isName
    refine .bindRead isOpen.stands (.bindSame (isValue_yields isOpen.stands _) ?_)
    intro isValue _
    split
    · exact same
    · refine .bindRead isOpen.stands ?_
      split
      · rename_i owner _
        have stands := isOpen.stands.kid isKid.mem
        have typed : old.tree.Turns kid (old.tree.setType kid.id owner) (kid.typed owner) :=
          .alter stands rfl rfl
        let newKid := (kid.typed owner).alter fun node => { node with done := true }
        have turns : old.tree.Turns kid ((old.tree.setType kid.id owner).markDone kid.id) newKid :=
          typed.trans (.alter typed.stands rfl rfl)
        have notes : newKid.notes = kid.notes := by
          rw [Branch.notes_below (by simp [newKid, Branch.typed, isName]),
            Branch.notes_below (by simp [isName])]
          rfl
        have facts : newKid.Facts premise old.environment old.errors old.scopes.returnType? := by
          unfold Branch.Facts
          simp only [newKid, Branch.typed, Branch.node_alter, isName]
          exact .ofOther fun _ => by simp [raw.blank.binding_eq]
        have settled : Settled premise first old.moment old.scopes.returnType? newKid :=
          .checked isOpen.leads .refl facts (raw.applies.alike rfl rfl) (fun isDated => by
            simp [newKid, Branch.typed, Node.isDated, isName, raw.blank.binding_eq,
              Binding.callee?] at isDated) (fun _ => rfl) fun inner member => (raw.kid member).settled
        obtain ⟨becomes, opens⟩ := isOpen.changeKid isKid.found turns notes settled
          (fun _ _ => unseen_cons) (not_unseen_cons isKid)
        exact .ofRun rfl becomes (.inr ⟨rfl, ⟨newKid, rfl, isName, rfl, rfl⟩, opens⟩)
      · exact same
  · exact same

/-- The name of a member becomes a constant that is not visited. -/
theorem nameConstant_yields (isOpen : Open premise calm first (Unseen seen) old branch)
    (isKid : branch.Kid .name index kid) (isNew : Label.name ∉ seen) :
    (nameConstant kid.id).Yields calm old branch fun _ new after =>
      ∃ newKid, newKid.label = kid.label ∧ newKid.id = kid.id ∧ newKid.node.tag = .text ∧
        newKid.node.ty = some .string ∧ after = branch.setKid index newKid ∧
        Open premise calm first (Unseen (.name :: seen)) new after ∧
        new.environment = old.environment := by
  have raw := isOpen.raw index kid isKid.found (unseen_kid isKid isNew)
  let name := old.tree.text kid.id
  let text (node : Node) : Node := { node with tag := .text }
  let const (node : Node) : Node := { node with ty := some .string, binding := .const (.string name) }
  let done (node : Node) : Node := { node with done := true }
  let newKid := ((kid.alter text).alter const).alter done
  have stands := isOpen.stands.kid isKid.mem
  let renamed := old.tree.modify kid.id text
  let folded := renamed.modify kid.id const
  have turnsText : old.tree.Turns kid renamed (kid.alter text) := .alter stands rfl rfl
  have turnsConst : old.tree.Turns kid folded ((kid.alter text).alter const) :=
    turnsText.trans (.alter turnsText.stands rfl rfl)
  have turns : old.tree.Turns kid (folded.modify kid.id done) newKid :=
    turnsConst.trans (.alter turnsConst.stands rfl rfl)
  have settled : Settled premise first old.moment old.scopes.returnType? newKid :=
    .checked isOpen.leads .refl (.ofFree rfl) (.ofOther rfl) nofun (fun _ => rfl)
      fun inner member => (raw.kid member).settled
  have notes : newKid.notes = kid.notes := by
    rw [Branch.notes_below (by simp [newKid, text, const, done]), Branch.notes_eq kid,
      Node.notes_open raw.blank.done_eq, zero_add]
    rfl
  obtain ⟨becomes, opens⟩ := isOpen.changeKid isKid.found turns notes settled
    (fun _ _ => unseen_cons) (not_unseen_cons isKid)
  exact .ofRun rfl becomes ⟨newKid, rfl, rfl, rfl, rfl, rfl, opens, rfl⟩

/-! ### Fields -/

/-- A field that is bound to a member. -/
theorem bindField_yields (isOpen : Open premise calm first (Unseen [.recv]) old branch)
    (isTag : branch.node.tag = .field) {member : MemberId}
    (registered : member < old.environment.registry.members.size) (ty : Ty) :
    (setBinding branch.id (.field .get (.member member)) >>= fun _ => pure ty).Yields calm old branch
      (Ruled premise first) := by
  refine .bindModify isOpen rfl rfl (isOpen.inside.reading (.inr isTag) _) ?_
  intro new opens environment _
  refine .pure opens.stands (opens.closeRead (.inr isTag) ⟨?_, ?_, ?_⟩
    (.ofOther fun _ _ _ => by simp [Branch.typed]))
  · intro _ _ index kid found other
    refine opens.silent found fun label member => ?_
    rw [List.mem_singleton.mp member]
    exact other
  · intro globalId bound
    simp [Branch.typed] at bound
  · intro other bound
    simp only [Branch.typed, Branch.node_alter, Binding.field.injEq, FieldTarget.member.injEq,
      true_and] at bound
    subst bound
    rw [environment]
    exact registered

theorem staticField_yields (isOpen : Open premise calm first (Unseen [.recv]) old branch)
    (isTag : branch.node.tag = .field) (owner : Ty) (name : String) :
    (staticField branch.id owner name).Yields calm old branch (Ruled premise first) := by
  refine .bindRead isOpen.stands ?_
  split
  · exact .reject isOpen.stands _ _ _
  · rename_i memberId _ found
    simp only
    split
    · have member : memberId ∈ old.environment.members owner name .field := by
        rw [found]
        exact List.mem_cons_self
      exact bindField_yields isOpen isTag (Environment.lt_of_mem_members member) _
    · exact .failAt isOpen.stands _ rfl

theorem valueField_yields (visits : Visits premise visit)
    (isOpen : Open premise calm first (Unseen []) old branch) (isTag : branch.node.tag = .field)
    {nameKid : Branch} {place : Nat} (isReceiver : branch.Kid .recv index kid)
    (isName : branch.Kid .name place nameKid) (name : String) :
    (valueField visit branch.id kid.id nameKid.id name).Yields calm old branch
      (Ruled premise first) := by
  refine .bindReported visits isOpen isReceiver (by decide) ?_
  intro receiverTy new receiver becomes typed reported opens
  have different := isReceiver.ne isName (by decide)
  have isReceiverNew := isReceiver.setKid_self becomes.turns.label
  have isNameNew := isName.setKid_other isReceiver.found becomes.turns.label different
  refine .bindRead opens.stands ?_
  split
  · rename_i memberId _ found
    have member : memberId ∈ new.environment.members receiverTy name .field := by
      rw [found]
      exact List.mem_cons_self
    exact bindField_yields opens isTag (Environment.lt_of_mem_members member) _
  · split
    · rename_i isDynamic
      refine (nameConstant_yields opens isNameNew (by decide)).bind ?_
      rintro _ later _ _ ⟨constant, label, sameId, isText, isString, rfl, opensLater, _⟩
      have isReceiverLater :=
        isReceiverNew.setKid_other isNameNew.found label (Ne.symm different)
      have isNameLater := isNameNew.setKid_self label
      have ids : [kid.id, nameKid.id] = [receiver, constant].map Branch.id := by
        simp only [List.map_cons, List.map_nil, becomes.turns.id, sameId]
      have others := opensLater.others_silent
        (.cons ⟨_, isNameLater⟩ (.cons ⟨_, isReceiverLater⟩ .nil))
      refine .bindSplice opensLater (by simpa using different)
        (.cons isReceiverLater.found (.cons isNameLater.found .nil))
        (fun _ _ found other => others _ _ found (by simpa [and_comm] using other)) ids ?_
      intro last opensLast _
      refine .bindModify opensLast rfl rfl
        (opensLast.inside.calling (by simp [isTag, Tag.isCalling]) _ _ _) ?_
      intro final opensFinal _ _
      obtain rfl := Ty.eq_dynamic_of_isDynamic isDynamic
      have unlisted := reported.unlisted (by simp)
      have opened : [receiver, constant].flatMap Branch.opened = [receiver, constant] := by
        simp [Branch.opened_of_other, unlisted, isText]
      refine .pure opensFinal.stands (opensFinal.closeUnread (.inr isTag)
        (fun _ bound => by simp [Binding.static] at bound) (.ofBound rfl (.dispatched .getField ?_)))
      exact .ofFlattened rfl opened (.cons (.ofTyped typed) (.cons (.ofTyped isString) .nil)) rfl
        fun _ => ⟨receiver, constant, [], rfl, typed, unlisted, by simp [isText]⟩
    · exact .reject opens.stands _ _ _

theorem field_yields (visits : Visits premise visit)
    (isOpen : Open premise calm first (Unseen []) old branch) (isTag : branch.node.tag = .field) :
    (field visit branch.id).Yields calm old branch (Ruled premise first) := by
  refine .bindRequired isOpen.stands ?_
  intro index receiver isReceiver
  refine .bindRequired isOpen.stands ?_
  intro place nameKid isName
  refine .bindRead isOpen.stands ?_
  refine (typeReceiver?_yields isOpen isReceiver (by decide)).bind ?_
  rintro owner new after _ (⟨rfl, rfl, rfl⟩ | ⟨isSome, ⟨newKid, _, _, _, rfl⟩, opens⟩)
  · exact valueField_yields visits isOpen isTag isReceiver isName _
  · obtain ⟨owner, rfl⟩ := Option.isSome_iff_exists.mp isSome
    exact staticField_yields opens isTag owner _

/-! ### Indexers -/

/-- The runtime's call on a dynamic value, which takes all items as they are. -/
theorem indexedDynamic_yields {receiver items : Branch} {place : Nat} {types : List Ty}
    {hook : MemberId} {more count : Nat}
    (isOpen : Open premise calm first (Unseen [.recv, .param]) old branch)
    (hooks : branch.node.tag.Hooks hook more) (isReceiver : branch.Kid .recv index receiver)
    (isDynamic : receiver.node.ty = some .dynamic) (unlisted : receiver.node.tag ≠ .list)
    (isItems : branch.Kid .param place items) (isList : items.IsList) (typed : items.Typed types)
    (length : items.kids.length = count + more) (indexes : premise.Indexes branch.id count)
    (ty : Ty) :
    (dispatch branch.id items.slots [receiver.id, items.id] hook ty).Yields calm old branch
      (Ruled premise first) := by
  refine (dispatch_yields isOpen hooks.isCalling isReceiver (by decide) isItems isList typed hook
    ty).mono ?_
  rintro _ new after _ ⟨rfl, dispatched⟩
  obtain ⟨newItems, isListNew, kids, suits⟩ := dispatched.kids
  have isHook : after.node.tag.Hooks hook more := dispatched.tag ▸ hooks
  have isCall : after.node.binding.isCall = true := by
    rw [dispatched.bound]
    rfl
  refine dispatched.isOpen.close (.ofIndexed isHook isCall (.ofStatic dispatched.bound (by decide))
    (.ofBound dispatched.bound
      (.inert fun _ _ _ => RuntimeMember.not_dispatches (.inr isHook.inert)))
    (.inr ⟨dispatched.bound, ?_⟩))
  have taken : items.slots.length = count + more := by
    rw [Branch.slots, Branch.slotsAt, List.length_map, List.length_range, length]
  rw [← dispatched.id] at indexes
  exact .ofFlattened kids unlisted isListNew isDynamic (taken ▸ suits) indexes

/-- A call of an indexer, which takes the receiver and the items of the argument list. -/
theorem accessor_yields {items : Branch} {place : Nat} (visits : Visits premise visit)
    (isOpen : Open premise calm first (Unseen [.param]) old branch)
    {hook : MemberId} {more count : Nat} (hooks : branch.node.tag.Hooks hook more)
    (isReceiver : branch.Kid .recv index kid) (isItems : branch.Kid .param place items)
    (isList : items.IsList) (raw : ∀ item ∈ items.kids, Raw premise item)
    (quiet : ∀ item ∈ items.kids, calm.Implies item.stored.calm)
    (length : items.kids.length = count + more) (indexes : premise.Indexes branch.id count)
    (name what : String) (ty : Ty) :
    (accessor visit branch.id kid.id items.id name what hook ty).Yields calm old branch
      (Ruled premise first) := by
  refine .bindReported visits isOpen isReceiver (by decide) ?_
  intro receiverTy later newReceiver becomes typedReceiver reported opens
  have different := isReceiver.ne isItems (by decide)
  have isItemsNew := isItems.setKid_other isReceiver.found becomes.turns.label different
  refine .bindRead opens.stands ?_
  rw [slots_eq (opens.stands.kid isItemsNew.mem).holds]
  refine .bindVisitList visits opens isItemsNew (by decide) isList raw quiet ?_
  intro types last newItems becomesItems isListNew typed sameSlots opensLast
  have isItemsLast := isItemsNew.setKid_self becomesItems.turns.label
  have isReceiverLast := (isReceiver.setKid_self becomes.turns.label).setKid_other
    isItemsNew.found becomesItems.turns.label (Ne.symm different)
  refine .bindRead opensLast.stands ?_
  simp only
  split
  · rename_i resolution found
    rw [← sameSlots]
    refine (acceptList_yields .methodApply (by decide) opensLast hooks.isCalling isItemsLast (by decide)
      isListNew typed found (fun _ member => Environment.lt_of_mem_members member)
      (fun _ member => .inr ⟨index, newReceiver, different, isReceiverLast.found,
        reported.unlisted (Environment.ne_never_of_mem_members member), _, _, typedReceiver,
        member⟩) ?_).mono ?_
    · intro final same
      have isHook : final.node.tag.Hooks hook more := same ▸ hooks
      exact Branch.arguments_of_hooks isHook
    · rintro ty final afterFinal _ ⟨accepted, others⟩
      have isHook : afterFinal.node.tag.Hooks hook more := accepted.tag ▸ hooks
      refine accepted.isOpen.close (.ofIndexed isHook (accepted.bound ▸ rfl)
        (.ofResult accepted.bound accepted.result) accepted.serves
        (.inl ⟨newReceiver, receiverTy, ?_, typedReceiver, ?_⟩))
      · exact (others .recv index newReceiver (by decide) isReceiverLast).first?
      · exact Environment.isDynamic_of_mem_members (Environment.resolve_attempted found).1
  · split
    · rename_i isDynamic
      obtain rfl := Ty.eq_dynamic_of_isDynamic isDynamic
      have same : newItems.kids.length = items.kids.length := by
        simpa [Branch.slots, Branch.slotsAt] using congrArg List.length sameSlots
      rw [← sameSlots, ← becomes.turns.id, ← becomesItems.turns.id]
      exact indexedDynamic_yields opensLast hooks isReceiverLast typedReceiver
        (reported.unlisted (by simp)) isItemsLast isListNew typed (same.trans length) indexes ty
    · exact .reject opensLast.stands _ _ _

theorem indexer_yields (visits : Visits premise visit)
    (isOpen : Open premise calm first (Unseen []) old branch)
    (isTag : branch.node.tag = .indexer)
    (indexes : premise.Indexes branch.id branch.stored.argumentCount) :
    (indexer visit branch.id).Yields calm old branch (Ruled premise first) := by
  rw [indexer_eq]
  refine .bindRequired isOpen.stands ?_
  intro index receiver isReceiver
  refine (argumentList_yields isOpen (by decide)).bind ?_
  rintro _ new after _ ⟨place, items, rfl, listed⟩
  rw [← listed.id] at indexes ⊢
  have isIndexer : after.node.tag = .indexer := listed.tag.trans isTag
  exact accessor_yields visits listed.isOpen (isIndexer ▸ Tag.Hooks.get)
    (listed.others .recv index receiver (by decide) isReceiver) listed.isKid listed.isList listed.raw
    listed.quiet listed.length indexes _ _ _

end Rule

end ScriptTyping
