import ScriptTyping.Check.Invocation
import ScriptTyping.Proofs.Rule.Access

/-!
Calls of functions and methods, and construction.
-/

namespace ScriptTyping

namespace Rule

open Check

variable {premise : Premise} {calm : Calm} {first : Environment} {seen : List Label}
  {unseen : Nat → Option Label → Prop} {old : CheckState} {branch items : Branch} {visit : Visit}
  {index place : Nat} {types : List Ty}

/-! ### Functions -/

section Functions

variable (isOpen : Open premise calm first (Unseen seen) old branch)
  (isTag : branch.node.tag = .apply) (isItems : branch.Kid .param place items)
  (isSeen : Label.param ∈ seen) (isList : items.IsList) (typed : items.Typed types)

include isOpen isTag isItems isSeen isList typed

theorem applyFunction_yields (name : String) :
    (applyFunction branch.id name items.slots types).Yields calm old branch
      (Ruled premise first) := by
  refine .bindRead isOpen.stands ?_
  simp only
  split
  · rename_i resolution found
    refine (acceptList_yields .apply (by decide) isOpen (by rw [isTag]; rfl) isItems isSeen isList
      typed found (fun _ member => Registry.lt_of_mem_functions member)
      (fun _ member => .inl (Environment.isDispatcher_of_mem_functions member)) ?_).mono ?_
    · intro after same
      simp only [Branch.arguments, same, isTag]
    · rintro ty new after _ ⟨accepted, _⟩
      refine accepted.isOpen.close ?_
      unfold Branch.Facts
      simp only [Branch.typed, Branch.node_alter, accepted.tag, isTag]
      refine ⟨.ofResult accepted.bound accepted.result, .ofOther ?_, accepted.serves⟩
      intro hint self typeArgs bound
      simp [accepted.bound] at bound
  · exact .reject isOpen.stands _ _ _

theorem applyCallable_yields {callee : Branch} {calleeTy : Ty} {errors : List CheckError}
    (isCallee : branch.Kid .name index callee) (order : seen = [.name, .param])
    (typedCallee : callee.node.ty = some calleeTy) (reported : callee.Reported errors calleeTy)
    (isCallable : calleeTy.isCallable = true) :
    (applyCallable branch.id callee.id items.id items.slots).Yields calm old branch
      (Ruled premise first) := by
  refine .bindRead isOpen.stands ?_
  simp only
  split
  · exact .failAt isOpen.stands _ rfl
  · rename_i invoker isInvoker
    subst order
    refine (dispatch_yields isOpen (by rw [isTag]; rfl) isCallee (by decide) isItems isList typed
      invoker .object).mono ?_
    rintro _ new after _ ⟨rfl, dispatched⟩
    obtain ⟨newItems, isListNew, kids, suits⟩ := dispatched.kids
    have suitsCallee : callee.Suits .callable := .ofCallable typedCallee isCallable
    have opened : [callee, newItems].flatMap Branch.opened = callee :: newItems.kids := by
      simp [Branch.opened_of_other (reported.unlisted (Ty.ne_never_of_isCallable isCallable)),
        Branch.opened_of_list isListNew]
    rw [← dispatched.environment] at isInvoker
    refine dispatched.isOpen.close ?_
    unfold Branch.Facts
    simp only [Branch.typed, Branch.node_alter, dispatched.tag, isTag]
    refine ⟨.ofStatic dispatched.bound (by decide), .ofOther ?_,
      .ofBound dispatched.bound (.dispatched (.invokeFunction isInvoker) ?_)⟩
    · intro hint self typeArgs bound
      simp [dispatched.bound, Binding.static] at bound
    · exact .ofFlattened kids opened (.cons suitsCallee suits) rfl
        fun isDynamic => by simp [Ty.callable, Ty.host] at isDynamic

theorem applyValue_yields {callee : Branch} (isCallee : branch.Kid .name index callee)
    (name : String) (params : List Ty) (result : Ty) :
    (applyValue branch.id name items.slots types params result).Yields calm old branch
      (Ruled premise first) := by
  refine .bindRead isOpen.stands ?_
  simp only
  split
  · exact .failAt isOpen.stands _ rfl
  · rename_i fits
    have length : params.length = items.kids.length := by
      rw [typed.length_eq]
      by_contra different
      simp [different] at fits
    refine (coerceItems_yields isOpen isItems isSeen isList typed length).bind ?_
    rintro _ new _ _ ⟨newItems, ⟨becomes, _, rfl, opens⟩, _, _⟩
    have isCalleeNew := isCallee.setKid_other isItems.found becomes.turns.label
      (isItems.ne isCallee (by decide))
    have arranged := (Arranged.ofOpen opens).relabel .name .recv
    have isApply : (Node.relabel (branch.setKid place newItems).node .name .recv).tag = .apply := by
      rw [Node.tag_relabel, Branch.tag_setKid, isTag]
    refine .bindArranged opens arranged rfl (Node.note_relabel _ _ _) (opens.inside.relabel .name .recv) ?_
    intro later after opensLater sameId sameNode _ _ _
    have top : after.id = branch.id := sameId
    rw [← top]
    refine .bindModify opensLater rfl rfl (opensLater.inside.rebind rfl) ?_
    intro last opensLast _ _
    refine .pure opensLast.stands (opensLast.close ?_)
    unfold Branch.Facts
    simp only [Branch.typed, Branch.node_alter, sameNode, isApply]
    refine ⟨.ofUnbound ?_, .ofOther ?_, .ofOther ?_⟩
    · intro hint member typeArgs bound
      simp at bound
    · intro hint self typeArgs bound
      simp at bound
    · intro hint member typeArgs bound
      simp at bound

end Functions

theorem selfCall_yields {result : Ty} (isOpen : Open premise calm first unseen old branch)
    (isTag : branch.node.tag = .apply) (returns : old.scopes.returnType? = some result)
    (name : String) :
    (selfCall branch.id name result).Yields calm old branch (Ruled premise first) := by
  refine .bindModify isOpen rfl rfl ⟨isOpen.inside.opened, isOpen.inside.sound,
    fun _ _ _ _ => isTag, fun _ bound => by simp at bound, fun _ _ _ bound => by simp at bound⟩ ?_
  intro new opens _ scopes
  refine .pure opens.stands (opens.close ?_)
  unfold Branch.Facts
  simp only [Branch.typed, Branch.node_alter, isTag]
  refine ⟨.ofUnbound ?_, fun hint self typeArgs bound => ⟨result, by rw [scopes, returns], rfl⟩,
    .ofOther ?_⟩
  · intro hint member typeArgs bound
    simp at bound
  · intro hint member typeArgs bound
    simp at bound

theorem apply_yields (visits : Visits premise visit)
    (isOpen : Open premise calm first (Unseen []) old branch) (isTag : branch.node.tag = .apply) :
    (apply visit branch.id).Yields calm old branch (Ruled premise first) := by
  refine .bindRequired isOpen.stands ?_
  intro index callee isCallee
  refine .bindRead isOpen.stands ?_
  refine (argumentList_yields isOpen (by decide)).bind ?_
  rintro _ new after _ ⟨place, items, rfl, listed⟩
  have opens := listed.isOpen
  have isCalleeNew := listed.others .name index callee (by decide) isCallee
  rw [← listed.id]
  refine .bindRead opens.stands ?_
  rw [slots_eq (opens.stands.kid listed.isKid.mem).holds]
  refine .bindVisitList visits opens listed.isKid (by decide) listed.isList listed.raw listed.quiet ?_
  intro types later newItems becomes isList typed sameSlots opensLater
  have isItems := listed.isKid.setKid_self becomes.turns.label
  have isCalleeLater := isCalleeNew.setKid_other listed.isKid.found becomes.turns.label
    (listed.isKid.ne isCalleeNew (by decide))
  have isApply : after.node.tag = .apply := listed.tag.trans isTag
  have sameList : items.id = newItems.id := becomes.turns.id.symm
  rw [← sameSlots, sameList]
  refine .bindRead opensLater.stands ?_
  simp only
  split
  · rename_i scope isScope
    have isCurrent := (Option.filter_eq_some_iff.mp isScope).1
    split
    · rename_i result isResult
      have returns : later.scopes.returnType? = some result := by
        rw [ScopeStack.returnType?, isCurrent, Option.bind_some, isResult]
      exact selfCall_yields opensLater isApply returns _
    · exact .failAt opensLater.stands _ rfl
  · refine .bindSame (isValue_yields opensLater.stands _) ?_
    intro isValue _
    split
    · refine .bindReported visits opensLater isCalleeLater (by decide) ?_
      intro valueTy last newCallee becomesCallee typedCallee reported opensLast
      have isCalleeLast := isCalleeLater.setKid_self becomesCallee.turns.label
      have isItemsLast := isItems.setKid_other isCalleeLater.found becomesCallee.turns.label
        (isCalleeLater.ne isItems (by decide))
      split
      · exact applyValue_yields opensLast isApply isItemsLast (by decide) isList typed isCalleeLast
          _ _ _
      · split
        · rename_i isCallable
          rw [← becomesCallee.turns.id]
          exact applyCallable_yields opensLast isApply isItemsLast (by decide) isList typed
            isCalleeLast rfl typedCallee reported isCallable
        · exact applyFunction_yields opensLast isApply isItemsLast (by decide) isList typed _
    · exact applyFunction_yields opensLater isApply isItems (by decide) isList typed _

/-! ### Methods -/

theorem applyStatic_yields (visits : Visits premise visit) {receiver : Branch} {owner : Ty}
    (isOpen : Open premise calm first (Unseen seen) old branch)
    (isTag : branch.node.tag = .methodApply) (isReceiver : branch.Kid .recv index receiver)
    (unlisted : receiver.node.tag ≠ .list) (typedReceiver : receiver.node.ty = some owner)
    (isItems : branch.Kid .param place items)
    (isSeen : Label.param ∈ seen) (isList : items.IsList) (raw : ∀ kid ∈ items.kids, Raw premise kid)
    (quiet : ∀ kid ∈ items.kids, calm.Implies kid.stored.calm) (name : String) :
    (applyStatic visit branch.id owner name items.slots).Yields calm old branch
      (Ruled premise first) := by
  refine .bindVisitList visits isOpen isItems isSeen isList raw quiet ?_
  intro types new newItems becomes isListNew typed sameSlots opens
  have isItemsNew := isItems.setKid_self becomes.turns.label
  refine .bindRead opens.stands ?_
  simp only
  split
  · exact .failAt opens.stands _ rfl
  · split
    · rename_i resolution found
      have different := isReceiver.ne isItems (by decide)
      have isReceiverNew := isReceiver.setKid_other isItems.found becomes.turns.label
        (Ne.symm different)
      rw [← sameSlots]
      refine (acceptList_yields .apply (by decide) opens (by rw [Branch.tag_setKid, isTag]; rfl)
        isItemsNew isSeen isListNew typed found
        (fun _ member => Environment.lt_of_mem_members (List.mem_filter.mp member).1)
        (fun _ member => .inr ⟨index, receiver, different, isReceiverNew.found, unlisted, owner, name,
          typedReceiver, (List.mem_filter.mp member).1⟩) ?_).mono ?_
      · intro after same
        simp only [Branch.arguments, same, Branch.tag_setKid, isTag]
      · rintro ty last after _ ⟨accepted, _⟩
        refine accepted.isOpen.close ?_
        unfold Branch.Facts
        simp only [Branch.typed, Branch.node_alter, accepted.tag, Branch.tag_setKid, isTag]
        exact ⟨.ofResult accepted.bound accepted.result, accepted.serves⟩
    · exact .reject opens.stands _ _ _

theorem applyDynamic_yields {receiver nameKid : Branch} {spot : Nat} {errors : List CheckError}
    (isOpen : Open premise calm first (Unseen seen) old branch)
    (isTag : branch.node.tag = .methodApply) (isReceiver : branch.Kid .recv index receiver)
    (isName : branch.Kid .name spot nameKid) (isNew : Label.name ∉ seen)
    (isItems : branch.Kid .param place items) (isSeen : Label.param ∈ seen) (isList : items.IsList)
    (typed : items.Typed types) (order : seen = [.recv, .param])
    (isDynamic : receiver.node.ty = some .dynamic) (reported : receiver.Reported errors .dynamic) :
    (applyDynamic branch.id receiver.id nameKid.id items.id items.slots).Yields calm old branch
      (Ruled premise first) := by
  refine .bindRead isOpen.stands ?_
  simp only
  split
  · exact .failAt isOpen.stands _ rfl
  · rename_i invoker isInvoker
    refine .bindCoerceList .object isOpen isItems isSeen isList typed ?_
    intro new newItems becomes isListNew opens environment suits
    have receiverName := isReceiver.ne isName (by decide)
    have receiverItems := isReceiver.ne isItems (by decide)
    have nameItems := isName.ne isItems (by decide)
    have isItemsNew := isItems.setKid_self becomes.turns.label
    have isNameNew := isName.setKid_other isItems.found becomes.turns.label (Ne.symm nameItems)
    have isReceiverNew := isReceiver.setKid_other isItems.found becomes.turns.label
      (Ne.symm receiverItems)
    refine (nameConstant_yields opens isNameNew isNew).bind ?_
    rintro _ later _ _
      ⟨constant, label, sameId, isText, isString, rfl, opensLater, environmentLater⟩
    have isNameLater := isNameNew.setKid_self label
    have isItemsLater := isItemsNew.setKid_other isNameNew.found label nameItems
    have isReceiverLater := isReceiverNew.setKid_other isNameNew.found label (Ne.symm receiverName)
    have ids : [receiver.id, nameKid.id, items.id] =
        [receiver, constant, newItems].map Branch.id := by
      simp only [List.map_cons, List.map_nil, becomes.turns.id, sameId]
    have nodup : [index, spot, place].Nodup := by
      simp [receiverName, receiverItems, nameItems]
    subst order
    have others := opensLater.others_silent
      (.cons ⟨_, isNameLater⟩ (.cons ⟨_, isReceiverLater⟩ (.cons ⟨_, isItemsLater⟩ .nil)))
    refine .bindSplice opensLater nodup (.cons isReceiverLater.found
      (.cons isNameLater.found (.cons isItemsLater.found .nil)))
      (fun _ _ found other => others _ _ found (by simpa [and_left_comm] using other)) ids ?_
    intro flat opensFlat environmentFlat
    refine .bindModify opensFlat rfl rfl
      (opensFlat.inside.calling (by simp [isTag, Tag.isCalling]) _ _ _) ?_
    intro last opensLast environmentLast _
    have unlisted := reported.unlisted (by simp)
    have opened : [receiver, constant, newItems].flatMap Branch.opened =
        receiver :: constant :: newItems.kids := by
      simp [Branch.opened_of_other, unlisted, isText, Branch.opened_of_list isListNew.tag]
    rw [← environment, ← environmentLater, ← environmentFlat, ← environmentLast] at isInvoker
    refine .pure opensLast.stands (opensLast.close ?_)
    unfold Branch.Facts
    simp only [Branch.typed, Branch.flattened, Branch.node_alter, Branch.node_withKids,
      Branch.tag_setKid, isTag]
    refine ⟨.ofUnbound fun hint member typeArgs bound => ?_,
      .ofBound rfl (.dispatched (.invokeDynamic isInvoker) ?_)⟩
    · simp only [Branch.node_alter, Binding.invoke.injEq] at bound
      rw [← bound.1]
      decide
    · exact .ofFlattened rfl opened (.cons (.ofTyped isDynamic) (.cons (.ofTyped isString) suits)) rfl
        fun _ => ⟨receiver, constant, newItems.kids, rfl, isDynamic, unlisted, by simp [isText]⟩

theorem applyOnValue_yields (visits : Visits premise visit) {receiver nameKid : Branch} {spot : Nat}
    (isOpen : Open premise calm first (Unseen [.param]) old branch)
    (isTag : branch.node.tag = .methodApply) (isReceiver : branch.Kid .recv index receiver)
    (isName : branch.Kid .name spot nameKid) (isItems : branch.Kid .param place items)
    (isList : items.IsList) (raw : ∀ kid ∈ items.kids, Raw premise kid)
    (quiet : ∀ kid ∈ items.kids, calm.Implies kid.stored.calm) (name : String) :
    (applyOnValue visit branch.id receiver.id nameKid.id items.id name items.slots).Yields calm old
      branch (Ruled premise first) := by
  refine .bindReported visits isOpen isReceiver (by decide) ?_
  intro receiverTy new newReceiver becomes typedReceiver reported opens
  have isReceiverNew := isReceiver.setKid_self becomes.turns.label
  have isItemsNew := isItems.setKid_other isReceiver.found becomes.turns.label
    (isReceiver.ne isItems (by decide))
  have isNameNew := isName.setKid_other isReceiver.found becomes.turns.label
    (isReceiver.ne isName (by decide))
  refine .bindVisitList visits opens isItemsNew (by decide) isList raw quiet ?_
  intro types later newItems becomesItems isListNew typed sameSlots opensLater
  have isItemsLater := isItemsNew.setKid_self becomesItems.turns.label
  have isNameLater := isNameNew.setKid_other isItemsNew.found becomesItems.turns.label
    (isItemsNew.ne isNameNew (by decide))
  have isReceiverLater := isReceiverNew.setKid_other isItemsNew.found becomesItems.turns.label
    (isItemsNew.ne isReceiverNew (by decide))
  refine .bindRead opensLater.stands ?_
  simp only
  rw [← sameSlots]
  split
  · rename_i resolution found
    refine (acceptList_yields .methodApply (by decide) opensLater
      (by rw [Branch.tag_setKid, Branch.tag_setKid, isTag]; rfl) isItemsLater (by decide) isListNew
      typed found (fun _ member => Environment.lt_of_mem_members member)
      (fun _ member => .inr ⟨index, newReceiver, isReceiver.ne isItems (by decide),
        isReceiverLater.found, reported.unlisted (Environment.ne_never_of_mem_members member), _, _,
        typedReceiver, member⟩) ?_).mono ?_
    · intro after same
      simp only [Branch.arguments, same, Branch.tag_setKid, isTag]
    · rintro ty last after _ ⟨accepted, _⟩
      refine accepted.isOpen.close ?_
      unfold Branch.Facts
      simp only [Branch.typed, Branch.node_alter, accepted.tag, Branch.tag_setKid, isTag]
      exact ⟨.ofResult accepted.bound accepted.result, accepted.serves⟩
  · split
    · rename_i isDynamic
      obtain rfl := Ty.eq_dynamic_of_isDynamic isDynamic
      rw [← becomes.turns.id, ← becomesItems.turns.id]
      exact applyDynamic_yields opensLater isTag isReceiverLater isNameLater (by decide) isItemsLater
        (by decide) isListNew typed rfl typedReceiver reported
    · exact .reject opensLater.stands _ _ _

theorem methodApply_yields (visits : Visits premise visit)
    (isOpen : Open premise calm first (Unseen []) old branch)
    (isTag : branch.node.tag = .methodApply) :
    (methodApply visit branch.id).Yields calm old branch (Ruled premise first) := by
  refine .bindRequired isOpen.stands ?_
  intro index receiver isReceiver
  refine .bindRequired isOpen.stands ?_
  intro spot nameKid isName
  refine .bindRead isOpen.stands ?_
  refine (argumentList_yields isOpen (by decide)).bind ?_
  rintro _ new after _ ⟨place, items, rfl, listed⟩
  have opens := listed.isOpen
  have isReceiverNew := listed.others .recv index receiver (by decide) isReceiver
  have isNameNew := listed.others .name spot nameKid (by decide) isName
  have isMethod : after.node.tag = .methodApply := listed.tag.trans isTag
  rw [← listed.id]
  refine .bindRead opens.stands ?_
  rw [slots_eq (opens.stands.kid listed.isKid.mem).holds]
  refine (typeReceiver?_yields opens isReceiverNew (by decide)).bind ?_
  rintro owner later _ _ (⟨rfl, rfl, rfl⟩ | ⟨isSome, ⟨newKid, label, isName, typed, rfl⟩, opensLater⟩)
  · exact applyOnValue_yields visits opens isMethod isReceiverNew isNameNew listed.isKid
      listed.isList listed.raw listed.quiet _
  · obtain ⟨owner, rfl⟩ := Option.isSome_iff_exists.mp isSome
    have isItems := listed.isKid.setKid_other isReceiverNew.found label
      (isReceiverNew.ne listed.isKid (by decide))
    exact applyStatic_yields visits opensLater isMethod (isReceiverNew.setKid_self label)
      (by simp [isName]) typed isItems (by decide) listed.isList listed.raw listed.quiet _

/-! ### Construction -/

theorem construct_yields (visits : Visits premise visit)
    (isOpen : Open premise calm first (Unseen []) old branch) (isTag : branch.node.tag = .new)
    (aside : ∀ index kid, branch.Kid .type index kid → premise.aside kid.node.tag) :
    (construct visit branch.id).Yields calm old branch (Ruled premise first) := by
  refine .bindRequired isOpen.stands ?_
  intro index written isWritten
  refine .bindWritten isOpen isWritten (by decide) (aside index written isWritten) ?_
  intro ty new _ _ _ opens
  refine (argumentList_yields opens (by decide)).bind ?_
  rintro _ later after _ ⟨place, items, rfl, listed⟩
  have isNew : after.node.tag = .new := listed.tag.trans isTag
  have sameId : after.id = branch.id := listed.id
  rw [← sameId]
  refine .bindRead listed.isOpen.stands ?_
  rw [slots_eq (listed.isOpen.stands.kid listed.isKid.mem).holds]
  refine .bindVisitList visits listed.isOpen listed.isKid (by decide) listed.isList listed.raw
    listed.quiet ?_
  intro types last newItems becomes isList typed sameSlots opensLast
  have isItems := listed.isKid.setKid_self becomes.turns.label
  refine .bindRead opensLast.stands ?_
  simp only
  rw [← sameSlots]
  split
  · rename_i resolution found
    refine (convertList_yields opensLast isItems (by decide) isList typed found ?registered).bind ?_
    case registered =>
      intro id member
      cases head : ty.headName? with
      | some name =>
          rw [head] at member
          exact Registry.lt_of_mem_candidates member
      | none => simp [head] at member
    rintro _ final _ _ ⟨finalItems, onList, environment, resolved⟩
    have isItemsFinal := onList.isKid isItems
    obtain ⟨_, _, rfl, opensFinal⟩ := onList
    refine .bindModify opensFinal rfl rfl (opensFinal.inside.rebind rfl) ?_
    intro bound opensBound sameEnvironment _
    refine .pure opensBound.stands (opensBound.close ?_)
    unfold Branch.Facts
    simp only [Branch.typed, Branch.node_alter, Branch.tag_setKid, isNew]
    intro construction isBound
    have arguments : ∀ done : Branch, done.node.tag = .new → done.Kid .param place finalItems →
        done.arguments = finalItems.kids := by
      intro done isNewDone isKid
      simp only [Branch.arguments, isNewDone, isKid.first?, Option.map_some, Option.getD_some]
    have isResolved : ∀ given, given = finalItems.kids → ∃ receiver types candidates,
        Resolved bound.environment given resolution receiver types candidates := by
      rintro _ rfl
      rw [sameEnvironment]
      exact ⟨_, _, _, resolved⟩
    exact ⟨resolution, (Binding.construct.inj isBound).symm, rfl,
      isResolved _ (arguments _ isNew ⟨isItemsFinal.first, isItemsFinal.found⟩)⟩
  · exact .reject opensLast.stands _ _ _

end Rule

end ScriptTyping
