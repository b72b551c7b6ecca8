import ScriptTyping.Check.Operator
import ScriptTyping.Proofs.Rule.Lookup

/-!
Operators. Operands are brought to a common type before the lookup, and converted after it.
-/

namespace ScriptTyping

theorem Branch.arguments_binary {branch left right : Branch} {index place : Nat} {op : BinaryOp}
    (isTag : branch.node.tag = .binary op) (isLeft : branch.Kid .left index left)
    (isRight : branch.Kid .right place right) : branch.arguments = [left, right] := by
  simp only [arguments, isTag, List.filterMap_cons, isLeft.first?, isRight.first?,
    List.filterMap_nil]

theorem Branch.arguments_unary {branch kid : Branch} {index : Nat} {op : UnaryOp}
    (isTag : branch.node.tag = .unary op) (isKid : branch.Kid .expr index kid) :
    branch.arguments = [kid] := by
  simp only [arguments, isTag, List.filterMap_cons, isKid.first?, List.filterMap_nil]

namespace Rule

open Check

variable {premise : Premise} {calm : Calm} {first : Environment}
  {unseen : Nat → Option Label → Prop} {old : CheckState} {branch kid : Branch} {visit : Visit}
  {tag : Tag} {index : Nat}

/-! ### Operands -/

theorem operand_yields (isOpen : Open premise calm first unseen old branch)
    (found : branch.kids[index]? = some kid)
    (seen : ¬ unseen index (Branch.roleAt branch.kids index)) {foundTy : Ty}
    (typed : kid.node.ty = some foundTy) (joined : Ty) :
    (operand ⟨branch.id, index⟩ foundTy joined).Yields calm old branch fun ty new after =>
      Converted premise calm first unseen old branch [(index, ty)] new after := by
  have kept : Converted premise calm first unseen old branch [(index, foundTy)] old branch := by
    refine ⟨.refl isOpen.stands, isOpen, rfl, rfl, ?_, fun _ _ => rfl⟩
    intro pair member
    rw [List.mem_singleton.mp member]
    exact ⟨kid, found, foundTy, typed, .inl BEq.rfl⟩
  unfold operand
  split
  · exact .pure isOpen.stands kept
  · split
    · rename_i entry converts
      have isEntry : CastEntry.find? foundTy joined = some entry := by
        split at converts
        · exact (Option.filter_eq_some_iff.mp converts).1
        · simp at converts
      let node : Node := {
        tag := .cast, span := old.tree.span kid.id, children := [⟨some .expr, kid.id⟩],
        ty := some joined, binding := .static entry.member, done := true }
      have member : kid ∈ branch.kids := List.mem_of_getElem? found
      let newKid := kid.wrapped (old.tree.alloc node).1 node (some .expr)
      let event : Event := .typed newKid.id old.environment
      have opensNoted : Open premise calm first unseen (old.noted event) branch :=
        isOpen.ofState rfl (.noted old event)
      have settled :
          Settled premise first (old.noted event).moment old.scopes.returnType? newKid :=
        (opensNoted.settled kid member).wrapped isOpen.leads (Log.holds_note old.log event) typed
          (.cast isEntry) rfl rfl rfl
      obtain ⟨here, becomes, opens⟩ := opensNoted.wrapped found seen rfl (by simp [node]) settled
      have coerced : Coerced premise calm first unseen old branch kid index joined _ _ newKid :=
        ⟨rfl, ⟨joined, rfl, .inl BEq.rfl⟩, rfl, opens, rfl, rfl,
          fun isList => by simp [newKid, Branch.wrapped, node] at isList⟩
      refine .bindOccupant isOpen.stands found ?_
      refine .ofRun ?_ ((Becomes.noted isOpen.stands event).trans becomes) (coerced.converted found)
      rw [run_bind]
      show (noteTyped newKid.id >>= _).run.run _ = _
      rw [run_bind]
      show (replace ⟨branch.id, index⟩ _ >>= _).run.run _ = _
      rw [run_bind, run_replace _ here]
      rfl
    · refine .bindRead isOpen.stands ?_
      split
      · refine (coerce_yields isOpen found seen typed joined).bind ?_
        rintro node new after becomes ⟨newKid, _, coerced⟩
        exact .pure becomes.stands (coerced.converted found)
      · exact .pure isOpen.stands kept

theorem operands_yields {other : Branch} {place : Nat} (operatorClass : OperatorClass)
    (isOpen : Open premise calm first unseen old branch) (different : index ≠ place)
    (found : branch.kids[index]? = some kid)
    (seen : ¬ unseen index (Branch.roleAt branch.kids index))
    (foundOther : branch.kids[place]? = some other)
    (seenOther : ¬ unseen place (Branch.roleAt branch.kids place))
    {leftTy rightTy : Ty} (typed : kid.node.ty = some leftTy)
    (typedOther : other.node.ty = some rightTy) :
    (operands operatorClass (⟨branch.id, index⟩, leftTy) (⟨branch.id, place⟩, rightTy)).Yields calm
      old branch fun types new after =>
        Converted premise calm first unseen old branch [(index, types.1), (place, types.2)] new
          after := by
  refine .bindRead isOpen.stands ?_
  split
  · rename_i joined _
    refine (operand_yields isOpen found seen typed joined).bind ?_
    intro left new between _ converted
    have foundLater : between.kids[place]? = some other := by
      rw [converted.others place (by simpa using Ne.symm different)]
      exact foundOther
    have seenLater : ¬ unseen place (Branch.roleAt between.kids place) := by
      rw [Branch.roleAt_congr converted.alike.labels]
      exact seenOther
    rw [← converted.alike.id]
    refine (operand_yields converted.isOpen foundLater seenLater typedOther joined).bind ?_
    intro right last after becomes later
    refine .pure becomes.stands (converted.append later ?_)
    intro pair member
    rw [List.mem_singleton.mp member]
    simpa using different
  · refine .pure isOpen.stands ⟨.refl isOpen.stands, isOpen, rfl, rfl, ?_, fun _ _ => rfl⟩
    intro pair member
    simp only [List.mem_cons, List.not_mem_nil, or_false] at member
    rcases member with rfl | rfl
    · exact ⟨kid, found, leftTy, typed, .inl BEq.rfl⟩
    · exact ⟨other, foundOther, rightTy, typedOther, .inl BEq.rfl⟩

/-! ### Lookups -/

theorem binary_yields (visits : Visits premise visit) {op : BinaryOp}
    (isOpen : Open premise calm first (Unseen []) old branch)
    (isTag : branch.node.tag = .binary op) :
    (binary visit op branch.id).Yields calm old branch (Ruled premise first) := by
  refine .bindRequiredSlot isOpen.stands ?_
  intro index left isLeft
  refine .bindRequiredSlot isOpen.stands ?_
  intro place right isRight
  refine .bindOccupant isOpen.stands isLeft.found (.bindVisitKid visits isOpen isLeft (by decide) ?_)
  intro leftTy new newLeft becomes typedLeft opens
  have different := isLeft.ne isRight (by decide)
  have isLeftNew := isLeft.setKid_self becomes.turns.label
  have isRightNew := isRight.setKid_other isLeft.found becomes.turns.label different
  refine .bindOccupant opens.stands isRightNew.found
    (.bindVisitKid visits opens isRightNew (by decide) ?_)
  intro rightTy later newRight becomesRight typedRight opensLater
  have isRightLater := isRightNew.setKid_self becomesRight.turns.label
  have isLeftLater := isLeftNew.setKid_other isRightNew.found becomesRight.turns.label
    (Ne.symm different)
  have seenLeft : ¬ Unseen [Label.right, .left] index
      (Branch.roleAt ((branch.setKid index newLeft).setKid place newRight).kids index) :=
    fun isUnseen => isUnseen .left (by decide) isLeftLater.role
  refine (operands_yields op.operatorClass opensLater different isLeftLater.found seenLeft
    isRightLater.found (not_unseen_cons isRightLater) typedLeft typedRight).bind ?_
  rintro ⟨leftOperand, rightOperand⟩ last after _ converted
  refine .bindRead converted.isOpen.stands ?_
  simp only
  have alike := converted.alike
  split
  · rename_i resolution found
    -- The conversions of the operands keep the labels, under which the arguments are looked up.
    obtain ⟨leftLast, isLeftLast⟩ := alike.kid isLeftLater
    obtain ⟨rightLast, isRightLast⟩ := alike.kid isRightLater
    have suits : List.Forall₂ after.SuitsAt [index, place] [leftOperand, rightOperand] :=
      .cons (converted.suits (index, leftOperand) (by simp))
        (.cons (converted.suits (place, rightOperand) (by simp)) .nil)
    have seen : ∀ position ∈ [index, place],
        ¬ Unseen [Label.right, .left] position (Branch.roleAt after.kids position) := by
      intro position member
      simp only [List.mem_cons, List.not_mem_nil, or_false] at member
      rcases member with rfl | rfl
      · exact fun isUnseen => isUnseen .left (by decide) isLeftLast.role
      · exact not_unseen_cons isRightLast
    have isCalling : after.node.tag.isCalling = true := by
      rw [alike.tag, Branch.tag_setKid, Branch.tag_setKid, isTag]
      rfl
    have accepted := accept_yields .staticInvocation converted.isOpen isCalling
      (by simpa using different) suits seen found
      (fun _ member => Registry.lt_of_mem_functions member)
      (fun _ member => Environment.isDispatcher_of_mem_functions member) ?_
    · rw [Branch.slotsAt, alike.id] at accepted
      refine accepted.mono ?_
      intro ty final afterFinal _ accepted
      refine accepted.isOpen.close ?_
      unfold Branch.Facts
      simp only [Branch.typed, Branch.node_alter, accepted.tag.trans (alike.tag.trans isTag)]
      exact ⟨.ofResult accepted.bound accepted.result, accepted.serves⟩
    · intro final alikeFinal
      obtain ⟨newLeft, isLeftFinal⟩ := alikeFinal.kid isLeftLast
      obtain ⟨newRight, isRightFinal⟩ := alikeFinal.kid isRightLast
      rw [Branch.arguments_binary (alikeFinal.tag.trans (alike.tag.trans isTag)) isLeftFinal
        isRightFinal]
      exact .cons isLeftFinal.found (.cons isRightFinal.found .nil)
  · exact .reject converted.isOpen.stands _ _ _

theorem unary_yields (visits : Visits premise visit) {op : UnaryOp}
    (isOpen : Open premise calm first (Unseen []) old branch)
    (isTag : branch.node.tag = .unary op) :
    (unary visit op branch.id).Yields calm old branch (Ruled premise first) := by
  refine .bindRequiredSlot isOpen.stands ?_
  intro index kid isKid
  refine .bindOccupant isOpen.stands isKid.found (.bindVisitKid visits isOpen isKid (by decide) ?_)
  intro found new newKid becomes typed opens
  have isKidNew := isKid.setKid_self becomes.turns.label
  refine .bindRead opens.stands ?_
  refine (operand_yields opens isKidNew.found (not_unseen_cons isKidNew) typed _).bind ?_
  intro ty last after _ converted
  refine .bindRead converted.isOpen.stands ?_
  simp only
  have alike := converted.alike
  split
  · rename_i resolution isFound
    have isCalling : after.node.tag.isCalling = true := by
      rw [alike.tag, Branch.tag_setKid, isTag]
      rfl
    have accepted := accept_yields .staticInvocation converted.isOpen isCalling
      (List.nodup_singleton index) (.cons (converted.suits (index, ty) (by simp)) .nil) ?_ isFound
      (fun _ member => Registry.lt_of_mem_functions member)
      (fun _ member => Environment.isDispatcher_of_mem_functions member) ?_
    · rw [Branch.slotsAt, alike.id] at accepted
      refine accepted.mono ?_
      intro result final afterFinal _ accepted
      refine accepted.isOpen.close ?_
      unfold Branch.Facts
      simp only [Branch.typed, Branch.node_alter, accepted.tag.trans (alike.tag.trans isTag)]
      exact ⟨.ofResult accepted.bound accepted.result, accepted.serves⟩
    · intro position member
      obtain ⟨_, isKidLast⟩ := alike.kid isKidNew
      rw [List.mem_singleton.mp member]
      exact not_unseen_cons isKidLast
    · intro final alikeFinal
      obtain ⟨finalKid, isKidFinal⟩ := (alike.trans alikeFinal).kid isKidNew
      rw [Branch.arguments_unary (alikeFinal.tag.trans (alike.tag.trans isTag)) isKidFinal]
      exact .cons isKidFinal.found .nil
  · exact .reject converted.isOpen.stands _ _ _

/-! ### Logic -/

theorem connective_yields (visits : Visits premise visit)
    (isOpen : Open premise calm first (Unseen []) old branch)
    (isTag : branch.node.tag = .conjunction ∨ branch.node.tag = .disjunction) :
    (connective visit branch.id).Yields calm old branch (Ruled premise first) := by
  refine (enforce_yields visits isOpen (by decide) .bool).bind ?_
  rintro _ new between _ ⟨index, left, newLeft, _, enforced⟩
  obtain rfl := enforced.changed
  refine (enforce_yields visits enforced.isOpen (by decide) .bool).bind ?_
  rintro _ later after _ ⟨place, right, newRight, _, enforcedLast⟩
  obtain rfl := enforcedLast.changed
  refine .pure enforcedLast.isOpen.stands (enforcedLast.isOpen.close ?_)
  have tests := (enforcedLast.tests enforced.test (by decide)).mono
    (List.Perm.swap Label.right .left []).subset
  unfold Branch.Facts
  rcases isTag with isTag | isTag
  all_goals
    simp only [Branch.typed, Branch.node_alter, Branch.tag_setKid, isTag]
    exact tests

theorem negation_yields (visits : Visits premise visit)
    (isOpen : Open premise calm first (Unseen []) old branch)
    (isTag : branch.node.tag = .negation) :
    (negation visit branch.id).Yields calm old branch (Ruled premise first) := by
  refine (enforce_yields visits isOpen (by decide) .bool).bind ?_
  rintro _ new after _ ⟨index, kid, newKid, _, enforced⟩
  obtain rfl := enforced.changed
  refine .pure enforced.isOpen.stands (enforced.isOpen.close ?_)
  unfold Branch.Facts
  simp only [Branch.typed, Branch.node_alter, Branch.tag_setKid, isTag]
  exact enforced.test

end Rule

end ScriptTyping
