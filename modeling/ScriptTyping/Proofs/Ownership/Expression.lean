import ScriptTyping.Proofs.Ownership.Arguments
import ScriptTyping.Proofs.Rule.Stages

/-!
The rules for expressions stay within the place at which they work.
-/

namespace ScriptTyping

namespace Rule

open Check

variable {α : Type} {site : Site} {now : Tree} {visit : Visit} {receiver nameNode list : NodeId}
  {slots : List Slot} {slot : Slot}

/-! ### Literals and names -/

theorem aside_number (id : NodeId) (zero : α) (read : String → Except NumberTextError α) :
    Aside (number id zero read) := by
  refine (aside_textOf id).bind fun text => ?_
  split
  · exact aside_pure _
  · exact (aside_warnAt id _).bind fun _ => aside_pure zero

theorem folded_stays {read : Check α} (keeps : site.Keeps now) (aside : Aside read) (ty : Ty)
    (value : α → Const) :
    Stays site (do setConst site.id ty (value (← read))) now :=
  .bindAside aside fun found => setConst_stays keeps ty (value found)

theorem character_stays (keeps : site.Keeps now) : Stays site (character site.id) now := by
  refine .bindAside (aside_textOf site.id) fun text => ?_
  dsimp only
  split
  · exact setConst_stays keeps _ _
  · exact setConst_stays keeps _ _

theorem name_stays (keeps : site.Keeps now) : Stays site (name site.id) now := by
  refine .bindAside (aside_textOf site.id) fun name => .bindAside aside_scopes fun scopes => ?_
  split
  · exact .pure keeps trivial
  · refine .bindAside aside_environment fun environment => ?_
    split
    · exact bound_stays keeps _ _
    · exact .failAt keeps site.id _

/-! ### Operators -/

theorem operand_works (keeps : site.Keeps now)
    (slotted : (now.get site.id).Slotted site.id slots) (member : slot ∈ slots)
    (found joined : Ty) :
    Works site (operand slot found joined) now fun _ tree =>
      (now.get site.id).Resembles (tree.get site.id) := by
  rw [operand]
  split
  · exact .pure keeps (.refl _)
  · split
    · rename_i entry _
      obtain ⟨kid, same, isKid⟩ := now.occupied slotted member
      rw [same]
      refine .bindOccupant isKid (.bindBuild (.bindAside (aside_noteTyped _) fun _ => ?_))
      refine .bind (convert_works keeps isKid .cast joined (.static entry.member)) ?_
      exact fun _ _ keeps exchanges => .pure keeps exchanges.resembles
    · refine .bindAside aside_environment fun environment => ?_
      split
      · exact .bind (coerceIn_works keeps slotted member joined) fun _ _ keeps resembles =>
          .pure keeps resembles
      · exact .pure keeps (.refl _)

theorem operands_works {left right : Slot × Ty} (keeps : site.Keeps now)
    (slotted : (now.get site.id).Slotted site.id [left.1, right.1])
    (operatorClass : OperatorClass) :
    Works site (operands operatorClass left right) now fun _ tree =>
      (now.get site.id).Resembles (tree.get site.id) := by
  refine .bindAside aside_environment fun environment => ?_
  split
  · rename_i joined _
    refine .bind (operand_works keeps slotted (by simp) left.2 joined) ?_
    intro leftTy tree keeps early
    refine .bind (operand_works keeps (slotted.resembles early) (by simp) right.2 joined) ?_
    exact fun _ _ keeps late => .pure keeps (early.trans late)
  · exact .pure keeps (.refl _)

theorem conclude_stays {lookup : Lookup} (keeps : site.Keeps now) (hint : Hint) (what : String)
    (converts : ∀ resolution, lookup.found = some resolution →
      Stays site (convertArguments slots resolution resolution.coercions) now) :
    Stays site (conclude site.id hint what lookup slots) now := by
  unfold conclude
  split
  · rename_i resolution found
    exact accept_stays (converts resolution found)
  · exact .reject keeps site.id what _

theorem binary_stays (masters : Masters site.room visit) (keeps : site.Keeps now) (op : BinaryOp) :
    Stays site (binary visit op site.id) now := by
  refine .bindRequiredSlot keeps fun left isLeft => .bindRequiredSlot keeps fun right isRight => ?_
  have slotted : (now.get site.id).Slotted site.id [⟨site.id, left⟩, ⟨site.id, right⟩] := by
    simp [Node.Slotted, Node.lt_of_indexOf? isLeft, Node.lt_of_indexOf? isRight]
  refine .bindVisitSlot masters keeps slotted (by simp) fun leftTy tree keeps top => ?_
  rw [← top] at slotted
  refine .bindVisitSlot masters keeps slotted (by simp) fun rightTy tree keeps top => ?_
  rw [← top] at slotted
  refine .bind (operands_works keeps slotted op.operatorClass) fun types tree keeps resembles => ?_
  refine .bindAside aside_environment fun environment => ?_
  exact conclude_stays keeps _ _ fun _ found => (convertArguments_works keeps
    (slotted.resembles resembles) (resolve_reachable found)).stays

theorem unary_stays (masters : Masters site.room visit) (keeps : site.Keeps now) (op : UnaryOp) :
    Stays site (unary visit op site.id) now := by
  refine .bindRequiredSlot keeps fun index isIndex => ?_
  have slotted : (now.get site.id).Slotted site.id [⟨site.id, index⟩] := by
    simp [Node.Slotted, Node.lt_of_indexOf? isIndex]
  refine .bindVisitSlot masters keeps slotted (by simp) fun found tree keeps top => ?_
  rw [← top] at slotted
  refine .bindAside aside_environment fun environment => ?_
  refine .bind (operand_works keeps slotted (by simp) found _) fun ty tree keeps resembles => ?_
  refine .bindAside aside_environment fun environment => ?_
  exact conclude_stays keeps _ _ fun _ found => (convertArguments_works keeps
    (slotted.resembles resembles) (resolve_reachable found)).stays

theorem connective_stays (masters : Masters site.room visit) (keeps : site.Keeps now) :
    Stays site (connective visit site.id) now :=
  .bind (enforce_works masters keeps .left .bool) fun _ _ keeps _ =>
    .bind (enforce_works masters keeps .right .bool) fun _ _ keeps _ => .pure keeps trivial

theorem negation_stays (masters : Masters site.room visit) (keeps : site.Keeps now) :
    Stays site (negation visit site.id) now :=
  .bind (enforce_works masters keeps .expr .bool) fun _ _ keeps _ => .pure keeps trivial

/-! ### Fields and indexers -/

theorem staticField_stays (keeps : site.Keeps now) (owner : Ty) (name : String) :
    Stays site (staticField site.id owner name) now := by
  refine .bindAside aside_environment fun environment => ?_
  split
  · exact .reject keeps site.id _ _
  · dsimp only
    split
    · exact bound_stays keeps _ _
    · exact .failAt keeps site.id _

theorem valueField_stays (masters : Masters site.room visit) (keeps : site.Keeps now)
    (isReceiver : now.child? site.id .recv = some receiver)
    (isName : now.child? site.id .name = some nameNode) (name : String) :
    Stays site (valueField visit site.id receiver nameNode name) now := by
  refine .bind (.check masters keeps (Tree.mem_childIds_of_child? isReceiver)) ?_
  intro receiverTy tree keeps spares
  rw [← spares.child?] at isReceiver isName
  refine .bindAside aside_environment fun environment => ?_
  split
  · exact bound_stays keeps _ _
  · split
    · refine .bind (nameConstant_works keeps (Tree.mem_childIds_of_child? isName)) ?_
      intro _ tree keeps spares
      rw [← spares.child?] at isReceiver isName
      have different := keeps.distinct isReceiver isName (by decide)
      refine flattenBound_stays keeps (keeps.pick (by simpa using different) ?_) _
      simp [Tree.mem_childIds_of_child? isReceiver, Tree.mem_childIds_of_child? isName]
    · exact .reject keeps site.id _ _

theorem field_stays (masters : Masters site.room visit) (keeps : site.Keeps now) :
    Stays site (field visit site.id) now := by
  refine .bindRequired keeps fun receiver isReceiver => ?_
  refine .bindRequired keeps fun nameNode isName => ?_
  refine .bindAside (aside_textOf nameNode) fun name => ?_
  refine .bind (typeReceiver?_works keeps (Tree.mem_childIds_of_child? isReceiver)) ?_
  intro owner tree keeps spares
  rw [← spares.child?] at isReceiver isName
  cases owner with
  | some owner => exact staticField_stays keeps owner name
  | none => exact valueField_stays masters keeps isReceiver isName name

theorem dispatch_stays {label : Label} {front : NodeId} (keeps : site.Keeps now)
    (listed : site.Listed now list slots) (isFront : now.child? site.id label = some front)
    (apart : label ≠ .param) (member : MemberId) (result : Ty) :
    Stays site (dispatch site.id slots [front, list] member result) now := by
  refine .bind (coerceArguments_works keeps listed fun inner keeps slotted =>
    coerceAll_works keeps slotted .object) ?_
  intro _ tree keeps ⟨spares, listed⟩
  rw [← spares.child?] at isFront
  have different := keeps.distinct isFront listed.found apart
  refine flattenBound_stays keeps (keeps.pick (by simpa using different) ?_) _
  simp [Tree.mem_childIds_of_child? isFront, listed.mem]

theorem accessor_stays (masters : Masters site.room visit) (keeps : site.Keeps now)
    (listed : site.Listed now list slots) (isReceiver : now.child? site.id .recv = some receiver)
    (name what : String) (member : MemberId) (result : Ty) :
    Stays site (accessor visit site.id receiver list name what member result) now := by
  have different := keeps.distinct listed.found isReceiver (by decide)
  refine .bind (.check masters keeps (Tree.mem_childIds_of_child? isReceiver)) ?_
  intro receiverTy tree keeps spares
  rw [← spares.child?] at isReceiver
  have listed := (listed.spares spares different).all
  refine .bindSlots (.bind (visitArguments_works masters keeps listed) ?_)
  intro types tree keeps ⟨spares, listed, length⟩
  rw [← spares.child?] at isReceiver
  refine .bindAside aside_environment fun environment => ?_
  dsimp only
  split
  · rename_i resolution found
    exact accept_stays (convertList_stays keeps listed length found)
  · split
    · exact dispatch_stays keeps listed isReceiver (by decide) member result
    · exact .reject keeps site.id _ _

theorem indexer_stays (masters : Masters site.room visit) (keeps : site.Keeps now) :
    Stays site (indexer visit site.id) now := by
  rw [indexer_eq]
  refine .bindRequired keeps fun receiver isReceiver => ?_
  refine .bind (argumentList_works keeps) fun list tree keeps gathers => ?_
  rw [← gathers.others (by decide)] at isReceiver
  exact accessor_stays masters keeps gathers.listed isReceiver "get" _ _ _

/-! ### Casts -/

theorem cast_stays (masters : Masters site.room visit) (keeps : site.Keeps now) :
    Stays site (cast visit site.id) now := by
  refine .bindRequired keeps fun written isWritten => ?_
  have reaches := Tree.reaches_kid (Tree.mem_childIds_of_child? isWritten)
  refine .bind (annotation_works keeps reaches) fun target tree keeps _ => ?_
  refine .bindRequiredSlot keeps fun index isIndex => ?_
  obtain ⟨inner, found⟩ := Node.childAt?_of_lt (Node.lt_of_indexOf? isIndex)
  have member := Tree.mem_childIds_of_childAt? found
  refine .bindOccupant found (.bind (.check masters keeps member) ?_)
  intro source last keeps spares
  rw [← spares.childIds] at member
  have parts : site.Parts last [inner] :=
    keeps.pick (List.nodup_singleton inner) (by simpa using member)
  have made : ∀ tag : Tag, tag.isCompound = false →
      site.Keeps ((last.make site.id [(.expr, inner)]).setTag site.id tag) := by
    intro tag single
    rw [Tree.make, Tree.setTag, Tree.modify_modify]
    exact keeps.rearrange parts rfl rfl single
  refine .bindAside aside_environment fun environment => ?_
  split
  · exact .bind (modifyTree_stays (keeps.rearrange parts rfl rfl keeps.single))
      fun _ _ keeps _ => bound_stays keeps _ _
  · split
    · exact .bind (modifyTree_stays (made .upCast rfl)) fun _ _ keeps _ => .pure keeps trivial
    · split
      · exact .bind (modifyTree_stays (made .downCast rfl)) fun _ _ keeps _ => .pure keeps trivial
      · exact .failAt keeps site.id _

theorem instanceOf_stays (masters : Masters site.room visit) (keeps : site.Keeps now) :
    Stays site (instanceOf visit site.id) now := by
  refine .bindRequired keeps fun left isLeft => ?_
  refine .bind (.check masters keeps (Tree.mem_childIds_of_child? isLeft)) ?_
  intro found tree keeps _
  refine .bindRequired keeps fun right isRight => ?_
  have reaches := Tree.reaches_kid (Tree.mem_childIds_of_child? isRight)
  refine .bind (annotation_works keeps reaches) fun target tree keeps _ => ?_
  refine .bindAside aside_environment fun environment => ?_
  split
  · exact .pure keeps trivial
  · exact .bindAside (aside_warnAt site.id _) fun _ => setConst_stays keeps _ _

/-! ### Collections -/

theorem elements_works (masters : Masters site.room visit) (keeps : site.Keeps now)
    (slotted : (now.get site.id).Slotted site.id slots) :
    Stays site (elements visit slots) now := by
  refine .bind (visitAll_works masters keeps slotted) fun types tree keeps ⟨top, _⟩ => ?_
  split
  · exact .pure keeps trivial
  · split
    · exact .pure keeps trivial
    · exact .bind (coerceAll_works keeps (top ▸ slotted) .object) fun _ _ keeps _ =>
        .pure keeps trivial

theorem collected_stays {collection : Ty → Ty} (masters : Masters site.room visit)
    (keeps : site.Keeps now) :
    Stays site (do return collection (← elements visit (← Check.slots site.id))) now :=
  .bindSlots (.bind (elements_works masters keeps (now.slotted_slots site.id))
    fun _ _ keeps _ => .pure keeps trivial)

theorem keys_works (masters : Masters site.room visit) (keeps : site.Keeps now)
    (slotted : (now.get site.id).Slotted site.id slots) :
    Works site (keys visit slots) now fun _ tree =>
      (now.get site.id).Resembles (tree.get site.id) := by
  induction slots generalizing now with
  | nil => exact .pure keeps (.refl _)
  | cons slot rest ih =>
      refine .bindVisitSlot masters keeps slotted List.mem_cons_self fun _ tree keeps top => ?_
      rw [← top] at slotted ⊢
      refine .bind (coerceIn_works keeps slotted List.mem_cons_self .string) ?_
      intro _ last keeps resembles
      refine (ih keeps ?_).mono fun _ _ _ => resembles.trans
      exact fun slot member => slotted.resembles resembles slot (List.mem_cons_of_mem _ member)

theorem dict_stays (masters : Masters site.room visit) (keeps : site.Keeps now) :
    Stays site (dict visit site.id) now := by
  refine .bindSlots ?_
  have slotted := now.slotted_slots site.id
  obtain ⟨evens, odds⟩ := alternate_subset (now.slots site.id)
  split
  · exact .failAt keeps site.id _
  · refine .bind (keys_works masters keeps fun slot member => slotted slot (evens member)) ?_
    intro _ tree keeps resembles
    have later : (tree.get site.id).Slotted site.id (alternate (now.slots site.id)).2 :=
      fun slot member => slotted.resembles resembles slot (odds member)
    exact .bind (elements_works masters keeps later) fun _ _ keeps _ => .pure keeps trivial

theorem interpolation_stays (masters : Masters site.room visit) (keeps : site.Keeps now) :
    Stays site (interpolation visit site.id) now := by
  have slotted := now.slotted_slots site.id
  refine .bindSlots (.bind (visitAll_works masters keeps slotted) ?_)
  intro _ tree keeps ⟨top, _⟩
  exact .bind (coerceAll_works keeps (top ▸ slotted) .object) fun _ _ keeps _ =>
    bound_stays keeps _ _

end Rule

end ScriptTyping
