import ScriptTyping.Proofs.Rule.Access
import ScriptTyping.Proofs.Rule.Declaration

/-!
Assignments. The target of a store through an indexer is never visited as a whole, and what else a
store keeps of its target stands below that target.
-/

namespace ScriptTyping

/-- A function is bound to nothing or to its own global. -/
theorem Settled.notFunction {premise : Premise} {first : Environment} {last : Moment}
    {returnType : Option Ty} {branch : Branch} (settled : Settled premise first last returnType branch)
    (bound : branch.node.binding ≠ .unbound)
    (other : ∀ globalId, branch.node.binding ≠ .field .set (.global globalId)) :
    branch.node.tag ≠ .funcDecl := by
  intro isFunction
  cases settled with
  | idle idle _ => exact bound idle.unbound
  | checked _ _ facts _ _ =>
      unfold Branch.Facts at facts
      simp only [isFunction] at facts
      rcases facts.1 with unbound | ⟨globalId, isGlobal⟩
      · exact bound unbound
      · exact other globalId isGlobal

/-- What is bound was not left by a failed statement. -/
theorem Settled.sound {premise : Premise} {first : Environment} {last : Moment}
    {returnType : Option Ty} {branch : Branch} (settled : Settled premise first last returnType branch)
    (bound : branch.node.binding ≠ .unbound) : branch.node.tag ≠ .error := by
  intro isError
  cases settled with
  | idle idle _ => exact bound idle.unbound
  | checked _ _ facts _ _ =>
      unfold Branch.Facts at facts
      simp only [isError] at facts
      exact bound facts.1

/-- What is bound to a read is a name or a field, and agrees with the place that it reads. -/
theorem Settled.reads {premise : Premise} {first : Environment} {last : Moment}
    {returnType : Option Ty} {branch : Branch}
    (settled : Settled premise first last returnType branch) {place : FieldTarget}
    (bound : branch.node.binding = .field .get place) : branch.Reads last.environment := by
  cases settled with
  | idle idle _ => simp [idle.unbound] at bound
  | checked _ after facts applies _ =>
      unfold Branch.Facts at facts
      rcases applies.reads place bound with isTag | isTag
      · simp only [isTag] at facts
        exact facts.mono after.environment.grows
      · simp only [isTag] at facts
        exact facts.1.mono after.environment.grows

/-- What is bound to a member came to be bound to it in one of the known ways. -/
theorem Settled.invokes {premise : Premise} {first : Environment} {last : Moment}
    {returnType : Option Ty} {branch : Branch}
    (settled : Settled premise first last returnType branch) {hint : Hint} {member : MemberId}
    {typeArgs : List Ty} (bound : branch.node.binding = .invoke hint (.member member) typeArgs) :
    ∃ moment : Moment, first.Leads moment.environment ∧ moment.Leads last ∧
      branch.Invokes moment.environment moment.errors hint member := by
  cases settled with
  | idle idle _ => simp [idle.unbound] at bound
  | @checked _ _ _ moment before after facts applies _ =>
      refine ⟨moment, before, after, ?_⟩
      have isCalling := applies.calls hint member typeArgs bound
      unfold Branch.Facts at facts
      cases isTag : branch.node.tag <;> simp only [isTag] at facts isCalling
      case assertion =>
        obtain ⟨_, isAssertion, _⟩ := Binding.invoke.inj (facts.1.symm.trans bound)
        rw [InvokeTarget.member.injEq] at isAssertion
        refine .inert fun _ _ _ => RuntimeMember.not_dispatches (.inl ?_)
        rw [← isAssertion]
        exact Nat.lt_succ_self _
      case cast =>
        obtain ⟨_, _, entry, _, isEntry, isBound⟩ := facts
        obtain ⟨_, isMember, _⟩ := Binding.invoke.inj (isBound.symm.trans bound)
        rw [InvokeTarget.member.injEq] at isMember
        refine .inert fun _ _ _ => RuntimeMember.not_dispatches (.inl ?_)
        rw [← isMember]
        exact Nat.lt_succ_of_lt (CastEntry.member_lt (List.mem_of_find?_eq_some isEntry))
      case binary | unary | methodApply | field => exact facts.2 hint member typeArgs bound
      case apply => exact facts.2.2 hint member typeArgs bound
      case indexer => exact facts.2.1 hint member typeArgs bound
      case assign => exact facts.2.2.1 hint member typeArgs bound
      case interpolation => exact facts.1 hint member typeArgs bound
      case forEach => exact facts hint member typeArgs bound
      all_goals simp [Tag.isCalling] at isCalling

def Branch.combined (left right : Branch) (tag : Tag) (id : NodeId) (span : Span) : Branch :=
  .mk right.label id
    { tag, children := [⟨some .left, left.id⟩, ⟨some .right, right.id⟩], span }
    [left.under (some .left), right.under (some .right)]

section Combined

variable {premise : Premise} {left right : Branch} {id : NodeId} {span : Span}

theorem Raw.combined (rawLeft : Raw premise left) (rawRight : Raw premise right) (op : BinaryOp)
    (isNew : premise.loaded.nodes.size ≤ id) :
    Raw premise (left.combined right (.binary op) id span) := by
  have kids : ∀ kid ∈ (left.combined right (.binary op) id span).kids, Raw premise kid := by
    intro kid member
    rcases List.mem_pair.mp member with rfl | rfl
    · exact rawLeft.under _
    · exact rawRight.under _
  have isTag : (left.combined right (.binary op) id span).stored.tag = .binary op :=
    Branch.tag_stored _
  refine .ofKids (.mk rfl rfl rfl fun kid member => (kids kid member).blank)
    ⟨?_, ?_, ?_, ?_, ?_, ?_, ?_⟩ (fun isSequence => ?_)
    (fun isOld => absurd isOld (Nat.not_lt.mpr isNew)) kids
  · intro _
    rw [isTag]
    exact ⟨by simp, by simp⟩
  · intro _ isReturn
    rw [isTag] at isReturn
    simp at isReturn
  · intro _ known isKnown
    simp [Tag.storeLabels?, isTag] at isKnown
  · intro child member
    rw [StoredNode.asides, isTag] at member
    simp at member
  · intro _
    rw [isTag]
    simp
  · intro isSequence
    simp [isTag, Tag.isSequence] at isSequence
  · intro isIndexer
    simp [isTag] at isIndexer
  · simp [Branch.combined, Tag.isSequence] at isSequence

theorem Branch.calm_combined {calm : Calm} (quietLeft : calm.Implies left.stored.calm)
    (quietRight : calm.Implies right.stored.calm) (op : BinaryOp) :
    calm.Implies (left.combined right (.binary op) id span).stored.calm := by
  have quiet : ∀ kid ∈ (left.combined right (.binary op) id span).kids,
      calm.Implies kid.stored.calm := by
    intro kid member
    rcases List.mem_pair.mp member with rfl | rfl
    · rw [calm_under]
      exact quietLeft
    · rw [calm_under]
      exact quietRight
  refine ⟨fun isCalm => Bool.eq_false_iff.mpr fun returns => ?_, fun mode isStill => ?_,
    fun place name spared => ?_⟩
  · rcases (Branch.canReturn_iff _).mp returns with isReturn | ⟨_, kid, member, returns⟩
    · simp [combined] at isReturn
    · exact absurd returns (Bool.eq_false_iff.mp ((quiet kid member).returns isCalm))
  · exact (Branch.still_iff _ mode).mpr ⟨rfl, fun kid member => (quiet kid member).still mode isStill⟩
  · refine (Branch.spares_iff _ place name).mpr ⟨by simp [StoredNode.exposed?, combined], ?_⟩
    exact fun kid member => (quiet kid member).spares place name spared

/-- A new branch and a child become the operands of a new node in the place of that child. -/
theorem Tree.Stands.combine {tree middle : Tree} {branch copy : Branch} {place : Nat}
    {label : Label} {stored : StoredNode} {copyId : NodeId} (stands : tree.Stands branch)
    (isRight : branch.Kid label place right) (builds : tree.Builds stored copyId middle copy)
    (tag : Tag) :
    let value := middle.labelled tag [(.left, copyId), (.right, right.id)]
    tree.nodes.size ≤ value.1 ∧ ∃ span, tree.Turns branch (value.2.setChild branch.id label value.1)
      (branch.setKid place (copy.combined right tag value.1 span)) := by
  obtain rfl := builds.id
  let children : List Child := [⟨some .left, copy.id⟩, ⟨some .right, right.id⟩]
  let node : Node := { tag, children, span := middle.coverOf children }
  have adds : tree.Adds (middle.alloc node).2 := builds.adds.trans (middle.alloc_adds node)
  have standsRight := stands.kid isRight.mem
  have apart : List.Disjoint copy.ids right.ids := fun position inside insideRight =>
    Nat.not_lt.mpr (builds.fresh position inside) (standsRight.holds.ids_bound insideRight)
  refine ⟨builds.adds.size, middle.coverOf children, ?_⟩
  show tree.Turns branch ((middle.alloc node).2.setChild branch.id label (middle.alloc node).1) _
  rw [Tree.setChild_eq_replaceAt (stands.holds.adds adds) isRight]
  let value := copy.combined right tag (middle.alloc node).1 (middle.coverOf children)
  have sameLabel : value.label = right.label := rfl
  refine .replaceAt stands isRight.found sameLabel ?_ ?_
    (fun position bound _ => adds.get position bound) adds.size adds.root adds.source
  · refine Tree.stands_node ?_ ?_ rfl right.label
    · intro kid member
      rcases List.mem_pair.mp member with rfl | rfl
      · exact builds.stands.under _
      · exact (standsRight.adds builds.adds).under _
    · refine List.pairwise_pair.mpr ?_
      rw [Branch.ids_under, Branch.ids_under]
      exact apart
  · intro position inside
    rw [Branch.ids_eq, List.mem_cons] at inside
    rcases inside with same | inside
    · rw [same]
      exact .inr builds.adds.size
    · obtain ⟨kid, member, insideKid⟩ := List.mem_flatMap.mp inside
      rcases List.mem_pair.mp member with rfl | rfl
      · rw [Branch.ids_under] at insideKid
        exact .inr (builds.fresh position insideKid)
      · rw [Branch.ids_under] at insideKid
        exact .inl insideKid

end Combined

namespace Rule

open Check

variable {premise : Premise} {calm : Calm} {first : Environment}
  {unseen : Nat → Option Label → Prop} {old : CheckState} {branch target : Branch} {index : Nat}
  {visit : Visit}

structure Assigned (premise : Premise) (calm : Calm) (first : Environment) (ty : Ty)
    (new : CheckState) (after : Branch) : Prop where
  isOpen : Open premise calm first (fun _ _ => False) new after
  tag : after.node.tag = .assign
  uncalled : after.node.binding.isCall = false
  stores : premise.tidy → (after.typed ty).Stores new.environment

theorem Assigned.close {new : CheckState} {after : Branch} {ty : Ty}
    (assigned : Assigned premise calm first ty new after) : Ruled premise first ty new after := by
  refine assigned.isOpen.close ?_
  unfold Branch.Facts
  simp only [Branch.typed, Branch.node_alter, assigned.tag]
  have uncalled : ∀ hint target typeArgs, after.node.binding ≠ .invoke hint target typeArgs := by
    intro hint target typeArgs bound
    simpa [bound, Binding.isCall] using assigned.uncalled
  refine ⟨.ofUnbound fun hint member typeArgs bound => absurd bound (uncalled _ _ _),
    assigned.stores, .ofOther fun hint member typeArgs => uncalled _ _ _, fun called => ?_⟩
  exact absurd (called.symm.trans assigned.uncalled) (by decide)

theorem declareImplicit_yields {node : NodeId} (isOpen : Open premise calm first unseen old branch)
    (loud : ∀ mode, calm.still mode → (mode.shell && !mode.inside) = false)
    (named : (old.mode.shell && !old.mode.inside) = true → old.tree.tag node = .name →
      ¬ calm.spares old.place (old.tree.text node)) :
    (declareImplicit node).Yields calm old branch fun _ new after => after = branch ∧
      Open premise calm first unseen new branch := by
  refine .bindRead isOpen.stands (.bindRead isOpen.stands (.bindRead isOpen.stands ?_))
  have same : Check.Yields (pure ()) calm old branch fun _ new after => after = branch ∧
      Open premise calm first unseen new branch := .pure isOpen.stands ⟨rfl, isOpen⟩
  split
  · rename_i isImplicit
    rw [Bool.and_eq_true] at isImplicit
    have isLoud : ¬ calm.still old.mode := fun isStill =>
      absurd (isImplicit.1.symm.trans (loud _ isStill)) (by decide)
    refine .bindRead isOpen.stands ?_
    split
    · split
      · rename_i environment _ declared
        have becomes := becomes_declareGlobal isOpen.stands declared isLoud
          (named isImplicit.1 (of_decide_eq_true isImplicit.2))
        exact .ofRun rfl becomes ⟨rfl, isOpen.ofState rfl becomes.evolves⟩
      · exact same
    · exact same
  · exact same

/-! ### Stores that are bound to their place -/

structure Rearranged (premise : Premise) (calm : Calm) (first : Environment) (old : CheckState)
    (branch : Branch) (kids : List Branch) (new : CheckState) (after : Branch) : Prop where
  isOpen : Open premise calm first (fun _ _ => False) new after
  id : after.id = branch.id
  tag : after.node.tag = branch.node.tag
  binding : after.node.binding = branch.node.binding
  kids : after.kids = kids
  environment : new.environment = old.environment

theorem Rearranged.refl (isOpen : Open premise calm first unseen old branch) :
    Rearranged premise calm first old branch branch.kids old branch :=
  ⟨isOpen.narrow fun _ _ none => none.elim, rfl, rfl, rfl, rfl, rfl⟩

theorem rearrange_yields {alters : Tree → Tree} (change : Node → Node) {kids : List Branch}
    (isOpen : Open premise calm first unseen old branch)
    (arranged : Arranged premise first old branch (change branch.node) kids)
    (alters_eq : alters old.tree = old.tree.modify branch.id change)
    (tag : (change branch.node).tag = branch.node.tag)
    (binding : (change branch.node).binding = branch.node.binding)
    (note : (change branch.node).note = branch.node.note) :
    (modifyTree alters).Yields calm old branch fun _ new after =>
      Rearranged premise calm first old branch kids new after := by
  have stored : (modifyTree alters >>= pure).Yields calm old branch fun _ new after =>
      Rearranged premise calm first old branch kids new after := by
    refine .bindArranged isOpen arranged alters_eq note (isOpen.inside.alike tag binding) ?_
    intro new after opens sameId sameNode sameKids environment _
    exact .pure opens.stands
      ⟨opens, sameId, sameNode ▸ tag, sameNode ▸ binding, sameKids, environment⟩
  exact stored

/-- A store into a field that is not readonly keeps only the receiver of its target. -/
theorem storeMember_yields (isOpen : Open premise calm first unseen old branch)
    (isTarget : branch.Kid .left index target) (notFunction : target.node.tag ≠ .funcDecl)
    (sound : target.node.tag ≠ .error) (ofReceiver : target.NotesOfReceiver) (member : MemberId) :
    (storeMember branch.id target.id member).Yields calm old branch fun _ new after =>
      (old.environment.registry.member member).isReadonly = false ∧
        ∃ kids, Rearranged premise calm first old branch kids new after ∧
          ∀ label, label ≠ .left → label ≠ .recv →
            kids.find? (·.label == some label) = branch.first? label := by
  refine .bindRead isOpen.stands ?_
  simp only
  split
  · exact .failAt isOpen.stands _ rfl
  · rename_i writable
    rw [Bool.not_eq_true] at writable
    split
    · refine .bindRead isOpen.stands ?_
      rw [(isOpen.stands.kid isTarget.mem).holds.child?_eq]
      cases found : target.first? .recv with
      | none =>
          exact .pure isOpen.stands ⟨writable, _, .refl isOpen, fun _ _ _ => rfl⟩
      | some receiver =>
          obtain ⟨place, isReceiver⟩ := Branch.first?_eq_some_iff.mp found
          have notes : receiver.notes = target.notes := by
            rw [target.notes_below sound, ← Branch.notesAll_singleton]
            refine Branch.notesAll_pick (List.nodup_singleton place)
              (.cons isReceiver.found .nil) fun spot kid found other => ?_
            refine ofReceiver spot kid found fun isRole => other ?_
            rw [Branch.roleAt_eq_some_iff.mp isRole |>.symm.trans isReceiver.first |> Option.some.inj]
            exact List.mem_singleton_self _
          have arranged :=
            (Arranged.hoist isOpen isTarget isReceiver.mem notFunction notes).relabel .left .recv
          refine (rearrange_yields
            (fun node => (node.setChild .left receiver.id).relabel .left .recv) isOpen arranged
            ?_ (by simp) (by simp) (by simp)).mono ?_
          · simp only [Tree.setChild, Tree.relabel, Tree.modify_modify]
          · intro _ new after _ rearranged
            refine ⟨writable, _, rearranged, fun label notLeft notRecv => ?_⟩
            have hoisted : (receiver.under target.label).label = target.label := rfl
            rw [Branch.find?_relabelled_other notLeft notRecv]
            exact Branch.first?_setKid_other isTarget hoisted (Ne.symm notLeft)
    · exact .pure isOpen.stands ⟨writable, _, .refl isOpen, fun _ _ _ => rfl⟩

/-- The stored value of a bound store is under another label than before. -/
theorem placed_yields {value : Branch} {kids : List Branch} {start : CheckState} {place : FieldTarget}
    {ty : Ty} (isTag : branch.node.tag = .assign)
    (rearranged : Rearranged premise calm first start branch kids old target)
    (value_eq : branch.first? .right = some value) (suits : value.Suits ty)
    (clear : premise.tidy → branch.first? .expr = none)
    (others : ∀ label, label ≠ .left → label ≠ .recv →
      kids.find? (·.label == some label) = branch.first? label)
    (global : ∀ globalId, place = .global globalId → globalId < old.environment.globals.size ∧
      (old.environment.global globalId).ty = ty)
    (member : ∀ memberId, place = .member memberId →
      memberId < old.environment.registry.members.size ∧
        (old.environment.registry.member memberId).isReadonly = false) :
    (bindPlace branch.id place).Yields calm old target fun _ new after =>
      Assigned premise calm first ty new after := by
  have arranged := (Arranged.ofOpen rearranged.isOpen).relabel .right .expr
  rw [← rearranged.id]
  refine (rearrange_yields (fun node => node.relabel .right .expr) rearranged.isOpen
    arranged rfl (by simp) (by simp) (by simp)).bind ?_
  rintro _ later last _ relabelled
  rw [← relabelled.id]
  refine (modify_yields relabelled.isOpen rfl rfl (relabelled.isOpen.inside.rebind rfl)).mono ?_
  rintro _ final _ _ ⟨rfl, opens, environment, _⟩
  refine ⟨opens, relabelled.tag.trans (rearranged.tag.trans isTag), rfl, ?_⟩
  intro tidy
  rw [environment, relabelled.environment]
  refine ⟨fun _ => ?_, ?_, ?_⟩
  · have noExpr : target.kids.find? (·.label == some .expr) = none := by
      rw [rearranged.kids, others .expr (by decide) (by decide), clear tidy]
    have stored : last.first? .expr = some (value.under (some .expr)) := by
      rw [Branch.first?, relabelled.kids, Branch.find?_relabelled_target noExpr, rearranged.kids,
        others .right (by decide) (by decide), value_eq, Option.map_some]
    refine ⟨value.under (some .expr), ty, ?_, rfl, suits⟩
    show (last.first? .expr).or (last.first? .right) = _
    rw [stored, Option.some_or]
  · intro globalId bound
    simp only [Branch.typed, Branch.node_alter, Binding.field.injEq, true_and] at bound
    obtain ⟨inRange, same⟩ := global globalId bound
    exact ⟨inRange, ty, rfl, same ▸ BEq.rfl⟩
  · intro memberId bound
    simp only [Branch.typed, Branch.node_alter, Binding.field.injEq, true_and] at bound
    exact member memberId bound

theorem bindStore_yields {place : Nat} {value : Branch} {ty : Ty}
    (isOpen : Open premise calm first unseen old branch)
    (isTag : branch.node.tag = .assign) (unbound : branch.node.binding = .unbound)
    (isTarget : branch.Kid .left index target) (typed : target.node.ty = some ty)
    (isValue : branch.Kid .right place value) (suits : value.Suits ty)
    (clear : premise.tidy → branch.first? .expr = none) :
    (bindStore branch.id target.id).Yields calm old branch fun _ new after =>
      Assigned premise calm first ty new after := by
  refine .bindRead isOpen.stands ?_
  have binding := (isOpen.stands.kid isTarget.mem).holds.binding_eq
  split
  · rename_i place bound
    rw [binding] at bound
    have settled := isOpen.settled target isTarget.mem
    have notFunction : target.node.tag ≠ .funcDecl :=
      settled.notFunction (by simp [bound]) (by simp [bound])
    obtain ⟨ofReceiver, ofGlobal, ofMember⟩ := settled.reads bound
    cases place with
    | «global» globalId =>
        obtain ⟨inRange, typedGlobal⟩ := ofGlobal globalId bound
        refine placed_yields isTag (.refl isOpen) isValue.first? suits clear (fun _ _ _ => rfl) ?_
          fun _ same => by simp at same
        intro other same
        obtain rfl := FieldTarget.global.inj same
        exact ⟨inRange, Option.some.inj (typedGlobal.symm.trans typed)⟩
    | member member =>
        refine (storeMember_yields isOpen isTarget notFunction (settled.sound (by simp [bound]))
          (ofReceiver _ bound) member).bind ?_
        rintro _ new after _ ⟨writable, kids, rearranged, others⟩
        refine placed_yields isTag rearranged isValue.first? suits clear others
          (fun _ same => by simp at same) ?_
        intro other same
        obtain rfl := FieldTarget.member.inj same
        rw [rearranged.environment]
        exact ⟨ofMember member bound, writable⟩
  · refine .pure isOpen.stands ⟨isOpen.narrow fun _ _ none => none.elim, isTag, ?_, ?_⟩
    · rw [unbound]
      rfl
    · intro tidy
      have sameBinding : (branch.typed ty).node.binding = .unbound := unbound
      refine ⟨fun _ => ⟨value, ty, ?_, rfl, suits⟩, ?_, ?_⟩
      · show (branch.first? .expr).or (branch.first? .right) = _
        rw [clear tidy, Option.none_or, isValue.first?]
      · exact fun _ bound => by simp [sameBinding] at bound
      · exact fun _ bound => by simp [sameBinding] at bound

/-! ### Stores that become calls -/

/-- The parts of the target and the stored value become the children of a call of the field setter. -/
theorem splice_yields {place : Nat} {value : Branch}
    (isOpen : Open premise calm first (Unseen [.right, .left]) old branch)
    (isTag : branch.node.tag = .assign) (isTarget : branch.Kid .left index target)
    (isValue : branch.Kid .right place value) (notFunction : target.node.tag ≠ .funcDecl)
    (sound : target.node.tag ≠ .error) :
    (spliceStore branch.id (target.kids.map Branch.id) value.id).Yields calm old branch
      fun ty new after => ty = .void ∧
        Open premise calm first (fun _ _ => False) new after ∧ after.node.tag = .assign ∧
        after.node.binding = .static RuntimeMember.fieldSetter ∧
        after.kids = ((target.kids ++ [value]).flatMap Branch.opened).map (·.under none) ∧
        new.environment = old.environment := by
  have different := isTarget.ne isValue (by decide)
  have silent := isOpen.others_silent (.cons ⟨_, isValue⟩ (.cons ⟨_, isTarget⟩ .nil))
  have both := (Parts.ofOpen isOpen).pick [index, place] (by simpa using different)
    (.cons isTarget.found (.cons isValue.found .nil))
    fun spot kid found other => silent spot kid found (by simpa [and_comm] using other)
  have parts := Parts.spill [] both (.refl _) notFunction (target.notes_below sound).symm
  have ids : target.kids.map Branch.id ++ [value.id] =
      ([] ++ target.kids ++ [value]).map Branch.id := by simp
  rw [spliceStore, ids]
  refine .bindFlatten isOpen parts ?_
  intro new opens environment _
  refine .bindModify opens rfl rfl (opens.inside.calling (by simp [isTag, Tag.isCalling]) _ _ _) ?_
  intro last opensLast environmentLast _
  exact .pure opensLast.stands
    ⟨rfl, opensLast, isTag, rfl, rfl, environmentLast.trans environment⟩

/-- A target that is bound to the field getter gives its children to the store. -/
theorem stored_invokes {environment : Environment} {errors errorsLast : List CheckError} {hint : Hint}
    {value after : Branch}
    (invokes : target.Invokes environment errors hint RuntimeMember.fieldGetter)
    (grows : errors <+: errorsLast) (suits : value.Suits .object)
    (reported : value.node.tag = .list → errorsLast ≠ [])
    (kids : after.kids = ((target.kids ++ [value]).flatMap Branch.opened).map (·.under none))
    (isAssign : after.node.tag = .assign) (typed : after.node.ty = some .void) :
    after.Invokes environment errorsLast .staticInvocation RuntimeMember.fieldSetter := by
  cases invokes with
  | dispatched dispatches supplies =>
      obtain rfl := dispatches.getField_params
      by_cases isList : value.node.tag = .list
      · exact .loud (reported isList)
      obtain ⟨receiver, name, arguments, isKids, isDynamic, notReceiver, notName⟩ :=
        supplies.names rfl
      have suitsTarget := supplies.suits
      rw [isKids] at suitsTarget
      obtain _ | ⟨suitsReceiver, _ | ⟨suitsName, _ | _⟩⟩ := suitsTarget
      have opened : (target.kids ++ [value]).flatMap Branch.opened = [receiver, name, value] := by
        simp [isKids, Branch.opened_of_other, notReceiver, notName, isList]
      exact .dispatched .setField (.ofFlattened kids opened
        (.cons suitsReceiver (.cons suitsName (.cons suits .nil))) typed
        fun _ => ⟨receiver, name, [value], rfl, isDynamic, notReceiver, notName⟩)
  | found finds =>
      have strays : after.Finds environment hint RuntimeMember.fieldGetter := by
        refine finds.imp_right ?_
        rintro ⟨isLookup, kid, isKid, notList, offers⟩
        refine ⟨isLookup, kid.under none, ?_, notList, offers⟩
        rw [kids]
        refine List.mem_map_of_mem (List.mem_flatMap.mpr ⟨kid, List.mem_append_left _ isKid, ?_⟩)
        rw [Branch.opened_of_other notList]
        exact List.mem_singleton_self kid
      exact .stray rfl isAssign strays
  | inert none => exact absurd .getField (none _ _ _)
  | stray isSetter _ _ => exact absurd isSetter.symm (Nat.succ_ne_self _)
  | loud isLoud => exact .loud fun silent => isLoud (List.prefix_nil.mp (silent ▸ grows))

theorem storeDynamic_yields (visits : Visits premise visit)
    (isOpen : Open premise calm first (Unseen [.left]) old branch)
    (isTag : branch.node.tag = .assign) (isTarget : branch.Kid .left index target) {hint : Hint}
    {typeArgs : List Ty}
    (isGetter : target.node.binding = .invoke hint (.member RuntimeMember.fieldGetter) typeArgs) :
    (storeDynamic visit branch.id target.id).Yields calm old branch (Ruled premise first) := by
  have settled := isOpen.settled target isTarget.mem
  have notFunction := settled.notFunction (by simp [isGetter]) (by simp [isGetter])
  have sound := settled.sound (by simp [isGetter])
  obtain ⟨moment, before, afterwards, invokes⟩ := settled.invokes isGetter
  refine .bindRead isOpen.stands ?_
  rw [(isOpen.stands.kid isTarget.mem).holds.childIds_eq]
  refine .bindRequiredSlot isOpen.stands ?_
  intro place value isValue
  have different := isTarget.ne isValue (by decide)
  refine .bindOccupant isOpen.stands isValue.found ?_
  refine .bindReported visits isOpen isValue (by decide) ?_
  intro ty new newValue becomes typed reported opens
  have isVisited := isValue.setKid_self becomes.turns.label
  have isTargetNew := isTarget.setKid_other isValue.found becomes.turns.label (Ne.symm different)
  refine (coerce_yields opens isVisited.found (not_unseen_cons isVisited) typed .object).bind ?_
  rintro _ later _ coerces ⟨coerced, rfl, label, suits, rfl, opensLater, same, _, listed⟩
  have isTargetLater := isTargetNew.setKid_other isVisited.found label (Ne.symm different)
  refine (splice_yields opensLater isTag isTargetLater (isVisited.setKid_self label) notFunction
    sound).mono ?_
  rintro _ final after splices ⟨rfl, opensFinal, isTagFinal, isSetter, kids, sameFinal⟩
  have grows := coerces.evolves.errors.trans splices.evolves.errors
  have leads : moment.environment.Leads final.environment := by
    rw [sameFinal, same]
    exact afterwards.environment.trans becomes.evolves.environment
  have undated : after.node.isDated ≠ true := by
    simp [Node.isDated, Binding.callee?, isTagFinal, isSetter, Binding.static]
  refine opensFinal.closeAt before leads ?_ fun isDated => absurd isDated undated
  unfold Branch.Facts
  simp only [Branch.typed, Branch.node_alter, isTagFinal]
  refine ⟨.ofStatic isSetter (by decide), fun _ => .ofCall (by rw [Branch.node_alter, isSetter]; rfl),
    .ofBound isSetter (stored_invokes invokes ?_ suits (fun isList => ?_) kids isTagFinal rfl),
    fun _ other => absurd isSetter other⟩
  · exact afterwards.errors.trans (becomes.evolves.errors.trans grows)
  · exact fun silent => (reported (listed isList)).2 (List.prefix_nil.mp (silent ▸ grows))

/-- A receiver and a new list of items become the children of the top node. -/
theorem bindEnlist {next : NodeId → Check Ty} {post : Ty → CheckState → Branch → Prop}
    {receiver : Branch} {items : List Branch} (isOpen : Open premise calm first unseen old branch)
    (parts : Parts premise first old old.tree branch (receiver :: items))
    (raw : ∀ kid ∈ receiver :: items, Raw premise kid ∧ calm.Implies kid.stored.calm)
    (rest : ∀ new after list, after.id = branch.id → after.node.tag = branch.node.tag →
      after.Kid .recv 0 (receiver.under (some .recv)) → after.Kid .param 1 list → list.IsList →
      list.kids.length = items.length →
      (∀ kid ∈ list.kids, Raw premise kid ∧ calm.Implies kid.stored.calm) →
      Open premise calm first (Unseen [.param]) new after →
      (next list.id).Yields calm new after post) :
    Check.Yields (do
      let list ← build (·.sequence .list (items.map Branch.id))
      modifyTree (·.make branch.id [(.recv, receiver.id), (.param, list)])
      next list) calm old branch post := by
  have labelled : List.Forall₂ (fun kid other => ∃ label, other = Branch.under kid label)
      (receiver :: items) (receiver.under (some .recv) :: items.map (·.under none)) := by
    refine .cons ⟨some .recv, rfl⟩ ?_
    rw [List.forall₂_map_right_iff, List.forall₂_same]
    exact fun _ _ => ⟨none, rfl⟩
  have apart := parts.under labelled
  let children := (items.map Branch.id).map fun item => (⟨none, item⟩ : Child)
  let node : Node := { tag := .list, children, span := old.tree.coverOf children }
  let list : Branch := .mk (some .param) (old.tree.alloc node).1 node (items.map (·.under none))
  have isList : list.IsList := ⟨rfl, rfl, rfl⟩
  have isChildren : node.children = (items.map (·.under none)).map Branch.child := by
    simp only [node, children, List.map_map]
    rfl
  have rawItems : ∀ kid ∈ list.kids, Raw premise kid ∧ calm.Implies kid.stored.calm := by
    intro kid member
    obtain ⟨item, isItem, rfl⟩ := List.mem_map.mp member
    obtain ⟨rawItem, quiet⟩ := raw item (List.mem_cons_of_mem _ isItem)
    exact ⟨rawItem.under none, by rw [Branch.calm_under]; exact quiet⟩
  have grouped := Parts.group [receiver.under (some .recv)] (some .param) apart
    isChildren isList.inside.sound (isList.settled fun kid member => (rawItems kid member).1.settled)
  let change (top : Node) : Node :=
    { top with children := [⟨some .recv, receiver.id⟩, ⟨some .param, list.id⟩] }
  have rawReceiver : ∀ (index : Nat) (kid : Branch),
      ([receiver.under (some .recv)] ++ [list])[index]? = some kid →
      Unseen [.param] index
        (Branch.roleAt ([receiver.under (some .recv)] ++ [list]) index) →
      Raw premise kid ∧ calm.Implies kid.stored.calm := by
    intro index kid found isUnseen
    obtain ⟨rawKid, quiet⟩ := raw receiver List.mem_cons_self
    match index with
    | 0 =>
        obtain rfl := Option.some.inj found
        exact ⟨rawKid.under _, by rw [Branch.calm_under]; exact quiet⟩
    | 1 =>
        obtain rfl := Option.some.inj found
        exact absurd (by rfl) (isUnseen .param List.mem_cons_self)
    | index + 2 => simp at found
  obtain ⟨becomes, opens⟩ := isOpen.rearranged grouped change rfl rfl
    (isOpen.inside.alike rfl rfl) (Unseen [.param]) rawReceiver
  refine .ofRest ?_ becomes (rest _ _ list rfl rfl ⟨rfl, rfl⟩ ⟨rfl, rfl⟩ isList
    (List.length_map _) rawItems opens)
  rfl

/-- The receiver, the indices and the value of a store through an indexer, whose other children have
no notes. -/
theorem storeIndexed_parts {value receiver indices : Branch} {place spot here : Nat}
    (isOpen : Open premise calm first (Unseen [.left]) old branch)
    (opensTarget : Open premise calm first (Unseen [.param]) old target)
    (isTarget : branch.Kid .left index target) (isValue : branch.Kid .right place value)
    (isReceiver : target.Kid .recv spot receiver) (isIndices : target.Kid .param here indices)
    (isList : indices.IsList) :
    Parts premise first old old.tree branch (receiver :: (indices.kids ++ [value])) := by
  have different := isTarget.ne isValue (by decide)
  have silent := isOpen.others_silent (.cons ⟨_, isTarget⟩ .nil)
  have both := (Parts.ofOpen isOpen).pick [index, place] (by simpa using different)
    (.cons isTarget.found (.cons isValue.found .nil))
    fun spot kid found other => silent spot kid found fun same => other (by simp_all)
  have flat := Parts.spill [] both (.refl _) opensTarget.inside.opened
    (target.notes_below opensTarget.inside.sound).symm
  have inFront := (List.getElem?_eq_some_iff.mp isReceiver.found).1
  have inRange := (List.getElem?_eq_some_iff.mp isIndices.found).1
  have separate := isReceiver.ne isIndices (by decide)
  -- The value follows the children of the target, which stand in its place.
  have apart : [spot, here, target.kids.length].Nodup := by
    simp only [List.nodup_cons, List.mem_cons, List.not_mem_nil, or_false, List.nodup_nil,
      and_true, not_or, not_false_eq_true]
    omega
  have picked : Parts premise first old old.tree branch [receiver, indices, value] :=
    flat.pick _ apart (.cons ?_ (.cons ?_ (.cons ?_ .nil))) ?_
  · have notFunction : indices.node.tag ≠ .funcDecl := by simp [isList.tag]
    exact Parts.spill [receiver] picked (.refl _) notFunction isList.notes.symm
  · rw [List.nil_append, List.getElem?_append_left inFront]
    exact isReceiver.found
  · rw [List.nil_append, List.getElem?_append_left inRange]
    exact isIndices.found
  · rw [List.nil_append, List.getElem?_append_right (Nat.le_refl _), Nat.sub_self]
    rfl
  · intro position kid found other
    have inAll := (List.getElem?_eq_some_iff.mp found).1
    simp only [List.nil_append, List.length_append, List.length_singleton] at inAll
    simp only [List.mem_cons, List.not_mem_nil, or_false, not_or] at other
    rw [List.nil_append, List.getElem?_append_left (by omega)] at found
    exact opensTarget.others_silent (.cons ⟨_, isIndices⟩ .nil) position kid found
      (by simpa using other.2.1)

theorem storeIndexed_yields (visits : Visits premise visit)
    (isOpen : Open premise calm first (Unseen []) old branch) (isTag : branch.node.tag = .assign)
    (isTarget : branch.Kid .left index target) (isIndexer : target.node.tag = .indexer)
    (indexes : premise.Indexes branch.id target.stored.argumentCount) :
    (storeIndexed visit branch.id target.id).Yields calm old branch (Ruled premise first) := by
  have isUnseen := @unseen_kid _ _ _ _ [] isTarget (by decide)
  have raw := isOpen.raw index target isTarget.found isUnseen
  have quiet := isOpen.quiet index target isTarget.found isUnseen
  have notFunction : target.node.tag ≠ .funcDecl := by simp [isIndexer]
  have sound : target.node.tag ≠ .error := by simp [isIndexer]
  have opensTarget := isOpen.ofRaw isTarget.mem
    (.ofUnbound notFunction sound raw.blank.binding_eq) (fun _ member => raw.kid member) fun _ member =>
      quiet.trans (Branch.calm_kid notFunction (.inl (by simp [isIndexer])) member)
  refine .bindRequiredOf isOpen.stands (isOpen.stands.kid isTarget.mem).holds ?_
  intro spot receiver isReceiver
  have listing := argumentList_yields (opensTarget.narrow fun _ _ _ => trivial)
    (List.not_mem_nil : Label.param ∉ [])
  refine (listing.inside isOpen.stands isTarget.found).bind ?_
  rintro _ new _ _ ⟨newTarget, becomes, ⟨here, indices, rfl, listed⟩, rfl⟩
  have settled : Settled premise first new.moment new.scopes.returnType? newTarget := by
    rw [listed.changed]
    exact raw.withKids (by simp [isIndexer, Tag.isSequence]) listed.isOpen.settled
  have opens : Open premise calm first (Unseen [.left]) new (branch.setKid index newTarget) :=
    isOpen.step isTarget.found becomes settled (fun _ _ => unseen_cons) (not_unseen_cons isTarget)
  have isNewTarget := isTarget.setKid_self becomes.turns.label
  have isReceiverNew := listed.others .recv spot receiver (by decide) isReceiver
  refine .bindRequired opens.stands ?_
  intro place value isValue
  refine .bindRead opens.stands ?_
  rw [((opens.stands.kid isNewTarget.mem).kid listed.isKid.mem).holds.childIds_eq]
  have parts := storeIndexed_parts opens listed.isOpen isNewTarget isValue isReceiverNew listed.isKid
    listed.isList
  have ids : indices.kids.map Branch.id ++ [value.id] =
      (indices.kids ++ [value]).map Branch.id := by simp
  rw [ids]
  refine bindEnlist opens parts ?_ ?_
  · have rawReceiver := listed.isOpen.raw spot receiver isReceiverNew.found
      (unseen_kid isReceiverNew (by decide))
    have quietReceiver := listed.isOpen.quiet spot receiver isReceiverNew.found
      (unseen_kid isReceiverNew (by decide))
    have isNew := @unseen_kid _ _ _ _ [.left] isValue (by decide)
    intro kid member
    rcases List.mem_cons.mp member with rfl | isItem
    · exact ⟨rawReceiver, quietReceiver⟩
    · rcases List.mem_append.mp isItem with isIndex | isLast
      · exact ⟨listed.raw kid isIndex, listed.quiet kid isIndex⟩
      · rw [List.mem_singleton.mp isLast]
        exact ⟨opens.raw place value isValue.found isNew,
          opens.quiet place value isValue.found isNew⟩
  · intro later after list sameId sameTag isFront isLast isList length items opensLater
    have sameTop : after.id = branch.id := sameId
    have isAssign : after.node.tag = .assign := sameTag.trans isTag
    rw [← sameTop] at indexes ⊢
    refine accessor_yields visits opensLater (isAssign ▸ Tag.Hooks.set) isFront isLast isList
      (fun kid member => (items kid member).1) (fun kid member => (items kid member).2)
      ?_ indexes _ _ _
    rw [length, List.length_append, List.length_singleton, listed.length]

theorem isDynamicRead_yields (stands : old.tree.Stands branch) (holds : old.tree.Holds target) :
    (isDynamicRead target.id).Yields calm old branch fun found new after =>
      new = old ∧ after = branch ∧
        (found = true → ∃ hint typeArgs,
          target.node.binding = .invoke hint (.member RuntimeMember.fieldGetter) typeArgs) := by
  refine .bindRead stands ?_
  rw [holds.binding_eq]
  split
  · rename_i hint member typeArgs bound
    refine .pure stands ⟨rfl, rfl, fun found => ⟨hint, typeArgs, ?_⟩⟩
    rw [bound, beq_iff_eq.mp found]
  · exact .pure stands ⟨rfl, rfl, fun none => by simp at none⟩

theorem storeChecked_yields {ty : Ty} (visits : Visits premise visit)
    (isOpen : Open premise calm first (Unseen [.left]) old branch)
    (isTag : branch.node.tag = .assign) (unbound : branch.node.binding = .unbound)
    (clear : premise.tidy → branch.first? .expr = none) (isTarget : branch.Kid .left index target)
    (typed : target.node.ty = some ty) :
    (storeChecked visit branch.id target.id ty).Yields calm old branch (Ruled premise first) := by
  refine .bindSame (isDynamicRead_yields isOpen.stands (isOpen.stands.kid isTarget.mem).holds) ?_
  intro isDynamic called
  split
  · rename_i isTrue
    obtain ⟨hint, typeArgs, isGetter⟩ := called isTrue
    exact storeDynamic_yields visits isOpen isTag isTarget isGetter
  · refine (enforce_yields visits isOpen (by decide) ty).bind ?_
    rintro _ last _ _ ⟨place, value, newValue, _, isValue, label, suits, rfl, opensLast⟩
    have isTargetLast := isTarget.setKid_other isValue.found label
      (isValue.ne isTarget (by decide))
    refine (bindStore_yields opensLast isTag unbound isTargetLast typed
      (isValue.setKid_self label) suits fun tidy => ?_).bind ?_
    · rw [Branch.first?_setKid_other isValue label (by decide), clear tidy]
    · exact fun _ final after _ assigned => .pure assigned.isOpen.stands assigned.close

/-- What is left of an assignment once an unknown name was declared. -/
theorem store_yields (visits : Visits premise visit)
    (isOpen : Open premise calm first (Unseen []) old branch) (isTag : branch.node.tag = .assign)
    (unbound : branch.node.binding = .unbound) (clear : premise.tidy → branch.first? .expr = none)
    (isTarget : branch.Kid .left index target)
    (indexes : target.node.tag = .indexer →
      premise.Indexes branch.id target.stored.argumentCount) :
    (store visit branch.id target.id).Yields calm old branch (Ruled premise first) := by
  refine .bindRead isOpen.stands ?_
  rw [(isOpen.stands.kid isTarget.mem).holds.tag_eq]
  split
  · rename_i isIndexer
    exact storeIndexed_yields visits isOpen isTag isTarget isIndexer (indexes isIndexer)
  · refine .bindVisitKid visits isOpen isTarget (by decide) ?_
    intro ty later newTarget becomes typed opensLater
    rw [← becomes.turns.id]
    refine storeChecked_yields visits opensLater isTag unbound (fun tidy => ?_)
      (isTarget.setKid_self becomes.turns.label) typed
    rw [Branch.first?_setKid_other isTarget becomes.turns.label (by decide), clear tidy]

theorem assign_yields (visits : Visits premise visit)
    (isOpen : Open premise calm first (Unseen []) old branch) (isTag : branch.node.tag = .assign)
    (unbound : branch.node.binding = .unbound) (clear : premise.tidy → branch.first? .expr = none)
    (loud : ∀ mode, calm.still mode → (mode.shell && !mode.inside) = false)
    (named : ∀ place name, (place.mode.shell && !place.mode.inside) = true →
      calm.spares place name → branch.stored.targetName? ≠ some name)
    (aims : branch.Aims premise) :
    (assign visit branch.id).Yields calm old branch (Ruled premise first) := by
  rw [assign_eq]
  refine .bindRequired isOpen.stands ?_
  intro index target isTarget
  have holds := (isOpen.stands.kid isTarget.mem).holds
  refine (declareImplicit_yields isOpen loud fun isImplicit isName spared => ?_).bind ?_
  · refine named _ _ isImplicit spared ?_
    rw [holds.tag_eq] at isName
    rw [Branch.targetName?_stored isTarget, if_pos isName, holds.text_eq]
  rintro _ new _ _ ⟨rfl, opens⟩
  exact store_yields visits opens isTag unbound clear isTarget (aims target isTarget.first?)

/-- A compound assignment is an assignment of a value that was not checked yet, whatever is done with
that. -/
theorem desugared {place : Nat} {right : Branch}
    (isOpen : Open premise calm first (Unseen []) old branch)
    (unbound : branch.node.binding = .unbound) (isTarget : branch.Kid .left index target)
    (isRight : branch.Kid .right place right) (op : CompoundOp) :
    ∃ tree after, (∀ rest : NodeId → Check Ty, (do
        let copy ← build (·.dup target.id)
        let value ← build (·.labelled (.binary op.val) [(.left, copy), (.right, right.id)])
        modifyTree fun tree => (tree.setChild branch.id .right value).setTag branch.id .assign
        rest branch.id).run.run old = (rest after.id).run.run { old with tree := tree }) ∧
      Becomes calm old branch { old with tree := tree } after ∧
      Open premise calm first (Unseen []) { old with tree := tree } after ∧
      after.node.tag = .assign ∧ after.node.binding = .unbound ∧ after.Kid .left index target ∧
      after.first? .expr = branch.first? .expr := by
  have targetUnseen := @unseen_kid _ _ _ _ [] isTarget (by decide)
  have rightUnseen := @unseen_kid _ _ _ _ [] isRight (by decide)
  have rawTarget := isOpen.raw index target isTarget.found targetUnseen
  obtain ⟨copy, builds⟩ := Tree.dup_builds (isOpen.stands.kid isTarget.mem)
  have rawCopy : Raw premise copy := ⟨builds.blank, by rw [builds.stored]; exact rawTarget.allows,
    builds.packed.placedLater fun position inside =>
      Nat.le_trans isOpen.later (builds.fresh position inside)⟩
  obtain ⟨later, span, turns⟩ := isOpen.stands.combine isRight builds (.binary op.val)
  have isNew := Nat.le_trans isOpen.later later
  let retag (node : Node) : Node := { node with tag := .assign }
  have retagged := @Tree.Turns.alter _ _ turns.stands retag rfl rfl
  have rawRight := isOpen.raw place right isRight.found rightUnseen
  -- No statement failed yet below the target, its copy or the value, so no notes come or go.
  have silent : ∀ id, premise.loaded.nodes.size ≤ id →
      (branch.setKid place (copy.combined right (.binary op.val) id span)).notes = branch.notes :=
    fun id isNew => Branch.notes_setKid_same isRight.found
      ((rawCopy.combined rawRight op.val isNew).blank.notes_eq.trans rawRight.blank.notes_eq.symm)
  have sameTop : ∀ id, (retag (branch.setKid place
      (copy.combined right (.binary op.val) id span)).node).notes =
        (branch.setKid place (copy.combined right (.binary op.val) id span)).node.notes := fun _ =>
    (Node.notes_other (by simp [retag])).trans (Node.notes_other isOpen.inside.sound).symm
  have becomes : Becomes calm old branch _ _ :=
    .ofTree (turns.trans retagged) ((Branch.notes_alter (sameTop _)).trans (silent _ isNew))
  have kids : ∀ id, premise.loaded.nodes.size ≤ id →
      ∀ kid ∈ branch.kids.set place (copy.combined right (.binary op.val) id span),
        Raw premise kid ∧ calm.Implies kid.stored.calm := by
    intro id isNew kid member
    rcases List.mem_or_eq_of_mem_set member with isOld | rfl
    · obtain ⟨spot, found⟩ := List.mem_iff_getElem?.mp isOld
      exact ⟨isOpen.raw spot kid found (fun _ none => absurd none List.not_mem_nil),
        isOpen.quiet spot kid found (fun _ none => absurd none List.not_mem_nil)⟩
    · have quietTarget := isOpen.quiet index target isTarget.found targetUnseen
      rw [← builds.stored] at quietTarget
      exact ⟨rawCopy.combined rawRight op.val isNew,
        Branch.calm_combined quietTarget (isOpen.quiet place right isRight.found rightUnseen) op.val⟩
  have sameLabel : ∀ id, (copy.combined right (.binary op.val) id span).label = right.label :=
    fun _ => rfl
  have opens : Open premise calm first (Unseen []) _ _ := ⟨becomes.stands,
    Nat.le_trans isOpen.later becomes.turns.size, isOpen.leads,
    .ofUnbound (by simp [retag]) (by simp [retag]) unbound,
    fun _ kid found _ => (kids _ isNew kid (List.mem_of_getElem? found)).1,
    fun _ kid found _ => (kids _ isNew kid (List.mem_of_getElem? found)).2,
    fun kid member => (kids _ isNew kid member).1.settled⟩
  refine ⟨_, _, ?_, becomes, opens, rfl, unbound, ?_, ?_⟩
  · exact fun _ => rfl
  · have kept := fun id => isTarget.setKid_other isRight.found (sameLabel id)
      (isRight.ne isTarget (by decide))
    exact ⟨(kept _).first, (kept _).found⟩
  · exact Branch.first?_setKid_other isRight (sameLabel _) (by decide)

theorem compoundAssign_yields (visits : Visits premise visit)
    (isOpen : Open premise calm first (Unseen []) old branch)
    (unbound : branch.node.binding = .unbound) (clear : premise.tidy → branch.first? .expr = none)
    (loud : ∀ mode, calm.still mode → (mode.shell && !mode.inside) = false)
    (named : ∀ place name, (place.mode.shell && !place.mode.inside) = true →
      calm.spares place name → branch.stored.targetName? ≠ some name)
    (aims : branch.Aims premise) (op : CompoundOp) :
    (compoundAssign visit op branch.id).Yields calm old branch (Ruled premise first) := by
  refine .bindRequired isOpen.stands ?_
  intro index target isTarget
  refine .bindRequired isOpen.stands ?_
  intro place right isRight
  obtain ⟨tree, after, run, becomes, opens, isTag, stillUnbound, isTargetLater, same⟩ :=
    desugared isOpen unbound isTarget isRight op
  refine .ofRest (run (assign visit)) becomes
    (assign_yields visits opens isTag stillUnbound ?_ loud ?_ ?_)
  · exact fun tidy => same.trans (clear tidy)
  · rw [Branch.targetName?_stored isTargetLater, ← Branch.targetName?_stored isTarget]
    exact named
  · exact aims.congr becomes.turns.id (isTargetLater.first?.trans isTarget.first?.symm)

end Rule

end ScriptTyping
