import ScriptTyping.Proofs.Outcome.Declarations
import ScriptTyping.Proofs.Outcome.Runs

/-!
Assignments to what is no place. Nothing rejects them: they end as the checking of their two sides
does, and stay assignments that no place is bound to.
-/

namespace ScriptTyping

def Tag.isPlace : Tag → Bool
  | name => true
  | field => true
  | indexer => true
  | _ => false

theorem Tag.Leads.isPlace {first second : Tag} (leads : first.Leads second)
    (isPlace : second.isPlace = true) : first.isPlace = true := by
  rcases leads with rfl | given
  · exact isPlace
  · cases second <;> simp [isGiven, Tag.isPlace] at given isPlace

theorem Settled.isPlace {premise : Premise} {first : Environment} {last : Moment}
    {returnType : Option Ty} {branch : Branch} {place : FieldTarget}
    (settled : Settled premise first last returnType branch)
    (bound : branch.node.binding = .field .get place) : branch.node.tag.isPlace = true := by
  cases settled with
  | idle idle _ => simp [idle.unbound] at bound
  | checked _ _ _ applies _ _ =>
      rcases applies.reads place bound with isTag | isTag <;> rw [isTag] <;> rfl

namespace Check

variable {α β : Type} {full part : Check β} {step : Check α} {state : CheckState}
  {leaves : β → Tree → Prop} {result : β}

/-- Whether a step ends as another one does, but for the tree that it leaves when it succeeds, and
for what is noted after that. -/
def EndsAs (full part : Check β) (state : CheckState) (leaves : β → Tree → Prop) : Prop :=
  match part.run.run state with
  | .error fault => full.run.run state = .error fault
  | .ok (.error failure, new) => full.run.run state = .ok (.error failure, new)
  | .ok (.ok result, new) => ∃ tree log, new.log.Leads log ∧
      full.run.run state = .ok (.ok result, { new with tree, log }) ∧ leaves result tree

theorem EndsAs.ok {new : CheckState} (ends : full.EndsAs part state leaves)
    (ran : part.run.run state = .ok (.ok result, new)) : ∃ tree log, new.log.Leads log ∧
      full.run.run state = .ok (.ok result, { new with tree, log }) ∧ leaves result tree := by
  unfold EndsAs at ends
  rw [ran] at ends
  exact ends

theorem EndsAs.congr {whole piece : Check β} {start : CheckState}
    (ends : full.EndsAs part state leaves) (fulls : whole.run.run start = full.run.run state)
    (parts : piece.run.run start = part.run.run state) : whole.EndsAs piece start leaves := by
  unfold EndsAs at *
  rw [fulls, parts]
  exact ends

theorem EndsAs.pure {tree : Tree}
    (ran : full.run.run state = .ok (.ok result, { state with tree := tree }))
    (left : leaves result tree) : full.EndsAs (Pure.pure result) state leaves :=
  ⟨tree, state.log, .refl _, ran, left⟩

theorem EndsAs.bind {more less : α → Check β}
    (rest : ∀ middle later, step.run.run state = .ok (.ok middle, later) →
      (more middle).EndsAs (less middle) later leaves) :
    (step >>= more).EndsAs (step >>= less) state leaves := by
  unfold EndsAs
  rw [run_bind, run_bind]
  cases ran : step.run.run state with
  | error fault => rfl
  | ok answer =>
      obtain ⟨middle, later⟩ := answer
      cases middle with
      | error failure => rfl
      | ok middle => exact rest middle later ran

end Check

namespace Rule

open Check

/-- Checks the two sides of an assignment, the value against the type of the target. Any value may
be stored into a field of a dynamic value, which is no value itself. -/
def sides (visit : Visit) (id target : NodeId) : Check Ty := do
  let ty ← visit target
  if ← isDynamicRead target then
    let _ ← enforce visit id .right .object
    return .void
  else
    let _ ← enforce visit id .right ty
    return ty

def storedValue (visit : Visit) (id target : NodeId) (ty : Ty) : Check Ty := do
  if ← isDynamicRead target then
    let _ ← enforce visit id .right .object
    return .void
  else
    let _ ← enforce visit id .right ty
    return ty

def sidesOf (visit : Visit) (id target : NodeId) : Tag → Check Ty
  | .compound op => do
    let right ← required id .right
    let copy ← build (·.dup target)
    let value ← build (·.labelled (.binary op.val) [(.left, copy), (.right, right)])
    modifyTree fun tree => (tree.setChild id .right value).setTag id .assign
    sides visit id target
  | _ => sides visit id target

end Rule

namespace Tree

structure Displaced (tree : Tree) (id : NodeId) : Prop where
  bound : id < tree.nodes.size
  tag : tree.tag id = .assign
  binding : tree.binding id = .unbound ∨ tree.binding id = .static RuntimeMember.fieldSetter

theorem displaced_modify {tree : Tree} {id : NodeId} {change : Node → Node}
    (bound : id < tree.nodes.size) (tag : (change (tree.get id)).tag = .assign)
    (binding : (change (tree.get id)).binding = .unbound ∨
      (change (tree.get id)).binding = .static RuntimeMember.fieldSetter) :
    (tree.modify id change).Displaced id := by
  rw [← tree.get_modify_self change bound] at tag binding
  exact ⟨(tree.size_modify id change).symm ▸ bound, tag, binding⟩

end Tree

namespace Rule

open Check

variable {state later : CheckState} {branch target : Branch} {id node : NodeId} {index : Nat}

theorem run_declareImplicit_of_ne (unnamed : state.tree.tag node ≠ .name) :
    (declareImplicit node).run.run state = .ok (.ok (), state) := by
  rw [run_declareImplicit_eq, decide_eq_false unnamed, Bool.and_false]
  rfl

theorem run_bindStore (unread : ∀ place, state.tree.binding node ≠ .field .get place) :
    (bindStore id node).run.run state = .ok (.ok (), state) := by
  have reads : (bindingOf node).run.run state = .ok (.ok (state.tree.binding node), state) := rfl
  rw [bindStore, run_bind, reads]
  dsimp only
  split
  · rename_i place isRead
    exact absurd isRead (unread place)
  · rfl

section Assign

variable {premise : Premise} {calm : Calm} {first : Environment} (depth : Nat) {ty : Ty}

/-- Bringing the value to a type leaves the assignment and its checked target as they are. -/
theorem enforce_keeps (isOpen : Open premise calm first (Unseen [.left]) state branch)
    (isTarget : branch.Kid .left index target) {value : NodeId}
    (ran : (enforce (ScriptTyping.visit depth) branch.id .right ty).run.run state =
      .ok (.ok value, later)) :
    branch.id < later.tree.nodes.size ∧ later.tree.tag branch.id = branch.node.tag ∧
      later.tree.binding branch.id = branch.node.binding ∧
      later.tree.binding target.id = target.node.binding := by
  obtain ⟨_, becomes, place, old, new, _, enforced⟩ :=
    (enforce_yields (visit_yields depth) isOpen (by decide) ty).ok ran
  have stands := becomes.stands
  rw [enforced.changed] at stands
  have isTargetLater := isTarget.setKid_other enforced.isKid.found enforced.labels
    (enforced.isKid.ne isTarget (by decide))
  exact ⟨stands.holds.bound, stands.holds.tag_eq, stands.holds.binding_eq,
    (stands.kid isTargetLater.mem).holds.binding_eq⟩

/-- Once its target is checked, an assignment to what is no place has nothing left to do but to
bring its value to a type: the target reads no place. -/
theorem store_endsAs (ty : Ty) (isOpen : Open premise calm first (Unseen [.left]) state branch)
    (isTag : branch.node.tag = .assign) (unbound : branch.node.binding = .unbound)
    (isTarget : branch.Kid .left index target) (noPlace : target.node.tag.isPlace = false) :
    (storeChecked (ScriptTyping.visit depth) branch.id target.id ty).EndsAs
      (storedValue (ScriptTyping.visit depth) branch.id target.id ty)
      state fun _ tree => tree.Displaced branch.id := by
  refine .bind fun isDynamic reached reads => ?_
  obtain ⟨_, _, rfl, _, _⟩ := (@isDynamicRead_yields calm state branch target isOpen.stands
    (isOpen.stands.kid isTarget.mem).holds).ok reads
  cases isDynamic with
  | true =>
      -- A written call of the getter is no field, and yet the value goes to the setter.
      have parts : (childIds target.id).run.run reached =
        .ok (.ok (reached.tree.childIds target.id), reached) := rfl
      rw [if_pos rfl, if_pos rfl, storeDynamic_eq]
      refine .congr (.bind fun value later ran => ?_) (by rw [run_bind, parts]) rfl
      obtain ⟨bound, tag, _, _⟩ := enforce_keeps depth isOpen isTarget ran
      let items := reached.tree.childIds target.id ++ [value]
      let tree := (later.tree.flatten branch.id items).setBinding branch.id
        (.static RuntimeMember.fieldSetter)
      have displaced : tree.Displaced branch.id := by
        change (Tree.setBinding _ _ _).Displaced _
        rw [Tree.setBinding, Tree.flatten, Tree.modify_modify]
        exact Tree.displaced_modify bound (tag.trans isTag) (.inr rfl)
      have stores : (spliceStore branch.id (reached.tree.childIds target.id) value).run.run later =
          .ok (.ok .void, { later with tree := tree }) := rfl
      exact .pure stores displaced
  | false =>
      rw [if_neg (by decide), if_neg (by decide)]
      refine .bind fun value later ran => ?_
      obtain ⟨bound, tag, binding, same⟩ := enforce_keeps depth isOpen isTarget ran
      -- Only names and fields are bound to reads, so the store finds nothing to bind.
      have unread : ∀ place, later.tree.binding target.id ≠ .field .get place := by
        intro place isRead
        rw [same] at isRead
        rw [(isOpen.settled target isTarget.mem).isPlace isRead] at noPlace
        cases noPlace
      have stores : (bindStore branch.id target.id >>= fun _ => return ty : Check Ty).run.run later =
          .ok (.ok ty, later) := by
        rw [run_bind, run_bindStore unread]
        rfl
      exact .pure stores ⟨bound, tag.trans isTag, .inl (binding.trans unbound)⟩

/-- An assignment to what is no place comes down to the checking of its sides. -/
theorem assign_endsAs (isOpen : Open premise calm first (Unseen []) state branch)
    (isTag : branch.node.tag = .assign) (unbound : branch.node.binding = .unbound)
    (isTarget : branch.Kid .left index target) (noPlace : target.node.tag.isPlace = false) :
    (assign (ScriptTyping.visit depth) branch.id).EndsAs
      (sides (ScriptTyping.visit depth) branch.id target.id) state
      fun _ tree => tree.Displaced branch.id := by
  have standsTarget := isOpen.stands.kid isTarget.mem
  have other : ∀ tag : Tag, tag.isPlace = true → state.tree.tag target.id ≠ tag := by
    rintro tag isPlace rfl
    rw [standsTarget.holds.tag_eq, noPlace] at isPlace
    cases isPlace
  have tag : (tagOf target.id).run.run state = .ok (.ok (state.tree.tag target.id), state) := rfl
  have reduces : (assign (ScriptTyping.visit depth) branch.id).run.run state = (do
      let ty ← ScriptTyping.visit depth target.id
      storeChecked (ScriptTyping.visit depth) branch.id target.id ty).run.run state := by
    rw [assign_eq, run_bind, run_required isOpen.stands isTarget]
    dsimp only
    rw [run_bind, run_declareImplicit_of_ne (other .name rfl)]
    dsimp only
    rw [store, run_bind, tag]
    dsimp only
    rw [if_neg (other .indexer rfl)]
  refine .congr (.bind fun ty later ran => ?_) reduces rfl
  obtain ⟨_, _, newTarget, becomes, _, _, rfl, opens⟩ :=
    (child_yields (visit_yields depth) isOpen isTarget.found (unseen_kid isTarget (by decide))
      (fun _ _ => unseen_cons) (not_unseen_cons isTarget)).ok ran
  have isTargetLater := isTarget.setKid_self becomes.turns.label
  -- Checking does not make a place of another node.
  have kinds := visit_kinds ran standsTarget.holds.bound
  rw [standsTarget.holds.tag_eq, ← becomes.turns.id,
    (opens.stands.kid isTargetLater.mem).holds.tag_eq] at kinds
  have noPlaceLater : newTarget.node.tag.isPlace = false :=
    Bool.eq_false_iff.mpr fun isPlace => by simp [kinds.isPlace isPlace] at noPlace
  rw [← becomes.turns.id]
  have stores := store_endsAs depth ty opens isTag unbound isTargetLater noPlaceLater
  exact stores

theorem compoundAssign_endsAs (isOpen : Open premise calm first (Unseen []) state branch)
    (unbound : branch.node.binding = .unbound) (isTarget : branch.Kid .left index target)
    (noPlace : target.node.tag.isPlace = false) (op : CompoundOp) :
    (compoundAssign (ScriptTyping.visit depth) op branch.id).EndsAs
      (sidesOf (ScriptTyping.visit depth) branch.id target.id (.compound op)) state
      fun _ tree => tree.Displaced branch.id := by
  refine .congr (.bind fun right later ran => ?_)
    (by rw [compoundAssign, run_bind, run_required isOpen.stands isTarget]) rfl
  obtain ⟨_, _, rfl, _, place, kid, isRight, rfl⟩ :=
    (@required_yields calm state branch .right branch isOpen.stands isOpen.stands.holds).ok ran
  obtain ⟨tree, after, run, becomes, opens, isTag, stillUnbound, isTargetLater, _⟩ :=
    desugared isOpen unbound isTarget isRight op
  have ends := assign_endsAs depth opens isTag stillUnbound isTargetLater noPlace
  rw [becomes.turns.id] at ends run
  exact ends.congr (run (assign (ScriptTyping.visit depth)))
    (run fun id => sides (ScriptTyping.visit depth) id target.id)

end Assign

end Rule

/-- A visit ends as a step if its rule does. -/
theorem visit_endsAs {state : CheckState} {id : NodeId} {depth : Nat} {part : Check Ty}
    {leaves wanted : Ty → Tree → Prop} (undone : (state.tree.get id).done = false)
    (ends : (Rule.ofTag (visit depth) id (state.tree.tag id)).EndsAs part state leaves)
    (stamps : ∀ ty tree, leaves ty tree → wanted ty (tree.setType id ty)) :
    (visit (depth + 1) id).EndsAs part state wanted := by
  unfold Check.EndsAs at *
  rw [Rule.run_visit undone]
  split at ends
  · rw [ends]
  · rw [ends]
  · obtain ⟨tree, log, leads, ran, left⟩ := ends
    rw [ran]
    exact ⟨_, _, leads.trans (.note log _), rfl, stamps _ _ left⟩

/-- An assignment or compound assignment to what is no place is never rejected for that. It ends as
the checking of its two sides does, and where they are accepted it stays an assignment with their
type, to which no place is bound. -/
theorem visit_misplaced {state : CheckState} {branch : Branch} {target : NodeId} {depth : Nat}
    (stands : state.tree.Stands branch) (raw : Raw .nothing branch)
    (isAssign : state.tree.tag branch.id = .assign ∨
      ∃ op, state.tree.tag branch.id = .compound op)
    (isTarget : state.tree.child? branch.id .left = some target)
    (noPlace : (state.tree.tag target).isPlace = false) :
    (visit (depth + 1) branch.id).EndsAs
      (Rule.sidesOf (visit depth) branch.id target (state.tree.tag branch.id)) state
      fun ty tree => tree.ty? branch.id = some ty ∧ tree.Displaced branch.id := by
  have undone : (state.tree.get branch.id).done = false := by
    rw [stands.holds.get_eq]
    exact raw.blank.done_eq
  rw [stands.holds.tag_eq] at isAssign
  rw [stands.holds.child?_eq, Option.map_eq_some_iff] at isTarget
  obtain ⟨kid, isTarget, rfl⟩ := isTarget
  obtain ⟨index, isTarget⟩ := Branch.first?_eq_some_iff.mp isTarget
  rw [(stands.kid isTarget.mem).holds.tag_eq] at noPlace
  have other : ∀ tag : Tag, tag ≠ .assign → (∀ op, tag ≠ .compound op) → branch.node.tag ≠ tag := by
    rintro _ notAssign notCompound rfl
    rcases isAssign with isTag | ⟨op, isTag⟩
    · exact notAssign isTag
    · exact notCompound op isTag
  have opened := other .funcDecl nofun nofun
  have isOpen : Open .nothing branch.stored.calm state.environment (Unseen []) state branch :=
    .start stands (Nat.zero_le _) raw opened (other .error nofun nofun) fun _ _ found _ =>
      Branch.calm_kid opened (.inl (other .forEach nofun nofun)) (List.mem_of_getElem? found)
  have unbound := raw.blank.binding_eq
  have ends : (Rule.ofTag (visit depth) branch.id (state.tree.tag branch.id)).EndsAs
      (Rule.sidesOf (visit depth) branch.id kid.id (state.tree.tag branch.id)) state
      fun _ tree => tree.Displaced branch.id := by
    rw [stands.holds.tag_eq]
    rcases isAssign with isTag | ⟨op, isTag⟩
    · rw [isTag]
      exact Rule.assign_endsAs depth isOpen isTag unbound isTarget noPlace
    · rw [isTag]
      exact Rule.compoundAssign_endsAs depth isOpen unbound isTarget noPlace op
  refine visit_endsAs undone ends fun ty tree displaced => ⟨?_, ?_⟩
  · rw [Tree.ty?, Tree.setType, Tree.get_modify_self _ _ displaced.bound]
  · exact Tree.displaced_modify displaced.bound displaced.tag displaced.binding

/-- A number that is assigned to another one. -/
def StoredNode.numbered : StoredNode :=
  mk none .assign none .nowhere [
    mk (some .left) .integer (some "1") .nowhere [],
    mk (some .right) .integer (some "2") .nowhere []]

/-- The assignment is accepted with the type of the numbers. -/
theorem visit_misplaced_numbers :
    let state : CheckState := { tree := .ofStored none .numbered, environment := .ofOptions {} }
    ∃ ty new, (visit 2 0).run.run state = .ok (.ok ty, new) ∧ (ty == .int) = true ∧
      new.errors.isEmpty = true ∧ new.tree.ty? 0 = some ty ∧ new.tree.Displaced 0 := by
  intro state
  obtain ⟨_, branch, isRoot, stands, _, raw⟩ := @Tree.ofStored_raw .nothing .numbered none
    (fun node _ => Premise.allows_nothing node) (.inl rfl)
  have isTop : branch.id = 0 := (Option.some.inj isRoot).symm
  have ends := @visit_misplaced state branch 1 1 stands raw (by rw [isTop]; exact .inl rfl)
    (by rw [isTop]; rfl) rfl
  rw [isTop] at ends
  have checks : (Rule.sidesOf (visit 1) 0 1 (state.tree.tag 0)).passes state
      (fun ty new => ty == .int && new.errors.isEmpty) = true := by decide
  obtain ⟨ty, checked, ran, passes⟩ := Check.exists_run checks
  obtain ⟨isInt, silent⟩ := Bool.and_eq_true_iff.mp passes
  obtain ⟨tree, log, _, ran, typed, displaced⟩ := ends.ok ran
  exact ⟨ty, _, ran, isInt, silent, typed, displaced⟩

end ScriptTyping
