import ScriptTyping.Proofs.Environment.Coercion
import ScriptTyping.Proofs.Outcome.Runs

/-!
A written cast takes whatever flows into its type without one. It looks for conversions first and
asks for assignability in both directions, where a flow asks in one direction only and converts
last.
-/

namespace ScriptTyping

/-! ### Types -/

theorem castMember?_of_implicitCast? {source target : Ty}
    (converts : (implicitCast? source target).isSome = true) :
    (castMember? source target).isSome = true := by
  obtain ⟨member, converts⟩ := Option.isSome_iff_exists.mp converts
  obtain ⟨entry, isEntry, _⟩ := Option.map_eq_some_iff.mp converts
  obtain ⟨found, isWidening⟩ := Option.filter_eq_some_iff.mp isEntry
  rw [castMember?, found, Option.filter_some]
  rw [beq_iff_eq] at isWidening
  simp [isWidening]

namespace Environment

variable {environment : Environment} {tree : Tree} {node : NodeId} {found target : Ty}

def Casts (environment : Environment) (found target : Ty) : Prop :=
  ((castMember? found target).or (convertMember? found target)).isSome = true ∨
    environment.isAssignable target found = true ∨
      (environment.isAssignable found target || found.isDynamic) = true

theorem casts_of_canCoerce (coerces : environment.canCoerce found target = true) :
    environment.Casts found target := by
  rcases canCoerce_iff.mp coerces with assignable | ⟨rfl, _⟩ | converts
  · exact .inr (.inl assignable)
  · refine .inr (.inr ?_)
    rw [Ty.isDynamic, Bool.or_true]
  · refine .inl ?_
    rw [Option.isSome_or, castMember?_of_implicitCast? (implicitCast?_isSome_iff.mpr converts),
      Bool.true_or]

theorem casts_object (isReference : target.isReference = true) :
    environment.Casts .object target := by
  refine .inr (.inr ?_)
  cases target with
  | prim | void | never | var => cases isReference
  | _ => simp [isAssignable]

theorem casts_of_enforce (typed : tree.ty? node = some found)
    (null : tree.tag node = .nullValue → found = .object)
    (accepted : ∃ result, (environment.enforce tree node target).1 = .ok result) :
    environment.Casts found target := by
  rcases (environment.enforce_accepts_iff typed target).mp accepted with
    coerces | ⟨isNull, isReference⟩
  · exact casts_of_canCoerce coerces
  · rw [null isNull]
    exact casts_object isReference

end Environment

/-! ### Runs -/

section Run

variable {state later : CheckState} {id typeNode inner : NodeId} {index : Nat} {found target : Ty}

theorem Rule.run_cast {visit : Visit} (isType : state.tree.child? id .type = some typeNode)
    (different : id ≠ typeNode) (isIndex : (state.tree.get id).indexOf? .expr = some index)
    (isExpr : state.tree.childAt? id index = some inner)
    (denotes : state.environment.resolveType (state.tree.text typeNode) = .ok target)
    (visits : (visit inner).run.run { state with tree := state.tree.setType typeNode target } =
      .ok (.ok found, later))
    (casts : later.environment.Casts found target) :
    ∃ tree, (Rule.cast visit id).run.run state = .ok (.ok target, { later with tree := tree }) := by
  have top : (state.tree.setType typeNode target).get id = state.tree.get id :=
    state.tree.get_modify_other _ different
  have slot : (Check.requiredSlot id .expr).run.run
      { state with tree := state.tree.setType typeNode target } = _ :=
    Check.run_requiredSlot_of_indexOf? (by rw [top]; exact isIndex)
  have holds : (Check.occupant ⟨id, index⟩).run.run
      { state with tree := state.tree.setType typeNode target } = _ :=
    Check.run_occupant (show (state.tree.setType typeNode target).childAt? id index = some inner by
      rw [Tree.childAt?, top]; exact isExpr)
  rw [cast, Check.run_bind, Check.run_required_of_child? isType]
  dsimp only
  rw [Check.run_bind, Check.run_annotation denotes]
  dsimp only
  rw [Check.run_bind, slot]
  dsimp only
  rw [Check.run_bind, holds]
  dsimp only
  rw [Check.run_bind, visits]
  dsimp only
  rw [Check.run_bind, Check.run_environment]
  dsimp only
  split
  · exact ⟨_, rfl⟩
  · rename_i unconverted
    split
    · exact ⟨_, rfl⟩
    · rename_i unassignable
      split
      · exact ⟨_, rfl⟩
      · rename_i unrelated
        rcases casts with converted | assignable | related
        · rw [unconverted] at converted
          cases converted
        · exact absurd assignable unassignable
        · exact absurd related unrelated

/-- A visit does not notice what is changed at a node that is not below the visited one. -/
theorem visit_beside {checked : CheckState} {depth : Nat} {other : NodeId}
    (ran : (visit depth inner).run.run state = .ok (.ok found, checked))
    (bound : other < state.tree.nodes.size) (apart : ¬ state.tree.Reaches inner other)
    (change : Node → Node) :
    ∃ later, (visit depth inner).run.run { state with tree := state.tree.modify other change } =
        .ok (.ok found, later) ∧
      later.environment = checked.environment ∧ later.errors = checked.errors ∧
      later.warnings = checked.warnings := by
  let realm := Realm.below state.tree [inner] (fun _ => True) trivial
  have joins : realm.Joins state.tree state.tree := Realm.below_joins fun _ _ _ _ => trivial
  have inside : realm.inside inner := .inr ⟨inner, List.mem_singleton_self inner, .refl inner⟩
  have outside : ¬ realm.inside other := by
    rintro (beyond | ⟨top, isTop, reaches⟩)
    · exact Nat.not_lt.mpr beyond bound
    · exact apart (List.mem_singleton.mp isTop ▸ reaches)
  have pairs : realm.Pairs state { state with tree := state.tree.modify other change } :=
    ⟨joins.closed.modify_outside outside change, rfl, rfl⟩
  have runs := (visit_agrees (Nat.le_refl depth) inside).ends _ _ pairs
  rw [ran] at runs
  generalize (visit depth inner).run.run _ = ends at runs
  cases runs with
  | @gives _ _ later _ advances =>
      obtain ⟨_, errors, errorsToo⟩ := advances.errors
      obtain ⟨_, warnings, warningsToo⟩ := advances.warnings
      exact ⟨later, rfl, advances.environment, errorsToo.trans errors.symm,
        warningsToo.trans warnings.symm⟩

/-- Where an expression is checked and can be brought to a type, a written cast of it to that type
is checked as well. It has the type, and it reports nothing that the expression does not. -/
theorem visit_cast {checked : CheckState} {depth : Nat} (treelike : state.tree.Treelike id)
    (isCast : state.tree.tag id = .cast) (undone : (state.tree.get id).done = false)
    (isType : state.tree.child? id .type = some typeNode)
    (isExpr : state.tree.child? id .expr = some inner) (isSealed : state.tree.Sealed inner)
    (denotes : state.environment.resolveType (state.tree.text typeNode) = .ok target)
    (checks : (visit depth inner).run.run state = .ok (.ok found, checked))
    (accepted : ∃ result, (checked.environment.enforce checked.tree inner target).1 = .ok result) :
    ∃ new, (visit (depth + 1) id).run.run state = .ok (.ok target, new) ∧
      new.tree.ty? id = some target ∧ new.environment = checked.environment ∧
      new.errors = checked.errors ∧ new.warnings = checked.warnings := by
  obtain ⟨branch, rfl, stands⟩ := Tree.treelike_iff.mp treelike
  rw [stands.holds.child?_eq, Option.map_eq_some_iff] at isType isExpr
  obtain ⟨typeKid, isType, rfl⟩ := isType
  obtain ⟨exprKid, isExpr, rfl⟩ := isExpr
  obtain ⟨place, isType⟩ := Branch.first?_eq_some_iff.mp isType
  obtain ⟨index, isExpr⟩ := Branch.first?_eq_some_iff.mp isExpr
  have standsType := stands.kid isType.mem
  have standsExpr := stands.kid isExpr.mem
  have apart : ¬ state.tree.Reaches exprKid.id typeKid.id := by
    intro reaches
    exact stands.disjoint isExpr.found isType.found (isExpr.ne isType nofun)
      (reaches.mem_ids standsExpr.holds) typeKid.id_mem_ids
  have different : branch.id ≠ typeKid.id := by
    intro same
    exact stands.id_notMem isType.mem (same ▸ typeKid.id_mem_ids)
  obtain ⟨typed, null⟩ := visit_typed checks standsExpr.holds.bound isSealed
  have casts := Environment.casts_of_enforce typed null accepted
  obtain ⟨later, visits, environment, errors, warnings⟩ :=
    visit_beside checks standsType.holds.bound apart fun node => { node with ty := some target }
  rw [← environment] at casts
  obtain ⟨tree, runs⟩ := Rule.run_cast
    (by rw [stands.holds.child?_eq, isType.first?]; rfl) different
    (by rw [stands.holds.indexOf?_eq]; exact isExpr.first)
    (by rw [stands.holds.childAt?_eq, isExpr.found]; rfl) denotes visits casts
  have whole : (visit (depth + 1) branch.id).run.run state =
      .ok (.ok target, { later with tree := tree.setType branch.id target }.noted
        (.typed branch.id later.environment)) := by
    rw [Rule.run_visit undone, isCast]
    simp only [Rule.ofTag, runs]
  refine ⟨_, whole, ?_, environment, errors, warnings⟩
  have bound := Nat.lt_of_lt_of_le stands.holds.bound (visit_frame whole).1
  rw [CheckState.tree_noted, Tree.setType, Tree.size_modify] at bound
  rw [CheckState.tree_noted, Tree.ty?, Tree.setType, Tree.get_modify_self _ _ bound]

end Run

def StoredNode.nullCast : StoredNode :=
  mk none .cast none .nowhere [
    mk (some .type) .type (some "String") .nowhere [],
    mk (some .expr) .nullValue none .nowhere []]

/-- The type of the literal does not flow into `String`, but the literal does, and so it is cast. -/
theorem visit_cast_null :
    let state : CheckState := { tree := .ofStored none .nullCast, environment := .ofOptions {} }
    state.environment.canCoerce .object .string = false ∧
      ∃ new, (visit 2 0).run.run state = .ok (.ok .string, new) ∧
        new.tree.ty? 0 = some .string ∧ new.errors = [] := by
  intro state
  let checked : CheckState := { state with tree := state.tree.setType 2 .object }
  have treelike : state.tree.Treelike 0 := by
    obtain ⟨branch, isRoot, stands, _⟩ := Tree.ofStored_stands none .nullCast
    have isTop : 0 = branch.id := Option.some.inj isRoot
    rw [isTop]
    exact stands.treelike
  have isType : state.tree.child? 0 .type = some 1 := by rfl
  have isExpr : state.tree.child? 0 .expr = some 2 := by rfl
  have isSealed : state.tree.Sealed 2 := nofun
  have denotes : state.environment.resolveType (state.tree.text 1) = .ok .string := by
    have text : state.tree.text 1 = "String" := by rfl
    rw [text]
    rfl
  have checks : (visit 1 2).run.run state = .ok (.ok .object, checked) := by rfl
  have accepted : ∃ result, (checked.environment.enforce checked.tree 2 .string).1 = .ok result :=
    ⟨2, by rfl⟩
  obtain ⟨new, ran, typed, _, errors, _⟩ :=
    visit_cast treelike rfl rfl isType isExpr isSealed denotes checks accepted
  exact ⟨by decide, new, ran, typed, errors⟩

end ScriptTyping
