import ScriptTyping.Proofs.Outcome.Reach

/-!
Assignments in a checked tree. Each that is not a call stores a value of its own type, which is that
of the global it is bound to, and none is bound to a readonly member.
-/

namespace ScriptTyping

namespace Tree

def value? (tree : Tree) (id : NodeId) : Option NodeId :=
  (tree.child? id .expr).or (tree.child? id .right)

structure Stores (tree : Tree) (environment : Environment) (id : NodeId) : Prop where
  value : ∃ kid ty found, tree.value? id = some kid ∧ tree.ty? id = some ty ∧
    tree.ty? kid = some found ∧ ((found == ty) = true ∨ found.isNever = true)
  global : ∀ globalId, tree.binding id = .field .set (.global globalId) →
    globalId < environment.globals.size ∧
      ∃ ty, tree.ty? id = some ty ∧ ((environment.global globalId).ty == ty) = true
  member : ∀ memberId, tree.binding id = .field .set (.member memberId) →
    memberId < environment.registry.members.size ∧
      (environment.registry.member memberId).isReadonly = false

section Reading

variable {tree : Tree} {branch kid : Branch}

theorem Holds.value?_eq (holds : tree.Holds branch) :
    tree.value? branch.id = branch.value?.map Branch.id := by
  rw [value?, Branch.value?, holds.child?_eq, holds.child?_eq]
  cases branch.first? .expr <;> rfl

theorem Holds.value? (holds : tree.Holds branch) (found : branch.value? = some kid) :
    tree.Holds kid := by
  rcases Option.or_eq_some_iff.mp found with isExpr | ⟨_, isRight⟩
  · exact holds.first? isExpr
  · exact holds.first? isRight

/-- Globals and members stay as they are, so an assignment agrees with any later environment. -/
theorem Holds.stores {old new : Environment} (holds : tree.Holds branch)
    (stores : branch.Stores old) (grows : old.Grows new)
    (uncalled : branch.node.binding.isCall = false) : tree.Stores new branch.id := by
  obtain ⟨value, ofGlobal, ofMember⟩ := stores
  refine ⟨?_, ?_, ?_⟩
  · obtain ⟨kid, ty, isValue, typed, found, typedKid, suits⟩ := value uncalled
    refine ⟨kid.id, ty, found, ?_, holds.ty?_eq.trans typed,
      (holds.value? isValue).ty?_eq.trans typedKid, suits⟩
    rw [holds.value?_eq, isValue, Option.map_some]
  · intro globalId bound
    rw [holds.binding_eq] at bound
    obtain ⟨inRange, ty, typed, same⟩ := ofGlobal globalId bound
    refine ⟨grows.lt_globals inRange, ty, holds.ty?_eq.trans typed, ?_⟩
    rw [grows.global_eq inRange]
    exact same
  · intro memberId bound
    rw [holds.binding_eq] at bound
    obtain ⟨inRange, writable⟩ := ofMember memberId bound
    refine ⟨Nat.lt_of_lt_of_le inRange grows.registry.size_members, ?_⟩
    rw [grows.registry.member_eq inRange]
    exact writable

end Reading

end Tree

def Premise.storing : Premise where
  plain := False
  lone := False
  tidy := True
  aside := fun tag => tag ≠ .assign

namespace Tree

/-- In a checked tree a typed assignment that is not a call stores a value of its type, if all
assignments and variables were tidy and none stood in the place of a name, an annotation or a
parameter. -/
theorem check_stores {environment : Environment} {source : Option String} {stored : StoredNode}
    {outcome : Outcome} {root id : NodeId} (tidy : ∀ node ∈ stored.all, node.Tidy)
    (visited : ∀ node ∈ stored.all, ∀ child ∈ node.asides, child.tag ≠ .assign)
    (checked : (ofStored source stored).check environment = .ok outcome)
    (isRoot : outcome.tree.root = some root) (reaches : outcome.tree.Reaches root id)
    (isAssign : outcome.tree.tag id = .assign) (typed : (outcome.tree.ty? id).isSome = true)
    (uncalled : (outcome.tree.binding id).isCall = false) :
    outcome.tree.Stores outcome.environment id := by
  have allows : ∀ node ∈ stored.all, Premise.storing.Allows node :=
    fun node inside => ⟨False.elim, False.elim, fun _ => tidy node inside, visited node inside,
      False.elim, fun _ => trivial, fun _ => trivial⟩
  have settles := check_settles allows source (.inl rfl) environment
  rw [checked] at settles
  obtain ⟨events, top, logged, settles⟩ := settles
  obtain ⟨inner, below, rfl, holds, settled⟩ := settles.reached isRoot reaches
  rw [holds.tag_eq] at isAssign
  rw [holds.ty?_eq] at typed
  rw [holds.binding_eq] at uncalled
  cases settled with
  | idle idle => exact absurd isAssign (idle.aside typed)
  | checked _ after facts =>
      unfold Branch.Facts at facts
      simp only [isAssign] at facts
      exact holds.stores (facts.2.1 trivial) after.environment.grows uncalled

end Tree

/-- A dog is stored as an animal twice, by a declaration and by an assignment. -/
def StoredNode.storing : StoredNode :=
  let dog (label : Label) :=
    mk (some label) .apply none .nowhere [mk (some .name) .name (some "dog") .nowhere []]
  let pet (label : Label) := mk (some label) .name (some "pet") .nowhere []
  mk none .source none .nowhere [
    mk none .varDecl none .nowhere
      [pet .name, mk (some .type) .type (some "Animal") .nowhere [], dog .expr],
    mk none .assign none .nowhere [pet .left, dog .right]]

def StoredNode.assignName : StoredNode :=
  mk none .source none .nowhere [
    mk none .varDecl none .nowhere [mk (some .name) .assign (some "x") .nowhere []]]

namespace Tree

theorem check_stores_animals : ∃ outcome,
    (ofStored none .storing).check .zoo = .ok outcome ∧
      outcome.tree.Stores outcome.environment 1 ∧ outcome.tree.Stores outcome.environment 6 := by
  let test (outcome : Outcome) : Bool := decide (
    outcome.tree.root = some 0 ∧ (1 ∈ outcome.tree.childIds 0 ∧ 6 ∈ outcome.tree.childIds 0) ∧
    (outcome.tree.tag 1 = .assign ∧ (outcome.tree.ty? 1).isSome = true ∧
      (outcome.tree.binding 1).isCall = false) ∧
    outcome.tree.tag 6 = .assign ∧ (outcome.tree.ty? 6).isSome = true ∧
      (outcome.tree.binding 6).isCall = false)
  have run : ((ofStored none .storing).check .zoo).toOption.any test = true := by decide +kernel
  obtain ⟨outcome, checked, holds⟩ := exists_outcome run
  obtain ⟨isRoot, ⟨isDecl, isStore⟩, ⟨tagDecl, typedDecl, unboundDecl⟩, tag, typed, uncalled⟩ :=
    of_decide_eq_true holds
  have tidy : ∀ node ∈ StoredNode.storing.all, node.Tidy := by decide
  have visited : ∀ node ∈ StoredNode.storing.all, ∀ child ∈ node.asides, child.tag ≠ .assign := by
    decide
  exact ⟨outcome, checked,
    check_stores tidy visited checked isRoot (.step isDecl (.refl 1)) tagDecl typedDecl unboundDecl,
    check_stores tidy visited checked isRoot (.step isStore (.refl 6)) tag typed uncalled⟩

/-- An assignment in the place of a name gets the type of the name, and stores nothing. -/
theorem not_stores_assignName : ¬ ∀ (environment : Environment) (source : Option String)
    (stored : StoredNode) (outcome : Outcome) (root id : NodeId),
    (∀ node ∈ stored.all, node.Tidy) →
    (ofStored source stored).check environment = .ok outcome →
    outcome.tree.root = some root → outcome.tree.Reaches root id →
    outcome.tree.tag id = .assign → (outcome.tree.ty? id).isSome = true →
    (outcome.tree.binding id).isCall = false →
    outcome.tree.Stores outcome.environment id := by
  intro claim
  let test (outcome : Outcome) : Bool := decide (
    outcome.tree.root = some 0 ∧ 1 ∈ outcome.tree.childIds 0 ∧ 2 ∈ outcome.tree.childIds 1 ∧
    outcome.tree.tag 2 = .assign ∧ (outcome.tree.ty? 2).isSome = true ∧
    (outcome.tree.binding 2).isCall = false ∧ outcome.tree.value? 2 = none)
  have run : ((ofStored none .assignName).check (.ofOptions {})).toOption.any test = true := by
    decide +kernel
  obtain ⟨outcome, checked, holds⟩ := exists_outcome run
  obtain ⟨isRoot, below, inside, isAssign, typed, uncalled, absent⟩ := of_decide_eq_true holds
  obtain ⟨_, _, _, isValue, _⟩ := (claim (.ofOptions {}) none .assignName outcome 0 2
    (by decide) checked isRoot (.step below (.step inside (.refl 2))) isAssign typed
    uncalled).value
  rw [absent] at isValue
  simp at isValue

end Tree

end ScriptTyping
