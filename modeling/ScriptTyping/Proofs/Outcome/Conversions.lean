import ScriptTyping.Proofs.Environment.Assignability
import ScriptTyping.Proofs.Outcome.Reach
import ScriptTyping.Proofs.Registry.Signature

/-!
Conversions in a checked tree: each agrees with its own type and that of the expression below it.
-/

namespace ScriptTyping

inductive Environment.Converts (environment : Environment) (found ty : Ty) :
    Tag → Binding → Prop where
  | up {binding : Binding} : environment.isAssignable ty found = true →
      Converts environment found ty .upCast binding
  | down {binding : Binding} : found.isDynamic = true ∨ environment.isAssignable found ty = true →
      Converts environment found ty .downCast binding
  | cast {member : MemberId} {param : Ty} : member < environment.registry.members.size →
      (environment.registry.member member).params = [param] → (param == found) = true →
      ((environment.registry.member member).result == ty) = true →
      Converts environment found ty .cast (.static member)

theorem Environment.Converts.keep {old new : Environment} {found ty : Ty} {tag : Tag}
    {binding : Binding} (converts : old.Converts found ty tag binding) (keeps : old.Keeps new)
    (grows : old.Grows new) : new.Converts found ty tag binding := by
  cases converts with
  | up assignable => exact .up (keeps.isAssignable grows assignable)
  | down allowed => exact .down (allowed.imp id (keeps.isAssignable grows))
  | cast bound params param result =>
      have same := grows.registry.member_eq bound
      refine .cast (Nat.lt_of_lt_of_le bound grows.registry.size_members) ?_ param ?_
      · rw [same]
        exact params
      · rw [same]
        exact result

/-- The member of an entry converts between the types for which the entry is found. -/
theorem CastEntry.converts {environment : Environment} {found ty : Ty} {entry : CastEntry}
    (built : environment.Built) (isEntry : CastEntry.find? found ty = some entry) :
    environment.Converts found ty .cast (.static entry.member) := by
  have types := List.find?_some isEntry
  rw [Bool.and_eq_true] at types
  obtain ⟨bound, same⟩ :=
    built.builtin_member (Builtin.found_conversion _ (List.mem_of_find?_eq_some isEntry))
  refine .cast bound ?_ types.1 ?_
  · rw [same]
    rfl
  · rw [same]
    exact types.2

namespace Tree

/-- Whether a conversion in a tree leads from the type of its expression to its own. -/
def Converts (tree : Tree) (environment : Environment) (id : NodeId) : Prop :=
  ∃ kid found ty, tree.child? id .expr = some kid ∧ tree.ty? kid = some found ∧
    tree.ty? id = some ty ∧ environment.Converts found ty (tree.tag id) (tree.binding id)

theorem Converts.keep {tree : Tree} {id : NodeId} {old new : Environment}
    (converts : tree.Converts old id) (keeps : old.Keeps new) (grows : old.Grows new) :
    tree.Converts new id := by
  obtain ⟨kid, found, ty, isKid, typedKid, typed, converts⟩ := converts
  exact ⟨kid, found, ty, isKid, typedKid, typed, converts.keep keeps grows⟩

theorem Holds.converts {tree : Tree} {branch : Branch} {environment : Environment} {found ty : Ty}
    (holds : tree.Holds branch) (between : branch.Converts found ty)
    (converts : environment.Converts found ty branch.node.tag branch.node.binding) :
    tree.Converts environment branch.id := by
  obtain ⟨kid, kids, label, typedKid, typed⟩ := between
  have holdsKid := holds.kid (kids ▸ List.mem_singleton_self kid)
  refine ⟨kid.id, found, ty, ?_, holdsKid.ty?_eq.trans typedKid, holds.ty?_eq.trans typed, ?_⟩
  · rw [holds.child?_eq, Branch.first?, kids, List.find?_cons, label]
    simp
  · rw [holds.tag_eq, holds.binding_eq]
    exact converts

end Tree

theorem Branch.Facts.converts {premise : Premise} {environment : Environment} {tree : Tree}
    {branch : Branch} {errors : List CheckError} {returnType : Option Ty}
    (facts : branch.Facts premise environment errors returnType) (built : environment.Built)
    (plain : premise.plain) (isConversion : branch.node.tag ∈ [.upCast, .downCast, .cast])
    (holds : tree.Holds branch) : tree.Converts environment branch.id := by
  simp only [List.mem_cons, List.not_mem_nil, or_false] at isConversion
  unfold Branch.Facts at facts
  rcases isConversion with isTag | isTag | isTag
  · rw [isTag] at facts
    obtain ⟨found, ty, between, assignable⟩ := facts plain
    exact holds.converts between (isTag ▸ .up assignable)
  · rw [isTag] at facts
    obtain ⟨found, ty, between, allowed⟩ := facts plain
    exact holds.converts between (isTag ▸ .down allowed)
  · rw [isTag] at facts
    obtain ⟨found, ty, entry, between, isEntry, bound⟩ := facts
    exact holds.converts between (isTag ▸ bound ▸ CastEntry.converts built isEntry)

def Premise.unconverted : Premise where
  plain := True
  lone := False
  tidy := False
  aside := fun tag => tag ≠ .cast

namespace Tree

/-- In a checked tree a typed conversion agreed with its expression in the environment in which it
got its type, as the log of the check tells, if the tree held no conversions up or down before, and
no cast in the place of a name, an annotation or a parameter. It still agrees, where no supertype was
declared anew since then. -/
theorem check_converts {environment : Environment} {source : Option String} {stored : StoredNode}
    {outcome : Outcome} {root id : NodeId} (built : environment.Built)
    (plain : ∀ node ∈ stored.all, node.tag ≠ .upCast ∧ node.tag ≠ .downCast)
    (visited : ∀ node ∈ stored.all, ∀ child ∈ node.asides, child.tag ≠ .cast)
    (checked : (ofStored source stored).check environment = .ok outcome)
    (isRoot : outcome.tree.root = some root) (reaches : outcome.tree.Reaches root id)
    (isConversion : outcome.tree.tag id ∈ [.upCast, .downCast, .cast])
    (typed : (outcome.tree.ty? id).isSome = true) :
    ∃ events between, (ofStored source stored).checkLogged environment = .ok (outcome, events) ∧
      .typed id between ∈ events ∧
      environment.Leads between ∧ between.Leads outcome.environment ∧
      outcome.tree.Converts between id ∧
      (between.Keeps outcome.environment → outcome.tree.Converts outcome.environment id) := by
  have allows : ∀ node ∈ stored.all, Premise.unconverted.Allows node :=
    fun node inside => ⟨fun _ => plain node inside, False.elim, False.elim, visited node inside,
      False.elim, fun _ => trivial, fun _ => trivial⟩
  have settles := check_settles allows source (.inl rfl) environment
  rw [checked] at settles
  obtain ⟨events, top, logged, settles⟩ := settles
  obtain ⟨inner, below, rfl, holds, settled⟩ := settles.reached isRoot reaches
  rw [holds.tag_eq] at isConversion
  rw [holds.ty?_eq] at typed
  cases settled with
  | idle idle =>
      have notCast := idle.aside typed
      obtain ⟨notUp, notDown⟩ := idle.plain trivial
      simp only [Premise.unconverted] at notCast
      simp [notUp, notDown, notCast] at isConversion
  | @checked _ _ _ moment before after facts _ dated =>
      have converts := facts.converts (built.leads before) trivial isConversion holds
      have isDated : below.node.isDated = true := by simp [Node.isDated, isConversion]
      exact ⟨events, moment.environment, logged, dated isDated events rfl, before, after.environment,
        converts, fun keeps => converts.keep keeps after.environment.grows⟩

end Tree

/-- A dog is kept as an animal, and then the farm is imported. -/
def StoredNode.keeping : StoredNode :=
  let word (text : String) := mk (some .name) .name (some text) .nowhere []
  let dog := mk (some .expr) .apply none .nowhere [word "dog"]
  mk none .source none .nowhere [
    mk none .varDecl none .nowhere
      [word "pet", mk (some .type) .type (some "Animal") .nowhere [], dog],
    mk none .importDecl none .nowhere [word "farm"]]

def StoredNode.castName : StoredNode :=
  mk none .source none .nowhere [
    mk none .varDecl none .nowhere [mk (some .name) .cast (some "x") .nowhere []]]

namespace Tree

/-- What is left of the conversion around `dog()`. -/
theorem keeping_outcome : ∃ outcome, (ofStored none .keeping).check .zoo = .ok outcome ∧
    outcome.tree.root = some 0 ∧ outcome.tree.Reaches 0 9 ∧ outcome.tree.tag 9 = .upCast ∧
    (outcome.tree.ty? 9).isSome = true ∧ ¬ outcome.tree.Converts outcome.environment 9 := by
  let test (outcome : Outcome) : Bool := decide (
    outcome.tree.root = some 0 ∧ 1 ∈ outcome.tree.childIds 0 ∧ 9 ∈ outcome.tree.childIds 1 ∧
    outcome.tree.tag 9 = .upCast ∧ (outcome.tree.ty? 9).isSome = true ∧
    ∀ kid ∈ outcome.tree.child? 9 .expr, ∀ found ∈ outcome.tree.ty? kid, ∀ ty ∈ outcome.tree.ty? 9,
      outcome.environment.isAssignable ty found = false)
  have run : ((ofStored none .keeping).check .zoo).toOption.any test = true := by decide +kernel
  obtain ⟨outcome, checked, holds⟩ := exists_outcome run
  obtain ⟨isRoot, below, inside, isUp, typed, apart⟩ := of_decide_eq_true holds
  refine ⟨outcome, checked, isRoot, .step below (.step inside (.refl 9)), isUp, typed, ?_⟩
  rintro ⟨kid, found, ty, isKid, typedKid, typed, converts⟩
  rw [isUp] at converts
  cases converts with
  | up assignable =>
      rw [apart kid isKid found typedKid ty typed] at assignable
      simp at assignable

theorem check_converts_keeping : ∃ outcome events between,
    (ofStored none .keeping).checkLogged .zoo = .ok (outcome, events) ∧
    .typed 9 between ∈ events ∧ outcome.tree.Converts between 9 := by
  obtain ⟨outcome, checked, isRoot, reaches, isUp, typed, _⟩ := keeping_outcome
  obtain ⟨events, between, logged, isMade, _, _, converts, _⟩ :=
    check_converts Environment.zoo_built (by decide) (by decide) checked isRoot reaches
      (by rw [isUp]; simp) typed
  exact ⟨outcome, events, between, logged, isMade, converts⟩

/-- A cast in the place of a name gets a type without an expression, and a conversion need not agree
with the last environment, where dogs are no animals. -/
theorem not_converts_keeping : (¬ ∀ (environment : Environment) (source : Option String)
    (stored : StoredNode) (outcome : Outcome) (root id : NodeId), environment.Built →
    (∀ node ∈ stored.all, node.tag ≠ .upCast ∧ node.tag ≠ .downCast) →
    (ofStored source stored).check environment = .ok outcome →
    outcome.tree.root = some root → outcome.tree.Reaches root id →
    outcome.tree.tag id ∈ [.upCast, .downCast, .cast] → (outcome.tree.ty? id).isSome = true →
    ∃ between, outcome.tree.Converts between id) ∧
  ¬ ∀ (environment : Environment) (source : Option String)
    (stored : StoredNode) (outcome : Outcome) (root id : NodeId), environment.Built →
    (∀ node ∈ stored.all, node.tag ≠ .upCast ∧ node.tag ≠ .downCast) →
    (∀ node ∈ stored.all, ∀ child ∈ node.asides, child.tag ≠ .cast) →
    (ofStored source stored).check environment = .ok outcome →
    outcome.tree.root = some root → outcome.tree.Reaches root id →
    outcome.tree.tag id ∈ [.upCast, .downCast, .cast] → (outcome.tree.ty? id).isSome = true →
    outcome.tree.Converts outcome.environment id := by
  constructor
  · intro claim
    let test (outcome : Outcome) : Bool := decide (
      outcome.tree.root = some 0 ∧ 1 ∈ outcome.tree.childIds 0 ∧ 2 ∈ outcome.tree.childIds 1 ∧
      outcome.tree.tag 2 = .cast ∧ (outcome.tree.ty? 2).isSome = true ∧
      outcome.tree.child? 2 .expr = none)
    have run : ((ofStored none .castName).check (.ofOptions {})).toOption.any test = true := by
      decide +kernel
    obtain ⟨outcome, checked, holds⟩ := exists_outcome run
    obtain ⟨isRoot, below, inside, isCast, typed, absent⟩ := of_decide_eq_true holds
    obtain ⟨_, _, _, _, isKid, _⟩ := claim (.ofOptions {}) none .castName outcome 0 2 (.start {})
      (by decide) checked isRoot (.step below (.step inside (.refl 2)))
      (by rw [isCast]; simp) typed
    rw [absent] at isKid
    simp at isKid
  · intro claim
    obtain ⟨outcome, checked, isRoot, reaches, isUp, typed, apart⟩ := keeping_outcome
    exact apart (claim .zoo none .keeping outcome 0 9 Environment.zoo_built (by decide)
      (by decide) checked isRoot reaches (by rw [isUp]; simp) typed)

end Tree

end ScriptTyping
