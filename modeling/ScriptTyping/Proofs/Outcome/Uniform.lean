import ScriptTyping.Proofs.Outcome.Functions

/-!
Collections, alternatives and conditions in a checked tree. The children of such a node were visited
and brought to the type that its rule asks of them, so they have this type or are `never`.
-/

namespace ScriptTyping

/-- The condition of an assertion is the first of its arguments. -/
theorem Branch.tests_assertion {branch condition message : Branch}
    (isTag : branch.node.tag = .assertion) (arguments : branch.arguments = [condition, message])
    (isBool : condition.Suits .bool) : branch.Tests [.cond] := by
  rw [Branch.arguments, isTag] at arguments
  intro label member
  rw [List.mem_singleton.mp member]
  cases found : branch.first? .cond with
  | none =>
      -- Only the message would be left.
      have short := List.length_filterMap_le branch.first? [Label.msg]
      simp only [List.filterMap_cons_none found] at arguments
      rw [arguments] at short
      simp at short
  | some kid =>
      simp only [List.filterMap_cons_some found, List.cons.injEq] at arguments
      exact ⟨kid, rfl, arguments.1 ▸ isBool⟩

namespace Tree

def Tests (tree : Tree) (id : NodeId) (labels : List Label) : Prop :=
  ∀ label ∈ labels, ∃ kid, tree.child? id label = some kid ∧ tree.Suits kid .bool

def Chooses (tree : Tree) (id : NodeId) : Prop :=
  ∃ ty chosen other, tree.ty? id = some ty ∧ tree.child? id .thenBranch = some chosen ∧
    tree.ty? chosen = some ty ∧ tree.child? id .elseBranch = some other ∧ tree.Suits other ty

def Uniform (tree : Tree) (id : NodeId) : Prop :=
  match tree.tag id with
  | .array => ∃ element, tree.ty? id = some (.array element) ∧
      ∀ kid ∈ tree.childIds id, tree.Suits kid element
  | .set => ∃ element, tree.ty? id = some (.set element) ∧
      ∀ kid ∈ tree.childIds id, tree.Suits kid element
  | .dict => ∃ value, tree.ty? id = some (.dict value) ∧
      ∀ index kid, (tree.childIds id)[index]? = some kid →
        tree.Suits kid (if index % 2 = 0 then .string else value)
  | .interpolation => ∀ kid ∈ tree.childIds id, tree.Suits kid .object
  | .conditional => tree.Tests id [.cond] ∧ tree.Chooses id
  | .conjunction => tree.Tests id [.left, .right]
  | .disjunction => tree.Tests id [.left, .right]
  | .negation => tree.Tests id [.expr]
  | .ifStmt => tree.Tests id [.cond]
  | .whileLoop => tree.Tests id [.cond]
  | .assertion => tree.Tests id [.cond]
  | .forLoop => tree.child? id .cond = none ∨ tree.Tests id [.cond]
  | _ => True

section Reading

variable {tree : Tree} {branch : Branch}

theorem Holds.consists {element : Ty} (holds : tree.Holds branch)
    (consists : branch.Consists element) :
    ∀ kid ∈ tree.childIds branch.id, tree.Suits kid element := by
  intro id member
  obtain ⟨kid, isKid, rfl⟩ := holds.mem_childIds member
  exact (holds.kid isKid).suits (consists kid isKid)

theorem Holds.alternates {value : Ty} (holds : tree.Holds branch)
    (alternates : branch.Alternates value) :
    ∀ index kid, (tree.childIds branch.id)[index]? = some kid →
      tree.Suits kid (if index % 2 = 0 then .string else value) := by
  intro index id found
  rw [holds.childIds_eq, List.getElem?_map] at found
  obtain ⟨kid, isKid, rfl⟩ := Option.map_eq_some_iff.mp found
  exact (holds.kid (List.mem_of_getElem? isKid)).suits (alternates index kid isKid)

theorem Holds.tests {labels : List Label} (holds : tree.Holds branch)
    (tests : branch.Tests labels) : tree.Tests branch.id labels := by
  intro label member
  obtain ⟨kid, found, suits⟩ := tests label member
  refine ⟨kid.id, ?_, (holds.first? found).suits suits⟩
  rw [holds.child?_eq, found, Option.map_some]

theorem Holds.chooses (holds : tree.Holds branch) (chooses : branch.Chooses) :
    tree.Chooses branch.id := by
  obtain ⟨ty, chosen, other, typed, isChosen, typedChosen, isOther, suits⟩ := chooses
  refine ⟨ty, chosen.id, other.id, holds.ty?_eq.trans typed, ?_,
    (holds.first? isChosen).ty?_eq.trans typedChosen, ?_, (holds.first? isOther).suits suits⟩
  · rw [holds.child?_eq, isChosen, Option.map_some]
  · rw [holds.child?_eq, isOther, Option.map_some]

theorem Holds.uniform {premise : Premise} {environment : Environment} {errors : List CheckError}
    {returnType : Option Ty} (holds : tree.Holds branch)
    (facts : branch.Facts premise environment errors returnType) : tree.Uniform branch.id := by
  unfold Branch.Facts at facts
  unfold Uniform
  rw [holds.tag_eq, holds.ty?_eq]
  cases isTag : branch.node.tag <;> simp only [isTag] at facts ⊢
  case array | set =>
    obtain ⟨element, typed, consists⟩ := facts
    exact ⟨element, typed, holds.consists consists⟩
  case dict =>
    obtain ⟨value, typed, alternates⟩ := facts
    exact ⟨value, typed, holds.alternates alternates⟩
  case interpolation => exact holds.consists facts.2
  case conditional => exact ⟨holds.tests facts.1, holds.chooses facts.2⟩
  case conjunction | disjunction | negation | ifStmt | whileLoop => exact holds.tests facts
  case assertion =>
    obtain ⟨_, _, condition, message, arguments, isBool, _⟩ := facts
    exact holds.tests (Branch.tests_assertion isTag arguments isBool)
  case forLoop =>
    refine facts.imp (fun absent => ?_) holds.tests
    rw [holds.child?_eq, absent, Option.map_none]

end Reading

/-- In a checked tree the children of a typed collection have the type of its elements, keys are
texts, the alternatives of a typed choice have its type, and conditions are truth values, if no node
of the kind stood in the place of a name, an annotation or a parameter. -/
theorem check_uniform {environment : Environment} {source : Option String} {stored : StoredNode}
    {outcome : Outcome} {root id : NodeId}
    (visited : ∀ node ∈ stored.all, ∀ child ∈ node.asides, child.tag ≠ outcome.tree.tag id)
    (checked : (ofStored source stored).check environment = .ok outcome)
    (isRoot : outcome.tree.root = some root) (reaches : outcome.tree.Reaches root id)
    (typed : (outcome.tree.ty? id).isSome = true) : outcome.tree.Uniform id := by
  let premise : Premise :=
    { plain := False, lone := False, tidy := False, aside := fun tag => tag ≠ outcome.tree.tag id }
  have allows : ∀ node ∈ stored.all, premise.Allows node := fun node inside =>
    ⟨False.elim, False.elim, False.elim, visited node inside, False.elim, fun _ => trivial,
      fun _ => trivial⟩
  have settles := check_settles allows source (.inl rfl) environment
  rw [checked] at settles
  obtain ⟨events, top, logged, settles⟩ := settles
  obtain ⟨inner, below, rfl, holds, settled⟩ := settles.reached isRoot reaches
  rw [holds.ty?_eq] at typed
  cases settled with
  | idle idle => exact absurd holds.tag_eq.symm (idle.aside typed)
  | checked _ _ facts => exact holds.uniform facts

end Tree

def StoredNode.mixed : StoredNode :=
  let leaf (label : Option Label) (tag : Tag) (text : Option String) :=
    mk label tag text .nowhere []
  mk none .source none .nowhere [
    mk none .array none .nowhere
      [leaf none .integer (some "1"), leaf none .text (some "one")],
    mk none .dict none .nowhere
      [leaf none .text (some "one"), leaf none .integer (some "1")],
    mk none .ifStmt none .nowhere [
      mk (some .cond) .conditional none .nowhere
        [leaf (some .cond) .trueValue none, leaf (some .thenBranch) .falseValue none,
          leaf (some .elseBranch) .trueValue none],
      mk (some .thenBranch) .block none .nowhere []]]

/-- The name of a variable, written as an array. -/
def StoredNode.arrayName : StoredNode :=
  mk none .source none .nowhere [
    mk none .varDecl none .nowhere [mk (some .name) .array (some "x") .nowhere []]]

namespace Tree

theorem check_uniform_mixed : ∃ outcome,
    (ofStored none .mixed).check (.ofOptions {}) = .ok outcome ∧
      outcome.tree.tag 1 = .array ∧ outcome.tree.Uniform 1 ∧
      outcome.tree.tag 4 = .dict ∧ outcome.tree.Uniform 4 ∧
      outcome.tree.tag 7 = .ifStmt ∧ outcome.tree.Uniform 7 ∧
      outcome.tree.tag 8 = .conditional ∧ outcome.tree.Uniform 8 := by
  let test (outcome : Outcome) : Bool := decide (
    outcome.tree.root = some 0 ∧ outcome.tree.childIds 0 = [1, 4, 7] ∧
    8 ∈ outcome.tree.childIds 7 ∧
    [1, 4, 7, 8].all (fun id => (outcome.tree.ty? id).isSome) = true ∧
    outcome.tree.tag 1 = .array ∧ outcome.tree.tag 4 = .dict ∧ outcome.tree.tag 7 = .ifStmt ∧
    outcome.tree.tag 8 = .conditional)
  have run : ((ofStored none .mixed).check (.ofOptions {})).toOption.any test = true := by
    decide +kernel
  obtain ⟨outcome, checked, holds⟩ := exists_outcome run
  obtain ⟨isRoot, kids, below, allTyped, isArray, isDict, isIf, isChoice⟩ := of_decide_eq_true holds
  have typed := List.all_eq_true.mp allTyped
  have none : ∀ node ∈ StoredNode.mixed.all, node.asides = [] := by decide
  have visited : ∀ id, ∀ node ∈ StoredNode.mixed.all, ∀ child ∈ node.asides,
      child.tag ≠ outcome.tree.tag id := by
    intro id node inside child member
    rw [none node inside] at member
    exact absurd member List.not_mem_nil
  have reaches : ∀ id ∈ [1, 4, 7], outcome.tree.Reaches 0 id :=
    fun id member => .step (kids ▸ member) (.refl id)
  exact ⟨outcome, checked,
    isArray, check_uniform (visited 1) checked isRoot (reaches 1 (by decide)) (typed 1 (by decide)),
    isDict, check_uniform (visited 4) checked isRoot (reaches 4 (by decide)) (typed 4 (by decide)),
    isIf, check_uniform (visited 7) checked isRoot (reaches 7 (by decide)) (typed 7 (by decide)),
    isChoice, check_uniform (visited 8) checked isRoot
      (.step (kids ▸ (by decide : 7 ∈ [1, 4, 7])) (.step below (.refl 8))) (typed 8 (by decide))⟩

/-- An array in the place of a name gets the type of the variable. -/
theorem not_uniform_arrayName : ¬ ∀ (environment : Environment) (source : Option String)
    (stored : StoredNode) (outcome : Outcome) (root id : NodeId),
    (ofStored source stored).check environment = .ok outcome →
    outcome.tree.root = some root → outcome.tree.Reaches root id →
    (outcome.tree.ty? id).isSome = true → outcome.tree.Uniform id := by
  intro claim
  let test (outcome : Outcome) : Bool := decide (
    outcome.tree.root = some 0 ∧ 1 ∈ outcome.tree.childIds 0 ∧ 2 ∈ outcome.tree.childIds 1 ∧
    outcome.tree.tag 2 = .array ∧ (outcome.tree.ty? 2).any Ty.isObject = true)
  have run : ((ofStored none .arrayName).check (.ofOptions {})).toOption.any test = true := by
    decide +kernel
  obtain ⟨outcome, checked, holds⟩ := exists_outcome run
  obtain ⟨isRoot, below, inside, isArray, isObject⟩ := of_decide_eq_true holds
  obtain ⟨ty, typed, object⟩ := (Option.any_eq_true _ _).mp isObject
  have uniform := claim (.ofOptions {}) none .arrayName outcome 0 2 checked isRoot
    (.step below (.step inside (.refl 2))) (by rw [typed]; rfl)
  rw [Uniform, isArray] at uniform
  obtain ⟨element, typedArray, _⟩ := uniform
  rw [typed, Option.some.injEq] at typedArray
  rw [typedArray] at object
  cases object

end Tree

end ScriptTyping
