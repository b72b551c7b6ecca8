import ScriptTyping.Proofs.Environment.Naming
import ScriptTyping.Proofs.Outcome.Reach

/-!
Functions in a checked tree. A function with a body has one return type: that of its global, of its
annotation, of what its returns give back and of the calls of itself inside it.
-/

namespace ScriptTyping

namespace Tree

def Suits (tree : Tree) (id : NodeId) (ty : Ty) : Prop :=
  ∃ found, tree.ty? id = some found ∧ ((found == ty) = true ∨ found.isNever = true)

structure Returns (tree : Tree) (id : NodeId) (result : Ty) : Prop where
  nothing : result = .void → ∀ child ∈ (tree.get id).children, child.label = some .expr →
    tree.Suits child.node .void
  value : result ≠ .void → ∃ kid, tree.child? id .expr = some kid ∧ tree.Suits kid result

structure Declares (tree : Tree) (environment : Environment) (id : NodeId) (result : Ty) :
    Prop where
  declared : ∃ globalId params, tree.binding id = .field .set (.global globalId) ∧
    globalId < environment.globals.size ∧
    ((environment.global globalId).ty == .fn params result) = true ∧
    (((tree.child? id .param).map tree.childIds).getD []).map tree.ty? = params.map some
  written : ∀ kid, tree.child? id .type = some kid → tree.ty? kid = some result ∧
    ∃ ty, environment.resolveType (tree.text kid) = .ok ty ∧ (ty == result) = true
  returns : ∀ below, tree.Encloses id below → tree.tag below = .returnStmt →
    (tree.ty? below).isSome = true → tree.Returns below result
  calls : ∀ below hint name typeArgs, tree.Encloses id below →
    tree.binding below = .invoke hint (.selfCall name) typeArgs → tree.ty? below = some result

section Reading

variable {tree : Tree} {branch kid : Branch} {label : Label} {returnType : Option Ty}

theorem Holds.suits {ty : Ty} (holds : tree.Holds branch) (suits : branch.Suits ty) :
    tree.Suits branch.id ty := by
  obtain ⟨found, typed, fits⟩ := suits
  exact ⟨found, holds.ty?_eq.trans typed, fits⟩

theorem Holds.returns (holds : tree.Holds branch) (returns : branch.Returns returnType) :
    tree.Returns branch.id (returnType.getD .void) := by
  obtain ⟨result, rfl, nothing, value⟩ := returns
  refine ⟨?_, ?_⟩
  · intro isVoid child member label
    rw [holds.get_eq, holds.children_eq, List.mem_map] at member
    obtain ⟨kid, isKid, rfl⟩ := member
    exact (holds.kid isKid).suits (nothing isVoid kid isKid label)
  · intro notVoid
    obtain ⟨kid, found, suits⟩ := value notVoid
    refine ⟨kid.id, ?_, (holds.first? found).suits suits⟩
    rw [holds.child?_eq, found]
    rfl

theorem Holds.types_params (holds : tree.Holds branch) :
    (((tree.child? branch.id .param).map tree.childIds).getD []).map tree.ty? =
      (((branch.first? .param).map Branch.kids).getD []).map (·.node.ty) := by
  rw [holds.childrenOf, List.map_map]
  refine List.map_congr_left fun kid member => ?_
  cases found : branch.first? .param with
  | none => simp [found] at member
  | some list =>
      rw [found] at member
      exact ((holds.first? found).kid member).ty?_eq

end Reading

end Tree

section Function

variable {premise : Premise} {first environment : Environment} {last : Moment} {returnType : Option Ty}
  {tree : Tree} {branch : Branch}

/-- A return in a function agrees with the return type, if it was visited. -/
theorem Settled.returns (settled : Settled premise first last returnType branch)
    (lone : premise.lone) (visited : ¬ premise.aside .returnStmt) (holds : tree.Holds branch)
    (isReturn : branch.node.tag = .returnStmt) (typed : branch.node.ty.isSome = true) :
    tree.Returns branch.id (returnType.getD .void) := by
  cases settled with
  | idle idle =>
      have aside := idle.aside typed
      rw [isReturn] at aside
      exact absurd aside visited
  | checked _ _ facts _ _ same =>
      unfold Branch.Facts at facts
      rw [isReturn] at facts
      rw [← same (by simp [isReturn])]
      exact holds.returns (facts lone)

/-- A call of the enclosing function has the return type. -/
theorem Settled.selfCall {hint : Hint} {name : String} {typeArgs : List Ty}
    (settled : Settled premise first last returnType branch)
    (bound : branch.node.binding = .invoke hint (.selfCall name) typeArgs) :
    branch.node.ty = some (returnType.getD .void) := by
  cases settled with
  | idle idle =>
      rw [idle.unbound] at bound
      simp at bound
  | checked _ _ facts applies _ same =>
      have isApply := applies.selfCall hint name typeArgs bound
      unfold Branch.Facts at facts
      rw [isApply] at facts
      obtain ⟨ty, isType, typed⟩ := facts.2.1 hint name typeArgs bound
      rw [← same (by simp [isApply]), isType]
      exact typed

theorem Branch.Declares.ofBody (declares : branch.Declares environment returnType)
    (after : environment.Leads last.environment)
    (kids : ∀ kid ∈ branch.kids, Settled premise first last returnType kid)
    (lone : premise.lone) (visited : ¬ premise.aside .returnStmt) (holds : tree.Holds branch)
    (body : (branch.first? .body).isSome = true) :
    tree.Declares last.environment branch.id (returnType.getD .void) := by
  obtain ⟨globalId, params, bound, inRange, type, types, written⟩ := declares.2 body
  have grows := after.grows
  refine ⟨⟨globalId, params, holds.binding_eq.trans bound, ?_, ?_, ?_⟩, ?_, ?_, ?_⟩
  · refine Nat.lt_of_lt_of_le inRange ?_
    simpa using grows.globals.length_le
  · rw [grows.global_eq inRange]
    exact type
  · rw [holds.types_params]
    exact types
  · intro id isType
    rw [holds.child?_eq, Option.map_eq_some_iff] at isType
    obtain ⟨kid, found, rfl⟩ := isType
    obtain ⟨typed, earlier, leads, resolved⟩ := written kid found
    have holdsKid := holds.first? found
    refine ⟨holdsKid.ty?_eq.trans typed, ?_⟩
    rw [holdsKid.text_eq]
    exact (Environment.Leads.grows (leads.trans after)).resolveType resolved
  · intro below encloses isReturn typed
    obtain ⟨inner, rfl, holdsInner, settled⟩ := Settled.enclosed kids holds encloses
    rw [holdsInner.tag_eq] at isReturn
    rw [holdsInner.ty?_eq] at typed
    exact settled.returns lone visited holdsInner isReturn typed
  · intro below hint name typeArgs encloses bound
    obtain ⟨inner, rfl, holdsInner, settled⟩ := Settled.enclosed kids holds encloses
    rw [holdsInner.binding_eq] at bound
    exact holdsInner.ty?_eq.trans (settled.selfCall bound)

end Function

/-- What is known of a tree with lone returns that are all visited. `quiet` says whether all its
functions are visited, too. -/
def Premise.returning (quiet : Prop) : Premise where
  plain := False
  lone := True
  tidy := False
  aside := fun tag => tag ≠ .returnStmt ∧ (quiet → tag ≠ .funcDecl)

namespace Tree

/-- In a checked tree a visited function with a body has one return type everywhere, if no return
stood inside the expression of another of its function, none had two expressions and none was in
the place of a name, an annotation or a parameter. -/
theorem check_declares {environment : Environment} {source : Option String} {stored : StoredNode}
    {outcome : Outcome} {root id : NodeId}
    (lone : ∀ node ∈ stored.all, node.tag = .returnStmt → (node.under .expr).length ≤ 1 ∧
      ∀ child ∈ node.under .expr, child.canReturn = false)
    (placed : ∀ node ∈ stored.all, ∀ child ∈ node.asides, child.tag ≠ .returnStmt)
    (checked : (ofStored source stored).check environment = .ok outcome)
    (isRoot : outcome.tree.root = some root) (reaches : outcome.tree.Reaches root id)
    (isFunction : outcome.tree.tag id = .funcDecl)
    (body : (outcome.tree.child? id .body).isSome = true)
    (visited : outcome.tree.binding id ≠ .unbound ∨ (outcome.tree.ty? id).isSome = true ∧
      ∀ node ∈ stored.all, ∀ child ∈ node.asides, child.tag ≠ .funcDecl) :
    ∃ result, outcome.tree.Declares outcome.environment id result := by
  have allows : ∀ node ∈ stored.all, (Premise.returning (∀ node ∈ stored.all,
      ∀ child ∈ node.asides, child.tag ≠ .funcDecl)).Allows node := fun node inside =>
    ⟨False.elim, fun _ => lone node inside, False.elim, fun child member =>
      ⟨placed node inside child member, fun quiet => quiet node inside child member⟩,
      False.elim, fun _ => trivial, fun _ => trivial⟩
  have settles := check_settles allows source (.inl rfl) environment
  rw [checked] at settles
  obtain ⟨events, top, logged, settles⟩ := settles
  obtain ⟨inner, below, rfl, holds, settled⟩ := settles.reached isRoot reaches
  rw [holds.tag_eq] at isFunction
  rw [holds.binding_eq, holds.ty?_eq] at visited
  rw [holds.child?_eq, Option.isSome_map] at body
  cases settled with
  | idle idle =>
      rcases visited with bound | ⟨typed, quiet⟩
      · exact absurd idle.unbound bound
      · exact absurd isFunction ((idle.aside typed).2 quiet)
  | @checked _ within _ _ _ after facts _ _ _ kids =>
      unfold Branch.Facts at facts
      rw [isFunction] at facts
      exact ⟨_, facts.ofBody after.environment kids trivial (fun aside => aside.1 rfl) holds body⟩

end Tree

def StoredNode.endless : StoredNode :=
  let name (label : Label) := mk (some label) .name (some "f") .nowhere []
  mk none .source none .nowhere [mk none .funcDecl none .nowhere [
    name .name, mk (some .type) .type (some "int") .nowhere [],
    mk (some .body) .block none .nowhere [mk none .returnStmt none .nowhere
      [mk (some .expr) .apply none .nowhere [name .name]]]]]

def StoredNode.returnName : StoredNode :=
  mk none .source none .nowhere [mk none .funcDecl none .nowhere [
    mk (some .name) .name (some "f") .nowhere [],
    mk (some .body) .block none .nowhere [
      mk none .varDecl none .nowhere [mk (some .name) .returnStmt (some "x") .nowhere []],
      mk none .returnStmt none .nowhere [mk (some .expr) .integer (some "1") .nowhere []]]]]

namespace Tree

theorem check_declares_endless : ∃ outcome result,
    (ofStored none .endless).check (.ofOptions {}) = .ok outcome ∧
    outcome.tree.Declares outcome.environment 1 result := by
  let test (outcome : Outcome) : Bool := decide (
    outcome.tree.root = some 0 ∧ 1 ∈ outcome.tree.childIds 0 ∧ outcome.tree.tag 1 = .funcDecl ∧
    (outcome.tree.child? 1 .body).isSome = true ∧ (outcome.tree.ty? 1).isSome = true)
  have run : ((ofStored none .endless).check (.ofOptions {})).toOption.any test = true := by
    decide +kernel
  obtain ⟨outcome, checked, holds⟩ := exists_outcome run
  obtain ⟨isRoot, below, isFunction, body, typed⟩ := of_decide_eq_true holds
  obtain ⟨result, declares⟩ := check_declares (by decide) (by decide) checked isRoot
    (.step below (.refl 1)) isFunction body (.inr ⟨typed, by decide⟩)
  exact ⟨outcome, result, checked, declares⟩

/-- A return in the place of a name gets the type of the name, and gives back nothing. -/
theorem not_declares_returnName : ¬ ∀ (environment : Environment) (source : Option String)
    (stored : StoredNode) (outcome : Outcome) (root id : NodeId), environment.Built →
    (∀ node ∈ stored.all, node.tag = .returnStmt → (node.under .expr).length ≤ 1 ∧
      ∀ child ∈ node.under .expr, child.canReturn = false) →
    (ofStored source stored).check environment = .ok outcome →
    outcome.tree.root = some root → outcome.tree.Reaches root id →
    outcome.tree.tag id = .funcDecl → (outcome.tree.child? id .body).isSome = true →
    ((outcome.tree.ty? id).isSome = true ∧
      ∀ node ∈ stored.all, ∀ child ∈ node.asides, child.tag ≠ .funcDecl) →
    ∃ result, outcome.tree.Declares outcome.environment id result := by
  intro claim
  let test (outcome : Outcome) : Bool := decide (
    outcome.tree.root = some 0 ∧ 1 ∈ outcome.tree.childIds 0 ∧ outcome.tree.tag 1 = .funcDecl ∧
    (outcome.tree.child? 1 .body).isSome = true ∧ (outcome.tree.ty? 1).isSome = true ∧
    3 ∈ outcome.tree.childIds 1 ∧ outcome.tree.tag 3 = .block ∧
    (4 ∈ outcome.tree.childIds 3 ∧ outcome.tree.tag 4 = .varDecl) ∧
    (5 ∈ outcome.tree.childIds 4 ∧ outcome.tree.tag 5 = .returnStmt ∧
      (outcome.tree.ty? 5).isSome = true ∧ outcome.tree.child? 5 .expr = none) ∧
    (6 ∈ outcome.tree.childIds 3 ∧ outcome.tree.tag 6 = .returnStmt ∧
      (outcome.tree.ty? 6).isSome = true) ∧
    ∃ child ∈ (outcome.tree.get 6).children, child.label = some .expr ∧
      ∀ found ∈ outcome.tree.ty? child.node, ¬ ((found == .void) = true ∨ found.isNever = true))
  have run : ((ofStored none .returnName).check (.ofOptions {})).toOption.any test = true := by
    decide +kernel
  obtain ⟨outcome, checked, holds⟩ := exists_outcome run
  obtain ⟨isRoot, below, isFunction, body, typed, inside, isBlock, ⟨isVariable, isDecl⟩,
    ⟨isName, nameReturns, nameTyped, nothing⟩, ⟨isReturn, returns, returnTyped⟩,
    child, isChild, label, apart⟩ := of_decide_eq_true holds
  obtain ⟨result, declares⟩ := claim (.ofOptions {}) none .returnName outcome 0 1 (.start {})
    (by decide) checked isRoot (.step below (.refl 1)) isFunction body
    ⟨typed, by decide⟩
  have ofBlock : ∀ kid ∈ outcome.tree.childIds 3, outcome.tree.Encloses 1 kid :=
    fun kid member => .step (.kid inside) (by rw [isBlock]; simp) member
  by_cases isVoid : result = .void
  · obtain ⟨found, typedChild, suits⟩ :=
      (declares.returns 6 (ofBlock 6 isReturn) returns returnTyped).nothing isVoid child isChild label
    exact apart found typedChild suits
  · have ofName : outcome.tree.Encloses 1 5 :=
      .step (ofBlock 4 isVariable) (by rw [isDecl]; simp) isName
    obtain ⟨kid, isKid, _⟩ := (declares.returns 5 ofName nameReturns nameTyped).value isVoid
    rw [nothing] at isKid
    simp at isKid

end Tree

end ScriptTyping
