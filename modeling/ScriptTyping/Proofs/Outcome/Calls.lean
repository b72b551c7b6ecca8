import ScriptTyping.Proofs.Environment.Assignability
import ScriptTyping.Proofs.Outcome.Reach
import ScriptTyping.Proofs.Registry.Signature

/-!
Calls in a checked tree. Where the called member has no variables, the call has the result type of
the member, and the arguments are assignable to its parameters.
-/

namespace ScriptTyping

/-- Whether a call has the result type of a member and passes it arguments that it takes. -/
structure Branch.Passes (environment : Environment) (member : Member) (branch : Branch) : Prop where
  result : branch.node.ty = some member.result
  arguments : List.Forall₂ (fun arg param => ∃ ty, arg.node.ty = some ty ∧
    environment.isAssignable param ty = true) branch.arguments member.params

def Branch.Takes (environment : Environment) (member : MemberId) (branch : Branch) : Prop :=
  member < environment.registry.members.size ∧
    ((environment.registry.member member).vars = [] →
      (environment.registry.member member).isVariadic = false →
        branch.Passes environment (environment.registry.member member))

/-! ### The environment of the call -/

section Passing

variable {environment : Environment} {resolution : Resolution} {branch : Branch} {param : Ty}

theorem Branch.Suits.isAssignable (suits : branch.Suits param) :
    ∃ ty, branch.node.ty = some ty ∧ environment.isAssignable param ty = true := by
  obtain ⟨ty, typed, same | never⟩ := suits
  · exact ⟨ty, typed, Environment.isAssignable_of_beq (BEq.symm same)⟩
  · exact ⟨ty, typed, Environment.isAssignable_of_isNever never⟩

theorem Branch.Suits.isAssignable_of {found : Ty} (suits : branch.Suits found)
    (assignable : environment.isAssignable param found = true) :
    ∃ ty, branch.node.ty = some ty ∧ environment.isAssignable param ty = true := by
  obtain ⟨ty, typed, same | never⟩ := suits
  · refine ⟨ty, typed, ?_⟩
    rw [environment.isAssignable_congr BEq.rfl same]
    exact assignable
  · exact ⟨ty, typed, Environment.isAssignable_of_isNever never⟩

/-- The arguments of a resolution are assignable, converted or not. -/
theorem Resolved.passes {arguments : List Branch} {receiver types : List Ty}
    {candidates : List MemberId}
    (resolved : Resolved environment arguments resolution receiver types candidates)
    (fixed : (environment.registry.member resolution.member).isVariadic = false)
    (plain : ∀ ty ∈ (environment.registry.member resolution.member).params, ty.hasVar = false) :
    List.Forall₂ (fun arg param => ∃ ty, arg.node.ty = some ty ∧
      environment.isAssignable param ty = true) arguments
        (environment.registry.member resolution.member).params := by
  obtain ⟨_, expected, bindings, attempted⟩ := Environment.resolve_attempted resolved.found
  have params := attempted.params_eq fixed plain
  have lengths : arguments.length = resolution.params.length := by
    rw [attempted.length_params, resolved.length]
  rw [← params, List.forall₂_iff_get]
  refine ⟨lengths, ?_⟩
  intro index inArguments inParams
  have inTypes : index < types.length := resolved.length ▸ inArguments
  have isArgument : arguments[index]? = some arguments[index] := List.getElem?_eq_getElem inArguments
  have isType : types[index]? = some types[index] := List.getElem?_eq_getElem inTypes
  have isParam : resolution.params[index]? = some resolution.params[index] :=
    List.getElem?_eq_getElem inParams
  by_cases coerced : index ∈ resolution.coercions
  · exact (resolved.converted index _ _ isArgument isParam coerced).isAssignable
  · have assignable := attempted.isAssignable fixed plain isType isParam coerced
    exact (resolved.kept index _ _ isArgument isType coerced).isAssignable_of assignable

theorem Environment.Built.plain_of_bound (built : environment.Built) {id : MemberId}
    (bound : id < environment.registry.members.size) :
    (environment.registry.member id).Plain := by
  have found : environment.registry.members[id]? = some environment.registry.members[id] :=
    Array.getElem?_eq_getElem bound
  rw [Registry.member, found]
  exact built.member_plain _ (Array.mem_toList_iff.mpr (Array.getElem_mem bound))

theorem Branch.HasResult.takes (hasResult : branch.HasResult environment resolution)
    (built : environment.Built) : branch.Takes environment resolution.member := by
  obtain ⟨typed, receiver, types, candidates, resolved⟩ := hasResult
  obtain ⟨isCandidate, expected, bindings, attempted⟩ :=
    Environment.resolve_attempted resolved.found
  have bound := resolved.registered _ isCandidate
  refine ⟨bound, ?_⟩
  intro none fixed
  obtain ⟨params, result⟩ := built.plain_of_bound bound none
  rw [List.all_eq_true] at params
  have plain : ∀ ty ∈ (environment.registry.member resolution.member).params,
      ty.hasVar = false := fun ty member => by simpa using params ty member
  refine ⟨?_, resolved.passes fixed plain⟩
  rw [typed, attempted.result, bindings.finish_of_ground result]

theorem Branch.Calls.takes {hints : List Hint} {hint : Hint} {member : MemberId}
    {typeArgs : List Ty} (calls : branch.Calls environment hints) (built : environment.Built)
    (bound : branch.node.binding = .invoke hint (.member member) typeArgs) (isHint : hint ∈ hints) :
    branch.Takes environment member := by
  obtain ⟨resolution, rfl, hasResult⟩ := calls hint member typeArgs bound isHint
  exact hasResult.takes built

theorem Branch.takes_assertion {condition message : Branch} (built : environment.Built)
    (typed : branch.node.ty = some .void) (arguments : branch.arguments = [condition, message])
    (isCondition : condition.Suits .bool) (isMessage : message.Suits .string) :
    branch.Takes environment RuntimeMember.assertion := by
  obtain ⟨inRange, isAssert⟩ :=
    built.builtin_member (Builtin.found_assertion environment.options.maxInvokeArity)
  refine ⟨inRange, fun _ _ => ?_⟩
  rw [isAssert]
  refine ⟨typed, ?_⟩
  rw [arguments]
  exact .cons isCondition.isAssignable (.cons isMessage.isAssignable .nil)

/-- A node that calls a member calls it as the member takes it. -/
theorem Branch.Facts.takes {premise : Premise} {errors : List CheckError} {returnType : Option Ty}
    {member : MemberId} (facts : branch.Facts premise environment errors returnType)
    (built : environment.Built)
    (calls : branch.node.binding.callee? branch.node.tag = some member) :
    branch.Takes environment member := by
  unfold Branch.Facts at facts
  generalize isBinding : branch.node.binding = binding at calls facts
  generalize branch.node.tag = tag at calls facts
  unfold Binding.callee? at calls
  split at calls
  · obtain rfl := Option.some.inj calls
    exact facts.1.takes built isBinding (List.mem_singleton_self _)
  · obtain rfl := Option.some.inj calls
    exact facts.1.takes built isBinding (List.mem_singleton_self _)
  · obtain rfl := Option.some.inj calls
    obtain ⟨same, typed, condition, message, arguments, isCondition, isMessage⟩ := facts
    simp only [Binding.static, Binding.invoke.injEq, InvokeTarget.member.injEq] at same
    rw [same.2.1]
    exact Branch.takes_assertion built typed arguments isCondition isMessage
  · split at calls
    · rename_i both
      obtain ⟨isHint, isCall⟩ := both
      obtain rfl := Option.some.inj calls
      simp only [List.mem_cons, List.not_mem_nil, or_false] at isCall
      rcases isCall with rfl | rfl | rfl | rfl
      · exact facts.1.takes built isBinding isHint
      · exact facts.1.takes built isBinding isHint
      · exact facts.1.takes built isBinding isHint
      · exact facts.1.takes built isBinding isHint
    · simp at calls
  · obtain rfl := Option.some.inj calls
    obtain ⟨resolution, rfl, hasResult⟩ := facts _ rfl
    exact hasResult.takes built
  · simp at calls

end Passing

/-! ### The calls of an outcome -/

namespace Tree

structure Passes (tree : Tree) (environment : Environment) (member : Member) (id : NodeId) :
    Prop where
  result : tree.ty? id = some member.result
  arguments : List.Forall₂ (fun arg param => ∃ ty, tree.ty? arg = some ty ∧
    environment.isAssignable param ty = true) (tree.arguments id) member.params

theorem Passes.keep {tree : Tree} {member : Member} {id : NodeId} {old new : Environment}
    (passes : tree.Passes old member id) (keeps : old.Keeps new) (grows : old.Grows new) :
    tree.Passes new member id := by
  refine ⟨passes.result, passes.arguments.imp ?_⟩
  intro arg param ⟨ty, typed, assignable⟩
  exact ⟨ty, typed, keeps.isAssignable grows assignable⟩

theorem Holds.passes {tree : Tree} {branch : Branch} {environment : Environment} {member : Member}
    (holds : tree.Holds branch) (passes : branch.Passes environment member) :
    tree.Passes environment member branch.id := by
  refine ⟨holds.ty?_eq.trans passes.result, ?_⟩
  obtain ⟨lengths, assignable⟩ := List.forall₂_iff_zip.mp passes.arguments
  rw [holds.arguments_eq, List.forall₂_map_left_iff, List.forall₂_iff_zip]
  refine ⟨lengths, ?_⟩
  intro arg param member
  obtain ⟨ty, typed, assignable⟩ := assignable member
  have holdsArg := holds.argument (List.of_mem_zip member).1
  exact ⟨ty, holdsArg.ty?_eq.trans typed, assignable⟩

/-- In a checked tree a call of a member without variables has the result type of the member, and
its arguments were assignable to the parameters in the environment in which it got its type, as the
log of the check tells. They still are, where no supertype was declared anew since then. -/
theorem check_passes {environment : Environment} {source : Option String} {stored : StoredNode}
    {outcome : Outcome} {root id : NodeId} {member : MemberId} (built : environment.Built)
    (checked : (ofStored source stored).check environment = .ok outcome)
    (isRoot : outcome.tree.root = some root) (reaches : outcome.tree.Reaches root id)
    (calls : (outcome.tree.binding id).callee? (outcome.tree.tag id) = some member)
    (plain : (outcome.environment.registry.member member).vars = [])
    (fixed : (outcome.environment.registry.member member).isVariadic = false) :
    ∃ events between, (ofStored source stored).checkLogged environment = .ok (outcome, events) ∧
      .typed id between ∈ events ∧
      environment.Leads between ∧ between.Leads outcome.environment ∧
      outcome.tree.Passes between (outcome.environment.registry.member member) id ∧
      (between.Keeps outcome.environment →
        outcome.tree.Passes outcome.environment
          (outcome.environment.registry.member member) id) := by
  have allows : ∀ node ∈ stored.all, Premise.nothing.Allows node :=
    fun node _ => Premise.allows_nothing node
  have settles := check_settles allows source (.inl rfl) environment
  rw [checked] at settles
  obtain ⟨events, top, logged, settles⟩ := settles
  obtain ⟨inner, below, rfl, holds, settled⟩ := settles.reached isRoot reaches
  rw [holds.binding_eq, holds.tag_eq] at calls
  cases settled with
  | idle idle =>
      rw [idle.unbound] at calls
      simp [Binding.callee?] at calls
  | @checked _ _ _ moment before after facts _ dated =>
      obtain ⟨bound, takes⟩ := facts.takes (built.leads before) calls
      have same : outcome.environment.registry.member member =
          moment.environment.registry.member member :=
        after.environment.grows.registry.member_eq bound
      rw [same] at plain fixed ⊢
      have passes := holds.passes (takes plain fixed)
      have isDated : below.node.isDated = true := by simp [Node.isDated, calls]
      exact ⟨events, moment.environment, logged, dated isDated events rfl, before, after.environment,
        passes, fun keeps => passes.keep keeps after.environment.grows⟩

end Tree

/-- A dog is fed as an animal, and then the farm is imported. -/
def StoredNode.feeding : StoredNode :=
  let word (text : String) := mk (some .name) .name (some text) .nowhere []
  let dog := mk none .apply none .nowhere [word "dog"]
  mk none .source none .nowhere [
    mk none .apply none .nowhere [word "feed", mk (some .param) .list none .nowhere [dog]],
    mk none .importDecl none .nowhere [word "farm"]]

namespace Tree

/-- What is left of the call `feed(dog())`. -/
theorem feeding_outcome : ∃ outcome, (ofStored none .feeding).check .zoo = .ok outcome ∧
    outcome.tree.root = some 0 ∧ outcome.tree.Reaches 0 1 ∧
    (outcome.tree.binding 1).callee? (outcome.tree.tag 1) = some 198 ∧
    (outcome.environment.registry.member 198).vars = [] ∧
    (outcome.environment.registry.member 198).isVariadic = false ∧
    ¬ outcome.tree.Passes outcome.environment (outcome.environment.registry.member 198) 1 := by
  let test (outcome : Outcome) : Bool := decide (
    outcome.tree.root = some 0 ∧ 1 ∈ outcome.tree.childIds 0 ∧
    (outcome.tree.binding 1).callee? (outcome.tree.tag 1) = some 198 ∧
    (outcome.environment.registry.member 198).vars = [] ∧
    (outcome.environment.registry.member 198).isVariadic = false ∧
    ¬ List.Forall₂ (fun arg param => ∃ ty ∈ outcome.tree.ty? arg,
      outcome.environment.isAssignable param ty = true) (outcome.tree.arguments 1)
        (outcome.environment.registry.member 198).params)
  have run : ((ofStored none .feeding).check .zoo).toOption.any test = true := by decide +kernel
  obtain ⟨outcome, checked, holds⟩ := exists_outcome run
  obtain ⟨isRoot, below, calls, plain, fixed, fails⟩ := of_decide_eq_true holds
  exact ⟨outcome, checked, isRoot, .step below (.refl 1), calls, plain, fixed,
    fun passes => fails passes.arguments⟩

theorem check_passes_feeding : ∃ outcome events between,
    (ofStored none .feeding).checkLogged .zoo = .ok (outcome, events) ∧
    .typed 1 between ∈ events ∧
    outcome.tree.Passes between (outcome.environment.registry.member 198) 1 := by
  obtain ⟨outcome, checked, isRoot, reaches, calls, plain, fixed, _⟩ := feeding_outcome
  obtain ⟨events, between, logged, typed, _, _, passes, _⟩ :=
    check_passes Environment.zoo_built checked isRoot reaches calls plain fixed
  exact ⟨outcome, events, between, logged, typed, passes⟩

/-- In the last environment the arguments need not be assignable: the farm took the supertype of
dogs away. -/
theorem not_passes_feeding : ¬ ∀ (environment : Environment) (source : Option String)
    (stored : StoredNode) (outcome : Outcome) (root id : NodeId) (member : MemberId),
    environment.Built → (ofStored source stored).check environment = .ok outcome →
    outcome.tree.root = some root → outcome.tree.Reaches root id →
    (outcome.tree.binding id).callee? (outcome.tree.tag id) = some member →
    (outcome.environment.registry.member member).vars = [] →
    (outcome.environment.registry.member member).isVariadic = false →
    outcome.tree.Passes outcome.environment (outcome.environment.registry.member member) id := by
  intro claim
  obtain ⟨outcome, checked, isRoot, reaches, calls, plain, fixed, fails⟩ := feeding_outcome
  exact fails (claim .zoo none .feeding outcome 0 1 198 Environment.zoo_built checked isRoot reaches
    calls plain fixed)

end Tree

end ScriptTyping
