import ScriptTyping.Proofs.Outcome.Calls
import ScriptTyping.Proofs.Registry.Enlarging

/-!
Calls in a checked tree that are looked up when the script runs: reads and stores of dynamic fields,
calls of methods of dynamic values and of functions of unknown type. All children of such a node are
arguments, and a tree without errors gives each call what its member takes.
-/

namespace ScriptTyping

/-! ### The members -/

namespace RuntimeMember

def IsDispatch (most : Nat) (hint : Hint) (member : MemberId) : Prop :=
  match hint with
  | .staticInvocation => member = fieldGetter ∨ member = fieldSetter ∨
      ∃ arity, functionInvoker? most arity = some member
  | .dynamicInvocation => ∃ arity, dynamicInvoker? most arity = some member
  | _ => False

section Dispatches

variable {most : Nat} {hint : Hint} {member : MemberId} {params : List Ty} {result : Ty}

theorem IsDispatch.dispatches (isDispatch : IsDispatch most hint member) :
    ∃ params result, Dispatches most hint member params result := by
  cases hint with
  | staticInvocation =>
      rcases isDispatch with rfl | rfl | ⟨arity, isAt⟩
      · exact ⟨_, _, .getField⟩
      · exact ⟨_, _, .setField⟩
      · exact ⟨_, _, .invokeFunction isAt⟩
  | dynamicInvocation =>
      obtain ⟨arity, isAt⟩ := isDispatch
      exact ⟨_, _, .invokeDynamic isAt⟩
  | _ => exact isDispatch.elim

theorem IsDispatch.not_lookup (isDispatch : IsDispatch most hint member) :
    hint ∉ [Hint.apply, .methodApply] := by
  intro isLookup
  rcases List.mem_pair.mp isLookup with rfl | rfl <;> exact isDispatch

/-- Each of these members is registered with the parameters and the result that its calls have. -/
theorem Dispatches.found (dispatches : Dispatches most hint member params result) :
    ∃ name ∈ ["getField", "setField", "invokeFunction", "invokeDynamic"],
      (Builtin.registry most).members[member]? = some (Builtin.runtimeMethod name params result) ∧
        (name ≠ "invokeFunction" → params.head? = some .dynamic) := by
  cases dispatches with
  | getField => exact ⟨"getField", by simp, Builtin.found_runtime most 1, fun _ => rfl⟩
  | setField => exact ⟨"setField", by simp, Builtin.found_runtime most 2, fun _ => rfl⟩
  | @invokeFunction arity _ isAt =>
      obtain ⟨inRange, isPlace⟩ := Option.ite_none_right_eq_some.mp isAt
      obtain rfl := Option.some.inj isPlace
      refine ⟨"invokeFunction", by simp, ?_, fun other => absurd rfl other⟩
      rw [show assertion + 7 + 2 * arity = assertion + 6 + (2 * arity + 1) from
        Nat.succ_add_eq_add_succ (assertion + 6) (2 * arity)]
      exact Builtin.found_invoker inRange Nat.one_lt_two
  | @invokeDynamic arity _ isAt =>
      obtain ⟨inRange, isPlace⟩ := Option.ite_none_right_eq_some.mp isAt
      obtain rfl := Option.some.inj isPlace
      exact ⟨"invokeDynamic", by simp, Builtin.found_invoker inRange Nat.two_pos, fun _ => rfl⟩

end Dispatches

end RuntimeMember

theorem Registry.supertype?_addTypes {registry : Registry} {typeDefs : List TypeDef} {name : String}
    (registered : ∀ sub, registry.supertype? sub ≠ some name)
    (added : ∀ typeDef ∈ typeDefs, typeDef.supertype ≠ some name) (sub : String) :
    (registry.addTypes typeDefs).supertype? sub ≠ some name := by
  induction typeDefs generalizing registry with
  | nil => exact registered sub
  | cons typeDef rest ih =>
      refine ih (fun other => ?_) fun other member => added other (List.mem_cons_of_mem _ member)
      rw [Registry.supertype?, Registry.type?, Registry.addType, Table.get?_insert]
      split
      · exact added typeDef List.mem_cons_self
      · exact registered other

namespace Environment

variable {environment next : Environment} {name : String} {hint : Hint} {id : MemberId}

theorem Built.isDispatcher (built : environment.Built)
    (isDispatch : RuntimeMember.IsDispatch environment.options.maxInvokeArity hint id) :
    (environment.registry.member id).isDispatcher = true ∧
      (environment.registry.member id).owner = "Runtime" := by
  obtain ⟨params, result, dispatches⟩ := isDispatch.dispatches
  obtain ⟨name, isName, found, _⟩ := dispatches.found
  obtain ⟨_, same⟩ := built.builtin_member found
  rw [same]
  refine ⟨?_, rfl⟩
  simpa [Member.isDispatcher, Builtin.runtimeMethod] using isName

/-! ### A name that no type extends -/

/-- Whether no registered type and no type of a namespace that can be imported has a supertype of
that name. This holds of every name that the namespaces do not use. -/
structure Unextended (environment : Environment) (name : String) : Prop where
  registered : ∀ sub, environment.registry.supertype? sub ≠ some name
  declared : ∀ path decl, environment.library.get? path = some decl →
    ∀ type ∈ decl.types, type.supertype ≠ some name

theorem Unextended.ofOptions (options : Options) (name : String) :
    (ofOptions options).Unextended name := by
  refine ⟨fun sub => ?_, fun path decl known => by simp [Environment.ofOptions] at known⟩
  have apart : ∀ typeDef ∈ Builtin.hostTypes, typeDef.supertype = none := by decide
  have declared := @Registry.supertype?_addTypes {} Builtin.hostTypes name
    (fun _ => (Option.some_ne_none name).symm)
    (fun typeDef member => by rw [apart typeDef member]; exact (Option.some_ne_none name).symm) sub
  rw [Environment.ofOptions, Builtin.registry, Registry.supertype?, Registry.type?,
    Registry.types_addMembers]
  exact declared

theorem Unextended.addNamespace (unextended : environment.Unextended name) {path : String}
    {decl : NamespaceDecl} (known : environment.library.get? path = some decl) (sub : String) :
    (environment.registry.addNamespace decl).1.supertype? sub ≠ some name := by
  have declared : ∀ typeDef ∈ decl.typeDefs, typeDef.supertype ≠ some name := by
    intro typeDef member
    obtain ⟨type, isType, rfl⟩ := List.mem_map.mp member
    exact unextended.declared path decl known type isType
  rw [Registry.addNamespace, Registry.supertype?, Registry.type?, Registry.types_addReadable]
  exact Registry.supertype?_addTypes unextended.registered declared sub

theorem Unextended.importNamespace (unextended : environment.Unextended name) (path : String) :
    (environment.importNamespace path).1.Unextended name := by
  have library := (environment.importNamespace_grows path).library
  refine ⟨?_, by rw [library]; exact unextended.declared⟩
  rcases environment.importNamespace_cases path with
    ⟨_, run⟩ | ⟨_, _, run⟩ | ⟨_, _, _, known, _, run⟩ | ⟨_, _, known, _, run⟩ <;> rw [run]
  · exact unextended.registered
  · exact unextended.registered
  · exact unextended.addNamespace known
  · exact unextended.addNamespace known

theorem Unextended.step (unextended : environment.Unextended name) (step : Step environment next) :
    next.Unextended name := by
  have library := step.grows.library
  cases step with
  | importNamespace path => exact unextended.importNamespace path
  | declareGlobal declared =>
      refine ⟨?_, by rw [library]; exact unextended.declared⟩
      rw [registry_declareGlobal declared]
      exact unextended.registered

theorem Unextended.leads (unextended : environment.Unextended name)
    (leads : environment.Leads next) : next.Unextended name := by
  induction leads with
  | refl => exact unextended
  | tail _ step ih => exact ih.step step

/-- The methods of a type that none extends are those of its own values only. -/
theorem Unextended.headName? (unextended : environment.Unextended name) {ty : Ty} {method : String}
    (isOwner : (environment.registry.member id).owner = name)
    (found : id ∈ environment.members ty method .method) : ty.headName? = some name := by
  unfold members at found
  split at found
  · rename_i head isHead
    have above := Registry.owner_of_mem_candidates found (by decide)
    rw [isHead, Registry.eq_of_mem_lineage unextended.registered (isOwner ▸ above)]
  · exact absurd found List.not_mem_nil

end Environment

/-! ### The calls of an outcome -/

namespace Tree

/-- Whether a node hands its children to the parameters of a member, one to each, and has its result
as its type. What is looked up by a name is looked up on a dynamic value. -/
structure Supplies (tree : Tree) (environment : Environment) (member : Member) (id : NodeId) :
    Prop where
  result : tree.ty? id = some member.result
  arguments : List.Forall₂ (fun child param => ∃ ty, tree.ty? child = some ty ∧
    environment.isAssignable param ty = true) (tree.childIds id) member.params
  receiver : member.name ≠ "invokeFunction" → ∃ first rest, tree.childIds id = first :: rest ∧
    tree.ty? first = some .dynamic

/-- Children that suit the types of parameters are assignable to them. -/
theorem Holds.arguments_assignable {tree : Tree} {branch : Branch} {environment : Environment}
    {params : List Ty} (holds : tree.Holds branch)
    (suits : List.Forall₂ Branch.Suits branch.kids params) :
    List.Forall₂ (fun child param => ∃ ty, tree.ty? child = some ty ∧
      environment.isAssignable param ty = true) (tree.childIds branch.id) params := by
  obtain ⟨lengths, suits⟩ := List.forall₂_iff_zip.mp suits
  rw [holds.childIds_eq, List.forall₂_map_left_iff, List.forall₂_iff_zip]
  refine ⟨lengths, fun inside => ?_⟩
  obtain ⟨ty, typed, assignable⟩ := @Branch.Suits.isAssignable environment _ _ (suits inside)
  exact ⟨ty, (holds.kid (List.of_mem_zip inside).1).ty?_eq.trans typed, assignable⟩

theorem Holds.supplies {tree : Tree} {branch : Branch} {environment : Environment} {name : String}
    {params : List Ty} {result : Ty} (holds : tree.Holds branch)
    (supplies : branch.Supplies params result)
    (names : name ≠ "invokeFunction" → params.head? = some .dynamic) :
    tree.Supplies environment (Builtin.runtimeMethod name params result) branch.id := by
  refine ⟨holds.ty?_eq.trans supplies.typed, holds.arguments_assignable supplies.suits,
    fun named => ?_⟩
  obtain ⟨receiver, word, arguments, isKids, isDynamic, _⟩ := supplies.names (names named)
  refine ⟨receiver.id, (word :: arguments).map Branch.id, ?_, ?_⟩
  · rw [holds.childIds_eq, isKids, List.map_cons]
  · exact (holds.kid (isKids ▸ List.mem_cons_self)).ty?_eq.trans isDynamic

/-- A call of the getter by its name whose receiver takes part in it as a child. -/
theorem Holds.strays {tree : Tree} {branch : Branch} {environment : Environment} {name : String}
    {member : MemberId} {applied : Hint} (holds : tree.Holds branch)
    (finds : branch.Finds environment applied member) (unextended : environment.Unextended name)
    (isDispatcher : (environment.registry.member member).isDispatcher = true)
    (isOwner : (environment.registry.member member).owner = name) :
    ∃ child ∈ tree.childIds branch.id, ∃ ty, tree.ty? child = some ty ∧
      ty.headName? = some name := by
  rcases finds with silent | ⟨_, kid, isKid, _, ty, method, typed, isMethod⟩
  · rw [isDispatcher] at silent
    cases silent
  · refine ⟨kid.id, ?_, ty, (holds.kid isKid).ty?_eq.trans typed,
      unextended.headName? isOwner isMethod⟩
    rw [holds.childIds_eq]
    exact List.mem_map_of_mem isKid

/-- In a tree that was checked without errors, what is looked up when the script runs gets what its
member takes, if no type of a namespace extends the owner of these members. A value of that type can
still come from a global, and an assignment to a call of its getter is bound like one to a dynamic
field, though it has more children. -/
theorem check_supplies {environment : Environment} {source : Option String} {stored : StoredNode}
    {outcome : Outcome} {root id : NodeId} {hint : Hint} {member : MemberId} {typeArgs : List Ty}
    (built : environment.Built) (reserved : environment.Unextended "Runtime")
    (checked : (ofStored source stored).check environment = .ok outcome)
    (silent : outcome.errors = []) (isRoot : outcome.tree.root = some root)
    (reaches : outcome.tree.Reaches root id)
    (bound : outcome.tree.binding id = .invoke hint (.member member) typeArgs)
    (isDispatch : RuntimeMember.IsDispatch environment.options.maxInvokeArity hint member) :
    outcome.tree.Supplies outcome.environment (outcome.environment.registry.member member) id ∨
      member = RuntimeMember.fieldSetter ∧ outcome.tree.tag id = .assign ∧
        ∃ child ∈ outcome.tree.childIds id, ∃ ty, outcome.tree.ty? child = some ty ∧
          ty.headName? = some "Runtime" := by
  have allows : ∀ node ∈ stored.all, Premise.nothing.Allows node :=
    fun node _ => Premise.allows_nothing node
  have settles := check_settles allows source (.inl rfl) environment
  rw [checked] at settles
  obtain ⟨events, top, logged, settles⟩ := settles
  obtain ⟨inner, below, rfl, holds, settled⟩ := settles.reached isRoot reaches
  rw [holds.binding_eq] at bound
  obtain ⟨moment, before, after, invokes⟩ := settled.invokes bound
  have options := before.grows.options
  rw [← options] at isDispatch
  have builtBetween := built.leads before
  obtain ⟨isDispatcher, _⟩ := builtBetween.isDispatcher isDispatch
  cases invokes with
  | @dispatched params result dispatches supplies =>
      obtain ⟨name, _, found, names⟩ := dispatches.found
      obtain ⟨inRange, isMember⟩ := builtBetween.builtin_member found
      have same : outcome.environment.registry.member member =
          Builtin.runtimeMethod name params result :=
        (after.environment.grows.registry.member_eq inRange).trans isMember
      refine .inl ?_
      rw [same]
      exact holds.supplies supplies names
  | found finds =>
      rcases finds with isSilent | ⟨isLookup, _⟩
      · rw [isDispatcher] at isSilent
        cases isSilent
      · exact absurd isLookup isDispatch.not_lookup
  | inert none =>
      obtain ⟨params, result, dispatches⟩ := isDispatch.dispatches
      exact absurd dispatches (none _ _ _)
  | stray isSetter isAssign finds =>
      have ofGetter : RuntimeMember.IsDispatch moment.environment.options.maxInvokeArity
          .staticInvocation RuntimeMember.fieldGetter := .inl rfl
      obtain ⟨isGetter, isOwner⟩ := builtBetween.isDispatcher ofGetter
      refine .inr ⟨isSetter, holds.tag_eq.trans isAssign, ?_⟩
      exact holds.strays finds (reserved.leads before) isGetter isOwner
  | loud isLoud => exact absurd (List.prefix_nil.mp (silent ▸ after.errors)) isLoud

end Tree

def Environment.scripted : Environment :=
  { ofOptions { maxInvokeArity := 2 } with
    globals := #[⟨"d", .dynamic⟩, ⟨"f", .callable⟩, ⟨"r", .host "Runtime"⟩] }

theorem Environment.leads_scripted : (ofOptions { maxInvokeArity := 2 }).Leads scripted := by
  let declared (globals : Array Global) : Environment :=
    { ofOptions { maxInvokeArity := 2 } with globals }
  have first : (declared #[]).declareGlobal "d" .dynamic = .ok (declared #[⟨"d", .dynamic⟩], 0) := by
    simp [declareGlobal, globalId?, declared]
  have second : (declared #[⟨"d", .dynamic⟩]).declareGlobal "f" .callable =
      .ok (declared #[⟨"d", .dynamic⟩, ⟨"f", .callable⟩], 1) := by
    simp [declareGlobal, globalId?, declared]
  have third : (declared #[⟨"d", .dynamic⟩, ⟨"f", .callable⟩]).declareGlobal "r" (.host "Runtime") =
      .ok (scripted, 2) := by
    simp [declareGlobal, globalId?, declared, scripted, List.findIdx?_cons]
  exact .tail (.tail (.tail .refl (.declareGlobal first)) (.declareGlobal second))
    (.declareGlobal third)

def Binding.invoked? : Binding → Option (Hint × MemberId)
  | .invoke hint (.member member) _ => some (hint, member)
  | _ => none

theorem Binding.eq_of_invoked {binding : Binding} {hint : Hint} {member : MemberId}
    (invoked : binding.invoked? = some (hint, member)) :
    ∃ typeArgs, binding = .invoke hint (.member member) typeArgs := by
  unfold invoked? at invoked
  split at invoked
  · rename_i typeArgs
    obtain ⟨rfl, rfl⟩ := Prod.mk.inj (Option.some.inj invoked)
    exact ⟨typeArgs, rfl⟩
  · cases invoked

namespace StoredNode

def word (label : Label) (text : String) : StoredNode := mk (some label) .name text .nowhere []

def lone (child : StoredNode) : StoredNode := mk (some .param) .list none .nowhere [child]

def scripting : StoredNode :=
  let field (label : Option Label) := mk label .field none .nowhere [word .recv "d", word .name "x"]
  let call := mk none .apply none .nowhere [word .name "f", lone (field none)]
  mk none .source none .nowhere [
    mk none .methodApply none .nowhere [word .recv "d", word .name "m", lone call],
    mk none .assign none .nowhere [field (some .left), mk (some .right) .integer "1" .nowhere []]]

/-- The assignment `r.getField(d, "x") = 1` to a written call. -/
def straying : StoredNode :=
  let arguments := mk (some .param) .list none .nowhere
    [mk none .name "d" .nowhere [], mk none .text "x" .nowhere []]
  mk none .source none .nowhere [mk none .assign none .nowhere [
    mk (some .left) .methodApply none .nowhere [word .recv "r", word .name "getField", arguments],
    mk (some .right) .integer "1" .nowhere []]]

end StoredNode

namespace Tree

theorem check_supplies_scripting : ∃ outcome,
    (ofStored none .scripting).check .scripted = .ok outcome ∧
      ∀ call ∈ [(1, 181), (5, 182), (8, RuntimeMember.fieldGetter), (11, RuntimeMember.fieldSetter)],
        outcome.tree.Supplies outcome.environment
          (outcome.environment.registry.member call.2) call.1 := by
  let test (outcome : Outcome) : Bool := decide (
    (outcome.tree.root = some 0 ∧ outcome.errors.length = 0) ∧
    (1 ∈ outcome.tree.childIds 0 ∧ 5 ∈ outcome.tree.childIds 1 ∧ 16 ∈ outcome.tree.childIds 5 ∧
      8 ∈ outcome.tree.childIds 16 ∧ 11 ∈ outcome.tree.childIds 0) ∧
    ((outcome.tree.binding 1).invoked? = some (.dynamicInvocation, 181) ∧
      (outcome.tree.binding 5).invoked? = some (.staticInvocation, 182) ∧
      (outcome.tree.binding 8).invoked? = some (.staticInvocation, RuntimeMember.fieldGetter) ∧
      (outcome.tree.binding 11).invoked? = some (.staticInvocation, RuntimeMember.fieldSetter)) ∧
    ∀ child ∈ outcome.tree.childIds 11, ∀ ty ∈ outcome.tree.ty? child,
      ty.headName? ≠ some "Runtime")
  have run : ((ofStored none .scripting).check .scripted).toOption.any test = true := by
    decide +kernel
  obtain ⟨outcome, checked, holds⟩ := exists_outcome run
  obtain ⟨⟨isRoot, noErrors⟩, ⟨isCall, isArgument, isBoxed, isRead, isStore⟩,
    ⟨callsMethod, callsFunction, getsField, setsField⟩, apart⟩ := of_decide_eq_true holds
  have silent : outcome.errors = [] := List.length_eq_zero_iff.mp noErrors
  have built := (Environment.Built.start { maxInvokeArity := 2 }).leads Environment.leads_scripted
  have reserved := (Environment.Unextended.ofOptions _ "Runtime").leads Environment.leads_scripted
  have supplies : ∀ {id hint member}, outcome.tree.Reaches 0 id →
      (outcome.tree.binding id).invoked? = some (hint, member) →
      RuntimeMember.IsDispatch 2 hint member →
      (member = RuntimeMember.fieldSetter → id = 11) →
      outcome.tree.Supplies outcome.environment (outcome.environment.registry.member member) id := by
    intro id hint member reaches invoked isDispatch isStore
    obtain ⟨typeArgs, bound⟩ := Binding.eq_of_invoked invoked
    rcases check_supplies built reserved checked silent isRoot reaches bound isDispatch with
      supplies | ⟨isSetter, _, child, isChild, ty, typed, isRuntime⟩
    · exact supplies
    · rw [isStore isSetter] at isChild
      exact absurd isRuntime (apart child isChild ty typed)
  have reaches : outcome.tree.Reaches 1 8 :=
    .step isArgument (.step isBoxed (.step isRead (.refl 8)))
  refine ⟨outcome, checked, ?_⟩
  simp only [List.forall_mem_cons, List.not_mem_nil, false_implies, implies_true, and_true]
  refine ⟨?_, ?_, ?_, ?_⟩
  · exact supplies (.step isCall (.refl 1)) callsMethod ⟨1, by decide⟩
      fun same => absurd same (by decide)
  · exact supplies (.step isCall (.step isArgument (.refl 5))) callsFunction
      (.inr (.inr ⟨1, by decide⟩)) fun same => absurd same (by decide)
  · exact supplies (.step isCall reaches) getsField (.inl rfl)
      fun same => absurd same (by decide)
  · exact supplies (.step isStore (.refl 11)) setsField (.inr (.inl rfl)) fun _ => rfl

/-- The call of the getter on a value of the runtime's type leaves the store five children. -/
theorem not_supplies_straying : ∃ outcome,
    (ofStored none .straying).check .scripted = .ok outcome ∧ outcome.errors = [] ∧
      (outcome.tree.root = some 0 ∧ outcome.tree.Reaches 0 1 ∧ outcome.tree.tag 1 = .assign) ∧
      (outcome.tree.binding 1).invoked? = some (.staticInvocation, RuntimeMember.fieldSetter) ∧
      ¬ outcome.tree.Supplies outcome.environment
        (outcome.environment.registry.member RuntimeMember.fieldSetter) 1 := by
  let test (outcome : Outcome) : Bool := decide (
    outcome.errors.length = 0 ∧
    (outcome.tree.root = some 0 ∧ 1 ∈ outcome.tree.childIds 0 ∧ outcome.tree.tag 1 = .assign) ∧
    (outcome.tree.binding 1).invoked? = some (.staticInvocation, RuntimeMember.fieldSetter) ∧
    (outcome.tree.childIds 1).length = 5 ∧
    (outcome.environment.registry.member RuntimeMember.fieldSetter).params.length = 3)
  have run : ((ofStored none .straying).check .scripted).toOption.any test = true := by
    decide +kernel
  obtain ⟨outcome, checked, holds⟩ := exists_outcome run
  obtain ⟨noErrors, ⟨isRoot, below, isAssign⟩, bound, children, params⟩ := of_decide_eq_true holds
  refine ⟨outcome, checked, List.length_eq_zero_iff.mp noErrors,
    ⟨isRoot, .step below (.refl 1), isAssign⟩, bound, fun supplies => ?_⟩
  have lengths := supplies.arguments.length_eq
  rw [children, params] at lengths
  exact absurd lengths (by decide)

end Tree

end ScriptTyping
