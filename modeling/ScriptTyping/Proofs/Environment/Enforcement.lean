import ScriptTyping.Proofs.Environment.Coercion
import ScriptTyping.Proofs.Syntax.Region

/-!
What bringing a checked node to a type does to the arena. It touches one place at most: the null
literal that takes the type, or a new node behind all others. The node that comes out has the type,
so that to bring it there again does nothing.
-/

namespace ScriptTyping

namespace Tree

structure Puts (old : Tree) (id : NodeId) (node : Node) (new : Tree) : Prop where
  get : new.get id = node
  others : ∀ position, position ≠ id → new.get position = old.get position
  size : new.nodes.size = max old.nodes.size (id + 1)
  root : new.root = old.root
  source : new.source = old.source

theorem alloc_puts (tree : Tree) (node : Node) :
    tree.Puts tree.nodes.size node (tree.alloc node).2 := by
  refine ⟨tree.get_alloc_new node, fun _ => tree.get_alloc_other node, ?_, rfl, rfl⟩
  rw [size_alloc]
  omega

theorem modify_puts {tree : Tree} {id : NodeId} (bound : id < tree.nodes.size)
    (change : Node → Node) : tree.Puts id (change (tree.get id)) (tree.modify id change) := by
  refine ⟨tree.get_modify_self change bound, fun _ => tree.get_modify_other change, ?_, rfl, rfl⟩
  rw [size_modify, Nat.max_eq_left bound]

theorem bound_of_ty? {tree : Tree} {id : NodeId} {ty : Ty} (typed : tree.ty? id = some ty) :
    id < tree.nodes.size := by
  by_contra beyond
  rw [ty?, get_beyond (Nat.not_lt.mp beyond)] at typed
  cases typed

structure Wraps (tree : Tree) (node : NodeId) (required : Ty) (wrapper : Node) : Prop where
  tag : wrapper.tag ∈ [.upCast, .downCast, .cast]
  done : wrapper.done = true
  ty : wrapper.ty = some required
  span : wrapper.span = tree.span node
  children : wrapper.children = [⟨some .expr, node⟩]

/-- What comes out when a node is brought to a type: the node with its type, the null literal with
another type, or a new node around it. -/
inductive Brings (tree : Tree) (node : NodeId) (required : Ty) : NodeId → Tree → Prop where
  | kept {ty : Ty} : tree.ty? node = some ty → (ty == required) = true ∨ ty = .never →
      Brings tree node required node tree
  | restamped {new : Tree} : tree.tag node = .nullValue → required.isReference = true →
      tree.Puts node { tree.get node with ty := some required } new →
      Brings tree node required node new
  | wrapped (wrapper : Node) {new : Tree} : tree.Wraps node required wrapper →
      tree.Puts tree.nodes.size wrapper new → Brings tree node required tree.nodes.size new

theorem Brings.typed {tree new : Tree} {node result : NodeId} {required : Ty}
    (brings : tree.Brings node required result new) :
    ∃ ty, new.ty? result = some ty ∧ ((ty == required) = true ∨ ty = .never) := by
  cases brings with
  | kept typed suits => exact ⟨_, typed, suits⟩
  | restamped _ _ puts => exact ⟨required, by rw [ty?, puts.get], .inl BEq.rfl⟩
  | wrapped wrapper wraps puts => exact ⟨required, by rw [ty?, puts.get, wraps.ty], .inl BEq.rfl⟩

theorem Brings.size {tree new : Tree} {node result : NodeId} {required : Ty}
    (brings : tree.Brings node required result new) : tree.nodes.size ≤ new.nodes.size := by
  cases brings with
  | kept => exact Nat.le_refl _
  | restamped _ _ puts => exact puts.size ▸ Nat.le_max_left ..
  | wrapped _ _ puts => exact puts.size ▸ Nat.le_max_left ..

theorem Brings.get_other {tree new : Tree} {node result position : NodeId} {required : Ty}
    (brings : tree.Brings node required result new) (bound : position < tree.nodes.size)
    (different : position ≠ node) : new.get position = tree.get position := by
  cases brings with
  | kept => rfl
  | restamped _ _ puts => exact puts.others position different
  | wrapped _ _ puts => exact puts.others position (Nat.ne_of_lt bound)

theorem brings_convert (tree : Tree) (node : NodeId) {tag : Tag} (required : Ty)
    (binding : Binding) (isTag : tag ∈ [.upCast, .downCast, .cast]) :
    tree.Brings node required (tree.convert node tag required binding).1
      (tree.convert node tag required binding).2 :=
  .wrapped { tag, span := _, children := _, ty := _, binding, done := true }
    ⟨isTag, rfl, rfl, rfl, rfl⟩ (tree.alloc_puts _)

end Tree

namespace Environment

variable {environment : Environment} {tree new : Tree} {node result : NodeId} {found required : Ty}

theorem enforce_of_typed (typed : tree.ty? node = some found)
    (suits : (found == required) = true ∨ found = .never) :
    environment.enforce tree node required = (.ok node, tree) := by
  have stays : (found == required || found.isNever) = true := by
    rcases suits with same | rfl
    · rw [same, Bool.true_or]
    · rw [Ty.isNever, Bool.or_true]
  simp only [enforce, typed, Option.getD_some, stays, if_true]

theorem enforce_brings (typed : tree.ty? node = some found)
    (accepted : environment.enforce tree node required = (.ok result, new)) :
    tree.Brings node required result new := by
  have cases := environment.enforce_cases tree node required
  simp only [typed, Option.getD_some] at cases
  rcases cases with ⟨suits, run⟩ | ⟨isNull, isReference, run⟩ | ⟨_, binding, justified, _, run⟩ |
    ⟨_, _, run⟩ <;> rw [run] at accepted <;> cases accepted
  · exact .kept typed (suits.imp_right Ty.eq_never_of_isNever)
  · have puts := Tree.modify_puts (Tree.bound_of_ty? typed)
      fun node => { node with ty := some required }
    exact .restamped isNull isReference puts
  · exact tree.brings_convert node required binding (by cases justified <;> decide)

theorem enforce_refuses {failure : Failure} (typed : tree.ty? node = some found)
    (refused : environment.enforce tree node required = (.error failure, new)) :
    failure.error = ⟨.typeMismatch required found, tree.span node⟩ ∧
      failure.replacement = tree.nodes.size ∧
      ∃ fresh, fresh.tag = .error ∧ tree.Puts tree.nodes.size fresh new := by
  have cases := environment.enforce_cases tree node required
  simp only [typed, Option.getD_some] at cases
  rcases cases with ⟨_, run⟩ | ⟨_, _, run⟩ | ⟨_, _, _, _, run⟩ | ⟨_, _, run⟩ <;>
    rw [run] at refused <;> cases refused
  exact ⟨rfl, rfl, _, rfl, tree.alloc_puts _⟩

/-- To bring a checked node to a type either gives the node, or a new conversion around it, of that
type or of type `never`, which the type does not change any more; or the type of the node does not
flow into the required one, which is what the failure says. The arena is the same elsewhere. -/
theorem enforce_effects (typed : tree.ty? node = some found) (required : Ty) :
    (∀ result new, environment.enforce tree node required = (.ok result, new) →
      tree.Brings node required result new ∧
      (∃ ty, new.ty? result = some ty ∧ ((ty == required) = true ∨ ty = .never)) ∧
      ∀ later : Environment, later.enforce new result required = (.ok result, new)) ∧
    ∀ failure new, environment.enforce tree node required = (.error failure, new) →
      environment.canCoerce found required = false ∧
      failure.error = ⟨.typeMismatch required found, tree.span node⟩ ∧
      failure.replacement = tree.nodes.size ∧
      ∃ fresh, fresh.tag = .error ∧ tree.Puts tree.nodes.size fresh new := by
  refine ⟨fun result new accepted => ?_, fun failure new refused =>
    ⟨?_, enforce_refuses typed refused⟩⟩
  · have brings := enforce_brings typed accepted
    obtain ⟨ty, isTy, suits⟩ := brings.typed
    exact ⟨brings, ⟨ty, isTy, suits⟩, fun later => enforce_of_typed isTy suits⟩
  · rw [← Bool.not_eq_true]
    intro coerces
    obtain ⟨result, accepted⟩ := (enforce_accepts_iff typed required).mpr (.inl coerces)
    rw [refused] at accepted
    cases accepted

/-- The number gets a conversion to `long` around it, which stays when it is brought to `long`
again. It is no `bool`. -/
theorem enforce_effects_literals :
    let environment : Environment := { registry := {} }
    literals.ty? 1 = some .int ∧
      (∃ new, environment.enforce literals 1 .long = (.ok 2, new) ∧
        literals.Brings 1 .long 2 new ∧ environment.enforce new 2 .long = (.ok 2, new)) ∧
      ∃ failure new, environment.enforce literals 1 .bool = (.error failure, new) ∧
        environment.canCoerce .int .bool = false ∧
        failure.error = ⟨.typeMismatch .bool .int, .nowhere⟩ := by
  intro environment
  have typed : literals.ty? 1 = some .int := rfl
  obtain ⟨accepts, _⟩ := environment.enforce_effects typed .long
  obtain ⟨_, refuses⟩ := environment.enforce_effects typed .bool
  refine ⟨typed, ?_, ?_⟩
  · obtain ⟨brings, _, again⟩ := accepts 2 _ rfl
    exact ⟨_, rfl, brings, again environment⟩
  · obtain ⟨misses, isError, _⟩ := refuses _ _ rfl
    exact ⟨_, _, rfl, misses, isError⟩

end Environment

end ScriptTyping
