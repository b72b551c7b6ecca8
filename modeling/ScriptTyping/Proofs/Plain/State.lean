import ScriptTyping.Proofs.Environment.Coercion
import ScriptTyping.Proofs.Plain.Types
import ScriptTyping.Proofs.Syntax.Region
import ScriptTyping.Syntax.Stored

/-!
States of checking whose types have no variables: those of the nodes and their bindings, of the
globals and of the open scopes.
-/

namespace ScriptTyping

open Ty (AllPlain)

/-! ### Trees -/

def Binding.Plain : Binding → Prop
  | .invoke _ _ typeArgs => AllPlain typeArgs
  | .construct construction =>
    construction.owner.Plain ∧ AllPlain construction.params ∧ AllPlain construction.typeArgs
  | _ => True

theorem Binding.plain_static (member : MemberId) : (static member).Plain :=
  fun _ absent => absurd absent List.not_mem_nil

theorem Resolution.Plain.construction {resolution : Resolution} (plain : resolution.Plain) :
    (Binding.construct resolution.construction).Plain :=
  ⟨plain.result, plain.params, plain.typeArgs⟩

structure Node.Plain (node : Node) : Prop where
  ty : ∀ ty, node.ty = some ty → ty.Plain
  binding : node.binding.Plain

theorem Node.Plain.same {node other : Node} (plain : node.Plain) (ty : other.ty = node.ty)
    (binding : other.binding = node.binding) : other.Plain :=
  ⟨fun found isFound => plain.ty found (ty ▸ isFound), by rw [binding]; exact plain.binding⟩

theorem Node.plain_of_blank {node : Node} (ty : node.ty = none) (binding : node.binding = .unbound) :
    node.Plain :=
  ⟨fun _ isFound => by simp [ty] at isFound, by rw [binding]; trivial⟩

def Tree.Plain (tree : Tree) : Prop := ∀ id, (tree.get id).Plain

namespace Tree

variable {tree : Tree} {node : Node} {id : NodeId} {change : Node → Node} {ty : Ty}

theorem Plain.alloc (plain : tree.Plain) (isPlain : node.Plain) : (tree.alloc node).2.Plain := by
  intro position
  by_cases isNew : position = tree.nodes.size
  · rw [isNew, get_alloc_new]
    exact isPlain
  · rw [tree.get_alloc_other node isNew]
    exact plain position

theorem Plain.modify (plain : tree.Plain) (keeps : (tree.get id).Plain → (change (tree.get id)).Plain) :
    (tree.modify id change).Plain := by
  intro position
  by_cases here : position = id ∧ position < tree.nodes.size
  · obtain ⟨rfl, bound⟩ := here
    rw [tree.get_modify_self change bound]
    exact keeps (plain position)
  · rw [get_modify_unchanged here]
    exact plain position

theorem Plain.arrange (plain : tree.Plain) (ty : ∀ node, (change node).ty = node.ty)
    (binding : ∀ node, (change node).binding = node.binding) : (tree.modify id change).Plain :=
  plain.modify fun isPlain => isPlain.same (ty _) (binding _)

/-! ### Children -/

theorem Plain.replaceAt (plain : tree.Plain) (id : NodeId) (index : Nat) (child : NodeId) :
    (tree.replaceAt id index child).Plain :=
  plain.arrange (fun _ => rfl) fun _ => rfl

theorem Plain.pushChild (plain : tree.Plain) (id : NodeId) (label : Option Label) (child : NodeId) :
    (tree.pushChild id label child).Plain :=
  plain.arrange (fun _ => rfl) fun _ => rfl

theorem Plain.setChild (plain : tree.Plain) (id : NodeId) (label : Label) (child : NodeId) :
    (tree.setChild id label child).Plain := by
  refine plain.arrange (fun node => ?_) fun node => ?_
  · cases found : node.indexOf? label <;> simp [Node.setChild, found, Node.replaceAt, Node.push]
  · cases found : node.indexOf? label <;> simp [Node.setChild, found, Node.replaceAt, Node.push]

theorem Plain.relabel (plain : tree.Plain) (id : NodeId) (old new : Label) :
    (tree.relabel id old new).Plain := by
  refine plain.arrange (fun node => ?_) fun node => ?_
  · cases found : node.indexOf? old <;> simp [Node.relabel, found]
  · cases found : node.indexOf? old <;> simp [Node.relabel, found]

theorem Plain.removeChild (plain : tree.Plain) (id : NodeId) (label : Label) :
    (tree.removeChild id label).Plain := by
  refine plain.arrange (fun node => ?_) fun node => ?_
  · cases found : node.indexOf? label <;> simp [Node.removeChild, found]
  · cases found : node.indexOf? label <;> simp [Node.removeChild, found]

theorem Plain.make (plain : tree.Plain) (id : NodeId) (children : List (Label × NodeId)) :
    (tree.make id children).Plain :=
  plain.arrange (fun _ => rfl) fun _ => rfl

theorem Plain.flatten (plain : tree.Plain) (id : NodeId) (items : List NodeId) :
    (tree.flatten id items).Plain :=
  plain.arrange (fun _ => rfl) fun _ => rfl

theorem Plain.setTag (plain : tree.Plain) (id : NodeId) (tag : Tag) : (tree.setTag id tag).Plain :=
  plain.arrange (fun _ => rfl) fun _ => rfl

theorem Plain.markDone (plain : tree.Plain) (id : NodeId) : (tree.markDone id).Plain :=
  plain.arrange (fun _ => rfl) fun _ => rfl

/-! ### Types and bindings -/

theorem Plain.setType (plain : tree.Plain) (id : NodeId) (isPlain : ty.Plain) :
    (tree.setType id ty).Plain :=
  plain.modify fun old => ⟨fun _ isTy => Option.some.inj isTy ▸ isPlain, old.binding⟩

theorem Plain.setBinding (plain : tree.Plain) (id : NodeId) {binding : Binding}
    (isPlain : binding.Plain) : (tree.setBinding id binding).Plain :=
  plain.modify fun old => ⟨old.ty, isPlain⟩

theorem Plain.setConst (plain : tree.Plain) (id : NodeId) (isPlain : ty.Plain) (value : Const) :
    (tree.setConst id ty value).Plain :=
  plain.modify fun _ => ⟨fun _ isTy => Option.some.inj isTy ▸ isPlain, trivial⟩

/-! ### New nodes -/

theorem Plain.branch (plain : tree.Plain) (tag : Tag) (children : List Child) :
    (tree.branch tag children).2.Plain :=
  plain.alloc (Node.plain_of_blank rfl rfl)

theorem Plain.sequence (plain : tree.Plain) (tag : Tag) (items : List NodeId) :
    (tree.sequence tag items).2.Plain :=
  plain.branch tag _

theorem Plain.labelled (plain : tree.Plain) (tag : Tag) (children : List (Label × NodeId)) :
    (tree.labelled tag children).2.Plain :=
  plain.branch tag _

theorem Plain.argumentList (plain : tree.Plain) (id : NodeId) (label : Label) :
    (tree.argumentList id label).2.Plain := by
  have wrapped (items : List NodeId) : ((tree.sequence .list items).2.setChild id label
      (tree.sequence .list items).1).Plain :=
    (plain.sequence .list items).setChild id label _
  unfold Tree.argumentList
  cases tree.child? id label with
  | none => exact wrapped []
  | some child =>
      dsimp only
      split
      · exact plain
      · exact wrapped [child]

theorem Plain.convert (plain : tree.Plain) (id : NodeId) (tag : Tag) (isPlain : ty.Plain)
    {binding : Binding} (bound : binding.Plain) : (tree.convert id tag ty binding).2.Plain :=
  plain.alloc ⟨fun _ isTy => Option.some.inj isTy ▸ isPlain, bound⟩

theorem Plain.ofError (plain : tree.Plain) (error : CheckError) :
    (Failure.ofError tree error).2.Plain :=
  plain.alloc ⟨fun _ isTy => Option.some.inj isTy ▸ rfl, trivial⟩

theorem Plain.enforce (plain : tree.Plain) (environment : Environment) (id : NodeId)
    (isPlain : ty.Plain) : (environment.enforce tree id ty).2.Plain := by
  rcases environment.enforce_cases tree id ty with
    ⟨_, run⟩ | ⟨_, _, run⟩ | ⟨_, _, justified, _, run⟩ | ⟨_, _, run⟩ <;> rw [run]
  · exact plain
  · exact plain.setType id isPlain
  · cases justified with
    | up | down => exact plain.convert id _ isPlain trivial
    | cast => exact plain.convert id _ isPlain (Binding.plain_static _)
  · exact plain.ofError _

theorem Plain.copyChildren {depth : Nat} {top : NodeId} {children : List Child}
    (copies : ∀ {tree : Tree} (id : NodeId), tree.Plain → (Tree.copy depth tree id).2.Plain)
    (plain : tree.Plain) : (Tree.copyChildren depth tree top children).Plain := by
  induction children generalizing tree with
  | nil =>
      rw [Tree.copyChildren]
      exact plain
  | cons child rest ih =>
      rw [Tree.copyChildren]
      exact ih ((copies child.node plain).pushChild top _ _)

theorem Plain.copy (plain : tree.Plain) (depth : Nat) (id : NodeId) :
    (Tree.copy depth tree id).2.Plain := by
  induction depth generalizing tree id with
  | zero =>
      rw [Tree.copy]
      exact plain.alloc (Node.plain_of_blank rfl rfl)
  | succ depth ih =>
      rw [Tree.copy]
      exact .copyChildren (fun id isPlain => ih isPlain id)
        (plain.alloc (Node.plain_of_blank rfl rfl))

theorem Plain.dup (plain : tree.Plain) (id : NodeId) : (tree.dup id).2.Plain := plain.copy _ id

/-! ### Stored trees -/

mutual

theorem Plain.load : {tree : Tree} → tree.Plain → (stored : StoredNode) → (tree.load stored).2.Plain
  | _, plain, .mk _ tag text span children => by
    rw [Tree.load]
    exact Plain.loadChildren (plain.alloc (Node.plain_of_blank rfl rfl)) _ children

theorem Plain.loadChildren : {tree : Tree} → tree.Plain → (parent : NodeId) →
    (stored : List StoredNode) → (tree.loadChildren parent stored).Plain
  | _, plain, parent, [] => by
    rw [Tree.loadChildren]
    exact plain
  | _, plain, parent, first :: rest => by
    rw [Tree.loadChildren]
    exact Plain.loadChildren ((Plain.load plain first).pushChild parent _ _) parent rest

end

theorem ofStored_plain (source : Option String) (stored : StoredNode) :
    (ofStored source stored).Plain := by
  have empty : ({ source } : Tree).Plain := fun _ => Node.plain_of_blank rfl rfl
  exact empty.load stored

end Tree

/-! ### Environments and scopes -/

def Environment.Plain (environment : Environment) : Prop :=
  ∀ global ∈ environment.globals, global.ty.Plain

namespace Environment

variable {environment : Environment}

theorem Plain.global (plain : environment.Plain) {name : String} {id : GlobalId}
    (found : environment.globalId? name = some id) : (environment.global id).ty.Plain := by
  obtain ⟨bound, _⟩ := Array.findIdx?_eq_some_iff_getElem.mp found
  rw [Environment.global, Array.getElem?_eq_getElem bound, Option.getD_some]
  exact plain _ (Array.getElem_mem bound)

theorem Plain.declareGlobal (plain : environment.Plain) {next : Environment} {name : String} {ty : Ty}
    {id : GlobalId} (isPlain : ty.Plain)
    (declared : environment.declareGlobal name ty = .ok (next, id)) : next.Plain := by
  unfold Environment.declareGlobal at declared
  split at declared
  · simp only at declared
    split at declared
    · rw [← (Prod.mk.inj (Except.ok.inj declared)).1]
      exact plain
    · cases declared
  · rw [← (Prod.mk.inj (Except.ok.inj declared)).1]
    intro global member
    rcases Array.mem_push.mp member with isOld | rfl
    · exact plain global isOld
    · exact isPlain

theorem Plain.importNamespace (plain : environment.Plain) (path : String) :
    (environment.importNamespace path).1.Plain := by
  rw [Plain, globals_importNamespace]
  exact plain

end Environment

def Block.Plain (block : Block) : Prop := ∀ name ty, block.get? name = some ty → ty.Plain

theorem Block.plain_empty : Block.Plain {} := fun _ _ found => by simp at found

theorem Block.Plain.insert {block : Block} (plain : Block.Plain block) (name : String) {ty : Ty}
    (isPlain : ty.Plain) : Block.Plain (block.insert name ty) := by
  intro other found isFound
  rw [Table.get?_insert] at isFound
  split at isFound
  · exact Option.some.inj isFound ▸ isPlain
  · exact plain other found isFound

structure FunctionScope.Plain (scope : FunctionScope) : Prop where
  paramTypes : AllPlain scope.paramTypes
  params : Block.Plain scope.params
  blocks : ∀ block ∈ scope.blocks, Block.Plain block
  returnType : ∀ ty, scope.returnType = some ty → ty.Plain

structure ScopeStack.Plain (scopes : ScopeStack) : Prop where
  functions : ∀ scope ∈ scopes.functions, scope.Plain
  toplevel : ∀ block ∈ scopes.toplevel, Block.Plain block

namespace ScopeStack

variable {scopes closed : ScopeStack} {scope : FunctionScope} {ty : Ty}

theorem plain_empty : ({} : ScopeStack).Plain :=
  ⟨fun _ absent => absurd absent List.not_mem_nil, fun _ absent => absurd absent List.not_mem_nil⟩

/-- The innermost function is changed. -/
theorem Plain.withFunction {outer : List FunctionScope} {toplevel : List Block}
    (plain : Plain ⟨scope :: outer, toplevel⟩) {later : FunctionScope} (isPlain : later.Plain) :
    Plain ⟨later :: outer, toplevel⟩ :=
  ⟨List.forall_mem_cons.mpr ⟨isPlain, (List.forall_mem_cons.mp plain.functions).2⟩, plain.toplevel⟩

theorem Plain.first {outer : List FunctionScope} {toplevel : List Block}
    (plain : Plain ⟨scope :: outer, toplevel⟩) : scope.Plain :=
  plain.functions scope List.mem_cons_self

theorem Plain.enterFunction (plain : scopes.Plain) (name : String) :
    (scopes.enterFunction name).Plain := by
  refine ⟨List.forall_mem_cons.mpr ⟨?_, plain.functions⟩, plain.toplevel⟩
  exact ⟨fun _ absent => absurd absent List.not_mem_nil, Block.plain_empty,
    fun _ absent => absurd absent List.not_mem_nil, fun _ none => nomatch none⟩

theorem Plain.exitFunction (plain : scopes.Plain)
    (exits : scopes.exitFunction = .ok (scope, closed)) : scope.Plain ∧ closed.Plain := by
  obtain ⟨functions, toplevel⟩ := scopes
  cases functions with
  | nil => cases exits
  | cons first outer =>
      cases exits
      exact ⟨plain.first, (List.forall_mem_cons.mp plain.functions).2, plain.toplevel⟩

theorem Plain.setParams (plain : scopes.Plain) {params : List (String × Ty)}
    (each : AllPlain (params.map (·.2))) : (scopes.setParams params).Plain := by
  obtain ⟨functions, toplevel⟩ := scopes
  cases functions with
  | nil => exact plain
  | cons first outer =>
      have filled : ∀ block, Block.Plain block →
          Block.Plain (params.foldl (fun block param => block.insert param.1 param.2) block) := by
        clear plain
        induction params with
        | nil => exact fun _ isPlain => isPlain
        | cons param rest ih =>
            intro block isPlain
            obtain ⟨isParam, others⟩ := List.forall_mem_cons.mp each
            exact ih others _ (isPlain.insert _ isParam)
      exact plain.withFunction ⟨each, filled _ plain.first.params, plain.first.blocks,
        plain.first.returnType⟩

theorem Plain.beginBlock (plain : scopes.Plain) : scopes.beginBlock.Plain := by
  obtain ⟨functions, toplevel⟩ := scopes
  cases functions with
  | nil => exact ⟨plain.functions, List.forall_mem_cons.mpr ⟨Block.plain_empty, plain.toplevel⟩⟩
  | cons first outer =>
      obtain ⟨paramTypes, params, blocks, returnType⟩ := plain.first
      exact plain.withFunction
        ⟨paramTypes, params, List.forall_mem_cons.mpr ⟨Block.plain_empty, blocks⟩, returnType⟩

theorem Plain.endBlock (plain : scopes.Plain) (ends : scopes.endBlock = .ok closed) :
    closed.Plain := by
  obtain ⟨functions, toplevel⟩ := scopes
  cases functions with
  | nil =>
      cases toplevel with
      | nil => cases ends
      | cons block blocks =>
          cases ends
          exact ⟨plain.functions, (List.forall_mem_cons.mp plain.toplevel).2⟩
  | cons first outer =>
      obtain ⟨name, parent, paramTypes, params, blocks, returnType⟩ := first
      cases blocks with
      | nil => cases ends
      | cons block blocks =>
          cases ends
          have isPlain := plain.first
          exact plain.withFunction ⟨isPlain.paramTypes, isPlain.params,
            (List.forall_mem_cons.mp isPlain.blocks).2, isPlain.returnType⟩

theorem Plain.declare (plain : scopes.Plain) (name : String) (isPlain : ty.Plain) :
    (scopes.declare name ty).Plain := by
  obtain ⟨functions, toplevel⟩ := scopes
  cases functions with
  | nil =>
      cases toplevel with
      | nil => exact plain
      | cons block blocks =>
          obtain ⟨first, others⟩ := List.forall_mem_cons.mp plain.toplevel
          exact ⟨plain.functions, List.forall_mem_cons.mpr ⟨first.insert name isPlain, others⟩⟩
  | cons first outer =>
      have inner := plain.first
      obtain ⟨scopeName, parent, paramTypes, params, blocks, returnType⟩ := first
      cases blocks with
      | nil =>
          exact plain.withFunction
            ⟨inner.paramTypes, inner.params.insert name isPlain, inner.blocks, inner.returnType⟩
      | cons block blocks =>
          obtain ⟨innermost, others⟩ := List.forall_mem_cons.mp inner.blocks
          exact plain.withFunction ⟨inner.paramTypes, inner.params,
            List.forall_mem_cons.mpr ⟨innermost.insert name isPlain, others⟩, inner.returnType⟩

theorem Plain.setReturnType (plain : scopes.Plain) (isPlain : ty.Plain) :
    (scopes.setReturnType ty).Plain := by
  obtain ⟨functions, toplevel⟩ := scopes
  cases functions with
  | nil => exact plain
  | cons first outer =>
      have inner := plain.first
      refine plain.withFunction ⟨inner.paramTypes, inner.params, inner.blocks, fun found isFound => ?_⟩
      cases fixed : first.returnType with
      | none =>
          simp only [fixed, Option.none_or, Option.some.injEq] at isFound
          exact isFound ▸ isPlain
      | some old =>
          simp only [fixed, Option.some_or, Option.some.injEq] at isFound
          exact isFound ▸ inner.returnType old fixed

theorem Plain.current? (plain : scopes.Plain) (found : scopes.current? = some scope) : scope.Plain :=
  plain.functions scope (List.mem_of_mem_head? found)

theorem Plain.returnType? (plain : scopes.Plain) (found : scopes.returnType? = some ty) :
    ty.Plain := by
  obtain ⟨scope, isScope, fixed⟩ := Option.bind_eq_some_iff.mp found
  exact (plain.current? isScope).returnType ty fixed

theorem Plain.varType? (plain : scopes.Plain) {name : String}
    (found : scopes.varType? name = some ty) : ty.Plain := by
  obtain ⟨block, visible, isTy⟩ := List.exists_of_findSome?_eq_some found
  obtain ⟨functions, toplevel⟩ := scopes
  cases functions with
  | nil => exact plain.toplevel block visible name ty isTy
  | cons first outer =>
      rcases List.mem_append.mp visible with inside | isParams
      · exact plain.first.blocks block inside name ty isTy
      · rw [List.mem_singleton.mp isParams] at isTy
        exact plain.first.params name ty isTy

end ScopeStack

structure CheckState.Plain (state : CheckState) : Prop where
  tree : state.tree.Plain
  environment : state.environment.Plain
  scopes : state.scopes.Plain

end ScriptTyping
