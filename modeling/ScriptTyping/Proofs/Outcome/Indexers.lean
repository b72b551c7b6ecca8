import ScriptTyping.Proofs.Outcome.Dispatch

/-!
Indexers on dynamic values, and assignments to them. The runtime's member takes one index, but a
node hands it every index that was written.
-/

namespace ScriptTyping

namespace Tree

section Indexers

variable {tree loaded : Tree} {branch : Branch} {environment : Environment} {id indexer : NodeId}
  {hook : MemberId} {more : Nat} {source : Option String} {stored : StoredNode}

theorem tag_of_indexerOf? (found : tree.indexerOf? id = some indexer) :
    tree.tag indexer = .indexer := by
  unfold indexerOf? at found
  split at found
  · rename_i isTag
    exact Option.some.inj found ▸ isTag
  · exact of_decide_eq_true (Option.filter_eq_some_iff.mp found).2

/-- A stored node inside a loaded one is loaded as well. -/
theorem Holds.exists_stored (holds : tree.Holds branch) {node : StoredNode}
    (inside : node ∈ branch.stored.all) : ∃ inner, tree.Holds inner ∧ inner.stored = node := by
  induction branch using Branch.induction with
  | mk branch ih =>
      rw [StoredNode.all_eq, Branch.children_stored, List.mem_cons, List.mem_flatMap] at inside
      rcases inside with rfl | ⟨_, isChild, inside⟩
      · exact ⟨branch, holds, rfl⟩
      · obtain ⟨kid, member, rfl⟩ := List.mem_map.mp isChild
        exact ih kid member (holds.kid member) inside

/-- Whether a node takes a dynamic value, all index expressions of a loaded indexer and some more
children, all of them objects but the first. A node that was loaded is that indexer or assigns to
it; other nodes belong to a copy. -/
structure Spreads (tree loaded : Tree) (environment : Environment) (more : Nat)
    (id indexer : NodeId) : Prop where
  isIndexer : loaded.tag indexer = .indexer
  own : id < loaded.nodes.size → loaded.indexerOf? id = some indexer
  receiver : ∃ first rest, tree.childIds id = first :: rest ∧ tree.ty? first = some .dynamic
  arguments : List.Forall₂ (fun child param => ∃ ty, tree.ty? child = some ty ∧
      environment.isAssignable param ty = true) (tree.childIds id)
    (.dynamic :: List.replicate (loaded.argumentCount indexer + more) .object)

end Indexers

end Tree

def Premise.indexing (source : Option String) (stored : StoredNode) : Premise where
  plain := False
  lone := False
  tidy := False
  aside := fun _ => True
  indices := fun count => ∃ indexer, (Tree.ofStored source stored).tag indexer = .indexer ∧
    (Tree.ofStored source stored).argumentCount indexer = count
  loaded := .ofStored source stored

theorem Premise.allows_indexing (source : Option String) {stored node : StoredNode}
    (inside : node ∈ stored.all) : (indexing source stored).Allows node := by
  refine ⟨False.elim, False.elim, False.elim, fun _ _ => trivial, False.elim, fun _ => trivial,
    fun isTag => ?_⟩
  obtain ⟨top, _, stands, rfl, _⟩ := Tree.ofStored_stands source stored
  obtain ⟨inner, holds, rfl⟩ := stands.holds.exists_stored inside
  exact ⟨inner.id, holds.tag_eq.trans (inner.tag_stored.symm.trans isTag), holds.argumentCount_eq⟩

theorem Premise.Indexes.exists_indexer {source : Option String} {stored : StoredNode} {id : NodeId}
    {count : Nat} (indexes : (indexing source stored).Indexes id count) :
    let loaded := Tree.ofStored source stored
    ∃ indexer, loaded.tag indexer = .indexer ∧ loaded.argumentCount indexer = count ∧
      (id < loaded.nodes.size → loaded.indexerOf? id = some indexer) := by
  obtain ⟨⟨copied, isIndexer, isCount⟩, own⟩ := indexes
  by_cases isOld : id < (Tree.ofStored source stored).nodes.size
  · obtain ⟨indexer, found, isCount⟩ := Option.map_eq_some_iff.mp (own isOld)
    exact ⟨indexer, Tree.tag_of_indexerOf? found, isCount, fun _ => found⟩
  · exact ⟨copied, isIndexer, isCount, fun isNew => absurd isNew isOld⟩

/-- The runtime takes a dynamic value and one index, and what is stored. -/
theorem Environment.Built.params_of_hooks {environment : Environment} {tag : Tag} {hook : MemberId}
    {more : Nat} (built : environment.Built) (hooks : tag.Hooks hook more) :
    (environment.registry.member hook).params = .dynamic :: List.replicate (1 + more) .object := by
  let most := environment.options.maxInvokeArity
  cases hooks with
  | get =>
      have found : (Builtin.registry most).members[RuntimeMember.indexGetter]? =
          some (Builtin.runtimeMethod "getIndex" [.dynamic, .object] .dynamic) :=
        Builtin.found_runtime most 3
      rw [(built.builtin_member found).2]
      rfl
  | set =>
      have found : (Builtin.registry most).members[RuntimeMember.indexSetter]? =
          some (Builtin.runtimeMethod "setIndex" [.dynamic, .object, .object] .void) :=
        Builtin.found_runtime most 4
      rw [(built.builtin_member found).2]
      rfl

namespace Tree

theorem Holds.spreads {tree : Tree} {branch : Branch} {environment : Environment} {more : Nat}
    {source : Option String} {stored : StoredNode} (holds : tree.Holds branch)
    (spreads : branch.Spreads (.indexing source stored) more) :
    ∃ indexer, tree.Spreads (ofStored source stored) environment more branch.id indexer := by
  obtain ⟨receiver, items, count, isKids, isDynamic, suits, indexes⟩ := spreads
  obtain ⟨indexer, isIndexer, rfl, own⟩ := indexes.exists_indexer
  refine ⟨indexer, isIndexer, own, ⟨receiver.id, items.map Branch.id, ?_, ?_⟩, ?_⟩
  · rw [holds.childIds_eq, isKids, List.map_cons]
  · exact (holds.kid (isKids ▸ List.mem_cons_self)).ty?_eq.trans isDynamic
  · exact holds.arguments_assignable (isKids ▸ .cons (.ofTyped isDynamic) suits)

/-- What calls a member as an indexer, or as an assignment to one, has a receiver that is not
dynamic, or is a call of the runtime. Such a call takes every index expression that was written, so
it has as many children as the runtime's member has parameters only if exactly one was. -/
theorem check_indexes {environment : Environment} {source : Option String} {stored : StoredNode}
    {outcome : Outcome} {root id : NodeId} {hook : MemberId} {more : Nat}
    (built : environment.Built)
    (checked : (ofStored source stored).check environment = .ok outcome)
    (isRoot : outcome.tree.root = some root) (reaches : outcome.tree.Reaches root id)
    (hooks : (outcome.tree.tag id).Hooks hook more)
    (called : (outcome.tree.binding id).isCall = true)
    (other : outcome.tree.tag id = .assign →
      outcome.tree.binding id ≠ .static RuntimeMember.fieldSetter) :
    (∃ receiver ty, outcome.tree.child? id .recv = some receiver ∧
      outcome.tree.ty? receiver = some ty ∧ ty.isDynamic = false) ∨
    outcome.tree.binding id = .static hook ∧ ∃ indexer,
      outcome.tree.Spreads (ofStored source stored) outcome.environment more id indexer ∧
        ((outcome.tree.childIds id).length =
          (outcome.environment.registry.member hook).params.length ↔
            (ofStored source stored).argumentCount indexer = 1) := by
  have allows : ∀ node ∈ stored.all, (Premise.indexing source stored).Allows node :=
    fun _ => Premise.allows_indexing source
  have settles := check_settles allows source (.inr rfl) environment
  rw [checked] at settles
  obtain ⟨events, top, logged, settles⟩ := settles
  obtain ⟨_, below, rfl, holds, settled⟩ := settles.reached isRoot reaches
  rw [holds.tag_eq] at hooks other
  rw [holds.binding_eq] at called other ⊢
  rcases settled.calledOn hooks called other with ⟨receiver, ty, found, typed, isOther⟩ |
    ⟨isHook, spreads⟩
  · refine .inl ⟨receiver.id, ty, ?_, (holds.first? found).ty?_eq.trans typed, isOther⟩
    rw [holds.child?_eq, found, Option.map_some]
  · obtain ⟨indexer, spreads⟩ := holds.spreads spreads
    refine .inr ⟨isHook, indexer, spreads, ?_⟩
    rw [spreads.arguments.length_eq, (built.leads settles.leads).params_of_hooks hooks]
    simp only [List.length_cons, List.length_replicate]
    omega

end Tree

/-- The call `d[1, 2]` with two indices, and the store `d[1] = 3` with one. -/
def StoredNode.indexing : StoredNode :=
  let number (label : Option Label) (text : String) := mk label .integer text .nowhere []
  let indexer (label : Option Label) (indices : List StoredNode) := mk label .indexer none .nowhere
    [word .recv "d", mk (some .param) .list none .nowhere indices]
  mk none .source none .nowhere [
    indexer none [number none "1", number none "2"],
    mk none .assign none .nowhere [
      indexer (some .left) [number none "1"], number (some .right) "3"]]

namespace Tree

/-- The read has a child too many, the store has as many as the runtime takes. -/
theorem check_indexes_indexing : ∃ outcome,
    (ofStored none .indexing).check .scripted = .ok outcome ∧ outcome.errors = [] ∧
      (outcome.tree.Spreads (ofStored none .indexing) outcome.environment 0 1 1 ∧
        (outcome.tree.childIds 1).length ≠
          (outcome.environment.registry.member RuntimeMember.indexGetter).params.length) ∧
      outcome.tree.Spreads (ofStored none .indexing) outcome.environment 1 6 7 ∧
        (outcome.tree.childIds 6).length =
          (outcome.environment.registry.member RuntimeMember.indexSetter).params.length := by
  let loaded := ofStored none .indexing
  let test (outcome : Outcome) : Bool := decide (
    (outcome.tree.root = some 0 ∧ outcome.errors.length = 0) ∧
    (1 ∈ outcome.tree.childIds 0 ∧ outcome.tree.tag 1 = .indexer ∧
      outcome.tree.child? 1 .recv = none ∧ (outcome.tree.binding 1).isCall = true) ∧
    (6 ∈ outcome.tree.childIds 0 ∧ outcome.tree.tag 6 = .assign ∧
      outcome.tree.child? 6 .recv = none ∧
      (outcome.tree.binding 6).invoked? = some (.staticInvocation, RuntimeMember.indexSetter)))
  have run : (loaded.check .scripted).toOption.any test = true := by decide +kernel
  obtain ⟨outcome, checked, holds⟩ := exists_outcome run
  obtain ⟨⟨isRoot, noErrors⟩, ⟨isRead, isIndexer, freeRead, called⟩,
    ⟨isStore, isAssign, freeStore, invoked⟩⟩ := of_decide_eq_true holds
  have written : (1 < loaded.nodes.size ∧ loaded.indexerOf? 1 = some 1 ∧
      loaded.argumentCount 1 = 2) ∧ 6 < loaded.nodes.size ∧ loaded.indexerOf? 6 = some 7 ∧
      loaded.argumentCount 7 = 1 := by decide +kernel
  obtain ⟨⟨isOldRead, own, two⟩, isOldStore, aimed, one⟩ := written
  have built := (Environment.Built.start { maxInvokeArity := 2 }).leads Environment.leads_scripted
  obtain ⟨typeArgs, bound⟩ := Binding.eq_of_invoked invoked
  refine ⟨outcome, checked, List.length_eq_zero_iff.mp noErrors, ?_, ?_⟩
  · rcases check_indexes built checked isRoot (.step isRead (.refl 1)) (isIndexer ▸ Tag.Hooks.get)
      called (fun other => absurd (isIndexer.symm.trans other) (by decide)) with
      ⟨receiver, _, found, _⟩ | ⟨_, indexer, spreads, fits⟩
    · exact absurd (freeRead.symm.trans found) (by simp)
    · obtain rfl : 1 = indexer := Option.some.inj (own.symm.trans (spreads.own isOldRead))
      exact ⟨spreads, fun same => absurd (two.symm.trans (fits.mp same)) (by decide)⟩
  · have other : outcome.tree.binding 6 ≠ .static RuntimeMember.fieldSetter := by
      intro isField
      rw [isField] at invoked
      exact absurd invoked (by decide)
    rcases check_indexes built checked isRoot (.step isStore (.refl 6)) (isAssign ▸ Tag.Hooks.set)
      (by rw [bound]; rfl) (fun _ => other) with
      ⟨receiver, _, found, _⟩ | ⟨_, indexer, spreads, fits⟩
    · exact absurd (freeStore.symm.trans found) (by simp)
    · obtain rfl : 7 = indexer := Option.some.inj (aimed.symm.trans (spreads.own isOldStore))
      exact ⟨spreads, fits.mpr one⟩

end Tree

end ScriptTyping
