import ScriptTyping.Check.Arguments
import ScriptTyping.Proofs.Environment.Coercion
import ScriptTyping.Proofs.Syntax.Region
import ScriptTyping.Syntax.Stored

/-!
Where the nodes of a tree stand in the source. A node keeps its place whatever becomes of it, and a
new node stands at the place of another one, or at the smallest place that covers its children.
-/

namespace ScriptTyping

namespace Tree

variable {tree : Tree} {id other : NodeId} {change : Node → Node}

/-! ### What keeps places -/

theorem span_modify (keeps : ∀ node, (change node).span = node.span) (other : NodeId) :
    (tree.modify id change).span other = tree.span other := by
  by_cases here : other = id ∧ other < tree.nodes.size
  · obtain ⟨rfl, bound⟩ := here
    rw [span, span, tree.get_modify_self change bound, keeps]
  · rw [span, span, get_modify_unchanged here]

@[simp]
theorem span_setType (ty : Ty) : (tree.setType id ty).span other = tree.span other := by
  apply span_modify
  exact fun _ => rfl

@[simp]
theorem span_setBinding (binding : Binding) :
    (tree.setBinding id binding).span other = tree.span other := by
  apply span_modify
  exact fun _ => rfl

@[simp]
theorem span_setConst (ty : Ty) (value : Const) :
    (tree.setConst id ty value).span other = tree.span other := by
  apply span_modify
  exact fun _ => rfl

@[simp]
theorem span_markDone : (tree.markDone id).span other = tree.span other := by
  apply span_modify
  exact fun _ => rfl

@[simp]
theorem span_setTag (tag : Tag) : (tree.setTag id tag).span other = tree.span other := by
  apply span_modify
  exact fun _ => rfl

@[simp]
theorem span_setRoot (root : NodeId) : (tree.setRoot root).span other = tree.span other := rfl

@[simp]
theorem span_make (children : List (Label × NodeId)) :
    (tree.make id children).span other = tree.span other := by
  apply span_modify
  exact fun _ => rfl

@[simp]
theorem span_flatten (items : List NodeId) : (tree.flatten id items).span other = tree.span other := by
  apply span_modify
  exact fun _ => rfl

@[simp]
theorem span_pushChild (label : Option Label) (child : NodeId) :
    (tree.pushChild id label child).span other = tree.span other := by
  apply span_modify
  exact fun _ => rfl

@[simp]
theorem span_replaceAt (index : Nat) (child : NodeId) :
    (tree.replaceAt id index child).span other = tree.span other := by
  apply span_modify
  exact fun _ => rfl

@[simp]
theorem span_setChild (label : Label) (child : NodeId) :
    (tree.setChild id label child).span other = tree.span other := by
  apply span_modify
  intro node
  cases found : node.indexOf? label <;> simp [Node.setChild, found, Node.replaceAt, Node.push]

@[simp]
theorem span_relabel (old new : Label) : (tree.relabel id old new).span other = tree.span other := by
  apply span_modify
  intro node
  cases found : node.indexOf? old <;> simp [Node.relabel, found]

@[simp]
theorem span_removeChild (label : Label) :
    (tree.removeChild id label).span other = tree.span other := by
  apply span_modify
  intro node
  cases found : node.indexOf? label <;> simp [Node.removeChild, found]

end Tree

structure Places where
  holds : Span → Prop
  nowhere : holds .nowhere
  merge : ∀ left right, holds left → holds right → holds (left.merge right)

namespace Places

def everywhere : Places := ⟨fun _ => True, trivial, fun _ _ _ _ => trivial⟩

def Cover (places : Places) (tree : Tree) : Prop := ∀ id, places.holds (tree.span id)

theorem everywhere_cover (tree : Tree) : everywhere.Cover tree := fun _ => trivial

variable {places : Places} {tree : Tree}

theorem holds_cover? {spans : List Span} {cover : Span} (each : ∀ span ∈ spans, places.holds span)
    (covers : Span.cover? spans = some cover) : places.holds cover := by
  have folds : ∀ (rest : List Span) (first : Span), places.holds first →
      (∀ span ∈ rest, places.holds span) → places.holds (rest.foldl Span.merge first) := by
    intro rest
    induction rest with
    | nil => exact fun _ isFirst _ => isFirst
    | cons next rest ih =>
        intro first isFirst others
        obtain ⟨isNext, others⟩ := List.forall_mem_cons.mp others
        exact ih _ (places.merge _ _ isFirst isNext) others
  unfold Span.cover? at covers
  split at covers
  · cases covers
  · rename_i first rest placed
    have placedEach : ∀ span ∈ first :: rest, places.holds span := by
      rw [← placed]
      exact fun span member => each span (List.mem_of_mem_filter member)
    obtain ⟨isFirst, others⟩ := List.forall_mem_cons.mp placedEach
    rw [← Option.some.inj covers]
    exact folds rest first isFirst others

/-! ### New nodes -/

theorem Cover.same (cover : places.Cover tree) {other : Tree}
    (same : ∀ id, other.span id = tree.span id) : places.Cover other :=
  fun id => (same id).symm ▸ cover id

theorem Cover.alloc (cover : places.Cover tree) {node : Node} (holds : places.holds node.span) :
    places.Cover (tree.alloc node).2 := by
  intro position
  by_cases isNew : position = tree.nodes.size
  · rw [isNew, Tree.span, Tree.get_alloc_new]
    exact holds
  · rw [Tree.span, tree.get_alloc_other node isNew]
    exact cover position

theorem Cover.coverOf (cover : places.Cover tree) (children : List Child) :
    places.holds (tree.coverOf children) := by
  rw [Tree.coverOf]
  cases covers : Span.cover? (children.map fun child => tree.span child.node) with
  | none => exact places.nowhere
  | some span =>
      refine places.holds_cover? (fun _ member => ?_) covers
      obtain ⟨child, _, rfl⟩ := List.mem_map.mp member
      exact cover child.node

theorem Cover.sequence (cover : places.Cover tree) (tag : Tag) (items : List NodeId) :
    places.Cover (tree.sequence tag items).2 :=
  cover.alloc (cover.coverOf _)

theorem Cover.labelled (cover : places.Cover tree) (tag : Tag)
    (children : List (Label × NodeId)) : places.Cover (tree.labelled tag children).2 :=
  cover.alloc (cover.coverOf _)

theorem Cover.argumentList (cover : places.Cover tree) (id : NodeId) (label : Label) :
    places.Cover (tree.argumentList id label).2 := by
  have wrapped (items : List NodeId) : places.Cover ((tree.sequence .list items).2.setChild id label
      (tree.sequence .list items).1) :=
    (cover.sequence .list items).same fun _ => Tree.span_setChild label _
  unfold Tree.argumentList
  cases tree.child? id label with
  | none => exact wrapped []
  | some child =>
      dsimp only
      split
      · exact cover
      · exact wrapped [child]

theorem Cover.convert (cover : places.Cover tree) (id : NodeId) (tag : Tag) (ty : Ty)
    (binding : Binding) : places.Cover (tree.convert id tag ty binding).2 :=
  cover.alloc (cover id)

theorem Cover.ofError (cover : places.Cover tree) {error : CheckError}
    (holds : places.holds error.span) : places.Cover (Failure.ofError tree error).2 :=
  cover.alloc holds

theorem Cover.enforce (cover : places.Cover tree) (environment : Environment) (id : NodeId)
    (ty : Ty) : places.Cover (environment.enforce tree id ty).2 := by
  rcases environment.enforce_cases tree id ty with
    ⟨_, run⟩ | ⟨_, _, run⟩ | ⟨_, _, _, _, run⟩ | ⟨_, _, run⟩ <;> rw [run]
  · exact cover
  · exact cover.same fun _ => Tree.span_setType ty
  · exact cover.convert id _ _ _
  · exact cover.ofError (cover id)

/-- A value that does not flow into a type is reported where it stands. -/
theorem Cover.mismatch (cover : places.Cover tree) {environment : Environment} {id : NodeId} {ty : Ty}
    {failure : Failure} {later : Tree}
    (misfits : environment.enforce tree id ty = (.error failure, later)) :
    places.holds failure.error.span := by
  rcases environment.enforce_cases tree id ty with
    ⟨_, run⟩ | ⟨_, _, run⟩ | ⟨_, _, _, _, run⟩ | ⟨_, _, run⟩ <;>
    rw [run] at misfits <;> cases misfits
  exact cover id

theorem Cover.copyChildren {depth : Nat} {top : NodeId} {children : List Child}
    (copies : ∀ {tree : Tree} (id : NodeId), places.Cover tree →
      places.Cover (Tree.copy depth tree id).2)
    (cover : places.Cover tree) : places.Cover (Tree.copyChildren depth tree top children) := by
  induction children generalizing tree with
  | nil =>
      rw [Tree.copyChildren]
      exact cover
  | cons child rest ih =>
      rw [Tree.copyChildren]
      exact ih ((copies child.node cover).same fun _ => Tree.span_pushChild _ _)

theorem Cover.copy (cover : places.Cover tree) (depth : Nat) (id : NodeId) :
    places.Cover (Tree.copy depth tree id).2 := by
  induction depth generalizing tree id with
  | zero =>
      rw [Tree.copy]
      exact cover.alloc places.nowhere
  | succ depth ih =>
      rw [Tree.copy]
      exact .copyChildren (fun id covers => ih covers id) (cover.alloc (cover id))

theorem Cover.dup (cover : places.Cover tree) (id : NodeId) : places.Cover (tree.dup id).2 :=
  cover.copy _ id

end Places

end ScriptTyping
