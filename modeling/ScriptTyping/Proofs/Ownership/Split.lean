import ScriptTyping.Proofs.Ownership.Conversion
import ScriptTyping.Proofs.Syntax.Dump

/-!
Arenas whose nodes keep the children in one list and the labels in another. A change edits the lists
one by one and stops where it reads a node or a child that is not there. On nodes that exist it does
to both lists what the same change does to a tree.
-/

namespace ScriptTyping

structure SplitNode where
  tag : Tag
  span : Span
  text : Option String
  childIds : List NodeId := []
  labels : List (Option Label) := []
  ty : Option Ty := none
  binding : Binding := .unbound
  done : Bool := false

structure SplitTree where
  nodes : Array SplitNode
  root : Option NodeId
  source : Option String

namespace SplitNode

def indexOf? (node : SplitNode) (label : Label) : Option Nat :=
  node.labels.findIdx? (· == some label)

def childAt? (node : SplitNode) (index : Nat) : Option NodeId := node.childIds[index]?

def labelAt? (node : SplitNode) (index : Nat) : Option Label := node.labels[index]?.join

def child? (node : SplitNode) (label : Label) : Option NodeId :=
  (node.indexOf? label).bind node.childAt?

def push (node : SplitNode) (label : Option Label) (child : NodeId) : SplitNode :=
  { node with childIds := node.childIds ++ [child], labels := node.labels ++ [label] }

def replaceAt (node : SplitNode) (index : Nat) (child : NodeId) : Option SplitNode :=
  if index < node.childIds.length then
    some { node with childIds := node.childIds.set index child }
  else none

def setChild (node : SplitNode) (label : Label) (child : NodeId) : Option SplitNode :=
  match node.indexOf? label with
  | some index => node.replaceAt index child
  | none => some (node.push (some label) child)

def relabel (node : SplitNode) (old new : Label) : SplitNode :=
  match node.indexOf? old with
  | some index => { node with labels := node.labels.set index (some new) }
  | none => node

def removeChild (node : SplitNode) (label : Label) : Option SplitNode :=
  match node.indexOf? label with
  | some index =>
    if index < node.childIds.length then
      some { node with
        childIds := node.childIds.eraseIdx index
        labels := node.labels.eraseIdx index }
    else none
  | none => some node

def make (node : SplitNode) (children : List (Label × NodeId)) : SplitNode :=
  { node with
    childIds := children.map fun (_, child) => child
    labels := children.map fun (label, _) => some label }

def makeSequence (node : SplitNode) (items : List NodeId) : SplitNode :=
  { node with childIds := items, labels := List.replicate items.length none }

end SplitNode

namespace SplitTree

def get? (tree : SplitTree) (id : NodeId) : Option SplitNode := tree.nodes[id]?

def alloc (tree : SplitTree) (tag : Tag) (span : Span) (text : Option String) :
    NodeId × SplitTree :=
  (tree.nodes.size, { tree with nodes := tree.nodes.push { tag, span, text } })

def change (tree : SplitTree) (id : NodeId) (step : SplitNode → Option SplitNode) :
    Option SplitTree := do
  let node ← tree.get? id
  let node ← step node
  some { tree with nodes := tree.nodes.setIfInBounds id node }

def pushChild (tree : SplitTree) (parent : NodeId) (label : Option Label) (child : NodeId) :
    Option SplitTree :=
  tree.change parent fun node => some (node.push label child)

def coverChildren (tree : SplitTree) (id : NodeId) : Option SplitTree := do
  let node ← tree.get? id
  let spans ← node.childIds.mapM fun child => (tree.get? child).map (·.span)
  match Span.cover? spans with
  | some span => tree.change id fun node => some { node with span }
  | none => some tree

def branch (tree : SplitTree) (tag : Tag) (children : List Child) :
    Option (NodeId × SplitTree) := do
  let (id, tree) := tree.alloc tag .nowhere none
  let tree ← children.foldlM (fun tree child => tree.pushChild id child.label child.node) tree
  let tree ← tree.coverChildren id
  some (id, tree)

def labelled (tree : SplitTree) (tag : Tag) (children : List (Label × NodeId)) :
    Option (NodeId × SplitTree) :=
  tree.branch tag (children.map fun (label, child) => ⟨some label, child⟩)

def sequence (tree : SplitTree) (tag : Tag) (items : List NodeId) : Option (NodeId × SplitTree) :=
  tree.branch tag (items.map fun item => ⟨none, item⟩)

def wrap (tree : SplitTree) (tag : Tag) (label : Label) (inner : NodeId) :
    Option (NodeId × SplitTree) := do
  let node ← tree.get? inner
  let (id, tree) := tree.alloc tag node.span none
  let tree ← tree.pushChild id (some label) inner
  some (id, tree)

def flatten (tree : SplitTree) (parent : NodeId) (items : List NodeId) : Option SplitTree := do
  let parts ← items.mapM fun item => do
    let node ← tree.get? item
    some (if node.tag = .list then node.childIds else [item])
  tree.change parent fun node => some (node.makeSequence parts.flatten)

/-- Copies the child at `index` of a node and hangs the copy below `top`. The child is looked up
when its turn comes, in the arena that the copies before it have grown. -/
def copyChild (copyOf : SplitTree → NodeId → Option (NodeId × SplitTree)) (id top : NodeId)
    (tree : SplitTree) (index : Nat) : Option SplitTree := do
  let node ← tree.get? id
  let child ← node.childAt? index
  let (inner, tree) ← copyOf tree child
  tree.pushChild top (node.labelAt? index) inner

def copy : Nat → SplitTree → NodeId → Option (NodeId × SplitTree)
  | 0, _, _ => none
  | depth + 1, tree, id => do
    let node ← tree.get? id
    let (top, tree) := tree.alloc node.tag node.span node.text
    let tree ← (List.range node.childIds.length).foldlM (copyChild (copy depth) id top) tree
    some (top, tree)

def dup (tree : SplitTree) (id : NodeId) : Option (NodeId × SplitTree) :=
  copy tree.nodes.size tree id

end SplitTree

/-! ### Labels of a node -/

/-- Whether the two lists of a node go together, its children are among the first `size` nodes, and
a label leads to the first child that has it. -/
structure SplitNode.Coherent (node : SplitNode) (size : Nat) : Prop where
  lengths : node.labels.length = node.childIds.length
  bound : ∀ kid ∈ node.childIds, kid < size
  defined : ∀ label, (node.child? label).isSome ↔
    ∃ index, (node.childAt? index).isSome ∧ node.labelAt? index = some label
  first : ∀ label kid, node.child? label = some kid ↔
    ∃ index, node.childAt? index = some kid ∧ node.labelAt? index = some label ∧
      ∀ earlier < index, node.labelAt? earlier ≠ some label
  agree : ∀ label index, node.indexOf? label = some index →
    node.labelAt? index = some label ∧ (node.child? label).isSome ∧
      node.child? label = node.childAt? index

namespace SplitNode

variable {node : SplitNode} {label : Label} {index : Nat}

theorem labelAt?_eq_some_iff :
    node.labelAt? index = some label ↔ node.labels[index]? = some (some label) :=
  Option.join_eq_some_iff

theorem indexOf?_eq_some_iff : node.indexOf? label = some index ↔
    node.labelAt? index = some label ∧ ∀ earlier < index, node.labelAt? earlier ≠ some label := by
  simp only [indexOf?, List.findIdx?_eq_some_iff_getElem, ne_eq, labelAt?_eq_some_iff,
    List.getElem?_eq_some_iff, beq_iff_eq]
  constructor
  · rintro ⟨inRange, here, before⟩
    exact ⟨⟨inRange, here⟩, fun earlier less ⟨_, there⟩ => before earlier less there⟩
  · rintro ⟨⟨inRange, here⟩, before⟩
    exact ⟨inRange, here, fun earlier less there => before earlier less ⟨by omega, there⟩⟩

theorem child?_eq_some_iff {kid : NodeId} : node.child? label = some kid ↔
    ∃ index, node.indexOf? label = some index ∧ node.childAt? index = some kid :=
  Option.bind_eq_some_iff

theorem indexOf?_isSome (found : node.labelAt? index = some label) :
    ∃ first, node.indexOf? label = some first := by
  have member : some label ∈ node.labels := List.mem_of_getElem? (labelAt?_eq_some_iff.mp found)
  have isSome : (node.indexOf? label).isSome := by
    rw [indexOf?, List.findIdx?_isSome, List.any_eq_true]
    exact ⟨some label, member, beq_self_eq_true _⟩
  exact Option.isSome_iff_exists.mp isSome

/-- Lists of one length are all that the lookups need. -/
theorem coherent {size : Nat} (lengths : node.labels.length = node.childIds.length)
    (bound : ∀ kid ∈ node.childIds, kid < size) : node.Coherent size := by
  have childAt {label : Label} {index : Nat} (found : node.labelAt? index = some label) :
      (node.childAt? index).isSome := by
    obtain ⟨inRange, _⟩ := List.getElem?_eq_some_iff.mp (labelAt?_eq_some_iff.mp found)
    rw [childAt?, List.getElem?_eq_getElem (by rwa [← lengths])]
    rfl
  have agree {label : Label} {index : Nat} (found : node.indexOf? label = some index) :
      node.child? label = node.childAt? index := by
    rw [child?, found, Option.bind_some]
  refine ⟨lengths, bound, fun label => ⟨fun isSome => ?_, ?_⟩, fun label kid => ?_, ?_⟩
  · obtain ⟨kid, isChild⟩ := Option.isSome_iff_exists.mp isSome
    obtain ⟨index, found, isAt⟩ := child?_eq_some_iff.mp isChild
    exact ⟨index, isAt ▸ rfl, (indexOf?_eq_some_iff.mp found).1⟩
  · rintro ⟨index, _, found⟩
    obtain ⟨first, isFirst⟩ := indexOf?_isSome found
    rw [agree isFirst]
    exact childAt (indexOf?_eq_some_iff.mp isFirst).1
  · rw [child?_eq_some_iff]
    simp only [indexOf?_eq_some_iff, and_comm]
  · intro label index found
    have here := (indexOf?_eq_some_iff.mp found).1
    exact ⟨here, agree found ▸ childAt here, agree found⟩

end SplitNode

/-! ### The two lists of a node -/

def Node.split (node : Node) : SplitNode where
  tag := node.tag
  span := node.span
  text := node.text
  childIds := node.children.map Child.node
  labels := node.children.map Child.label
  ty := node.ty
  binding := node.binding
  done := node.done

namespace Node

variable (node : Node) (label : Label) (child : NodeId) (index : Nat)

theorem length_split : node.split.labels.length = node.split.childIds.length := by
  simp [split]

theorem split_indexOf? : node.split.indexOf? label = node.indexOf? label :=
  (node.indexOf?_eq_labels label).symm

theorem split_childAt? : node.split.childAt? index = node.childAt? index :=
  (node.childAt?_eq index).symm

theorem split_labelAt? : node.split.labelAt? index = node.labelAt? index := by
  rw [SplitNode.labelAt?, split, List.getElem?_map, labelAt?]
  cases node.children[index]? <;> rfl

theorem split_child? : node.split.child? label = node.child? label := by
  rw [SplitNode.child?, split_indexOf?, child?_eq]
  exact congrArg _ (funext node.split_childAt?)

theorem split_push (label : Option Label) :
    node.split.push label child = (node.push label child).split := by
  simp [SplitNode.push, split, push]

theorem split_replaceAt {index : Nat} (inRange : index < node.children.length) :
    node.split.replaceAt index child = some (node.replaceAt index child).split := by
  have bound : index < node.split.childIds.length := by simpa [split] using inRange
  rw [SplitNode.replaceAt, if_pos bound]
  simp only [split, children_replaceAt, labels_replaceAt]
  rfl

theorem split_setChild :
    node.split.setChild label child = some (node.setChild label child).split := by
  rw [SplitNode.setChild, split_indexOf?, setChild]
  cases found : node.indexOf? label with
  | none => exact congrArg some (node.split_push child (some label))
  | some index => exact node.split_replaceAt child (lt_of_indexOf? found)

theorem split_relabel (old new : Label) :
    node.split.relabel old new = (node.relabel old new).split := by
  rw [SplitNode.relabel, split_indexOf?, relabel]
  cases node.indexOf? old with
  | none => rfl
  | some index =>
      let change (child : Child) : Child := { child with label := some new }
      have labels : (node.children.modify index change).map Child.label =
          (node.children.map Child.label).set index (some new) :=
        map_modify_const node.children index fun _ => rfl
      have kids : (node.children.modify index change).map Child.node =
          node.children.map Child.node :=
        map_modify_same node.children index fun _ => rfl
      simp only [change] at labels kids
      simp only [split, labels, kids]

theorem split_removeChild :
    node.split.removeChild label = some (node.removeChild label).split := by
  rw [SplitNode.removeChild, split_indexOf?, removeChild]
  cases found : node.indexOf? label with
  | none => rfl
  | some index =>
      have bound : index < node.split.childIds.length := by
        simpa [split] using lt_of_indexOf? found
      show (if index < node.split.childIds.length then _ else _) = _
      rw [if_pos bound]
      simp only [split, List.eraseIdx_map]

theorem split_make (children : List (Label × NodeId)) : node.split.make children =
    split { node with children := children.map fun (label, child) => ⟨some label, child⟩ } := by
  simp [SplitNode.make, split]

theorem split_makeSequence (items : List NodeId) : node.split.makeSequence items =
    split { node with children := items.map fun item => ⟨none, item⟩ } := by
  simp [SplitNode.makeSequence, split, Function.comp_def]

end Node

/-! ### The lists of a tree -/

def Tree.split (tree : Tree) : SplitTree where
  nodes := tree.nodes.map Node.split
  root := tree.root
  source := tree.source

namespace Tree

variable {tree : Tree} {id parent : NodeId}

theorem size_split (tree : Tree) : tree.split.nodes.size = tree.nodes.size := by
  simp [split]

theorem split_get? (inside : id < tree.nodes.size) :
    tree.split.get? id = some (tree.get id).split := by
  simp [SplitTree.get?, split, get, inside]

theorem child?_eq_split (tree : Tree) (id : NodeId) (label : Label) :
    tree.child? id label = (tree.split.get? id).bind (·.child? label) := by
  rcases Nat.lt_or_ge id tree.nodes.size with inside | beyond
  · rw [split_get? inside, Option.bind_some, Node.split_child?]
    rfl
  · have missing : tree.split.get? id = none := by simpa [SplitTree.get?, split] using beyond
    rw [missing, child?, get_beyond beyond]
    rfl

theorem split_alloc (tree : Tree) (tag : Tag) (span : Span) (text : Option String) :
    tree.split.alloc tag span text =
      (tree.nodes.size, (tree.alloc { tag, span, text }).2.split) := by
  simp [SplitTree.alloc, split, alloc, Node.split]

/-- A change of both lists of a node is a change of the node. -/
theorem split_change (inside : id < tree.nodes.size) {step : SplitNode → Option SplitNode}
    {change : Node → Node}
    (changes : step (tree.get id).split = some (change (tree.get id)).split) :
    tree.split.change id step = some (tree.modify id change).split := by
  have nodes : (tree.nodes.map Node.split).setIfInBounds id (change (tree.get id)).split =
      (tree.nodes.modify id change).map Node.split := by
    refine Array.ext_getElem? fun position => ?_
    rw [Array.getElem?_setIfInBounds, Array.getElem?_map, Array.getElem?_map,
      Array.getElem?_modify, Array.size_map, if_pos inside]
    by_cases here : id = position
    · subst here
      simp [get, inside]
    · simp [here]
  simp only [SplitTree.change, split_get? inside, Option.bind_eq_bind, Option.bind_some, changes]
  simp only [split, modify, nodes]

theorem split_pushChild (inside : parent < tree.nodes.size) (label : Option Label)
    (child : NodeId) :
    tree.split.pushChild parent label child = some (tree.pushChild parent label child).split :=
  split_change inside (congrArg some (Node.split_push _ child label))

theorem modify_same (tree : Tree) (id : NodeId) {change : Node → Node}
    (same : ∀ node, change node = node) : tree.modify id change = tree := by
  have nodes : tree.nodes.modify id change = tree.nodes := by
    refine Array.ext_getElem? fun position => ?_
    rw [Array.getElem?_modify]
    cases tree.nodes[position]? <;> simp [same]
  rw [modify, nodes]

theorem modify_alloc (tree : Tree) (node : Node) (change : Node → Node) :
    (tree.alloc node).2.modify tree.nodes.size change = (tree.alloc (change node)).2 := by
  have nodes : (tree.nodes.push node).modify tree.nodes.size change =
      tree.nodes.push (change node) := by
    refine Array.ext_getElem? fun position => ?_
    rw [Array.getElem?_modify, Array.getElem?_push, Array.getElem?_push]
    by_cases here : position = tree.nodes.size
    · simp [here]
    · simp [here, Ne.symm here]
  simp only [modify, alloc, nodes]

theorem pushChild_alloc (tree : Tree) (node : Node) (label : Option Label) (child : NodeId) :
    (tree.alloc node).2.pushChild tree.nodes.size label child =
      (tree.alloc (node.push label child)).2 :=
  tree.modify_alloc node _

/-- Children that are hung below a new node one after the other are all there in the end. -/
theorem split_pushChildren (tree : Tree) (node : Node) (children : List Child) :
    children.foldlM (fun now child => now.pushChild tree.nodes.size child.label child.node)
        (tree.alloc node).2.split =
      some (tree.alloc { node with children := node.children ++ children }).2.split := by
  induction children generalizing node with
  | nil => rw [List.foldlM_nil, List.append_nil]; rfl
  | cons child rest ih =>
      have inside : tree.nodes.size < (tree.alloc node).2.nodes.size := by simp
      rw [List.foldlM_cons, split_pushChild inside, pushChild_alloc, Option.bind_eq_bind,
        Option.bind_some, ih, Node.push, List.append_assoc, List.singleton_append]

theorem split_coverChildren (inside : id < tree.nodes.size)
    (kids : ∀ child ∈ (tree.get id).children, child.node < tree.nodes.size) :
    tree.split.coverChildren id = some (tree.modify id fun node =>
      { node with span := (Span.cover? ((tree.get id).children.map fun child =>
        tree.span child.node)).getD node.span }).split := by
  have spans : (tree.get id).split.childIds.mapM (fun child =>
      (tree.split.get? child).map (·.span)) =
        some ((tree.get id).children.map fun child => tree.span child.node) := by
    refine StoredNode.mapM_map fun child isChild => ?_
    rw [split_get? (kids child isChild)]
    rfl
  rw [SplitTree.coverChildren, split_get? inside, Option.bind_eq_bind, Option.bind_some, spans,
    Option.bind_eq_bind, Option.bind_some]
  cases Span.cover? ((tree.get id).children.map fun child => tree.span child.node) with
  | none => rw [modify_same tree id fun node => by rfl]
  | some span => exact split_change inside rfl

theorem split_branch {children : List Child} (tag : Tag)
    (kids : ∀ child ∈ children, child.node < tree.nodes.size) :
    tree.split.branch tag children =
      some (tree.nodes.size, (tree.branch tag children).2.split) := by
  let bare : Node := { tag, children }
  have covers : (tree.alloc bare).2.split.coverChildren tree.nodes.size =
      some (tree.branch tag children).2.split := by
    have spans : (children.map fun child => (tree.alloc bare).2.span child.node) =
        children.map fun child => tree.span child.node :=
      List.map_congr_left fun child isChild =>
        congrArg Node.span (tree.get_alloc_old bare (kids child isChild))
    rw [split_coverChildren (by simp) (fun child isChild => ?_), get_alloc_new, modify_alloc]
    · simp only [bare, spans]
      rfl
    · rw [get_alloc_new] at isChild
      rw [size_alloc]
      exact Nat.lt_succ_of_lt (kids child isChild)
  have pushes := tree.split_pushChildren { tag } children
  rw [SplitTree.branch, split_alloc]
  simp only [Option.bind_eq_bind]
  rw [pushes]
  show ((tree.alloc bare).2.split.coverChildren tree.nodes.size).bind _ = _
  rw [covers]
  rfl

theorem split_wrap {inner : NodeId} (tag : Tag) (label : Label)
    (inside : inner < tree.nodes.size) :
    tree.split.wrap tag label inner =
      some (tree.nodes.size, (tree.wrap tag label inner).2.split) := by
  let bare : Node := { tag, span := tree.span inner }
  have pushes : (tree.alloc bare).2.split.pushChild tree.nodes.size (some label) inner = _ :=
    split_pushChild (by simp) (some label) inner
  rw [SplitTree.wrap, split_get? inside, Option.bind_eq_bind, Option.bind_some, split_alloc]
  show ((tree.alloc bare).2.split.pushChild _ _ _).bind _ = _
  rw [pushes, pushChild_alloc]
  rfl

theorem split_flatten {items : List NodeId} (inside : parent < tree.nodes.size)
    (bound : ∀ item ∈ items, item < tree.nodes.size) :
    tree.split.flatten parent items = some (tree.flatten parent items).split := by
  let part (item : NodeId) : Option (List NodeId) := do
    let node ← tree.split.get? item
    some (if node.tag = .list then node.childIds else [item])
  have parts : (items.map id).mapM part = some (items.map fun item =>
      if tree.tag item = .list then tree.childIds item else [item]) := by
    refine StoredNode.mapM_map fun item isItem => ?_
    simp only [part, id, split_get? (bound item isItem)]
    rfl
  rw [List.map_id] at parts
  rw [SplitTree.flatten, parts, Option.bind_eq_bind, Option.bind_some]
  refine split_change inside (congrArg some ?_)
  rw [Node.split_makeSequence, ← List.flatMap_def]
  rfl

end Tree

end ScriptTyping
