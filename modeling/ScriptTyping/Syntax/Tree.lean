import ScriptTyping.Syntax.Tag
import ScriptTyping.Syntax.Binding
import ScriptTyping.Text.Span
import ScriptTyping.Text.LineIndex

/-!
Syntax trees as an arena of nodes. A node lists its children by their positions in the arena, each
with its label. Children are replaced, but no node is ever taken out of the arena.
-/

namespace ScriptTyping

abbrev NodeId := Nat

structure Child where
  label : Option Label
  node : NodeId
  deriving DecidableEq, Repr, Inhabited

structure Node where
  tag : Tag
  span : Span := .nowhere
  text : Option String := none
  children : List Child := []
  ty : Option Ty := none
  binding : Binding := .unbound
  /-- Whether the node needs no further checking. -/
  done : Bool := false
  deriving Repr

instance : Inhabited Node := ⟨{ tag := .error }⟩

structure Tree where
  nodes : Array Node := #[]
  root : Option NodeId := none
  /-- The text that spans refer to. -/
  source : Option String := none
  deriving Repr, Inhabited

namespace Node

def childAt? (node : Node) (index : Nat) : Option NodeId := node.children[index]?.map (·.node)

def labelAt? (node : Node) (index : Nat) : Option Label := node.children[index]?.bind (·.label)

def indexOf? (node : Node) (label : Label) : Option Nat :=
  node.children.findIdx? (·.label == some label)

def child? (node : Node) (label : Label) : Option NodeId :=
  (node.children.find? (·.label == some label)).map (·.node)

def has (node : Node) (label : Label) : Bool := (node.indexOf? label).isSome

def push (node : Node) (label : Option Label) (child : NodeId) : Node :=
  { node with children := node.children ++ [⟨label, child⟩] }

def replaceAt (node : Node) (index : Nat) (child : NodeId) : Node :=
  { node with children := node.children.modify index fun old => { old with node := child } }

def setChild (node : Node) (label : Label) (child : NodeId) : Node :=
  match node.indexOf? label with
  | some index => node.replaceAt index child
  | none => node.push (some label) child

def relabel (node : Node) (old new : Label) : Node :=
  match node.indexOf? old with
  | some index =>
    { node with
      children := node.children.modify index fun child => { child with label := some new } }
  | none => node

def removeChild (node : Node) (label : Label) : Node :=
  match node.indexOf? label with
  | some index => { node with children := node.children.eraseIdx index }
  | none => node

end Node

namespace Tree

/-! ### Reading -/

def get (tree : Tree) (id : NodeId) : Node := tree.nodes[id]?.getD default

def tag (tree : Tree) (id : NodeId) : Tag := (tree.get id).tag

def span (tree : Tree) (id : NodeId) : Span := (tree.get id).span

def text (tree : Tree) (id : NodeId) : String := (tree.get id).text.getD ""

def ty? (tree : Tree) (id : NodeId) : Option Ty := (tree.get id).ty

def binding (tree : Tree) (id : NodeId) : Binding := (tree.get id).binding

def childIds (tree : Tree) (id : NodeId) : List NodeId := (tree.get id).children.map (·.node)

def childAt? (tree : Tree) (id : NodeId) (index : Nat) : Option NodeId :=
  (tree.get id).childAt? index

def child? (tree : Tree) (id : NodeId) (label : Label) : Option NodeId := (tree.get id).child? label

def has (tree : Tree) (id : NodeId) (label : Label) : Bool := (tree.get id).has label

/-- The line and column at which a node starts. The inner option is empty when one of the numbers does
not fit 32 bits, the outer one when the source is not known. -/
def position? (tree : Tree) (id : NodeId) : Option (Option (Nat × Nat)) :=
  tree.source.map fun source => (LineIndex.ofSource source).position? (tree.span id).start

/-! ### Building -/

def alloc (tree : Tree) (node : Node) : NodeId × Tree :=
  (tree.nodes.size, { tree with nodes := tree.nodes.push node })

def coverOf (tree : Tree) (children : List Child) : Span :=
  (Span.cover? (children.map fun child => tree.span child.node)).getD .nowhere

def branch (tree : Tree) (tag : Tag) (children : List Child) : NodeId × Tree :=
  tree.alloc { tag, children, span := tree.coverOf children }

def labelled (tree : Tree) (tag : Tag) (children : List (Label × NodeId)) : NodeId × Tree :=
  tree.branch tag (children.map fun (label, child) => ⟨some label, child⟩)

def sequence (tree : Tree) (tag : Tag) (items : List NodeId) : NodeId × Tree :=
  tree.branch tag (items.map fun item => ⟨none, item⟩)

def wrap (tree : Tree) (tag : Tag) (label : Label) (inner : NodeId) : NodeId × Tree :=
  tree.alloc { tag, span := tree.span inner, children := [⟨some label, inner⟩] }

/-! ### Changing -/

def modify (tree : Tree) (id : NodeId) (change : Node → Node) : Tree :=
  { tree with nodes := tree.nodes.modify id change }

def setRoot (tree : Tree) (root : NodeId) : Tree := { tree with root := some root }

def pushChild (tree : Tree) (parent : NodeId) (label : Option Label) (child : NodeId) : Tree :=
  tree.modify parent (·.push label child)

def replaceAt (tree : Tree) (parent : NodeId) (index : Nat) (child : NodeId) : Tree :=
  tree.modify parent (·.replaceAt index child)

def setChild (tree : Tree) (parent : NodeId) (label : Label) (child : NodeId) : Tree :=
  tree.modify parent (·.setChild label child)

def relabel (tree : Tree) (parent : NodeId) (old new : Label) : Tree :=
  tree.modify parent (·.relabel old new)

def removeChild (tree : Tree) (parent : NodeId) (label : Label) : Tree :=
  tree.modify parent (·.removeChild label)

def make (tree : Tree) (parent : NodeId) (children : List (Label × NodeId)) : Tree :=
  tree.modify parent fun node =>
    { node with children := children.map fun (label, child) => ⟨some label, child⟩ }

def splice (tree : Tree) (items : List NodeId) : List NodeId :=
  items.flatMap fun item => if tree.tag item = .list then tree.childIds item else [item]

def flatten (tree : Tree) (parent : NodeId) (items : List NodeId) : Tree :=
  let children := (tree.splice items).map fun item => (⟨none, item⟩ : Child)
  tree.modify parent fun node => { node with children }

def setTag (tree : Tree) (id : NodeId) (tag : Tag) : Tree :=
  tree.modify id fun node => { node with tag }

def setType (tree : Tree) (id : NodeId) (ty : Ty) : Tree :=
  tree.modify id fun node => { node with ty := some ty }

def setBinding (tree : Tree) (id : NodeId) (binding : Binding) : Tree :=
  tree.modify id fun node => { node with binding }

def setConst (tree : Tree) (id : NodeId) (ty : Ty) (value : Const) : Tree :=
  tree.modify id fun node => { node with ty := some ty, binding := .const value }

def markDone (tree : Tree) (id : NodeId) : Tree :=
  tree.modify id fun node => { node with done := true }

/-! ### Copying -/

mutual

def copy : Nat → Tree → NodeId → NodeId × Tree
  | 0, tree, _ => tree.alloc default
  | depth + 1, tree, id =>
    let node := tree.get id
    let (top, tree) := tree.alloc { tag := node.tag, span := node.span, text := node.text }
    (top, copyChildren depth tree top node.children)

def copyChildren (depth : Nat) (tree : Tree) (top : NodeId) : List Child → Tree
  | [] => tree
  | child :: rest =>
    let (inner, tree) := copy depth tree child.node
    copyChildren depth (tree.pushChild top child.label inner) top rest

end

/-- A copy of the nodes below `id` without what checking found. A path without repetition is no
longer than the arena. -/
def dup (tree : Tree) (id : NodeId) : NodeId × Tree := copy tree.nodes.size tree id

end Tree

/-! ### The tree below a node -/

inductive Branch where
  | mk (label : Option Label) (id : NodeId) (node : Node) (children : List Branch)
  deriving Inhabited

namespace Tree

mutual

def unfold (tree : Tree) : Nat → Child → Branch
  | 0, child => .mk child.label child.node (tree.get child.node) []
  | depth + 1, child =>
    let node := tree.get child.node
    .mk child.label child.node node (tree.unfoldAll depth node.children)

def unfoldAll (tree : Tree) (depth : Nat) : List Child → List Branch
  | [] => []
  | child :: rest => tree.unfold depth child :: tree.unfoldAll depth rest

end

/-- All that hangs below a node. A path without repetition is no longer than the arena. -/
def below (tree : Tree) (id : NodeId) : Branch := tree.unfold tree.nodes.size ⟨none, id⟩

end Tree

end ScriptTyping
