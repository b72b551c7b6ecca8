import ScriptTyping.Syntax.Stored
import ScriptTyping.Proofs.Syntax.Branch

/-!
What a stored tree says before it is checked: all its nodes, whether a return in it ends the
function around it, whether something in it may become a global or an import, and which names may
become globals.
-/

namespace ScriptTyping

structure Mode where
  shell : Bool
  inside : Bool

def Tag.declares (mode : Mode) : Tag → Bool
  | importDecl => true
  | funcDecl => true
  | varDecl => !mode.inside
  | assign => mode.shell && !mode.inside
  | compound _ => mode.shell && !mode.inside
  | _ => false

structure Place where
  mode : Mode
  covered : Bool

namespace Place

def top (shell : Bool) : Place := ⟨⟨shell, false⟩, false⟩

def cover (place : Place) : Place := { place with covered := true }

def enter (place : Place) : Place := ⟨{ place.mode with inside := true }, true⟩

/-- Where the children of a node are. Only functions and the bodies of loops over elements open a
scope wherever they are. -/
def under (place : Place) : Tag → Option Label → Place
  | .funcDecl, _ => place.enter
  | .forEach, some .body => place.cover
  | _, _ => place

theorem cover_under (place : Place) (tag : Tag) (label : Option Label) :
    place.cover.under tag label = (place.under tag label).cover := by
  unfold under
  split <;> rfl

theorem under_of_ne (place : Place) {tag : Tag} {label : Option Label} (opened : tag ≠ .funcDecl)
    (shared : tag ≠ .forEach ∨ label ≠ some .body) : place.under tag label = place := by
  unfold under
  split
  · exact absurd rfl opened
  · rcases shared with other | other <;> exact absurd rfl other
  · rfl

end Place

namespace StoredNode

def tag : StoredNode → Tag
  | mk _ tag _ _ _ => tag

def text : StoredNode → Option String
  | mk _ _ text _ _ => text

def span : StoredNode → Span
  | mk _ _ _ span _ => span

def note (node : StoredNode) : Option String × Span := (node.text, node.span)

def children : StoredNode → List StoredNode
  | mk _ _ _ _ children => children

mutual

def all : StoredNode → List StoredNode
  | mk label tag text span children => mk label tag text span children :: allOf children

def allOf : List StoredNode → List StoredNode
  | [] => []
  | node :: rest => all node ++ allOf rest

end

mutual

def canReturn : StoredNode → Bool
  | mk _ tag _ _ children => tag = .returnStmt || (tag ≠ .funcDecl && anyCanReturn children)

def anyCanReturn : List StoredNode → Bool
  | [] => false
  | node :: rest => canReturn node || anyCanReturn rest

end

mutual

def mayDeclare (mode : Mode) : StoredNode → Bool
  | mk _ tag _ _ children => tag.declares mode || anyMayDeclare mode children

def anyMayDeclare (mode : Mode) : List StoredNode → Bool
  | [] => false
  | node :: rest => mayDeclare mode node || anyMayDeclare mode rest

end

def first? (node : StoredNode) (label : Label) : Option StoredNode :=
  node.children.find? (·.label == some label)

def under (node : StoredNode) (label : Label) : List StoredNode :=
  node.children.filter (·.label == some label)

def targetName? (node : StoredNode) : Option String := do
  let target ← node.first? .left
  if target.tag = .name then some (target.text.getD "") else none

def exposed? (place : Place) (node : StoredNode) : Option String :=
  let name? := (node.first? .name).map fun name => name.text.getD ""
  match node.tag with
  | .funcDecl => name?
  | .varDecl => if place.covered then none else name?
  | .assign | .compound _ =>
    if place.mode.shell && !place.mode.inside then node.targetName? else none
  | _ => none

mutual

def exposes (place : Place) (name : String) : StoredNode → Bool
  | mk label tag text span children =>
    (mk label tag text span children).exposed? place = some name ||
      anyExposes place tag name children

def anyExposes (place : Place) (tag : Tag) (name : String) : List StoredNode → Bool
  | [] => false
  | node :: rest =>
    exposes (place.under tag node.label) name node || anyExposes place tag name rest

end

theorem allOf_eq_flatMap (nodes : List StoredNode) : allOf nodes = nodes.flatMap all := by
  induction nodes with
  | nil => rfl
  | cons node rest ih => simp [allOf, ih]

theorem all_eq (node : StoredNode) : node.all = node :: node.children.flatMap all := by
  cases node
  simp [all, allOf_eq_flatMap, children]

def positions (start : NodeId) : List StoredNode → List NodeId
  | [] => []
  | node :: rest => start :: positions (start + node.all.length) rest

theorem positions_append (start : NodeId) (nodes : List StoredNode) (last : StoredNode) :
    positions start (nodes ++ [last]) =
      positions start nodes ++ [start + (nodes.flatMap all).length] := by
  induction nodes generalizing start with
  | nil => rfl
  | cons node rest ih =>
      rw [List.cons_append, positions, positions, ih, List.cons_append, List.flatMap_cons,
        List.length_append, Nat.add_assoc]

theorem mem_all_self (node : StoredNode) : node ∈ node.all := by
  rw [all_eq]
  exact List.mem_cons_self

theorem all_subset {node child : StoredNode} (member : child ∈ node.children) :
    child.all ⊆ node.all := by
  intro inner inside
  rw [all_eq node, List.mem_cons, List.mem_flatMap]
  exact .inr ⟨child, member, inside⟩

theorem anyCanReturn_eq_any (nodes : List StoredNode) :
    anyCanReturn nodes = nodes.any canReturn := by
  induction nodes with
  | nil => rfl
  | cons node rest ih => simp [anyCanReturn, ih]

theorem canReturn_iff (node : StoredNode) : node.canReturn = true ↔
    node.tag = .returnStmt ∨
      node.tag ≠ .funcDecl ∧ ∃ child ∈ node.children, child.canReturn = true := by
  cases node
  simp [canReturn, anyCanReturn_eq_any, tag, children]

theorem anyMayDeclare_eq_any (mode : Mode) (nodes : List StoredNode) :
    anyMayDeclare mode nodes = nodes.any (mayDeclare mode) := by
  induction nodes with
  | nil => rfl
  | cons node rest ih => simp [anyMayDeclare, ih]

theorem mayDeclare_iff (mode : Mode) (node : StoredNode) : node.mayDeclare mode = true ↔
    node.tag.declares mode = true ∨ ∃ child ∈ node.children, child.mayDeclare mode = true := by
  cases node
  simp [mayDeclare, anyMayDeclare_eq_any, tag, children]

theorem anyExposes_eq_any (place : Place) (tag : Tag) (name : String) (nodes : List StoredNode) :
    anyExposes place tag name nodes =
      nodes.any fun node => node.exposes (place.under tag node.label) name := by
  induction nodes with
  | nil => rfl
  | cons node rest ih => simp [anyExposes, ih]

theorem exposes_iff (place : Place) (name : String) (node : StoredNode) :
    node.exposes place name = true ↔ node.exposed? place = some name ∨
      ∃ child ∈ node.children, child.exposes (place.under node.tag child.label) name = true := by
  cases node
  simp [exposes, anyExposes_eq_any, tag, children]

theorem exposed?_of_cover {place : Place} {node : StoredNode} {name : String}
    (exposed : node.exposed? place.cover = some name) : node.exposed? place = some name := by
  unfold exposed? at exposed ⊢
  cases isTag : node.tag <;> simp_all [Place.cover]

mutual

/-- What may become a global in a scope may become one outside it. -/
theorem exposes_of_cover {place : Place} {name : String} : (node : StoredNode) →
    node.exposes place.cover name = true → node.exposes place name = true
  | mk label tag text span children, exposed => by
    rw [exposes, Bool.or_eq_true, decide_eq_true_eq] at exposed ⊢
    exact exposed.imp exposed?_of_cover (anyExposes_of_cover children)

theorem anyExposes_of_cover {place : Place} {tag : Tag} {name : String} :
    (nodes : List StoredNode) → anyExposes place.cover tag name nodes = true →
      anyExposes place tag name nodes = true
  | [], exposed => exposed
  | node :: rest, exposed => by
    rw [anyExposes, Bool.or_eq_true] at exposed ⊢
    rw [Place.cover_under] at exposed
    exact exposed.imp (exposes_of_cover node) (anyExposes_of_cover rest)

end

end StoredNode

namespace Branch

mutual

def stored : Branch → StoredNode
  | mk label _ node kids => .mk label node.tag node.text node.span (storedAll kids)

def storedAll : List Branch → List StoredNode
  | [] => []
  | kid :: rest => stored kid :: storedAll rest

end

theorem storedAll_eq_map (branches : List Branch) : storedAll branches = branches.map stored := by
  induction branches with
  | nil => rfl
  | cons kid rest ih => simp [storedAll, ih]

theorem stored_eq (branch : Branch) : branch.stored =
    .mk branch.label branch.node.tag branch.node.text branch.node.span
      (branch.kids.map stored) := by
  cases branch
  simp [stored, storedAll_eq_map]

@[simp]
theorem tag_stored (branch : Branch) : branch.stored.tag = branch.node.tag := by
  rw [stored_eq, StoredNode.tag]

@[simp]
theorem text_stored (branch : Branch) : branch.stored.text = branch.node.text := by
  rw [stored_eq, StoredNode.text]

@[simp]
theorem note_stored (branch : Branch) : branch.stored.note = branch.node.note := by
  rw [stored_eq, StoredNode.note, StoredNode.text, StoredNode.span, Node.note]

@[simp]
theorem label_stored (branch : Branch) : branch.stored.label = branch.label := by
  rw [stored_eq, StoredNode.label]

@[simp]
theorem children_stored (branch : Branch) : branch.stored.children = branch.kids.map stored := by
  rw [stored_eq, StoredNode.children]

theorem first?_stored (branch : Branch) (label : Label) :
    branch.stored.first? label = (branch.first? label).map stored := by
  rw [StoredNode.first?, children_stored, List.find?_map, Branch.first?]
  simp only [Function.comp_def, label_stored]

theorem Kid.first?_stored {branch kid : Branch} {label : Label} {index : Nat}
    (isKid : branch.Kid label index kid) : branch.stored.first? label = some kid.stored := by
  rw [Branch.first?_stored, isKid.first?, Option.map_some]

theorem targetName?_stored {branch target : Branch} {index : Nat}
    (isTarget : branch.Kid .left index target) : branch.stored.targetName? =
      if target.node.tag = .name then some (target.node.text.getD "") else none := by
  rw [StoredNode.targetName?, isTarget.first?_stored]
  simp only [Option.bind_eq_bind, Option.bind_some, tag_stored, text_stored]

inductive Blank : Branch → Prop where
  | mk {branch : Branch} : branch.node.ty = none → branch.node.binding = .unbound →
      branch.node.done = false → (∀ kid ∈ branch.kids, Blank kid) → Blank branch

section Blank

variable {branch inner : Branch}

theorem Blank.ty_eq (blank : branch.Blank) : branch.node.ty = none := by
  cases blank
  assumption

theorem Blank.binding_eq (blank : branch.Blank) : branch.node.binding = .unbound := by
  cases blank
  assumption

theorem Blank.done_eq (blank : branch.Blank) : branch.node.done = false := by
  cases blank
  assumption

theorem Blank.kid (blank : branch.Blank) (member : inner ∈ branch.kids) : inner.Blank := by
  cases blank with
  | mk _ _ _ kids => exact kids inner member

theorem Blank.under (blank : branch.Blank) (label : Option Label) : (branch.under label).Blank :=
  .mk blank.ty_eq blank.binding_eq blank.done_eq fun _ member => blank.kid member

end Blank

end Branch

end ScriptTyping
