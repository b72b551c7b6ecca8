import ScriptTyping.Check.Visit
import ScriptTyping.Proofs.Check.Step

/-!
What is known of a tree before it is checked, and of the branches that are still to be checked: they
stand as they were loaded or copied.
-/

namespace ScriptTyping

def Tag.storeLabels? : Tag → Option (List Label)
  | assign => some [.left, .right]
  | compound _ => some [.left, .right]
  | varDecl => some [.name, .type, .expr]
  | _ => none

def Tag.isSequence : Tag → Bool
  | source => true
  | statementList => true
  | block => true
  | _ => false

namespace StoredNode

def asides (node : StoredNode) : List StoredNode :=
  match node.tag with
  | .varDecl => [Label.name, .type].filterMap node.first?
  | .funcDecl =>
    [Label.name, .type].filterMap node.first? ++
      (((node.first? .param).map children).getD []).flatMap fun param =>
        param :: (param.first? .type).toList
  | .forEach => (node.first? .name).toList
  | .new => (node.first? .type).toList
  | .cast => (node.first? .type).toList
  | .instanceOf => (node.first? .right).toList
  | _ => []

def labels (node : StoredNode) : List Label := node.children.filterMap label

/-- Whether an assignment or a variable has at most one child under each label that its rule reads,
and none under another label. -/
def Tidy (node : StoredNode) : Prop :=
  ∀ known ∈ node.tag.storeLabels?, (∀ label ∈ node.labels, label ∈ known) ∧ node.labels.Nodup

instance (node : StoredNode) : Decidable node.Tidy :=
  inferInstanceAs (Decidable (∀ known ∈ node.tag.storeLabels?, _ ∧ _))

theorem Tidy.absent {node : StoredNode} {known : List Label} {label : Label} (tidy : node.Tidy)
    (isKnown : node.tag.storeLabels? = some known) (other : label ∉ known) : node.first? label = none := by
  rw [first?, List.find?_eq_none]
  intro child member labelled
  have inside : label ∈ node.labels :=
    List.mem_filterMap.mpr ⟨child, member, by simpa using labelled⟩
  exact other ((tidy known isKnown).1 label inside)

theorem Tidy.lone {node : StoredNode} {known : List Label} (tidy : node.Tidy)
    (isKnown : node.tag.storeLabels? = some known) (label : Label) : (node.under label).length ≤ 1 := by
  have once := List.nodup_iff_count_le_one.mp (tidy known isKnown).2 label
  refine Nat.le_trans (Nat.le_of_eq ?_) once
  rw [under, ← List.countP_eq_length_filter, labels, List.count, List.countP_filterMap]
  refine List.countP_congr fun child _ => ?_
  cases child.label <;> simp

def argumentCount (node : StoredNode) : Nat :=
  match node.first? .param with
  | some list => if list.tag = .list then list.children.length else 1
  | none => 0

end StoredNode

namespace Tree

def argumentCount (tree : Tree) (id : NodeId) : Nat :=
  match tree.child? id .param with
  | some list => if tree.tag list = .list then (tree.childIds list).length else 1
  | none => 0

theorem Holds.argumentCount_eq {tree : Tree} {branch : Branch} (holds : tree.Holds branch) :
    tree.argumentCount branch.id = branch.stored.argumentCount := by
  unfold argumentCount StoredNode.argumentCount
  rw [holds.child?_eq, Branch.first?_stored]
  cases found : branch.first? .param with
  | none => rfl
  | some list =>
      have member : list ∈ branch.kids := List.mem_of_find?_eq_some found
      simp only [Option.map_some, (holds.kid member).tag_eq, (holds.kid member).childIds_eq,
        Branch.tag_stored, Branch.children_stored, List.length_map]

def indexerOf? (tree : Tree) (id : NodeId) : Option NodeId :=
  if tree.tag id = .indexer then some id
  else (tree.child? id .left).filter fun target => tree.tag target = .indexer

end Tree

/-- What is known of a tree before it is checked. Little need be known of failed statements. -/
structure Premise where
  /-- No node is a conversion up or down. -/
  plain : Prop
  /-- A return has at most one expression, and no other return of its function inside it. -/
  lone : Prop
  /-- Assignments and variables have at most one child under each label, and no other labels. -/
  tidy : Prop
  /-- The kinds of nodes that may get a type without a visit. -/
  aside : Tag → Prop
  /-- No node stands for a failed statement. -/
  clean : Prop := False
  /-- The statements that a sequence of a kind may consist of. -/
  known : Tag → List StoredNode → Prop := fun _ _ => True
  /-- How many index expressions an indexer may have. -/
  indices : Nat → Prop := fun _ => True
  /-- The arena as it was loaded, or an empty one. -/
  loaded : Tree := {}

structure Premise.Allows (premise : Premise) (node : StoredNode) : Prop where
  plain : premise.plain → node.tag ≠ .upCast ∧ node.tag ≠ .downCast
  lone : premise.lone → node.tag = .returnStmt →
    (node.under .expr).length ≤ 1 ∧ ∀ child ∈ node.under .expr, child.canReturn = false
  tidy : premise.tidy → node.Tidy
  aside : ∀ child ∈ node.asides, premise.aside child.tag
  clean : premise.clean → node.tag ≠ .error
  known : node.tag.isSequence = true → premise.known node.tag node.children
  indices : node.tag = .indexer → premise.indices node.argumentCount

/-- How many index expressions a node may take as an indexer or as an assignment to one: those that
were written, if the node was loaded. -/
def Premise.Indexes (premise : Premise) (id : NodeId) (count : Nat) : Prop :=
  premise.indices count ∧ (id < premise.loaded.nodes.size →
    (premise.loaded.indexerOf? id).map premise.loaded.argumentCount = some count)

def Branch.Aims (premise : Premise) (branch : Branch) : Prop :=
  ∀ target, branch.first? .left = some target → target.node.tag = .indexer →
    premise.Indexes branch.id target.stored.argumentCount

theorem Branch.Aims.congr {premise : Premise} {branch after : Branch} (aims : branch.Aims premise)
    (id : after.id = branch.id) (target : after.first? .left = branch.first? .left) :
    after.Aims premise := by
  intro kid found isTag
  rw [id]
  exact aims kid (target.symm.trans found) isTag

def Branch.InPlace (branch : Branch) : Prop :=
  branch.kids.map Branch.id = StoredNode.positions (branch.id + 1) (branch.kids.map Branch.stored)

inductive Branch.Placed (loaded : Tree) : Branch → Prop where
  | mk {branch : Branch} : (branch.node.tag.isSequence = true → branch.InPlace) →
      (branch.id < loaded.nodes.size → loaded.Holds branch) →
      (∀ kid ∈ branch.kids, Placed loaded kid) → Placed loaded branch

section Placed

variable {loaded : Tree} {branch inner : Branch}

theorem Branch.Placed.top (placed : branch.Placed loaded)
    (isSequence : branch.node.tag.isSequence = true) : branch.InPlace := by
  cases placed with
  | mk top _ _ => exact top isSequence

theorem Branch.Placed.holds (placed : branch.Placed loaded)
    (isOld : branch.id < loaded.nodes.size) : loaded.Holds branch := by
  cases placed with
  | mk _ holds _ => exact holds isOld

theorem Branch.Placed.kid (placed : branch.Placed loaded) (member : inner ∈ branch.kids) :
    inner.Placed loaded := by
  cases placed with
  | mk _ _ kids => exact kids inner member

/-- A branch that was just loaded. -/
theorem Branch.Packed.placed (packed : branch.Packed) (holds : loaded.Holds branch) :
    branch.Placed loaded := by
  induction packed with
  | @mk branch isPacked _ ih =>
      exact .mk (fun _ => isPacked) (fun _ => holds) fun kid member =>
        ih kid member (holds.kid member)

/-- A branch that was just copied. -/
theorem Branch.Packed.placedLater (packed : branch.Packed)
    (fresh : ∀ position ∈ branch.ids, loaded.nodes.size ≤ position) : branch.Placed loaded := by
  induction packed with
  | @mk branch isPacked _ ih =>
      refine .mk (fun _ => isPacked) (fun isOld => ?_) fun kid member =>
        ih kid member fun position inside => fresh position (Branch.ids_subset member inside)
      exact absurd isOld (Nat.not_lt.mpr (fresh _ branch.id_mem_ids))

end Placed

structure Raw (premise : Premise) (branch : Branch) : Prop where
  blank : branch.Blank
  allows : ∀ node ∈ branch.stored.all, premise.Allows node
  placed : branch.Placed premise.loaded

section Raw

variable {premise : Premise} {branch inner : Branch}

theorem Raw.kid (raw : Raw premise branch) (member : inner ∈ branch.kids) : Raw premise inner := by
  refine ⟨raw.blank.kid member, fun node inside => raw.allows node ?_, raw.placed.kid member⟩
  refine StoredNode.all_subset ?_ inside
  rw [Branch.children_stored]
  exact List.mem_map_of_mem member

theorem Raw.top (raw : Raw premise branch) : premise.Allows branch.stored :=
  raw.allows _ branch.stored.mem_all_self

theorem Raw.ofKids (blank : branch.Blank) (top : premise.Allows branch.stored)
    (place : branch.node.tag.isSequence = true → branch.InPlace)
    (holds : branch.id < premise.loaded.nodes.size → premise.loaded.Holds branch)
    (kids : ∀ kid ∈ branch.kids, Raw premise kid) : Raw premise branch := by
  refine ⟨blank, ?_, .mk place holds fun kid member => (kids kid member).placed⟩
  intro node inside
  rw [StoredNode.all_eq, Branch.children_stored, List.mem_cons, List.mem_flatMap] at inside
  rcases inside with same | ⟨child, isChild, inside⟩
  · rw [same]
    exact top
  · obtain ⟨kid, member, rfl⟩ := List.mem_map.mp isChild
    exact (kids kid member).allows node inside

theorem Premise.Allows.under {label : Option Label} (allows : premise.Allows branch.stored) :
    premise.Allows (branch.under label).stored := by
  obtain ⟨plain, lone, tidy, aside, clean, known, indices⟩ := allows
  rw [Branch.stored_eq] at *
  exact ⟨plain, lone, tidy, aside, clean, known, indices⟩

theorem Raw.under (raw : Raw premise branch) (label : Option Label) :
    Raw premise (branch.under label) :=
  .ofKids (raw.blank.under label) raw.top.under raw.placed.top
    (fun isOld => (raw.placed.holds isOld).under label) fun _ member => raw.kid member

/-- A raw indexer was loaded with its index expressions, or copied with them. -/
theorem Raw.indexes (raw : Raw premise branch) (isTag : branch.node.tag = .indexer) :
    premise.Indexes branch.id branch.stored.argumentCount := by
  refine ⟨raw.top.indices (by rw [Branch.tag_stored, isTag]), fun isOld => ?_⟩
  have holds := raw.placed.holds isOld
  rw [Tree.indexerOf?, if_pos (holds.tag_eq.trans isTag), Option.map_some, holds.argumentCount_eq]

theorem Raw.aims (raw : Raw premise branch) (other : branch.node.tag ≠ .indexer) :
    branch.Aims premise := by
  intro target found isTag
  have member : target ∈ branch.kids := List.mem_of_find?_eq_some found
  refine ⟨((raw.kid member).indexes isTag).1, fun isOld => ?_⟩
  have holds := raw.placed.holds isOld
  have holdsTarget := holds.kid member
  rw [Tree.indexerOf?, if_neg (by rwa [holds.tag_eq]), holds.child?_eq, found, Option.map_some,
    Option.filter_some_pos (by simpa [holdsTarget.tag_eq] using isTag), Option.map_some,
    holdsTarget.argumentCount_eq]

end Raw

end ScriptTyping
