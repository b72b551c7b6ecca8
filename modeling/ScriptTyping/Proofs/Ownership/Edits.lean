import ScriptTyping.Proofs.Locality.Realm
import ScriptTyping.Proofs.Ownership.Copy
import ScriptTyping.Proofs.Ownership.Split

/-!
Sequences of changes of an arena. With the children in one list and the labels in another, both
lists of every node go together to the end, no child is missing in the arena, and a label leads to
the first child that has it. Only a copy of what hangs below itself never ends.
-/

namespace ScriptTyping

inductive Edit where
  | alloc (tag : Tag) (span : Span) (text : Option String)
  | node (tag : Tag) (children : List (Label × NodeId))
  | list (tag : Tag) (items : List NodeId)
  | pushChild (parent : NodeId) (label : Option Label) (child : NodeId)
  | replaceChild (parent : NodeId) (index : Nat) (child : NodeId)
  | setChild (parent : NodeId) (label : Label) (child : NodeId)
  | relabel (parent : NodeId) (old new : Label)
  | removeChild (parent : NodeId) (label : Label)
  | make (parent : NodeId) (children : List (Label × NodeId))
  | flatten (parent : NodeId) (items : List NodeId)
  | wrap (tag : Tag) (label : Label) (inner : NodeId)
  | dup (id : NodeId)

namespace Edit

def ids : Edit → List NodeId
  | alloc .. => []
  | node _ children => children.map fun (_, child) => child
  | list _ items => items
  | pushChild parent _ child => [parent, child]
  | replaceChild parent _ child => [parent, child]
  | setChild parent _ child => [parent, child]
  | relabel parent _ _ => [parent]
  | removeChild parent _ => [parent]
  | make parent children => parent :: children.map fun (_, child) => child
  | flatten parent items => parent :: items
  | wrap _ _ inner => [inner]
  | dup id => [id]

def slot? : Edit → Option Slot
  | replaceChild parent index _ => some ⟨parent, index⟩
  | _ => none

end Edit

def Tree.edit (tree : Tree) : Edit → Tree
  | .alloc tag span text => (tree.alloc { tag, span, text }).2
  | .node tag children => (tree.labelled tag children).2
  | .list tag items => (tree.sequence tag items).2
  | .pushChild parent label child => tree.pushChild parent label child
  | .replaceChild parent index child => tree.replaceAt parent index child
  | .setChild parent label child => tree.setChild parent label child
  | .relabel parent old new => tree.relabel parent old new
  | .removeChild parent label => tree.removeChild parent label
  | .make parent children => tree.make parent children
  | .flatten parent items => tree.flatten parent items
  | .wrap tag label inner => (tree.wrap tag label inner).2
  | .dup id => (tree.dup id).2

def Tree.editAll (tree : Tree) (edits : List Edit) : Tree := edits.foldl Tree.edit tree

def SplitTree.edit (tree : SplitTree) : Edit → Option SplitTree
  | .alloc tag span text => some (tree.alloc tag span text).2
  | .node tag children => (tree.labelled tag children).map Prod.snd
  | .list tag items => (tree.sequence tag items).map Prod.snd
  | .pushChild parent label child => tree.pushChild parent label child
  | .replaceChild parent index child => tree.change parent (·.replaceAt index child)
  | .setChild parent label child => tree.change parent (·.setChild label child)
  | .relabel parent old new => tree.change parent fun node => some (node.relabel old new)
  | .removeChild parent label => tree.change parent (·.removeChild label)
  | .make parent children => tree.change parent fun node => some (node.make children)
  | .flatten parent items => tree.flatten parent items
  | .wrap tag label inner => (tree.wrap tag label inner).map Prod.snd
  | .dup id => (tree.dup id).map Prod.snd

def SplitTree.editAll (tree : SplitTree) (edits : List Edit) : Option SplitTree :=
  edits.foldlM SplitTree.edit tree

namespace Tree

variable {tree base now : Tree} {id top kid : NodeId} {depth : Nat} {step : Edit}
  {edits : List Edit}

structure Fits (tree : Tree) (edit : Edit) : Prop where
  exist : ∀ id ∈ edit.ids, id < tree.nodes.size
  inRange : ∀ slot ∈ edit.slot?, slot.index < (tree.get slot.parent).children.length

instance : Decidable (tree.Fits step) :=
  decidable_of_iff ((∀ id ∈ step.ids, id < tree.nodes.size) ∧
      ∀ slot ∈ step.slot?, slot.index < (tree.get slot.parent).children.length)
    ⟨fun fits => ⟨fits.1, fits.2⟩, fun fits => ⟨fits.exist, fits.inRange⟩⟩

def FitsAll : Tree → List Edit → Prop
  | _, [] => True
  | tree, edit :: edits => tree.Fits edit ∧ (tree.edit edit).FitsAll edits

instance decidableFitsAll : (tree : Tree) → (edits : List Edit) → Decidable (tree.FitsAll edits)
  | _, [] => isTrue trivial
  | tree, step :: edits =>
    have := decidableFitsAll (tree.edit step) edits
    inferInstanceAs (Decidable (_ ∧ _))

structure Closed (tree : Tree) : Prop where
  bound : ∀ {id kid}, kid ∈ tree.childIds id → kid < tree.nodes.size

/-! ### Closed arenas -/

theorem Closed.kids (closed : tree.Closed) {child : Child}
    (isChild : child ∈ (tree.get id).children) : child.node < tree.nodes.size :=
  closed.bound (List.mem_map_of_mem isChild)

theorem Closed.alloc (closed : tree.Closed) {node : Node}
    (kids : ∀ child ∈ node.children, child.node < tree.nodes.size) :
    (tree.alloc node).2.Closed := by
  refine ⟨fun {id kid} member => ?_⟩
  obtain ⟨child, isChild, rfl⟩ := List.mem_map.mp member
  rw [size_alloc]
  refine Nat.lt_succ_of_lt ?_
  by_cases new : id = tree.nodes.size
  · rw [new, get_alloc_new] at isChild
    exact kids child isChild
  · rw [get_alloc_other tree node new] at isChild
    exact closed.kids isChild

def nodesOf (tree : Tree) : Realm where
  inside id := id < tree.nodes.size
  starts _ := True
  source := tree.source
  origin := trivial

theorem Closed.admits (closed : tree.Closed) (id : NodeId) : tree.nodesOf.Admits (tree.get id) :=
  ⟨trivial, fun _ => closed.kids⟩

theorem Closed.modify (closed : tree.Closed) {change : Node → Node}
    (admits : tree.nodesOf.Admits (change (tree.get id))) : (tree.modify id change).Closed := by
  refine ⟨fun {position kid} member => ?_⟩
  obtain ⟨child, isChild, rfl⟩ := List.mem_map.mp member
  rw [size_modify]
  by_cases here : position = id ∧ position < tree.nodes.size
  · obtain ⟨rfl, bound⟩ := here
    rw [get_modify_self tree change bound] at isChild
    exact admits.kids child isChild
  · rw [get_modify_unchanged here] at isChild
    exact closed.kids isChild

theorem Closed.pushChild (closed : tree.Closed) (label : Option Label)
    (inside : kid < tree.nodes.size) : (tree.pushChild id label kid).Closed :=
  closed.modify ((closed.admits id).push inside label)

theorem Closed.branch (closed : tree.Closed) (tag : Tag) {children : List Child}
    (kids : ∀ child ∈ children, child.node < tree.nodes.size) :
    (tree.branch tag children).2.Closed :=
  closed.alloc kids

theorem Closed.splice (closed : tree.Closed) {items : List NodeId}
    (bound : ∀ item ∈ items, item < tree.nodes.size) :
    ∀ item ∈ tree.splice items, item < tree.nodes.size := by
  intro item member
  obtain ⟨list, isItem, inside⟩ := List.mem_flatMap.mp member
  split at inside
  · exact closed.bound inside
  · rw [List.mem_singleton.mp inside]
    exact bound list isItem

/-! ### Copies -/

theorem Adds.modify (adds : base.Adds now) (fresh : base.nodes.size ≤ id)
    (change : Node → Node) : base.Adds (now.modify id change) := by
  refine ⟨by simpa using adds.size, fun position bound => ?_, adds.root, adds.source⟩
  have different : position ≠ id := Nat.ne_of_lt (Nat.lt_of_lt_of_le bound fresh)
  rw [get_modify_other now change different, adds.get position bound]

/-- A copy only adds nodes, even one that goes no further than a few levels. -/
theorem copy_adds (depth : Nat) (tree : Tree) (id : NodeId) :
    tree.Adds (copy depth tree id).2 := by
  induction depth generalizing tree id with
  | zero =>
      rw [copy]
      exact tree.alloc_adds default
  | succ depth ih =>
      have children {now : Tree} (adds : tree.Adds now) (rest : List Child) :
          tree.Adds (copyChildren depth now tree.nodes.size rest) := by
        induction rest generalizing now with
        | nil =>
            rw [copyChildren]
            exact adds
        | cons child rest ihRest =>
            rw [copyChildren]
            exact ihRest ((adds.trans (ih now child.node)).modify (Nat.le_refl _) _)
      rw [copy]
      exact children (tree.alloc_adds _) _

theorem alloc_inside (tree : Tree) (node : Node) :
    (tree.alloc node).1 < (tree.alloc node).2.nodes.size := by
  rw [size_alloc]
  exact Nat.lt_succ_self tree.nodes.size

theorem Closed.copy (closed : tree.Closed) (depth : Nat) (id : NodeId) :
    (Tree.copy depth tree id).2.Closed ∧
      (Tree.copy depth tree id).1 < (Tree.copy depth tree id).2.nodes.size := by
  induction depth generalizing tree id with
  | zero =>
      rw [Tree.copy]
      exact ⟨closed.alloc fun child isChild => by simp [default] at isChild,
        tree.alloc_inside default⟩
  | succ depth ih =>
      have children {now : Tree} {top : NodeId} (closed : now.Closed)
          (inside : top < now.nodes.size) (rest : List Child) :
          (copyChildren depth now top rest).Closed ∧
            top < (copyChildren depth now top rest).nodes.size := by
        induction rest generalizing now with
        | nil =>
            rw [copyChildren]
            exact ⟨closed, inside⟩
        | cons child rest ihRest =>
            obtain ⟨closedInner, bound⟩ := ih closed child.node
            have size := (copy_adds depth now child.node).size
            rw [copyChildren]
            refine ihRest (closedInner.pushChild _ bound) ?_
            rw [Tree.pushChild, size_modify]
            exact Nat.lt_of_lt_of_le inside size
      rw [Tree.copy]
      exact children (closed.alloc fun child isChild => by simp at isChild)
        (tree.alloc_inside _) _

/-- What a copy of the lists comes to: it is the copy of the tree, or there are more levels than it
may go down. -/
def Copies (depth : Nat) (tree : Tree) (id : NodeId) : Prop :=
  tree.split.copy depth id = some ((copy depth tree id).1, (copy depth tree id).2.split) ∨
    tree.split.copy depth id = none ∧
      ∀ branch : Branch, branch.id = id → tree.Holds branch → ¬ branch.Within depth

section Copies

variable (copies : ∀ {tree : Tree} {id : NodeId}, tree.Closed → id < tree.nodes.size →
  Copies depth tree id)

include copies

theorem split_copyChildren {front rest : List Child} (closed : now.Closed) (adds : base.Adds now)
    (bound : id < base.nodes.size) (inside : top < now.nodes.size) (fresh : base.nodes.size ≤ top)
    (children : (base.get id).children = front ++ rest) :
    (List.range' front.length rest.length).foldlM
        (SplitTree.copyChild (SplitTree.copy depth) id top) now.split =
      some (copyChildren depth now top rest).split ∨
    (List.range' front.length rest.length).foldlM
        (SplitTree.copyChild (SplitTree.copy depth) id top) now.split = none ∧
      ∃ child ∈ rest, ∀ branch : Branch, branch.id = child.node → base.Holds branch →
        ¬ branch.Within depth := by
  -- the original keeps its children: the copies only go to nodes that it does not have
  induction rest generalizing now front with
  | nil =>
      rw [copyChildren]
      exact .inl rfl
  | cons child rest ih =>
      have same : (now.get id).children = front ++ child :: rest := by
        rw [adds.get id bound, children]
      have kid : (now.get id).split.childAt? front.length = some child.node := by
        simp [Node.split_childAt?, Node.childAt?, same]
      have label : (now.get id).split.labelAt? front.length = child.label := by
        simp [Node.split_labelAt?, Node.labelAt?, same]
      have isChild : child ∈ (now.get id).children := by simp [same]
      have step : now.split.copyChild (SplitTree.copy depth) id top front.length =
          (now.split.copy depth child.node).bind fun copied =>
            copied.2.pushChild top child.label copied.1 := by
        rw [SplitTree.copyChild, split_get? (Nat.lt_of_lt_of_le bound adds.size)]
        simp only [Option.bind_eq_bind, Option.bind_some, kid, label]
      rw [List.length_cons, List.range'_succ, List.foldlM_cons, step, Option.bind_eq_bind]
      rcases copies closed (closed.kids isChild) with copied | ⟨stuck, deep⟩
      · obtain ⟨closedInner, insideInner⟩ := closed.copy depth child.node
        have addsInner := copy_adds depth now child.node
        have insideTop := Nat.lt_of_lt_of_le inside addsInner.size
        have parts : (base.get id).children = front ++ [child] ++ rest := by
          rw [children, List.append_assoc, List.singleton_append]
        have later := ih (closedInner.pushChild child.label insideInner)
          ((adds.trans addsInner).modify fresh _) (by rwa [pushChild, size_modify]) parts
        rw [List.length_append, List.length_singleton] at later
        simp only [copied, Option.bind_some, split_pushChild insideTop, copyChildren]
        rcases later with copied | ⟨stops, other, isOther, deep⟩
        · exact .inl copied
        · exact .inr ⟨stops, other, List.mem_cons_of_mem _ isOther, deep⟩
      · rw [stuck]
        exact .inr ⟨rfl, child, List.mem_cons_self, fun branch same holds =>
          deep branch same (holds.adds adds)⟩

end Copies

theorem Closed.copies (closed : tree.Closed) (inside : id < tree.nodes.size) (depth : Nat) :
    Copies depth tree id := by
  induction depth generalizing tree id with
  | zero => exact .inr ⟨rfl, fun _ _ _ within => by cases within⟩
  | succ depth ih =>
      let bare : Node := { tag := tree.tag id, span := tree.span id, text := (tree.get id).text }
      have closedNew : (tree.alloc bare).2.Closed :=
        closed.alloc fun child isChild => absurd isChild List.not_mem_nil
      have whole : (tree.get id).children = [] ++ (tree.get id).children := rfl
      have children := split_copyChildren ih closedNew
        (tree.alloc_adds bare) inside (tree.alloc_inside bare) (Nat.le_refl _) whole
      have count : (tree.get id).split.childIds.length = (tree.get id).children.length := by
        simp [Node.split]
      have step : tree.split.copy (depth + 1) id =
          ((List.range' 0 (tree.get id).children.length).foldlM
            (SplitTree.copyChild (SplitTree.copy depth) id tree.nodes.size)
            (tree.alloc bare).2.split).map (tree.nodes.size, ·) := by
        rw [SplitTree.copy, split_get? inside, Option.bind_eq_bind, Option.bind_some, split_alloc,
          count, List.range_eq_range', Option.map_eq_bind]
        rfl
      rw [Copies, step, Tree.copy]
      rcases children with copied | ⟨stuck, child, isChild, deep⟩
      · exact .inl (congrArg (Option.map (tree.nodes.size, ·)) copied)
      · refine .inr ⟨congrArg (Option.map (tree.nodes.size, ·)) stuck, ?_⟩
        rintro branch rfl holds within
        rw [holds.get_eq, holds.children_eq] at isChild
        obtain ⟨kid, isKid, rfl⟩ := List.mem_map.mp isChild
        exact deep kid rfl (holds.kid isKid) (within.kid kid isKid)

/-! ### Single edits -/

theorem Closed.edit (closed : tree.Closed) (fits : tree.Fits step) : (tree.edit step).Closed := by
  have exist := fits.exist
  cases step with
  | alloc tag span text =>
      rw [Tree.edit]
      exact closed.alloc fun child isChild => absurd isChild List.not_mem_nil
  | node tag children =>
      rw [Edit.ids, List.forall_mem_map] at exist
      rw [Tree.edit, Tree.labelled]
      exact closed.branch tag (List.forall_mem_map.mpr exist)
  | list tag items =>
      rw [Tree.edit, Tree.sequence]
      exact closed.branch tag (List.forall_mem_map.mpr exist)
  | pushChild parent label child =>
      rw [Tree.edit]
      exact closed.pushChild label (exist child (by simp [Edit.ids]))
  | replaceChild parent index child =>
      have inside : child < tree.nodes.size := exist child (by simp [Edit.ids])
      rw [Tree.edit, Tree.replaceAt]
      exact closed.modify ((closed.admits parent).replaceAt index inside)
  | setChild parent label child =>
      have inside : child < tree.nodes.size := exist child (by simp [Edit.ids])
      rw [Tree.edit, Tree.setChild]
      exact closed.modify ((closed.admits parent).setChild label inside)
  | relabel parent old new =>
      rw [Tree.edit, Tree.relabel]
      exact closed.modify ((closed.admits parent).relabel old new)
  | removeChild parent label =>
      rw [Tree.edit, Tree.removeChild]
      exact closed.modify ((closed.admits parent).removeChild label)
  | make parent children =>
      rw [Edit.ids, List.forall_mem_cons, List.forall_mem_map] at exist
      rw [Tree.edit, Tree.make]
      exact closed.modify ((closed.admits parent).withChildren (List.forall_mem_map.mpr exist.2))
  | flatten parent items =>
      rw [Edit.ids, List.forall_mem_cons] at exist
      have inside := closed.splice exist.2
      rw [Tree.edit, Tree.flatten]
      exact closed.modify ((closed.admits parent).withChildren (List.forall_mem_map.mpr inside))
  | wrap tag label inner =>
      have inside : inner < tree.nodes.size := exist inner (by simp [Edit.ids])
      rw [Tree.edit, Tree.wrap]
      exact closed.alloc (by simpa using inside)
  | dup id =>
      rw [Tree.edit, Tree.dup]
      exact (closed.copy tree.nodes.size id).1

theorem Closed.split_dup (closed : tree.Closed) (inside : id < tree.nodes.size) :
    tree.split.dup id = some ((tree.dup id).1, (tree.dup id).2.split) ∨
      tree.split.dup id = none ∧ ¬ tree.Acyclic id := by
  rw [SplitTree.dup, size_split]
  rcases closed.copies inside tree.nodes.size with copied | ⟨stuck, deep⟩
  · exact .inl copied
  · refine .inr ⟨stuck, fun acyclic => ?_⟩
    obtain ⟨branch, _, same, holds, within⟩ := acyclic.exists_branch none
    exact deep branch same holds (within.mono (tree.card_reached_le id))

theorem Closed.split_edit (closed : tree.Closed) (fits : tree.Fits step) :
    tree.split.edit step = some (tree.edit step).split ∨
      ∃ id, step = .dup id ∧ tree.split.edit step = none ∧ ¬ tree.Acyclic id := by
  have exist := fits.exist
  cases step with
  | alloc tag span text =>
      rw [SplitTree.edit, split_alloc]
      exact .inl rfl
  | node tag children =>
      rw [Edit.ids, List.forall_mem_map] at exist
      have branch : tree.split.labelled tag children = _ :=
        split_branch tag (List.forall_mem_map.mpr exist)
      exact .inl (congrArg (Option.map Prod.snd) branch)
  | list tag items =>
      have branch : tree.split.sequence tag items = _ :=
        split_branch tag (List.forall_mem_map.mpr exist)
      exact .inl (congrArg (Option.map Prod.snd) branch)
  | pushChild parent label child =>
      exact .inl (split_pushChild (exist parent (by simp [Edit.ids])) label child)
  | replaceChild parent index child =>
      have inRange := fits.inRange ⟨parent, index⟩ rfl
      exact .inl (split_change (exist parent (by simp [Edit.ids]))
        (Node.split_replaceAt _ child inRange))
  | setChild parent label child =>
      exact .inl (split_change (exist parent (by simp [Edit.ids]))
        (Node.split_setChild _ label child))
  | relabel parent old new =>
      exact .inl (split_change (exist parent (by simp [Edit.ids]))
        (congrArg some (Node.split_relabel _ old new)))
  | removeChild parent label =>
      exact .inl (split_change (exist parent (by simp [Edit.ids])) (Node.split_removeChild _ label))
  | make parent children =>
      exact .inl (split_change (exist parent (by simp [Edit.ids]))
        (congrArg some (Node.split_make _ children)))
  | flatten parent items =>
      rw [Edit.ids, List.forall_mem_cons] at exist
      exact .inl (split_flatten exist.1 exist.2)
  | wrap tag label inner =>
      have wraps := split_wrap tag label (exist inner (by simp [Edit.ids]))
      exact .inl (congrArg (Option.map Prod.snd) wraps)
  | dup id =>
      rcases closed.split_dup (exist id (by simp [Edit.ids])) with copied | ⟨stuck, cyclic⟩
      · exact .inl (congrArg (Option.map Prod.snd) copied)
      · exact .inr ⟨id, rfl, congrArg (Option.map Prod.snd) stuck, cyclic⟩

/-! ### All edits -/

theorem Closed.editAll (closed : tree.Closed) (fits : tree.FitsAll edits) :
    (tree.editAll edits).Closed := by
  induction edits generalizing tree with
  | nil => exact closed
  | cons step edits ih => exact ih (closed.edit fits.1) fits.2

theorem Closed.split_editAll (closed : tree.Closed) (fits : tree.FitsAll edits) :
    tree.split.editAll edits = some (tree.editAll edits).split ∨
      tree.split.editAll edits = none ∧ ∃ front id back,
        edits = front ++ .dup id :: back ∧ ¬ (tree.editAll front).Acyclic id := by
  induction edits generalizing tree with
  | nil => exact .inl rfl
  | cons step edits ih =>
      rcases closed.split_edit fits.1 with edited | ⟨id, rfl, stuck, cyclic⟩
      · have later := ih (closed.edit fits.1) fits.2
        rw [SplitTree.editAll, List.foldlM_cons, edited]
        rcases later with edited | ⟨stuck, front, id, back, rfl, cyclic⟩
        · exact .inl edited
        · exact .inr ⟨stuck, step :: front, id, back, rfl, cyclic⟩
      · rw [SplitTree.editAll, List.foldlM_cons, stuck]
        exact .inr ⟨rfl, [], id, edits, rfl, cyclic⟩

theorem Closed.split_coherent (closed : tree.Closed) {node : SplitNode}
    (found : tree.split.get? id = some node) : node.Coherent tree.nodes.size := by
  obtain ⟨original, isAt, rfl⟩ :
      ∃ original, tree.nodes[id]? = some original ∧ original.split = node := by
    simpa [SplitTree.get?, split] using found
  refine SplitNode.coherent original.length_split fun kid member => ?_
  have same : tree.get id = original := by rw [get, isAt, Option.getD_some]
  have isChild : kid ∈ tree.childIds id := by rwa [childIds, same]
  exact closed.bound isChild

/-- Edits of nodes that are there all go through on the two lists, except for a copy of a node that
hangs below itself. The lists that come out are those of the edited tree, and every node of it is
coherent. -/
theorem editAll_coheres (closed : tree.Closed) (fits : tree.FitsAll edits) :
    match tree.split.editAll edits with
    | some rows => rows = (tree.editAll edits).split ∧
        (∀ id label, (tree.editAll edits).child? id label =
          (rows.get? id).bind (·.child? label)) ∧
        ∀ id node, rows.get? id = some node → node.Coherent rows.nodes.size
    | none => ∃ front id back, edits = front ++ .dup id :: back ∧
        ¬ (tree.editAll front).Acyclic id := by
  rcases closed.split_editAll fits with edited | ⟨stuck, cyclic⟩
  · rw [edited]
    refine ⟨rfl, child?_eq_split _, fun id node found => ?_⟩
    rw [size_split]
    exact (closed.editAll fits).split_coherent found
  · rw [stuck]
    exact cyclic

def summing : List Edit := [
  .alloc .name .nowhere (some "a"),
  .alloc .name .nowhere (some "b"),
  .node (.binary .add) [(.left, 0), (.right, 1)],
  .pushChild 2 none 0,
  .relabel 2 .right .left,
  .removeChild 2 .left,
  .replaceChild 2 1 1,
  .setChild 2 .right 0,
  .wrap .list .body 2,
  .list .list [0, 1],
  .make 3 [(.left, 2), (.right, 2)],
  .flatten 4 [4, 0],
  .dup 3]

/-- The label that was given to the second child leads to it once the first child is gone. -/
theorem editAll_coheres_summing : ({} : Tree).Closed ∧ ({} : Tree).FitsAll summing ∧
    ∃ rows, ({} : Tree).split.editAll summing = some rows ∧
      rows = (({} : Tree).editAll summing).split ∧ rows.nodes.size = 14 ∧
      (∀ id node, rows.get? id = some node → node.Coherent 14) ∧
      (rows.get? 2).map (fun node => (node.childIds, node.labels)) =
        some ([1, 1, 0], [some .left, none, some .right]) ∧
      (({} : Tree).editAll summing).child? 2 .left = some 1 := by
  have closed : ({} : Tree).Closed := ⟨fun member => absurd member List.not_mem_nil⟩
  have fits : ({} : Tree).FitsAll summing := by decide
  have coheres := editAll_coheres closed fits
  have empty : ({} : Tree).split = ⟨#[], none, none⟩ := by simp [split]
  have size : (({} : Tree).split.editAll summing).map (·.nodes.size) = some 14 := by
    rw [empty]
    decide
  have sum : (({} : Tree).split.editAll summing).map (fun rows => (rows.get? 2).map fun node =>
      (node.childIds, node.labels)) =
        some (some ([1, 1, 0], [some .left, none, some .right])) := by
    rw [empty]
    decide
  have left : (({} : Tree).split.editAll summing).map (fun rows =>
      (rows.get? 2).bind fun node => node.child? .left) = some (some 1) := by
    rw [empty]
    decide
  obtain ⟨rows, edited, sizeRows⟩ := Option.map_eq_some_iff.mp size
  rw [edited] at coheres sum left
  obtain ⟨same, found, coherent⟩ := coheres
  exact ⟨closed, fits, rows, edited, same, sizeRows, sizeRows ▸ coherent, Option.some.inj sum,
    (found 2 .left).trans (Option.some.inj left)⟩

end Tree

end ScriptTyping
