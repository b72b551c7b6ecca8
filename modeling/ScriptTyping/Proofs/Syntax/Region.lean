import Mathlib.Data.List.Nodup
import ScriptTyping.Proofs.Syntax.Branch

/-!
An arena that holds a branch, with no node in two places. What is done inside the branch leaves the
rest of the arena as it was, and new nodes come after all old ones.
-/

namespace ScriptTyping

@[simp]
theorem Node.tag_relabel (node : Node) (label target : Label) :
    (node.relabel label target).tag = node.tag := by
  unfold relabel
  split <;> rfl

@[simp]
theorem Node.tag_removeChild (node : Node) (label : Label) :
    (node.removeChild label).tag = node.tag := by
  unfold removeChild
  split <;> rfl

@[simp]
theorem Node.tag_setChild (node : Node) (label : Label) (child : NodeId) :
    (node.setChild label child).tag = node.tag := by
  unfold setChild
  split <;> rfl

namespace Tree

/-! ### Nodes of a changed arena -/

section Nodes

variable (tree : Tree) (node : Node) (position id : NodeId) (change : Node → Node)

@[simp]
theorem size_alloc : (tree.alloc node).2.nodes.size = tree.nodes.size + 1 := by
  simp [alloc]

@[simp]
theorem size_modify : (tree.modify id change).nodes.size = tree.nodes.size := by
  simp [modify]

theorem get_alloc_new : (tree.alloc node).2.get tree.nodes.size = node := by
  simp [alloc, get]

theorem get_alloc_old {position : NodeId} (old : position < tree.nodes.size) :
    (tree.alloc node).2.get position = tree.get position := by
  simp only [alloc, get]
  rw [Array.getElem?_push_lt old, Array.getElem?_eq_getElem old]

theorem get_modify_self {id : NodeId} (old : id < tree.nodes.size) :
    (tree.modify id change).get id = change (tree.get id) := by
  simp [modify, get, old, Array.getElem_modify]

theorem modify_congr {id : NodeId} {first second : Node → Node}
    (same : first (tree.get id) = second (tree.get id)) :
    tree.modify id first = tree.modify id second := by
  have nodes : tree.nodes.modify id first = tree.nodes.modify id second := by
    refine Array.ext_getElem? fun position => ?_
    simp only [Array.getElem?_modify]
    split
    · rename_i here
      subst here
      simp only [get] at same
      cases found : tree.nodes[id]? with
      | none => rfl
      | some node =>
          rw [found, Option.getD_some] at same
          rw [Option.map_some, Option.map_some, same]
    · rfl
  simp only [modify, nodes]

theorem modify_modify (later : Node → Node) :
    (tree.modify id change).modify id later = tree.modify id fun node => later (change node) := by
  have nodes : (tree.nodes.modify id change).modify id later =
      tree.nodes.modify id fun node => later (change node) := by
    refine Array.ext_getElem? fun index => ?_
    simp only [Array.getElem?_modify]
    split
    · rw [Option.map_map]
      rfl
    · rfl
  simp only [modify, nodes]

theorem get_beyond {tree : Tree} {id : NodeId} (beyond : tree.nodes.size ≤ id) :
    tree.get id = default := by
  rw [get, Array.getElem?_eq_none beyond, Option.getD_none]

theorem get_modify_other {position id : NodeId} (different : position ≠ id) :
    (tree.modify id change).get position = tree.get position := by
  simp only [modify, get, Array.getElem?_modify, Ne.symm different, if_false]

theorem get_alloc_other {position : NodeId} (different : position ≠ tree.nodes.size) :
    (tree.alloc node).2.get position = tree.get position := by
  simp only [alloc, get, Array.getElem?_push, if_neg different]

theorem get_modify_unchanged {tree : Tree} {position id : NodeId} {change : Node → Node}
    (unchanged : ¬ (position = id ∧ position < tree.nodes.size)) :
    (tree.modify id change).get position = tree.get position := by
  by_cases same : position = id
  · have beyond : ¬ position < tree.nodes.size := fun bound => unchanged ⟨same, bound⟩
    simp [modify, get, Nat.not_lt.mp beyond]
  · exact tree.get_modify_other change same

end Nodes

/-! ### An arena that holds a branch -/

inductive Holds (tree : Tree) : Branch → Prop where
  | mk {branch : Branch} : branch.id < tree.nodes.size → tree.get branch.id = branch.node →
      branch.node.children = branch.kids.map Branch.child → (∀ kid ∈ branch.kids, Holds tree kid) →
      Holds tree branch

section Holds

variable {tree later : Tree} {branch inner : Branch}

theorem Holds.bound (holds : tree.Holds branch) : branch.id < tree.nodes.size := by
  cases holds
  assumption

theorem Holds.get_eq (holds : tree.Holds branch) : tree.get branch.id = branch.node := by
  cases holds
  assumption

theorem Holds.children_eq (holds : tree.Holds branch) :
    branch.node.children = branch.kids.map Branch.child := by
  cases holds
  assumption

theorem Holds.kid (holds : tree.Holds branch) (member : inner ∈ branch.kids) :
    tree.Holds inner := by
  cases holds with
  | mk _ _ _ kids => exact kids inner member

theorem Holds.under (holds : tree.Holds branch) (label : Option Label) :
    tree.Holds (branch.under label) :=
  .mk holds.bound holds.get_eq holds.children_eq fun _ member => holds.kid member

theorem Holds.ids_bound (holds : tree.Holds branch) {position : NodeId}
    (inside : position ∈ branch.ids) : position < tree.nodes.size := by
  induction holds with
  | @mk branch bound _ _ _ ih =>
      simp only [branch.ids_eq, List.mem_cons, List.mem_flatMap] at inside
      rcases inside with same | ⟨kid, member, inside⟩
      · rw [same]
        exact bound
      · exact ih kid member inside

theorem Holds.frame (holds : tree.Holds branch) (size : tree.nodes.size ≤ later.nodes.size)
    (same : ∀ position ∈ branch.ids, later.get position = tree.get position) :
    later.Holds branch := by
  induction holds with
  | @mk branch bound get_eq children_eq _ ih =>
      refine .mk (Nat.lt_of_lt_of_le bound size) ?_ children_eq ?_
      · rw [same _ branch.id_mem_ids, get_eq]
      · intro kid member
        exact ih kid member fun position inside =>
          same position (Branch.ids_subset member inside)

/-! ### Reading -/

theorem Holds.indexOf?_eq (holds : tree.Holds branch) (label : Label) :
    (tree.get branch.id).indexOf? label = branch.kids.findIdx? (·.label == some label) := by
  rw [Node.indexOf?, holds.get_eq, holds.children_eq, List.findIdx?_map]
  rfl

theorem Holds.child?_eq (holds : tree.Holds branch) (label : Label) :
    tree.child? branch.id label = (branch.first? label).map Branch.id := by
  rw [child?, Node.child?, holds.get_eq, holds.children_eq, List.find?_map, Option.map_map]
  rfl

theorem Holds.has_eq (holds : tree.Holds branch) (label : Label) :
    tree.has branch.id label = (branch.first? label).isSome := by
  rw [has, Node.has, holds.indexOf?_eq, Branch.first?, Bool.eq_iff_iff, List.findIdx?_isSome,
    List.find?_isSome, List.any_eq_true]

theorem Holds.childAt?_eq (holds : tree.Holds branch) (index : Nat) :
    tree.childAt? branch.id index = branch.kids[index]?.map Branch.id := by
  rw [childAt?, Node.childAt?, holds.get_eq, holds.children_eq, List.getElem?_map, Option.map_map]
  rfl

theorem Holds.childIds_eq (holds : tree.Holds branch) :
    tree.childIds branch.id = branch.kids.map Branch.id := by
  rw [childIds, holds.get_eq, holds.children_eq, List.map_map]
  rfl

theorem Holds.length_eq (holds : tree.Holds branch) : (tree.get branch.id).children.length =
    branch.kids.length := by
  rw [holds.get_eq, holds.children_eq, List.length_map]

theorem Holds.tag_eq (holds : tree.Holds branch) : tree.tag branch.id = branch.node.tag := by
  rw [tag, holds.get_eq]

theorem Holds.ty?_eq (holds : tree.Holds branch) : tree.ty? branch.id = branch.node.ty := by
  rw [ty?, holds.get_eq]

theorem Holds.binding_eq (holds : tree.Holds branch) :
    tree.binding branch.id = branch.node.binding := by
  rw [binding, holds.get_eq]

theorem Holds.text_eq (holds : tree.Holds branch) :
    tree.text branch.id = branch.node.text.getD "" := by
  rw [text, holds.get_eq]

end Holds

/-- Whether the arena holds the branch with no node in two places. -/
structure Stands (tree : Tree) (branch : Branch) : Prop where
  holds : tree.Holds branch
  nodup : branch.ids.Nodup

section Stands

variable {tree later : Tree} {branch inner other : Branch} {index position : Nat}

theorem Stands.kid (stands : tree.Stands branch) (member : inner ∈ branch.kids) :
    tree.Stands inner := by
  refine ⟨stands.holds.kid member, ?_⟩
  have nodup := stands.nodup
  rw [branch.ids_eq, List.nodup_cons, List.nodup_flatMap] at nodup
  exact nodup.2.1 inner member

theorem Stands.under (stands : tree.Stands branch) (label : Option Label) :
    tree.Stands (branch.under label) :=
  ⟨stands.holds.under label, by rw [Branch.ids_under]; exact stands.nodup⟩

theorem Stands.id_notMem (stands : tree.Stands branch) (member : inner ∈ branch.kids) :
    branch.id ∉ inner.ids := by
  have nodup := stands.nodup
  rw [branch.ids_eq, List.nodup_cons] at nodup
  intro inside
  exact nodup.1 (List.mem_flatMap.mpr ⟨inner, member, inside⟩)

/-- Children at two places share no node. -/
theorem Stands.disjoint (stands : tree.Stands branch) (found : branch.kids[index]? = some inner)
    (foundOther : branch.kids[position]? = some other) (different : index ≠ position) :
    List.Disjoint inner.ids other.ids := by
  have nodup := stands.nodup
  rw [branch.ids_eq, List.nodup_cons, List.nodup_flatMap] at nodup
  obtain ⟨bound, same⟩ := List.getElem?_eq_some_iff.mp found
  obtain ⟨boundOther, sameOther⟩ := List.getElem?_eq_some_iff.mp foundOther
  have pairs := List.pairwise_iff_getElem.mp nodup.2.2
  rw [← same, ← sameOther]
  rcases Nat.lt_or_gt_of_ne different with less | greater
  · exact pairs index position bound boundOther less
  · intro place inside insideOther
    exact pairs position index boundOther bound greater insideOther inside

theorem Stands.frame (stands : tree.Stands branch) (size : tree.nodes.size ≤ later.nodes.size)
    (same : ∀ position ∈ branch.ids, later.get position = tree.get position) :
    later.Stands branch :=
  ⟨stands.holds.frame size same, stands.nodup⟩

end Stands

/-! ### New nodes -/

structure Adds (old new : Tree) : Prop where
  size : old.nodes.size ≤ new.nodes.size
  get : ∀ position, position < old.nodes.size → new.get position = old.get position
  root : new.root = old.root
  source : new.source = old.source

section Adds

variable {old middle new : Tree} {branch : Branch}

theorem Adds.refl (tree : Tree) : tree.Adds tree := ⟨Nat.le_refl _, fun _ _ => rfl, rfl, rfl⟩

theorem Adds.trans (first : old.Adds middle) (second : middle.Adds new) : old.Adds new := by
  refine ⟨Nat.le_trans first.size second.size, ?_, second.root.trans first.root,
    second.source.trans first.source⟩
  intro position bound
  rw [second.get position (Nat.lt_of_lt_of_le bound first.size), first.get position bound]

theorem alloc_adds (tree : Tree) (node : Node) : tree.Adds (tree.alloc node).2 :=
  ⟨by simp, fun _ bound => tree.get_alloc_old node bound, rfl, rfl⟩

theorem Holds.adds (holds : old.Holds branch) (adds : old.Adds new) : new.Holds branch :=
  holds.frame adds.size fun position inside => adds.get position (holds.ids_bound inside)

theorem Stands.adds (stands : old.Stands branch) (adds : old.Adds new) : new.Stands branch :=
  ⟨stands.holds.adds adds, stands.nodup⟩

end Adds

/-! ### Changes inside a branch -/

/-- Whether an arena with one branch in it becomes an arena with another in its place. Only nodes of
the branch change, and nodes that come to it are new. -/
structure Turns (old : Tree) (before : Branch) (new : Tree) (after : Branch) : Prop where
  stands : new.Stands after
  id : after.id = before.id
  label : after.label = before.label
  note : after.node.note = before.node.note
  fresh : ∀ position ∈ after.ids, position ∈ before.ids ∨ old.nodes.size ≤ position
  frame : ∀ position, position < old.nodes.size → position ∉ before.ids →
    new.get position = old.get position
  size : old.nodes.size ≤ new.nodes.size
  root : new.root = old.root
  source : new.source = old.source

section Turns

variable {old middle new : Tree} {before between after branch inner newInner : Branch}
  {index : Nat}

theorem Turns.refl (stands : old.Stands branch) : old.Turns branch old branch :=
  ⟨stands, rfl, rfl, rfl, fun _ inside => .inl inside, fun _ _ _ => rfl, Nat.le_refl _, rfl, rfl⟩

theorem Turns.trans (first : old.Turns before middle between)
    (second : middle.Turns between new after) : old.Turns before new after := by
  refine ⟨second.stands, second.id.trans first.id, second.label.trans first.label,
    second.note.trans first.note, ?_, ?_,
    Nat.le_trans first.size second.size, second.root.trans first.root,
    second.source.trans first.source⟩
  · intro position inside
    rcases second.fresh position inside with inBetween | later
    · exact first.fresh position inBetween
    · exact .inr (Nat.le_trans first.size later)
  · intro position bound outside
    have outsideBetween : position ∉ between.ids := by
      intro inside
      rcases first.fresh position inside with inBefore | later
      · exact outside inBefore
      · omega
    rw [second.frame position (Nat.lt_of_lt_of_le bound first.size) outsideBetween,
      first.frame position bound outside]

theorem Stands.nodup_setKid (stands : old.Stands branch)
    (found : branch.kids[index]? = some inner) (nodup : newInner.ids.Nodup)
    (fresh : ∀ position ∈ newInner.ids, position ∈ inner.ids ∨ old.nodes.size ≤ position) :
    (branch.setKid index newInner).ids.Nodup := by
  obtain ⟨bound, same⟩ := List.getElem?_eq_some_iff.mp found
  have apart : ∀ place (inRange : place < branch.kids.length), index ≠ place →
      List.Disjoint newInner.ids branch.kids[place].ids := by
    intro place inRange different position insideNew insideOther
    rcases fresh position insideNew with insideOld | later
    · exact stands.disjoint found (List.getElem?_eq_getElem inRange) different insideOld insideOther
    · have earlier := (stands.kid (List.getElem_mem inRange)).holds.ids_bound insideOther
      exact Nat.not_lt.mpr later earlier
  have whole := stands.nodup
  rw [Branch.ids_eq, List.nodup_cons, List.nodup_flatMap] at whole ⊢
  simp only [Branch.id_setKid, Branch.kids_setKid]
  refine ⟨?_, ?_, ?_⟩
  · intro inside
    obtain ⟨other, member, insideOther⟩ := List.mem_flatMap.mp inside
    rcases List.mem_or_eq_of_mem_set member with unchanged | rfl
    · exact stands.id_notMem unchanged insideOther
    · rcases fresh _ insideOther with insideOld | later
      · exact stands.id_notMem (List.mem_of_getElem? found) insideOld
      · exact Nat.not_lt.mpr later stands.holds.bound
  · intro other member
    rcases List.mem_or_eq_of_mem_set member with unchanged | rfl
    · exact whole.2.1 other unchanged
    · exact nodup
  · refine List.pairwise_iff_getElem.mpr ?_
    intro first second inFirst inSecond less
    rw [List.length_set] at inFirst inSecond
    simp only [Function.onFun, List.getElem_set]
    split
    · rw [if_neg (by omega)]
      exact apart second inSecond (by omega)
    · split
      · intro position insideFirst insideNew
        exact apart first inFirst (by omega) insideNew insideFirst
      · exact List.pairwise_iff_getElem.mp whole.2.2 first second inFirst inSecond less

theorem Turns.exchange (stands : old.Stands branch) (found : branch.kids[index]? = some inner)
    (standsNew : new.Stands newInner)
    (fresh : ∀ position ∈ newInner.ids, position ∈ inner.ids ∨ old.nodes.size ≤ position)
    (top : new.get branch.id = (branch.setKid index newInner).node)
    (frame : ∀ position, position < old.nodes.size → position ∉ inner.ids → position ≠ branch.id →
      new.get position = old.get position)
    (size : old.nodes.size ≤ new.nodes.size) (root : new.root = old.root)
    (source : new.source = old.source) : old.Turns branch new (branch.setKid index newInner) := by
  have member : inner ∈ branch.kids := List.mem_of_getElem? found
  refine ⟨⟨.mk (Nat.lt_of_lt_of_le stands.holds.bound size) top rfl ?_,
    stands.nodup_setKid found standsNew.nodup fresh⟩, rfl, rfl, rfl, ?_, ?_, size, root, source⟩
  · intro other isKid
    obtain ⟨place, inRange⟩ := List.mem_iff_getElem?.mp isKid
    simp only [Branch.kids_setKid, List.getElem?_set] at inRange
    split at inRange
    · split at inRange
      · simp only [Option.some.injEq] at inRange
        rw [← inRange]
        exact standsNew.holds
      · simp at inRange
    · rename_i different
      have isOld : other ∈ branch.kids := List.mem_of_getElem? inRange
      refine (stands.holds.kid isOld).frame size ?_
      intro position inside
      refine frame position ((stands.holds.kid isOld).ids_bound inside) ?_ ?_
      · intro insideInner
        exact stands.disjoint found inRange different insideInner inside
      · intro same
        subst same
        exact stands.id_notMem isOld inside
  · intro position inside
    simp only [Branch.ids_eq (branch.setKid _ _), Branch.id_setKid, Branch.kids_setKid,
      List.mem_cons, List.mem_flatMap] at inside
    rcases inside with same | ⟨other, isKid, inside⟩
    · exact .inl (same ▸ branch.id_mem_ids)
    · rcases List.mem_or_eq_of_mem_set isKid with unchanged | rfl
      · exact .inl (Branch.ids_subset unchanged inside)
      · exact (fresh position inside).imp (fun old => Branch.ids_subset member old) fun new => new
  · intro position bound outside
    refine frame position bound ?_ ?_
    · intro inside
      exact outside (Branch.ids_subset member inside)
    · intro same
      exact outside (same ▸ branch.id_mem_ids)

theorem Turns.inside (stands : old.Stands branch) (found : branch.kids[index]? = some inner)
    (turns : old.Turns inner new newInner) :
    old.Turns branch new (branch.setKid index newInner) := by
  have member : inner ∈ branch.kids := List.mem_of_getElem? found
  refine .exchange stands found turns.stands turns.fresh ?_ ?_ turns.size turns.root turns.source
  · have sameKids : (branch.kids.set index newInner).map Branch.child = branch.node.children := by
      obtain ⟨bound, same⟩ := List.getElem?_eq_some_iff.mp found
      have sameChild : newInner.child = branch.kids[index].child := by
        rw [same, Branch.child, Branch.child, turns.id, turns.label]
      rw [List.map_set, sameChild, ← List.getElem_map Branch.child, List.set_getElem_self,
        stands.holds.children_eq]
      simpa using bound
    rw [turns.frame _ stands.holds.bound (stands.id_notMem member), stands.holds.get_eq,
      Branch.setKid, Branch.node_withKids, sameKids]
  · intro position bound outside _
    exact turns.frame position bound outside

/-- A change of the top node that gives it other children: parts of the old ones and new nodes. -/
theorem Turns.rearrange (stands : old.Stands branch) (adds : old.Adds middle)
    {change : Node → Node} {kids : List Branch}
    (children : (change branch.node).children = kids.map Branch.child)
    (note : (change branch.node).note = branch.node.note)
    (each : ∀ kid ∈ kids, middle.Stands kid)
    (apart : kids.Pairwise fun first second => List.Disjoint first.ids second.ids)
    (known : ∀ kid ∈ kids, ∀ position ∈ kid.ids,
      position ∈ branch.kids.flatMap Branch.ids ∨ old.nodes.size ≤ position) :
    old.Turns branch (middle.modify branch.id change)
      (.mk branch.label branch.id (change branch.node) kids) := by
  have notTop : ∀ kid ∈ kids, branch.id ∉ kid.ids := by
    intro kid member inside
    rcases known kid member _ inside with below | later
    · have nodup := stands.nodup
      rw [branch.ids_eq, List.nodup_cons] at nodup
      exact nodup.1 below
    · exact Nat.not_lt.mpr later stands.holds.bound
  refine ⟨⟨.mk ?_ ?_ children ?_, ?_⟩, rfl, rfl, note, ?_, ?_, ?_, adds.root, adds.source⟩
  · rw [size_modify]
    exact Nat.lt_of_lt_of_le stands.holds.bound adds.size
  · have bound := Nat.lt_of_lt_of_le stands.holds.bound adds.size
    rw [Branch.id_mk, middle.get_modify_self change bound, adds.get _ stands.holds.bound,
      stands.holds.get_eq, Branch.node_mk]
  · intro kid member
    refine (each kid member).holds.frame (by simp) ?_
    intro position inside
    refine middle.get_modify_other change ?_
    intro equal
    exact notTop kid member (equal ▸ inside)
  · rw [Branch.ids_eq, List.nodup_cons, List.nodup_flatMap]
    refine ⟨?_, fun kid member => (each kid member).nodup, apart⟩
    intro inside
    obtain ⟨kid, member, insideKid⟩ := List.mem_flatMap.mp inside
    exact notTop kid member insideKid
  · intro position inside
    rw [Branch.ids_eq, List.mem_cons, List.mem_flatMap] at inside
    rcases inside with same | ⟨kid, member, insideKid⟩
    · exact .inl (same ▸ branch.id_mem_ids)
    · refine (known kid member position insideKid).imp ?_ fun later => later
      intro below
      rw [branch.ids_eq]
      exact List.mem_cons_of_mem _ below
  · intro position bound outside
    have different : position ≠ branch.id := fun equal => outside (equal ▸ branch.id_mem_ids)
    rw [middle.get_modify_other change different, adds.get position bound]
  · simpa using adds.size

theorem Stands.apart (stands : old.Stands branch) :
    branch.kids.Pairwise fun first second => List.Disjoint first.ids second.ids := by
  have nodup := stands.nodup
  rw [branch.ids_eq, List.nodup_cons, List.nodup_flatMap] at nodup
  exact nodup.2.2

theorem Turns.alter (stands : old.Stands branch) {change : Node → Node}
    (same : (change branch.node).children = branch.node.children)
    (note : (change branch.node).note = branch.node.note) :
    old.Turns branch (old.modify branch.id change) (branch.alter change) := by
  refine .rearrange stands (.refl old) (same.trans stands.holds.children_eq) note
    (fun _ member => stands.kid member) stands.apart ?_
  intro kid member position inside
  exact .inl (List.mem_flatMap.mpr ⟨kid, member, inside⟩)

theorem Turns.replaceAt (stands : old.Stands branch) (found : branch.kids[index]? = some inner)
    (label : newInner.label = inner.label) (standsNew : middle.Stands newInner)
    (fresh : ∀ position ∈ newInner.ids, position ∈ inner.ids ∨ old.nodes.size ≤ position)
    (frame : ∀ position, position < old.nodes.size → position ∉ inner.ids →
      middle.get position = old.get position)
    (size : old.nodes.size ≤ middle.nodes.size) (root : middle.root = old.root)
    (source : middle.source = old.source) :
    old.Turns branch (middle.replaceAt branch.id index newInner.id)
      (branch.setKid index newInner) := by
  have notTop : branch.id ∉ inner.ids := stands.id_notMem (List.mem_of_getElem? found)
  refine .exchange stands found ?_ fresh ?_ ?_ ?_ root source
  · have sameSize : (middle.replaceAt branch.id index newInner.id).nodes.size =
        middle.nodes.size := by rw [Tree.replaceAt, size_modify]
    refine standsNew.frame (Nat.le_of_eq sameSize.symm) ?_
    intro position inside
    refine middle.get_modify_other _ ?_
    intro equal
    rw [equal] at inside
    rcases fresh _ inside with isOld | later
    · exact notTop isOld
    · exact Nat.not_lt.mpr later stands.holds.bound
  · have bound := Nat.lt_of_lt_of_le stands.holds.bound size
    rw [Tree.replaceAt, middle.get_modify_self _ bound, frame _ stands.holds.bound notTop,
      stands.holds.get_eq, Node.replaceAt, stands.holds.children_eq, Branch.setKid,
      Branch.node_withKids]
    have child : newInner.child = { inner.child with node := newInner.id } := by
      rw [Branch.child, label]
      rfl
    rw [Branch.child_modify found child]
  · intro position bound outside different
    rw [Tree.replaceAt, middle.get_modify_other _ different]
    exact frame position bound outside
  · rw [Tree.replaceAt, size_modify]
    exact size

end Turns

theorem stands_node {tree : Tree} {node : Node} {kids : List Branch}
    (each : ∀ kid ∈ kids, tree.Stands kid)
    (apart : kids.Pairwise fun first second => List.Disjoint first.ids second.ids)
    (children : node.children = kids.map Branch.child) (label : Option Label) :
    (tree.alloc node).2.Stands (.mk label tree.nodes.size node kids) := by
  refine ⟨.mk ?_ (tree.get_alloc_new node) children ?_, ?_⟩
  · rw [Branch.id_mk, size_alloc]
    exact Nat.lt_succ_self tree.nodes.size
  · intro kid member
    exact (each kid member).holds.adds (tree.alloc_adds node)
  · rw [Branch.ids_eq, List.nodup_cons, List.nodup_flatMap]
    refine ⟨?_, fun kid member => (each kid member).nodup, apart⟩
    intro inside
    obtain ⟨kid, member, insideKid⟩ := List.mem_flatMap.mp inside
    exact Nat.lt_irrefl _ ((each kid member).holds.ids_bound insideKid)

end Tree

end ScriptTyping
