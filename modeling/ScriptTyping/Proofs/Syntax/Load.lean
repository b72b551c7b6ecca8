import Mathlib.Algebra.GroupWithZero.Nat
import Mathlib.Data.List.Perm.Subperm
import ScriptTyping.Proofs.Syntax.Region
import ScriptTyping.Proofs.Syntax.Stored

/-!
Loading a stored tree and copying a branch. Both build a new unchecked branch, child by child, from
nodes that were not in the arena before.
-/

namespace ScriptTyping

inductive Branch.Packed : Branch → Prop where
  | mk {branch : Branch} : branch.kids.map Branch.id =
      StoredNode.positions (branch.id + 1) (branch.kids.map Branch.stored) →
      (∀ kid ∈ branch.kids, Packed kid) → Packed branch

namespace Branch

/-- The nodes of such a branch are the next ones from its top on. -/
theorem Packed.ids_eq {branch : Branch} (packed : branch.Packed) :
    branch.ids = List.range' branch.id branch.stored.all.length := by
  have consecutive {kids : List Branch} {start : NodeId}
      (each : ∀ kid ∈ kids, kid.ids = List.range' kid.id kid.stored.all.length)
      (follow : kids.map id = StoredNode.positions start (kids.map stored)) :
      kids.flatMap ids = List.range' start ((kids.map stored).flatMap StoredNode.all).length := by
    induction kids generalizing start with
    | nil => rfl
    | cons kid rest ih =>
        rw [List.map_cons, List.map_cons, StoredNode.positions, List.cons.injEq] at follow
        rw [List.forall_mem_cons] at each
        rw [List.flatMap_cons, each.1, ih each.2 follow.2, follow.1, List.map_cons,
          List.flatMap_cons, List.length_append, List.range'_append_1]
  induction packed with
  | @mk branch follow _ ih =>
      rw [branch.ids_eq, consecutive ih follow, StoredNode.all_eq, children_stored,
        List.length_cons, List.range'_succ]

inductive Within : Nat → Branch → Prop where
  | mk {levels : Nat} {branch : Branch} : (∀ kid ∈ branch.kids, Within levels kid) →
      Within (levels + 1) branch

theorem Within.kid {levels : Nat} {branch : Branch} (within : branch.Within (levels + 1)) :
    ∀ kid ∈ branch.kids, kid.Within levels := by
  cases within
  assumption

theorem Within.mono {levels more : Nat} {branch : Branch} (within : branch.Within levels)
    (enough : levels ≤ more) : branch.Within more := by
  induction within generalizing more with
  | mk _ ih =>
      obtain ⟨more, rfl⟩ := Nat.exists_eq_add_of_lt enough
      exact .mk fun kid member => ih kid member (by omega)

theorem within_ids (branch : Branch) : branch.Within branch.ids.length := by
  induction branch using Branch.induction with
  | mk branch ih =>
      rw [ids_eq, List.length_cons]
      refine .mk fun kid member => (ih kid member).mono ?_
      have fewer := length_ids_lt member
      rw [ids_eq branch, List.length_cons] at fewer
      exact Nat.le_of_lt_succ fewer

end Branch

namespace Tree

section Builds

variable {base old middle new : Tree} {branch before after kid : Branch}

theorem Turns.push (stands : old.Stands branch) (adds : old.Adds middle)
    (standsNew : middle.Stands kid) (fresh : ∀ position ∈ kid.ids, old.nodes.size ≤ position) :
    old.Turns branch (middle.pushChild branch.id kid.label kid.id)
      (branch.withKids (branch.kids ++ [kid])) := by
  have children : (branch.node.push kid.label kid.id).children =
      (branch.kids ++ [kid]).map Branch.child := by
    simp only [Node.push, stands.holds.children_eq, List.map_append, List.map_singleton,
      Branch.child]
  have turns : old.Turns branch (middle.modify branch.id (·.push kid.label kid.id))
      (.mk branch.label branch.id (branch.node.push kid.label kid.id) (branch.kids ++ [kid])) := by
    refine .rearrange stands adds children rfl ?_ ?_ ?_
    · intro inner member
      rcases List.mem_append.mp member with isOld | isNew
      · exact (stands.kid isOld).adds adds
      · rw [List.mem_singleton.mp isNew]
        exact standsNew
    · refine List.pairwise_append.mpr ⟨stands.apart, List.pairwise_singleton _ _, ?_⟩
      intro inner isOld last isNew position inside insideNew
      rw [List.mem_singleton.mp isNew] at insideNew
      exact Nat.not_lt.mpr (fresh position insideNew)
        ((stands.holds.kid isOld).ids_bound inside)
    · intro inner member position inside
      rcases List.mem_append.mp member with isOld | isNew
      · exact .inl (List.mem_flatMap.mpr ⟨inner, isOld, inside⟩)
      · rw [List.mem_singleton.mp isNew] at inside
        exact .inr (fresh position inside)
  have same : branch.withKids (branch.kids ++ [kid]) =
      .mk branch.label branch.id (branch.node.push kid.label kid.id) (branch.kids ++ [kid]) := by
    rw [Branch.withKids, ← children, Node.push]
  rw [same]
  exact turns

theorem Turns.adds (turns : old.Turns before new after) (adds : base.Adds old)
    (fresh : ∀ position ∈ before.ids, base.nodes.size ≤ position) : base.Adds new := by
  refine ⟨Nat.le_trans adds.size turns.size, ?_, turns.root.trans adds.root,
    turns.source.trans adds.source⟩
  intro position bound
  have outside : position ∉ before.ids := fun inside =>
    Nat.not_lt.mpr (fresh position inside) bound
  rw [turns.frame position (Nat.lt_of_lt_of_le bound adds.size) outside, adds.get position bound]

theorem Turns.fresh_ids (turns : old.Turns before new after) (size : base.nodes.size ≤ old.nodes.size)
    (fresh : ∀ position ∈ before.ids, base.nodes.size ≤ position) :
    ∀ position ∈ after.ids, base.nodes.size ≤ position := by
  intro position inside
  rcases turns.fresh position inside with isOld | later
  · exact fresh position isOld
  · exact Nat.le_trans size later

theorem stands_alloc (tree : Tree) {node : Node} (childless : node.children = [])
    (label : Option Label) :
    (tree.alloc node).2.Stands (.mk label (tree.alloc node).1 node []) := by
  refine ⟨.mk ?_ ?_ ?_ ?_, ?_⟩
  · rw [Branch.id_mk, size_alloc]
    exact Nat.lt_succ_self tree.nodes.size
  · rw [Branch.id_mk, Branch.node_mk]
    exact tree.get_alloc_new node
  · rw [Branch.node_mk, childless, Branch.kids_mk, List.map_nil]
  · intro inner member
    simp at member
  · rw [Branch.ids_eq, Branch.kids_mk]
    simp

theorem blank_leaf (label : Option Label) (id : NodeId) (tag : Tag) (text : Option String)
    (span : Span) : (Branch.mk label id { tag, span, text } []).Blank :=
  .mk rfl rfl rfl fun inner member => by simp at member

structure Builds (base : Tree) (stored : StoredNode) (id : NodeId) (new : Tree) (branch : Branch) :
    Prop where
  adds : base.Adds new
  stands : new.Stands branch
  fresh : ∀ position ∈ branch.ids, base.nodes.size ≤ position
  id : branch.id = id
  start : branch.id = base.nodes.size
  size : new.nodes.size = base.nodes.size + stored.all.length
  stored : branch.stored = stored
  blank : branch.Blank
  packed : branch.Packed

theorem Builds.push {label : Option Label} {tag : Tag} {text : Option String} {span : Span}
    {children : List StoredNode} {stored : StoredNode} {id inner : NodeId}
    (builds : base.Builds (.mk label tag text span children) id middle branch)
    (child : middle.Builds stored inner new kid) :
    ∃ larger, base.Builds (.mk label tag text span (children ++ [stored])) id
      (new.pushChild id stored.label inner) larger := by
  have turns := Turns.push builds.stands child.adds child.stands child.fresh
  have label_eq : kid.label = stored.label := by rw [← child.stored, Branch.label_stored]
  rw [builds.id, child.id, label_eq] at turns
  refine ⟨_, turns.adds builds.adds builds.fresh, turns.stands,
    turns.fresh_ids builds.adds.size builds.fresh, builds.id, builds.start, ?_, ?_, ?_, ?_⟩
  · rw [pushChild, size_modify, child.size, builds.size]
    simp only [StoredNode.all_eq, StoredNode.children, List.flatMap_append, List.flatMap_singleton,
      List.length_cons, List.length_append]
    omega
  · have parts := builds.stored
    rw [Branch.stored_eq, StoredNode.mk.injEq] at parts
    obtain ⟨rfl, rfl, rfl, rfl, rfl⟩ := parts
    rw [Branch.stored_eq, Branch.kids_withKids, List.map_append, List.map_singleton, child.stored]
    rfl
  · refine .mk builds.blank.ty_eq builds.blank.binding_eq builds.blank.done_eq ?_
    intro other member
    rcases List.mem_append.mp member with isOld | isNew
    · exact builds.blank.kid isOld
    · rw [List.mem_singleton.mp isNew]
      exact child.blank
  · have size := builds.size
    rw [← builds.stored, StoredNode.all_eq, Branch.children_stored, List.length_cons,
      ← builds.start] at size
    refine .mk ?_ fun other member => ?_
    · cases builds.packed with
      | mk earlier _ =>
          rw [Branch.kids_withKids, List.map_append, earlier, List.map_append, List.map_singleton,
            List.map_singleton, StoredNode.positions_append, child.start, size, Branch.id_withKids,
            Nat.add_assoc, Nat.add_comm 1]
    · rcases List.mem_append.mp member with isOld | isNew
      · cases builds.packed with
        | mk _ kids => exact kids other isOld
      · rw [List.mem_singleton.mp isNew]
        exact child.packed

theorem builds_alloc (tree : Tree) (label : Option Label) (tag : Tag) (text : Option String)
    (span : Span) :
    ∃ branch, tree.Builds (.mk label tag text span []) (tree.alloc { tag, span, text }).1
      (tree.alloc { tag, span, text }).2 branch := by
  refine ⟨.mk label (tree.alloc { tag, span, text }).1 { tag, span, text } [],
    tree.alloc_adds _, tree.stands_alloc rfl label, ?_, rfl, rfl, tree.size_alloc _, rfl,
    blank_leaf _ _ _ _ _, .mk rfl fun kid member => by simp at member⟩
  intro position inside
  rw [Branch.ids_eq, Branch.id_mk, Branch.kids_mk, List.flatMap_nil, List.mem_singleton] at inside
  rw [inside]
  exact Nat.le_refl tree.nodes.size

end Builds

/-! ### Loading -/

mutual

theorem load_builds (tree : Tree) : (stored : StoredNode) →
    ∃ branch, tree.Builds stored (tree.load stored).1 (tree.load stored).2 branch
  | .mk label tag text span children => by
    obtain ⟨top, builds⟩ := tree.builds_alloc label tag text span
    exact loadChildren_builds children builds

theorem loadChildren_builds {base middle : Tree} {branch : Branch} {label : Option Label}
    {tag : Tag} {text : Option String} {span : Span} {earlier : List StoredNode} {id : NodeId} :
    (rest : List StoredNode) → base.Builds (.mk label tag text span earlier) id middle branch →
      ∃ larger, base.Builds (.mk label tag text span (earlier ++ rest)) id
        (middle.loadChildren id rest) larger
  | [], builds => ⟨branch, by rw [List.append_nil]; exact builds⟩
  | stored :: rest, builds => by
    obtain ⟨kid, child⟩ := load_builds middle stored
    obtain ⟨larger, pushed⟩ := builds.push child
    obtain ⟨largest, all⟩ := loadChildren_builds rest pushed
    rw [List.append_assoc, List.singleton_append] at all
    exact ⟨largest, all⟩

end

/-! ### What hangs below a node -/

theorem unfoldAll_eq_map (tree : Tree) (depth : Nat) (children : List Child) :
    tree.unfoldAll depth children = children.map (tree.unfold depth) := by
  induction children with
  | nil => rw [unfoldAll, List.map_nil]
  | cons child rest ih => rw [unfoldAll, ih, List.map_cons]

theorem Holds.unfold_eq {tree : Tree} {branch : Branch} {depth : Nat} (holds : tree.Holds branch)
    (within : branch.Within depth) : tree.unfold depth branch.child = branch := by
  induction depth generalizing branch with
  | zero => cases within
  | succ depth ih =>
      have kids : branch.kids.map (tree.unfold depth ∘ Branch.child) = branch.kids :=
        (List.map_congr_left fun kid member => ih (holds.kid member) (within.kid kid member)).trans
          branch.kids.map_id
      have node : tree.get branch.child.node = branch.node := holds.get_eq
      rw [unfold]
      simp only [node, unfoldAll_eq_map, holds.children_eq, List.map_map, kids]
      exact branch.mk_parts

theorem Stands.length_ids {tree : Tree} {branch : Branch} (stands : tree.Stands branch) :
    branch.ids.length ≤ tree.nodes.size := by
  have inside : branch.ids ⊆ List.range tree.nodes.size := by
    intro position member
    exact List.mem_range.mpr (stands.holds.ids_bound member)
  simpa using (stands.nodup.subperm inside).length_le

theorem Stands.within {tree : Tree} {branch : Branch} (stands : tree.Stands branch) :
    branch.Within tree.nodes.size :=
  branch.within_ids.mono stands.length_ids

theorem Stands.below_eq {tree : Tree} {branch : Branch} (stands : tree.Stands branch) :
    tree.below branch.id = branch.under none :=
  (stands.under none).holds.unfold_eq (stands.under none).within

/-! ### Copying -/

section Copying

variable {depth : Nat} (copies : ∀ (tree : Tree) (branch : Branch), tree.Holds branch →
  branch.Within depth → ∃ copied, tree.Builds branch.stored (copy depth tree branch.id).1
    (copy depth tree branch.id).2 copied)

include copies

theorem copyChildren_builds {base middle : Tree} {top : Branch} {label : Option Label} {tag : Tag}
    {text : Option String} {span : Span} {earlier : List StoredNode} {id : NodeId}
    {rest : List Branch} (holds : ∀ kid ∈ rest, base.Holds kid)
    (within : ∀ kid ∈ rest, kid.Within depth)
    (builds : base.Builds (.mk label tag text span earlier) id middle top) :
    ∃ larger, base.Builds (.mk label tag text span (earlier ++ rest.map Branch.stored)) id
      (copyChildren depth middle id (rest.map Branch.child)) larger := by
  induction rest generalizing middle top earlier with
  | nil =>
      simp only [List.map_nil, List.append_nil, copyChildren]
      exact ⟨top, builds⟩
  | cons first rest ih =>
      rw [List.forall_mem_cons] at holds within
      obtain ⟨kid, child⟩ := copies middle first (holds.1.adds builds.adds) within.1
      obtain ⟨larger, pushed⟩ := builds.push child
      obtain ⟨largest, all⟩ := ih holds.2 within.2 pushed
      rw [List.append_assoc, List.singleton_append, Branch.label_stored] at all
      simp only [List.map_cons, copyChildren]
      exact ⟨largest, all⟩

end Copying

/-- Copying builds all of a branch if it goes as deep as the branch does. The original may be in
several places of the branch: each of them gets a copy of its own. -/
theorem copy_builds {depth : Nat} {tree : Tree} {branch : Branch} (holds : tree.Holds branch)
    (within : branch.Within depth) :
    ∃ copied, tree.Builds branch.stored (copy depth tree branch.id).1 (copy depth tree branch.id).2
      copied := by
  induction depth generalizing tree branch with
  | zero => cases within
  | succ depth ih =>
      obtain ⟨top, builds⟩ := tree.builds_alloc branch.label branch.node.tag branch.node.text
        branch.node.span
      have copied := copyChildren_builds (fun _ _ => ih) (fun kid member => holds.kid member)
        within.kid builds
      rw [branch.stored_eq]
      simp only [copy, holds.get_eq, holds.children_eq]
      exact copied

/-- A copy of a branch is a new unchecked branch with the same stored content. -/
theorem dup_builds {tree : Tree} {branch : Branch} (stands : tree.Stands branch) :
    ∃ copied, tree.Builds branch.stored (tree.dup branch.id).1 (tree.dup branch.id).2 copied :=
  copy_builds stands.holds stands.within

end Tree

end ScriptTyping
