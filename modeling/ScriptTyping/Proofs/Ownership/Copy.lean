import ScriptTyping.Proofs.Ownership.Treelike

/-!
Copies. Where nothing leads back, the nodes below a node unfold to a branch, and copying gives every
place of that branch a new node of its own, one after another from the top down.
-/

namespace ScriptTyping

theorem Branch.length_all_stored (branch : Branch) :
    branch.stored.all.length = branch.ids.length := by
  induction branch using Branch.induction with
  | mk branch ih =>
      rw [StoredNode.all_eq, ids_eq, children_stored, List.length_cons, List.length_cons,
        List.length_flatMap, List.length_flatMap, List.map_map, List.map_congr_left]
      exact ih

namespace Tree

variable {tree : Tree} {top id : NodeId} {branch other : Branch}

/-! ### Branches with a node in several places -/

/-- What hangs below a node is the same in every place of it. -/
theorem Holds.unique (holds : tree.Holds branch) (holdsOther : tree.Holds other)
    (same : branch.child = other.child) : branch = other := by
  have enough := branch.within_ids.mono (Nat.le_max_left _ other.ids.length)
  have enoughToo := other.within_ids.mono (Nat.le_max_right branch.ids.length _)
  calc branch = tree.unfold _ branch.child := (holds.unfold_eq enough).symm
    _ = tree.unfold _ other.child := by rw [same]
    _ = other := holdsOther.unfold_eq enoughToo

theorem Holds.at (holds : tree.Holds branch) (inside : id ∈ branch.ids) :
    ∃ inner : Branch, inner.id = id ∧ tree.Holds inner ∧
      inner.ids.length ≤ branch.ids.length := by
  induction branch using Branch.induction with
  | mk branch ih =>
      rw [branch.ids_eq, List.mem_cons, List.mem_flatMap] at inside
      rcases inside with rfl | ⟨kid, isKid, below⟩
      · exact ⟨branch, rfl, holds, Nat.le_refl _⟩
      · obtain ⟨inner, same, holdsInner, fewer⟩ := ih kid isKid (holds.kid isKid) below
        exact ⟨inner, same, holdsInner, fewer.trans (Branch.length_ids_lt isKid).le⟩

theorem Holds.acyclic (holds : tree.Holds branch) : tree.Acyclic branch.id := by
  refine ⟨fun reaches => holds.ids_bound (reaches.mem_ids holds), ?_⟩
  intro id kid reaches member back
  obtain ⟨inner, rfl, holdsInner, _⟩ := holds.at (reaches.mem_ids holds)
  obtain ⟨lower, isLower, rfl⟩ := holdsInner.mem_childIds member
  -- a way back would put a branch as large as this one below it
  obtain ⟨again, same, holdsAgain, fewer⟩ :=
    (holdsInner.kid isLower).at (back.mem_ids (holdsInner.kid isLower))
  have sameChild : (again.under none).child = (inner.under none).child := by
    rw [Branch.child, Branch.child, Branch.id_under, Branch.id_under, same]
    rfl
  have whole := (holdsAgain.under none).unique (holdsInner.under none) sameChild
  have ids : again.ids = inner.ids := by
    rw [← again.ids_under none, whole, inner.ids_under]
  have less := Branch.length_ids_lt isLower
  rw [ids] at fewer
  exact Nat.not_lt.mpr fewer less

/-- Nothing below a node leads back if and only if the nodes below it unfold to a branch. -/
theorem acyclic_iff :
    tree.Acyclic top ↔ ∃ branch : Branch, branch.id = top ∧ tree.Holds branch := by
  constructor
  · intro acyclic
    obtain ⟨branch, _, same, holds, _⟩ := acyclic.exists_branch none
    exact ⟨branch, same, holds⟩
  · rintro ⟨branch, rfl, holds⟩
    exact holds.acyclic

/-! ### The copy -/

/-- A copy has the content of the original place by place, with nothing that checking found. Its
nodes are all that is new in the arena, one for each place, and no node is in two places of it. The
nodes that were there stay as they are. -/
theorem dup_copies (acyclic : tree.Acyclic top) :
    let (copy, later) := tree.dup top
    copy = tree.nodes.size ∧ tree.Adds later ∧
      tree.Holds (tree.below top) ∧ later.Holds (later.below copy) ∧
      (later.below copy).stored = (tree.below top).stored ∧ (later.below copy).Blank ∧
      (later.below copy).ids = List.range' tree.nodes.size (tree.below top).ids.length ∧
      later.nodes.size = tree.nodes.size + (tree.below top).ids.length := by
  obtain ⟨original, isNone, rfl, holds, within⟩ := acyclic.exists_branch none
  have enough := within.mono (tree.card_reached_le _)
  obtain ⟨copied, builds⟩ := copy_builds holds enough
  have sameLabel : copied.label = none := by
    rw [← copied.label_stored, builds.stored, original.label_stored, isNone]
  have isOriginal : tree.below original.id = original := by
    have unfolds := holds.unfold_eq enough
    rwa [Branch.child, isNone] at unfolds
  have isCopied : (tree.dup original.id).2.below (tree.dup original.id).1 = copied := by
    have unfolds := builds.stands.below_eq
    rwa [builds.id, Branch.under_eq sameLabel] at unfolds
  have places : copied.stored.all.length = original.ids.length := by
    rw [builds.stored, original.length_all_stored]
  simp only [isOriginal, isCopied]
  refine ⟨builds.id.symm.trans builds.start, builds.adds, holds, builds.stands.holds,
    builds.stored, builds.blank, ?_, ?_⟩
  · rw [builds.packed.ids_eq, builds.start, places]
  · exact builds.size.trans (by rw [original.length_all_stored])

def sharing : Tree where
  nodes := #[
    { tag := .name, text := some "a", ty := some .int, done := true },
    { tag := .binary .add, children := [⟨some .left, 0⟩, ⟨some .right, 0⟩], ty := some .int }]

def sharingBranch : Branch :=
  .mk none 1 (sharing.get 1)
    [.mk (some .left) 0 (sharing.get 0) [], .mk (some .right) 0 (sharing.get 0) []]

theorem sharing_holds : sharing.Holds sharingBranch := by
  have leaf (label : Label) : sharing.Holds (.mk (some label) 0 (sharing.get 0) []) :=
    .mk Nat.zero_lt_two rfl rfl (by simp)
  refine .mk Nat.one_lt_two rfl rfl ?_
  simpa [sharingBranch] using ⟨leaf .left, leaf .right⟩

theorem sharing_below : sharing.below 1 = sharingBranch := by
  have leaf (label : Label) : Branch.Within 1 (.mk (some label) 0 (sharing.get 0) []) :=
    .mk (by simp)
  have within : sharingBranch.Within 2 :=
    .mk (by simpa [sharingBranch] using ⟨leaf .left, leaf .right⟩)
  exact sharing_holds.unfold_eq within

/-- Each operand gets a node of its own. -/
theorem dup_copies_sharing : sharing.Acyclic 1 ∧ (sharing.below 1).ids = [1, 0, 0] ∧
    (sharing.dup 1).1 = 2 ∧ ((sharing.dup 1).2.below 2).ids = [2, 3, 4] ∧
    ((sharing.dup 1).2.below 2).stored = sharingBranch.stored ∧
    ((sharing.dup 1).2.below 2).Blank ∧ (sharing.dup 1).2.get 1 = sharing.get 1 := by
  have acyclic : sharing.Acyclic 1 := sharing_holds.acyclic
  have copies := dup_copies acyclic
  have isTwo : (sharing.dup 1).1 = 2 := copies.1
  rw [show sharing.dup 1 = (2, (sharing.dup 1).2) from Prod.ext isTwo rfl, sharing_below] at copies
  obtain ⟨_, adds, _, _, stored, blank, ids, _⟩ := copies
  rw [sharing_below]
  exact ⟨acyclic, rfl, isTwo, ids, stored, blank, adds.get 1 Nat.one_lt_two⟩

end Tree

end ScriptTyping
