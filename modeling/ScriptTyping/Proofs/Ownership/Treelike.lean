import Mathlib.Data.Fintype.Card
import Mathlib.Logic.Relation
import ScriptTyping.Check.Conversion
import ScriptTyping.Proofs.Outcome.Reach
import ScriptTyping.Proofs.Syntax.Load

/-!
Nodes that hang below one another as a tree, told by the slots that hold them: no node is in two
slots, and none is below itself. An arena of such nodes holds a branch, and the other way round.
-/

namespace ScriptTyping

namespace Tree

variable {tree : Tree} {top id kid first second : NodeId} {branch : Branch} {index place : Nat}

/-- Whether nothing that hangs below a node leads back, and all of it stands in the arena. -/
structure Acyclic (tree : Tree) (top : NodeId) : Prop where
  inside : ∀ {id}, tree.Reaches top id → id < tree.nodes.size
  forward : ∀ {id kid}, tree.Reaches top id → kid ∈ tree.childIds id → ¬ tree.Reaches kid id

/-- Whether the nodes that hang below a node, with the node itself, form a tree. -/
structure Treelike (tree : Tree) (top : NodeId) : Prop where
  inside : ∀ {id}, tree.Reaches top id → id < tree.nodes.size
  lone : ∀ {first second : Slot} {kid}, tree.Reaches top first.parent →
    tree.Reaches top second.parent → tree.childAt? first.parent first.index = some kid →
    tree.childAt? second.parent second.index = some kid → first = second
  acyclic : ∀ {id kid}, tree.Reaches top id → kid ∈ tree.childIds id → ¬ tree.Reaches kid id

theorem mem_childIds_iff : kid ∈ tree.childIds id ↔ ∃ index, tree.childAt? id index = some kid := by
  simp only [childIds, List.mem_iff_getElem?, List.getElem?_map, childAt?, Node.childAt?]

/-! ### From branches to slots -/

theorem Holds.mem_kid (holds : tree.Holds branch) (inside : id ∈ branch.ids)
    (member : kid ∈ tree.childIds id) : ∃ inner ∈ branch.kids, kid ∈ inner.ids := by
  induction branch using Branch.induction with
  | mk branch ih =>
      rw [Branch.ids_eq, List.mem_cons, List.mem_flatMap] at inside
      rcases inside with rfl | ⟨inner, isKid, below⟩
      · obtain ⟨inner, isKid, rfl⟩ := holds.mem_childIds member
        exact ⟨inner, isKid, inner.id_mem_ids⟩
      · obtain ⟨lower, isLower, found⟩ := ih inner isKid (holds.kid isKid) below
        exact ⟨inner, isKid, Branch.ids_subset isLower found⟩

theorem Stands.at (stands : tree.Stands branch) (inside : id ∈ branch.ids) :
    ∃ inner, inner.id = id ∧ tree.Stands inner := by
  induction branch using Branch.induction with
  | mk branch ih =>
      rw [Branch.ids_eq, List.mem_cons, List.mem_flatMap] at inside
      rcases inside with rfl | ⟨kid, isKid, below⟩
      · exact ⟨branch, rfl, stands⟩
      · exact ih kid isKid (stands.kid isKid) below

theorem Stands.same_kid {inner other : Branch} (stands : tree.Stands branch)
    (isKid : inner ∈ branch.kids) (isOther : other ∈ branch.kids) (below : id ∈ inner.ids)
    (belowOther : id ∈ other.ids) : inner = other := by
  obtain ⟨spot, isSpot⟩ := List.mem_iff_getElem?.mp isKid
  obtain ⟨there, isThere⟩ := List.mem_iff_getElem?.mp isOther
  have same : spot = there := Decidable.byContradiction fun different =>
    stands.disjoint isSpot isThere different below belowOther
  rw [same, isThere, Option.some.injEq] at isSpot
  exact isSpot.symm

/-- A child of the top node is in no slot further below. -/
theorem Stands.lone_top (stands : tree.Stands branch) (isSecond : second ∈ branch.ids)
    (found : tree.childAt? branch.id index = some kid)
    (foundToo : tree.childAt? second place = some kid) : branch.id = second ∧ index = place := by
  rw [stands.holds.childAt?_eq, Option.map_eq_some_iff] at found
  obtain ⟨inner, isKid, rfl⟩ := found
  rw [Branch.ids_eq, List.mem_cons, List.mem_flatMap] at isSecond
  rcases isSecond with rfl | ⟨other, isOther, below⟩
  · rw [stands.holds.childAt?_eq, Option.map_eq_some_iff] at foundToo
    obtain ⟨twin, isTwin, same⟩ := foundToo
    refine ⟨rfl, Decidable.byContradiction fun different => ?_⟩
    exact stands.disjoint isKid isTwin different inner.id_mem_ids (same ▸ twin.id_mem_ids)
  · obtain ⟨lower, isLower, deep⟩ :=
      (stands.kid isOther).holds.mem_kid below (mem_childIds_iff.mpr ⟨place, foundToo⟩)
    obtain rfl := stands.same_kid (List.mem_of_getElem? isKid) isOther inner.id_mem_ids
      (Branch.ids_subset isLower deep)
    exact absurd deep ((stands.kid isOther).id_notMem isLower)

theorem Stands.lone (stands : tree.Stands branch) (isFirst : first ∈ branch.ids)
    (isSecond : second ∈ branch.ids) (found : tree.childAt? first index = some kid)
    (foundToo : tree.childAt? second place = some kid) : first = second ∧ index = place := by
  induction branch using Branch.induction with
  | mk branch ih =>
      have isBelow {id : NodeId} (inside : id ∈ branch.ids) :
          id = branch.id ∨ ∃ inner ∈ branch.kids, id ∈ inner.ids := by
        rwa [Branch.ids_eq, List.mem_cons, List.mem_flatMap] at inside
      rcases isBelow isFirst with rfl | ⟨inner, isKid, below⟩
      · exact stands.lone_top isSecond found foundToo
      rcases isBelow isSecond with rfl | ⟨other, isOther, belowOther⟩
      · obtain ⟨same, sameIndex⟩ := stands.lone_top isFirst foundToo found
        exact ⟨same.symm, sameIndex.symm⟩
      obtain ⟨lower, isLower, deep⟩ :=
        (stands.kid isKid).holds.mem_kid below (mem_childIds_iff.mpr ⟨index, found⟩)
      obtain ⟨twin, isTwin, deepToo⟩ :=
        (stands.kid isOther).holds.mem_kid belowOther (mem_childIds_iff.mpr ⟨place, foundToo⟩)
      obtain rfl := stands.same_kid isKid isOther (Branch.ids_subset isLower deep)
        (Branch.ids_subset isTwin deepToo)
      exact ih inner isKid (stands.kid isKid) below belowOther

theorem Stands.treelike (stands : tree.Stands branch) : tree.Treelike branch.id := by
  refine ⟨fun reaches => stands.holds.ids_bound (reaches.mem_ids stands.holds), ?_, ?_⟩
  · intro first second kid isFirst isSecond found foundToo
    obtain ⟨parent, index⟩ := stands.lone (isFirst.mem_ids stands.holds)
      (isSecond.mem_ids stands.holds) found foundToo
    cases first
    cases second
    exact Slot.mk.injEq .. ▸ ⟨parent, index⟩
  · intro id kid reaches member back
    obtain ⟨inner, rfl, standsInner⟩ := stands.at (reaches.mem_ids stands.holds)
    obtain ⟨lower, isLower, rfl⟩ := standsInner.holds.mem_childIds member
    exact standsInner.id_notMem isLower (back.mem_ids (standsInner.holds.kid isLower))

/-! ### From slots to branches -/

theorem reaches_iff : tree.Reaches top id ↔
    Relation.ReflTransGen (fun id kid => kid ∈ tree.childIds id) top id := by
  constructor
  · intro reaches
    induction reaches with
    | refl id => exact .refl
    | step member _ ih => exact .head member ih
  · intro reaches
    induction reaches using Relation.ReflTransGen.head_induction_on with
    | refl => exact .refl _
    | head member _ ih => exact .step member ih

theorem Treelike.below (treelike : tree.Treelike top) (member : kid ∈ tree.childIds top) :
    tree.Treelike kid :=
  ⟨fun reaches => treelike.inside (.step member reaches),
    fun isFirst isSecond => treelike.lone (.step member isFirst) (.step member isSecond),
    fun reaches => treelike.acyclic (.step member reaches)⟩

theorem Treelike.same_slot (treelike : tree.Treelike top) (isFirst : tree.Reaches top first)
    (isSecond : tree.Reaches top second) (found : tree.childAt? first index = some kid)
    (foundToo : tree.childAt? second place = some kid) : first = second ∧ index = place := by
  have same := @Treelike.lone _ _ treelike ⟨first, index⟩ ⟨second, place⟩ _ isFirst isSecond found
    foundToo
  simpa only [Slot.mk.injEq] using same

/-- What is below two children of a node is apart. -/
theorem Treelike.apart (treelike : tree.Treelike top)
    (isFirst : tree.childAt? top index = some first)
    (isSecond : tree.childAt? top place = some second) (reaches : tree.Reaches first id)
    (reachesToo : tree.Reaches second id) : index = place := by
  have firstIn := mem_childIds_iff.mpr ⟨index, isFirst⟩
  have secondIn := mem_childIds_iff.mpr ⟨place, isSecond⟩
  -- a child of the top node is a child of nothing that is below the top node
  have never : ∀ {other between kid : NodeId} {spot : Nat}, other ∈ tree.childIds top →
      tree.Reaches other between → tree.childAt? top spot = some kid →
      ¬ kid ∈ tree.childIds between := by
    intro other between kid spot isKid below found member
    obtain ⟨there, isThere⟩ := mem_childIds_iff.mp member
    have same := (treelike.same_slot (.refl top) (.step isKid below) found isThere).1
    exact treelike.acyclic (.refl top) isKid (same ▸ below)
  rw [reaches_iff] at reaches
  induction reaches with
  | refl =>
      rcases Relation.ReflTransGen.cases_tail (reaches_iff.mp reachesToo) with
        same | ⟨_, below, last⟩
      · subst same
        exact (treelike.same_slot (.refl top) (.refl top) isFirst isSecond).2
      · exact absurd last (never secondIn (reaches_iff.mpr below) isFirst)
  | @tail between id below last ih =>
      rcases Relation.ReflTransGen.cases_tail (reaches_iff.mp reachesToo) with
        same | ⟨other, above, lastToo⟩
      · subst same
        exact absurd last (never firstIn (reaches_iff.mpr below) isSecond)
      · obtain ⟨spot, isSpot⟩ := mem_childIds_iff.mp last
        obtain ⟨there, isThere⟩ := mem_childIds_iff.mp lastToo
        obtain ⟨rfl, _⟩ := treelike.same_slot (.step firstIn (reaches_iff.mpr below))
          (.step secondIn (reaches_iff.mpr above)) isSpot isThere
        exact ih (reaches_iff.mpr above)

noncomputable def reached (tree : Tree) (top : NodeId) : Finset NodeId :=
  letI : DecidablePred (tree.Reaches top) := Classical.decPred _
  (Finset.range tree.nodes.size).filter (tree.Reaches top)

theorem mem_reached : id ∈ tree.reached top ↔ id < tree.nodes.size ∧ tree.Reaches top id := by
  simp only [reached, Finset.mem_filter, Finset.mem_range]

theorem card_reached_le (tree : Tree) (top : NodeId) :
    (tree.reached top).card ≤ tree.nodes.size := by
  have inside : tree.reached top ⊆ Finset.range tree.nodes.size := fun id member =>
    Finset.mem_range.mpr (mem_reached.mp member).1
  simpa using Finset.card_le_card inside

theorem Acyclic.below (acyclic : tree.Acyclic top) (member : kid ∈ tree.childIds top) :
    tree.Acyclic kid :=
  ⟨fun reaches => acyclic.inside (.step member reaches),
    fun reaches => acyclic.forward (.step member reaches)⟩

theorem Acyclic.reached_ssubset (acyclic : tree.Acyclic top)
    (member : kid ∈ tree.childIds top) : tree.reached kid ⊂ tree.reached top := by
  refine Finset.ssubset_iff_of_subset (fun id below => ?_) |>.mpr ⟨top, ?_, fun back => ?_⟩
  · obtain ⟨bound, reaches⟩ := mem_reached.mp below
    exact mem_reached.mpr ⟨bound, .step member reaches⟩
  · exact mem_reached.mpr ⟨acyclic.inside (.refl top), .refl top⟩
  · exact acyclic.forward (.refl top) member (mem_reached.mp back).2

/-- What hangs below a node unfolds to a branch, in which a node may stand in several places. No way
down is longer than there are nodes. -/
theorem Acyclic.exists_branch (acyclic : tree.Acyclic top) (label : Option Label) :
    ∃ branch : Branch, branch.label = label ∧ branch.id = top ∧ tree.Holds branch ∧
      branch.Within (tree.reached top).card := by
  -- below a child there are fewer nodes, as the top node is not among them
  induction count : (tree.reached top).card using Nat.strong_induction_on
    generalizing top label with
  | _ size ih =>
      have each : ∀ child ∈ (tree.get top).children,
          ∃ kid : Branch, kid.child = child ∧ tree.Holds kid ∧ kid.Within (size - 1) := by
        intro child isChild
        have member : child.node ∈ tree.childIds top := List.mem_map_of_mem isChild
        have fewer : (tree.reached child.node).card < size :=
          count ▸ Finset.card_lt_card (acyclic.reached_ssubset member)
        obtain ⟨kid, sameLabel, sameId, holds, within⟩ :=
          ih _ fewer (acyclic.below member) child.label rfl
        exact ⟨kid, by rw [Branch.child, sameLabel, sameId], holds, within.mono (by omega)⟩
      choose! kidOf isKid holdsKid withinKid using each
      have children : (tree.get top).children =
          ((tree.get top).children.map kidOf).map Branch.child := by
        rw [List.map_map]
        exact ((List.map_congr_left isKid).trans (List.map_id _)).symm
      have positive : 0 < size := count ▸ Finset.card_pos.mpr
        ⟨top, mem_reached.mpr ⟨acyclic.inside (.refl top), .refl top⟩⟩
      refine ⟨.mk label top (tree.get top) ((tree.get top).children.map kidOf), rfl, rfl,
        .mk (acyclic.inside (.refl top)) rfl children (List.forall_mem_map.mpr holdsKid), ?_⟩
      rw [← Nat.sub_add_cancel positive]
      exact .mk (List.forall_mem_map.mpr withinKid)

theorem Treelike.toAcyclic (treelike : tree.Treelike top) : tree.Acyclic top :=
  ⟨treelike.inside, treelike.acyclic⟩

theorem Treelike.nodup (treelike : tree.Treelike branch.id) (holds : tree.Holds branch) :
    branch.ids.Nodup := by
  induction branch using Branch.induction with
  | mk branch ih =>
      have member {kid : Branch} (isKid : kid ∈ branch.kids) :
          kid.id ∈ tree.childIds branch.id := by
        rw [holds.childIds_eq]
        exact List.mem_map_of_mem isKid
      have slot {index : Nat} (inRange : index < branch.kids.length) :
          tree.childAt? branch.id index = some branch.kids[index].id := by
        rw [holds.childAt?_eq, List.getElem?_eq_getElem inRange]
        rfl
      rw [Branch.ids_eq, List.nodup_cons, List.nodup_flatMap]
      refine ⟨fun inside => ?_, fun kid isKid =>
        ih kid isKid (treelike.below (member isKid)) (holds.kid isKid), ?_⟩
      · obtain ⟨kid, isKid, below⟩ := List.mem_flatMap.mp inside
        exact treelike.acyclic (.refl _) (member isKid) ((holds.kid isKid).reaches below)
      · refine List.pairwise_iff_getElem.mpr fun index place inFirst inSecond less position => ?_
        intro isBelow isBelowToo
        have same := treelike.apart (slot inFirst) (slot inSecond)
          ((holds.kid (List.getElem_mem inFirst)).reaches isBelow)
          ((holds.kid (List.getElem_mem inSecond)).reaches isBelowToo)
        exact Nat.ne_of_lt less same

theorem Treelike.stands (treelike : tree.Treelike top) (label : Option Label) :
    ∃ branch, branch.label = label ∧ branch.id = top ∧ tree.Stands branch := by
  obtain ⟨branch, sameLabel, rfl, holds, _⟩ := treelike.toAcyclic.exists_branch label
  exact ⟨branch, sameLabel, rfl, holds, treelike.nodup holds⟩

/-- Nodes that form a tree are the nodes of a branch. -/
theorem treelike_iff :
    tree.Treelike top ↔ ∃ branch : Branch, branch.id = top ∧ tree.Stands branch := by
  constructor
  · intro treelike
    obtain ⟨branch, _, same, stands⟩ := treelike.stands none
    exact ⟨branch, same, stands⟩
  · rintro ⟨branch, rfl, stands⟩
    exact stands.treelike

end Tree

end ScriptTyping
