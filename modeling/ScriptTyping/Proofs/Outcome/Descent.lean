import ScriptTyping.Proofs.Outcome.Frame

/-!
Checking as a recursion along a measure of the tree and the node: how many visits may be open below
one another in what hangs below the node. Rules rebuild the tree while they check it, and a compound
assignment even makes it larger; still the measure of a node, in the tree as it is when the node is
visited, is smaller than that of the node from which it is visited.
-/

namespace ScriptTyping

open Check

/-! ### The measure -/

namespace Tree

/-- How many visits may be open below one another when a node is checked, or copied and checked. A
path in a tree is no longer than the arena, so that as many levels are enough. -/
def rankWithin (tree : Tree) : Nat → Bool → NodeId → Nat
  | 0, _, _ => 0
  | levels + 1, copied, id =>
    let node := tree.get id
    let below (copied : Bool) : Nat :=
      (node.children.map fun child => tree.rankWithin levels copied child.node).foldr max 0
    if node.done && !copied then below copied
    else node.tag.weight + below (copied || node.tag.isCompound)

def rank (tree : Tree) (id : NodeId) : Nat := tree.rankWithin tree.nodes.size false id

end Tree

theorem Branch.heightAll_eq_foldr (copied : Bool) (kids : List Branch) :
    heightAll copied kids = (kids.map (height copied)).foldr max 0 := by
  induction kids with
  | nil => rfl
  | cons kid rest ih => rw [heightAll, ih, List.map_cons, List.foldr_cons]

namespace Tree

variable {tree : Tree} {branch : Branch} {levels : Nat}

theorem Holds.rankWithin_eq (holds : tree.Holds branch) (enough : branch.ids.length ≤ levels)
    (copied : Bool) : tree.rankWithin levels copied branch.id = branch.height copied := by
  induction branch using Branch.induction generalizing levels copied with
  | mk branch ih =>
      rw [Branch.ids_eq, List.length_cons] at enough
      obtain ⟨rest, rfl⟩ : ∃ rest, levels = rest + 1 := ⟨levels - 1, by omega⟩
      have below : ∀ copied, (branch.node.children.map fun child =>
          tree.rankWithin rest copied child.node).foldr max 0 =
            Branch.heightAll copied branch.kids := by
        intro copied
        rw [Branch.heightAll_eq_foldr, holds.children_eq, List.map_map]
        refine congrArg (List.foldr max 0) (List.map_congr_left fun kid member => ?_)
        refine ih kid member (holds.kid member) ?_ copied
        obtain ⟨front, back, split⟩ := List.append_of_mem member
        simp only [split, List.flatMap_append, List.flatMap_cons, List.length_append] at enough
        omega
      rw [rankWithin, Branch.height_eq]
      simp only [holds.get_eq, below]

theorem Stands.rank_eq (stands : tree.Stands branch) : tree.rank branch.id = branch.height false :=
  stands.holds.rankWithin_eq stands.length_ids false

end Tree

/-! ### The recursion -/

/-- Checks a node whose rank is below a bound, as a visit does. Every visit inside has to be one of a
node with a smaller rank. -/
def descend (bound : Nat) : Visit := fun id => do
  let tree ← tree
  if _smaller : tree.rank id < bound then
    let node := tree.get id
    if node.done then return node.ty.getD .void
    else
      let ty ← Rule.ofTag (descend (tree.rank id)) id node.tag
      setType id ty
      noteTyped id
      return ty
  else stop .tooDeep
termination_by bound

section Descent

variable {tree : Tree} {id : NodeId} {state : CheckState} {bound depth levels : Nat}

theorem run_descend : (descend bound id).run.run state =
    if state.tree.rank id < bound then
      if (state.tree.get id).done then .ok (.ok ((state.tree.get id).ty.getD .void), state)
      else (do
        let ty ← Rule.ofTag (descend (state.tree.rank id)) id (state.tree.get id).tag
        setType id ty
        noteTyped id
        return ty : Check Ty).run.run state
    else .error .tooDeep := by
  have reads : (Check.tree).run.run state = .ok (.ok state.tree, state) := rfl
  rw [descend, run_bind, reads]
  dsimp only
  split
  · split <;> rfl
  · rfl

/-- What a descent comes to, a visit that may open as many visits comes to. -/
theorem descend_agrees (source : Option String) (enough : bound ≤ depth) :
    Alike (Realm.whole source) (descend bound) (visit depth) := by
  -- on the bound: inside a rule it is the rank of the node, which is smaller
  induction bound using Nat.strong_induction_on generalizing depth with
  | _ bound ih =>
      intro id inside
      refine ⟨fun left right pairs => ?_⟩
      rw [run_descend]
      split
      · rename_i smaller
        obtain ⟨rest, rfl⟩ := Nat.exists_eq_add_of_lt (Nat.lt_of_lt_of_le smaller enough)
        have same : right.tree.get id = left.tree.get id := pairs.trees.get inside
        have ran : (visit (left.tree.rank id + rest + 1) id).run.run right =
            if (left.tree.get id).done then .ok (.ok ((left.tree.get id).ty.getD .void), right)
            else (do
              let ty ← Rule.ofTag (visit (left.tree.rank id + rest)) id (left.tree.get id).tag
              setType id ty
              noteTyped id
              return ty : Check Ty).run.run right := by
          have reads : (Check.read (·.tree.get id)).run.run right =
              .ok (.ok (left.tree.get id), right) := same ▸ rfl
          rw [visit, run_bind, reads]
          dsimp only
          split <;> rfl
        rw [ran]
        split
        · exact .gives trivial pairs.advances
        · have alike : Alike (Realm.whole source) (descend (left.tree.rank id))
              (visit (left.tree.rank id + rest)) := ih _ smaller (Nat.le_add_right _ _)
          refine Agrees.ends (?_ : Agrees (Realm.whole source) Any _ _) left right pairs
          refine .bind (Rule.ofTag_agrees alike inside (left.tree.get id).tag) fun ty _ => ?_
          refine .bind (setType_obeys inside ty) fun _ _ => ?_
          exact .bindAny (.noteTyped id) fun _ => .pure trivial
      · exact .deeper

/-- A descent makes another branch of every branch that is lower than its bound. -/
theorem descend_masters (enough : levels < bound) : Masters levels (descend bound) := by
  induction bound using Nat.strong_induction_on generalizing levels with
  | _ bound ih =>
      intro now branch stands height
      refine ⟨fun state same => ?_⟩
      have rank : state.tree.rank branch.id = branch.height false := same ▸ stands.rank_eq
      have node : state.tree.get branch.id = branch.node := same ▸ stands.holds.get_eq
      have smaller : branch.height false < bound := Nat.lt_of_le_of_lt height enough
      rw [run_descend, rank, node, if_pos smaller]
      cases undone : branch.node.done with
      | true =>
          subst same
          exact ⟨branch, .refl stands, height⟩
      | false =>
          have masters : ∀ room, room + 1 ≤ branch.height false →
              Masters room (descend (branch.height false)) :=
            fun room lower => ih _ smaller lower
          have remakes := (ofTag_remakes stands undone (Nat.le_refl _) masters).typed
          have ends := remakes.ends state same
          simp only [Bool.false_eq_true, if_false]
          split at ends
          · exact ends
          · obtain ⟨after, turns, lower⟩ := ends
            exact ⟨after, turns, Nat.le_trans lower height⟩
          · exact ⟨ends.size, ends.frame, ends.root, ends.source, ends.fresh, ends.leaf⟩

theorem Tree.eq_of_get {left right : Tree} (size : right.nodes.size = left.nodes.size)
    (get : ∀ id, right.get id = left.get id) (root : right.root = left.root)
    (source : right.source = left.source) : right = left := by
  obtain ⟨leftNodes, leftRoot, leftSource⟩ := left
  obtain ⟨rightNodes, rightRoot, rightSource⟩ := right
  have nodes : rightNodes = leftNodes := by
    refine Array.ext size fun id isRight isLeft => ?_
    have same := get id
    simpa only [Tree.get, Array.getElem?_eq_getElem isRight, Array.getElem?_eq_getElem isLeft,
      Option.getD_some] using same
  cases nodes
  cases root
  cases source
  rfl

/-- Two runs from one state that agree on the whole arena and have the same root come to one. -/
theorem Realm.Advances.eq_of_whole {source : Option String} {old newLeft newRight : CheckState}
    (advances : (Realm.whole source).Advances old old newLeft newRight)
    (root : newRight.tree.root = newLeft.tree.root) : newRight = newLeft := by
  have joins := advances.trees.joins
  have trees : newRight.tree = newLeft.tree :=
    Tree.eq_of_get joins.size (fun _ => joins.get trivial) root joins.source
  obtain ⟨errors, leftErrors, rightErrors⟩ := advances.errors
  obtain ⟨warnings, leftWarnings, rightWarnings⟩ := advances.warnings
  obtain ⟨events, leftLog, rightLog⟩ := advances.log
  obtain ⟨⟨_, _, _⟩, _, _, _⟩ := newLeft
  obtain ⟨⟨_, _, _⟩, _, _, _⟩ := newRight
  simp only [CheckState.mk.injEq, CheckView.mk.injEq]
  exact ⟨⟨trees, advances.environment, advances.scopes⟩, rightErrors.trans leftErrors.symm,
    rightWarnings.trans leftWarnings.symm, rightLog.trans leftLog.symm⟩

theorem Check.Remakes.root {step : Check Ty} {branch : Branch}
    (remakes : step.Remakes state.tree branch levels) {result : Except Failure Ty}
    {new : CheckState} (ran : step.run.run state = .ok (result, new)) :
    new.tree.root = state.tree.root := by
  have ends := remakes.ends state rfl
  rw [ran] at ends
  cases result with
  | ok ty =>
      obtain ⟨after, turns, _⟩ := ends
      exact turns.root
  | error failure => exact ends.root

theorem Tree.Stands.visit_eq {branch : Branch} (stands : state.tree.Stands branch)
    (height : branch.height false < bound) (enough : bound ≤ depth) :
    (visit depth branch.id).run.run state = (descend bound branch.id).run.run state := by
  have pairs : (Realm.whole state.tree.source).Pairs state state :=
    ⟨Realm.whole_joins state.tree, rfl, rfl⟩
  have inside : (Realm.whole state.tree.source).inside branch.id := trivial
  have runs := (descend_agrees state.tree.source enough inside).ends state state pairs
  have left := descend_masters height stands (Nat.le_refl _)
  have right := visit_masters (Nat.lt_of_lt_of_le height enough) stands (Nat.le_refl _)
  cases ran : (descend bound branch.id).run.run state with
  | error fault =>
      have ends := left.ends state rfl
      rw [ran] at runs ends
      generalize (visit depth branch.id).run.run state = other at runs
      cases runs with
      | stops _ => rfl
      | deeper => exact ends.elim
  | ok answer =>
      rw [ran] at runs
      cases ranToo : (visit depth branch.id).run.run state with
      | error fault =>
          rw [ranToo] at runs
          cases runs
      | ok answerToo =>
          obtain ⟨result, new⟩ := answer
          obtain ⟨resultToo, newToo⟩ := answerToo
          have root := (right.root ranToo).trans (left.root ran).symm
          rw [ranToo] at runs
          cases runs with
          | gives _ advances => rw [advances.eq_of_whole root]
          | fails _ advances => rw [advances.eq_of_whole root]

end Descent

/-- Checking a tree is a recursion along the rank of its nodes. A visit that may open more visits
below one another than the rank of its node ends as the descent does, in which every visit is one of
a node with a smaller rank, and it always comes to an end. So does checking the whole tree. -/
theorem Tree.check_descends {tree : Tree} {id : NodeId} (treelike : tree.Treelike id) :
    (∀ (state : CheckState) (depth : Nat), state.tree = tree → tree.rank id < depth →
      (visit depth id).run.run state = (descend (tree.rank id + 1) id).run.run state ∧
        ∀ fault, (visit depth id).run.run state = .error fault → fault = .columnOverflow) ∧
    tree.rank id < tree.visitDepth ∧
    ∀ environment, tree.root = some id →
      ∀ fault, tree.check environment = .error fault → fault = .columnOverflow := by
  obtain ⟨branch, rfl, stands⟩ := treelike_iff.mp treelike
  have rank := stands.rank_eq
  refine ⟨fun state depth same enough => ?_, rank ▸ stands.height_lt, ?_⟩
  · subst same
    rw [rank] at enough ⊢
    refine ⟨stands.visit_eq (Nat.lt_succ_self _) enough, fun fault stopped => ?_⟩
    have balances := visit_balances depth branch.id state
    have ends := (visit_masters enough stands (Nat.le_refl _)).ends state rfl
    rw [stopped] at ends balances
    cases fault with
    | scope unbalanced => exact absurd rfl (balances unbalanced)
    | columnOverflow => rfl
    | _ => exact ends.elim
  · intro environment isRoot fault stopped
    have checked := stands.check_stands isRoot environment
    rwa [stopped] at checked

/-- A compound assignment to an item whose index is a compound assignment. -/
def StoredNode.growing : StoredNode :=
  let name (label : Label) (text : String) := mk (some label) .name (some text) .nowhere []
  let number (label : Option Label) := mk label .integer (some "1") .nowhere []
  let increase (label : Option Label) (target : StoredNode) :=
    mk label (.compound ⟨.add, rfl⟩) none .nowhere [target, number (some .right)]
  let item := mk (some .left) .indexer none .nowhere
    [name .recv "items", increase (some .param) (name .left "index")]
  mk none .source none .nowhere [
    mk none .varDecl none .nowhere
      [name .name "items", mk (some .expr) .array none .nowhere [number none]],
    mk none .varDecl none .nowhere [name .name "index", number (some .expr)],
    increase none item]

/-- The inner assignment is copied and the copy checked in turn, yet no more than seven visits are
open below one another. -/
theorem Tree.check_descends_growing :
    let tree := ofStored none .growing
    tree.rank 0 = 7 ∧ (∀ environment depth, 7 < depth →
      (visit depth 0).run.run { tree, environment } = (descend 8 0).run.run { tree, environment }) ∧
    ∀ environment fault, tree.check environment = .error fault → fault = .columnOverflow := by
  intro tree
  obtain ⟨branch, isRoot, stands, _⟩ := ofStored_stands none .growing
  have isTop : branch.id = 0 := (Option.some.inj isRoot).symm
  obtain ⟨descends, _, ends⟩ := check_descends (isTop ▸ stands.treelike)
  have rank : tree.rank 0 = 7 := by decide
  refine ⟨rank, fun environment depth enough => ?_, fun environment => ends environment rfl⟩
  have same := (descends { tree, environment } depth rfl (rank ▸ enough)).1
  rwa [rank] at same

end ScriptTyping
