import ScriptTyping.Proofs.Outcome.Scopes
import ScriptTyping.Proofs.Ownership.Treelike
import ScriptTyping.Proofs.Ownership.Visit

/-!
What a visit leaves alone. Only what hangs below the visited node changes, and as long as that is a
tree, so is what checking makes of it.
-/

namespace ScriptTyping

/-! ### What hangs below some nodes -/

def Realm.below (tree : Tree) (tops : List NodeId) (starts : Nat → Prop) (origin : starts 0) :
    Realm where
  inside position := tree.nodes.size ≤ position ∨ ∃ top ∈ tops, tree.Reaches top position
  starts := starts
  source := tree.source
  origin := origin

section Below

variable {tree : Tree} {tops : List NodeId} {starts : Nat → Prop} {origin : starts 0}

theorem Realm.below_joins
    (placed : ∀ top ∈ tops, ∀ {id}, tree.Reaches top id → starts (tree.span id).start) :
    (Realm.below tree tops starts origin).Joins tree tree := by
  refine ⟨⟨.inl, fun {id} inside => ?_, rfl⟩, rfl, fun _ => rfl, rfl⟩
  rcases inside with beyond | ⟨top, isTop, reaches⟩
  · rw [Tree.get_beyond beyond]
    exact ⟨origin, fun child member => by simp [default] at member⟩
  · refine ⟨placed top isTop reaches, fun child member => .inr ⟨top, isTop, reaches.trans ?_⟩⟩
    exact Tree.reaches_kid (List.mem_map_of_mem member)

end Below

/-! ### One visit -/

section Visit

variable {tree : Tree} {id : NodeId} {branch : Branch} {state : CheckState} {depth : Nat}
  {fault : Fault}

theorem Tree.Stands.height_lt (stands : tree.Stands branch) :
    branch.height false < tree.visitDepth := by
  have height := Branch.height_le_ids false branch
  have size := stands.length_ids
  rw [Tree.visitDepth]
  omega

/-- A visit stops for nothing but a column number, unless too few visits may be open below it. -/
theorem Tree.Stands.visit_stops (stands : state.tree.Stands branch)
    (stopped : (visit depth branch.id).run.run state = .error fault) :
    fault = .columnOverflow ∨ fault = .tooDeep ∧ depth < state.tree.visitDepth := by
  have outer : ∀ {more : Nat}, state.tree.visitDepth ≤ more →
      (visit more branch.id).run.run state = .error fault → fault.IsOuter := by
    intro more enough stopped
    have remakes := visit_masters (Nat.lt_of_lt_of_le stands.height_lt enough) stands
      (Nat.le_refl _)
    have ends := remakes.ends state rfl
    rwa [stopped] at ends
  -- a run that may open enough visits ends as this one does, unless this one opens too many
  have pairs : (Realm.whole state.tree.source).Pairs state state :=
    ⟨Realm.whole_joins state.tree, rfl, rfl⟩
  have inside : (Realm.whole state.tree.source).inside branch.id := trivial
  have runs := (visit_agrees (Nat.le_max_left depth state.tree.visitDepth) inside).ends state state
    pairs
  rw [stopped] at runs
  generalize ended : (visit (max depth state.tree.visitDepth) branch.id).run.run state = other
    at runs
  cases runs with
  | stops allowed =>
      have isOuter := outer (Nat.le_max_right _ _) ended
      cases fault with
      | scope _ => exact allowed.elim
      | columnOverflow => exact .inl rfl
      | _ => exact isOuter.elim
  | deeper =>
      refine .inr ⟨rfl, Nat.lt_of_not_le fun enough => ?_⟩
      exact outer enough stopped

/-- A visit adds nodes, and changes none but those that hang below the visited one. -/
theorem visit_frame {result : Except Failure Ty} {new : CheckState}
    (ran : (visit depth id).run.run state = .ok (result, new)) :
    state.tree.nodes.size ≤ new.tree.nodes.size ∧ ∀ position < state.tree.nodes.size,
      ¬ state.tree.Reaches id position → new.tree.get position = state.tree.get position := by
  let realm := Realm.below state.tree [id] (fun _ => True) trivial
  have pairs : realm.Pairs state state := ⟨Realm.below_joins fun _ _ _ _ => trivial, rfl, rfl⟩
  have inside : realm.inside id := .inr ⟨id, List.mem_singleton_self id, .refl id⟩
  have framed : ∀ {new : CheckState}, realm.Moves state.tree new.tree →
      state.tree.nodes.size ≤ new.tree.nodes.size ∧ ∀ position < state.tree.nodes.size,
        ¬ state.tree.Reaches id position → new.tree.get position = state.tree.get position := by
    refine fun moves => ⟨moves.size, fun position bound outside => moves.frame ?_⟩
    rintro (beyond | ⟨top, isTop, reaches⟩)
    · exact Nat.not_lt.mpr beyond bound
    · exact outside (List.mem_singleton.mp isTop ▸ reaches)
  have runs := (visit_agrees (Nat.le_refl depth) inside).ends state state pairs
  rw [ran] at runs
  cases runs with
  | gives _ advances => exact framed advances.trees.left
  | fails _ advances => exact framed advances.trees.left

end Visit

/-! ### A whole check -/

/-- What checking makes of a tree is a tree again, and it stops for nothing but a column number. -/
theorem Tree.Stands.check_stands {tree : Tree} {branch : Branch} (stands : tree.Stands branch)
    (isRoot : tree.root = some branch.id) (environment : Environment) :
    match tree.check environment with
    | .ok outcome => ∃ after : Branch, outcome.tree.root = some after.id ∧
        outcome.tree.Stands after
    | .error fault => fault = .columnOverflow := by
  have remakes := visit_masters stands.height_lt stands (Nat.le_refl _)
  have ends := remakes.ends { tree, environment } rfl
  have stops := @Tree.Stands.visit_stops branch { tree, environment } tree.visitDepth
  rw [Tree.check_eq isRoot]
  split at ends
  · rename_i fault stopped
    rw [stopped]
    rcases stops stands stopped with isColumn | ⟨_, shallow⟩
    · exact isColumn
    · exact absurd shallow (Nat.lt_irrefl _)
  · rename_i new ran
    obtain ⟨after, turns, _⟩ := ends
    rw [ran]
    exact ⟨after, by rw [turns.root, isRoot, turns.id], turns.stands⟩
  · rename_i failure new ran
    rw [ran]
    exact ⟨failure.leaf none, rfl, (ends.leaf none).setRoot _⟩

/-- Below a node that has a tree below it, a visit changes nothing else and takes no node away, and
checking the tree makes a tree of it again. -/
theorem Tree.visit_stays_inside {tree : Tree} {id : NodeId} (treelike : tree.Treelike id) :
    (∀ (state : CheckState) (depth : Nat), state.tree = tree →
      match (visit depth id).run.run state with
      | .ok (_, new) => tree.nodes.size ≤ new.tree.nodes.size ∧
          ∀ position < tree.nodes.size, ¬ tree.Reaches id position →
            new.tree.get position = tree.get position
      | .error fault => fault = .columnOverflow ∨ fault = .tooDeep ∧ depth < tree.visitDepth) ∧
    ∀ environment, tree.root = some id → match tree.check environment with
      | .ok outcome => ∃ top, outcome.tree.root = some top ∧ outcome.tree.Treelike top
      | .error fault => fault = .columnOverflow := by
  obtain ⟨branch, rfl, stands⟩ := Tree.treelike_iff.mp treelike
  refine ⟨fun state depth same => ?_, fun environment isRoot => ?_⟩
  · subst same
    cases ran : (visit depth branch.id).run.run state with
    | error fault => exact stands.visit_stops ran
    | ok answer => exact visit_frame ran
  · have checked := stands.check_stands isRoot environment
    split at checked
    · rename_i outcome ran
      obtain ⟨after, top, standsAfter⟩ := checked
      exact ⟨after.id, top, standsAfter.treelike⟩
    · exact checked

def StoredNode.replacing : StoredNode :=
  let name (label : Label) := mk (some label) .name (some "x") .nowhere []
  let text (label : Option Label) := mk label .text (some "text") .nowhere []
  mk none .source none .nowhere [
    mk none .varDecl none .nowhere
      [name .name, mk (some .expr) .array none .nowhere [text none]],
    mk none .assign none .nowhere [
      mk (some .left) .indexer none .nowhere
        [name .recv, mk (some .param) .integer (some "0") .nowhere []],
      text (some .right)]]

namespace Tree

def replacing : Tree :=
  ((ofStored none .replacing).alloc { tag := .block, children := [⟨none, 7⟩] }).2

theorem replacing_treelike : replacing.Treelike 0 ∧ ¬ replacing.Reaches 0 10 := by
  obtain ⟨branch, isRoot, stands, _⟩ := ofStored_stands none .replacing
  have isTop : branch.id = 0 := (Option.some.inj isRoot).symm
  have standsMore := stands.adds (alloc_adds _ { tag := .block, children := [⟨none, 7⟩] })
  refine ⟨isTop ▸ standsMore.treelike, fun reaches => ?_⟩
  rw [← isTop] at reaches
  have bound := stands.holds.ids_bound (reaches.mem_ids standsMore.holds)
  exact absurd bound (by decide)

/-- The store becomes a call that takes over what hung below the node for the read item, and the
node beside is as it was. -/
theorem visit_stays_inside_replacing : ∃ outcome, replacing.check (.ofOptions {}) = .ok outcome ∧
    outcome.tree.Treelike 0 ∧ outcome.tree.childIds 5 = [7, 12] ∧
    outcome.tree.childIds 6 = [7, 11] ∧ outcome.tree.get 10 = replacing.get 10 := by
  obtain ⟨treelike, apart⟩ := replacing_treelike
  obtain ⟨visits, checks⟩ := visit_stays_inside treelike
  have stays := visits { tree := replacing, environment := .ofOptions {} } replacing.visitDepth rfl
  have again := checks (.ofOptions {}) rfl
  let test (outcome : Outcome) : Bool := decide (outcome.tree.root = some 0 ∧
    outcome.tree.childIds 5 = [7, 12] ∧ outcome.tree.childIds 6 = [7, 11])
  have run : (replacing.check (.ofOptions {})).toOption.any test = true := by decide +kernel
  obtain ⟨outcome, checked, holds⟩ := exists_outcome run
  obtain ⟨isRoot, call, left⟩ := of_decide_eq_true holds
  rw [checked] at again
  obtain ⟨top, isTop, treelikeAgain⟩ := again
  obtain rfl : top = 0 := Option.some.inj (isTop.symm.trans isRoot)
  refine ⟨outcome, checked, treelikeAgain, call, left, ?_⟩
  rw [check_eq (show replacing.root = some 0 from rfl)] at checked
  split at stays
  · rename_i result new ran
    have same := stays.2 10 (by decide) apart
    rw [ran] at checked
    cases result with
    | ok ty => cases checked; exact same
    | error failure => cases checked; exact same
  · rename_i fault stopped
    rw [stopped] at checked
    cases checked

end Tree

end ScriptTyping
