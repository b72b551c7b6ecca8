import ScriptTyping.Proofs.Outcome.Failures
import ScriptTyping.Proofs.Outcome.Frame

/-!
Statements that are checked as one unit, and in two units one after the other. Nothing that one
statement leaves matters for the next but the tree and the environment, so that the second unit goes
on where the first one stopped.
-/

namespace ScriptTyping

/-! ### Statements in a row -/

structure Row where
  parent : NodeId
  front : List NodeId
  back : List NodeId

namespace Row

/-- Whether the node has these statements there. -/
def Has (row : Row) (tree : Tree) (items : List NodeId) : Prop :=
  tree.childIds row.parent = row.front ++ items ++ row.back

def push (row : Row) (item : NodeId) : Row := { row with front := row.front ++ [item] }

variable {row : Row} {tree : Tree} {item other : NodeId} {items : List NodeId}

theorem Has.found (has : row.Has tree (item :: items)) :
    tree.childAt? row.parent row.front.length = some item := by
  rw [Has] at has
  have here : (tree.childIds row.parent)[row.front.length]? = some item := by simp [has]
  rwa [Tree.childIds, List.getElem?_map] at here

theorem Has.same {later : Tree} (has : row.Has tree items)
    (same : later.get row.parent = tree.get row.parent) : row.Has later items := by
  rwa [Has, Tree.childIds, same]

theorem has_push : (row.push item).Has tree items ↔ row.Has tree (item :: items) := by
  simp [Has, push]

theorem Has.replace (has : row.Has tree (item :: items)) (other : NodeId) :
    row.Has (tree.replaceAt row.parent row.front.length other) (other :: items) := by
  have bound : row.parent < tree.nodes.size := by
    refine Nat.lt_of_not_le fun beyond => ?_
    have found := has.found
    simp [Tree.childAt?, Tree.get_beyond beyond, default, Node.childAt?] at found
  rw [Has, Tree.childIds, Tree.replaceAt, tree.get_modify_self _ bound, Node.children_replaceAt,
    ← Tree.childIds, has]
  simp

def recover (row : Row) (failure : Failure) (state : CheckState) : CheckState :=
  { state with
    tree := state.tree.replaceAt row.parent row.front.length failure.replacement
    errors := state.errors ++ [failure.error] }

theorem Has.run_recover {state : CheckState} (has : row.Has state.tree (item :: items))
    (failure : Failure) (rest : Check Ty) :
    (do
      Check.replace ⟨row.parent, row.front.length⟩ failure.replacement
      Check.recordError failure.error
      rest : Check Ty).run.run state = rest.run.run (row.recover failure state) := by
  rw [Check.run_bind, Check.run_replace _ has.found]
  rfl

end Row

/-! ### Two runs over the same statements -/

namespace Realm

variable {realm : Realm} {first second : Row}
  {one two newOne newTwo lastOne lastTwo : CheckState}

def also (realm : Realm) (id : NodeId) : Realm :=
  { realm with inside := fun position => realm.inside position ∨ position = id }

theorem Moves.also {old new : Tree} (moves : realm.Moves old new) (id : NodeId) :
    (realm.also id).Moves old new :=
  ⟨moves.size, fun outside => moves.frame fun inside => outside (.inl inside), moves.kind⟩

structure Along (realm : Realm) (first second : NodeId)
    (one two newOne newTwo : CheckState) : Prop where
  pairs : realm.Pairs newOne newTwo
  widens : one.scopes.Widens newOne.scopes
  errors : Extends one.errors two.errors newOne.errors newTwo.errors
  warnings : Extends one.warnings two.warnings newOne.warnings newTwo.warnings
  moves : (realm.also first).Moves one.tree newOne.tree
  movesToo : (realm.also second).Moves two.tree newTwo.tree

theorem Pairs.along (pairs : realm.Pairs one two) (first second : NodeId) :
    realm.Along first second one two one two :=
  ⟨pairs, .refl _, .refl _ _, .refl _ _, .refl _, .refl _⟩

theorem Advances.along (advances : realm.Advances one two newOne newTwo) (first second : NodeId) :
    realm.Along first second one two newOne newTwo :=
  ⟨advances.pairs, advances.widens, advances.errors, advances.warnings,
    advances.trees.left.also first, advances.trees.right.also second⟩

theorem Along.trans {first second : NodeId} (early : realm.Along first second one two newOne newTwo)
    (late : realm.Along first second newOne newTwo lastOne lastTwo) :
    realm.Along first second one two lastOne lastTwo :=
  ⟨late.pairs, early.widens.trans late.widens, early.errors.trans late.errors,
    early.warnings.trans late.warnings, early.moves.trans late.moves,
    early.movesToo.trans late.movesToo⟩

theorem Pairs.recover (pairs : realm.Pairs one two) (beside : ¬ realm.inside first.parent)
    (besideToo : ¬ realm.inside second.parent) (failure : Failure) :
    realm.Along first.parent second.parent one two (first.recover failure one)
      (second.recover failure two) := by
  have joins := pairs.trees
  refine ⟨⟨?_, pairs.environment, pairs.scopes⟩, .refl _, ⟨[failure.error], rfl, rfl⟩, .refl _ _,
    ?_, ?_⟩
  · exact ((joins.closed.modify_outside beside _).symm.trans joins).trans
      (joins.symm.closed.modify_outside besideToo _)
  · exact Moves.modify (Or.inr rfl) fun _ => .refl _
  · exact Moves.modify (Or.inr rfl) fun _ => .refl _

/-- Whether the checks of the same statements in two places end alike. The first may also run out of
visits. -/
inductive Follows (realm : Realm) (first second : Row) (count : Nat) (one two : CheckState) :
    Except Fault (Except Failure Ty × CheckState) → Except Fault (Except Failure Ty × CheckState) →
      Prop where
  | goes {ty tyToo : Ty} {newOne newTwo : CheckState} {items : List NodeId} :
      items.length = count → realm.Along first.parent second.parent one two newOne newTwo →
      first.Has newOne.tree items → second.Has newTwo.tree items →
      Follows realm first second count one two (.ok (.ok ty, newOne)) (.ok (.ok tyToo, newTwo))
  | stops {fault : Fault} : Follows realm first second count one two (.error fault) (.error fault)
  | deeper {other : Except Fault (Except Failure Ty × CheckState)} :
      Follows realm first second count one two (.error .tooDeep) other

theorem Follows.after {item : NodeId} {count : Nat}
    {ends others : Except Fault (Except Failure Ty × CheckState)}
    (along : realm.Along first.parent second.parent one two newOne newTwo)
    (follows : realm.Follows (first.push item) (second.push item) count newOne newTwo ends others) :
    realm.Follows first second (count + 1) one two ends others := by
  cases follows with
  | goes length onwards isFirst isSecond =>
      refine .goes ?_ (along.trans onwards) (Row.has_push.mp isFirst) (Row.has_push.mp isSecond)
      rw [List.length_cons, length]
  | stops => exact .stops
  | deeper => exact .deeper

end Realm

namespace Rule

open Check Realm

variable {realm : Realm} {visit other : Visit} {first second : Row} {one two : CheckState}

theorem statementsFrom_follows (alike : Alike realm visit other)
    (beside : ¬ realm.inside first.parent) (besideToo : ¬ realm.inside second.parent)
    (items : List NodeId) (within : ∀ item ∈ items, realm.inside item)
    (last lastToo : Ty)
    (pairs : realm.Pairs one two) (isFirst : first.Has one.tree items)
    (isSecond : second.Has two.tree items) :
    realm.Follows first second items.length one two
      ((statementsFrom visit first.parent last first.front.length items.length).run.run one)
      ((statementsFrom other second.parent lastToo second.front.length
        items.length).run.run two) := by
  -- the place moves on past each statement, or past the leaf that replaced it
  induction items generalizing first second last lastToo one two with
  | nil => exact .goes rfl (pairs.along _ _) isFirst isSecond
  | cons item items ih =>
      rw [List.length_cons, run_statementsFrom_some last _ isFirst.found,
        run_statementsFrom_some lastToo _ isSecond.found]
      have rest : ∀ (newItem : NodeId) (ty : Ty) {newOne newTwo : CheckState},
          realm.Along first.parent second.parent one two newOne newTwo →
          first.Has newOne.tree (newItem :: items) → second.Has newTwo.tree (newItem :: items) →
          realm.Follows first second (items.length + 1) one two
            ((statementsFrom visit first.parent ty (first.front.length + 1)
              items.length).run.run newOne)
            ((statementsFrom other second.parent ty (second.front.length + 1)
              items.length).run.run newTwo) := by
        intro newItem ty newOne newTwo along isFirst isSecond
        have besideNow : ¬ realm.inside (first.push newItem).parent := beside
        have besideTooNow : ¬ realm.inside (second.push newItem).parent := besideToo
        have follows := ih besideNow besideTooNow
          (fun later member => within later (List.mem_cons_of_mem _ member)) ty ty along.pairs
          (Row.has_push.mpr isFirst) (Row.has_push.mpr isSecond)
        simp only [Row.push, List.length_append, List.length_singleton] at follows
        exact .after along follows
      have runs := (alike (within item List.mem_cons_self)).ends one two pairs
      generalize (visit item).run.run one = ends at runs
      generalize (other item).run.run two = otherEnds at runs
      cases runs with
      | @gives ty newOne newTwo _ advances =>
          exact rest item ty (advances.along _ _) (isFirst.same (advances.trees.left.frame beside))
            (isSecond.same (advances.trees.right.frame besideToo))
      | @fails failure newOne newTwo _ advances =>
          have isFirst := isFirst.same (advances.trees.left.frame beside)
          have isSecond := isSecond.same (advances.trees.right.frame besideToo)
          have replaced := advances.pairs.recover beside besideToo failure
          simp only [isFirst.run_recover, isSecond.run_recover]
          exact rest failure.replacement .never ((advances.along _ _).trans replaced)
            (isFirst.replace _) (isSecond.replace _)
      | stops => exact .stops
      | deeper => exact .deeper

end Rule

/-! ### Units -/

theorem ScopeStack.Widens.eq_closed {scopes : ScopeStack}
    (widens : ({} : ScopeStack).Widens scopes) : scopes = {} := by
  obtain ⟨evolves, _⟩ := widens
  cases evolves with
  | outside count _ => rw [List.length_eq_zero_iff.mp count]

def CheckState.opening (tree : Tree) (root : NodeId) (environment : Environment) : CheckState :=
  { tree := tree.setRoot root, environment }

namespace Tree

structure IsUnit (tree : Tree) (root : NodeId) (statements : List NodeId) : Prop where
  tag : tree.tag root = .source
  fresh : (tree.get root).done = false
  statements : tree.childIds root = statements

variable {tree : Tree} {root : NodeId} {statements : List NodeId}

theorem IsUnit.bound (isUnit : tree.IsUnit root statements) : root < tree.nodes.size := by
  refine Nat.lt_of_not_le fun beyond => ?_
  have tag := isUnit.tag
  rw [Tree.tag, get_beyond beyond] at tag
  cases tag

theorem IsUnit.same {later : Tree} (isUnit : tree.IsUnit root statements)
    (same : later.get root = tree.get root) : later.IsUnit root statements := by
  obtain ⟨tag, fresh, statements⟩ := isUnit
  exact ⟨by rwa [Tree.tag, same], by rwa [same], by rwa [childIds, same]⟩

theorem IsUnit.run_visit {state : CheckState} (isUnit : state.tree.IsUnit root statements)
    (depth : Nat) :
    (visit (depth + 1) root).run.run state =
      match (Rule.statementsFrom (visit depth) root .void 0 statements.length).run.run state with
      | .error fault => .error fault
      | .ok (.ok ty, new) => .ok (.ok ty,
          { new with tree := new.tree.setType root ty }.noted (.typed root new.environment))
      | .ok (.error failure, new) => .ok (.error failure, new) := by
  obtain ⟨tag, fresh, rfl⟩ := isUnit
  have statements : (Rule.ofTag (visit depth) root .source).run.run state =
      (Rule.statementsFrom (visit depth) root .void 0
        (state.tree.childIds root).length).run.run state := by
    rw [Rule.ofTag, Rule.statements, Check.run_bind]
    rfl
  have run := @Rule.run_visit _ _ depth fresh
  rw [tag, statements] at run
  exact run

theorem IsUnit.check_eq (isUnit : tree.IsUnit root statements) (environment : Environment) :
    (tree.setRoot root).check environment =
      match (Rule.statementsFrom (visit (2 * tree.nodes.size + 1)) root .void 0
          statements.length).run.run (.opening tree root environment) with
      | .error fault => .error fault
      | .ok (.ok ty, new) =>
        .ok ⟨some ty, new.errors, new.warnings, new.tree.setType root ty, new.environment⟩
      | .ok (.error failure, new) => .ok ⟨none, new.errors ++ [failure.error], new.warnings,
        new.tree.setRoot failure.replacement, new.environment⟩ := by
  have isUnit : (tree.setRoot root).IsUnit root statements := isUnit.same rfl
  have depth : (tree.setRoot root).visitDepth = 2 * tree.nodes.size + 1 + 1 := rfl
  have run := @IsUnit.run_visit root statements (.opening tree root environment) isUnit
    (2 * tree.nodes.size + 1)
  rw [CheckState.opening] at run ⊢
  rw [Tree.check_eq (show (tree.setRoot root).root = some root from rfl), depth, run]
  cases (Rule.statementsFrom (visit (2 * tree.nodes.size + 1)) root .void 0
      statements.length).run.run { tree := tree.setRoot root, environment } with
  | error fault => rfl
  | ok answer =>
      obtain ⟨result, new⟩ := answer
      cases result <;> rfl

theorem childIds_setType (tree : Tree) (id : NodeId) (ty : Ty) (position : NodeId) :
    (tree.setType id ty).childIds position = tree.childIds position := by
  by_cases changed : position = id ∧ position < tree.nodes.size
  · obtain ⟨rfl, bound⟩ := changed
    rw [childIds, setType, tree.get_modify_self _ bound, childIds]
  · rw [childIds, setType, get_modify_unchanged changed, childIds]

/-- Whether a unit has the statements of two others, one after the other, and no statement has one
of these units below it. -/
structure Divided (tree : Tree) (whole first second : NodeId)
    (front back : List NodeId) : Prop where
  isWhole : tree.IsUnit whole (front ++ back)
  isFirst : tree.IsUnit first front
  isSecond : tree.IsUnit second back
  distinct : first ≠ second
  beside : ∀ root ∈ [whole, first, second], ∀ statement ∈ front ++ back,
    ¬ tree.Reaches statement root

end Tree

/-- Whether a unit ended as its statements did in two units, the second one checked after the
first. -/
structure Outcome.Splits (outcome early late : Outcome) (whole first second : NodeId) : Prop where
  environment : late.environment = outcome.environment
  errors : outcome.errors = early.errors ++ late.errors
  warnings : outcome.warnings = early.warnings ++ late.warnings
  size : late.tree.nodes.size = outcome.tree.nodes.size
  nodes : ∀ id, id ∉ [whole, first, second] → late.tree.get id = outcome.tree.get id
  statements : outcome.tree.childIds whole =
    late.tree.childIds first ++ late.tree.childIds second

namespace Tree

section Divided

variable {tree : Tree} {whole first second root : NodeId} {front back news more : List NodeId}
  {environment : Environment} {newOne newTwo lastOne lastTwo : CheckState} {ty : Ty}

def statementsOf (tree : Tree) (front back : List NodeId) : Realm :=
  .below tree (front ++ back) (fun _ => True) trivial

theorem mem_statementsOf {statement : NodeId} (member : statement ∈ front ++ back) :
    (tree.statementsOf front back).inside statement :=
  .inr ⟨statement, member, .refl statement⟩

theorem Divided.outside (divided : tree.Divided whole first second front back) (root : NodeId)
    (isRoot : root ∈ [whole, first, second]) : ¬ (tree.statementsOf front back).inside root := by
  intro inside
  have bound : root < tree.nodes.size := by
    simp only [List.mem_cons, List.not_mem_nil, or_false] at isRoot
    rcases isRoot with rfl | rfl | rfl
    · exact divided.isWhole.bound
    · exact divided.isFirst.bound
    · exact divided.isSecond.bound
  rcases inside with beyond | ⟨statement, member, reaches⟩
  · exact Nat.not_lt.mpr beyond bound
  · exact divided.beside root isRoot statement member reaches

theorem Divided.early (divided : tree.Divided whole first second front back)
    (environment : Environment) :
    (tree.statementsOf front back).Follows ⟨whole, [], back⟩ ⟨first, [], []⟩ front.length
      (.opening tree whole environment) (.opening tree first environment)
      ((Rule.statementsFrom (visit (2 * tree.nodes.size + 1)) whole .void 0
        front.length).run.run (.opening tree whole environment))
      ((Rule.statementsFrom (visit (2 * tree.nodes.size + 1)) first .void 0
        front.length).run.run (.opening tree first environment)) := by
  have joins : (tree.statementsOf front back).Joins tree tree :=
    Realm.below_joins fun _ _ _ _ => trivial
  have outside := divided.outside
  refine Rule.statementsFrom_follows (visit_agrees (Nat.le_refl _)) (outside whole (by simp))
    (outside first (by simp)) front
    (fun statement member => mem_statementsOf (List.mem_append_left _ member)) .void .void
    ⟨(joins.setRoot whole).symm.setRoot first, rfl, rfl⟩ divided.isWhole.statements ?_
  exact divided.isFirst.statements.trans (by simp)

section Late

variable (divided : tree.Divided whole first second front back)
  (early : (tree.statementsOf front back).Along whole first (.opening tree whole environment)
    (.opening tree first environment) newOne newTwo)

include divided early

theorem Divided.isSecond_later (ty : Ty) : (newTwo.tree.setType first ty).IsUnit second back := by
  refine divided.isSecond.same ?_
  have frame : newTwo.tree.get second = tree.get second := early.movesToo.frame
    (not_or.mpr ⟨divided.outside second (by simp), divided.distinct.symm⟩)
  rw [setType, get_modify_other _ _ divided.distinct.symm, frame]

theorem Divided.late (isWhole : newOne.tree.childIds whole = news ++ back) (last ty : Ty) :
    (tree.statementsOf front back).Follows ⟨whole, news, []⟩ ⟨second, [], []⟩ back.length newOne
      (.opening (newTwo.tree.setType first ty) second newTwo.environment)
      ((Rule.statementsFrom (visit (2 * tree.nodes.size + 1)) whole last news.length
        back.length).run.run newOne)
      ((Rule.statementsFrom (visit (2 * (newTwo.tree.setType first ty).nodes.size + 1)) second .void
        0 back.length).run.run
          (.opening (newTwo.tree.setType first ty) second newTwo.environment)) := by
  have outside := divided.outside
  have joins : (tree.statementsOf front back).Joins newOne.tree (newTwo.tree.setType first ty) :=
    early.pairs.trees.trans
      (early.pairs.trees.symm.closed.modify_outside (outside first (by simp)) _)
  have deeper : 2 * tree.nodes.size + 1 ≤ 2 * (newTwo.tree.setType first ty).nodes.size + 1 := by
    have size : tree.nodes.size ≤ newTwo.tree.nodes.size := early.movesToo.size
    rw [setType, size_modify]
    omega
  refine Rule.statementsFrom_follows (visit_agrees deeper) (outside whole (by simp))
    (outside second (by simp)) back
    (fun statement member => mem_statementsOf (List.mem_append_right _ member)) last .void
    ⟨joins.setRoot second, early.pairs.environment, early.widens.eq_closed.symm⟩ ?_ ?_
  · exact isWhole.trans (by simp)
  · exact (divided.isSecond_later early ty).statements.trans (by simp)

theorem Divided.splits (ty tyOne tyTwo : Ty)
    (late : (tree.statementsOf front back).Along whole second newOne
      (.opening (newTwo.tree.setType first ty) second newTwo.environment) lastOne lastTwo)
    (isFirst : newTwo.tree.childIds first = news) (isSecond : lastTwo.tree.childIds second = more)
    (isWhole : lastOne.tree.childIds whole = news ++ more) :
    Outcome.Splits ⟨some tyOne, lastOne.errors, lastOne.warnings, lastOne.tree.setType whole tyOne,
        lastOne.environment⟩
      ⟨some ty, newTwo.errors, newTwo.warnings, newTwo.tree.setType first ty, newTwo.environment⟩
      ⟨some tyTwo, lastTwo.errors, lastTwo.warnings, lastTwo.tree.setType second tyTwo,
        lastTwo.environment⟩ whole first second := by
  refine ⟨late.pairs.environment, ?_, ?_, ?_, ?_, ?_⟩
  · obtain ⟨errors, isOne, isTwo⟩ := early.errors
    obtain ⟨others, isLast, isLastToo⟩ := late.errors
    simp [CheckState.opening, isOne, isTwo, isLast, isLastToo]
  · obtain ⟨warnings, isOne, isTwo⟩ := early.warnings
    obtain ⟨others, isLast, isLastToo⟩ := late.warnings
    simp [CheckState.opening, isOne, isTwo, isLast, isLastToo]
  · rw [setType, setType, size_modify, size_modify]
    exact late.pairs.trees.size
  · intro id other
    simp only [List.mem_cons, List.not_mem_nil, or_false, not_or] at other
    obtain ⟨notWhole, notFirst, notSecond⟩ := other
    rw [setType, setType, get_modify_other _ _ notSecond, get_modify_other _ _ notWhole]
    by_cases inside : (tree.statementsOf front back).inside id
    · exact late.pairs.trees.get inside
    · -- beside the statements and the units nothing changes
      have frame : ∀ root, id ≠ root → ¬ ((tree.statementsOf front back).also root).inside id :=
        fun root different => not_or.mpr ⟨inside, different⟩
      rw [late.movesToo.frame (frame second notSecond), late.moves.frame (frame whole notWhole),
        early.moves.frame (frame whole notWhole)]
      show (newTwo.tree.setType first ty).get id = tree.get id
      rw [setType, get_modify_other _ _ notFirst, early.movesToo.frame (frame first notFirst)]
      rfl
  · have notInside : ¬ ((tree.statementsOf front back).also second).inside first :=
      not_or.mpr ⟨divided.outside first (by simp), divided.distinct⟩
    have kept : lastTwo.tree.childIds first = (newTwo.tree.setType first ty).childIds first := by
      rw [childIds, late.movesToo.frame notInside]
      rfl
    rw [childIds_setType, childIds_setType, childIds_setType, isWhole, isSecond, kept,
      childIds_setType, isFirst]

end Late

theorem Treelike.not_tooDeep (treelike : tree.Treelike whole) :
    (tree.setRoot whole).check environment ≠ .error .tooDeep := by
  obtain ⟨branch, rfl, stands⟩ := treelike_iff.mp treelike
  have ends := (stands.setRoot branch.id).check_stands rfl environment
  intro deep
  rw [deep] at ends
  cases ends

end Divided

/-- Checking statements as one unit, and in two units one after the other, gives the same
environment, the same nodes for all statements, and the same errors and warnings in the same order.
Where the one stops the other does, unless the unit is no tree. -/
theorem check_splits {tree : Tree} {whole first second : NodeId} {front back : List NodeId}
    (divided : tree.Divided whole first second front back) (environment : Environment) :
    match (tree.setRoot whole).check environment with
    | .ok outcome => ∃ early late, (tree.setRoot first).check environment = .ok early ∧
        (early.tree.setRoot second).check early.environment = .ok late ∧
        outcome.Splits early late whole first second
    | .error fault => fault = .tooDeep ∧ ¬ tree.Treelike whole ∨
        (tree.setRoot first).check environment = .error fault ∨
        ∃ early, (tree.setRoot first).check environment = .ok early ∧
          (early.tree.setRoot second).check early.environment = .error fault := by
  have early := divided.early environment
  have checkedWhole := divided.isWhole.check_eq environment
  have checkedFirst := divided.isFirst.check_eq environment
  rw [List.length_append, Rule.run_statementsFrom_add, Check.run_bind] at checkedWhole
  generalize (Rule.statementsFrom (visit (2 * tree.nodes.size + 1)) whole .void 0
    front.length).run.run (.opening tree whole environment) = ends at early checkedWhole
  generalize (Rule.statementsFrom (visit (2 * tree.nodes.size + 1)) first .void 0
    front.length).run.run (.opening tree first environment) = others at early checkedFirst
  have deep : (tree.setRoot whole).check environment = .error .tooDeep →
      ¬ tree.Treelike whole := fun stopped treelike => treelike.not_tooDeep stopped
  cases early with
  | stops =>
      rw [checkedWhole, checkedFirst]
      exact .inr (.inl rfl)
  | deeper =>
      have shallow := deep checkedWhole
      rw [checkedWhole]
      exact .inl ⟨rfl, shallow⟩
  | @goes ty tyFirst newOne newTwo news length along isWhole isFirst =>
      simp only [Row.Has, List.nil_append, List.append_nil] at isWhole isFirst
      have late := divided.late along isWhole ty tyFirst
      have isSecond := divided.isSecond_later along tyFirst
      have checkedSecond := isSecond.check_eq newTwo.environment
      simp only [Nat.zero_add, ← length] at checkedWhole
      generalize (Rule.statementsFrom (visit (2 * tree.nodes.size + 1)) whole ty news.length
        back.length).run.run newOne = ends at late checkedWhole
      generalize (Rule.statementsFrom _ second .void 0 back.length).run.run _ = others
        at late checkedSecond
      cases late with
      | stops =>
          rw [checkedWhole]
          exact .inr (.inr ⟨_, checkedFirst, checkedSecond⟩)
      | deeper =>
          have shallow := deep checkedWhole
          rw [checkedWhole]
          exact .inl ⟨rfl, shallow⟩
      | goes _ onwards isWholeLast isSecondLast =>
          simp only [Row.Has, List.nil_append, List.append_nil] at isWholeLast isSecondLast
          rw [checkedWhole]
          exact ⟨_, _, checkedFirst, checkedSecond,
            divided.splits along _ _ _ onwards isFirst isSecondLast isWholeLast⟩

end Tree

def StoredNode.naming : StoredNode :=
  let name (label : Option Label) (text : String) := mk label .name (some text) .nowhere []
  mk none .source none .nowhere [
    mk none .varDecl none .nowhere
      [name (some .name) "x", mk (some .expr) .text (some "text") .nowhere []],
    name none "nope", name none "x"]

namespace Tree

def naming : Tree :=
  let (_, tree) := (ofStored none .naming).alloc {
    tag := .source, children := [⟨none, 1⟩, ⟨none, 4⟩] }
  (tree.alloc { tag := .source, children := [⟨none, 5⟩] }).2

theorem naming_divided : naming.Divided 0 6 7 [1, 4] [5] := by
  obtain ⟨branch, isRoot, stands, _⟩ := ofStored_stands none .naming
  have isTop : branch.id = 0 := (Option.some.inj isRoot).symm
  have standsMore : naming.Stands branch := (stands.adds (alloc_adds _ _)).adds (alloc_adds _ _)
  have isStatement : ∀ statement ∈ [1, 4] ++ [5], statement ∈ naming.childIds branch.id := by
    rw [isTop]
    decide
  refine ⟨⟨rfl, rfl, rfl⟩, ⟨rfl, rfl, rfl⟩, ⟨rfl, rfl, rfl⟩, by decide, ?_⟩
  intro root isRoot statement member reaches
  have bound := stands.holds.ids_bound
    (Reaches.mem_ids (.step (isStatement statement member) reaches) standsMore.holds)
  have few : (ofStored none .naming).nodes.size = 6 := by decide
  rw [few] at bound
  simp only [List.mem_cons, List.not_mem_nil, or_false] at isRoot
  rcases isRoot with rfl | rfl | rfl
  · exact standsMore.treelike.acyclic (.refl _) (isStatement statement member) (isTop ▸ reaches)
  · exact absurd bound (by decide)
  · exact absurd bound (by decide)

/-- The second unit sees the variable of the first one, where the unknown name was reported. -/
theorem check_splits_naming : ∃ outcome early late,
    (naming.setRoot 0).check (.ofOptions {}) = .ok outcome ∧
    (naming.setRoot 6).check (.ofOptions {}) = .ok early ∧
    (early.tree.setRoot 7).check early.environment = .ok late ∧
    outcome.Splits early late 0 6 7 ∧ outcome.errors.length = 1 := by
  let test (outcome : Outcome) : Bool := decide (outcome.errors.length = 1)
  have run : ((naming.setRoot 0).check (.ofOptions {})).toOption.any test = true := by
    decide +kernel
  obtain ⟨outcome, checked, holds⟩ := exists_outcome run
  have splits := check_splits naming_divided (.ofOptions {})
  rw [checked] at splits
  obtain ⟨early, late, checkedFirst, checkedSecond, splits⟩ := splits
  exact ⟨outcome, early, late, checked, checkedFirst, checkedSecond, splits,
    of_decide_eq_true holds⟩

end Tree

end ScriptTyping
