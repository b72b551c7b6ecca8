import ScriptTyping.Proofs.Ownership.Assignment
import ScriptTyping.Proofs.Ownership.Invocation
import ScriptTyping.Proofs.Rule.Assignment

/-!
A visit makes of a branch another one in its place, and stops for nothing in the branch when at
least as many visits may be open as the branch is high.
-/

namespace ScriptTyping

open Check

namespace Rule

variable {site : Site} {now : Tree} {visit : Visit}

theorem unsupported_stays (keeps : site.Keeps now) (tag : Tag) :
    Stays site (unsupported tag site.id) now :=
  .bindAside (aside_read _) fun _ => .bindAside (aside_report _) fun _ => .pure keeps trivial

theorem expression_stays (masters : Masters site.room visit) (keeps : site.Keeps now) :
    Stays site (requiredOrFirst site.id .expr >>= visit) now :=
  .bindRequiredOrFirst keeps fun _ member => (Works.check masters keeps member).stays

/-- The right operand of a compound assignment, with a copy of the target beside it, takes one visit
more than before. -/
theorem compound_keeps {branch copy target right : Branch} {index place room : Nat}
    (stands : now.Stands branch) (isTarget : branch.Kid .left index target)
    (isRight : branch.Kid .right place right)
    (kids : ∀ kid ∈ branch.kids, kid.height true + 1 ≤ room)
    (builds : now.Builds target.stored (now.dup target.id).1 (now.dup target.id).2 copy)
    (op : BinaryOp) :
    let value := (now.dup target.id).2.labelled (.binary op)
      [(.left, (now.dup target.id).1), (.right, right.id)]
    (Site.mk now branch room).Keeps
      ((value.2.setChild branch.id .right value.1).setTag branch.id .assign) := by
  intro value
  obtain ⟨_, span, turns⟩ := stands.combine isRight builds (.binary op)
  have low : ∀ kid ∈ branch.kids, kid.height false + 1 ≤ room := fun kid member =>
    Nat.le_trans (Nat.succ_le_succ (Branch.height_le_whole false kid)) (kids kid member)
  refine ⟨_, turns.trans (.alter turns.stands rfl rfl), rfl, fun kid member => ?_⟩
  rcases List.mem_or_eq_of_mem_set member with isOld | rfl
  · exact Nat.le_of_succ_le (low kid isOld)
  · have copied : copy.height false + 1 ≤ room := by
      refine Nat.le_trans (Nat.succ_le_succ (Branch.height_le_whole false copy)) ?_
      rw [Branch.height_congr builds.stored]
      exact kids target isTarget.mem
    have operands : Branch.heightAll false
        (copy.combined right (.binary op) value.1 span).kids + 1 ≤ room := by
      have isRightLow := low right isRight.mem
      simp only [Branch.combined, Branch.kids_mk, Branch.heightAll, Branch.height_under]
      omega
    have single : (copy.combined right (.binary op) value.1 span).node.tag.isCompound = false := rfl
    have cost := Node.cost_le_one single
    rw [Branch.height_single _ single]
    show _ ≤ room
    omega

theorem compoundAssign_stays {branch : Branch} {room : Nat} (stands : now.Stands branch)
    (kids : ∀ kid ∈ branch.kids, kid.height true + 1 ≤ room) (masters : Masters room visit)
    (op : CompoundOp) :
    Stays ⟨now, branch, room⟩ (compoundAssign visit op branch.id) now := by
  have mayFail : MayFail ⟨now, branch, room⟩ now := Site.breaks_of_turns (.refl stands)
  refine .bindRequiredOf mayFail fun targetId isLeft => ?_
  refine .bindRequiredOf mayFail fun rightId isRightId => ?_
  rw [stands.holds.child?_eq, Option.map_eq_some_iff] at isLeft isRightId
  obtain ⟨target, isTarget, rfl⟩ := isLeft
  obtain ⟨right, isRight, rfl⟩ := isRightId
  obtain ⟨index, isTarget⟩ := Branch.first?_eq_some_iff.mp isTarget
  obtain ⟨place, isRight⟩ := Branch.first?_eq_some_iff.mp isRight
  obtain ⟨copy, builds⟩ := Tree.dup_builds (stands.kid isTarget.mem)
  refine .bindBuild (.bindBuild (.bind (modifyTree_stays ?_) fun _ _ keeps _ => ?_))
  · exact compound_keeps stands isTarget isRight kids builds op.val
  · exact assign_stays masters keeps

theorem ofTag_stays (masters : Masters site.room visit) (keeps : site.Keeps now) (tag : Tag)
    (single : tag.isCompound = false) : Stays site (ofTag visit site.id tag) now := by
  cases tag with
  | source => exact statements_stays masters keeps
  | statementList => exact statementList_stays masters keeps
  | block => exact block_stays masters keeps
  | importDecl => exact importDecl_stays keeps
  | funcDecl => exact funcDecl_stays masters keeps
  | returnStmt => exact returnStmt_stays masters keeps
  | varDecl => exact varDecl_stays masters keeps
  | assign => exact assign_stays masters keeps
  | compound op => simp [Tag.isCompound] at single
  | expression => exact expression_stays masters keeps
  | assertion => exact assertion_stays masters keeps
  | ifStmt => exact ifStmt_stays masters keeps
  | conditional => exact conditional_stays masters keeps
  | whileLoop => exact whileLoop_stays masters keeps
  | continueStmt => exact .pure keeps trivial
  | breakStmt => exact .pure keeps trivial
  | forLoop => exact forLoop_stays masters keeps
  | forEach => exact forEach_stays masters keeps
  | name => exact name_stays keeps
  | cast => exact cast_stays masters keeps
  | field => exact field_stays masters keeps
  | indexer => exact indexer_stays masters keeps
  | apply => exact apply_stays masters keeps
  | methodApply => exact methodApply_stays masters keeps
  | new => exact construct_stays masters keeps
  | array => exact collected_stays masters keeps
  | set => exact collected_stays masters keeps
  | dict => exact dict_stays masters keeps
  | interpolation => exact interpolation_stays masters keeps
  | conjunction => exact connective_stays masters keeps
  | disjunction => exact connective_stays masters keeps
  | negation => exact negation_stays masters keeps
  | instanceOf => exact instanceOf_stays masters keeps
  | binary op => exact binary_stays masters keeps op
  | unary op => exact unary_stays masters keeps op
  | nullValue => exact .pure keeps trivial
  | trueValue => exact setConst_stays keeps _ _
  | falseValue => exact setConst_stays keeps _ _
  | integer => exact folded_stays keeps (aside_number _ _ _) _ _
  | long => exact folded_stays keeps (aside_number _ _ _) _ _
  | float => exact folded_stays keeps (aside_number _ _ _) _ _
  | double => exact folded_stays keeps (aside_number _ _ _) _ _
  | text => exact folded_stays keeps (aside_textOf _) _ _
  | string => exact folded_stays keeps (aside_textOf _) _ fun text => .string (Literal.unquote text)
  | character => exact character_stays keeps
  | error => exact .pure keeps trivial
  | param => exact unsupported_stays keeps .param
  | list => exact unsupported_stays keeps .list
  | type => exact unsupported_stays keeps .type
  | upCast => exact unsupported_stays keeps .upCast
  | downCast => exact unsupported_stays keeps .downCast

end Rule

/-! ### Visits -/

section Remakes

variable {step : Check Ty} {now : Tree} {branch : Branch} {levels room : Nat}

theorem Check.Works.remakes (works : Stays ⟨now, branch, room⟩ step now)
    (lower : room + 1 ≤ levels) : step.Remakes now branch levels := by
  refine ⟨fun state same => ?_⟩
  have ends := works.ends state same
  split at ends
  · exact ends
  · obtain ⟨⟨after, turns, fits⟩, _⟩ := ends
    refine ⟨after, turns, ?_⟩
    have cost := Node.cost_le_one fits.single
    have kids : Branch.heightAll false after.kids ≤ room := Branch.heightAll_le_iff.mpr fits.kids
    rw [after.height_single fits.single]
    omega
  · exact ⟨ends.size, ends.frame, ends.root, ends.source, ends.fresh, ends.leaf⟩

theorem Check.Remakes.typed (remakes : step.Remakes now branch levels) :
    (do
      let ty ← step
      setType branch.id ty
      noteTyped branch.id
      return ty : Check Ty).Remakes now branch levels := by
  refine ⟨fun state same => ?_⟩
  have ends := remakes.ends state same
  rw [run_bind]
  cases ran : step.run.run state with
  | error fault =>
      rw [ran] at ends
      exact ends
  | ok answer =>
      obtain ⟨result, new⟩ := answer
      rw [ran] at ends
      cases result with
      | ok ty =>
          obtain ⟨after, turns, height⟩ := ends
          have retyped : new.tree.Turns after (new.tree.setType after.id ty)
              (after.alter fun node => { node with ty := some ty }) := .alter turns.stands rfl rfl
          rw [turns.id] at retyped
          refine ⟨_, turns.trans retyped, ?_⟩
          rwa [Branch.height_alter_same rfl rfl]
      | error failure => exact ends

theorem ofTag_remakes {visit : Visit} (stands : now.Stands branch)
    (undone : branch.node.done = false) (height : branch.height false ≤ levels)
    (masters : ∀ room, room + 1 ≤ levels → Masters room visit) :
    (Rule.ofTag visit branch.id branch.node.tag).Remakes now branch levels := by
  cases single : branch.node.tag.isCompound with
  | true =>
      -- its weight is two, as the operand and the copied target come one level further down
      cases isTag : branch.node.tag with
      | compound op =>
          rw [branch.height_compound undone single, isTag, Tag.weight] at height
          have enough : levels - 1 + 1 ≤ levels := by omega
          refine Works.remakes (Rule.compoundAssign_stays stands ?_ (masters _ enough) op) enough
          intro kid member
          have lower : kid.height true ≤ Branch.heightAll true branch.kids :=
            Branch.height_le_heightAll member
          omega
      | _ => simp [isTag, Tag.isCompound] at single
  | false =>
      by_cases isList : branch.node.tag = .list
      · rw [isList]
        exact ⟨fun state same => ⟨branch, by subst same; exact .refl stands, height⟩⟩
      · have cost : branch.node.cost = 1 := by
          rw [Node.cost, undone, Tag.weight_eq_one single isList]
          rfl
        rw [branch.height_single single, cost] at height
        have enough : levels - 1 + 1 ≤ levels := by omega
        have kids : Branch.heightAll false branch.kids ≤ levels - 1 := by omega
        have fits : (Site.mk now branch (levels - 1)).Fits branch :=
          ⟨single, Branch.heightAll_le_iff.mp kids⟩
        exact Works.remakes
          (Rule.ofTag_stays (masters _ enough) (.refl stands fits) _ single) enough

end Remakes

/-- A visit that may open more visits than a branch is high makes another branch of it. -/
theorem visit_masters {depth levels : Nat} (enough : levels < depth) :
    Masters levels (visit depth) := by
  -- on the visits that may be open, for all heights below: a rule leaves room for its children only
  induction depth generalizing levels with
  | zero => exact absurd enough (Nat.not_lt_zero levels)
  | succ depth ih =>
      intro now branch stands height
      have masters : ∀ room, room + 1 ≤ levels → Masters room (visit depth) :=
        fun room lower => ih (by omega)
      refine ⟨fun state same => ?_⟩
      have reads : (Check.read (·.tree.get branch.id)).run.run state =
          .ok (.ok branch.node, state) := by
        rw [← stands.holds.get_eq, ← same]
        rfl
      rw [visit, run_bind, reads]
      dsimp only
      cases undone : branch.node.done with
      | true =>
          subst same
          exact ⟨branch, .refl stands, height⟩
      | false => exact (ofTag_remakes stands undone height masters).typed.ends state same

end ScriptTyping
