import ScriptTyping.Proofs.Outcome.Statements

/-!
What a statement that fails leaves in the session. Nothing is undone when its node is replaced, so
that a global stays that was declared before the statement failed.
-/

namespace ScriptTyping

def Tree.FailsAt (tree : Tree) (environment : Environment) (index : Nat)
    (before after : CheckState) : Prop :=
  ∃ depth root child ty failure left,
    tree.visitDepth = depth + 1 ∧ tree.root = some root ∧
    (Rule.statementsFrom (visit depth) root .void 0 index).run.run { tree, environment } =
      .ok (.ok ty, before) ∧
    before.tree.childAt? root index = some child ∧
    (visit depth child).run.run before = .ok (.error failure, left) ∧
    (Rule.statementsFrom (visit depth) root .void 0 (index + 1)).run.run { tree, environment } =
      .ok (.ok .never, after)

namespace Tree

variable {source : Option String} {stored statement : StoredNode} {environment : Environment}
  {index : Nat} {before after : CheckState}

/-- A statement of a root that fails leaves what it declared and imported before it failed. If
nothing strictly inside it may declare or import something, that is the name that an assignment of
shell mode stores to, and nothing for any other statement. -/
theorem failed_leaves (isSource : stored.tag = .source)
    (isStatement : stored.children[index]? = some statement)
    (fails : (ofStored source stored).FailsAt environment index before after) :
    before.environment.Grows after.environment ∧
      (statement.nests ⟨environment.options.shellMode, false⟩ = false →
        (before.environment.imply statement.assigned?).Still after.environment) := by
  obtain ⟨depth, root, child, ty, failure, left, _, isRoot, run, isChild, failed, next⟩ := fails
  obtain ⟨later, branch, rootEq, stands, rfl, raw⟩ := @ofStored_raw .nothing stored source
    (fun node _ => Premise.allows_nothing node) (.inl rfl)
  obtain rfl : branch.id = root := Option.some.inj (rootEq.symm.trans isRoot)
  let start : CheckState := { tree := ofStored source branch.stored, environment }
  have opened : branch.node.tag ≠ .funcDecl := by
    rw [← Branch.tag_stored, isSource]
    decide
  have standsStart : start.tree.Stands branch := stands
  have sound : branch.node.tag ≠ .error := by
    rw [← Branch.tag_stored, isSource]
    decide
  have unlooped : branch.node.tag ≠ .forEach := by
    rw [← Branch.tag_stored, isSource]
    decide
  have started : Open .nothing branch.stored.calm environment (Unseen []) start branch :=
    .start standsStart later raw opened sound fun _ _ found _ =>
      Branch.calm_kid opened (.inl unlooped) (List.mem_of_getElem? found)
  have unseenAll : ∀ position label, 0 ≤ position → Unseen [] position label :=
    fun _ _ _ _ member => absurd member List.not_mem_nil
  obtain ⟨reached, becomes, opens, _, unseen, _⟩ := (Rule.statementsFrom_yields
    (Check.visit_yields depth) (started.narrow unseenAll) .void index).ok run
  -- This statement is still as it was stored, and no scope is open.
  rw [Nat.zero_add] at opens unseen
  rw [Branch.children_stored, List.getElem?_map, Option.map_eq_some_iff] at isStatement
  obtain ⟨kid, isKid, rfl⟩ := isStatement
  have found : reached.kids[index]? = some kid := (unseen index (.inr (Nat.le_refl index))).trans isKid
  have bare : before.scopes.Bare := becomes.evolves.scopes.bare ⟨rfl, rfl⟩
  have mode : before.mode = ⟨environment.options.shellMode, false⟩ := becomes.evolves.mode
  rw [← becomes.turns.id] at run isChild next
  rw [opens.stands.holds.childAt?_eq, found, Option.map_some, Option.some.injEq] at isChild
  subst isChild
  have standsKid := opens.stands.kid (List.mem_of_getElem? found)
  have rawKid := opens.raw index kid found (Nat.le_refl index)
  have breaks := (Check.visit_yields depth before kid standsKid opens.later rawKid).error failed
  have same : after.environment = left.environment := by
    have isHere := (breaks.replaced opens.stands found).1
    rw [Rule.run_statementsFrom_succ run, Nat.zero_add,
      Rule.run_statementsFrom_some ty 0 (by rw [opens.stands.holds.childAt?_eq, found]; rfl),
      failed] at next
    simp only at next
    rw [Check.run_bind, Check.run_replace _ isHere] at next
    cases next
    rfl
  rw [same]
  refine ⟨breaks.evolves.environment.grows, fun lone => ?_⟩
  exact Check.visit_leaves depth standsKid opens.later rawKid bare (mode ▸ lone) failure left failed

end Tree

namespace StoredNode

/-- A store of an unknown value to an unknown name. -/
def unknownStore : StoredNode :=
  mk none .assign none .nowhere [
    mk (some .left) .name (some "y") .nowhere [],
    mk (some .right) .name (some "nope") .nowhere []]

def unknownSource : StoredNode := mk none .source none .nowhere [unknownStore]

end StoredNode

/-- In shell mode the name stays declared after its statement has failed. -/
theorem Tree.failed_leaves_unknown : ∃ before after,
    (ofStored none .unknownSource).FailsAt (.ofOptions { shellMode := true }) 0 before after ∧
      before.environment.globals = #[] ∧ after.environment.globals = #[⟨"y", .object⟩] ∧
      after.environment.imported = [] := by
  let start : CheckState :=
    { tree := ofStored none .unknownSource, environment := .ofOptions { shellMode := true } }
  have stops : ∃ failure left, (visit 9 1).run.run start = .ok (.error failure, left) := by
    have evaluated : ((visit 9 1).run.run start).toOption.map (·.1.isOk) = some false := by
      decide +kernel
    cases run : (visit 9 1).run.run start with
    | error fault => simp [run, Except.toOption] at evaluated
    | ok result =>
        obtain ⟨outcome, left⟩ := result
        cases outcome with
        | ok ty => simp [run, Except.toOption, Except.isOk, Except.toBool] at evaluated
        | error failure => exact ⟨failure, left, rfl⟩
  have goesOn : ∃ after, (Rule.statementsFrom (visit 9) 0 .void 0 1).run.run start =
      .ok (.ok .never, after) := by
    have evaluated : ((Rule.statementsFrom (visit 9) 0 .void 0 1).run.run start).toOption.any
        (·.1.toOption.any Ty.isNever) = true := by decide +kernel
    cases run : (Rule.statementsFrom (visit 9) 0 .void 0 1).run.run start with
    | error fault => simp [run, Except.toOption] at evaluated
    | ok result =>
        obtain ⟨outcome, after⟩ := result
        cases outcome with
        | error failure => simp [run, Except.toOption] at evaluated
        | ok ty =>
            have isNever : ty.isNever = true := by simpa [run, Except.toOption] using evaluated
            exact ⟨after, by rw [Ty.eq_never_of_isNever isNever]⟩
  obtain ⟨failure, left, failed⟩ := stops
  obtain ⟨after, next⟩ := goesOn
  have fails : (ofStored none .unknownSource).FailsAt (.ofOptions { shellMode := true }) 0 start
      after := ⟨9, 0, 1, .void, failure, left, by decide, by decide, rfl, by decide, failed, next⟩
  have still := (failed_leaves (by decide) (show _ = some StoredNode.unknownStore from rfl)
    fails).2 (by decide)
  have isName : StoredNode.unknownStore.assigned? = some "y" := rfl
  have implied : start.environment.imply (some "y") =
      { start.environment with globals := #[⟨"y", .object⟩] } := by
    have unknown : start.environment.hasGlobal "y" = false := by
      simp [Environment.hasGlobal, Environment.globalId?, start, Environment.ofOptions]
    have shell : start.environment.options.shellMode = true := rfl
    simp only [Environment.imply, shell, unknown, Bool.not_false, Bool.and_true, if_true]
    rfl
  rw [isName, implied] at still
  exact ⟨start, after, fails, rfl, still.globals, still.imported⟩

end ScriptTyping
