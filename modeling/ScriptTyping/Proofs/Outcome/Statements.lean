import ScriptTyping.Proofs.Outcome.Settled
import ScriptTyping.Proofs.Rule.Failure

/-!
Statements of a unit, one after another. Checking comes to each of them as it was read, and what is
declared then is still declared in the end.
-/

namespace ScriptTyping

namespace Rule

open Check

variable {visit : Visit} {id : NodeId} {old new : CheckState} {index : Nat}

theorem run_statementsFrom_none (last : Ty) (count : Nat)
    (absent : old.tree.childAt? id index = none) :
    (statementsFrom visit id last index count).run.run old = .ok (.ok last, old) := by
  cases count with
  | zero => rfl
  | succ count =>
      have reads : (Check.tree).run.run old = .ok (.ok old.tree, old) := rfl
      rw [statementsFrom, run_bind, reads]
      simp only [absent]
      rfl

theorem run_statementsFrom_some {child : NodeId} (last : Ty) (count : Nat)
    (found : old.tree.childAt? id index = some child) :
    (statementsFrom visit id last index (count + 1)).run.run old =
      match (visit child).run.run old with
      | .error fault => .error fault
      | .ok (.ok ty, later) => (statementsFrom visit id ty (index + 1) count).run.run later
      | .ok (.error failure, later) => (do
          replace ⟨id, index⟩ failure.replacement
          recordError failure.error
          statementsFrom visit id .never (index + 1) count : Check Ty).run.run later := by
  have reads : (Check.tree).run.run old = .ok (.ok old.tree, old) := rfl
  rw [statementsFrom, run_bind, reads]
  simp only [found]
  rw [run_bind, run_attempt]
  cases (visit child).run.run old with
  | error fault => rfl
  | ok answer =>
      obtain ⟨result, later⟩ := answer
      cases result <;> rfl

/-- Further statements are checked after the others. -/
theorem run_statementsFrom_add (last : Ty) (index count more : Nat) :
    (statementsFrom visit id last index (count + more)).run.run old =
      (statementsFrom visit id last index count >>= fun ty =>
        statementsFrom visit id ty (index + count) more).run.run old := by
  induction count generalizing last index old with
  | zero => rw [Nat.zero_add, run_bind, statementsFrom]; rfl
  | succ count ih =>
      have shift : index + (count + 1) = index + 1 + count := by omega
      rw [run_bind, Nat.add_right_comm, shift]
      cases found : old.tree.childAt? id index with
      | none =>
          have absent : old.tree.childAt? id (index + 1 + count) = none := by
            rw [Tree.childAt?, Node.childAt?, Option.map_eq_none_iff, List.getElem?_eq_none_iff]
              at found ⊢
            omega
          rw [run_statementsFrom_none last _ found, run_statementsFrom_none last _ found]
          exact (run_statementsFrom_none last _ absent).symm
      | some child =>
          rw [run_statementsFrom_some last _ found, run_statementsFrom_some last _ found]
          cases (visit child).run.run old with
          | error fault => rfl
          | ok answer =>
              obtain ⟨result, later⟩ := answer
              cases result with
              | ok ty => exact (ih ty (index + 1)).trans (run_bind _ _ _)
              | error failure =>
                  simp only [run_bind, ih]
                  cases (replace ⟨id, index⟩ failure.replacement).run.run later with
                  | error fault => rfl
                  | ok replaced =>
                      obtain ⟨result, replaced⟩ := replaced
                      cases result <;> rfl

theorem run_statementsFrom_succ {last ty : Ty} {count : Nat}
    (run : (statementsFrom visit id last index count).run.run old = .ok (.ok ty, new)) :
    (statementsFrom visit id last index (count + 1)).run.run old =
      (statementsFrom visit id ty (index + count) 1).run.run new := by
  rw [run_statementsFrom_add, run_bind, run]

theorem run_visit {depth : Nat} (undone : (old.tree.get id).done = false) :
    (ScriptTyping.visit (depth + 1) id).run.run old =
      match (ofTag (ScriptTyping.visit depth) id (old.tree.tag id)).run.run old with
      | .error fault => .error fault
      | .ok (.ok ty, new) => .ok (.ok ty,
          { new with tree := new.tree.setType id ty }.noted (.typed id new.environment))
      | .ok (.error failure, new) => .ok (.error failure, new) := by
  have reads : (read (·.tree.get id)).run.run old = .ok (.ok (old.tree.get id), old) := rfl
  rw [ScriptTyping.visit, run_bind, reads]
  simp only [undone, Bool.false_eq_true, if_false]
  rw [run_bind, show (old.tree.get id).tag = old.tree.tag id from rfl]
  cases (ofTag (ScriptTyping.visit depth) id (old.tree.tag id)).run.run old with
  | error fault => rfl
  | ok answer =>
      obtain ⟨result, new⟩ := answer
      cases result <;> rfl

end Rule

structure CheckState.Awaits (state : CheckState) (branch : Branch) : Prop where
  stands : state.tree.Stands branch
  later : Premise.nothing.loaded.nodes.size ≤ state.tree.nodes.size
  raw : Raw Premise.nothing branch
  bare : state.scopes.Bare

theorem CheckState.Awaits.opens {state : CheckState} {branch : Branch}
    (awaits : state.Awaits branch) (opened : branch.node.tag ≠ .funcDecl)
    (sound : branch.node.tag ≠ .error) (unlooped : branch.node.tag ≠ .forEach) :
    Open .nothing branch.stored.calm state.environment (Unseen []) state branch :=
  .start awaits.stands awaits.later awaits.raw opened sound fun _ _ found _ =>
    Branch.calm_kid opened (.inl unlooped) (List.mem_of_getElem? found)

theorem CheckState.Awaits.opensSequence {state : CheckState} {branch : Branch}
    (awaits : state.Awaits branch) (isSequence : branch.node.tag.isSequence = true) :
    Open .nothing branch.stored.calm state.environment (fun position _ => 0 ≤ position) state
      branch := by
  have other : ∀ tag : Tag, tag.isSequence = false → branch.node.tag ≠ tag := by
    rintro tag different isTag
    rw [isTag, different] at isSequence
    cases isSequence
  exact (awaits.opens (other _ rfl) (other _ rfl) (other _ rfl)).narrow
    fun _ _ _ _ member => absurd member List.not_mem_nil

/-- The statements before a statement of a sequence leave it as it was read. -/
theorem CheckState.Awaits.statement {start before : CheckState} {branch : Branch} {child : NodeId}
    {depth index : Nat} {ty : Ty} (awaits : start.Awaits branch)
    (isSequence : branch.node.tag.isSequence = true)
    (run : (Rule.statementsFrom (visit depth) branch.id .void 0 index).run.run start =
      .ok (.ok ty, before))
    (isChild : before.tree.childAt? branch.id index = some child) :
    ∃ kid later, kid.id = child ∧ before.Awaits kid ∧ later.id = branch.id ∧
      before.tree.Stands later ∧ later.kids[index]? = some kid := by
  obtain ⟨reached, becomes, opens, _, _, _⟩ := (Rule.statementsFrom_yields
    (Check.visit_yields depth) (awaits.opensSequence isSequence) .void index).ok run
  rw [Nat.zero_add] at opens
  rw [← becomes.turns.id, opens.stands.holds.childAt?_eq, Option.map_eq_some_iff] at isChild
  obtain ⟨kid, found, isKid⟩ := isChild
  refine ⟨kid, reached, isKid, ?_, becomes.turns.id, opens.stands, found⟩
  exact ⟨opens.stands.kid (List.mem_of_getElem? found), opens.later,
    opens.raw index kid found (Nat.le_refl index), becomes.evolves.scopes.bare awaits.bare⟩

namespace Tree

inductive ComesTo (tree : Tree) (environment : Environment) : Nat → NodeId → CheckState → Prop where
  | root {root : NodeId} : tree.root = some root →
      ComesTo tree environment tree.visitDepth root { tree, environment }
  | statement {depth index : Nat} {sequence child : NodeId} {start before : CheckState} {ty : Ty} :
      ComesTo tree environment (depth + 1) sequence start →
      (start.tree.tag sequence).isSequence = true →
      (Rule.statementsFrom (visit depth) sequence .void 0 index).run.run start =
        .ok (.ok ty, before) →
      before.tree.childAt? sequence index = some child →
      ComesTo tree environment depth child before

theorem ComesTo.awaits {source : Option String} {stored : StoredNode} {environment : Environment}
    {depth : Nat} {id : NodeId} {state : CheckState}
    (comes : (ofStored source stored).ComesTo environment depth id state) :
    ∃ branch, branch.id = id ∧ state.Awaits branch := by
  induction comes with
  | root isRoot =>
      obtain ⟨later, branch, rootEq, stands, _, raw⟩ := @ofStored_raw .nothing stored source
        (fun node _ => Premise.allows_nothing node) (.inl rfl)
      exact ⟨branch, Option.some.inj (rootEq.symm.trans isRoot), stands, later, raw, rfl, rfl⟩
  | statement _ isSequence run isChild ih =>
      obtain ⟨branch, rfl, awaits⟩ := ih
      rw [awaits.stands.holds.tag_eq] at isSequence
      obtain ⟨kid, _, isKid, awaitsKid, _⟩ := awaits.statement isSequence run isChild
      exact ⟨kid, isKid, awaitsKid⟩

end Tree

end ScriptTyping
