import ScriptTyping.Proofs.Outcome.Frame
import ScriptTyping.Proofs.Outcome.Statements

/-!
Runs of single steps from a state in which what they look for is there, and what a visit of a node
leaves at the node itself: its type, and its kind but for the kinds that checking gives.
-/

namespace ScriptTyping

namespace Check

variable {state : CheckState} {id node kid : NodeId} {label : Label} {index : Nat} {ty : Ty}

theorem run_required_of_child? (found : state.tree.child? id label = some kid) :
    (required id label).run.run state = .ok (.ok kid, state) := by
  have reads : (child? id label).run.run state = .ok (.ok (some kid), state) := by
    rw [← found]
    rfl
  rw [required, run_bind, reads]
  rfl

theorem run_requiredSlot_of_indexOf? (found : (state.tree.get id).indexOf? label = some index) :
    (requiredSlot id label).run.run state = .ok (.ok ⟨id, index⟩, state) := by
  have reads : (Check.tree).run.run state = .ok (.ok state.tree, state) := rfl
  rw [requiredSlot, run_bind, reads]
  dsimp only
  rw [found]
  rfl

theorem run_annotation (denotes : state.environment.resolveType (state.tree.text node) = .ok ty) :
    ( annotation node).run.run state =
      .ok (.ok ty, { state with tree := state.tree.setType node ty }) := by
  have means : ( denotation node).run.run state = .ok (.ok ty, state) := by
    rw [ denotation, run_bind, run_textOf]
    dsimp only
    rw [run_bind, run_environment]
    dsimp only
    rw [denotes]
    rfl
  rw [ annotation, run_bind, means]
  rfl

end Check

/-! ### The visited node -/

/-- Whether a node that needs no checking has a type, and is no null literal. -/
def Tree.Sealed (tree : Tree) (id : NodeId) : Prop :=
  (tree.get id).done = true → (tree.ty? id).isSome = true ∧ tree.tag id ≠ .nullValue

theorem Tree.Holds.isSealed {tree : Tree} {branch : Branch} {id : NodeId}
    (holds : tree.Holds branch) (blank : branch.Blank) (reaches : tree.Reaches branch.id id) :
    tree.Sealed id := by
  have inside := reaches.mem_ids holds
  induction branch using Branch.induction with
  | mk branch ih =>
      rw [Branch.ids_eq, List.mem_cons, List.mem_flatMap] at inside
      rcases inside with rfl | ⟨kid, isKid, inside⟩
      · intro isDone
        rw [holds.get_eq, blank.done_eq] at isDone
        cases isDone
      · have holdsKid := holds.kid isKid
        exact ih kid isKid holdsKid (blank.kid isKid) (holdsKid.reaches inside) inside

section Visit

variable {depth : Nat} {id : NodeId} {state new : CheckState} {found : Ty}

/-- Nodes stay of their kind, or are given one of a few kinds. -/
theorem visit_kinds {result : Except Failure Ty}
    (ran : (visit depth id).run.run state = .ok (result, new)) {position : NodeId}
    (bound : position < state.tree.nodes.size) :
    (state.tree.tag position).Leads (new.tree.tag position) := by
  have pairs : (Realm.whole state.tree.source).Pairs state state :=
    ⟨Realm.whole_joins state.tree, rfl, rfl⟩
  have inside : (Realm.whole state.tree.source).inside id := trivial
  have runs := (visit_agrees (Nat.le_refl depth) inside).ends state state pairs
  rw [ran] at runs
  cases runs with
  | gives _ advances => exact advances.trees.left.kind bound
  | fails _ advances => exact advances.trees.left.kind bound

theorem Tag.Leads.of_nullValue {tag : Tag} (leads : tag.Leads .nullValue) : tag = .nullValue := by
  rcases leads with same | given
  · exact same.symm
  · cases given

/-- A visited node has the type that the visit gives. That of a null literal is `Object`. -/
theorem visit_typed (ran : (visit depth id).run.run state = .ok (.ok found, new))
    (bound : id < state.tree.nodes.size) (isSealed : state.tree.Sealed id) :
    new.tree.ty? id = some found ∧ (new.tree.tag id = .nullValue → found = .object) := by
  cases depth with
  | zero => cases ran
  | succ depth =>
      cases isDone : (state.tree.get id).done with
      | true =>
          obtain ⟨typed, notNull⟩ := isSealed isDone
          obtain ⟨ty, isTy⟩ := Option.isSome_iff_exists.mp typed
          have reads : (Check.read (·.tree.get id)).run.run state =
              .ok (.ok (state.tree.get id), state) := rfl
          rw [visit, Check.run_bind, reads] at ran
          simp only [isDone, if_true] at ran
          cases ran
          have stamped : (state.tree.get id).ty = some ty := isTy
          rw [stamped]
          exact ⟨isTy, fun isNull => absurd isNull notNull⟩
      | false =>
          have kinds := visit_kinds ran bound
          have grows := (visit_frame ran).1
          rw [Rule.run_visit isDone] at ran
          split at ran
          · cases ran
          · rename_i ty between rule
            cases ran
            rw [CheckState.tree_noted, Tree.setType, Tree.size_modify] at grows
            refine ⟨?_, fun isNull => ?_⟩
            · have later := Nat.lt_of_lt_of_le bound grows
              rw [CheckState.tree_noted, Tree.ty?, Tree.setType, Tree.get_modify_self _ _ later]
            · rw [isNull] at kinds
              rw [kinds.of_nullValue] at rule
              cases rule
              rfl
          · cases ran

end Visit

end ScriptTyping
