import ScriptTyping.Proofs.Locality.Visit

/-!
Scopes around a visit. Whatever a rule opens it closes, also when it fails in the middle, so that a
visit can only be noticed in the innermost block and in a return type that was open.
-/

namespace ScriptTyping

namespace Realm

def whole (source : Option String) : Realm := ⟨fun _ => True, fun _ => True, source, trivial⟩

theorem whole_joins (tree : Tree) : (whole tree.source).Joins tree tree :=
  ⟨⟨fun _ => trivial, fun _ => ⟨trivial, fun _ _ => trivial⟩, rfl⟩, rfl, fun _ => rfl, rfl⟩

end Realm

/-- A visit, successful or failed, leaves the same functions and blocks open. All but the innermost
block are as they were, that one keeps its names, and a return type that was set stays. -/
theorem visit_balances (depth : Nat) (id : NodeId) (old : CheckState) :
    match (visit depth id).run.run old with
    | .ok (_, new) => old.scopes.Widens new.scopes
    | .error fault => ∀ unbalanced, fault ≠ .scope unbalanced := by
  have pairs : (Realm.whole old.tree.source).Pairs old old :=
    ⟨Realm.whole_joins old.tree, rfl, rfl⟩
  have inside : (Realm.whole old.tree.source).inside id := trivial
  have runs := (visit_agrees (Nat.le_refl depth) inside).ends old old pairs
  generalize (visit depth id).run.run old = ends at runs
  cases runs with
  | gives _ advances => exact advances.widens
  | fails _ advances => exact advances.widens
  | @stops fault allowed =>
      rintro unbalanced rfl
      exact allowed
  | deeper =>
      rintro unbalanced same
      cases same

end ScriptTyping
