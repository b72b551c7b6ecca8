import ScriptTyping.Check.Arguments
import ScriptTyping.Proofs.Check.Coercion

/-!
Reading, visiting and converting children by label and by slot.
-/

namespace ScriptTyping

namespace Check

variable {β : Type} {premise : Premise} {calm : Calm} {first : Environment}
  {unseen less : Nat → Option Label → Prop} {old : CheckState} {branch kid : Branch}
  {label : Label} {index : Nat} {visit : Visit} {seen : List Label}

/-! ### By label -/

theorem required_yields {inner : Branch} (stands : old.tree.Stands branch)
    (holds : old.tree.Holds inner) :
    (required inner.id label).Yields calm old branch fun id new after =>
      new = old ∧ after = branch ∧ ∃ index kid, inner.Kid label index kid ∧ id = kid.id := by
  refine .bindRead stands ?_
  rw [holds.child?_eq]
  cases found : inner.first? label with
  | none => exact .bindRead stands (.failAt stands _ rfl)
  | some kid =>
      obtain ⟨index, isKid⟩ := Branch.first?_eq_some_iff.mp found
      exact .pure stands ⟨rfl, rfl, index, kid, isKid, rfl⟩

theorem Yields.bindRequiredOf {inner : Branch} {next : NodeId → Check β}
    {post : β → CheckState → Branch → Prop} (stands : old.tree.Stands branch)
    (holds : old.tree.Holds inner)
    (rest : ∀ index kid, inner.Kid label index kid → (next kid.id).Yields calm old branch post) :
    (required inner.id label >>= next).Yields calm old branch post := by
  refine .bindSame (required_yields stands holds) ?_
  rintro _ ⟨index, kid, isKid, rfl⟩
  exact rest index kid isKid

theorem Yields.bindRequired {next : NodeId → Check β} {post : β → CheckState → Branch → Prop}
    (stands : old.tree.Stands branch)
    (rest : ∀ index kid, branch.Kid label index kid → (next kid.id).Yields calm old branch post) :
    (required branch.id label >>= next).Yields calm old branch post :=
  .bindRequiredOf stands stands.holds rest

theorem Yields.bindRequiredSlot {next : Slot → Check β} {post : β → CheckState → Branch → Prop}
    (stands : old.tree.Stands branch)
    (rest : ∀ index kid, branch.Kid label index kid →
      (next ⟨branch.id, index⟩).Yields calm old branch post) :
    (requiredSlot branch.id label >>= next).Yields calm old branch post := by
  have read : (requiredSlot branch.id label).Yields calm old branch fun slot new after =>
      new = old ∧ after = branch ∧ ∃ index kid, branch.Kid label index kid ∧
        slot = ⟨branch.id, index⟩ := by
    refine .bindRead stands ?_
    rw [stands.holds.indexOf?_eq]
    split
    · rename_i index found
      obtain ⟨kid, isKid⟩ := Branch.exists_kid found
      exact .pure stands ⟨rfl, rfl, index, kid, isKid, rfl⟩
    · rename_i absent
      refine .bindRequired stands ?_
      intro index kid isKid
      rw [isKid.first] at absent
      simp at absent
  refine read.bind ?_
  rintro _ _ _ _ ⟨rfl, rfl, index, kid, isKid, rfl⟩
  exact rest index kid isKid

theorem Yields.bindOccupant {next : NodeId → Check β} {post : β → CheckState → Branch → Prop}
    (stands : old.tree.Stands branch) (found : branch.kids[index]? = some kid)
    (rest : (next kid.id).Yields calm old branch post) :
    (occupant ⟨branch.id, index⟩ >>= next).Yields calm old branch post := by
  refine .bindRun (run_occupant ?_) (.refl stands) rest
  rw [stands.holds.childAt?_eq, found, Option.map_some]

theorem unseen_cons {position : Nat} {role : Option Label}
    (isUnseen : Unseen (label :: seen) position role) : Unseen seen position role :=
  fun wanted member => isUnseen wanted (List.mem_cons_of_mem _ member)

theorem not_unseen_cons (isKid : branch.Kid label index kid) :
    ¬ Unseen (label :: seen) index (Branch.roleAt branch.kids index) :=
  fun isUnseen => isUnseen label List.mem_cons_self isKid.role

theorem unseen_kid (isKid : branch.Kid label index kid) (new : label ∉ seen) :
    Unseen seen index (Branch.roleAt branch.kids index) := by
  intro wanted member same
  rw [isKid.role, Option.some.injEq] at same
  exact new (same ▸ member)

theorem Yields.bindReported {next : Ty → Check β} {post : β → CheckState → Branch → Prop}
    (visits : Visits premise visit) (isOpen : Open premise calm first (Unseen seen) old branch)
    (isKid : branch.Kid label index kid) (isNew : label ∉ seen)
    (rest : ∀ ty new newKid, Becomes kid.stored.calm old kid new newKid →
      newKid.node.ty = some ty → newKid.Reported new.errors ty →
      Open premise calm first (Unseen (label :: seen)) new (branch.setKid index newKid) →
      (next ty).Yields calm new (branch.setKid index newKid) post) :
    (visit kid.id >>= next).Yields calm old branch post := by
  refine (child_yields visits isOpen isKid.found (unseen_kid isKid isNew) (fun _ _ => unseen_cons)
    (not_unseen_cons isKid)).bind ?_
  rintro ty new _ _ ⟨newKid, becomes, typed, reported, rfl, opens⟩
  exact rest ty new newKid becomes typed reported opens

theorem Yields.bindVisitKid {next : Ty → Check β} {post : β → CheckState → Branch → Prop}
    (visits : Visits premise visit) (isOpen : Open premise calm first (Unseen seen) old branch)
    (isKid : branch.Kid label index kid) (isNew : label ∉ seen)
    (rest : ∀ ty new newKid, Becomes kid.stored.calm old kid new newKid →
      newKid.node.ty = some ty →
      Open premise calm first (Unseen (label :: seen)) new (branch.setKid index newKid) →
      (next ty).Yields calm new (branch.setKid index newKid) post) :
    (visit kid.id >>= next).Yields calm old branch post :=
  .bindReported visits isOpen isKid isNew fun ty new newKid becomes typed _ =>
    rest ty new newKid becomes typed

structure Enforced (premise : Premise) (calm : Calm) (first : Environment) (seen : List Label)
    (branch : Branch) (label : Label) (required : Ty) (new : CheckState) (after : Branch)
    (index : Nat) (kid newKid : Branch) : Prop where
  isKid : branch.Kid label index kid
  labels : newKid.label = kid.label
  suits : newKid.Suits required
  changed : after = branch.setKid index newKid
  isOpen : Open premise calm first (Unseen (label :: seen)) new after

theorem Enforced.first?_self {required : Ty} {new : CheckState} {after newKid : Branch}
    (enforced : Enforced premise calm first seen branch label required new after index kid newKid) :
    after.first? label = some newKid := by
  rw [enforced.changed]
  exact (enforced.isKid.setKid_self enforced.labels).first?

theorem Enforced.first?_other {required : Ty} {new : CheckState} {after newKid : Branch}
    {wanted : Label}
    (enforced : Enforced premise calm first seen branch label required new after index kid newKid)
    (different : label ≠ wanted) : after.first? wanted = branch.first? wanted := by
  rw [enforced.changed]
  exact Branch.first?_setKid_other enforced.isKid enforced.labels different

/-- A truth value stays one while children under other labels are checked. -/
theorem Enforced.tests {labels : List Label} {new : CheckState} {after newKid : Branch}
    (enforced : Enforced premise calm first seen branch label .bool new after index kid newKid)
    (tests : branch.Tests labels) (isNew : label ∉ labels) : after.Tests (label :: labels) := by
  intro wanted member
  rcases List.mem_cons.mp member with rfl | before
  · exact ⟨newKid, enforced.first?_self, enforced.suits⟩
  · obtain ⟨other, found, suits⟩ := tests wanted before
    have different : label ≠ wanted := fun same => isNew (same ▸ before)
    exact ⟨other, (enforced.first?_other different).trans found, suits⟩

/-- The first truth value that a rule asks for. -/
theorem Enforced.test {new : CheckState} {after newKid : Branch}
    (enforced : Enforced premise calm first seen branch label .bool new after index kid newKid) :
    after.Tests [label] :=
  enforced.tests (fun _ none => absurd none List.not_mem_nil) List.not_mem_nil

theorem enforce_yields (visits : Visits premise visit)
    (isOpen : Open premise calm first (Unseen seen) old branch) (isNew : label ∉ seen)
    (required : Ty) :
    (Check.enforce visit branch.id label required).Yields calm old branch fun node new after =>
      ∃ index kid newKid, node = newKid.id ∧
        Enforced premise calm first seen branch label required new after index kid newKid := by
  refine .bindRequiredSlot isOpen.stands ?_
  intro index kid isKid
  refine .bindOccupant isOpen.stands isKid.found ?_
  refine .bindVisitKid visits isOpen isKid isNew ?_
  intro ty new newKid becomes typed opens
  have isVisited := isKid.setKid_self becomes.turns.label
  refine (coerce_yields opens isVisited.found (not_unseen_cons isVisited) typed required).mono ?_
  rintro node last after _ ⟨coerced, rfl, label, suits, rfl, opens, _⟩
  refine ⟨index, kid, coerced, rfl, isKid, label.trans becomes.turns.label, suits, ?_, opens⟩
  exact Branch.setKid_setKid branch index newKid coerced

end Check

end ScriptTyping
