import ScriptTyping.Check.Declaration
import ScriptTyping.Proofs.Rule.Basic

/-!
Names, annotations and parameters, which get a type without a visit.
-/

namespace ScriptTyping

section Asides

variable {premise : Premise} {first : Environment} {last : Moment} {returnType : Option Ty}
  {kid : Branch}

theorem Raw.typed (raw : Raw premise kid) (aside : premise.aside kid.node.tag) (ty : Ty) :
    Settled premise first last returnType (kid.typed ty) :=
  .idle (raw.idle rfl rfl rfl (fun _ => aside) fun _ => Branch.forall₂_remains _)
    fun _ member => (raw.kid member).settled

/-- A parameter whose annotation has its type, and which gets one itself. -/
theorem Raw.typedParameter {annotated : Branch} {index : Nat} {ty inner : Ty}
    (raw : Raw premise kid) (aside : premise.aside kid.node.tag)
    (isKid : kid.Kid .type index annotated) (asideKid : premise.aside annotated.node.tag) :
    Settled premise first last returnType ((kid.setKid index (annotated.typed inner)).typed ty) := by
  refine .idle (raw.idle rfl rfl rfl (fun _ => aside) fun _ => ?_) ?_
  · have inRange := (List.getElem?_eq_some_iff.mp isKid.found).1
    have remains : (annotated.typed inner).Remains annotated := .inr ⟨rfl, rfl⟩
    exact Branch.forall₂_remains_set isKid.found remains (List.getElem?_set_self inRange)
      (Branch.forall₂_remains _)
  · intro other member
    rcases List.mem_or_eq_of_mem_set member with isOld | rfl
    · exact (raw.kid isOld).settled
    · exact (raw.kid isKid.mem).typed asideKid inner

/-- A change of the tree inside a child, which counts as seen after that. -/
theorem Open.changeKid {calm : Calm} {unseen less : Nat → Option Label → Prop} {old : CheckState}
    {branch newKid : Branch} {index : Nat} {tree : Tree}
    (isOpen : Open premise calm first unseen old branch) (found : branch.kids[index]? = some kid)
    (turns : old.tree.Turns kid tree newKid) (notes : newKid.notes = kid.notes)
    (settled : Settled premise first old.moment old.scopes.returnType? newKid)
    (fewer : ∀ position role, less position role → unseen position role)
    (seen : ¬ less index (Branch.roleAt branch.kids index)) :
    Becomes calm old branch { old with tree := tree } (branch.setKid index newKid) ∧
      Open premise calm first less { old with tree := tree } (branch.setKid index newKid) := by
  have becomes : Becomes calm old kid { old with tree := tree } newKid := .ofTree turns notes
  exact ⟨becomes.inside isOpen.stands found, isOpen.step found becomes settled fewer seen⟩

end Asides

namespace Check

variable {β : Type} {premise : Premise} {calm : Calm} {first : Environment} {seen : List Label}
  {old : CheckState} {branch kid : Branch} {label : Label} {index : Nat}

theorem denotation_yields (stands : old.tree.Stands branch) (node : NodeId) :
    ( denotation node).Yields calm old branch fun ty new after => new = old ∧ after = branch ∧
      old.environment.resolveType (old.tree.text node) = .ok ty := by
  refine .bindRead stands (.bindRead stands ?_)
  cases found : old.environment.resolveType (old.tree.text node) with
  | ok ty => exact .pure stands ⟨rfl, rfl, rfl⟩
  | error error => exact .failAt stands _ rfl

theorem annotation_yields (stands : old.tree.Stands kid) :
    ( annotation kid.id).Yields calm old kid fun ty new after => after = kid.typed ty ∧
      new.environment = old.environment ∧ new.scopes = old.scopes ∧
      old.environment.resolveType (kid.node.text.getD "") = .ok ty := by
  refine .bindSame (denotation_yields stands kid.id) ?_
  intro ty found
  rw [stands.holds.text_eq] at found
  have turns : old.tree.Turns kid (old.tree.setType kid.id ty) (kid.typed ty) := .alter stands rfl rfl
  exact .bindRun rfl (.ofTree turns (Branch.notes_alter rfl)) (.pure turns.stands ⟨rfl, rfl, rfl, found⟩)

theorem Yields.bindWritten {next : Ty → Check β} {post : β → CheckState → Branch → Prop}
    (isOpen : Open premise calm first (Unseen seen) old branch)
    (isKid : branch.Kid label index kid) (isNew : label ∉ seen)
    (aside : premise.aside kid.node.tag)
    (rest : ∀ ty new, new.environment = old.environment → new.scopes = old.scopes →
      old.environment.resolveType (kid.node.text.getD "") = .ok ty →
      Open premise calm first (Unseen (label :: seen)) new (branch.setKid index (kid.typed ty)) →
      (next ty).Yields calm new (branch.setKid index (kid.typed ty)) post) :
    ( annotation kid.id >>= next).Yields calm old branch post := by
  have raw := isOpen.raw index kid isKid.found (unseen_kid isKid isNew)
  have stands := isOpen.stands.kid isKid.mem
  refine ((annotation_yields stands).inside isOpen.stands isKid.found).bind ?_
  rintro ty new _ _ ⟨_, becomes, ⟨rfl, environment, scopes, found⟩, rfl⟩
  exact rest ty new environment scopes found (isOpen.step isKid.found becomes
    (raw.typed aside ty) (fun _ _ => unseen_cons) (not_unseen_cons isKid))

theorem annotation?_yields (stands : old.tree.Stands branch) :
    ( annotation? branch.id label).Yields calm old branch fun written new after =>
      new.environment = old.environment ∧ new.scopes = old.scopes ∧
        ((written = none ∧ new = old ∧ after = branch ∧ branch.first? label = none) ∨
          ∃ ty index kid, written = some ty ∧ branch.Kid label index kid ∧
            after = branch.setKid index (kid.typed ty) ∧
            old.environment.resolveType (kid.node.text.getD "") = .ok ty) := by
  refine .bindRead stands ?_
  rw [stands.holds.child?_eq]
  cases found : branch.first? label with
  | none => exact .pure stands ⟨rfl, rfl, .inl ⟨rfl, rfl, rfl, rfl⟩⟩
  | some kid =>
      obtain ⟨index, isKid⟩ := Branch.first?_eq_some_iff.mp found
      have annotated := @annotation_yields calm _ _ (stands.kid isKid.mem)
      refine (annotated.inside stands isKid.found).bind ?_
      rintro ty new _ becomes ⟨_, _, ⟨rfl, environment, scopes, resolved⟩, rfl⟩
      exact .pure becomes.stands
        ⟨environment, scopes, .inr ⟨ty, index, kid, rfl, isKid, rfl, resolved⟩⟩

theorem written?_yields (isOpen : Open premise calm first (Unseen seen) old branch)
    (isNew : label ∉ seen)
    (aside : ∀ index kid, branch.Kid label index kid → premise.aside kid.node.tag) :
    ( annotation? branch.id label).Yields calm old branch fun _ new after =>
      branch.Alike after ∧
        (∀ other index kid, other ≠ label → branch.Kid other index kid →
          after.Kid other index kid) ∧
        (∀ index kid, after.Kid label index kid → kid.notes = 0) ∧
        new.environment = old.environment ∧ new.scopes = old.scopes ∧
        Open premise calm first (Unseen (label :: seen)) new after := by
  refine (annotation?_yields isOpen.stands).mono ?_
  rintro written new after becomes ⟨environment, scopes, ⟨rfl, rfl, rfl, _⟩ | found⟩
  · exact ⟨.refl isOpen.stands, fun _ _ _ _ isKid => isKid,
      fun _ _ isKid => isOpen.silent isKid.found (unseen_kid isKid isNew), rfl, rfl,
      isOpen.narrow fun _ _ => unseen_cons⟩
  · obtain ⟨ty, index, kid, rfl, isKid, rfl, _⟩ := found
    have raw := isOpen.raw index kid isKid.found (unseen_kid isKid isNew)
    refine ⟨.setKid isKid.found rfl, ?_, ?_, environment, scopes, ?_⟩
    · intro other position inner different isOther
      exact isOther.setKid_other isKid.found rfl (isKid.ne isOther (Ne.symm different))
    · intro position inner isInner
      have isTyped := @Branch.Kid.setKid_self _ _ (kid.typed ty) _ _ isKid rfl
      obtain rfl := isTyped.index_eq isInner
      have same := isInner.found.symm.trans isTyped.found
      rw [Option.some.injEq] at same
      rw [same]
      exact (Branch.notes_alter rfl).trans raw.blank.notes_eq
    · have sameLabel : (kid.typed ty).label = kid.label := rfl
      exact isOpen.exchange becomes.evolves becomes.stands becomes.turns.size isKid.found sameLabel
        (raw.typed (aside index kid isKid) ty) (fun _ _ => unseen_cons) (not_unseen_cons isKid)

theorem Yields.bindWritten? {next : Option Ty → Check β} {post : β → CheckState → Branch → Prop}
    (isOpen : Open premise calm first (Unseen seen) old branch) (isNew : label ∉ seen)
    (aside : ∀ index kid, branch.Kid label index kid → premise.aside kid.node.tag)
    (rest : ∀ written new after, branch.Alike after →
      (∀ other index kid, other ≠ label → branch.Kid other index kid → after.Kid other index kid) →
      (∀ index kid, after.Kid label index kid → kid.notes = 0) →
      new.environment = old.environment → new.scopes = old.scopes →
      Open premise calm first (Unseen (label :: seen)) new after →
      (next written).Yields calm new after post) :
    ( annotation? branch.id label >>= next).Yields calm old branch post := by
  refine (written?_yields isOpen isNew aside).bind ?_
  rintro written new after _ ⟨alike, others, silent, environment, scopes, opens⟩
  exact rest written new after alike others silent environment scopes opens

end Check

end ScriptTyping
