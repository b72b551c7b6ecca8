import ScriptTyping.Proofs.Outcome.Settled

/-!
Nodes of a checked tree: which of them hang below which, which belong to a function, and which are
the arguments of a call.
-/

namespace ScriptTyping

namespace Tree

inductive Reaches (tree : Tree) : NodeId → NodeId → Prop where
  | refl (id : NodeId) : Reaches tree id id
  | step {id kid below : NodeId} : kid ∈ tree.childIds id → Reaches tree kid below →
      Reaches tree id below

/-- Whether a node hangs below a function, with no other function between them. -/
inductive Encloses (tree : Tree) (function : NodeId) : NodeId → Prop where
  | kid {kid : NodeId} : kid ∈ tree.childIds function → Encloses tree function kid
  | step {between kid : NodeId} : Encloses tree function between →
      tree.tag between ≠ .funcDecl → kid ∈ tree.childIds between → Encloses tree function kid

def arguments (tree : Tree) (id : NodeId) : List NodeId :=
  match tree.tag id with
  | .binary _ => [Label.left, .right].filterMap (tree.child? id)
  | .unary _ => [Label.expr].filterMap (tree.child? id)
  | .assertion => [Label.cond, .msg].filterMap (tree.child? id)
  | _ => ((tree.child? id .param).map tree.childIds).getD []

section Reading

variable {tree : Tree} {branch : Branch} {id : NodeId}

theorem Holds.mem_childIds (holds : tree.Holds branch) (member : id ∈ tree.childIds branch.id) :
    ∃ kid ∈ branch.kids, kid.id = id := by
  rw [holds.childIds_eq] at member
  exact List.mem_map.mp member

theorem Reaches.mem_ids (reaches : tree.Reaches branch.id id) (holds : tree.Holds branch) :
    id ∈ branch.ids := by
  generalize top : branch.id = start at reaches
  induction reaches generalizing branch with
  | refl id => exact top ▸ branch.id_mem_ids
  | step member _ ih =>
      subst top
      obtain ⟨kid, isKid, same⟩ := holds.mem_childIds member
      exact Branch.ids_subset isKid (ih (holds.kid isKid) same)

theorem Holds.reaches (holds : tree.Holds branch) (inside : id ∈ branch.ids) :
    tree.Reaches branch.id id := by
  induction branch using Branch.induction with
  | mk branch ih =>
      rw [Branch.ids_eq, List.mem_cons, List.mem_flatMap] at inside
      rcases inside with rfl | ⟨kid, isKid, below⟩
      · exact .refl _
      · refine .step ?_ (ih kid isKid (holds.kid isKid) below)
        rw [holds.childIds_eq]
        exact List.mem_map_of_mem isKid

theorem Holds.filterMap_child? (holds : tree.Holds branch) (labels : List Label) :
    labels.filterMap (tree.child? branch.id) = (labels.filterMap branch.first?).map Branch.id := by
  rw [List.map_filterMap]
  exact List.filterMap_congr fun label _ => holds.child?_eq label

theorem Holds.childrenOf (holds : tree.Holds branch) (label : Label) :
    ((tree.child? branch.id label).map tree.childIds).getD [] =
      (((branch.first? label).map Branch.kids).getD []).map Branch.id := by
  rw [holds.child?_eq]
  cases found : branch.first? label with
  | none => rfl
  | some list =>
      obtain ⟨_, isList⟩ := Branch.first?_eq_some_iff.mp found
      exact (holds.kid isList.mem).childIds_eq

theorem Holds.arguments_eq (holds : tree.Holds branch) :
    tree.arguments branch.id = branch.arguments.map Branch.id := by
  unfold arguments Branch.arguments
  rw [holds.tag_eq]
  generalize branch.node.tag = tag
  cases tag with
  | binary op => exact holds.filterMap_child? _
  | unary op => exact holds.filterMap_child? _
  | assertion => exact holds.filterMap_child? _
  | _ => exact holds.childrenOf .param

theorem Holds.first? (holds : tree.Holds branch) {label : Label} {kid : Branch}
    (found : branch.first? label = some kid) : tree.Holds kid := by
  obtain ⟨_, isKid⟩ := Branch.first?_eq_some_iff.mp found
  exact holds.kid isKid.mem

theorem Holds.argument (holds : tree.Holds branch) {argument : Branch}
    (member : argument ∈ branch.arguments) : tree.Holds argument := by
  have ofLabels : ∀ labels : List Label, argument ∈ labels.filterMap branch.first? →
      tree.Holds argument := by
    intro labels inside
    obtain ⟨label, _, found⟩ := List.mem_filterMap.mp inside
    exact holds.first? found
  have ofList : argument ∈ (((branch.first? .param).map Branch.kids).getD []) →
      tree.Holds argument := by
    intro inside
    cases found : branch.first? .param with
    | none => simp [found] at inside
    | some list =>
        rw [found] at inside
        exact (holds.first? found).kid inside
  unfold Branch.arguments at member
  split at member
  · exact ofLabels _ member
  · exact ofLabels _ member
  · exact ofLabels _ member
  · exact ofList member

end Reading

end Tree

section Reached

variable {premise : Premise} {first : Environment} {last : Moment} {returnType : Option Ty}
  {tree : Tree} {branch : Branch} {id : NodeId}

theorem Settled.reached (settled : Settled premise first last returnType branch)
    (holds : tree.Holds branch) (reaches : tree.Reaches branch.id id) :
    ∃ inner below, below.id = id ∧ tree.Holds below ∧
      Settled premise first last inner below := by
  generalize top : branch.id = start at reaches
  induction reaches generalizing branch returnType with
  | refl id => exact ⟨returnType, branch, top, holds, settled⟩
  | step member _ ih =>
      subst top
      obtain ⟨kid, isKid, same⟩ := holds.mem_childIds member
      cases settled with
      | idle _ kids => exact ih (kids kid isKid) (holds.kid isKid) same
      | checked _ _ _ _ _ _ kids => exact ih (kids kid isKid) (holds.kid isKid) same

/-- The nodes that belong to a function are settled for its return type. -/
theorem Settled.enclosed (kids : ∀ kid ∈ branch.kids, Settled premise first last returnType kid)
    (holds : tree.Holds branch) (encloses : tree.Encloses branch.id id) :
    ∃ below, below.id = id ∧ tree.Holds below ∧ Settled premise first last returnType below := by
  induction encloses with
  | kid member =>
      obtain ⟨kid, isKid, same⟩ := holds.mem_childIds member
      exact ⟨kid, same, holds.kid isKid, kids kid isKid⟩
  | step _ opened member ih =>
      obtain ⟨between, rfl, holdsBetween, settled⟩ := ih
      rw [holdsBetween.tag_eq] at opened
      obtain ⟨kid, isKid, same⟩ := holdsBetween.mem_childIds member
      exact ⟨kid, same, holdsBetween.kid isKid, settled.kids opened kid isKid⟩

/-- A node that hangs below the root of an outcome, as the branch that it stands for. -/
theorem Outcome.Settles.reached {outcome : Outcome} {events : List Event} {root : NodeId}
    (settles : outcome.Settles premise first events branch)
    (isRoot : outcome.tree.root = some root) (reaches : outcome.tree.Reaches root id) :
    ∃ inner below, below.id = id ∧ outcome.tree.Holds below ∧
      Settled premise first (outcome.moment events) inner below := by
  obtain ⟨returnType, settled⟩ := settles.settled
  rw [settles.root, Option.some.injEq] at isRoot
  subst isRoot
  exact settled.reached settles.stands.holds reaches

end Reached

end ScriptTyping
