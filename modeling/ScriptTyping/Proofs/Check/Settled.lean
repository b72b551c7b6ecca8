import ScriptTyping.Proofs.Check.Facts

/-!
What checking leaves of a branch. A node that was not visited is bound to nothing; one that was
visited has what its rule ensures, in some environment between the first and the last. Inside a
function this also depends on the return type.
-/

namespace ScriptTyping

/-- Whether every node of a branch is idle or has what its rule ensures. -/
inductive Settled (premise : Premise) (first : Environment) (last : Moment) :
    Option Ty → Branch → Prop where
  | idle {returnType : Option Ty} {branch : Branch} : branch.Idle premise →
      (∀ kid ∈ branch.kids, Settled premise first last returnType kid) →
      Settled premise first last returnType branch
  | checked {returnType inner : Option Ty} {branch : Branch} {moment : Moment} :
      first.Leads moment.environment → moment.Leads last →
      branch.Facts premise moment.environment moment.errors inner → branch.node.Applies →
      (branch.node.isDated = true → last.log.Holds (.typed branch.id moment.environment)) →
      (branch.node.tag ≠ .funcDecl → inner = returnType) →
      (∀ kid ∈ branch.kids, Settled premise first last inner kid) →
      Settled premise first last returnType branch

section Settled

variable {premise : Premise} {first : Environment} {last later : Moment}
  {returnType laterType : Option Ty} {branch kid : Branch}

theorem Settled.mono (settled : Settled premise first last returnType branch)
    (grows : last.Leads later) (fixed : ∀ ty, returnType = some ty → laterType = some ty) :
    Settled premise first later laterType branch := by
  induction settled generalizing laterType with
  | idle idle _ ih => exact .idle idle fun kid member => ih kid member fixed
  | @checked returnType inner branch _ before after facts applies dated same kids ih =>
      have datedLater := fun isDated => (dated isDated).mono grows.log
      by_cases isFunction : branch.node.tag = .funcDecl
      · refine .checked before (after.trans grows) facts applies datedLater
          (fun opened => absurd isFunction opened) ?_
        exact fun kid member => ih kid member fun _ known => known
      · have inner_eq := same isFunction
        subst inner_eq
        refine .checked before (after.trans grows) (facts.mono isFunction fixed) applies
          datedLater (fun _ => rfl) ?_
        exact fun kid member => ih kid member fixed

/-- What is bound to a call as an indexer, or as an assignment to one, is a call of a member of its
receiver, or of the runtime on a dynamic receiver. -/
theorem Settled.calledOn {hook : MemberId} {more : Nat}
    (settled : Settled premise first last returnType branch)
    (hooks : branch.node.tag.Hooks hook more) (called : branch.node.binding.isCall = true)
    (other : branch.node.tag = .assign →
      branch.node.binding ≠ .static RuntimeMember.fieldSetter) :
    branch.Indexed premise hook more := by
  cases settled with
  | idle idle _ => simp [idle.unbound, Binding.isCall] at called
  | checked _ _ facts =>
      unfold Branch.Facts at facts
      generalize isTag : branch.node.tag = tag at hooks facts other
      cases hooks with
      | get => exact facts.2.2 called
      | set => exact facts.2.2.2 called (other rfl)

theorem Settled.earlier {start : Environment}
    (settled : Settled premise first last returnType branch) (leads : start.Leads first) :
    Settled premise start last returnType branch := by
  induction settled with
  | idle idle _ ih => exact .idle idle ih
  | checked before after facts applies dated same _ ih =>
      exact .checked (leads.trans before) after facts applies dated same ih

/-- A sequence recovers if its children are those that it had while it was raw, but for those that
failed. -/
theorem Raw.recovers {after : Branch} (raw : Raw premise branch)
    (isSequence : branch.node.tag.isSequence = true) (tag : after.node.tag = branch.node.tag)
    (id : after.id = branch.id)
    (kids : List.Forall₂ Branch.Remains after.kids branch.kids) : after.Recovers premise := by
  have top := raw.top.known (by rw [Branch.tag_stored]; exact isSequence)
  rw [Branch.tag_stored, Branch.children_stored] at top
  have isPacked : branch.kids.map Branch.id = _ := raw.placed.top isSequence
  have places : List.Forall₂ (fun kid id => kid.IsFailed ∨ kid.id = id) after.kids
      (branch.kids.map Branch.id) := by
    rw [List.forall₂_map_right_iff]
    exact kids.imp fun kid old same => same.imp_right And.left
  refine ⟨⟨_, by rw [tag]; exact top, ?_, ?_⟩, fun isOld => ?_⟩
  · rw [List.forall₂_map_right_iff]
    refine kids.imp fun kid old same => same.imp_right fun same => ?_
    rw [Branch.note_stored, same.2]
  · rw [id, ← isPacked]
    exact places
  · rw [id] at isOld ⊢
    rw [(raw.placed.holds isOld).childIds_eq]
    exact places

/-- A branch that was not visited is idle, also with a type if it may get one. -/
theorem Raw.idle {after : Branch} (raw : Raw premise branch)
    (tag : after.node.tag = branch.node.tag) (binding : after.node.binding = branch.node.binding)
    (id : after.id = branch.id)
    (aside : after.node.ty.isSome = true → premise.aside branch.node.tag)
    (kids : branch.node.tag.isSequence = true →
      List.Forall₂ Branch.Remains after.kids branch.kids) :
    after.Idle premise := by
  have isTag := branch.tag_stored
  refine ⟨binding.trans raw.blank.binding_eq, fun plain => ?_, ?_, fun clean => ?_,
    fun isSequence => ?_⟩
  · rw [tag, ← isTag]
    exact raw.top.plain plain
  · rw [tag]
    exact aside
  · rw [tag, ← isTag]
    exact raw.top.clean clean
  · rw [tag] at isSequence
    exact raw.recovers isSequence tag id (kids isSequence)

theorem Raw.untyped (raw : Raw premise branch) {motive : Prop} :
    branch.node.ty.isSome = true → motive := by
  rw [raw.blank.ty_eq]
  intro typed
  simp at typed

theorem Raw.settled (raw : Raw premise branch) :
    Settled premise first last returnType branch := by
  induction branch using Branch.induction with
  | mk branch ih =>
      exact .idle (raw.idle rfl rfl rfl raw.untyped fun _ => Branch.forall₂_remains _)
        fun kid member => ih kid member (raw.kid member)

/-- A branch that was not visited itself, with other children. -/
theorem Raw.withKids {kids : List Branch} (raw : Raw premise branch)
    (other : branch.node.tag.isSequence = false)
    (settled : ∀ kid ∈ kids, Settled premise first last returnType kid) :
    Settled premise first last returnType (branch.withKids kids) :=
  .idle (raw.idle rfl rfl rfl raw.untyped fun isSequence => by simp [other] at isSequence) settled

theorem Settled.under (settled : Settled premise first last returnType branch)
    (label : Option Label) : Settled premise first last returnType (branch.under label) := by
  cases settled with
  | idle idle kids =>
      exact .idle ⟨idle.unbound, idle.plain, idle.aside, idle.clean, idle.recovers⟩ kids
  | checked before after facts applies dated same kids =>
      exact .checked before after (facts.under label) applies dated same kids

end Settled

end ScriptTyping
