import ScriptTyping.Proofs.Rule.Assignment
import ScriptTyping.Proofs.Rule.Cast
import ScriptTyping.Proofs.Rule.Collection
import ScriptTyping.Proofs.Rule.Constant
import ScriptTyping.Proofs.Rule.Control
import ScriptTyping.Proofs.Rule.Function
import ScriptTyping.Proofs.Rule.Invocation
import ScriptTyping.Proofs.Rule.Operator

/-!
The visit of a raw branch, by induction on the depth, and what checking a stored tree leaves.
-/

namespace ScriptTyping

/-- A child that its parent lists among the nodes that get a type without a visit. -/
theorem Premise.Allows.asideKid {premise : Premise} {branch kid : Branch} {label : Label}
    {index : Nat} (allows : premise.Allows branch.stored)
    (lists : (branch.stored.first? label).toList ⊆ branch.stored.asides)
    (isKid : branch.Kid label index kid) : premise.aside kid.node.tag := by
  rw [← Branch.tag_stored]
  refine allows.aside kid.stored (lists ?_)
  rw [isKid.first?_stored]
  exact List.mem_singleton_self _

/-- The only child that gets a type without a visit. -/
theorem Premise.Allows.asideSole {premise : Premise} {branch : Branch} {label : Label}
    (allows : premise.Allows branch.stored)
    (sole : branch.stored.asides = (branch.stored.first? label).toList) (index : Nat) (kid : Branch)
    (isKid : branch.Kid label index kid) : premise.aside kid.node.tag :=
  allows.asideKid (sole ▸ List.Subset.refl _) isKid

/-- The name and the annotation of a variable get their types without a visit. -/
theorem Premise.Allows.asideVariable {premise : Premise} {branch : Branch}
    (allows : premise.Allows branch.stored) (isTag : branch.node.tag = .varDecl) {label : Label}
    (isLabel : label ∈ [Label.name, .type]) (index : Nat) (kid : Branch)
    (isKid : branch.Kid label index kid) : premise.aside kid.node.tag := by
  refine allows.asideKid ?_ isKid
  intro child member
  rw [StoredNode.asides, Branch.tag_stored, isTag]
  exact List.mem_filterMap.mpr ⟨label, isLabel, Option.mem_toList.mp member⟩

/-- An assignment has no child under `expr` before it is checked. -/
theorem Premise.Allows.noExpr {premise : Premise} {branch : Branch}
    (allows : premise.Allows branch.stored)
    (known : branch.node.tag.storeLabels? = some [.left, .right]) (tidy : premise.tidy) :
    branch.first? .expr = none := by
  have absent : branch.stored.first? .expr = none :=
    (allows.tidy tidy).absent (by simpa using known) (by decide)
  simpa [Branch.first?_stored] using absent

/-- A node for a failed statement is only there before its visit if the tree may have such nodes. -/
theorem Raw.ruledError {premise : Premise} {state : CheckState} {branch : Branch}
    (raw : Raw premise branch) (isError : branch.node.tag = .error) (ty : Ty) :
    Ruled premise state.environment ty state branch := by
  have facts : (branch.typed ty).Facts premise state.environment state.errors
      state.scopes.returnType? := by
    unfold Branch.Facts
    simp only [Branch.typed, Branch.node_alter, isError]
    refine ⟨raw.blank.binding_eq, fun clean => ?_⟩
    exact absurd (by rw [Branch.tag_stored, isError]) (raw.top.clean clean)
  let event : Event := .typed branch.id state.environment
  have noted : state.moment.Leads (state.noted event).moment :=
    (CheckState.Evolves.noted state event).moment
  exact ⟨.checked .refl noted facts (raw.applies.alike rfl rfl)
    (fun _ => Log.holds_note state.log event) (fun _ => rfl) fun kid member =>
      (raw.kid member).settled, fun isList => by simp [isError] at isList⟩

namespace Rule

open Check

variable {premise : Premise} {calm : Calm} {first : Environment} {old : CheckState}
  {branch : Branch} {visit : Visit} {tag : Tag}

theorem expression_yields (visits : Visits premise visit)
    (isOpen : Open premise calm first (Unseen []) old branch) (isTag : branch.node.tag = tag)
    (free : tag.isFree = true) :
    (requiredOrFirst branch.id .expr >>= visit).Yields calm old branch (Ruled premise first) := by
  refine .bindRequiredOrFirst isOpen.stands ?_
  intro index kid found
  have isUnseen : Unseen [] index (Branch.roleAt branch.kids index) :=
    fun _ none => absurd none List.not_mem_nil
  have nothing : ∀ position role, False → Unseen [] position role :=
    fun _ _ none => none.elim
  refine (child_yields visits isOpen found isUnseen nothing id).mono ?_
  rintro ty new _ _ ⟨newKid, _, _, _, rfl, opens⟩
  exact opens.closeFree isTag free

theorem loop_yields (visits : Visits premise visit) (stands : old.tree.Stands branch)
    (later : premise.loaded.nodes.size ≤ old.tree.nodes.size) (raw : Raw premise branch)
    (isTag : branch.node.tag = .forEach)
    (quiet : ∀ kid ∈ branch.kids, kid.label ≠ some .body → calm.Implies kid.stored.calm)
    (covers : ∀ kid ∈ branch.kids, kid.label = some .body → calm.Covers kid.stored.calm) :
    (forEach visit branch.id).Yields calm old branch (Ruled premise old.environment) := by
  refine forEach_yields visits (.start stands later raw (by simp [isTag]) (by simp [isTag]) ?_) isTag
    raw.blank.binding_eq
    (raw.top.asideSole (by simp only [StoredNode.asides, Branch.tag_stored, isTag]))
    (fun _ _ isBody => raw.kid isBody.mem)
    fun index kid isBody => covers kid isBody.mem isBody.label
  intro index kid found isRole
  refine quiet kid (List.mem_of_getElem? found) fun isBody => ?_
  rcases isRole with isName | isIter
  · have isKid : branch.Kid .name index kid := ⟨Branch.roleAt_eq_some_iff.mp isName, found⟩
    simp [isKid.label] at isBody
  · have isKid : branch.Kid .iter index kid := ⟨Branch.roleAt_eq_some_iff.mp isIter, found⟩
    simp [isKid.label] at isBody

/-- What the rule for the kind of a node does, where that is neither a function nor a loop over
elements. -/
theorem inside_yields (visits : Visits premise visit)
    (isOpen : Open premise calm old.environment (Unseen []) old branch) (raw : Raw premise branch)
    (unlooped : branch.node.tag ≠ .forEach) (covers : calm.Covers calm)
    (loud : branch.node.tag = .returnStmt → ¬ calm.returns)
    (declares : ∀ mode, calm.still mode → branch.node.tag.declares mode = false)
    (exposed : ∀ place name, calm.spares place name → branch.stored.exposed? place ≠ some name) :
    (ofTag visit branch.id branch.node.tag).Yields calm old branch
      (Ruled premise old.environment) := by
  have stands := isOpen.stands
  have plain : ∀ {tag}, branch.node.tag = tag → tag = .upCast ∨ tag = .downCast →
      ¬ premise.plain := by
    rintro tag isTag conversion plain
    obtain ⟨notUp, notDown⟩ := raw.top.plain plain
    rw [Branch.tag_stored, isTag] at notUp notDown
    exact conversion.elim notUp notDown
  cases isTag : branch.node.tag with
  | source => exact source_yields visits isOpen raw (by simp [isTag, Tag.isSequence])
  | statementList => exact statementList_yields visits isOpen raw (by simp [isTag, Tag.isSequence])
  | block => exact block_yields visits covers isOpen raw (by simp [isTag, Tag.isSequence])
  | importDecl =>
      refine importDecl_yields isOpen isTag rfl fun mode isStill => ?_
      simpa [isTag, Tag.declares] using declares mode isStill
  | funcDecl => exact absurd isTag isOpen.inside.opened
  | returnStmt => exact returnStmt_yields visits isOpen isTag (loud isTag) raw.top
  | varDecl =>
      have asides := @Premise.Allows.asideVariable _ _ raw.top isTag
      refine varDecl_yields visits isOpen isTag raw.top (asides (by decide)) (asides (by decide)) ?_
        exposed
      intro mode isStill
      simpa [isTag, Tag.declares] using declares mode isStill
  | assign =>
      refine assign_yields visits isOpen isTag raw.blank.binding_eq (raw.top.noExpr (isTag ▸ rfl)) ?_
        (fun place name isImplicit spared => ?_) (raw.aims (by simp [isTag]))
      · intro mode isStill
        simpa only [isTag, Tag.declares] using declares mode isStill
      · simpa only [StoredNode.exposed?, Branch.tag_stored, isTag, isImplicit, if_true] using
          exposed place name spared
  | compound op =>
      refine compoundAssign_yields visits isOpen raw.blank.binding_eq
        (raw.top.noExpr (isTag ▸ rfl)) ?_ (fun place name isImplicit spared => ?_)
        (raw.aims (by simp [isTag])) op
      · intro mode isStill
        simpa only [isTag, Tag.declares] using declares mode isStill
      · simpa only [StoredNode.exposed?, Branch.tag_stored, isTag, isImplicit, if_true] using
          exposed place name spared
  | expression => exact expression_yields visits isOpen isTag rfl
  | assertion => exact assertion_yields visits isOpen isTag
  | ifStmt => exact ifStmt_yields visits isOpen isTag
  | conditional => exact conditional_yields visits isOpen isTag
  | whileLoop => exact whileLoop_yields visits isOpen isTag
  | forLoop => exact forLoop_yields visits covers isOpen isTag
  | forEach => exact absurd isTag unlooped
  | name => exact name_yields isOpen isTag raw.blank.binding_eq
  | cast =>
      exact cast_yields visits isOpen isTag raw.blank.binding_eq
        (raw.top.asideSole (by simp only [StoredNode.asides, Branch.tag_stored, isTag]))
  | field => exact field_yields visits isOpen isTag
  | indexer => exact indexer_yields visits isOpen isTag (raw.indexes isTag)
  | apply => exact apply_yields visits isOpen isTag
  | methodApply => exact methodApply_yields visits isOpen isTag
  | new =>
      exact construct_yields visits isOpen isTag
        (raw.top.asideSole (by simp only [StoredNode.asides, Branch.tag_stored, isTag]))
  | array => exact array_yields visits isOpen isTag
  | set => exact set_yields visits isOpen isTag
  | dict => exact dict_yields visits isOpen isTag
  | interpolation => exact interpolation_yields visits isOpen isTag
  | conjunction => exact connective_yields visits isOpen (.inl isTag)
  | disjunction => exact connective_yields visits isOpen (.inr isTag)
  | negation => exact negation_yields visits isOpen isTag
  | instanceOf =>
      exact instanceOf_yields visits isOpen isTag rfl
        (raw.top.asideSole (by simp only [StoredNode.asides, Branch.tag_stored, isTag]))
  | binary op => exact binary_yields visits isOpen isTag
  | unary op => exact unary_yields visits isOpen isTag
  | error => exact absurd isTag isOpen.inside.sound
  | nullValue | continueStmt | breakStmt =>
      exact .pure stands (isOpen.closeFree isTag rfl)
  | trueValue | falseValue => exact setConst_yields isOpen isTag rfl _ _
  | integer => exact number_yields isOpen isTag rfl 0 Literal.integer .int .int
  | long => exact number_yields isOpen isTag rfl 0 Literal.long .long .long
  | float | double =>
      have yields := number_yields isOpen isTag rfl .zero Literal.double .double .double
      exact yields
  | text | string => exact .bindRead stands (setConst_yields isOpen isTag rfl _ _)
  | character => exact character_yields isOpen isTag rfl
  | param | type => exact unsupported_yields isOpen fun _ _ => .ofFree (isTag ▸ rfl)
  | list =>
      refine unsupported_yields isOpen fun errors isLoud => ?_
      unfold Branch.Facts
      simp only [Branch.typed, Branch.node_alter, isTag]
      exact ⟨trivial, isLoud⟩
  | upCast | downCast =>
      refine unsupported_yields isOpen fun _ _ => ?_
      unfold Branch.Facts
      simp only [Branch.typed, Branch.node_alter, isTag]
      exact fun isPlain => absurd isPlain (plain isTag (by simp))

/-- What the rule for the kind of a node that was not visited does. Functions and loops over elements
check their bodies in scopes of their own, which is why they are set apart. -/
theorem ofTag_yields (visits : Visits premise visit) (stands : old.tree.Stands branch)
    (later : premise.loaded.nodes.size ≤ old.tree.nodes.size) (raw : Raw premise branch) :
    (ofTag visit branch.id branch.node.tag).Yields branch.stored.calm old branch
      (Ruled premise old.environment) := by
  have declares : ∀ mode, branch.stored.calm.still mode →
      branch.node.tag.declares mode = false :=
    fun mode isStill => ((branch.still_iff mode).mp isStill).1
  have exposed : ∀ place name, branch.stored.calm.spares place name →
      branch.stored.exposed? place ≠ some name :=
    fun place name spared => ((branch.spares_iff place name).mp spared).1
  by_cases isFunction : branch.node.tag = .funcDecl
  · rw [isFunction]
    have loud : ∀ mode, ¬ branch.stored.calm.still mode := by
      intro mode isStill
      simpa [isFunction, Tag.declares] using declares mode isStill
    refine funcDecl_yields visits stands later raw isFunction (fun index body isBody => ?_) loud
      exposed
    exact ⟨fun mode isStill => absurd isStill (loud mode),
      Branch.calm_function isFunction isBody.mem⟩
  by_cases isLoop : branch.node.tag = .forEach
  · rw [isLoop]
    exact loop_yields visits stands later raw isLoop
      (fun kid member other => Branch.calm_kid isFunction (.inr other) member)
      fun kid member isBody => Branch.calm_loop isLoop isBody member
  by_cases isError : branch.node.tag = .error
  · rw [isError]
    exact .pure stands (raw.ruledError isError _)
  have isOpen : Open premise branch.stored.calm old.environment (Unseen []) old branch :=
    .start stands later raw isFunction isError fun _ _ found _ =>
      Branch.calm_kid isFunction (.inl isLoop) (List.mem_of_getElem? found)
  refine inside_yields visits isOpen raw isLoop branch.calm_covers ?_ declares exposed
  intro isReturn isCalm
  rw [StoredNode.calm, branch.canReturn_iff.mpr (.inl isReturn)] at isCalm
  simp at isCalm

end Rule

namespace Check

variable {premise : Premise} {old : CheckState} {branch : Branch}

/-- A visit of any depth gives a raw branch a type and settles it. -/
theorem visit_yields (depth : Nat) : Visits premise (visit depth) := by
  induction depth with
  | zero => exact fun old branch _ _ _ => .stop trivial
  | succ depth ih =>
      intro old branch stands later raw
      refine .bindRead stands ?_
      rw [stands.holds.get_eq, if_neg (by simp [raw.blank.done_eq])]
      refine (Rule.ofTag_yields ih stands later raw).bind ?_
      intro ty new after becomes ruled
      have turns : new.tree.Turns after (new.tree.setType branch.id ty) (after.typed ty) := by
        rw [← becomes.turns.id]
        exact .alter becomes.stands rfl rfl
      let event : Event := .typed branch.id new.environment
      refine .bindRun rfl (.ofTree turns (Branch.notes_alter rfl)) ?_
      refine .bindRun rfl (.noted turns.stands event) (.pure turns.stands ⟨rfl, ruled.reported, ?_⟩)
      have settled := ruled.settled
      rw [becomes.turns.id] at settled
      exact settled

end Check

end ScriptTyping
