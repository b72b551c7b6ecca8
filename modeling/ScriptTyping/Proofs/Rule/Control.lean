import ScriptTyping.Proofs.Check.Rearrange
import ScriptTyping.Proofs.Rule.Annotation
import ScriptTyping.Proofs.Rule.Stages

/-!
Sequences of statements, blocks, branches and loops. A sequence goes on with the leaf of a failed
statement in its place, and a block is closed whether or not it failed.
-/

namespace ScriptTyping

section Blocks

variable {premise : Premise} {calm : Calm} {first : Environment} {unseen less : Nat → Option Label → Prop}
  {old new : CheckState} {branch kid : Branch} {index : Nat} {failure : Failure}

theorem Open.failed (isOpen : Open premise calm first unseen old branch)
    (found : branch.kids[index]? = some kid) (breaks : Breaks calm old kid new failure)
    (fewer : ∀ position role, less position role → unseen position role)
    (seen : ¬ less index (Branch.roleAt branch.kids index)) :
    let later := { new with
      tree := new.tree.replaceAt branch.id index failure.replacement
      errors := new.errors ++ [failure.error] }
    Becomes calm old branch later (branch.setKid index (failure.leaf kid.label)) ∧
      Open premise calm first less later (branch.setKid index (failure.leaf kid.label)) := by
  intro later
  have member : kid ∈ branch.kids := List.mem_of_getElem? found
  have turns := (breaks.replaced isOpen.stands found).2
  have evolves : old.Evolves later := ⟨breaks.evolves.environment, breaks.evolves.scopes,
    breaks.evolves.errors.trans (List.prefix_append _ _), breaks.evolves.warnings,
    breaks.evolves.log⟩
  have keeps : calm.Keeps old later :=
    ⟨breaks.keeps.returns, breaks.keeps.still, breaks.keeps.spares⟩
  refine ⟨⟨turns, evolves, keeps, breaks.recorded found⟩, ?_⟩
  exact isOpen.exchange evolves turns.stands turns.size found rfl
    (settled_leaf failure kid.label (isOpen.leads.trans evolves.environment)) fewer seen

theorem Open.ofScopes (isOpen : Open premise calm first unseen old branch) {scopes : ScopeStack}
    (same : scopes.returnType? = old.scopes.returnType?) :
    Open premise calm first unseen { old with scopes := scopes } branch :=
  ⟨isOpen.stands, isOpen.later, isOpen.leads, isOpen.inside, isOpen.raw, isOpen.quiet, by
    intro kid member
    rw [same]
    exact isOpen.settled kid member⟩

/-- What a step inside a block keeps is kept when the block is closed. -/
theorem Calm.Keeps.blocked {inner : Calm} {closed : ScopeStack} (covers : calm.Covers inner)
    (keeps : inner.Keeps { old with scopes := old.scopes.beginBlock } new)
    (same : closed.returnType? = new.scopes.returnType?) :
    calm.Keeps old { new with scopes := closed } := by
  obtain ⟨returns, still, spares⟩ := keeps
  rw [ScopeStack.returnType?_beginBlock] at returns
  rw [CheckState.place_beginBlock] at spares
  refine ⟨fun isCalm => same.trans (returns (covers.returns isCalm)), fun isStill => still ?_,
    fun name spared => spares name (covers.spares _ name spared)⟩
  have mode : CheckState.mode { old with scopes := old.scopes.beginBlock } = old.mode := by
    rw [CheckState.mode, CheckState.mode, ScopeStack.inFunction_beginBlock]
  rw [mode]
  exact covers.still _ isStill

end Blocks

namespace Check

variable {α : Type} {step : Check α} {old : CheckState} {branch : Branch}
  {goal weaker : α → CheckState → Branch → Prop}

theorem run_endBlock (state : CheckState) :
    endBlock.run.run state =
      match state.scopes.endBlock with
      | .ok closed => .ok (.ok (), { state with scopes := closed })
      | .error fault => .error (.scope fault) := by
  rw [endBlock, run_bind]
  have reads : (scopes).run.run state = .ok (.ok state.scopes, state) := rfl
  rw [reads]
  dsimp only
  cases state.scopes.endBlock <;> rfl

theorem run_inBlock (step : Check α) (state : CheckState) :
    (inBlock step).run.run state =
      match step.run.run { state with scopes := state.scopes.beginBlock } with
      | .error fault => .error fault
      | .ok (result, later) =>
        match later.scopes.endBlock with
        | .ok closed => .ok (result, { later with scopes := closed })
        | .error fault => .error (.scope fault) := by
  rw [inBlock, run_bind]
  have begins : (modifyScopes (·.beginBlock)).run.run state =
      .ok (.ok (), { state with scopes := state.scopes.beginBlock }) := rfl
  rw [begins]
  simp only [run_bind, run_attempt]
  cases step.run.run { state with scopes := state.scopes.beginBlock } with
  | error fault => rfl
  | ok answer =>
      simp only [run_endBlock]
      cases answer.2.scopes.endBlock <;> rfl

/-- A step in a block of its own, which leaves nothing of the block. -/
theorem Yields.blocked {inner : Calm} (covers : calm.Covers inner)
    (yields : step.Yields inner { old with scopes := old.scopes.beginBlock } branch goal)
    (closes : ∀ result new after closed, goal result new after →
      ScopeStack.returnType? closed = new.scopes.returnType? →
      weaker result { new with scopes := closed } after) :
    (inBlock step).Yields calm old branch weaker := by
  unfold Yields at *
  rw [run_inBlock]
  split at yields
  · rename_i fault stopped
    rw [stopped]
    exact yields
  · rename_i result new ran
    rw [ran]
    obtain ⟨after, becomes, reached⟩ := yields
    obtain ⟨closed, closing, evolves, same⟩ := becomes.evolves.scopes.endBlock
    simp only [closing]
    exact ⟨after, ⟨becomes.turns, ⟨becomes.evolves.environment, evolves, becomes.evolves.errors,
      becomes.evolves.warnings, becomes.evolves.log⟩, becomes.keeps.blocked covers same,
      becomes.accounts⟩,
      closes result new after closed reached same⟩
  · rename_i failure new ran
    rw [ran]
    obtain ⟨closed, closing, evolves, same⟩ := yields.evolves.scopes.endBlock
    simp only [closing]
    exact ⟨⟨yields.evolves.environment, evolves, yields.evolves.errors, yields.evolves.warnings,
      yields.evolves.log⟩,
      yields.keeps.blocked covers same, yields.size, yields.frame, yields.root, yields.source,
      yields.fresh, yields.fatal, yields.leaf⟩

theorem Yields.inBlock {premise : Premise} {first : Environment} {inner : Calm}
    {unseen : Nat → Option Label → Prop} {step : Check Ty} (covers : calm.Covers inner)
    (isOpen : Open premise inner first unseen old branch)
    (rest : ∀ new, new.environment = old.environment → Open premise inner first unseen new branch →
      step.Yields inner new branch (Ruled premise first)) :
    (Check.inBlock step).Yields calm old branch (Ruled premise first) := by
  refine .blocked covers (rest _ rfl (isOpen.ofScopes (ScopeStack.returnType?_beginBlock _))) ?_
  intro ty new after closed ruled same
  refine ⟨?_, ruled.reported⟩
  simp only [same]
  exact ruled.settled

theorem Yields.inBlockIf {premise : Premise} {first : Environment}
    {unseen : Nat → Option Label → Prop} {step : Check Ty} (covers : calm.Covers calm)
    (wanted : Bool) (isOpen : Open premise calm first unseen old branch)
    (rest : ∀ new, Open premise calm first unseen new branch →
      step.Yields calm new branch (Ruled premise first)) :
    (Check.inBlockIf wanted step).Yields calm old branch (Ruled premise first) := by
  unfold Check.inBlockIf
  split
  · exact .inBlock covers isOpen fun new _ => rest new
  · exact rest old isOpen

end Check

namespace Rule

open Check

variable {premise : Premise} {calm : Calm} {first : Environment}
  {unseen : Nat → Option Label → Prop} {old : CheckState} {branch : Branch} {visit : Visit}
  {tag : Tag}

/-! ### Sequences -/

structure Sequenced (premise : Premise) (calm : Calm) (first : Environment) (branch : Branch)
    (index count : Nat) (new : CheckState) (after : Branch) : Prop where
  isOpen : Open premise calm first (fun position _ => index + count ≤ position) new after
  tag : after.node.tag = branch.node.tag
  others : ∀ position, position < index ∨ index + count ≤ position →
    after.kids[position]? = branch.kids[position]?
  remains : List.Forall₂ Branch.Remains after.kids branch.kids

theorem Sequenced.refl {index count : Nat} {state : CheckState}
    (isOpen : Open premise calm first (fun position _ => index + count ≤ position) state branch) :
    Sequenced premise calm first branch index count state branch :=
  ⟨isOpen, rfl, fun _ _ => rfl, Branch.forall₂_remains _⟩

/-- The statements that follow one whose node remains. -/
theorem Sequenced.cons {index count : Nat} {kid newKid after : Branch} {new : CheckState}
    (found : branch.kids[index]? = some kid) (remains : newKid.Remains kid)
    (rest : Sequenced premise calm first (branch.setKid index newKid) (index + 1) count new after) :
    Sequenced premise calm first branch index (count + 1) new after := by
  obtain ⟨isOpen, tag, others, remain⟩ := rest
  rw [Nat.add_assoc, Nat.add_comm 1] at isOpen others
  refine ⟨isOpen, tag, fun position other => ?_, ?_⟩
  · rw [others position (by omega), Branch.getElem?_setKid_ne (by omega)]
  · refine Branch.forall₂_remains_set found remains ?_ remain
    rw [others index (.inl (Nat.lt_succ_self index)), Branch.getElem?_setKid_self found]

theorem statementsFrom_yields (visits : Visits premise visit) {index : Nat}
    (isOpen : Open premise calm first (fun position _ => index ≤ position) old branch) (last : Ty)
    (count : Nat) :
    (statementsFrom visit branch.id last index count).Yields calm old branch fun _ new after =>
      Sequenced premise calm first branch index count new after := by
  induction count generalizing old branch index last with
  | zero => exact .pure isOpen.stands (.refl isOpen)
  | succ count ih =>
      refine .bindRead isOpen.stands ?_
      rw [isOpen.stands.holds.childAt?_eq]
      cases found : branch.kids[index]? with
      | none =>
          exact .pure isOpen.stands
            (.refl (isOpen.narrow fun _ _ => Nat.le_trans (Nat.le_add_right _ _)))
      | some kid =>
          have raw := isOpen.raw index kid found (Nat.le_refl index)
          have fewer : ∀ position (_ : Option Label), index + 1 ≤ position → index ≤ position :=
            fun _ _ later => Nat.le_of_succ_le later
          have stands := isOpen.stands.kid (List.mem_of_getElem? found)
          have visited := (visits old kid stands isOpen.later raw).calmer
            (isOpen.quiet index kid found (Nat.le_refl index))
          -- Either way one statement is settled and the others are as they were.
          refine .bindAttempt isOpen.stands found visited ?_ ?_
          · rintro ty new newKid becomes _ ⟨_, _, settled⟩
            exact (ih (isOpen.step found becomes (settled.earlier isOpen.leads) fewer
              (Nat.not_succ_le_self index)) ty).mono fun _ last after _ =>
                .cons found (.inr ⟨becomes.turns.id, becomes.turns.note⟩)
          · intro failure new breaks
            obtain ⟨here, _⟩ := breaks.replaced isOpen.stands found
            obtain ⟨becomes, opens⟩ :=
              isOpen.failed found breaks fewer (Nat.not_succ_le_self index)
            refine ⟨statementsFrom visit branch.id .never (index + 1) count, _, ?_, becomes,
              (ih opens .never).mono fun _ last after _ =>
                .cons found (.inl (failure.isFailed_leaf _))⟩
            simp only
            rw [run_bind, run_replace _ here]
            rfl

theorem statements_yields (visits : Visits premise visit)
    (isOpen : Open premise calm first (Unseen []) old branch) :
    (statements visit branch.id).Yields calm old branch fun _ new after =>
      Open premise calm first (fun _ _ => False) new after ∧
        after.node.tag = branch.node.tag ∧
        List.Forall₂ Branch.Remains after.kids branch.kids := by
  refine .bindRead isOpen.stands ?_
  rw [isOpen.stands.holds.childIds_eq, List.length_map]
  refine (statementsFrom_yields visits
    (isOpen.narrow fun _ _ _ _ member => absurd member List.not_mem_nil) _ _).mono ?_
  rintro _ new after _ sequenced
  exact ⟨sequenced.isOpen.narrow fun _ _ none => none.elim, sequenced.tag, sequenced.remains⟩

/-- What is left of a sequence once all statements were visited. -/
theorem recovered {after : Branch} {new : CheckState} {ty : Ty} (raw : Raw premise branch)
    (isSequence : branch.node.tag.isSequence = true)
    (opens : Open premise calm first unseen new after) (sameTag : after.node.tag = branch.node.tag)
    (sameId : after.id = branch.id) (remains : List.Forall₂ Branch.Remains after.kids branch.kids) :
    Ruled premise first ty new after := by
  have recovers : (after.typed ty).Recovers premise :=
    raw.recovers isSequence sameTag sameId remains
  refine opens.close ?_
  have isTag : (after.typed ty).node.tag = branch.node.tag := sameTag
  unfold Branch.Facts
  generalize branch.node.tag = tag at isTag isSequence
  cases tag <;> first | (simp [Tag.isSequence] at isSequence; done) | (simp only [isTag]; exact recovers)

theorem statementList_yields (visits : Visits premise visit)
    (isOpen : Open premise calm first (Unseen []) old branch) (raw : Raw premise branch)
    (isSequence : branch.node.tag.isSequence = true) :
    (statementList visit branch.id).Yields calm old branch (Ruled premise first) := by
  refine (statements_yields visits isOpen).bind ?_
  rintro ty new after becomes ⟨opens, sameTag, remains⟩
  exact .pure opens.stands (recovered raw isSequence opens sameTag becomes.turns.id remains)

theorem source_yields (visits : Visits premise visit)
    (isOpen : Open premise calm first (Unseen []) old branch) (raw : Raw premise branch)
    (isSequence : branch.node.tag.isSequence = true) :
    (statements visit branch.id).Yields calm old branch (Ruled premise first) := by
  refine (statements_yields visits isOpen).mono ?_
  rintro ty new after becomes ⟨opens, sameTag, remains⟩
  exact recovered raw isSequence opens sameTag becomes.turns.id remains

theorem block_yields (visits : Visits premise visit) (covers : calm.Covers calm)
    (isOpen : Open premise calm first (Unseen []) old branch) (raw : Raw premise branch)
    (isSequence : branch.node.tag.isSequence = true) :
    (block visit branch.id).Yields calm old branch (Ruled premise first) :=
  .bindRead isOpen.stands (.inBlockIf covers _ isOpen fun _ opens =>
    statementList_yields visits opens raw isSequence)

/-! ### Branches -/

section Branches

variable {seen : List Label}

structure Passed (premise : Premise) (calm : Calm) (first : Environment)
    (less : Nat → Option Label → Prop) (branch : Branch) (label : Label) (new : CheckState)
    (after : Branch) : Prop where
  alike : branch.Alike after
  isOpen : Open premise calm first less new after
  others : ∀ {wanted position kid}, label ≠ wanted → branch.Kid wanted position kid →
    after.Kid wanted position kid
  first? : ∀ wanted, label ≠ wanted → after.first? wanted = branch.first? wanted

theorem Passed.ofKid {less : Nat → Option Label → Prop} {label : Label} {index : Nat}
    {kid newKid : Branch} {new : CheckState} (isKid : branch.Kid label index kid)
    (labels : newKid.label = kid.label)
    (opens : Open premise calm first less new (branch.setKid index newKid)) :
    Passed premise calm first less branch label new (branch.setKid index newKid) :=
  ⟨.setKid isKid.found labels, opens, fun different isOther =>
    isOther.setKid_other isKid.found labels (isKid.ne isOther different),
    fun _ different => Branch.first?_setKid_other isKid labels different⟩

/-- Truth values under other labels stay. -/
theorem Passed.tests {less : Nat → Option Label → Prop} {label : Label} {labels : List Label}
    {new : CheckState} {after : Branch} (passed : Passed premise calm first less branch label new after)
    (tests : branch.Tests labels) (other : label ∉ labels) : after.Tests labels :=
  tests.congr fun wanted member => passed.first? wanted fun same => other (same ▸ member)

theorem optional_yields (visits : Visits premise visit)
    (isOpen : Open premise calm first (Unseen seen) old branch) {label : Label}
    (isNew : label ∉ seen) :
    (optional visit branch.id label).Yields calm old branch fun _ new after =>
      Passed premise calm first (Unseen (label :: seen)) branch label new after := by
  refine .bindRead isOpen.stands ?_
  rw [isOpen.stands.holds.child?_eq]
  cases found : branch.first? label with
  | none =>
      exact .pure isOpen.stands ⟨.refl isOpen.stands, isOpen.narrow fun _ _ => unseen_cons,
        fun _ isOther => isOther, fun _ _ => rfl⟩
  | some kid =>
      obtain ⟨index, isKid⟩ := Branch.first?_eq_some_iff.mp found
      refine .bindVisitKid visits isOpen isKid isNew ?_
      intro ty new newKid becomes _ opens
      exact .pure opens.stands (.ofKid isKid becomes.turns.label opens)

/-- The body of a loop, where nothing else is left to be visited. -/
theorem soleBody_yields (visits : Visits premise visit)
    (isOpen : Open premise calm first (fun _ role => role = some .body) old branch) :
    (body visit branch.id).Yields calm old branch fun ty new after => ty = .void ∧
      Passed premise calm first (fun _ _ => False) branch .body new after := by
  refine .bindRequired isOpen.stands ?_
  intro index kid isKid
  refine .bindVisit visits isOpen isKid.found (Branch.roleAt_eq_some_iff.mpr isKid.first)
    (fun _ _ (none : False) => none.elim) id ?_
  intro ty new newKid becomes _ opens
  exact .pure opens.stands ⟨rfl, .ofKid isKid becomes.turns.label opens⟩

theorem body_yields (visits : Visits premise visit)
    (isOpen : Open premise calm first (Unseen seen) old branch) (isNew : Label.body ∉ seen) :
    (body visit branch.id).Yields calm old branch fun ty new after => ty = .void ∧
      Passed premise calm first (fun _ _ => False) branch .body new after := by
  refine soleBody_yields visits (isOpen.narrow ?_)
  rintro _ _ rfl wanted isSeen same
  exact isNew (Option.some.inj same ▸ isSeen)

theorem ifStmt_yields (visits : Visits premise visit)
    (isOpen : Open premise calm first (Unseen []) old branch) (isTag : branch.node.tag = .ifStmt) :
    (ifStmt visit branch.id).Yields calm old branch (Ruled premise first) := by
  refine (enforce_yields visits isOpen (by decide) .bool).bind ?_
  rintro _ new between _ ⟨index, condition, newCondition, _, enforced⟩
  obtain rfl := enforced.changed
  have opens := enforced.isOpen
  refine .bindRequired opens.stands ?_
  intro place thenKid isThen
  refine .bindVisitKid visits opens isThen (by decide) ?_
  intro ty later laterKid becomes _ opensLater
  have passed := Passed.ofKid isThen becomes.turns.label opensLater
  refine (optional_yields visits opensLater (by decide)).bind ?_
  intro _ last after _ passedLast
  refine .pure passedLast.isOpen.stands (passedLast.isOpen.close ?_)
  unfold Branch.Facts
  simp only [Branch.typed, Branch.node_alter, passedLast.alike.tag, Branch.tag_setKid, isTag]
  exact passedLast.tests (passed.tests enforced.test (by decide)) (by decide)

theorem conditional_yields (visits : Visits premise visit)
    (isOpen : Open premise calm first (Unseen []) old branch)
    (isTag : branch.node.tag = .conditional) :
    (conditional visit branch.id).Yields calm old branch (Ruled premise first) := by
  refine (enforce_yields visits isOpen (by decide) .bool).bind ?_
  rintro _ new between _ ⟨index, condition, newCondition, _, enforced⟩
  obtain rfl := enforced.changed
  have opens := enforced.isOpen
  refine .bindRequired opens.stands ?_
  intro place thenKid isThen
  refine .bindVisitKid visits opens isThen (by decide) ?_
  intro thenTy later laterKid becomesThen typedThen opensThen
  have isThenNew := isThen.setKid_self becomesThen.turns.label
  have tests := (Passed.ofKid isThen becomesThen.turns.label opensThen).tests enforced.test
    (by decide)
  refine .bindRequiredSlot opensThen.stands ?_
  intro elsePlace elseKid isElse
  refine .bindOccupant opensThen.stands isElse.found ?_
  refine .bindVisitKid visits opensThen isElse (by decide) ?_
  intro elseTy last lastKid becomes typed opensElse
  -- Whatever comes into the place of the other alternative, the first one stays as it is.
  have closes : ∀ final other, other.label = elseKid.label → other.Suits thenTy →
      Open premise calm first (Unseen [.elseBranch, .thenBranch, .cond]) final
        (((branch.setKid index newCondition).setKid place laterKid).setKid elsePlace other) →
      Ruled premise first thenTy final
        (((branch.setKid index newCondition).setKid place laterKid).setKid elsePlace other) := by
    intro final other labels suits opensFinal
    have passed := Passed.ofKid isElse labels opensFinal
    refine opensFinal.close ?_
    unfold Branch.Facts
    simp only [Branch.typed, Branch.node_alter, Branch.tag_setKid, isTag]
    refine ⟨passed.tests tests (by decide), thenTy, laterKid, other, rfl, ?_, typedThen,
      (isElse.setKid_self labels).first?, suits⟩
    exact (passed.first? .thenBranch (by decide)).trans isThenNew.first?
  split
  · rename_i same
    exact .pure opensElse.stands (closes last lastKid becomes.turns.label
      ⟨elseTy, typed, .inl (BEq.symm same)⟩ opensElse)
  · have isElseLast := isElse.setKid_self becomes.turns.label
    refine (coerce_yields opensElse isElseLast.found (not_unseen_cons isElseLast) typed thenTy).bind ?_
    rintro _ final afterFinal _ ⟨other, _, coerced⟩
    obtain rfl := coerced.changed
    have opensFinal := coerced.isOpen
    rw [Branch.setKid_setKid] at opensFinal ⊢
    exact .pure opensFinal.stands (closes final other (coerced.label.trans becomes.turns.label)
      coerced.suits opensFinal)

/-! ### Assertions -/

theorem assertionMessage_yields (stands : old.tree.Stands branch) (condition : NodeId) :
    (assertionMessage condition).Yields calm old branch fun _ new after =>
      new = old ∧ after = branch ∧ True := by
  refine .bindRead stands ?_
  split
  · exact .pure stands ⟨rfl, rfl, trivial⟩
  · exact .pure stands ⟨rfl, rfl, trivial⟩
  · exact .stop trivial

/-- An assertion whose condition and message have their types is bound to its function. -/
theorem assertionBound_yields {unseen : Nat → Option Label → Prop}
    (isOpen : Open premise calm first unseen old branch) (isTag : branch.node.tag = .assertion)
    {condition message : Branch} (isCondition : branch.first? .cond = some condition)
    (isMessage : branch.first? .msg = some message) (isBool : condition.Suits .bool)
    (isString : message.Suits .string) :
    (bindStatic branch.id RuntimeMember.assertion >>= fun _ => pure Ty.void).Yields calm old branch
      (Ruled premise first) := by
  refine .bindModify isOpen rfl rfl (isOpen.inside.calling (by rw [isTag]; rfl) _ _ _) ?_
  intro new opens _ _
  refine .pure opens.stands (opens.close ?_)
  have facts : ((branch.alter fun node =>
      { node with binding := .static RuntimeMember.assertion }).typed .void).arguments =
        [condition, message] := by
    simp only [Branch.arguments, Branch.typed, Branch.node_alter, isTag]
    show [Label.cond, .msg].filterMap branch.first? = _
    simp only [List.filterMap_cons, isCondition, isMessage, List.filterMap_nil]
  unfold Branch.Facts
  simp only [Branch.typed, Branch.node_alter, isTag]
  exact ⟨trivial, trivial, condition, message, facts, isBool, isString⟩

theorem supplyMessage_yields {condition : Branch} {index : Nat}
    (isOpen : Open premise calm first (Unseen [.cond]) old branch)
    (isTag : branch.node.tag = .assertion) (isCondition : branch.Kid .cond index condition)
    (isBool : condition.Suits .bool) (text : String) :
    (supplyMessage branch.id condition.id text).Yields calm old branch (Ruled premise first) := by
  refine .bindRead isOpen.stands ?_
  let node := constantText (old.tree.span condition.id) text
  let message : Branch := .mk (some .msg) (old.tree.alloc node).1 node []
  have settled : Settled premise first old.moment old.scopes.returnType? message :=
    .checked isOpen.leads .refl (.ofFree rfl) (.ofOther rfl) nofun (fun _ => rfl)
      fun inner member => by simp [message] at member
  have fresh : ∀ position ∈ message.ids, old.tree.nodes.size ≤ position := by
    intro position inside
    rw [Branch.ids_eq] at inside
    simp only [message, Branch.id_mk, Branch.kids_mk, List.flatMap_nil, List.mem_singleton] at inside
    exact Nat.le_of_eq inside.symm
  -- All other children are dropped, which is sound as a branch that was not visited has no notes.
  have picked : Parts premise first old old.tree branch [condition] :=
    (Parts.ofOpen isOpen).pick _ (List.nodup_singleton index) (.cons isCondition.found .nil)
      (isOpen.others_silent (.cons ⟨_, isCondition⟩ .nil))
  have parts := picked.push (old.tree.alloc_adds node) (old.tree.stands_alloc rfl (some .msg)) fresh
    settled ((Branch.notes_eq message).trans (by rfl))
  let change (node : Node) : Node := { node with
    children := [(Label.cond, condition.id), (.msg, message.id)].map fun pair =>
      ⟨some pair.1, pair.2⟩ }
  have children : (change branch.node).children = [condition, message].map Branch.child := by
    simp only [change, List.map_cons, List.map_nil, Branch.child, isCondition.label, message,
      Branch.label_mk]
  obtain ⟨becomes, opens⟩ := isOpen.rearranged parts _ children rfl
    (isOpen.inside.alike rfl rfl) (fun _ _ => False) fun _ _ _ none => none.elim
  have first?_cond : (Branch.mk branch.label branch.id (change branch.node)
      [condition, message]).first? .cond = some condition := by
    simp [Branch.first?, isCondition.label]
  have first?_msg : (Branch.mk branch.label branch.id (change branch.node)
      [condition, message]).first? .msg = some message := by
    simp [Branch.first?, isCondition.label, message]
  have isString : message.Suits .string := ⟨.string, rfl, .inl BEq.rfl⟩
  refine .ofRest ?_ becomes
    (assertionBound_yields opens isTag first?_cond first?_msg isBool isString)
  rfl

theorem assertion_yields (visits : Visits premise visit)
    (isOpen : Open premise calm first (Unseen []) old branch)
    (isTag : branch.node.tag = .assertion) :
    (assertion visit branch.id).Yields calm old branch (Ruled premise first) := by
  refine (enforce_yields visits isOpen (by decide) .bool).bind ?_
  rintro _ new _ _ ⟨index, kid, condition, rfl, ⟨isKid, label, isBool, rfl, opens⟩⟩
  have isCondition := isKid.setKid_self label
  refine .bindRead opens.stands ?_
  simp only
  split
  · refine (enforce_yields visits opens (by decide) .string).bind ?_
    rintro _ later _ _ ⟨place, other, message, rfl, ⟨isOther, otherLabel, isString, rfl, opensLater⟩⟩
    have different := isOther.ne isCondition (by decide)
    have isConditionLater := isCondition.setKid_other isOther.found otherLabel different
    exact assertionBound_yields opensLater isTag isConditionLater.first?
      (isOther.setKid_self otherLabel).first? isBool isString
  · refine .bindSame (assertionMessage_yields opens.stands _) ?_
    intro text _
    exact supplyMessage_yields opens isTag isCondition isBool text

/-! ### Loops -/

theorem whileLoop_yields (visits : Visits premise visit)
    (isOpen : Open premise calm first (Unseen []) old branch)
    (isTag : branch.node.tag = .whileLoop) :
    (whileLoop visit branch.id).Yields calm old branch (Ruled premise first) := by
  refine (enforce_yields visits isOpen (by decide) .bool).bind ?_
  rintro _ new between _ ⟨index, condition, newCondition, _, enforced⟩
  obtain rfl := enforced.changed
  refine (body_yields visits enforced.isOpen (by decide)).mono ?_
  rintro _ later after _ ⟨rfl, passed⟩
  refine passed.isOpen.close ?_
  unfold Branch.Facts
  simp only [Branch.typed, Branch.node_alter, passed.alike.tag, Branch.tag_setKid, isTag]
  exact passed.tests enforced.test (by decide)

/-- What is left of a loop once its condition was checked, if it has one. -/
theorem loopSteps_yields {seen : List Label} (visits : Visits premise visit)
    (isOpen : Open premise calm first (Unseen seen) old branch)
    (isTag : branch.node.tag = .forLoop) (noIter : Label.iter ∉ seen) (noBody : Label.body ∉ seen)
    (guarded : branch.first? .cond = none ∨ branch.Tests [.cond]) :
    (loopSteps visit branch.id).Yields calm old branch (Ruled premise first) := by
  refine (optional_yields visits isOpen noIter).bind ?_
  intro _ new after _ passed
  rw [← passed.alike.id]
  refine (body_yields visits passed.isOpen (by simp [noBody])).mono ?_
  rintro _ later afterLater _ ⟨rfl, passedBody⟩
  refine passedBody.isOpen.close ?_
  have isTagLater := passedBody.alike.tag.trans (passed.alike.tag.trans isTag)
  unfold Branch.Facts
  simp only [Branch.typed, Branch.node_alter, isTagLater]
  refine guarded.imp (fun absent => ?_) fun tests =>
    passedBody.tests (passed.tests tests (by decide)) (by decide)
  exact (passedBody.first? .cond (by decide)).trans ((passed.first? .cond (by decide)).trans absent)

theorem loopOnward_yields (visits : Visits premise visit)
    (isOpen : Open premise calm first (Unseen [.init]) old branch)
    (isTag : branch.node.tag = .forLoop) :
    (loopOnward visit branch.id).Yields calm old branch (Ruled premise first) := by
  refine .bindRead isOpen.stands ?_
  split
  · refine (enforce_yields visits isOpen (by decide) .bool).bind ?_
    rintro _ new after _ ⟨index, condition, newCondition, _, enforced⟩
    obtain rfl := enforced.changed
    exact loopSteps_yields visits enforced.isOpen isTag (by decide) (by decide)
      (.inr enforced.test)
  · rename_i absent
    refine loopSteps_yields visits isOpen isTag (by decide) (by decide) (.inl ?_)
    rw [isOpen.stands.holds.has_eq] at absent
    exact Option.not_isSome_iff_eq_none.mp absent

theorem forLoop_yields (visits : Visits premise visit) (covers : calm.Covers calm)
    (isOpen : Open premise calm first (Unseen []) old branch) (isTag : branch.node.tag = .forLoop) :
    (forLoop visit branch.id).Yields calm old branch (Ruled premise first) := by
  rw [forLoop_eq]
  refine .bindRead isOpen.stands (.inBlockIf covers _ isOpen ?_)
  intro entered opensEntered
  refine (optional_yields visits opensEntered (by decide)).bind ?_
  intro _ new after _ passed
  rw [← passed.alike.id]
  exact loopOnward_yields visits passed.isOpen (passed.alike.tag.trans isTag)

def Silent (environment : Environment) (binding : Binding) : Prop :=
  ∀ hint member typeArgs, binding = .invoke hint (.member member) typeArgs →
    member < environment.registry.members.size ∧
      (environment.registry.member member).isDispatcher = false

theorem elementType_yields {unseen : Nat → Option Label → Prop}
    (isOpen : Open premise calm first unseen old branch) (isTag : branch.node.tag = .forEach)
    (unbound : branch.node.binding = .unbound) (iterated : Ty) :
    (elementType branch.id iterated).Yields calm old branch fun _ new after =>
      Open premise calm first unseen new after ∧ after.id = branch.id ∧
        after.node.tag = branch.node.tag ∧ after.kids = branch.kids ∧
        Silent new.environment after.node.binding := by
  unfold elementType
  split
  · exact .pure isOpen.stands ⟨isOpen, rfl, rfl, rfl, fun _ _ _ bound => by simp [unbound] at bound⟩
  · refine .bindRead isOpen.stands ?_
    simp only
    split
    · rename_i resolution found
      have isMethod := (Environment.resolve_attempted (Option.filter_eq_some_iff.mp found).1).1
      refine .bindModify isOpen rfl rfl (isOpen.inside.calling (by rw [isTag]; rfl) _ _ _) ?_
      intro new opens environment _
      refine .pure opens.stands ⟨opens, rfl, rfl, rfl, fun hint member typeArgs bound => ?_⟩
      simp only [Branch.node_alter, Binding.invoke.injEq, InvokeTarget.member.injEq] at bound
      rw [← bound.2.1, environment]
      refine ⟨Environment.lt_of_mem_members isMethod, ?_⟩
      simp [Member.isDispatcher, Environment.name_of_mem_members isMethod]
    · exact .reject isOpen.stands _ _ _

theorem loopVariable_yields (stands : old.tree.Stands branch) (iterated : NodeId)
    (written : Option Ty) (element : Ty) :
    (loopVariable iterated written element).Yields calm old branch fun _ new after =>
      new = old ∧ after = branch ∧ True := by
  unfold loopVariable
  split
  · exact .pure stands ⟨rfl, rfl, trivial⟩
  · refine .bindRead stands ?_
    split
    · exact .pure stands ⟨rfl, rfl, trivial⟩
    · exact .failAt stands _ rfl

/-- The body of a loop over elements is checked in a block of its own. -/
theorem loopBody_yields {unseen : Nat → Option Label → Prop} (visits : Visits premise visit)
    (isOpen : Open premise calm first unseen old branch) (isTag : branch.node.tag = .forEach)
    (silent : Silent old.environment branch.node.binding)
    (raws : ∀ index kid, branch.Kid .body index kid → Raw premise kid)
    (covers : ∀ index kid, branch.Kid .body index kid → calm.Covers kid.stored.calm)
    (name : String) (ty : Ty) :
    (Check.inBlock do
      modifyScopes (·.declare name ty)
      body visit branch.id).Yields calm old branch (Ruled premise first) := by
  let inner : Calm := {
    returns := ∀ index kid, branch.Kid .body index kid → kid.stored.calm.returns
    still := fun mode => ∀ index kid, branch.Kid .body index kid → kid.stored.calm.still mode
    spares := fun place name =>
      ∀ index kid, branch.Kid .body index kid → kid.stored.calm.spares place name }
  have coversInner : calm.Covers inner :=
    ⟨fun isCalm index kid isBody => (covers index kid isBody).returns isCalm,
      fun mode isStill index kid isBody => (covers index kid isBody).still mode isStill,
      fun place name spared index kid isBody => (covers index kid isBody).spares place name spared⟩
  have opensInner : Open premise inner first (fun _ role => role = some .body) old branch := by
    refine ⟨isOpen.stands, isOpen.later, isOpen.leads, isOpen.inside, ?_, ?_, isOpen.settled⟩
    · intro index kid found isRole
      exact raws index kid ⟨Branch.roleAt_eq_some_iff.mp isRole, found⟩
    · intro index kid found isRole
      have isBody : branch.Kid .body index kid := ⟨Branch.roleAt_eq_some_iff.mp isRole, found⟩
      exact ⟨fun isCalm => isCalm index kid isBody, fun mode isStill => isStill index kid isBody,
        fun place name spared => spared index kid isBody⟩
  refine .inBlock coversInner opensInner ?_
  intro entered sameEnvironment opensEntered
  refine .bindState opensEntered rfl (.ofScopes (ScopeStack.declare_evolves _ _ _))
    (.same rfl (ScopeStack.returnType?_declare _ _ _)) rfl ?_
  intro opensBody
  refine (soleBody_yields visits opensBody).mono ?_
  rintro _ new after becomes ⟨rfl, passed⟩
  refine passed.isOpen.close ?_
  unfold Branch.Facts
  simp only [Branch.typed, Branch.node_alter, passed.alike.tag, isTag]
  intro hint member typeArgs bound
  have binding : after.node.binding = branch.node.binding := by
    rw [passed.alike.changed]
    rfl
  obtain ⟨registered, isSilent⟩ := silent hint member typeArgs (binding.symm.trans bound)
  rw [← sameEnvironment] at registered isSilent
  refine .found (.inl ?_)
  rw [becomes.evolves.environment.grows.registry.member_eq registered]
  exact isSilent

/-- A loop over elements whose written type, if it has one, is known. -/
theorem loopOver_yields (visits : Visits premise visit)
    (isOpen : Open premise calm first (fun _ role => role = some .name ∨ role = some .iter) old
      branch)
    (isTag : branch.node.tag = .forEach) (unbound : branch.node.binding = .unbound)
    (aside : ∀ index kid, branch.Kid .name index kid → premise.aside kid.node.tag)
    (raws : ∀ index kid, branch.Kid .body index kid → Raw premise kid)
    (covers : ∀ index kid, branch.Kid .body index kid → calm.Covers kid.stored.calm)
    (written : Option Ty) :
    (loopOver visit branch.id written).Yields calm old branch (Ruled premise first) := by
  refine .bindRequired isOpen.stands ?_
  intro index kid isKid
  refine .bindRead isOpen.stands (.bindRequired isOpen.stands ?_)
  intro place iterated isIterated
  have raw := isOpen.raw index kid isKid.found (.inl (Branch.roleAt_eq_some_iff.mpr isKid.first))
  refine .bindVisit visits isOpen isIterated.found
    (.inr (Branch.roleAt_eq_some_iff.mpr isIterated.first)) (fun _ _ => .inl) ?_ ?_
  · rw [Branch.roleAt_eq_some_iff.mpr isIterated.first]
    simp
  intro iteratedTy new newKid becomes _ opens
  have isKidNew := isKid.setKid_other isIterated.found becomes.turns.label
    (isIterated.ne isKid (by decide))
  refine (elementType_yields opens isTag unbound iteratedTy).bind ?_
  rintro element later after _ ⟨opensLater, sameId, sameTag, sameKids, silent⟩
  have isKidLater : after.Kid .name index kid :=
    ⟨by rw [sameKids]; exact isKidNew.first, by rw [sameKids]; exact isKidNew.found⟩
  refine .bindSame (loopVariable_yields opensLater.stands iterated.id written element) ?_
  intro ty _
  have stands := opensLater.stands.kid isKidLater.mem
  obtain ⟨becomesLast, opensLast⟩ := opensLater.changeKid isKidLater.found (.alter stands rfl rfl)
    (Branch.notes_alter rfl)
    (raw.typed (aside index kid isKid) ty) (fun _ _ (none : False) => none.elim) id
  refine .bindRun rfl becomesLast ?_
  have sameLabel : (kid.typed ty).label = kid.label := rfl
  have bodies : ∀ spot inner, (after.setKid index (kid.typed ty)).Kid .body spot inner →
      branch.Kid .body spot inner := by
    intro spot inner isInner
    obtain ⟨isFirst, isFound⟩ := isInner.of_setKid isKidLater sameLabel (by decide)
    rw [sameKids] at isFirst isFound
    exact Branch.Kid.of_setKid ⟨isFirst, isFound⟩ isIterated becomes.turns.label (by decide)
  have goal := loopBody_yields visits opensLast (sameTag.trans isTag) silent
    (fun spot inner isInner => raws spot inner (bodies spot inner isInner))
    (fun spot inner isInner => covers spot inner (bodies spot inner isInner))
    (old.tree.text kid.id) ty
  rw [Branch.id_setKid, sameId] at goal
  exact goal

theorem forEach_yields (visits : Visits premise visit)
    (isOpen : Open premise calm first (fun _ role => role = some .name ∨ role = some .iter) old
      branch)
    (isTag : branch.node.tag = .forEach) (unbound : branch.node.binding = .unbound)
    (aside : ∀ index kid, branch.Kid .name index kid → premise.aside kid.node.tag)
    (raws : ∀ index kid, branch.Kid .body index kid → Raw premise kid)
    (covers : ∀ index kid, branch.Kid .body index kid → calm.Covers kid.stored.calm) :
    (forEach visit branch.id).Yields calm old branch (Ruled premise first) := by
  have rest := loopOver_yields visits isOpen isTag unbound aside raws covers
  refine .bindRead isOpen.stands ?_
  simp only
  split
  · refine .bindSame (denotation_yields isOpen.stands _) ?_
    intro ty _
    exact .bindRun rfl (.refl isOpen.stands) (rest (some ty))
  · exact .bindRun rfl (.refl isOpen.stands) (rest none)

end Branches

end Rule

end ScriptTyping
