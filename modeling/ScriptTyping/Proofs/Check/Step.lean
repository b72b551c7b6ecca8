import ScriptTyping.Proofs.Check.Notes
import ScriptTyping.Proofs.Check.State
import ScriptTyping.Proofs.Syntax.Load

/-!
What a step of checking does to the branch that it works on, and how the steps of a rule combine. A
step that succeeds leaves another branch in the same place, one that fails leaves a new leaf for the
error, and neither touches the rest of the arena.
-/

namespace ScriptTyping

namespace Branch

theorem canReturn_iff (branch : Branch) : branch.stored.canReturn = true ↔
    branch.node.tag = .returnStmt ∨
      branch.node.tag ≠ .funcDecl ∧ ∃ kid ∈ branch.kids, kid.stored.canReturn = true := by
  rw [StoredNode.canReturn_iff, tag_stored, children_stored]
  simp only [List.mem_map, exists_exists_and_eq_and]

theorem canReturn_of_kid {branch kid : Branch} (opened : branch.node.tag ≠ .funcDecl)
    (member : kid ∈ branch.kids) (returns : kid.stored.canReturn = true) :
    branch.stored.canReturn = true :=
  branch.canReturn_iff.mpr (.inr ⟨opened, kid, member, returns⟩)

theorem canReturn_under (branch : Branch) (label : Option Label) :
    (branch.under label).stored.canReturn = branch.stored.canReturn := by
  rw [Bool.eq_iff_iff, canReturn_iff, canReturn_iff]
  rfl

theorem mayDeclare_iff (branch : Branch) (mode : Mode) : branch.stored.mayDeclare mode = true ↔
    branch.node.tag.declares mode = true ∨
      ∃ kid ∈ branch.kids, kid.stored.mayDeclare mode = true := by
  rw [StoredNode.mayDeclare_iff, tag_stored, children_stored]
  simp only [List.mem_map, exists_exists_and_eq_and]

theorem still_iff (branch : Branch) (mode : Mode) : branch.stored.calm.still mode ↔
    branch.node.tag.declares mode = false ∧ ∀ kid ∈ branch.kids, kid.stored.calm.still mode := by
  simp only [StoredNode.calm, ← Bool.not_eq_true]
  rw [mayDeclare_iff]
  simp only [not_or, not_exists, not_and]

theorem exposes_iff (branch : Branch) (place : Place) (name : String) :
    branch.stored.exposes place name = true ↔ branch.stored.exposed? place = some name ∨
      ∃ kid ∈ branch.kids,
        kid.stored.exposes (place.under branch.node.tag kid.label) name = true := by
  rw [StoredNode.exposes_iff, tag_stored, children_stored]
  simp only [List.mem_map, exists_exists_and_eq_and, label_stored]

theorem spares_iff (branch : Branch) (place : Place) (name : String) :
    branch.stored.calm.spares place name ↔ branch.stored.exposed? place ≠ some name ∧
      ∀ kid ∈ branch.kids,
        kid.stored.calm.spares (place.under branch.node.tag kid.label) name := by
  simp only [StoredNode.calm, ← Bool.not_eq_true]
  rw [exposes_iff]
  simp only [not_or, not_exists, not_and, ne_eq]

section Kids

variable {branch kid : Branch}

theorem calm_returns_kid (opened : branch.node.tag ≠ .funcDecl) (member : kid ∈ branch.kids)
    (isCalm : branch.stored.calm.returns) : kid.stored.calm.returns := by
  simp only [StoredNode.calm, ← Bool.not_eq_true] at isCalm ⊢
  exact fun returns => isCalm (canReturn_of_kid opened member returns)

theorem calm_kid (opened : branch.node.tag ≠ .funcDecl)
    (shared : branch.node.tag ≠ .forEach ∨ kid.label ≠ some .body) (member : kid ∈ branch.kids) :
    branch.stored.calm.Implies kid.stored.calm := by
  refine ⟨calm_returns_kid opened member,
    fun mode isStill => ((branch.still_iff mode).mp isStill).2 kid member, ?_⟩
  intro place name spared
  have inside := ((branch.spares_iff place name).mp spared).2 kid member
  rwa [Place.under_of_ne place opened shared] at inside

/-- The body of a loop over elements is in a block of its own. -/
theorem calm_loop (isLoop : branch.node.tag = .forEach) (isBody : kid.label = some .body)
    (member : kid ∈ branch.kids) : branch.stored.calm.Covers kid.stored.calm := by
  refine ⟨calm_returns_kid (by simp [isLoop]) member,
    fun mode isStill => ((branch.still_iff mode).mp isStill).2 kid member, ?_⟩
  intro place name spared
  have inside := ((branch.spares_iff place name).mp spared).2 kid member
  rwa [isLoop, isBody] at inside

theorem calm_function (isFunction : branch.node.tag = .funcDecl) (member : kid ∈ branch.kids) :
    ∀ place name, branch.stored.calm.spares place name →
      kid.stored.calm.spares place.enter name := by
  intro place name spared
  have inside := ((branch.spares_iff place name).mp spared).2 kid member
  rwa [isFunction] at inside

end Kids

/-- What a branch spares outside a block it spares inside. -/
theorem calm_covers (branch : Branch) : branch.stored.calm.Covers branch.stored.calm := by
  refine ⟨fun isCalm => isCalm, fun _ isStill => isStill, fun place name spared => ?_⟩
  simp only [StoredNode.calm, ← Bool.not_eq_true] at spared ⊢
  exact fun exposed => spared (StoredNode.exposes_of_cover _ exposed)

theorem exposed?_under (branch : Branch) (label : Option Label) (place : Place) :
    (branch.under label).stored.exposed? place = branch.stored.exposed? place := by
  cases branch
  rfl

theorem calm_under (branch : Branch) (label : Option Label) :
    (branch.under label).stored.calm = branch.stored.calm := by
  have same : ∀ mode, (branch.under label).stored.mayDeclare mode =
      branch.stored.mayDeclare mode := by
    intro mode
    rw [Bool.eq_iff_iff, mayDeclare_iff, mayDeclare_iff]
    rfl
  have alike : ∀ place name, (branch.under label).stored.exposes place name =
      branch.stored.exposes place name := by
    intro place name
    rw [Bool.eq_iff_iff, exposes_iff, exposes_iff, exposed?_under]
    rfl
  simp only [StoredNode.calm, canReturn_under, same, alike]

end Branch

/-- Whether a step that succeeds turns one branch into another. -/
structure Becomes (calm : Calm) (old : CheckState) (before : Branch) (new : CheckState)
    (after : Branch) : Prop where
  turns : old.tree.Turns before new.tree after
  evolves : old.Evolves new
  keeps : calm.Keeps old new
  accounts : Accounts old.errors new.errors before.notes after.notes

def Failure.leaf (failure : Failure) (label : Option Label) : Branch :=
  .mk label failure.replacement {
    tag := .error
    span := failure.error.span
    text := some failure.error.message
    ty := some .never
    done := true } []

theorem Failure.notes_leaf (failure : Failure) (label : Option Label) :
    (failure.leaf label).notes = {failure.error.note} := by
  rw [Branch.notes_eq, leaf, Branch.kids_mk, Branch.notesAll, add_zero]
  rfl

/-- Whether a step fails inside a branch. -/
structure Breaks (calm : Calm) (old : CheckState) (before : Branch) (new : CheckState)
    (failure : Failure) : Prop where
  evolves : old.Evolves new
  keeps : calm.Keeps old new
  size : old.tree.nodes.size ≤ new.tree.nodes.size
  frame : ∀ position, position < old.tree.nodes.size → position ∉ before.ids →
    new.tree.get position = old.tree.get position
  root : new.tree.root = old.tree.root
  source : new.tree.source = old.tree.source
  fresh : old.tree.nodes.size ≤ failure.replacement
  fatal : failure.error.cause.isFatal = true
  leaf : ∀ label, new.tree.Stands (failure.leaf label)

def Fault.Allowed : Fault → Prop
  | .tooDeep => True
  | .columnOverflow => True
  | _ => False

section Becomes

variable {calm quiet : Calm} {old middle new : CheckState}
  {before between after branch inner newInner : Branch} {failure : Failure} {index : Nat}

theorem Becomes.refl (stands : old.tree.Stands branch) : Becomes calm old branch old branch :=
  ⟨.refl stands, .refl old, .refl old, .same rfl rfl⟩

theorem Becomes.trans (first : Becomes calm old before middle between)
    (second : Becomes calm middle between new after) : Becomes calm old before new after :=
  ⟨first.turns.trans second.turns, first.evolves.trans second.evolves,
    first.keeps.trans second.keeps first.evolves, first.accounts.trans second.accounts⟩

theorem Becomes.breaks (first : Becomes calm old before middle between)
    (second : Breaks calm middle between new failure) : Breaks calm old before new failure := by
  refine ⟨first.evolves.trans second.evolves, first.keeps.trans second.keeps first.evolves,
    Nat.le_trans first.turns.size second.size, ?_, second.root.trans first.turns.root,
    second.source.trans first.turns.source, Nat.le_trans first.turns.size second.fresh, second.fatal,
    second.leaf⟩
  intro position bound outside
  have outsideBetween : position ∉ between.ids := by
    intro inside
    rcases first.turns.fresh position inside with inBefore | later
    · exact outside inBefore
    · exact Nat.not_lt.mpr later bound
  rw [second.frame position (Nat.lt_of_lt_of_le bound first.turns.size) outsideBetween,
    first.turns.frame position bound outside]

theorem Becomes.ofTree {tree : Tree} (turns : old.tree.Turns before tree after)
    (notes : after.notes = before.notes) :
    Becomes calm old before { old with tree := tree } after :=
  ⟨turns, .ofTree old tree, .same rfl rfl, .same rfl notes⟩

theorem Becomes.ofState (stands : old.tree.Stands branch) (tree : new.tree = old.tree)
    (evolves : old.Evolves new) (keeps : calm.Keeps old new)
    (accounts : Accounts old.errors new.errors branch.notes branch.notes) :
    Becomes calm old branch new branch :=
  ⟨by rw [tree]; exact .refl stands, evolves, keeps, accounts⟩

theorem Becomes.noted (stands : old.tree.Stands branch) (event : Event) :
    Becomes calm old branch (old.noted event) branch :=
  .ofState stands rfl (.noted old event) (.same rfl rfl) (.same rfl rfl)

theorem Becomes.stands (becomes : Becomes calm old before new after) : new.tree.Stands after :=
  becomes.turns.stands

theorem Becomes.calmer (becomes : Becomes calm old before new after)
    (stronger : quiet.Implies calm) : Becomes quiet old before new after :=
  ⟨becomes.turns, becomes.evolves, becomes.keeps.weaken stronger, becomes.accounts⟩

theorem Breaks.calmer (breaks : Breaks calm old before new failure)
    (stronger : quiet.Implies calm) : Breaks quiet old before new failure :=
  ⟨breaks.evolves, breaks.keeps.weaken stronger, breaks.size, breaks.frame, breaks.root,
    breaks.source, breaks.fresh, breaks.fatal, breaks.leaf⟩

theorem Becomes.inside (stands : old.tree.Stands branch) (found : branch.kids[index]? = some inner)
    (becomes : Becomes calm old inner new newInner) :
    Becomes calm old branch new (branch.setKid index newInner) := by
  obtain ⟨rest, isBefore, isAfter⟩ := Branch.notes_setKid found
  refine ⟨.inside stands found becomes.turns, becomes.evolves, becomes.keeps, ?_⟩
  rw [isBefore, isAfter]
  exact becomes.accounts.frame rest

theorem Breaks.inside (found : branch.kids[index]? = some inner)
    (breaks : Breaks calm old inner new failure) : Breaks calm old branch new failure := by
  refine ⟨breaks.evolves, breaks.keeps, breaks.size, ?_, breaks.root, breaks.source, breaks.fresh,
    breaks.fatal, breaks.leaf⟩
  intro position bound outside
  refine breaks.frame position bound fun inside => ?_
  exact outside (Branch.ids_subset (List.mem_of_getElem? found) inside)

end Becomes

/-! ### Steps -/

namespace Check

variable {α β : Type}

/-- Whether a step on a branch leads to another branch and a result with some property, or fails
inside the branch. -/
def Yields (step : Check α) (calm : Calm) (old : CheckState) (before : Branch)
    (post : α → CheckState → Branch → Prop) : Prop :=
  match step.run.run old with
  | .error fault => fault.Allowed
  | .ok (.ok result, new) => ∃ after, Becomes calm old before new after ∧ post result new after
  | .ok (.error failure, new) => Breaks calm old before new failure

theorem run_bind (step : Check α) (next : α → Check β) (state : CheckState) :
    (step >>= next).run.run state =
      match step.run.run state with
      | .error fault => .error fault
      | .ok (.ok result, later) => (next result).run.run later
      | .ok (.error failure, later) => .ok (.error failure, later) := by
  unfold ExceptT.run StateT.run
  simp only [bind, ExceptT.bind, ExceptT.mk, StateT.bind, ExceptT.bindCont]
  cases step state with
  | error fault => rfl
  | ok answer =>
      obtain ⟨result, later⟩ := answer
      cases result <;> rfl

theorem exists_of_run_bind {step : Check α} {next : α → Check β} {old new : CheckState} {last : β}
    (ran : (step >>= next).run.run old = .ok (.ok last, new)) :
    ∃ result later, step.run.run old = .ok (.ok result, later) ∧
      (next result).run.run later = .ok (.ok last, new) := by
  rw [run_bind] at ran
  split at ran
  · cases ran
  · exact ⟨_, _, ‹_›, ran⟩
  · cases ran

theorem run_build (change : Tree → α × Tree) (state : CheckState) :
    (build change).run.run state =
      .ok (.ok (change state.tree).1, { state with tree := (change state.tree).2 }) := rfl

theorem run_environment (state : CheckState) :
    (environment).run.run state = .ok (.ok state.environment, state) := rfl

theorem run_textOf (id : NodeId) (state : CheckState) :
    (textOf id).run.run state = .ok (.ok (state.tree.text id), state) := rfl

theorem run_attempt (step : Check α) (state : CheckState) :
    (attempt step).run.run state =
      match step.run.run state with
      | .error fault => .error fault
      | .ok (result, later) => .ok (.ok result, later) := by
  unfold attempt ExceptT.run StateT.run
  simp only [ExceptT.mk, Bind.bind, Except.bind]
  cases step state <;> rfl

section Yields

variable {calm quiet : Calm} {step : Check α} {next : α → Check β} {old new : CheckState}
  {before after inner : Branch} {between goal : α → CheckState → Branch → Prop}
  {post : β → CheckState → Branch → Prop}
  {result : α} {failure : Failure} {index : Nat}

theorem Yields.ofRun (run : step.run.run old = .ok (.ok result, new))
    (becomes : Becomes calm old before new after) (reached : goal result new after) :
    step.Yields calm old before goal := by
  unfold Yields
  rw [run]
  exact ⟨after, becomes, reached⟩

theorem Yields.ok (yields : step.Yields calm old before goal)
    (run : step.run.run old = .ok (.ok result, new)) :
    ∃ after, Becomes calm old before new after ∧ goal result new after := by
  unfold Yields at yields
  rw [run] at yields
  exact yields

theorem Yields.error (yields : step.Yields calm old before goal)
    (run : step.run.run old = .ok (.error failure, new)) : Breaks calm old before new failure := by
  unfold Yields at yields
  rw [run] at yields
  exact yields

theorem Yields.pure (stands : old.tree.Stands before) (reached : goal result old before) :
    Yields (Pure.pure result) calm old before goal :=
  .ofRun rfl (.refl stands) reached

theorem Yields.mono {weaker : α → CheckState → Branch → Prop}
    (yields : step.Yields calm old before goal)
    (weakens : ∀ result new after, Becomes calm old before new after → goal result new after →
      weaker result new after) : step.Yields calm old before weaker := by
  unfold Yields at *
  split at yields
  · exact yields
  · obtain ⟨after, becomes, reached⟩ := yields
    exact ⟨after, becomes, weakens _ _ after becomes reached⟩
  · exact yields

theorem Yields.ofRest {rest : Check α} {later : CheckState}
    (same : step.run.run old = rest.run.run later) (becomes : Becomes calm old before later after)
    (yields : rest.Yields calm later after goal) : step.Yields calm old before goal := by
  unfold Yields at *
  rw [same]
  split at yields
  · exact yields
  · obtain ⟨last, onward, reached⟩ := yields
    exact ⟨last, becomes.trans onward, reached⟩
  · exact becomes.breaks yields

theorem Yields.bindRun (run : step.run.run old = .ok (.ok result, new))
    (becomes : Becomes calm old before new after) (rest : (next result).Yields calm new after post) :
    (step >>= next).Yields calm old before post :=
  .ofRest (by rw [run_bind, run]) becomes rest

theorem Yields.bind (first : step.Yields calm old before between)
    (rest : ∀ result new after, Becomes calm old before new after → between result new after →
      (next result).Yields calm new after post) : (step >>= next).Yields calm old before post := by
  unfold Yields at first
  split at first
  · rename_i stopped
    unfold Yields
    rw [run_bind, stopped]
    exact first
  · rename_i ran
    obtain ⟨after, becomes, reached⟩ := first
    exact .bindRun ran becomes (rest _ _ after becomes reached)
  · rename_i failed
    unfold Yields
    rw [run_bind, failed]
    exact first

theorem Yields.bindSame {found : α → Prop}
    (first : step.Yields calm old before fun result new after =>
      new = old ∧ after = before ∧ found result)
    (rest : ∀ result, found result → (next result).Yields calm old before post) :
    (step >>= next).Yields calm old before post := by
  refine first.bind ?_
  rintro result _ _ _ ⟨rfl, rfl, isFound⟩
  exact rest result isFound

theorem Yields.bindRead {view : CheckView → α} (stands : old.tree.Stands before)
    (rest : (next (view old.toCheckView)).Yields calm old before post) :
    (read view >>= next).Yields calm old before post :=
  .bindRun rfl (.refl stands) rest

theorem Yields.calmer (yields : step.Yields calm old before goal)
    (stronger : quiet.Implies calm) : step.Yields quiet old before goal := by
  unfold Yields at *
  split at yields
  · exact yields
  · obtain ⟨after, becomes, reached⟩ := yields
    exact ⟨after, becomes.calmer stronger, reached⟩
  · exact yields.calmer stronger

theorem Yields.inside (stands : old.tree.Stands before) (found : before.kids[index]? = some inner)
    (yields : step.Yields calm old inner goal) :
    step.Yields calm old before fun result new after =>
      ∃ newInner, Becomes calm old inner new newInner ∧ goal result new newInner ∧
        after = before.setKid index newInner := by
  unfold Yields at *
  split at yields
  · exact yields
  · obtain ⟨newInner, becomes, reached⟩ := yields
    exact ⟨before.setKid index newInner, becomes.inside stands found, newInner, becomes, reached, rfl⟩
  · exact yields.inside found

/-- Going on after a child, failed or not. The error has to be put into the place of the child. -/
theorem Yields.bindAttempt {next : Except Failure α → Check β} (stands : old.tree.Stands before)
    (found : before.kids[index]? = some inner)
    (first : step.Yields calm old inner between)
    (succeeds : ∀ result new newInner, Becomes calm old inner new newInner →
      Becomes calm old before new (before.setKid index newInner) → between result new newInner →
      (next (.ok result)).Yields calm new (before.setKid index newInner) post)
    (fails : ∀ failure new, Breaks calm old inner new failure →
      ∃ (rest : Check β) (later : CheckState), (next (.error failure)).run.run new = rest.run.run later ∧
        Becomes calm old before later (before.setKid index (failure.leaf inner.label)) ∧
        rest.Yields calm later (before.setKid index (failure.leaf inner.label)) post) :
    (attempt step >>= next).Yields calm old before post := by
  have attempted := run_attempt step old
  unfold Yields at first
  split at first
  · rename_i stopped
    unfold Yields
    rw [run_bind, attempted, stopped]
    exact first
  · rename_i ran
    rw [ran] at attempted
    obtain ⟨newInner, becomes, reached⟩ := first
    have outer := becomes.inside stands found
    exact .bindRun attempted outer (succeeds _ _ newInner becomes outer reached)
  · rename_i failed
    rw [failed] at attempted
    obtain ⟨rest, later, same, becomes, yields⟩ := fails _ _ first
    refine .ofRest ?_ becomes yields
    rw [run_bind, attempted]
    exact same

/-! ### Failing -/

theorem Breaks.ofError {calm : Calm} (old : CheckState) (before : Branch) {error : CheckError}
    (fatal : error.cause.isFatal = true) :
    Breaks calm old before
      ({ old with tree := (Failure.ofError old.tree error).2 }.noted (.raised (.error error)))
      (Failure.ofError old.tree error).1 := by
  refine ⟨(CheckState.Evolves.ofTree old _).trans (.noted _ _), .same rfl rfl, ?_, ?_, rfl, rfl, ?_,
    fatal, ?_⟩
  · exact (old.tree.alloc_adds _).size
  · intro position bound _
    exact (old.tree.alloc_adds _).get position bound
  · exact Nat.le_refl old.tree.nodes.size
  · intro label
    exact old.tree.stands_alloc rfl label

theorem Yields.fail {error : CheckError} (fatal : error.cause.isFatal = true) :
    (Check.fail error : Check α).Yields calm old before goal :=
  Breaks.ofError old before fatal

theorem Yields.failAt (stands : old.tree.Stands before) (id : NodeId) {cause : ErrorCause}
    (fatal : cause.isFatal = true) :
    (Check.failAt id cause : Check α).Yields calm old before goal :=
  .bindRead stands (.fail fatal)

end Yields

end Check

end ScriptTyping
