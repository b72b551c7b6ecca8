import ScriptTyping.Proofs.Check.Lists

/-!
What a rule ensures of the branch that it checks, and the steps of rules that change the top node or
what is around the tree.
-/

namespace ScriptTyping

def Tag.isFree : Tag → Bool
  | binary _ => false
  | unary _ => false
  | assertion => false
  | apply => false
  | methodApply => false
  | indexer => false
  | assign => false
  | new => false
  | upCast => false
  | downCast => false
  | cast => false
  | returnStmt => false
  | funcDecl => false
  | name => false
  | field => false
  | interpolation => false
  | forEach => false
  | list => false
  | source => false
  | statementList => false
  | block => false
  | error => false
  | array => false
  | set => false
  | dict => false
  | conditional => false
  | conjunction => false
  | disjunction => false
  | negation => false
  | ifStmt => false
  | whileLoop => false
  | forLoop => false
  | _ => true

namespace Branch

theorem Facts.ofFree {premise : Premise} {environment : Environment} {errors : List CheckError}
    {returnType : Option Ty} {branch : Branch} (free : branch.node.tag.isFree = true) :
    branch.Facts premise environment errors returnType := by
  unfold Facts
  split <;> simp_all [Tag.isFree]

theorem CallsSelf.ofOther {returnType : Option Ty} {branch : Branch}
    (other : ∀ hint name typeArgs, branch.node.binding ≠ .invoke hint (.selfCall name) typeArgs) :
    branch.CallsSelf returnType :=
  fun hint name typeArgs bound => absurd bound (other hint name typeArgs)

theorem Calls.ofResult {environment : Environment} {hints : List Hint} {branch : Branch}
    {hint : Hint} {resolution : Resolution}
    (bound : branch.node.binding = .invoke hint (.member resolution.member) resolution.typeArgs)
    (result : branch.HasResult environment resolution) : branch.Calls environment hints := by
  intro otherHint member typeArgs isBound _
  rw [bound, Binding.invoke.injEq, InvokeTarget.member.injEq] at isBound
  exact ⟨resolution, isBound.2.1, result⟩

def typed (branch : Branch) (ty : Ty) : Branch := branch.alter fun node => { node with ty := some ty }

theorem Calls.ofUnbound {environment : Environment} {hints : List Hint} {branch : Branch}
    (unbound : ∀ hint member typeArgs,
      branch.node.binding = .invoke hint (.member member) typeArgs → hint ∉ hints) :
    branch.Calls environment hints :=
  fun hint member typeArgs bound isHint => absurd isHint (unbound hint member typeArgs bound)

theorem Calls.ofStatic {environment : Environment} {hints : List Hint} {branch : Branch}
    {member : MemberId} (bound : branch.node.binding = .static member)
    (other : Hint.staticInvocation ∉ hints) : branch.Calls environment hints := by
  refine .ofUnbound fun hint found typeArgs isBound => ?_
  rw [bound, Binding.static, Binding.invoke.injEq] at isBound
  rw [← isBound.1]
  exact other

theorem Serves.ofOther {environment : Environment} {errors : List CheckError} {branch : Branch}
    (other : ∀ hint member typeArgs,
      branch.node.binding ≠ .invoke hint (.member member) typeArgs) :
    branch.Serves environment errors :=
  fun hint member typeArgs bound => absurd bound (other hint member typeArgs)

theorem Serves.ofBound {environment : Environment} {errors : List CheckError} {branch : Branch}
    {hint : Hint} {member : MemberId} {typeArgs : List Ty}
    (bound : branch.node.binding = .invoke hint (.member member) typeArgs)
    (invokes : branch.Invokes environment errors hint member) :
    branch.Serves environment errors := by
  intro otherHint other otherArgs isBound
  rw [bound, Binding.invoke.injEq, InvokeTarget.member.injEq] at isBound
  obtain ⟨rfl, rfl, _⟩ := isBound
  exact invokes

theorem Stores.ofCall {environment : Environment} {branch : Branch}
    (called : branch.node.binding.isCall = true) : branch.Stores environment := by
  refine ⟨fun uncalled => ?_, fun _ bound => ?_, fun _ bound => ?_⟩
  · simp [called] at uncalled
  · simp [bound, Binding.isCall] at called
  · simp [bound, Binding.isCall] at called

end Branch

/-- Whether a branch is settled once it has the type that its rule found, and that is noted. -/
structure Ruled (premise : Premise) (first : Environment) (ty : Ty) (new : CheckState)
    (after : Branch) : Prop where
  settled : Settled premise first (new.noted (.typed after.id new.environment)).moment
    new.scopes.returnType? (after.typed ty)
  reported : after.Reported new.errors ty

section Open

variable {premise : Premise} {calm : Calm} {first : Environment} {unseen : Nat → Option Label → Prop}
  {old new : CheckState} {branch after : Branch} {ty : Ty}

/-- A branch may have what its rule ensures since an earlier environment, unless it is dated. -/
theorem Open.closeAt {environment : Environment}
    (isOpen : Open premise calm first unseen new after) (leads : first.Leads environment)
    (later : environment.Leads new.environment)
    (facts : (after.typed ty).Facts premise environment new.errors new.scopes.returnType?)
    (same : after.node.isDated = true → environment = new.environment) :
    Ruled premise first ty new after := by
  let event : Event := .typed after.id new.environment
  have opens : Open premise calm first unseen (new.noted event) after :=
    isOpen.ofState rfl (.noted new event)
  have leadsOn : Moment.Leads ⟨environment, new.errors, new.log⟩ (new.noted event).moment :=
    ⟨later, List.prefix_refl _, .note _ _⟩
  refine ⟨.checked leads leadsOn facts (isOpen.inside.applies.alike rfl rfl) ?_ (fun _ => rfl)
    opens.settled, fun isList => ?_⟩
  · intro isDated
    rw [same isDated]
    exact Log.holds_note new.log event
  · unfold Branch.Facts at facts
    simp only [Branch.typed, Branch.node_alter, isList, Option.some.injEq] at facts
    exact facts

theorem Open.close (isOpen : Open premise calm first unseen new after)
    (facts : (after.typed ty).Facts premise new.environment new.errors new.scopes.returnType?) :
    Ruled premise first ty new after :=
  isOpen.closeAt isOpen.leads .refl facts fun _ => rfl

theorem Open.closeFree (isOpen : Open premise calm first unseen new after) {tag : Tag}
    (isTag : after.node.tag = tag) (free : tag.isFree = true) :
    Ruled premise first ty new after := by
  refine isOpen.close (.ofFree ?_)
  simp only [Branch.typed, Branch.node_alter, isTag, free]

/-- What a read ensures once it is bound. -/
theorem Open.closeRead (isOpen : Open premise calm first unseen new after)
    (isRead : after.node.tag = .name ∨ after.node.tag = .field)
    (reads : (after.typed ty).Reads new.environment)
    (serves : (after.typed ty).Serves new.environment new.errors) :
    Ruled premise first ty new after := by
  refine isOpen.close ?_
  unfold Branch.Facts
  rcases isRead with isTag | isTag
  · simpa only [Branch.typed, Branch.node_alter, isTag] using reads
  · simp only [Branch.typed, Branch.node_alter, isTag]
    exact ⟨reads, serves⟩

/-- What a name or a field ensures that is not bound to a read. -/
theorem Open.closeUnread (isOpen : Open premise calm first unseen new after)
    (isRead : after.node.tag = .name ∨ after.node.tag = .field)
    (other : ∀ place, after.node.binding ≠ .field .get place)
    (serves : (after.typed ty).Serves new.environment new.errors) :
    Ruled premise first ty new after :=
  isOpen.closeRead isRead (.ofOther other) serves

end Open

section Failures

variable {premise : Premise} {calm : Calm} {first : Environment} {old new : CheckState}
  {branch kid : Branch} {index : Nat} {failure : Failure}

/-- The leaf of a failed step comes into the place of the child that the step was on. -/
theorem Breaks.replaced (breaks : Breaks calm old kid new failure)
    (stands : old.tree.Stands branch) (found : branch.kids[index]? = some kid) :
    new.tree.childAt? branch.id index = some kid.id ∧
      old.tree.Turns branch (new.tree.replaceAt branch.id index failure.replacement)
        (branch.setKid index (failure.leaf kid.label)) := by
  have member : kid ∈ branch.kids := List.mem_of_getElem? found
  refine ⟨?_, ?_⟩
  · rw [Tree.childAt?, breaks.frame _ stands.holds.bound (stands.id_notMem member),
      ← Tree.childAt?, stands.holds.childAt?_eq, found, Option.map_some]
  · have label : (failure.leaf kid.label).label = kid.label := rfl
    refine .replaceAt stands found label (breaks.leaf kid.label) ?_ breaks.frame breaks.size
      breaks.root breaks.source
    intro position inside
    rw [Branch.ids_eq] at inside
    simp only [Failure.leaf, Branch.id_mk, Branch.kids_mk, List.flatMap_nil,
      List.mem_singleton] at inside
    rw [inside]
    exact .inr breaks.fresh

/-- The error of a failed step is recorded, and its leaf has the only notes of the child. -/
theorem Breaks.recorded (breaks : Breaks calm old kid new failure)
    (found : branch.kids[index]? = some kid) :
    Accounts old.errors (new.errors ++ [failure.error]) branch.notes
      (branch.setKid index (failure.leaf kid.label)).notes := by
  obtain ⟨rest, isBefore, isAfter⟩ := Branch.notes_setKid found
  rw [isBefore, isAfter, failure.notes_leaf]
  exact (Accounts.replaced breaks.evolves.errors breaks.fatal).frame rest

theorem settled_leaf {last : Moment} {returnType : Option Ty} (failure : Failure)
    (label : Option Label) (leads : first.Leads last.environment) :
    Settled premise first last returnType (failure.leaf label) :=
  .checked leads .refl ⟨rfl, fun _ => rfl⟩ (.ofOther rfl) nofun (fun _ => rfl) fun kid member => by
    simp [Failure.leaf] at member

theorem Failure.isFailed_leaf (failure : Failure) (label : Option Label) :
    (failure.leaf label).IsFailed :=
  ⟨rfl, rfl, rfl⟩

end Failures

namespace Check

theorem Yields.reject {α : Type} {calm : Calm} {old : CheckState} {branch : Branch}
    {goal : α → CheckState → Branch → Prop} (stands : old.tree.Stands branch) (id : NodeId)
    (what : String) (rejected : List Rejection) :
    (Check.reject id what rejected : Check α).Yields calm old branch goal :=
  .bindRead stands (.failAt stands _ (by cases rejected <;> rfl))

theorem Yields.stop {α : Type} {calm : Calm} {old : CheckState} {branch : Branch}
    {goal : α → CheckState → Branch → Prop} {fault : Fault} (allowed : fault.Allowed) :
    (Check.stop fault : Check α).Yields calm old branch goal :=
  allowed

variable {β : Type} {premise : Premise} {calm : Calm} {first : Environment}
  {unseen : Nat → Option Label → Prop} {old : CheckState} {branch : Branch}
  {next : Unit → Check β} {post : β → CheckState → Branch → Prop}

theorem modify_yields {change : Node → Node} (isOpen : Open premise calm first unseen old branch)
    (children : (change branch.node).children = branch.node.children)
    (note : (change branch.node).note = branch.node.note)
    (inside : (change branch.node).Inside) :
    (modifyTree (·.modify branch.id change)).Yields calm old branch fun _ new after =>
      after = branch.alter change ∧ Open premise calm first unseen new after ∧
        new.environment = old.environment ∧ new.scopes = old.scopes := by
  have turns := Tree.Turns.alter isOpen.stands children note
  have notes : (branch.alter change).notes = branch.notes :=
    Branch.notes_alter (by rw [Node.notes_other inside.sound, Node.notes_other isOpen.inside.sound])
  exact .ofRun rfl (.ofTree turns notes) ⟨rfl, ⟨turns.stands,
    Nat.le_trans isOpen.later turns.size, isOpen.leads, inside, isOpen.raw,
    isOpen.quiet, isOpen.settled⟩, rfl, rfl⟩

theorem Yields.bindModify {change : Node → Node} (isOpen : Open premise calm first unseen old branch)
    (children : (change branch.node).children = branch.node.children)
    (note : (change branch.node).note = branch.node.note)
    (inside : (change branch.node).Inside)
    (rest : ∀ new, Open premise calm first unseen new (branch.alter change) →
      new.environment = old.environment → new.scopes = old.scopes →
      (next ()).Yields calm new (branch.alter change) post) :
    (modifyTree (·.modify branch.id change) >>= next).Yields calm old branch post := by
  refine (modify_yields isOpen children note inside).bind ?_
  rintro _ new _ _ ⟨rfl, opens, environment, scopes⟩
  exact rest new opens environment scopes

theorem Yields.bindState {change : CheckState → CheckState}
    (isOpen : Open premise calm first unseen old branch) (tree : (change old).tree = old.tree)
    (evolves : old.Evolves (change old)) (keeps : calm.Keeps old (change old))
    (errors : (change old).errors = old.errors)
    (rest : Open premise calm first unseen (change old) branch →
      (next ()).Yields calm (change old) branch post) :
    (write change >>= next).Yields calm old branch post :=
  .bindRun rfl (.ofState isOpen.stands tree evolves keeps (.same errors rfl))
    (rest (isOpen.ofState tree evolves))

theorem Yields.bindReport {error : CheckError} (isOpen : Open premise calm first unseen old branch)
    (other : error.cause.isFatal = false)
    (rest : ∀ new, Open premise calm first unseen new branch → new.environment = old.environment →
      new.scopes = old.scopes → new.errors ≠ [] → (next ()).Yields calm new branch post) :
    (report error >>= next).Yields calm old branch post := by
  let new : CheckState :=
    { old.noted (.raised (.error error)) with errors := old.errors ++ [error] }
  have evolves : old.Evolves new :=
    ⟨.refl, .refl _, List.prefix_append _ _, List.prefix_refl _, .note _ _⟩
  exact .bindRun rfl (.ofState isOpen.stands rfl evolves (.same rfl rfl) (.recorded other))
    (rest new (isOpen.ofState rfl evolves) rfl rfl (by simp [new]))

theorem Yields.bindWarnAt {id : NodeId} {cause : WarningCause}
    (isOpen : Open premise calm first unseen old branch)
    (rest : ∀ new, Open premise calm first unseen new branch → new.environment = old.environment →
      new.scopes = old.scopes → (next ()).Yields calm new branch post) :
    (warnAt id cause >>= next).Yields calm old branch post := by
  have warned : (warnAt id cause).Yields calm old branch fun _ new after => after = branch ∧
      Open premise calm first unseen new branch ∧ new.environment = old.environment ∧
        new.scopes = old.scopes := by
    refine .bindRead isOpen.stands ?_
    let warning : CheckWarning := ⟨cause, old.tree.span id⟩
    let new : CheckState :=
      { old.noted (.raised (.warning warning)) with warnings := old.warnings ++ [warning] }
    have evolves : old.Evolves new :=
      ⟨.refl, .refl _, List.prefix_refl _, List.prefix_append _ _, .note _ _⟩
    exact .ofRun rfl (.ofState isOpen.stands rfl evolves (.same rfl rfl) (.same rfl rfl))
      ⟨rfl, isOpen.ofState rfl evolves, rfl, rfl⟩
  refine warned.bind ?_
  rintro _ new _ _ ⟨rfl, opens, environment, scopes⟩
  exact rest new opens environment scopes

end Check

end ScriptTyping
