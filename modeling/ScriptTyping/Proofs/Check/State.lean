import ScriptTyping.Check.Basic
import ScriptTyping.Proofs.Environment.Growth
import ScriptTyping.Proofs.Syntax.Stored

/-!
How checking may change what is around the tree. Scopes stay open, and only the innermost block and
an open return type change; the environment grows, and errors and warnings are added at the end.
-/

namespace ScriptTyping

structure FunctionScope.Evolves (old new : FunctionScope) : Prop where
  name : new.name = old.name
  parent : new.parent = old.parent
  paramTypes : new.paramTypes = old.paramTypes
  params : old.blocks ≠ [] → new.params = old.params
  count : new.blocks.length = old.blocks.length
  outer : new.blocks.tail = old.blocks.tail
  returnType : ∀ ty, old.returnType = some ty → new.returnType = some ty

theorem FunctionScope.Evolves.refl (scope : FunctionScope) : scope.Evolves scope :=
  ⟨rfl, rfl, rfl, fun _ => rfl, rfl, rfl, fun _ fixed => fixed⟩

theorem FunctionScope.Evolves.trans {first second third : FunctionScope}
    (early : first.Evolves second) (late : second.Evolves third) : first.Evolves third := by
  refine ⟨late.name.trans early.name, late.parent.trans early.parent,
    late.paramTypes.trans early.paramTypes, ?_, late.count.trans early.count,
    late.outer.trans early.outer, fun ty fixed => late.returnType ty (early.returnType ty fixed)⟩
  intro opened
  have stillOpen : second.blocks ≠ [] := by
    intro closed
    have count := early.count
    rw [closed, List.length_nil, eq_comm, List.length_eq_zero_iff] at count
    exact opened count
  rw [late.params stillOpen, early.params opened]

namespace ScopeStack

inductive Evolves : ScopeStack → ScopeStack → Prop where
  | inside {old new : FunctionScope} {outer : List FunctionScope} {toplevel : List Block} :
      old.Evolves new → Evolves ⟨old :: outer, toplevel⟩ ⟨new :: outer, toplevel⟩
  | outside {old new : List Block} : new.length = old.length → new.tail = old.tail →
      Evolves ⟨[], old⟩ ⟨[], new⟩

section Evolves

variable {old new first second third : ScopeStack}

theorem Evolves.refl (scopes : ScopeStack) : scopes.Evolves scopes := by
  obtain ⟨functions, toplevel⟩ := scopes
  cases functions with
  | nil => exact .outside rfl rfl
  | cons scope outer => exact .inside (.refl scope)

theorem Evolves.trans (early : first.Evolves second) (late : second.Evolves third) :
    first.Evolves third := by
  cases early with
  | inside scope =>
      cases late with
      | inside later => exact .inside (scope.trans later)
  | outside count outer =>
      cases late with
      | outside laterCount laterOuter =>
          exact .outside (laterCount.trans count) (laterOuter.trans outer)

theorem Evolves.returnType? (evolves : old.Evolves new) {ty : Ty}
    (fixed : old.returnType? = some ty) : new.returnType? = some ty := by
  cases evolves with
  | inside scope => exact scope.returnType ty fixed
  | outside => simp [ScopeStack.returnType?, current?] at fixed

theorem Evolves.inFunction (evolves : old.Evolves new) : new.inFunction = old.inFunction := by
  cases evolves <;> rfl

theorem Evolves.hasLocalScope (evolves : old.Evolves new) :
    new.hasLocalScope = old.hasLocalScope := by
  have inside : ∀ scope outer toplevel,
      ScopeStack.hasLocalScope ⟨scope :: outer, toplevel⟩ = true := by
    simp [ScopeStack.hasLocalScope, visible]
  cases evolves with
  | inside => rw [inside, inside]
  | @outside old new count _ =>
      cases old <;> cases new <;> simp [ScopeStack.hasLocalScope, visible] at count ⊢

theorem declare_evolves (scopes : ScopeStack) (name : String) (ty : Ty) :
    scopes.Evolves (scopes.declare name ty) := by
  obtain ⟨functions, toplevel⟩ := scopes
  cases functions with
  | nil =>
      cases toplevel with
      | nil => exact .outside rfl rfl
      | cons block blocks => exact .outside rfl rfl
  | cons scope outer =>
      obtain ⟨scopeName, parent, paramTypes, params, blocks, returnType⟩ := scope
      cases blocks with
      | nil => exact .inside ⟨rfl, rfl, rfl, fun opened => absurd rfl opened, rfl, rfl, fun _ h => h⟩
      | cons block blocks => exact .inside ⟨rfl, rfl, rfl, fun _ => rfl, rfl, rfl, fun _ h => h⟩

@[simp]
theorem returnType?_declare (scopes : ScopeStack) (name : String) (ty : Ty) :
    (scopes.declare name ty).returnType? = scopes.returnType? := by
  obtain ⟨functions, toplevel⟩ := scopes
  cases functions with
  | nil => cases toplevel <;> rfl
  | cons scope outer =>
      obtain ⟨scopeName, parent, paramTypes, params, blocks, returnType⟩ := scope
      cases blocks <;> rfl

theorem setReturnType_evolves (scopes : ScopeStack) (ty : Ty) :
    scopes.Evolves (scopes.setReturnType ty) := by
  obtain ⟨functions, toplevel⟩ := scopes
  cases functions with
  | nil => exact .outside rfl rfl
  | cons scope outer =>
      refine .inside ⟨rfl, rfl, rfl, fun _ => rfl, rfl, rfl, ?_⟩
      intro fixed found
      simp only [found, Option.some_or]

theorem returnType?_setReturnType {scopes : ScopeStack} (inside : scopes.inFunction = true)
    (ty : Ty) : (scopes.setReturnType ty).returnType? = some (scopes.returnType?.getD ty) := by
  obtain ⟨functions, toplevel⟩ := scopes
  cases functions with
  | nil => simp [inFunction] at inside
  | cons scope outer =>
      obtain ⟨name, parent, paramTypes, params, blocks, returnType⟩ := scope
      cases returnType <;> rfl

theorem inFunction_of_not_hasLocalScope {scopes : ScopeStack}
    (outside : scopes.hasLocalScope = false) : scopes.inFunction = false := by
  obtain ⟨functions, toplevel⟩ := scopes
  cases functions with
  | nil => rfl
  | cons scope outer => simp [hasLocalScope, visible] at outside

/-! ### Blocks and functions -/

@[simp]
theorem returnType?_beginBlock (scopes : ScopeStack) :
    scopes.beginBlock.returnType? = scopes.returnType? := by
  obtain ⟨functions, toplevel⟩ := scopes
  cases functions <;> rfl

@[simp]
theorem inFunction_beginBlock (scopes : ScopeStack) :
    scopes.beginBlock.inFunction = scopes.inFunction := by
  obtain ⟨functions, toplevel⟩ := scopes
  cases functions <;> rfl

theorem hasLocalScope_beginBlock (scopes : ScopeStack) :
    scopes.beginBlock.hasLocalScope = true := by
  obtain ⟨functions, toplevel⟩ := scopes
  cases functions <;> simp [hasLocalScope, visible, beginBlock]

/-- A block that was opened can be closed, and nothing but a return type is left of it. -/
theorem Evolves.endBlock (evolves : old.beginBlock.Evolves new) :
    ∃ closed, new.endBlock = .ok closed ∧ old.Evolves closed ∧
      closed.returnType? = new.returnType? := by
  obtain ⟨functions, toplevel⟩ := old
  cases functions with
  | nil =>
      simp only [beginBlock] at evolves
      cases evolves with
      | @outside _ blocks count outer =>
          cases blocks with
          | nil => simp at count
          | cons block blocks =>
              simp only [List.tail_cons] at outer
              subst outer
              exact ⟨⟨[], blocks⟩, rfl, .refl _, rfl⟩
  | cons scope outer =>
      simp only [beginBlock] at evolves
      cases evolves with
      | @inside _ later _ _ scopeEvolves =>
          obtain ⟨name, parent, paramTypes, params, count, tail, returnType⟩ := scopeEvolves
          obtain ⟨laterName, laterParent, laterTypes, laterParams, laterBlocks, laterReturn⟩ := later
          cases laterBlocks with
          | nil => simp at count
          | cons block blocks =>
              simp only [List.tail_cons] at tail
              refine ⟨_, rfl, .inside ⟨name, parent, paramTypes, ?_, ?_, ?_, returnType⟩, rfl⟩
              · exact fun _ => params (by simp)
              · rw [tail]
              · rw [tail]

/-- A function that was entered can be left, and nothing of it is left. -/
theorem Evolves.exitFunction {scope : FunctionScope}
    (evolves : Evolves { old with functions := scope :: old.functions } new) :
    ∃ later, new.exitFunction = .ok (later, old) ∧ new.returnType? = later.returnType ∧
      scope.Evolves later := by
  cases evolves with
  | inside scopeEvolves => exact ⟨_, rfl, rfl, scopeEvolves⟩

end Evolves

end ScopeStack

/-! ### Logs -/

namespace Log

def Holds (log : Log) (event : Event) : Prop := ∀ events ∈ log, event ∈ events

def Leads (old new : Log) : Prop := ∃ more, new = old.map (· ++ more)

theorem Leads.refl (log : Log) : log.Leads log := ⟨[], by simp⟩

theorem Leads.trans {first second third : Log} (early : first.Leads second)
    (late : second.Leads third) : first.Leads third := by
  obtain ⟨more, rfl⟩ := early
  obtain ⟨others, rfl⟩ := late
  exact ⟨more ++ others, by simp [Function.comp_def]⟩

theorem Leads.note (log : Log) (event : Event) : log.Leads (log.map (· ++ [event])) := ⟨[event], rfl⟩

theorem Holds.mono {old new : Log} {event : Event} (holds : old.Holds event)
    (leads : old.Leads new) : new.Holds event := by
  obtain ⟨more, rfl⟩ := leads
  rintro _ kept
  obtain ⟨events, isOld, rfl⟩ := Option.map_eq_some_iff.mp kept
  exact List.mem_append_left more (holds events isOld)

theorem holds_note (log : Log) (event : Event) : Holds (log.map (· ++ [event])) event := by
  rintro _ kept
  obtain ⟨events, _, rfl⟩ := Option.map_eq_some_iff.mp kept
  exact List.mem_append_right events (List.mem_singleton_self event)

end Log

namespace CheckState

variable (state : CheckState) (event : Event)

@[simp]
theorem tree_noted : (state.noted event).tree = state.tree := rfl

@[simp]
theorem environment_noted : (state.noted event).environment = state.environment := rfl

@[simp]
theorem errors_noted : (state.noted event).errors = state.errors := rfl

end CheckState

structure CheckState.Evolves (old new : CheckState) : Prop where
  environment : old.environment.Leads new.environment
  scopes : old.scopes.Evolves new.scopes
  errors : old.errors <+: new.errors
  warnings : old.warnings <+: new.warnings
  log : old.log.Leads new.log

theorem CheckState.Evolves.refl (state : CheckState) : state.Evolves state :=
  ⟨.refl, .refl _, List.prefix_refl _, List.prefix_refl _, .refl _⟩

theorem CheckState.Evolves.trans {first second third : CheckState} (early : first.Evolves second)
    (late : second.Evolves third) : first.Evolves third :=
  ⟨early.environment.trans late.environment, early.scopes.trans late.scopes,
    early.errors.trans late.errors, early.warnings.trans late.warnings, early.log.trans late.log⟩

theorem CheckState.Evolves.ofTree (state : CheckState) (tree : Tree) :
    state.Evolves { state with tree } :=
  ⟨.refl, .refl _, List.prefix_refl _, List.prefix_refl _, .refl _⟩

theorem CheckState.Evolves.ofEnvironment {state : CheckState} {environment : Environment}
    (leads : state.environment.Leads environment) :
    state.Evolves { state with environment := environment } :=
  ⟨leads, .refl _, List.prefix_refl _, List.prefix_refl _, .refl _⟩

theorem CheckState.Evolves.ofScopes {state : CheckState} {scopes : ScopeStack}
    (evolves : state.scopes.Evolves scopes) : state.Evolves { state with scopes := scopes } :=
  ⟨.refl, evolves, List.prefix_refl _, List.prefix_refl _, .refl _⟩

theorem CheckState.Evolves.noted (state : CheckState) (event : Event) :
    state.Evolves (state.noted event) :=
  ⟨.refl, .refl _, List.prefix_refl _, List.prefix_refl _, .note _ event⟩

/-- What checking only adds to: the environment, the errors and the log. -/
structure Moment where
  environment : Environment
  errors : List CheckError
  log : Log

def CheckState.moment (state : CheckState) : Moment := ⟨state.environment, state.errors, state.log⟩

structure Moment.Leads (old new : Moment) : Prop where
  environment : old.environment.Leads new.environment
  errors : old.errors <+: new.errors
  log : old.log.Leads new.log

theorem Moment.Leads.refl {moment : Moment} : moment.Leads moment :=
  ⟨.refl, List.prefix_refl _, .refl _⟩

theorem Moment.Leads.trans {first second third : Moment} (early : first.Leads second)
    (late : second.Leads third) : first.Leads third :=
  ⟨early.environment.trans late.environment, early.errors.trans late.errors,
    early.log.trans late.log⟩

theorem CheckState.Evolves.moment {old new : CheckState} (evolves : old.Evolves new) :
    old.moment.Leads new.moment :=
  ⟨evolves.environment, evolves.errors, evolves.log⟩

/-! ### Calm steps -/

structure Environment.Still (old new : Environment) : Prop where
  globals : new.globals = old.globals
  imported : new.imported = old.imported

theorem Environment.Still.refl (environment : Environment) : environment.Still environment :=
  ⟨rfl, rfl⟩

theorem Environment.Still.trans {first second third : Environment} (early : first.Still second)
    (late : second.Still third) : first.Still third :=
  ⟨late.globals.trans early.globals, late.imported.trans early.imported⟩

def CheckState.mode (state : CheckState) : Mode :=
  ⟨state.environment.options.shellMode, state.scopes.inFunction⟩

theorem CheckState.Evolves.mode {old new : CheckState} (evolves : old.Evolves new) :
    new.mode = old.mode := by
  rw [CheckState.mode, CheckState.mode, evolves.environment.grows.options,
    evolves.scopes.inFunction]

def CheckState.place (state : CheckState) : Place := ⟨state.mode, state.scopes.hasLocalScope⟩

theorem CheckState.Evolves.place {old new : CheckState} (evolves : old.Evolves new) :
    new.place = old.place := by
  rw [CheckState.place, CheckState.place, evolves.mode, evolves.scopes.hasLocalScope]

theorem CheckState.place_beginBlock (state : CheckState) :
    CheckState.place { state with scopes := state.scopes.beginBlock } = state.place.cover := by
  rw [CheckState.place, CheckState.mode, ScopeStack.inFunction_beginBlock,
    ScopeStack.hasLocalScope_beginBlock]
  rfl

/-- What a step is known not to do: to fix a return type, to declare a global or import a namespace,
and to make a name a global. -/
structure Calm where
  returns : Prop
  still : Mode → Prop
  spares : Place → String → Prop

def StoredNode.calm (node : StoredNode) : Calm where
  returns := node.canReturn = false
  still := fun mode => node.mayDeclare mode = false
  spares := fun place name => node.exposes place name = false

namespace Calm

structure Implies (calm quiet : Calm) : Prop where
  returns : calm.returns → quiet.returns
  still : ∀ mode, calm.still mode → quiet.still mode
  spares : ∀ place name, calm.spares place name → quiet.spares place name

theorem Implies.trans {first second third : Calm} (early : first.Implies second)
    (late : second.Implies third) : first.Implies third :=
  ⟨late.returns ∘ early.returns, fun mode isStill => late.still mode (early.still mode isStill),
    fun place name spared => late.spares place name (early.spares place name spared)⟩

structure Covers (calm inner : Calm) : Prop where
  returns : calm.returns → inner.returns
  still : ∀ mode, calm.still mode → inner.still mode
  spares : ∀ place name, calm.spares place name → inner.spares place.cover name

structure Enters (calm inner : Calm) : Prop where
  still : ∀ mode, calm.still mode → inner.still { mode with inside := true }
  spares : ∀ place name, calm.spares place name → inner.spares place.enter name

structure Keeps (calm : Calm) (old new : CheckState) : Prop where
  returns : calm.returns → new.scopes.returnType? = old.scopes.returnType?
  still : calm.still old.mode → old.environment.Still new.environment
  spares : ∀ name, calm.spares old.place name → new.environment.hasGlobal name = true →
    old.environment.hasGlobal name = true

section Keeps

variable {calm quiet : Calm} {old middle new : CheckState}

theorem Keeps.same (environment : new.environment = old.environment)
    (returns : new.scopes.returnType? = old.scopes.returnType?) : calm.Keeps old new :=
  ⟨fun _ => returns, fun _ => by rw [environment]; exact .refl _,
    fun _ _ => by rw [environment]; exact id⟩

theorem Keeps.refl (state : CheckState) : calm.Keeps state state := .same rfl rfl

theorem Keeps.trans (first : calm.Keeps old middle) (second : calm.Keeps middle new)
    (evolves : old.Evolves middle) : calm.Keeps old new := by
  refine ⟨fun returns => (second.returns returns).trans (first.returns returns),
    fun isStill => ?_, fun name spared known => ?_⟩
  · exact (first.still isStill).trans (second.still (by rw [evolves.mode]; exact isStill))
  · exact first.spares name spared (second.spares name (by rw [evolves.place]; exact spared) known)

theorem Keeps.weaken (keeps : calm.Keeps old new) (stronger : quiet.Implies calm) :
    quiet.Keeps old new :=
  ⟨keeps.returns ∘ stronger.returns, fun isStill => keeps.still (stronger.still _ isStill),
    fun name spared => keeps.spares name (stronger.spares _ name spared)⟩

end Keeps

end Calm

end ScriptTyping
