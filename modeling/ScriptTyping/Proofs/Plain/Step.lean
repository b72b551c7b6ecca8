import ScriptTyping.Proofs.Check.Step
import ScriptTyping.Proofs.Plain.State

/-!
Steps of checking that bring in no type variables: from a state whose types have none they lead to
another such state, whether they succeed or fail. A rule keeps this up when the types that it gives
away have no variables.
-/

namespace ScriptTyping

open Ty (AllPlain)

namespace Check

variable {α β : Type}

def StaysPlain (fits : α → Prop) (step : Check α) : Prop :=
  ∀ old, old.Plain → match step.run.run old with
    | .error _ => True
    | .ok (.ok result, new) => fits result ∧ new.Plain
    | .ok (.error _, new) => new.Plain

abbrev KeepsPlain (step : Check α) : Prop := StaysPlain (fun _ => True) step

variable {fits weaker : α → Prop} {goal : β → Prop} {step : Check α} {next : α → Check β}

theorem StaysPlain.ok (stays : StaysPlain fits step) {old new : CheckState} (plain : old.Plain)
    {result : α} (run : step.run.run old = .ok (.ok result, new)) : fits result ∧ new.Plain := by
  have ends := stays old plain
  rw [run] at ends
  exact ends

theorem StaysPlain.error (stays : StaysPlain fits step) {old new : CheckState} (plain : old.Plain)
    {failure : Failure} (run : step.run.run old = .ok (.error failure, new)) : new.Plain := by
  have ends := stays old plain
  rw [run] at ends
  exact ends

theorem StaysPlain.pure {result : α} (reached : fits result) :
    StaysPlain fits (Pure.pure result) :=
  fun _ plain => ⟨reached, plain⟩

theorem StaysPlain.mono (stays : StaysPlain fits step)
    (weakens : ∀ result, fits result → weaker result) : StaysPlain weaker step := by
  intro old plain
  have ends := stays old plain
  split at ends
  · trivial
  · exact ⟨weakens _ ends.1, ends.2⟩
  · exact ends

theorem StaysPlain.bind (first : StaysPlain fits step)
    (rest : ∀ result, fits result → StaysPlain goal (next result)) :
    StaysPlain goal (step >>= next) := by
  intro old plain
  rw [run_bind]
  cases run : step.run.run old with
  | error fault => trivial
  | ok answer =>
      obtain ⟨result, new⟩ := answer
      cases result with
      | ok result =>
          obtain ⟨reached, isPlain⟩ := first.ok plain run
          exact rest result reached new isPlain
      | error failure => exact first.error plain run

theorem StaysPlain.andThen (first : KeepsPlain step) (rest : ∀ result, StaysPlain goal (next result)) :
    StaysPlain goal (step >>= next) :=
  first.bind fun result _ => rest result

/-! ### Reading and writing -/

theorem StaysPlain.read {view : CheckView → α}
    (each : ∀ state : CheckState, state.Plain → fits (view state.toCheckView)) :
    StaysPlain fits (Check.read view) :=
  fun old plain => ⟨each old plain, plain⟩

theorem StaysPlain.bindRead {view : CheckView → α} (rest : ∀ result, StaysPlain goal (next result)) :
    StaysPlain goal (Check.read view >>= next) :=
  .andThen (.read fun _ _ => trivial) rest

theorem StaysPlain.write {change : CheckState → CheckState}
    (keeps : ∀ state, state.Plain → (change state).Plain) : KeepsPlain (Check.write change) :=
  fun old plain => ⟨trivial, keeps old plain⟩

theorem StaysPlain.stop (fault : Fault) : StaysPlain fits (Check.stop fault) := fun _ _ => trivial

theorem StaysPlain.environment : StaysPlain Environment.Plain Check.environment :=
  .read fun _ plain => plain.environment

theorem StaysPlain.scopes : StaysPlain ScopeStack.Plain Check.scopes :=
  .read fun _ plain => plain.scopes

theorem StaysPlain.build {change : Tree → α × Tree}
    (keeps : ∀ tree : Tree, tree.Plain → (change tree).2.Plain) : KeepsPlain (Check.build change) :=
  fun old plain => ⟨trivial, keeps old.tree plain.tree, plain.environment, plain.scopes⟩

theorem StaysPlain.modifyTree {change : Tree → Tree}
    (keeps : ∀ tree : Tree, tree.Plain → (change tree).Plain) :
    KeepsPlain (Check.modifyTree change) :=
  .write fun state plain => ⟨keeps state.tree plain.tree, plain.environment, plain.scopes⟩

theorem StaysPlain.modifyScopes {change : ScopeStack → ScopeStack}
    (keeps : ∀ scopes : ScopeStack, scopes.Plain → (change scopes).Plain) :
    KeepsPlain (Check.modifyScopes change) :=
  .write fun state plain => ⟨plain.tree, plain.environment, keeps state.scopes plain.scopes⟩

theorem StaysPlain.setEnvironment {environment : Environment} (isPlain : environment.Plain) :
    KeepsPlain (Check.setEnvironment environment) :=
  .write fun _ plain => ⟨plain.tree, isPlain, plain.scopes⟩

theorem StaysPlain.recordError (error : CheckError) : KeepsPlain (Check.recordError error) :=
  .write fun _ plain => ⟨plain.tree, plain.environment, plain.scopes⟩

theorem StaysPlain.note (event : Event) : KeepsPlain (Check.note event) :=
  .write fun _ plain => ⟨plain.tree, plain.environment, plain.scopes⟩

theorem StaysPlain.noteTyped (id : NodeId) : KeepsPlain (Check.noteTyped id) :=
  .bindRead fun _ => .note _

theorem StaysPlain.report (error : CheckError) : KeepsPlain (Check.report error) :=
  .andThen (.note _) fun _ => .recordError error

theorem StaysPlain.warn (warning : CheckWarning) : KeepsPlain (Check.warn warning) :=
  .andThen (.note _) fun _ => .write fun _ plain => ⟨plain.tree, plain.environment, plain.scopes⟩

/-! ### Failing and going on -/

theorem StaysPlain.attempt (stays : StaysPlain fits step) :
    StaysPlain (fun result => ∀ value, result = .ok value → fits value) (Check.attempt step) := by
  intro old plain
  rw [run_attempt]
  cases run : step.run.run old with
  | error fault => trivial
  | ok answer =>
      obtain ⟨result, new⟩ := answer
      cases result with
      | ok result =>
          obtain ⟨reached, isPlain⟩ := stays.ok plain run
          exact ⟨fun value same => Except.ok.inj same ▸ reached, isPlain⟩
      | error failure =>
          refine ⟨fun value same => ?_, stays.error plain run⟩
          cases same

theorem StaysPlain.settle {result : Except Failure α}
    (reached : ∀ value, result = .ok value → fits value) : StaysPlain fits (Check.settle result) := by
  intro old plain
  cases result with
  | ok value => exact ⟨reached value rfl, plain⟩
  | error failure => exact plain

theorem StaysPlain.raise (failure : Failure) : StaysPlain fits (Check.raise failure) :=
  .andThen (.note _) fun _ => .settle fun _ => nofun

theorem StaysPlain.orRaise (result : Except Failure α) : KeepsPlain (Check.orRaise result) := by
  cases result with
  | ok value => exact .pure trivial
  | error failure => exact .raise failure

theorem StaysPlain.fail (error : CheckError) : StaysPlain fits (Check.fail error) :=
  .andThen (.build fun _ plain => plain.ofError error) .raise

theorem failAt_plain (id : NodeId) (cause : ErrorCause) : StaysPlain fits (failAt id cause) :=
  .bindRead fun _ => .fail _

theorem warnAt_plain (id : NodeId) (cause : WarningCause) : KeepsPlain (warnAt id cause) :=
  .bindRead fun _ => .warn _

/-! ### Scopes -/

theorem endBlock_plain : KeepsPlain endBlock := by
  refine .bind .scopes fun scopes plain => ?_
  split
  · rename_i rest ends
    exact .modifyScopes fun _ _ => plain.endBlock ends
  · exact .stop _

theorem exitFunction_plain : StaysPlain FunctionScope.Plain exitFunction := by
  refine .bind .scopes fun scopes plain => ?_
  split
  · rename_i scope rest exits
    obtain ⟨isPlain, outer⟩ := plain.exitFunction exits
    exact .andThen (.modifyScopes fun _ _ => outer) fun _ => .pure isPlain
  · exact .stop _

theorem inBlock_plain (stays : StaysPlain fits step) : StaysPlain fits (inBlock step) := by
  refine .andThen (.modifyScopes fun _ plain => plain.beginBlock) fun _ => ?_
  refine .bind stays.attempt fun result reached => ?_
  exact .andThen endBlock_plain fun _ => .settle reached

theorem inBlockIf_plain (wanted : Bool) (stays : StaysPlain fits step) :
    StaysPlain fits (inBlockIf wanted step) := by
  cases wanted with
  | true => exact inBlock_plain stays
  | false => exact stays

/-! ### Changes of one node -/

theorem setType_plain (id : NodeId) {ty : Ty} (isPlain : ty.Plain) : KeepsPlain (setType id ty) :=
  .modifyTree fun _ plain => plain.setType id isPlain

theorem setBinding_plain (id : NodeId) {binding : Binding} (isPlain : binding.Plain) :
    KeepsPlain (setBinding id binding) :=
  .modifyTree fun _ plain => plain.setBinding id isPlain

theorem bindStatic_plain (id : NodeId) (member : MemberId) : KeepsPlain (bindStatic id member) :=
  setBinding_plain id (Binding.plain_static member)

theorem bindInvoke_plain (id : NodeId) (hint : Hint) (target : InvokeTarget) :
    KeepsPlain (bindInvoke id hint target) :=
  setBinding_plain id fun _ absent => absurd absent List.not_mem_nil

theorem setConst_plain (id : NodeId) (ty : Ty) (isPlain : ty.Plain) (value : Const) :
    StaysPlain Ty.Plain (setConst id ty value) :=
  .andThen (.modifyTree fun _ plain => plain.setConst id isPlain value) fun _ => .pure isPlain

theorem markDone_plain (id : NodeId) : KeepsPlain (markDone id) :=
  .modifyTree fun _ plain => plain.markDone id

theorem make_plain (id : NodeId) (children : List (Label × NodeId)) :
    KeepsPlain (modifyTree (·.make id children)) :=
  .modifyTree fun _ plain => plain.make id children

theorem flatten_plain (id : NodeId) (items : List NodeId) :
    KeepsPlain (modifyTree (·.flatten id items)) :=
  .modifyTree fun _ plain => plain.flatten id items

/-! ### Children -/

theorem required_plain (id : NodeId) (label : Label) : KeepsPlain (required id label) := by
  refine .bindRead fun found => ?_
  cases found with
  | some child => exact .pure trivial
  | none => exact .bindRead fun _ => failAt_plain id _

theorem requiredOrFirst_plain (id : NodeId) (label : Label) :
    KeepsPlain (requiredOrFirst id label) := by
  refine .bindRead fun found => .bindRead fun kids => ?_
  split
  · exact .pure trivial
  · exact required_plain id label

theorem occupant_plain (slot : Slot) : KeepsPlain (occupant slot) := by
  refine .bindRead fun tree => ?_
  split
  · exact .pure trivial
  · exact .stop _

theorem replace_plain (slot : Slot) (node : NodeId) : KeepsPlain (replace slot node) :=
  .andThen (occupant_plain slot) fun _ => .modifyTree fun _ plain => plain.replaceAt _ _ _

theorem requiredSlot_plain (id : NodeId) (label : Label) : KeepsPlain (requiredSlot id label) := by
  refine .bindRead fun tree => ?_
  split
  · exact .pure trivial
  · exact .andThen (required_plain id label) fun _ => .pure trivial

/-! ### Conversions -/

theorem noteConversion_plain (node coerced : NodeId) : KeepsPlain (noteConversion node coerced) := by
  unfold noteConversion
  split
  · exact .pure trivial
  · exact .noteTyped coerced

theorem coerce_plain (slot : Slot) {ty : Ty} (isPlain : ty.Plain) : KeepsPlain (coerce slot ty) := by
  refine .andThen (occupant_plain slot) fun node => .andThen (.read fun _ _ => trivial) ?_
  refine fun environment => .andThen (.build fun _ plain => plain.enforce environment node isPlain) ?_
  refine fun result => .andThen (.orRaise result) fun coerced => ?_
  refine .andThen (noteConversion_plain node coerced) fun _ => ?_
  exact .andThen (replace_plain slot coerced) fun _ => .pure trivial

theorem coerceAll_plain (ty : Ty) (isPlain : ty.Plain) (slots : List Slot) :
    KeepsPlain (coerceAll ty slots) := by
  induction slots with
  | nil => exact .pure trivial
  | cons slot rest ih => exact .andThen (coerce_plain slot isPlain) fun _ => ih

theorem coerceEach_plain {pairs : List (Slot × Ty)} (each : ∀ pair ∈ pairs, pair.2.Plain) :
    KeepsPlain (coerceEach pairs) := by
  induction pairs with
  | nil => exact .pure trivial
  | cons pair rest ih =>
      obtain ⟨isPlain, others⟩ := List.forall_mem_cons.mp each
      exact .andThen (coerce_plain pair.1 isPlain) fun _ => ih others

theorem denotation_plain (node : NodeId) : StaysPlain Ty.Plain ( denotation node) := by
  refine .bindRead fun text => .bindRead fun environment => ?_
  split
  · rename_i found
    exact .pure (Environment.resolveType_plain found)
  · exact failAt_plain node _

theorem annotation_plain (node : NodeId) : StaysPlain Ty.Plain ( annotation node) := by
  refine .bind (denotation_plain node) fun ty isPlain => ?_
  exact .andThen (setType_plain node isPlain) fun _ => .pure isPlain

theorem annotation?_plain (id : NodeId) (label : Label) :
    StaysPlain (∀ ty ∈ ·, ty.Plain) (annotation? id label) := by
  refine .bindRead fun found => ?_
  cases found with
  | none => exact .pure fun _ none => nomatch none
  | some node =>
      refine .bind (annotation_plain node) fun ty isPlain => .pure fun other isOther => ?_
      exact Option.some.inj isOther ▸ isPlain

/-! ### Arguments and lookups -/

theorem argumentList_plain (id : NodeId) : KeepsPlain (argumentList id) :=
  .build fun _ plain => plain.argumentList id .param

theorem convertArguments_plain (slots : List Slot) {resolution : Resolution}
    (plain : resolution.Plain) (indices : List Nat) :
    KeepsPlain (convertArguments slots resolution indices) := by
  induction indices with
  | nil => exact .pure trivial
  | cons index rest ih =>
      rw [convertArguments]
      split
      · rename_i slot ty _ isParam
        have isPlain := plain.params ty (List.mem_of_getElem? isParam)
        exact .andThen (coerce_plain slot isPlain) fun _ => ih
      · exact .stop _

theorem accept_plain (id : NodeId) (hint : Hint) {resolution : Resolution}
    (plain : resolution.Plain) (slots : List Slot) :
    StaysPlain Ty.Plain (accept id hint resolution slots) := by
  refine .andThen (convertArguments_plain slots plain _) fun _ => ?_
  exact .andThen (setBinding_plain id plain.typeArgs) fun _ => .pure plain.result

theorem reject_plain (id : NodeId) (what : String) (rejected : List Rejection) :
    StaysPlain fits (reject id what rejected) :=
  .bindRead fun _ => failAt_plain id _

/-! ### Checking children -/

def VisitsPlain (visit : Visit) : Prop := ∀ id, StaysPlain Ty.Plain (visit id)

section Visits

variable {visit : Visit}

theorem VisitsPlain.keeps (visits : VisitsPlain visit) (id : NodeId) : KeepsPlain (visit id) :=
  (visits id).mono fun _ _ => trivial

theorem enforce_plain (visits : VisitsPlain visit) (id : NodeId) (label : Label) {ty : Ty}
    (isPlain : ty.Plain) : KeepsPlain (enforce visit id label ty) := by
  refine .andThen (requiredSlot_plain id label) fun slot => ?_
  refine .andThen (occupant_plain slot) fun node => .andThen (visits.keeps node) fun _ => ?_
  exact coerce_plain slot isPlain

theorem visitAll_plain (visits : VisitsPlain visit) (slots : List Slot) :
    StaysPlain AllPlain (visitAll visit slots) := by
  induction slots with
  | nil => exact .pure fun _ absent => absurd absent List.not_mem_nil
  | cons slot rest ih =>
      refine .andThen (occupant_plain slot) fun node => .bind (visits node) fun ty isPlain => ?_
      refine .bind ih fun types arePlain => .pure ?_
      exact List.forall_mem_cons.mpr ⟨isPlain, arePlain⟩

end Visits

end Check

end ScriptTyping
