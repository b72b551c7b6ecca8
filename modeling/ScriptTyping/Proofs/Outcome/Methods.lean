import ScriptTyping.Proofs.Outcome.Arguments
import ScriptTyping.Proofs.Overload.Matcher
import ScriptTyping.Proofs.Overload.Monotone

/-!
How the call of a method on a value ends once the value and the arguments were checked: with the
member that takes the arguments, else with a call at run time on a dynamic value, else with an error
that lists the candidates.
-/

namespace ScriptTyping

/-! ### Verdicts -/

namespace Check

variable {α β : Type} {step : Check α} {next : α → Check β} {state later : CheckState} {result : α}
  {failure : Failure}

def verdict? (step : Check α) (state : CheckState) : Option (Except ErrorCause α) :=
  match step.run.run state with
  | .error _ => none
  | .ok (.ok result, _) => some (.ok result)
  | .ok (.error failure, _) => some (.error failure.error.cause)

theorem verdict?_bind_ok (ran : step.run.run state = .ok (.ok result, later)) :
    (step >>= next).verdict? state = (next result).verdict? later := by
  rw [verdict?, run_bind, ran]
  rfl

theorem verdict?_bind_error (ran : step.run.run state = .ok (.error failure, later)) :
    (step >>= next).verdict? state = some (.error failure.error.cause) := by
  rw [verdict?, run_bind, ran]

end Check

theorem verdict?_visit {depth : Nat} {id : NodeId} {state : CheckState}
    (undone : (state.tree.get id).done = false) :
    (visit (depth + 1) id).verdict? state =
      (Rule.ofTag (visit depth) id (state.tree.tag id)).verdict? state := by
  rw [Check.verdict?, Check.verdict?, Rule.run_visit undone]
  cases (Rule.ofTag (visit depth) id (state.tree.tag id)).run.run state with
  | error fault => rfl
  | ok answer =>
      obtain ⟨result, new⟩ := answer
      cases result <;> rfl

/-! ### Operands -/

def CheckState.namedType? (state : CheckState) (receiver : NodeId) : Option Ty :=
  let name := state.tree.text receiver
  if state.tree.tag receiver = .name ∧
      (state.scopes.hasVariable name || state.environment.hasGlobal name) = false
  then state.environment.typeNamed? name else none

namespace Rule

open Check

def methodOperands (visit : Visit) (id receiver : NodeId) : Check (Ty × List Slot × List Ty) := do
  let list ← argumentList id
  let slots ← slots list
  let receiverTy ← visit receiver
  let args ← visitAll visit slots
  return (receiverTy, slots, args)

def applyChecked (id receiver nameNode list : NodeId) (name : String) (slots : List Slot)
    (receiverTy : Ty) (args : List Ty) : Check Ty := do
  let environment ← environment
  let lookup := environment.resolve receiverTy.args (environment.members receiverTy name .method)
    args
  match lookup.found with
  | some resolution => accept id .methodApply resolution slots
  | none =>
    if receiverTy.isDynamic then applyDynamic id receiver nameNode list slots
    else reject id ("method " ++ name ++ " of " ++ receiverTy.text) lookup.rejected

variable {visit : Visit} {state checked : CheckState} {id receiver nameNode list : NodeId}
  {name : String} {slots : List Slot} {receiverTy : Ty} {args : List Ty}

theorem applyOnValue_eq : applyOnValue visit id receiver nameNode list name slots = (do
    let receiverTy ← visit receiver
    let args ← visitAll visit slots
    applyChecked id receiver nameNode list name slots receiverTy args) := rfl

theorem run_typeReceiver?_none (nameless : state.namedType? receiver = none) :
    (typeReceiver? receiver).run.run state = .ok (.ok none, state) := by
  have tag : (tagOf receiver).run.run state = .ok (.ok (state.tree.tag receiver), state) := rfl
  have asks (name : String) : (isValue name).run.run state =
    .ok (.ok (state.scopes.hasVariable name || state.environment.hasGlobal name), state) := rfl
  rw [CheckState.namedType?] at nameless
  rw [typeReceiver?, run_bind, tag]
  dsimp only
  split
  · rename_i isName
    rw [run_bind, run_textOf]
    dsimp only
    rw [run_bind, asks]
    dsimp only
    split
    · rfl
    · rename_i unbound
      rw [Bool.not_eq_true] at unbound
      rw [if_pos ⟨isName, unbound⟩] at nameless
      rw [run_bind, run_environment]
      dsimp only
      rw [nameless]
      rfl
  · rfl

theorem namedType?_argumentList (different : receiver ≠ id)
    (bound : receiver < state.tree.nodes.size) :
    { state with tree := (state.tree.argumentList id .param).2 }.namedType? receiver =
      state.namedType? receiver := by
  have same := state.tree.get_argumentList different bound
  rw [CheckState.namedType?, CheckState.namedType?, Tree.text, Tree.text, Tree.tag, Tree.tag, same]

theorem visits_of_methodOperands
    (checks : (methodOperands visit id receiver).run.run state =
      .ok (.ok (receiverTy, slots, args), checked)) :
    let gathered := { state with tree := (state.tree.argumentList id .param).2 }
    slots = gathered.tree.slots (state.tree.argumentList id .param).1 ∧
      ∃ between, (visit receiver).run.run gathered = .ok (.ok receiverTy, between) ∧
        (visitAll visit slots).run.run between = .ok (.ok args, checked) := by
  intro gathered
  have gathers : (argumentList id).run.run state =
    .ok (.ok (state.tree.argumentList id .param).1, gathered) := run_build _ state
  have reads (list : NodeId) : (Check.slots list).run.run gathered =
    .ok (.ok (gathered.tree.slots list), gathered) := rfl
  rw [methodOperands, run_bind, gathers] at checks
  dsimp only at checks
  rw [run_bind, reads] at checks
  dsimp only at checks
  obtain ⟨ty, between, visits, checks⟩ := exists_of_run_bind checks
  obtain ⟨types, last, visitsAll, checks⟩ := exists_of_run_bind checks
  cases checks
  exact ⟨rfl, between, visits, visitsAll⟩

theorem verdict?_methodApply (treelike : state.tree.Treelike id)
    (isReceiver : state.tree.child? id .recv = some receiver)
    (isName : state.tree.child? id .name = some nameNode)
    (nameless : state.namedType? receiver = none)
    (checks : (methodOperands visit id receiver).run.run state =
      .ok (.ok (receiverTy, slots, args), checked)) :
    (methodApply visit id).verdict? state =
      (applyChecked id receiver nameNode (state.tree.argumentList id .param).1
        (state.tree.text nameNode) slots receiverTy args).verdict? checked := by
  obtain ⟨rfl, between, visits, visitsAll⟩ := visits_of_methodOperands checks
  let gathered := { state with tree := (state.tree.argumentList id .param).2 }
  have gathers : (argumentList id).run.run state =
    .ok (.ok (state.tree.argumentList id .param).1, gathered) := run_build _ state
  have reads (list : NodeId) : (Check.slots list).run.run gathered =
    .ok (.ok (gathered.tree.slots list), gathered) := rfl
  have below := Tree.mem_childIds_of_child? isReceiver
  have different : receiver ≠ id := by
    rintro rfl
    exact treelike.acyclic (.refl _) below (.refl _)
  have namelessStill : gathered.namedType? receiver = none := by
    rw [namedType?_argumentList different (treelike.inside (Tree.reaches_kid below)), nameless]
  rw [methodApply, verdict?_bind_ok (run_required_of_child? isReceiver),
    verdict?_bind_ok (run_required_of_child? isName), verdict?_bind_ok (run_textOf _ _),
    verdict?_bind_ok gathers, verdict?_bind_ok (reads _),
    verdict?_bind_ok (run_typeReceiver?_none namelessStill), applyOnValue_eq,
    verdict?_bind_ok visits, verdict?_bind_ok visitsAll]

/-- The checked arguments wait in their slots to be brought to other types. -/
theorem lists_of_methodOperands {depth : Nat} (treelike : state.tree.Treelike id)
    (single : (state.tree.tag id).isCompound = false)
    (isSealed : ∀ {position}, state.tree.Reaches id position → state.tree.Sealed position)
    (isReceiver : state.tree.child? id .recv = some receiver)
    (checks : (methodOperands (ScriptTyping.visit depth) id receiver).run.run state =
      .ok (.ok (receiverTy, slots, args), checked)) :
    ∃ list, slots = (List.range args.length).map (Slot.mk list) ∧
      checked.tree.Lists list args (List.range args.length) := by
  obtain ⟨branch, rfl, stands⟩ := Tree.treelike_iff.mp treelike
  rw [stands.holds.tag_eq] at single
  obtain ⟨same, between, visits, visitsAll⟩ := visits_of_methodOperands checks
  obtain ⟨list, kid, isList, rfl, standsList, standsKid, apart, isSealed⟩ :=
    stands.listed single (by decide) isReceiver isSealed
  obtain ⟨size, frame⟩ := visit_frame visits
  -- the visit of the receiver is over before the arguments are looked at
  have kept : ∀ position ∈ list.ids, between.tree.get position =
      (state.tree.argumentList branch.id .param).2.get position := by
    intro position inside
    refine frame position (standsList.holds.ids_bound inside) fun reaches => ?_
    exact apart inside (reaches.mem_ids standsKid.holds)
  have standsLater := standsList.frame size kept
  rw [← isList, ← Tree.slots_eq_of_get (kept list.id list.id_mem_ids)] at same
  rw [same] at visitsAll
  obtain ⟨length, lists⟩ := visitAll_lists standsLater (fun inner isInner =>
    (isSealed inner isInner).congr (kept inner.id (Branch.ids_subset isInner inner.id_mem_ids)))
    visitsAll
  rw [length]
  exact ⟨list.id, same.trans standsLater.slots_eq, lists⟩

/-! ### Members -/

section Lists

variable {holder : NodeId} {candidates : List MemberId} {receiverArgs : List Ty}
  {resolution : Resolution} (lists : checked.tree.Lists holder args (List.range args.length))

include lists

theorem run_convertArguments_of_found
    (found : (checked.environment.resolve receiverArgs candidates args).found = some resolution) :
    ∃ tree log, checked.log.Leads log ∧
      (convertArguments ((List.range args.length).map (Slot.mk holder)) resolution
        resolution.coercions).run.run checked = .ok (.ok (), { checked with tree, log }) := by
  obtain ⟨_, expected, bindings, attempted⟩ := Environment.resolve_attempted found
  have inRange : ∀ index ∈ resolution.coercions, index < args.length := by
    intro index member
    obtain ⟨arg, _, isArg, _⟩ := attempted.coerced member
    exact (List.getElem?_eq_some_iff.mp isArg).1
  have listed := lists.mono fun index member => List.mem_range.mpr (inRange index member)
  refine run_convertArguments listed attempted.nodup (fun index member => ?_)
    fun _ => attempted.coerced
  simp [inRange index member]

theorem verdict?_applyDynamic :
    let most := checked.environment.options.maxInvokeArity
    let verdict := (applyDynamic id receiver nameNode list
      ((List.range args.length).map (Slot.mk holder))).verdict? checked
    (most < args.length → verdict = some (.error (.unsupportedArity args.length most))) ∧
    (args.length ≤ most → .void ∈ args → verdict = some (.error (.typeMismatch .object .void))) ∧
    (args.length ≤ most → .void ∉ args → verdict = some (.ok .dynamic)) := by
  have length : ((List.range args.length).map (Slot.mk holder)).length = args.length := by simp
  dsimp only
  rw [applyDynamic, verdict?_bind_ok (run_environment _), length]
  dsimp only [RuntimeMember.dynamicInvoker?]
  refine ⟨fun many => ?_, fun few isVoid => ?_, fun few notVoid => ?_⟩
  · rw [if_neg (Nat.not_le.mpr many)]
    rfl
  · rw [if_pos few]
    dsimp only
    obtain ⟨index, isVoid⟩ := List.mem_iff_getElem?.mp isVoid
    have inRange := (List.getElem?_eq_some_iff.mp isVoid).1
    obtain ⟨failure, tree, log, span, ran, isError⟩ := run_coerceAll_void lists List.nodup_range
      ⟨index, List.mem_range.mpr inRange, isVoid⟩
    rw [verdict?_bind_error ran, isError]
  · rw [if_pos few]
    dsimp only
    obtain ⟨tree, log, _, ran⟩ := run_coerceAll_object lists List.nodup_range
      fun index _ isVoid => notVoid (List.mem_of_getElem? isVoid)
    rw [verdict?_bind_ok ran]
    rfl

theorem verdict?_applyChecked_some
    (found : (checked.environment.resolve receiverTy.args
      (checked.environment.members receiverTy name .method) args).found = some resolution) :
    (applyChecked id receiver nameNode list name ((List.range args.length).map (Slot.mk holder))
      receiverTy args).verdict? checked = some (.ok resolution.result) := by
  obtain ⟨tree, log, _, ran⟩ := run_convertArguments_of_found lists found
  rw [applyChecked, verdict?_bind_ok (run_environment _)]
  dsimp only
  rw [found]
  dsimp only
  rw [accept, verdict?_bind_ok ran]
  rfl

end Lists

section Nothing

variable (nothing : (checked.environment.resolve receiverTy.args
  (checked.environment.members receiverTy name .method) args).found = none)

include nothing

theorem verdict?_applyChecked_dynamic (isDynamic : receiverTy = .dynamic) :
    (applyChecked id receiver nameNode list name slots receiverTy args).verdict? checked =
      (applyDynamic id receiver nameNode list slots).verdict? checked := by
  subst isDynamic
  rw [applyChecked, verdict?_bind_ok (run_environment _)]
  dsimp only
  rw [nothing]
  rfl

theorem verdict?_applyChecked_none (static : receiverTy ≠ .dynamic) :
    let what := "method " ++ name ++ " of " ++ receiverTy.text
    let candidates := checked.environment.members receiverTy name .method
    let lines := (checked.environment.resolve receiverTy.args candidates args).rejected.map
      checked.environment.rejectionText
    let verdict :=
      (applyChecked id receiver nameNode list name slots receiverTy args).verdict? checked
    (candidates = [] → verdict = some (.error (.undefinedMember what))) ∧
    (candidates ≠ [] → verdict = some (.error (.mismatchedMember what lines)) ∧
      List.Forall₂ (fun candidate line => ∃ reason,
        checked.environment.attempt receiverTy.args args false candidate = .error reason ∧
          line = checked.environment.rejectionText ⟨candidate, reason⟩) candidates lines) := by
  intro what candidates lines verdict
  have reasons := Environment.resolve_reasons nothing
  have rejects : verdict = (reject id what (checked.environment.resolve receiverTy.args
      (checked.environment.members receiverTy name .method) args).rejected : Check Ty).verdict?
        checked := by
    change (applyChecked id receiver nameNode list name slots receiverTy args).verdict? checked = _
    rw [applyChecked, verdict?_bind_ok (run_environment _)]
    dsimp only
    rw [nothing, if_neg fun isDynamic => static (Ty.eq_dynamic_of_isDynamic isDynamic)]
  rw [rejects]
  change List.Forall₂ _ candidates _ at reasons
  subst lines
  generalize (checked.environment.resolve receiverTy.args
    (checked.environment.members receiverTy name .method) args).rejected = rejected at reasons ⊢
  cases rejected with
  | nil =>
      have empty : candidates = [] := List.forall₂_nil_right_iff.mp reasons
      exact ⟨fun _ => rfl, fun occupied => absurd empty occupied⟩
  | cons first rest =>
      refine ⟨fun empty => ?_, fun _ => ⟨rfl, List.forall₂_map_right_iff.mpr ?_⟩⟩
      · rw [empty] at reasons
        cases reasons
      · refine reasons.imp fun candidate rejection reason => ?_
        exact ⟨rejection.reason, reason.2, by rw [← reason.1]⟩

end Nothing

end Rule

/-! ### Calls -/

section Call

variable {state checked : CheckState} {id receiver nameNode : NodeId} {depth : Nat}
  {receiverTy : Ty} {slots : List Slot} {args : List Ty}

/-- The call of a method on a value, once the value and the arguments are checked, and whatever
earlier lookups left in the matcher. Where a candidate takes the arguments, converted or not, the
call has the result type of the chosen one, and the conversions can be done. Else a call on a
dynamic value fails for too many arguments or for one without a value, and only so. Else the call
fails for want of candidates, or with one line for each of them. -/
theorem visit_methodApply (treelike : state.tree.Treelike id)
    (isCall : state.tree.tag id = .methodApply) (undone : (state.tree.get id).done = false)
    (isSealed : ∀ {position}, state.tree.Reaches id position → state.tree.Sealed position)
    (isReceiver : state.tree.child? id .recv = some receiver)
    (isName : state.tree.child? id .name = some nameNode)
    (nameless : state.namedType? receiver = none)
    (checks : (Rule.methodOperands (visit depth) id receiver).run.run state =
      .ok (.ok (receiverTy, slots, args), checked)) (left : Matcher) :
    let name := state.tree.text nameNode
    let what := "method " ++ name ++ " of " ++ receiverTy.text
    let environment := checked.environment
    let most := environment.options.maxInvokeArity
    let candidates := environment.members receiverTy name .method
    let accepts (candidate : MemberId) := ∃ converting resolution,
      environment.attempt receiverTy.args args converting candidate = .ok resolution
    let lookup := (left.init (some receiverTy)).resolve environment candidates args
    let verdict := (visit (depth + 1) id).verdict? state
    ((∃ candidate ∈ candidates, accepts candidate) → ∃ resolution, lookup.1 = some resolution ∧
      (∃ tree log, checked.log.Leads log ∧
        (Check.convertArguments slots resolution resolution.coercions).run.run checked =
          .ok (.ok (), { checked with tree, log })) ∧
      verdict = some (.ok resolution.result)) ∧
    ((¬ ∃ candidate ∈ candidates, accepts candidate) → receiverTy = .dynamic →
      (most < args.length → verdict = some (.error (.unsupportedArity args.length most))) ∧
      (args.length ≤ most → .void ∈ args → verdict = some (.error (.typeMismatch .object .void))) ∧
      (args.length ≤ most → .void ∉ args → verdict = some (.ok .dynamic))) ∧
    ((¬ ∃ candidate ∈ candidates, accepts candidate) → receiverTy ≠ .dynamic →
      (candidates = [] → verdict = some (.error (.undefinedMember what))) ∧
      (candidates ≠ [] →
        verdict = some (.error (.mismatchedMember what lookup.2.rejected)) ∧
        List.Forall₂ (fun candidate line => ∃ reason,
          environment.attempt receiverTy.args args false candidate = .error reason ∧
            line = environment.rejectionText ⟨candidate, reason⟩)
          candidates lookup.2.rejected)) := by
  intro name what environment most candidates accepts lookup verdict
  have reduces : verdict = _ := (verdict?_visit undone).trans ((congrArg
    (fun tag => (Rule.ofTag (visit depth) id tag).verdict? state) isCall).trans
      (Rule.verdict?_methodApply treelike isReceiver isName nameless checks))
  obtain ⟨holder, rfl, lists⟩ :=
    Rule.lists_of_methodOperands treelike (by rw [isCall]; rfl) isSealed isReceiver checks
  have same : lookup = _ := Matcher.resolve_init left (some receiverTy)
  have isFound : lookup.1.isSome = true ↔ ∃ candidate ∈ candidates, accepts candidate := by
    rw [same]
    exact Environment.resolve_isSome_iff
  rw [← isFound, reduces, same]
  dsimp only [Option.map_some, Option.getD_some]
  cases found : (environment.resolve receiverTy.args candidates args).found with
  | some resolution =>
      refine ⟨fun _ => ⟨resolution, rfl, ?_, ?_⟩, fun misses => absurd rfl misses,
        fun misses => absurd rfl misses⟩
      · exact Rule.run_convertArguments_of_found lists found
      · exact Rule.verdict?_applyChecked_some lists found
  | none =>
      refine ⟨fun hits => (nomatch hits), fun _ isDynamic => ?_, fun _ static => ?_⟩
      · rw [Rule.verdict?_applyChecked_dynamic found isDynamic]
        exact Rule.verdict?_applyDynamic lists
      · exact Rule.verdict?_applyChecked_none found static

end Call

def StoredNode.padding : StoredNode :=
  mk none .methodApply none .nowhere [
    mk (some .recv) .text (some "text") .nowhere [],
    mk (some .name) .name (some "pad") .nowhere [],
    mk (some .param) .list none .nowhere [mk none .trueValue none .nowhere []]]

def Environment.padding : Environment where
  registry := { members := #[
    { owner := "String", name := "pad", kind := .method, params := [.int], result := .string },
    { owner := "String", name := "pad", kind := .method, params := [.int, .string],
      result := .string }] }

/-- Neither method takes the truth value, which is said of both, and nothing else is. -/
theorem visit_methodApply_padding :
    let state : CheckState := { tree := .ofStored none .padding, environment := .padding }
    let left : Matcher := ⟨[.int], ["left over"]⟩
    ∃ lines, (visit 2 0).verdict? state =
        some (.error (.mismatchedMember "method pad of String" lines)) ∧
      lines.length = 2 ∧
      lines = ((left.init (some .string)).resolve .padding [0, 1] [.bool]).2.rejected := by
  intro state left
  obtain ⟨branch, isRoot, stands, _, blank, _⟩ := Tree.ofStored_stands none .padding
  have isTop : 0 = branch.id := Option.some.inj isRoot
  have treelike : state.tree.Treelike 0 := by
    rw [isTop]
    exact stands.treelike
  have isSealed : ∀ {position}, state.tree.Reaches 0 position → state.tree.Sealed position := by
    rw [isTop]
    exact stands.holds.isSealed blank
  have isReceiver : state.tree.child? 0 .recv = some 1 := by rfl
  have isName : state.tree.child? 0 .name = some 2 := by rfl
  obtain ⟨checked, checks, same⟩ : ∃ checked,
      (Rule.methodOperands (visit 1) 0 1).run.run state =
        .ok (.ok (.string, [⟨3, 0⟩], [.bool]), checked) ∧ checked.environment = .padding :=
    ⟨_, by rfl, by rfl⟩
  have name : state.tree.text 2 = "pad" := by rfl
  have candidates : Environment.padding.members .string "pad" .method = [0, 1] := by decide
  have misses : (Environment.padding.resolve [] [0, 1] [.bool]).found.isSome = false := by decide
  obtain ⟨_, _, mismatched⟩ := visit_methodApply treelike rfl rfl isSealed isReceiver isName
    (by rfl) checks left
  rw [same, name, candidates] at mismatched
  rw [← Bool.not_eq_true, Environment.resolve_isSome_iff] at misses
  obtain ⟨_, mismatched⟩ := mismatched misses nofun
  obtain ⟨fails, lines⟩ := mismatched nofun
  exact ⟨_, fails, lines.length_eq.symm, rfl⟩

end ScriptTyping
