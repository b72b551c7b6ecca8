import ScriptTyping.Proofs.Overload.Fit

/-!
What a resolution says about its arguments. A converted argument can be brought to its parameter
type. An argument that is left as it is meets its parameter type position by position, but it is
assignable to it only where the position by position test asks no less than assignability does.
-/

namespace ScriptTyping

namespace Environment

variable {environment : Environment}

/-! ### Fitting all arguments -/

structure FittedArgs (environment : Environment) (converting : Bool) (index : Nat)
    (pairs : List (Ty × Ty)) (before : Bindings) (positions : List Nat) (after : Bindings) :
    Prop where
  later : before.Extends after
  ground : before.Ground → (∀ pair ∈ pairs, pair.2.hasVar = false) → after.Ground
  converts : positions ≠ [] → converting = true
  inside : ∀ position ∈ positions, index ≤ position ∧ position < index + pairs.length
  nodup : positions.Nodup
  coerced : ∀ (offset : Nat) (pair : Ty × Ty), pairs[offset]? = some pair →
    index + offset ∈ positions → environment.canCoerce pair.2 (after.finish pair.1) = true
  accepted : ∀ (offset : Nat) (pair : Ty × Ty), pairs[offset]? = some pair →
    index + offset ∉ positions → environment.Accepts after pair.1 pair.2

/-- An argument that fits goes in front of the others. -/
theorem FittedArgs.consFit {converting : Bool} {index : Nat} {param arg : Ty}
    {rest : List (Ty × Ty)} {before between after : Bindings} {positions : List Nat}
    (first : environment.Fitted before param arg (true, between))
    (others : environment.FittedArgs converting (index + 1) rest between positions after) :
    environment.FittedArgs converting index ((param, arg) :: rest) before positions after := by
  refine ⟨first.later.trans others.later, ?_, others.converts, ?_, others.nodup, ?_, ?_⟩
  · intro ground plain
    exact others.ground (first.ground ground (plain _ List.mem_cons_self))
      fun pair member => plain pair (List.mem_cons_of_mem _ member)
  · intro position member
    have bounds := others.inside position member
    simp only [List.length_cons]
    omega
  · intro offset pair found member
    cases offset with
    | zero =>
        have bounds := others.inside _ member
        omega
    | succ offset =>
        refine others.coerced offset pair (by simpa using found) ?_
        rwa [show index + 1 + offset = index + (offset + 1) by omega]
  · intro offset pair found absent
    cases offset with
    | zero =>
        simp only [List.getElem?_cons_zero, Option.some.injEq] at found
        subst found
        exact (first.accepted rfl).mono others.later
    | succ offset =>
        refine others.accepted offset pair (by simpa using found) ?_
        rwa [show index + 1 + offset = index + (offset + 1) by omega]

/-- An argument that has to be converted goes in front of the others. -/
theorem FittedArgs.consCoerce {index : Nat} {param arg : Ty} {rest : List (Ty × Ty)}
    {before between after : Bindings} {positions : List Nat}
    (first : environment.Fitted before param arg (false, between))
    (plainParam : (between.instantiate param).hasVar = false)
    (coerces : environment.canCoerce arg (between.instantiate param) = true)
    (others : environment.FittedArgs true (index + 1) rest between positions after) :
    environment.FittedArgs true index ((param, arg) :: rest) before (index :: positions) after := by
  refine ⟨first.later.trans others.later, ?_, fun _ => rfl, ?_, ?_, ?_, ?_⟩
  · intro ground plain
    exact others.ground (first.ground ground (plain _ List.mem_cons_self))
      fun pair member => plain pair (List.mem_cons_of_mem _ member)
  · intro position member
    simp only [List.length_cons]
    rcases List.mem_cons.mp member with same | member
    · omega
    · have bounds := others.inside position member
      omega
  · refine List.nodup_cons.mpr ⟨fun member => ?_, others.nodup⟩
    have bounds := others.inside index member
    omega
  · intro offset pair found member
    cases offset with
    | zero =>
        simp only [List.getElem?_cons_zero, Option.some.injEq] at found
        subst found
        rwa [Bindings.finish_eq_instantiate others.later plainParam]
    | succ offset =>
        refine others.coerced offset pair (by simpa using found) ?_
        rcases List.mem_cons.mp member with same | member
        · omega
        · rwa [show index + 1 + offset = index + (offset + 1) by omega]
  · intro offset pair found absent
    cases offset with
    | zero => simp at absent
    | succ offset =>
        refine others.accepted offset pair (by simpa using found) ?_
        rw [show index + 1 + offset = index + (offset + 1) by omega]
        exact fun member => absent (List.mem_cons_of_mem _ member)

theorem fitArgs_fitted {converting : Bool} {index : Nat} {pairs : List (Ty × Ty)}
    {before after : Bindings} {positions : List Nat}
    (fits : environment.fitArgs converting index pairs before = .ok (positions, after)) :
    environment.FittedArgs converting index pairs before positions after := by
  induction pairs generalizing index before positions with
  | nil =>
      simp only [fitArgs, Except.ok.injEq, Prod.mk.injEq] at fits
      obtain ⟨rfl, rfl⟩ := fits
      exact ⟨.refl before, fun ground _ => ground, fun none => absurd rfl none,
        fun _ member => by simp at member, List.nodup_nil, fun _ _ found => by simp at found,
        fun _ _ found => by simp at found⟩
  | cons pair rest ih =>
      obtain ⟨param, arg⟩ := pair
      have first : environment.Fitted before param arg _ := fit_fitted before param arg
      simp only [fitArgs] at fits
      split at fits
      · rename_i between fit
        rw [fit] at first
        exact .consFit first (ih fits)
      · rename_i between misfit
        rw [misfit] at first
        split at fits
        · rename_i usable
          simp only [Bool.and_eq_true, Bool.not_eq_true'] at usable
          obtain ⟨⟨rfl, plainParam⟩, coerces⟩ := usable
          cases others : environment.fitArgs true (index + 1) rest between with
          | error error => simp [others, bind, Except.bind] at fits
          | ok answer =>
              simp only [others, bind, Except.bind, Except.ok.injEq, Prod.mk.injEq] at fits
              obtain ⟨rfl, rfl⟩ := fits
              exact .consCoerce first plainParam coerces (ih others)
        · simp at fits

/-! ### Left as it is -/

theorem finish_applied (bindings : Bindings) (head : TyName) (params : List Ty) :
    bindings.finish (.applied head params) = .applied head (params.map bindings.finish) := by
  simp only [Bindings.finish, Bindings.instantiate, Ty.close, Ty.substitute,
    Ty.substituteAll_eq_map, List.map_map, Function.comp_def]
  rfl

theorem finish_fn (bindings : Bindings) (params : List Ty) (result : Ty) :
    bindings.finish (.fn params result) =
      .fn (params.map bindings.finish) (bindings.finish result) := by
  simp only [Bindings.finish, Bindings.instantiate, Ty.close, Ty.substitute,
    Ty.substituteAll_eq_map, List.map_map, Function.comp_def]
  rfl

theorem isAssignable_applied {head argHead : TyName} {params args : List Ty}
    (heads : head.name = argHead.name) :
    environment.isAssignable (.applied head params) (.applied argHead args) =
      (Ty.applied head params == .applied argHead args) := by
  have host : environment.isAssignableHost (.applied head params) (.applied argHead args) =
      (params == args) := by
    simp only [isAssignableHost, Ty.headName?, heads, if_true, Ty.args]
  have same : (Ty.applied head params == .applied argHead args) = (params == args) := by
    rw [Bool.eq_iff_iff, Ty.beq_iff_bare, Ty.beqAll_iff_bare]
    simp only [Ty.bare, heads, Ty.applied.injEq, true_and]
  simp only [isAssignable, Ty.isNever, Bool.or_false, host, same, Bool.or_self]

theorem isAssignable_fn (params argParams : List Ty) (result argResult : Ty) :
    environment.isAssignable (.fn params result) (.fn argParams argResult) =
      (Ty.fn params result == .fn argParams argResult) := by
  simp only [isAssignable, Ty.isNever, Bool.or_false, isAssignableHost, Ty.headName?]

/-- Where the position by position test says as much as assignability to the whole parameter. -/
theorem Accepts.isAssignable_iff {bindings : Bindings} (ground : bindings.Ground) {param arg : Ty}
    (accepts : environment.Accepts bindings param arg) :
    environment.isAssignable (bindings.finish param) arg = true ↔
      param.hasVar = false ∨ (∃ index, param = .var index) ∨ arg.isNever = true ∨
        (bindings.finish param == arg) = true := by
  cases accepts with
  | never => simp [Ty.isNever]
  | assignable plain assignable => simp [bindings.finish_of_ground plain, plain, assignable]
  | var bound same =>
      have assignable : environment.isAssignable _ _ = true := isAssignable_of_beq same
      simp [Bindings.finish_var ground bound, assignable]
  | applied varies heads lengths inner =>
      rw [finish_applied, isAssignable_applied heads]
      simp [Ty.hasVar, varies, Ty.isNever]
  | fn varies lengths inner result =>
      rw [finish_fn, isAssignable_fn]
      simp [varies, Ty.isNever]

/-- A parameter without variables accepts what is assignable to it. -/
theorem Accepts.isAssignable {bindings : Bindings} {param arg : Ty} (plain : param.hasVar = false)
    (accepts : environment.Accepts bindings param arg) :
    environment.isAssignable param arg = true := by
  cases accepts with
  | never => exact isAssignable_never environment param
  | assignable _ assignable => exact assignable
  | var => simp [Ty.hasVar] at plain
  | applied varies => simp [Ty.hasVar, varies] at plain
  | fn varies => simp [varies] at plain

inductive Covers (environment : Environment) : Ty → Ty → Prop where
  | assignable {param arg : Ty} : environment.isAssignable param arg = true →
      Covers environment param arg
  | applied {head argHead : TyName} {params args : List Ty} : head.name = argHead.name →
      params.length = args.length →
      (∀ pair ∈ params.zip args, Covers environment pair.1 pair.2) →
      Covers environment (.applied head params) (.applied argHead args)
  | fn {params argParams : List Ty} {result argResult : Ty} : params.length = argParams.length →
      (∀ pair ∈ params.zip argParams, Covers environment pair.1 pair.2) →
      Covers environment result argResult →
      Covers environment (.fn params result) (.fn argParams argResult)

theorem Accepts.covers {bindings : Bindings} (ground : bindings.Ground) {param arg : Ty}
    (accepts : environment.Accepts bindings param arg) :
    environment.Covers (bindings.finish param) arg := by
  have inside : ∀ params args : List Ty, (∀ pair ∈ params.zip args,
      environment.Covers (bindings.finish pair.1) pair.2) →
      ∀ pair ∈ (params.map bindings.finish).zip args, environment.Covers pair.1 pair.2 := by
    intro params args inner pair member
    rw [List.zip_map_left] at member
    obtain ⟨before, origin, rfl⟩ := List.mem_map.mp member
    exact inner before origin
  induction accepts with
  | never => exact .assignable (isAssignable_never environment _)
  | assignable plain assignable =>
      rw [bindings.finish_of_ground plain]
      exact .assignable assignable
  | var bound same =>
      rw [Bindings.finish_var ground bound]
      exact .assignable (isAssignable_of_beq same)
  | applied varies heads lengths _ ih =>
      rw [finish_applied]
      exact .applied heads (by simpa using lengths) (inside _ _ ih)
  | fn varies lengths _ _ ihParams ihResult =>
      rw [finish_fn]
      exact .fn (by simpa using lengths) (inside _ _ ihParams) ihResult

/-! ### One candidate -/

theorem length_expand {member : Member} {count : Nat} {expected : List Ty}
    (expands : member.expand count = .ok expected) : expected.length = count := by
  unfold Member.expand at expands
  split at expands
  · simp only at expands
    split at expands
    · simp at expands
    · simp only [Except.ok.injEq] at expands
      subst expands
      simp only [List.length_append, List.length_take, List.length_replicate, Member.arity] at *
      omega
  · split at expands
    · rename_i count_eq
      simp only [Except.ok.injEq] at expands
      rw [← expands, count_eq, Member.arity]
    · simp at expands

theorem receiverBindings_ground (member : Member) {receiver : List Ty}
    (plain : ∀ ty ∈ receiver, ty.hasVar = false) : (member.receiverBindings receiver).Ground := by
  intro index ty bound
  simp only [Member.receiverBindings, List.getElem?_map, Option.map_eq_some_iff] at bound
  obtain ⟨position, _, found⟩ := bound
  split at found
  · exact plain ty (List.mem_of_getElem? found)
  · simp at found

structure Attempted (environment : Environment) (receiver args : List Ty) (resolution : Resolution)
    (expected : List Ty) (bindings : Bindings) : Prop where
  expands : (environment.registry.member resolution.member).expand args.length = .ok expected
  params : resolution.params = expected.map bindings.finish
  result : resolution.result =
    bindings.finish (environment.registry.member resolution.member).result
  typeArgs : resolution.typeArgs =
    (List.range (environment.registry.member resolution.member).vars.length).map
      fun index => bindings.finish (.var index)
  fitted : ∃ converting, environment.FittedArgs converting 0 (expected.zip args)
    ((environment.registry.member resolution.member).receiverBindings receiver)
    resolution.coercions bindings

theorem attempt_attempted {receiver args : List Ty} {converting : Bool} {id : MemberId}
    {resolution : Resolution}
    (chosen : environment.attempt receiver args converting id = .ok resolution) :
    resolution.member = id ∧
      ∃ expected bindings, environment.Attempted receiver args resolution expected bindings := by
  simp only [attempt, bind, Except.bind] at chosen
  cases expands : (environment.registry.member id).expand args.length with
  | error mismatch => simp [expands] at chosen
  | ok expected =>
      simp only [expands] at chosen
      cases fits : environment.fitArgs converting 0 (expected.zip args)
          ((environment.registry.member id).receiverBindings receiver) with
      | error mismatch => simp [fits] at chosen
      | ok answer =>
          simp only [fits, Except.ok.injEq] at chosen
          subst chosen
          exact ⟨rfl, expected, answer.2, expands, rfl, rfl, rfl, converting, fitArgs_fitted fits⟩

theorem firstMatch_attempt {receiver args : List Ty} {converting : Bool}
    {candidates : List MemberId} {resolution : Resolution}
    (found : (environment.firstMatch receiver args converting candidates).found =
      some resolution) :
    ∃ id ∈ candidates, environment.attempt receiver args converting id = .ok resolution := by
  induction candidates with
  | nil => simp [firstMatch] at found
  | cons id rest ih =>
      simp only [firstMatch] at found
      split at found
      · rename_i chosen attempted
        simp only [Option.some.injEq] at found
        subst found
        exact ⟨id, List.mem_cons_self, attempted⟩
      · obtain ⟨later, member, attempted⟩ := ih found
        exact ⟨later, List.mem_cons_of_mem _ member, attempted⟩

theorem resolve_firstMatch {receiver args : List Ty} {candidates : List MemberId}
    {resolution : Resolution}
    (found : (environment.resolve receiver candidates args).found = some resolution) :
    ∃ converting, (environment.firstMatch receiver args converting candidates).found =
      some resolution := by
  simp only [resolve] at found
  split at found
  · exact ⟨false, found⟩
  · split at found
    · rename_i converted
      exact ⟨true, converted.trans found⟩
    · exact ⟨false, found⟩

theorem resolve_attempted {receiver args : List Ty} {candidates : List MemberId}
    {resolution : Resolution}
    (found : (environment.resolve receiver candidates args).found = some resolution) :
    resolution.member ∈ candidates ∧
      ∃ expected bindings, environment.Attempted receiver args resolution expected bindings := by
  obtain ⟨converting, first⟩ := resolve_firstMatch found
  obtain ⟨id, member, attempted⟩ := firstMatch_attempt first
  obtain ⟨same, rest⟩ := attempt_attempted attempted
  exact ⟨same ▸ member, rest⟩

/-! ### The choice -/

section Choice

variable {receiver args expected : List Ty} {resolution : Resolution} {bindings : Bindings}

theorem Attempted.length_params
    (attempted : environment.Attempted receiver args resolution expected bindings) :
    resolution.params.length = args.length := by
  rw [attempted.params, List.length_map, length_expand attempted.expands]

theorem Attempted.length_zip
    (attempted : environment.Attempted receiver args resolution expected bindings) :
    (expected.zip args).length = args.length := by
  rw [List.length_zip, length_expand attempted.expands, Nat.min_self]

theorem Attempted.ground
    (attempted : environment.Attempted receiver args resolution expected bindings)
    (receiverPlain : ∀ ty ∈ receiver, ty.hasVar = false)
    (argsPlain : ∀ ty ∈ args, ty.hasVar = false) : bindings.Ground := by
  obtain ⟨converting, fitted⟩ := attempted.fitted
  refine fitted.ground (receiverBindings_ground _ receiverPlain) ?_
  intro pair member
  exact argsPlain _ (List.of_mem_zip member).2

/-- A converted argument flows into its parameter type. -/
theorem Attempted.coerced
    (attempted : environment.Attempted receiver args resolution expected bindings) {index : Nat}
    (member : index ∈ resolution.coercions) :
    ∃ arg param, args[index]? = some arg ∧ resolution.params[index]? = some param ∧
      environment.canCoerce arg param = true := by
  obtain ⟨converting, fitted⟩ := attempted.fitted
  have inside := (fitted.inside index member).2
  rw [attempted.length_zip, Nat.zero_add] at inside
  have length := length_expand attempted.expands
  have pattern : expected[index]? = some expected[index] := List.getElem?_eq_getElem (by omega)
  have arg : args[index]? = some args[index] := List.getElem?_eq_getElem inside
  refine ⟨args[index], bindings.finish expected[index], arg, ?_, ?_⟩
  · rw [attempted.params, List.getElem?_map, pattern, Option.map_some]
  · refine fitted.coerced index (expected[index], args[index]) ?_ (by simpa using member)
    rw [List.getElem?_zip_eq_some]
    exact ⟨pattern, arg⟩

theorem Attempted.nodup
    (attempted : environment.Attempted receiver args resolution expected bindings) :
    resolution.coercions.Nodup := by
  obtain ⟨converting, fitted⟩ := attempted.fitted
  exact fitted.nodup

/-- An argument that is left as it is was accepted. -/
theorem Attempted.accepted
    (attempted : environment.Attempted receiver args resolution expected bindings) {index : Nat}
    {pattern arg : Ty} (isPattern : expected[index]? = some pattern)
    (isArg : args[index]? = some arg) (absent : index ∉ resolution.coercions) :
    environment.Accepts bindings pattern arg := by
  obtain ⟨converting, fitted⟩ := attempted.fitted
  refine fitted.accepted index (pattern, arg) ?_ (by simpa using absent)
  rw [List.getElem?_zip_eq_some]
  exact ⟨isPattern, isArg⟩

/-! ### A signature without variables -/

section Plain

variable (attempted : environment.Attempted receiver args resolution expected bindings)
  (fixed : (environment.registry.member resolution.member).isVariadic = false)
  (plain : ∀ ty ∈ (environment.registry.member resolution.member).params, ty.hasVar = false)

include attempted fixed

theorem Attempted.expected_eq :
    expected = (environment.registry.member resolution.member).params := by
  have expands := attempted.expands
  simp only [Member.expand, Member.variadicElement?, fixed, if_false, Bool.false_eq_true] at expands
  split at expands
  · simpa using expands.symm
  · simp at expands

include plain

theorem Attempted.params_eq :
    resolution.params = (environment.registry.member resolution.member).params := by
  rw [attempted.params, attempted.expected_eq fixed]
  have same : ∀ ty ∈ (environment.registry.member resolution.member).params,
      bindings.finish ty = id ty := fun ty member => bindings.finish_of_ground (plain ty member)
  rw [List.map_congr_left same, List.map_id]

theorem Attempted.isAssignable {index : Nat} {arg param : Ty} (isArg : args[index]? = some arg)
    (isParam : resolution.params[index]? = some param) (absent : index ∉ resolution.coercions) :
    environment.isAssignable param arg = true := by
  rw [attempted.params_eq fixed plain] at isParam
  have isPattern := isParam
  rw [← attempted.expected_eq fixed] at isPattern
  exact (attempted.accepted isPattern isArg absent).isAssignable
    (plain param (List.mem_of_getElem? isParam))

end Plain

end Choice

/-- A chosen member has one parameter type for each argument. A converted argument flows into its
parameter type. An argument that is left as it is meets its parameter type position by position,
and is assignable to it unless the declared parameter has a variable inside a head and the types
differ. -/
theorem resolve_covers {receiver args : List Ty} {candidates : List MemberId}
    {resolution : Resolution} (receiverPlain : ∀ ty ∈ receiver, ty.hasVar = false)
    (argsPlain : ∀ ty ∈ args, ty.hasVar = false)
    (found : (environment.resolve receiver candidates args).found = some resolution) :
    ∃ expected,
      (environment.registry.member resolution.member).expand args.length = .ok expected ∧
      resolution.params.length = args.length ∧
      (∀ index ∈ resolution.coercions, ∃ arg param, args[index]? = some arg ∧
        resolution.params[index]? = some param ∧ environment.canCoerce arg param = true) ∧
      ∀ index pattern arg param, expected[index]? = some pattern → args[index]? = some arg →
        resolution.params[index]? = some param → index ∉ resolution.coercions →
        environment.Covers param arg ∧
          (environment.isAssignable param arg = true ↔
            pattern.hasVar = false ∨ (∃ position, pattern = .var position) ∨ arg.isNever = true ∨
              (param == arg) = true) := by
  obtain ⟨_, expected, bindings, attempted⟩ := resolve_attempted found
  have ground := attempted.ground receiverPlain argsPlain
  refine ⟨expected, attempted.expands, attempted.length_params, fun _ => attempted.coerced, ?_⟩
  intro index pattern arg param isPattern isArg isParam absent
  have accepts := attempted.accepted isPattern isArg absent
  have finished : bindings.finish pattern = param := by
    rw [attempted.params, List.getElem?_map, isPattern] at isParam
    simpa using isParam
  rw [← finished]
  exact ⟨accepts.covers ground, accepts.isAssignable_iff ground⟩

def pairTaker : Member where
  owner := "pairs"
  name := "take"
  kind := .function
  params := [.generic "Pair" [.var 0, .object]]
  result := .void
  vars := ["T"]

def pairs : Environment where
  registry := { members := #[pairTaker] }

/-- The fixed part of the pair takes a `String` for an `Object`, which assignability does not. -/
theorem resolve_covers_pair :
    ∃ resolution param arg, (pairs.resolve [] [0] [arg]).found = some resolution ∧
      resolution.coercions = [] ∧ resolution.params[0]? = some param ∧
      pairs.Covers param arg ∧ pairs.isAssignable param arg = false := by
  let arg := Ty.generic "Pair" [.int, .string]
  let param := Ty.generic "Pair" [.int, .object]
  let resolution : Resolution :=
    { member := 0, typeArgs := [.int], params := [param], result := .void, coercions := [] }
  have found : (pairs.resolve [] [0] [arg]).found = some resolution := by rfl
  obtain ⟨expected, expands, _, _, left⟩ :=
    resolve_covers (by simp) (by decide) found
  obtain ⟨pattern, rest⟩ := List.length_eq_one_iff.mp (length_expand expands)
  have covers := left 0 pattern arg param (by rw [rest]; rfl) rfl rfl (by simp [resolution])
  exact ⟨resolution, param, arg, found, rfl, rfl, covers.1, by decide⟩

end Environment

end ScriptTyping
