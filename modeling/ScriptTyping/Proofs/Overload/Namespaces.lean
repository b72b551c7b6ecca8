import ScriptTyping.Proofs.Environment.Conversion
import ScriptTyping.Proofs.Overload.Resolution
import ScriptTyping.Proofs.Plain.Types
import ScriptTyping.Ty.Operand

/-!
Namespaces of types do not influence what is accepted. A question about types has the answer that
it has for the bare types, and a lookup of a member chooses the same member in the same way. What a
lookup says may carry the namespaces of its arguments, so its results agree up to namespaces.
-/

namespace ScriptTyping

namespace Ty

theorem bareAll_eq_map (types : List Ty) : bareAll types = types.map bare := by
  induction types with
  | nil => rfl
  | cons ty types ih => simp [bareAll, ih]

mutual

theorem bare_substitute (binding : Nat → Option Ty) :
    (ty : Ty) → (ty.substitute binding).bare = ty.bare.substitute fun index =>
      (binding index).map bare
  | var index => by cases bound : binding index <;> simp [substitute, bare, bound]
  | prim _ => rfl
  | named _ => rfl
  | applied _ args => by simp only [substitute, bare, bareAll_substituteAll binding args]
  | fn params result => by
    simp only [substitute, bare, bareAll_substituteAll binding params,
      bare_substitute binding result]
  | void => rfl
  | object => rfl
  | dynamic => rfl
  | never => rfl

theorem bareAll_substituteAll (binding : Nat → Option Ty) :
    (types : List Ty) → bareAll (substituteAll binding types) =
      substituteAll (fun index => (binding index).map bare) (bareAll types)
  | [] => rfl
  | ty :: types => by
    simp only [substituteAll, bareAll, bare_substitute binding ty,
      bareAll_substituteAll binding types]

end

/-- It makes no difference up to namespaces whether the types that are put in have any. -/
theorem bare_substitute_map (binding : Nat → Option Ty) (ty : Ty) :
    (ty.substitute fun index => (binding index).map bare).bare = (ty.substitute binding).bare := by
  rw [bare_substitute, bare_substitute]
  congr 1
  funext index
  cases binding index <;> simp

theorem bare_close (ty : Ty) : ty.close.bare = ty.bare.close := bare_substitute _ ty

theorem prim?_bare (ty : Ty) : ty.bare.prim? = ty.prim? := by cases ty <;> rfl

theorem isString_bare (ty : Ty) : ty.bare.isString = ty.isString := by cases ty <;> rfl

theorem isReference_bare (ty : Ty) : ty.bare.isReference = ty.isReference := by cases ty <;> rfl

end Ty

theorem OperatorClass.join?_bare (operatorClass : OperatorClass) (left right : Ty) :
    (operatorClass.join? left.bare right.bare).map Ty.bare =
      (operatorClass.join? left right).map Ty.bare := by
  cases operatorClass with
  | additive => simp only [join?, joinNumeric?, Ty.isString_bare, Ty.prim?_bare]
  | comparator => simp only [join?, joinNumeric?, Ty.prim?_bare]
  | bitwise => simp only [join?, Ty.prim?_bare]
  | equator =>
      simp only [join?, joinNumeric?, Ty.isReference_bare, Ty.prim?_bare, Environment.beq_bare]
      split
      · rfl
      · rfl
      · split
        · split <;> simp [Ty.bare]
        · rfl

/-! ### Lookups without namespaces -/

def Mismatch.bare : Mismatch → Mismatch
  | argument number expected found => argument number expected.bare found.bare
  | mismatch => mismatch

def Resolution.bare (resolution : Resolution) : Resolution :=
  { resolution with
    typeArgs := Ty.bareAll resolution.typeArgs
    params := Ty.bareAll resolution.params
    result := resolution.result.bare }

def Rejection.bare (rejection : Rejection) : Rejection :=
  { rejection with reason := rejection.reason.bare }

def Lookup.bare (lookup : Lookup) : Lookup where
  found := lookup.found.map Resolution.bare
  rejected := lookup.rejected.map Rejection.bare

namespace Bindings

def bare (bindings : Bindings) : Bindings := bindings.map (Option.map Ty.bare)

@[simp]
theorem bare_bare (bindings : Bindings) : bindings.bare.bare = bindings.bare := by
  rw [bare, bare, List.map_map]
  apply List.map_congr_left
  intro known _
  cases known <;> simp

theorem get?_bare (bindings : Bindings) (index : Nat) :
    bindings.bare.get? index = (bindings.get? index).map Ty.bare := by
  rw [get?, bare, List.getElem?_map, get?]
  cases bindings[index]? <;> rfl

theorem bare_instantiate (bindings : Bindings) (ty : Ty) :
    (bindings.bare.instantiate ty).bare = (bindings.instantiate ty).bare := by
  have known : bindings.bare.get? = fun index => (bindings.get? index).map Ty.bare :=
    funext bindings.get?_bare
  rw [instantiate, instantiate, known, Ty.bare_substitute_map]

theorem hasVar_instantiate (bindings : Bindings) (ty : Ty) :
    (bindings.bare.instantiate ty).hasVar = (bindings.instantiate ty).hasVar := by
  rw [← Ty.hasVar_bare, bare_instantiate, Ty.hasVar_bare]

theorem bare_finish (bindings : Bindings) (ty : Ty) :
    (bindings.bare.finish ty).bare = (bindings.finish ty).bare := by
  rw [finish, finish, Ty.bare_close, Ty.bare_close, bare_instantiate]

theorem bareAll_finish (bindings : Bindings) (types : List Ty) :
    Ty.bareAll (types.map bindings.bare.finish) = Ty.bareAll (types.map bindings.finish) := by
  rw [Ty.bareAll_eq_map, Ty.bareAll_eq_map, List.map_map, List.map_map]
  exact List.map_congr_left fun ty _ => bindings.bare_finish ty

end Bindings

theorem Member.receiverBindings_bare (member : Member) (receiver : List Ty) :
    member.receiverBindings (Ty.bareAll receiver) = (member.receiverBindings receiver).bare := by
  rw [receiverBindings, receiverBindings, Bindings.bare, List.map_map, Ty.bareAll_eq_map]
  apply List.map_congr_left
  intro index _
  rw [Function.comp_apply]
  split
  · rw [List.getElem?_map]
  · rfl

namespace Environment

variable {environment : Environment}

/-! ### Fitting -/

theorem isAssignable_bare_source (environment : Environment) (target source : Ty) :
    environment.isAssignable target source.bare = environment.isAssignable target source :=
  isAssignable_congr BEq.rfl (Ty.bare_beq source)

def bareAnswer (answer : Bool × Bindings) : Bool × Bindings := (answer.1, answer.2.bare)

theorem fit_var_bare (bindings : Bindings) (index : Nat) (arg : Ty) :
    environment.fit bindings.bare (.var index) arg.bare =
      bareAnswer (environment.fit bindings (.var index) arg) := by
  have known : bindings.bare[index]? = (bindings[index]?).map (Option.map Ty.bare) :=
    List.getElem?_map
  simp only [fit, known, Ty.isNever_bare]
  cases bindings[index]? with
  | none => rfl
  | some bound =>
      cases bound with
      | some bound => simp only [Option.map_some, beq_bare, bareAnswer]
      | none =>
          simp only [Option.map_some, Option.map_none, bareAnswer]
          split
          · rfl
          · rw [Bindings.bare, Bindings.bare, List.map_set, Option.map_some]

mutual

theorem fit_bare (bindings : Bindings) :
    (param arg : Ty) → environment.fit bindings.bare param arg.bare =
      bareAnswer (environment.fit bindings param arg)
  | .var index, arg => fit_var_bare bindings index arg
  | .applied head params, arg => by
    simp only [fit, isAssignable_bare_source]
    split
    · cases arg with
      | applied argHead args =>
          have lengths : (Ty.bareAll args).length = args.length := by
            rw [Ty.bareAll_eq_map, List.length_map]
          simp only [Ty.bare, lengths, fitAll_bare bindings params args]
          split <;> rfl
      | _ => rfl
    · rfl
  | .fn params result, arg => by
    simp only [fit, isAssignable_bare_source]
    split
    · cases arg with
      | fn argParams argResult =>
          have lengths : (Ty.bareAll argParams).length = argParams.length := by
            rw [Ty.bareAll_eq_map, List.length_map]
          simp only [Ty.bare, lengths, fitAll_bare bindings params argParams]
          split
          · cases environment.fitAll bindings params argParams with
            | mk fits between =>
                cases fits with
                | true => exact fit_bare between result argResult
                | false => rfl
          · rfl
      | _ => rfl
    · rfl
  | .prim _, arg => by simp only [fit, isAssignable_bare_source, bareAnswer]
  | .named _, arg => by simp only [fit, isAssignable_bare_source, bareAnswer]
  | .void, arg => by simp only [fit, isAssignable_bare_source, bareAnswer]
  | .object, arg => by simp only [fit, isAssignable_bare_source, bareAnswer]
  | .dynamic, arg => by simp only [fit, isAssignable_bare_source, bareAnswer]
  | .never, arg => by simp only [fit, isAssignable_bare_source, bareAnswer]

theorem fitAll_bare (bindings : Bindings) :
    (params args : List Ty) → environment.fitAll bindings.bare params (Ty.bareAll args) =
      bareAnswer (environment.fitAll bindings params args)
  | [], args => by simp only [fitAll, bareAnswer]
  | param :: params, [] => by simp only [fitAll, Ty.bareAll, bareAnswer]
  | param :: params, arg :: args => by
    simp only [fitAll, Ty.bareAll, fit_bare bindings param arg]
    cases environment.fit bindings param arg with
    | mk fits between =>
        cases fits with
        | true => exact fitAll_bare between params args
        | false => rfl

end

theorem canCoerce_instantiate (environment : Environment) (bindings : Bindings) (param arg : Ty) :
    environment.canCoerce arg.bare (bindings.bare.instantiate param) =
      environment.canCoerce arg (bindings.instantiate param) := by
  rw [← canCoerce_bare, Ty.bare_bare, Bindings.bare_instantiate, canCoerce_bare]

def bareFitted : Except Mismatch (List Nat × Bindings) → Except Mismatch (List Nat × Bindings)
  | .ok (positions, bindings) => .ok (positions, bindings.bare)
  | .error mismatch => .error mismatch.bare

theorem bareFitted_cons {left right : Except Mismatch (List Nat × Bindings)}
    (same : bareFitted left = bareFitted right) (index : Nat) :
    bareFitted (do let (positions, bindings) ← left; .ok (index :: positions, bindings)) =
      bareFitted (do let (positions, bindings) ← right; .ok (index :: positions, bindings)) := by
  cases left with
  | error mismatch =>
      cases right with
      | error other => exact same
      | ok answer => cases same
  | ok answer =>
      cases right with
      | error other => cases same
      | ok other =>
          have parts := Prod.mk.inj (Except.ok.inj same)
          exact congrArg Except.ok (Prod.ext (congrArg (index :: ·) parts.1) parts.2)

theorem fitArgs_bare {converting : Bool} {index : Nat} {pairs : List (Ty × Ty)}
    {bindings : Bindings} :
    bareFitted (environment.fitArgs converting index
        (pairs.map fun pair => (pair.1, pair.2.bare)) bindings.bare) =
      bareFitted (environment.fitArgs converting index pairs bindings) := by
  induction pairs generalizing index bindings with
  | nil => simp only [List.map_nil, fitArgs, bareFitted, Bindings.bare_bare]
  | cons pair rest ih =>
      obtain ⟨param, arg⟩ := pair
      rw [List.map_cons, fitArgs, fitArgs, fit_bare]
      cases environment.fit bindings param arg with
      | mk fits between =>
          cases fits with
          | true => exact ih
          | false =>
              simp only [bareAnswer, Bindings.hasVar_instantiate, canCoerce_instantiate]
              split
              · exact bareFitted_cons ih index
              · simp only [bareFitted, Mismatch.bare, Bindings.bare_instantiate, Ty.bare_bare]

/-! ### Choosing a member -/

def bareAttempt : Except Mismatch Resolution → Except Mismatch Resolution
  | .ok resolution => .ok resolution.bare
  | .error mismatch => .error mismatch.bare

theorem zip_bareAll (params args : List Ty) :
    params.zip (Ty.bareAll args) = (params.zip args).map fun pair => (pair.1, pair.2.bare) := by
  rw [Ty.bareAll_eq_map, List.zip_map_right]
  rfl

/-- Bindings that are the same up to namespaces finish the signature alike. -/
theorem bareAttempt_finish {left right : Except Mismatch (List Nat × Bindings)}
    (same : bareFitted left = bareFitted right) (id : MemberId) (vars : Nat) (expected : List Ty)
    (result : Ty) :
    let finish := fun answer : List Nat × Bindings => (.ok {
      member := id
      typeArgs := (List.range vars).map fun index => answer.2.finish (.var index)
      params := expected.map answer.2.finish
      result := answer.2.finish result
      coercions := answer.1 } : Except Mismatch Resolution)
    bareAttempt (left >>= finish) = bareAttempt (right >>= finish) := by
  intro finish
  cases left with
  | error mismatch =>
      cases right with
      | error other => exact congrArg Except.error (Except.error.inj same)
      | ok answer => cases same
  | ok answer =>
      cases right with
      | error other => cases same
      | ok other =>
          have parts := Prod.mk.inj (Except.ok.inj same)
          have alike : ∀ types : List Ty, Ty.bareAll (types.map answer.2.finish) =
              Ty.bareAll (types.map other.2.finish) := by
            intro types
            rw [← Bindings.bareAll_finish, parts.2, Bindings.bareAll_finish]
          have typeArgs := alike ((List.range vars).map .var)
          have last : (answer.2.finish result).bare = (other.2.finish result).bare := by
            rw [← Bindings.bare_finish, parts.2, Bindings.bare_finish]
          rw [List.map_map, List.map_map] at typeArgs
          apply congrArg Except.ok
          simp only [Resolution.bare, parts.1, alike, last, Resolution.mk.injEq, and_self, and_true,
            true_and]
          exact typeArgs

theorem attempt_bare (receiver args : List Ty) (converting : Bool) (id : MemberId) :
    bareAttempt (environment.attempt (Ty.bareAll receiver) (Ty.bareAll args) converting id) =
      bareAttempt (environment.attempt receiver args converting id) := by
  have lengths : (Ty.bareAll args).length = args.length := by
    rw [Ty.bareAll_eq_map, List.length_map]
  rw [attempt, attempt, lengths]
  cases (environment.registry.member id).expand args.length with
  | error mismatch => rfl
  | ok expected =>
      have fitted : bareFitted (environment.fitArgs converting 0 (expected.zip (Ty.bareAll args))
            ((environment.registry.member id).receiverBindings (Ty.bareAll receiver))) =
          bareFitted (environment.fitArgs converting 0 (expected.zip args)
            ((environment.registry.member id).receiverBindings receiver)) := by
        rw [zip_bareAll, Member.receiverBindings_bare]
        exact fitArgs_bare
      exact bareAttempt_finish fitted id _ expected _

theorem firstMatch_bare (receiver args : List Ty) (converting : Bool) (candidates : List MemberId) :
    (environment.firstMatch (Ty.bareAll receiver) (Ty.bareAll args) converting candidates).bare =
      (environment.firstMatch receiver args converting candidates).bare := by
  induction candidates with
  | nil => rfl
  | cons id rest ih =>
      have same := environment.attempt_bare receiver args converting id
      have parts := Lookup.mk.inj ih
      rw [firstMatch, firstMatch]
      cases left : environment.attempt (Ty.bareAll receiver) (Ty.bareAll args) converting id with
      | ok resolution =>
          cases right : environment.attempt receiver args converting id with
          | ok other =>
              rw [left, right] at same
              simp only [Lookup.bare, Option.map_some, Except.ok.inj same]
          | error mismatch => rw [left, right] at same; cases same
      | error mismatch =>
          cases right : environment.attempt receiver args converting id with
          | ok other => rw [left, right] at same; cases same
          | error other =>
              rw [left, right] at same
              simp only [Lookup.bare, parts.1, List.map_cons, Rejection.bare, Except.error.inj same,
                parts.2]

theorem isSome_found_of_bare {left right : Lookup} (same : left.bare = right.bare) :
    left.found.isSome = right.found.isSome := by
  have found := congrArg (·.found.isSome) same
  simpa only [Lookup.bare, Option.isSome_map] using found

/-- A lookup chooses the same member, with the same conversions, and passes over the same ones,
whatever the namespaces of the receiver and the arguments are. -/
theorem resolve_bare (receiver args : List Ty) (candidates : List MemberId) :
    (environment.resolve (Ty.bareAll receiver) candidates (Ty.bareAll args)).bare =
      (environment.resolve receiver candidates args).bare := by
  have exactly := environment.firstMatch_bare receiver args false candidates
  have converted := (Lookup.mk.inj
    (environment.firstMatch_bare receiver args true candidates)).1
  simp only [resolve, isSome_found_of_bare exactly]
  split
  · exact exactly
  · split
    · rename_i resolution found
      rw [found, Option.map_some] at converted
      obtain ⟨other, isOther, same⟩ := Option.map_eq_some_iff.mp converted.symm
      simp only [isOther, Lookup.bare, Option.map_some, same]
    · rename_i absent
      rw [absent, Option.map_none] at converted
      rw [Option.map_eq_none_iff.mp converted.symm]
      exact exactly

/-! ### Types that differ in namespaces only -/

/-- Types and lists of arguments that differ in the namespaces of their names only are treated
alike: assignability and conversions do not tell them apart, operands join to the same type, and a
lookup accepts the same member with the same conversions, up to the namespaces of the types that it
says. -/
theorem ignores_namespaces (environment : Environment) {target target' source source' : Ty}
    (targets : target.bare = target'.bare) (sources : source.bare = source'.bare)
    {receiver receiver' args args' : List Ty} (receivers : Ty.bareAll receiver = Ty.bareAll receiver')
    (arguments : Ty.bareAll args = Ty.bareAll args') :
    environment.isAssignable target source = environment.isAssignable target' source' ∧
      environment.canCoerce source target = environment.canCoerce source' target' ∧
      castMember? source target = castMember? source' target' ∧
      convertMember? source target = convertMember? source' target' ∧
      implicitCast? source target = implicitCast? source' target' ∧
      (∀ operatorClass : OperatorClass, (operatorClass.join? source target).map Ty.bare =
        (operatorClass.join? source' target').map Ty.bare) ∧
      ∀ candidates, (environment.resolve receiver candidates args).bare =
        (environment.resolve receiver' candidates args').bare := by
  refine ⟨?_, ?_, ?_, ?_, ?_, fun operatorClass => ?_, fun candidates => ?_⟩
  · rw [← isAssignable_bare, targets, sources, isAssignable_bare]
  · rw [← canCoerce_bare, targets, sources, canCoerce_bare]
  · rw [← castMember?_bare, targets, sources, castMember?_bare]
  · rw [← convertMember?_bare, targets, sources, convertMember?_bare]
  · rw [← implicitCast?_bare, targets, sources, implicitCast?_bare]
  · rw [← OperatorClass.join?_bare, targets, sources, OperatorClass.join?_bare]
  · rw [← resolve_bare, receivers, arguments, resolve_bare]

/-- A pair from one namespace with a point from another is taken as the plain pair is. -/
theorem ignores_namespaces_pair :
    let imported := Ty.applied ⟨"Pair", some "tuples"⟩ [.named ⟨"Point", some "geo"⟩, .string]
    let plain := Ty.generic "Pair" [.host "Point", .string]
    imported.bare = plain.bare ∧ imported.text ≠ plain.text ∧
      pairs.isAssignable .object imported = pairs.isAssignable .object plain ∧
      (pairs.resolve [] [0] [imported]).found.isSome = true ∧
      (pairs.resolve [] [0] [imported]).bare = (pairs.resolve [] [0] [plain]).bare := by
  intro imported plain
  have targets : Ty.object.bare = Ty.object.bare := rfl
  have sources : imported.bare = plain.bare := rfl
  have receivers : Ty.bareAll [] = Ty.bareAll [] := rfl
  have arguments : Ty.bareAll [imported] = Ty.bareAll [plain] := rfl
  obtain ⟨assignable, _, _, _, _, _, lookups⟩ :=
    pairs.ignores_namespaces targets sources receivers arguments
  exact ⟨sources, by decide, assignable, by decide, lookups [0]⟩

end Environment

end ScriptTyping
