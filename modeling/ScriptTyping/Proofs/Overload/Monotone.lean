import ScriptTyping.Proofs.Environment.Conversion
import ScriptTyping.Proofs.Overload.Resolution
import ScriptTyping.Proofs.Ty.Written

/-!
A lookup that finds a member still finds one when more types are assignable. An argument that fits
goes on to fit with the same bindings. One that has to be converted may come to fit, but it binds
nothing either way: a parameter with variables that only a conversion could satisfy takes nothing but
a dynamic argument.
-/

namespace ScriptTyping

namespace Ty

theorem applied_beq_iff {head other : TyName} {params args : List Ty} :
    (applied head params == applied other args) = true ↔
      head.name = other.name ∧ (params == args) = true := by
  rw [beq_iff_bare, beqAll_iff_bare]
  simp only [bare, applied.injEq, TyName.mk.injEq, and_true]

theorem fn_beq_iff {params args : List Ty} {result other : Ty} :
    (fn params result == fn args other) = true ↔
      (params == args) = true ∧ (result == other) = true := by
  rw [beq_iff_bare, beqAll_iff_bare, beq_iff_bare]
  simp only [bare, fn.injEq]

theorem exists_applied_of_beq {head : TyName} {params : List Ty} {ty : Ty}
    (same : (applied head params == ty) = true) : ∃ other args, ty = applied other args := by
  rw [beq_iff_bare] at same
  cases ty with
  | applied other args => exact ⟨other, args, rfl⟩
  | _ => simp [bare] at same

theorem exists_fn_of_beq {params : List Ty} {result ty : Ty}
    (same : (fn params result == ty) = true) : ∃ args other, ty = fn args other := by
  rw [beq_iff_bare] at same
  cases ty with
  | fn args other => exact ⟨args, other, rfl⟩
  | _ => simp [bare] at same

theorem length_substituteAll (binding : Nat → Option Ty) (types : List Ty) :
    (substituteAll binding types).length = types.length := by
  rw [substituteAll_eq_map, List.length_map]

theorem length_eq_of_beq {lefts rights : List Ty} (same : (lefts == rights) = true) :
    lefts.length = rights.length := by
  induction lefts generalizing rights with
  | nil => cases rights <;> simp_all
  | cons left lefts ih =>
      cases rights with
      | nil => simp at same
      | cons right rights =>
          rw [List.cons_beq_cons, Bool.and_eq_true] at same
          rw [List.length_cons, List.length_cons, ih same.2]

end Ty

namespace Environment

variable {environment old new : Environment}

/-! ### Arguments that fit -/

theorem fit_of_plain {param : Ty} (plain : param.hasVar = false) (bindings : Bindings) (arg : Ty) :
    environment.fit bindings param arg = (environment.isAssignable param arg, bindings) := by
  cases param with
  | var index => simp [Ty.hasVar] at plain
  | applied head params =>
      have inner : Ty.anyHasVar params = false := plain
      simp [fit, inner]
  | fn params result =>
      have inner : (Ty.anyHasVar params || result.hasVar) = false := plain
      simp [fit, inner]
  | _ => rfl

section Fits

variable {bindings after : Bindings} {head argHead : TyName} {param arg result other : Ty}
  {params args : List Ty}

theorem fit_applied_eq_true_iff (varies : Ty.anyHasVar params = true) :
    environment.fit bindings (.applied head params) (.applied argHead args) = (true, after) ↔
      (head.name = argHead.name ∧ params.length = args.length) ∧
        environment.fitAll bindings params args = (true, after) := by
  simp only [fit, varies, if_true]
  split
  · rename_i heads
    simp [heads]
  · rename_i heads
    simp [heads]

theorem fit_fn_eq_true_iff (varies : (Ty.anyHasVar params || result.hasVar) = true) :
    environment.fit bindings (.fn params result) (.fn args other) = (true, after) ↔
      params.length = args.length ∧ ∃ between,
        environment.fitAll bindings params args = (true, between) ∧
          environment.fit between result other = (true, after) := by
  simp only [fit, varies, if_true]
  split
  · rename_i lengths
    obtain ⟨answer, between⟩ := environment.fitAll bindings params args
    cases answer <;> simp [lengths]
  · rename_i lengths
    simp [lengths]

theorem fitAll_cons_eq_true_iff :
    environment.fitAll bindings (param :: params) (arg :: args) = (true, after) ↔
      ∃ between, environment.fit bindings param arg = (true, between) ∧
        environment.fitAll between params args = (true, after) := by
  rw [fitAll]
  obtain ⟨answer, between⟩ := environment.fit bindings param arg
  cases answer <;> simp

end Fits

theorem fit_var_of_instantiate {bindings : Bindings} {index : Nat} {arg : Ty}
    (plain : ((environment.fit bindings (.var index) arg).2.instantiate (.var index)).hasVar = false)
    (same : ((environment.fit bindings (.var index) arg).2.instantiate (.var index) == arg) = true) :
    (environment.fit bindings (.var index) arg).1 = true := by
  rw [fit] at plain same ⊢
  split
  · rename_i absent
    simp [absent, Bindings.instantiate, Bindings.get?, Ty.substitute, Ty.hasVar] at plain
  · rename_i bound found
    simp only [found, Bindings.instantiate, Bindings.get?, Ty.substitute, Option.join_some,
      Option.getD_some] at same
    simp only [same, Bool.true_or]
  · rfl

mutual

/-- An argument fits if its bindings make its type of the parameter. -/
theorem fit_of_instantiate (bindings : Bindings) : (param arg : Ty) →
    ((environment.fit bindings param arg).2.instantiate param).hasVar = false →
    ((environment.fit bindings param arg).2.instantiate param == arg) = true →
    (environment.fit bindings param arg).1 = true
  | .var index, arg, plain, same => fit_var_of_instantiate plain same
  | .applied head params, arg, plain, same => by
    obtain ⟨argHead, args, rfl⟩ := Ty.exists_applied_of_beq same
    by_cases varies : Ty.anyHasVar params = true
    · obtain ⟨heads, all⟩ := Ty.applied_beq_iff.mp same
      have lengths : params.length = args.length := by
        rw [← Ty.length_eq_of_beq all, Ty.length_substituteAll]
      simp only [fit, varies, if_true, heads, lengths, and_self] at plain all ⊢
      exact fitAll_of_instantiate bindings params args plain all
    · have ground : (Ty.applied head params).hasVar = false := by simpa [Ty.hasVar] using varies
      rw [fit_of_plain ground] at same ⊢
      rw [Bindings.instantiate, Ty.substitute_of_ground _ _ ground] at same
      exact isAssignable_of_beq same
  | .fn params result, arg, plain, same => by
    obtain ⟨args, other, rfl⟩ := Ty.exists_fn_of_beq same
    by_cases varies : (Ty.anyHasVar params || result.hasVar) = true
    · obtain ⟨all, last⟩ := Ty.fn_beq_iff.mp same
      have lengths : params.length = args.length := by
        rw [← Ty.length_eq_of_beq all, Ty.length_substituteAll]
      have inner := fitAll_of_instantiate bindings params args
      simp only [fit, varies, if_true, lengths, Bindings.instantiate, Ty.substitute, Ty.hasVar,
        Bool.or_eq_false_iff] at plain all last ⊢
      generalize environment.fitAll bindings params args = answer at plain all last inner ⊢
      obtain ⟨fits, between⟩ := answer
      cases fits with
      | true => exact fit_of_instantiate between result other plain.2 last
      | false => exact inner plain.1 all
    · have ground : (Ty.fn params result).hasVar = false := by simpa [Ty.hasVar] using varies
      rw [fit_of_plain ground] at same ⊢
      rw [Bindings.instantiate, Ty.substitute_of_ground _ _ ground] at same
      exact isAssignable_of_beq same
  | .prim _, _, _, same => isAssignable_of_beq same
  | .named _, _, _, same => isAssignable_of_beq same
  | .void, _, _, same => isAssignable_of_beq same
  | .object, _, _, same => isAssignable_of_beq same
  | .dynamic, _, _, same => isAssignable_of_beq same
  | .never, _, _, same => isAssignable_of_beq same

theorem fitAll_of_instantiate (bindings : Bindings) : (params args : List Ty) →
    Ty.anyHasVar (Ty.substituteAll (environment.fitAll bindings params args).2.get? params) = false →
    (Ty.substituteAll (environment.fitAll bindings params args).2.get? params == args) = true →
    (environment.fitAll bindings params args).1 = true
  | [], _, _, _ => rfl
  | param :: params, [], _, same => by simp [Ty.substituteAll] at same
  | param :: params, arg :: args, plain, same => by
    have first := fit_of_instantiate bindings param arg
    simp only [fitAll, Ty.substituteAll, Ty.anyHasVar, List.cons_beq_cons, Bool.or_eq_false_iff,
      Bool.and_eq_true] at plain same ⊢
    generalize environment.fit bindings param arg = answer at plain same first ⊢
    obtain ⟨fits, between⟩ := answer
    cases fits with
    | true => exact fitAll_of_instantiate between params args plain.2 same.2
    | false => exact first plain.1 same.1

end

/-! ### Arguments that are converted -/

/-- A type that no conversion starts at flows only where it is assignable. -/
theorem isAssignable_of_canCoerce {source target : Ty}
    (coerces : environment.canCoerce source target = true) (typed : source ≠ .dynamic)
    (inert : ¬ source.Converts target) : environment.isAssignable target source = true := by
  rcases canCoerce_iff.mp coerces with assignable | ⟨isDynamic, _⟩ | converts
  · exact assignable
  · exact absurd isDynamic typed
  · exact absurd converts inert

/-- A generic type with arguments takes nothing but the same type. -/
theorem isAssignable_applied_cons {head argHead : TyName} {params args : List Ty}
    (nonempty : params ≠ [])
    (assignable : environment.isAssignable (.applied head params) (.applied argHead args) = true) :
    (Ty.applied head params == .applied argHead args) = true := by
  by_cases heads : head.name = argHead.name
  · rwa [isAssignable_applied heads] at assignable
  · simpa [isAssignable, isAssignableHost, Ty.headName?, heads, Ty.args, Ty.isNever, nonempty]
      using assignable

/-- An argument that is converted binds nothing. Only for a parameter without variables does it
depend on the environment that it does not fit as it is. -/
theorem fit_converted {bindings after : Bindings} {param arg : Ty}
    (misfit : environment.fit bindings param arg = (false, after))
    (plain : (after.instantiate param).hasVar = false)
    (coerces : environment.canCoerce arg (after.instantiate param) = true) :
    after = bindings ∧ (param.hasVar = false ∨
      ∀ other : Environment, other.fit bindings param arg = (false, bindings)) := by
  have unequal : ¬ (after.instantiate param == arg) = true := by
    intro same
    have fits := environment.fit_of_instantiate bindings param arg
    rw [misfit] at fits
    exact Bool.noConfusion (fits plain same)
  by_cases ground : param.hasVar = false
  · rw [fit_of_plain ground] at misfit
    exact ⟨(Prod.mk.inj misfit).2.symm, .inl ground⟩
  -- The parameter has variables. Unless the argument has its shape the environment is not asked, and
  -- with that shape it would be converted only if it fitted.
  · have stuck (same : ∀ other : Environment,
          other.fit bindings param arg = environment.fit bindings param arg)
        (binds : (environment.fit bindings param arg).2 = bindings) : after = bindings ∧
          (param.hasVar = false ∨
            ∀ other : Environment, other.fit bindings param arg = (false, bindings)) := by
      rw [misfit] at same binds
      subst binds
      exact ⟨rfl, .inr same⟩
    cases param with
    | var index =>
        cases found : bindings[index]? with
        | none => exact stuck (fun other => by simp only [fit, found]) (by simp only [fit, found])
        | some bound =>
            cases bound with
            | none => simp [fit, found] at misfit
            | some bound =>
                exact stuck (fun other => by simp only [fit, found]) (by simp only [fit, found])
    | applied head params =>
        have varies : Ty.anyHasVar params = true := by simpa [Ty.hasVar] using ground
        cases arg with
        | applied argHead args =>
            have assignable := isAssignable_of_canCoerce coerces nofun nofun
            refine absurd (isAssignable_applied_cons ?_ assignable) unequal
            intro empty
            rw [← List.length_eq_zero_iff, Ty.length_substituteAll, List.length_eq_zero_iff] at empty
            simp [empty, Ty.anyHasVar] at varies
        | _ =>
            refine stuck (fun other => ?_) ?_
            · simp only [fit, varies, if_true]
            · simp only [fit, varies, if_true]
    | fn params result =>
        have varies : (Ty.anyHasVar params || result.hasVar) = true := by
          simpa only [Ty.hasVar, Bool.not_eq_false] using ground
        cases arg with
        | fn args other =>
            have assignable := isAssignable_of_canCoerce coerces nofun nofun
            exact absurd ((isAssignable_fn _ _ _ _).symm.trans assignable) unequal
        | _ =>
            refine stuck (fun other => ?_) ?_
            · simp only [fit, varies, if_true]
            · simp only [fit, varies, if_true]
    | _ => exact absurd rfl ground

/-! ### More assignability -/

theorem Keeps.canCoerce (keeps : old.Keeps new) (grows : old.Grows new) {source target : Ty}
    (coerces : old.canCoerce source target = true) :
    new.canCoerce source target = true := by
  simp only [Environment.canCoerce, Bool.or_eq_true] at coerces ⊢
  exact coerces.imp_left fun direct => direct.imp_left (keeps.isAssignable grows)

theorem Keeps.fit_plain (keeps : old.Keeps new) (grows : old.Grows new)
    {param arg : Ty} {bindings after : Bindings} (plain : param.hasVar = false)
    (fits : old.fit bindings param arg = (true, after)) :
    new.fit bindings param arg = (true, after) := by
  rw [fit_of_plain plain, Prod.mk.injEq] at fits ⊢
  exact ⟨keeps.isAssignable grows fits.1, fits.2⟩

mutual

/-- An argument that fits goes on to fit, with the same bindings. -/
theorem Keeps.fit (keeps : old.Keeps new) (grows : old.Grows new) :
    (param arg : Ty) → (bindings : Bindings) → {after : Bindings} →
    old.fit bindings param arg = (true, after) → new.fit bindings param arg = (true, after)
  | .var index, arg, bindings, after, fits => by simpa only [Environment.fit] using fits
  | .applied head params, arg, bindings, after, fits => by
    by_cases varies : Ty.anyHasVar params = true
    · cases arg with
      | applied argHead args =>
          obtain ⟨heads, fits⟩ := (fit_applied_eq_true_iff varies).mp fits
          exact (fit_applied_eq_true_iff varies).mpr
            ⟨heads, keeps.fitAll grows params args bindings fits⟩
      | _ => simpa only [Environment.fit, varies, if_true] using fits
    · exact keeps.fit_plain grows (by simpa [Ty.hasVar] using varies) fits
  | .fn params result, arg, bindings, after, fits => by
    by_cases varies : (Ty.anyHasVar params || result.hasVar) = true
    · cases arg with
      | fn args other =>
          obtain ⟨lengths, between, first, last⟩ := (fit_fn_eq_true_iff varies).mp fits
          exact (fit_fn_eq_true_iff varies).mpr ⟨lengths, between,
            keeps.fitAll grows params args bindings first, keeps.fit grows result other between last⟩
      | _ => simpa only [Environment.fit, varies, if_true] using fits
    · exact keeps.fit_plain grows (by simpa [Ty.hasVar] using varies) fits
  | .prim _, _, _, _, fits => keeps.fit_plain grows rfl fits
  | .named _, _, _, _, fits => keeps.fit_plain grows rfl fits
  | .void, _, _, _, fits => keeps.fit_plain grows rfl fits
  | .object, _, _, _, fits => keeps.fit_plain grows rfl fits
  | .dynamic, _, _, _, fits => keeps.fit_plain grows rfl fits
  | .never, _, _, _, fits => keeps.fit_plain grows rfl fits

theorem Keeps.fitAll (keeps : old.Keeps new) (grows : old.Grows new) :
    (params args : List Ty) → (bindings : Bindings) → {after : Bindings} →
    old.fitAll bindings params args = (true, after) →
    new.fitAll bindings params args = (true, after)
  | [], _, _, _, fits => fits
  | _ :: _, [], _, _, fits => fits
  | param :: params, arg :: args, bindings, after, fits => by
    obtain ⟨between, first, rest⟩ := fitAll_cons_eq_true_iff.mp fits
    exact fitAll_cons_eq_true_iff.mpr ⟨between, keeps.fit grows param arg bindings first,
      keeps.fitAll grows params args between rest⟩

end

/-- Arguments that are accepted go on to be accepted with the same bindings, and fewer of them may
need a conversion. -/
theorem Keeps.fitArgs (keeps : old.Keeps new) (grows : old.Grows new) {converting : Bool}
    {index : Nat} {pairs : List (Ty × Ty)} {before after : Bindings} {positions : List Nat}
    (fits : old.fitArgs converting index pairs before = .ok (positions, after)) :
    ∃ fewer, new.fitArgs converting index pairs before = .ok (fewer, after) := by
  induction pairs generalizing index before positions with
  | nil => exact ⟨positions, fits⟩
  | cons pair rest ih =>
      obtain ⟨param, arg⟩ := pair
      rw [Environment.fitArgs] at fits ⊢
      split at fits
      · rename_i between fit
        rw [keeps.fit grows param arg before fit]
        exact ih fits
      · rename_i between misfit
        simp only at fits
        split at fits
        · rename_i usable
          simp only [Bool.and_eq_true, Bool.not_eq_true'] at usable
          obtain ⟨⟨rfl, plain⟩, coerces⟩ := usable
          obtain ⟨⟨others, last⟩, accepted, isLast⟩ := Except.bind_eq_ok.mp fits
          simp only [Except.ok.injEq, Prod.mk.injEq] at isLast
          obtain ⟨rfl, rfl⟩ := isLast
          obtain ⟨fewer, goesOn⟩ := ih accepted
          obtain ⟨rfl, depends⟩ := fit_converted misfit plain coerces
          -- the argument fits now, or it is converted as before
          have answer : ∃ answer, new.fit between param arg = (answer, between) := by
            rcases depends with ground | stuck
            · exact ⟨_, fit_of_plain ground between arg⟩
            · exact ⟨false, stuck new⟩
          obtain ⟨answer, isAnswer⟩ := answer
          rw [isAnswer]
          cases answer with
          | true => exact ⟨fewer, goesOn⟩
          | false =>
              simp only [plain, keeps.canCoerce grows coerces, goesOn, Bool.not_false, Bool.and_self,
                if_true]
              exact ⟨index :: fewer, rfl⟩
        · simp at fits

/-! ### Lookups -/

theorem firstMatch_isSome_iff {receiver args : List Ty} {converting : Bool}
    {candidates : List MemberId} :
    (environment.firstMatch receiver args converting candidates).found.isSome = true ↔
      ∃ id ∈ candidates, ∃ resolution,
        environment.attempt receiver args converting id = .ok resolution := by
  induction candidates with
  | nil => simp [firstMatch]
  | cons id rest ih =>
      simp only [firstMatch, List.mem_cons, exists_eq_or_imp]
      cases environment.attempt receiver args converting id with
      | ok resolution => simp
      | error reason => simpa using ih

/-- A lookup finds a member if and only if one of the two passes accepts a candidate. -/
theorem resolve_isSome_iff {receiver args : List Ty} {candidates : List MemberId} :
    (environment.resolve receiver candidates args).found.isSome = true ↔
      ∃ id ∈ candidates, ∃ converting resolution,
        environment.attempt receiver args converting id = .ok resolution := by
  have both : (environment.resolve receiver candidates args).found.isSome = true ↔
      (environment.firstMatch receiver args false candidates).found.isSome = true ∨
        (environment.firstMatch receiver args true candidates).found.isSome = true := by
    simp only [resolve]
    split
    · rename_i exactly
      simp [exactly]
    · rename_i notExactly
      split
      · rename_i converted
        simp [converted]
      · rename_i notConverted
        simp [notConverted, notExactly]
  rw [both, firstMatch_isSome_iff, firstMatch_isSome_iff]
  constructor
  · rintro (⟨id, member, resolution, accepted⟩ | ⟨id, member, resolution, accepted⟩)
    · exact ⟨id, member, false, resolution, accepted⟩
    · exact ⟨id, member, true, resolution, accepted⟩
  · rintro ⟨id, member, pass, resolution, accepted⟩
    cases pass with
    | false => exact .inl ⟨id, member, resolution, accepted⟩
    | true => exact .inr ⟨id, member, resolution, accepted⟩

/-- A candidate that accepts the arguments goes on to do so, with the same types. -/
theorem Keeps.attempt (keeps : old.Keeps new) (grows : old.Grows new) {receiver args : List Ty}
    {converting : Bool} {id : MemberId} {resolution : Resolution}
    (bound : id < old.registry.members.size)
    (accepts : old.attempt receiver args converting id = .ok resolution) :
    ∃ fewer, new.attempt receiver args converting id =
      .ok { resolution with coercions := fewer } := by
  rw [Environment.attempt] at accepts ⊢
  rw [grows.registry.member_eq bound]
  obtain ⟨expected, expands, accepts⟩ := Except.bind_eq_ok.mp accepts
  obtain ⟨⟨positions, bindings⟩, fits, accepts⟩ := Except.bind_eq_ok.mp accepts
  obtain ⟨fewer, goesOn⟩ := keeps.fitArgs grows fits
  rw [← Except.ok.inj accepts]
  refine ⟨fewer, Except.bind_eq_ok.mpr ⟨expected, expands, ?_⟩⟩
  exact Except.bind_eq_ok.mpr ⟨(fewer, bindings), goesOn, rfl⟩

/-- A lookup that found a member finds one, also among more candidates. -/
theorem Keeps.resolve (keeps : old.Keeps new) (grows : old.Grows new) {receiver args : List Ty}
    {candidates more : List MemberId} (known : ∀ id ∈ candidates, id < old.registry.members.size)
    (kept : candidates ⊆ more)
    (found : (old.resolve receiver candidates args).found.isSome = true) :
    (new.resolve receiver more args).found.isSome = true := by
  obtain ⟨id, member, converting, resolution, accepts⟩ := resolve_isSome_iff.mp found
  obtain ⟨fewer, goesOn⟩ := keeps.attempt grows (known id member) accepts
  exact resolve_isSome_iff.mpr ⟨id, kept member, converting, _, goesOn⟩

end Environment

end ScriptTyping
