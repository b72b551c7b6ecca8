import ScriptTyping.Overload
import ScriptTyping.Proofs.Environment.Assignability
import ScriptTyping.Proofs.Ty.Substitution

/-!
What it means that an argument fits a parameter. Fitting only adds bindings, and an argument that
fits is accepted position by position: below a head with a variable in it every inner argument has
to be assignable on its own.
-/

namespace ScriptTyping

namespace Bindings

def Extends (old new : Bindings) : Prop :=
  ∀ (index : Nat) (ty : Ty), old[index]? = some (some ty) → new[index]? = some (some ty)

def Ground (bindings : Bindings) : Prop :=
  ∀ (index : Nat) (ty : Ty), bindings[index]? = some (some ty) → ty.hasVar = false

theorem Extends.refl (bindings : Bindings) : bindings.Extends bindings := fun _ _ bound => bound

theorem Extends.trans {first second third : Bindings} (early : first.Extends second)
    (late : second.Extends third) : first.Extends third :=
  fun index ty bound => late index ty (early index ty bound)

theorem get?_eq_some {bindings : Bindings} {index : Nat} {ty : Ty} :
    bindings.get? index = some ty ↔ bindings[index]? = some (some ty) := by
  simp [get?, Option.join_eq_some_iff]

theorem extends_set {bindings : Bindings} {index : Nat} (free : bindings[index]? = some none)
    (ty : Ty) : bindings.Extends (bindings.set index (some ty)) := by
  intro other bound found
  have different : index ≠ other := by
    intro same
    subst same
    simp [free] at found
  rw [List.getElem?_set_ne different]
  exact found

theorem ground_set {bindings : Bindings} {index : Nat} {ty : Ty} (ground : bindings.Ground)
    (plain : ty.hasVar = false) : Ground (bindings.set index (some ty)) := by
  intro other bound found
  rw [List.getElem?_set] at found
  split at found
  · split at found
    · simp only [Option.some.injEq] at found
      rw [← found]
      exact plain
    · simp at found
  · exact ground other bound found

/-- A type that is free of variables once instantiated is what finishing makes of it later. -/
theorem finish_eq_instantiate {old new : Bindings} (later : old.Extends new) {ty : Ty}
    (ground : (old.instantiate ty).hasVar = false) : new.finish ty = old.instantiate ty := by
  have same : new.instantiate ty = old.instantiate ty := by
    refine Ty.substitute_eq_of_ground ?_ ty ground
    intro index bound found
    exact get?_eq_some.mpr (later index bound (get?_eq_some.mp found))
  simp only [finish, same, Ty.close_of_ground ground]

theorem finish_of_ground (bindings : Bindings) {ty : Ty} (ground : ty.hasVar = false) :
    bindings.finish ty = ty := by
  simp only [finish, instantiate, Ty.substitute_of_ground _ ty ground, Ty.close_of_ground ground]

theorem finish_var {bindings : Bindings} {index : Nat} {ty : Ty} (ground : bindings.Ground)
    (bound : bindings[index]? = some (some ty)) : bindings.finish (.var index) = ty := by
  simp only [finish, instantiate, Ty.substitute, get?_eq_some.mpr bound, Option.getD_some,
    Ty.close_of_ground (ground index ty bound)]

end Bindings

namespace Environment

variable {environment : Environment}

inductive Accepts (environment : Environment) (bindings : Bindings) : Ty → Ty → Prop where
  | never (param : Ty) : Accepts environment bindings param .never
  | assignable {param arg : Ty} : param.hasVar = false →
      environment.isAssignable param arg = true → Accepts environment bindings param arg
  | var {index : Nat} {bound arg : Ty} : bindings[index]? = some (some bound) →
      (bound == arg) = true → Accepts environment bindings (.var index) arg
  | applied {head argHead : TyName} {params args : List Ty} : Ty.anyHasVar params = true →
      head.name = argHead.name → params.length = args.length →
      (∀ pair ∈ params.zip args, Accepts environment bindings pair.1 pair.2) →
      Accepts environment bindings (.applied head params) (.applied argHead args)
  | fn {params argParams : List Ty} {result argResult : Ty} :
      (Ty.fn params result).hasVar = true → params.length = argParams.length →
      (∀ pair ∈ params.zip argParams, Accepts environment bindings pair.1 pair.2) →
      Accepts environment bindings result argResult →
      Accepts environment bindings (.fn params result) (.fn argParams argResult)

theorem Accepts.mono {old new : Bindings} (later : old.Extends new) {param arg : Ty}
    (accepts : environment.Accepts old param arg) : environment.Accepts new param arg := by
  induction accepts with
  | never param => exact .never param
  | assignable ground assignable => exact .assignable ground assignable
  | var bound same => exact .var (later _ _ bound) same
  | applied varies heads lengths _ ih => exact .applied varies heads lengths ih
  | fn varies lengths _ _ ihParams ihResult => exact .fn varies lengths ihParams ihResult

structure Fitted (environment : Environment) (bindings : Bindings) (param arg : Ty)
    (answer : Bool × Bindings) : Prop where
  later : bindings.Extends answer.2
  ground : bindings.Ground → arg.hasVar = false → answer.2.Ground
  accepted : answer.1 = true → environment.Accepts answer.2 param arg

structure FittedAll (environment : Environment) (bindings : Bindings) (params args : List Ty)
    (answer : Bool × Bindings) : Prop where
  later : bindings.Extends answer.2
  ground : bindings.Ground → Ty.anyHasVar args = false → answer.2.Ground
  accepted : answer.1 = true →
    ∀ pair ∈ params.zip args, environment.Accepts answer.2 pair.1 pair.2

/-- A fit that binds nothing and only asks whether the argument is assignable. -/
theorem fitted_assignable (bindings : Bindings) {param : Ty} (arg : Ty)
    (plain : param.hasVar = false) :
    environment.Fitted bindings param arg (environment.isAssignable param arg, bindings) :=
  ⟨.refl bindings, fun ground _ => ground, fun assignable => .assignable plain assignable⟩

/-- A fit that binds nothing and only takes `never`. -/
theorem fitted_never (bindings : Bindings) (param arg : Ty) :
    environment.Fitted bindings param arg (arg.isNever, bindings) := by
  refine ⟨.refl bindings, fun ground _ => ground, ?_⟩
  intro never
  rw [Ty.eq_never_of_isNever never]
  exact .never param

theorem fitted_var (bindings : Bindings) (index : Nat) (arg : Ty) :
    environment.Fitted bindings (.var index) arg (environment.fit bindings (.var index) arg) := by
  simp only [fit]
  split
  · exact fitted_never bindings (.var index) arg
  · rename_i bound found
    refine ⟨.refl bindings, fun ground _ => ground, ?_⟩
    intro fits
    simp only [Bool.or_eq_true] at fits
    rcases fits with same | never
    · exact .var found same
    · rw [Ty.eq_never_of_isNever never]
      exact .never _
  · rename_i free
    by_cases never : arg.isNever = true
    · rw [Ty.eq_never_of_isNever never]
      exact ⟨.refl bindings, fun ground _ => ground, fun _ => .never _⟩
    · simp only [never, if_false, Bool.false_eq_true]
      refine ⟨Bindings.extends_set free arg, Bindings.ground_set, ?_⟩
      intro _
      have inside : index < bindings.length := (List.getElem?_eq_some_iff.mp free).1
      exact .var (by simp [inside]) BEq.rfl

mutual

theorem fit_fitted (bindings : Bindings) :
    (param arg : Ty) →
      environment.Fitted bindings param arg (environment.fit bindings param arg)
  | .var index, arg => fitted_var bindings index arg
  | .applied head params, arg => by
    simp only [fit]
    split
    · rename_i varies
      split
      · rename_i argHead args
        split
        · rename_i heads
          have inner := fitAll_fitted bindings params args
          exact ⟨inner.later, fun ground plain => inner.ground ground (by simpa [Ty.hasVar] using plain),
            fun fits => .applied varies heads.1 heads.2 (inner.accepted fits)⟩
        · exact ⟨.refl bindings, fun ground _ => ground, fun fits => by simp at fits⟩
      · exact fitted_never bindings _ arg
    · rename_i plain
      exact fitted_assignable bindings arg (by simpa [Ty.hasVar] using plain)
  | .fn params result, arg => by
    simp only [fit]
    split
    · rename_i varies
      split
      · rename_i argParams argResult
        split
        · rename_i lengths
          have inner := fitAll_fitted bindings params argParams
          split
          · rename_i between fits
            rw [fits] at inner
            have last := fit_fitted between result argResult
            refine ⟨inner.later.trans last.later, ?_, ?_⟩
            · intro ground plain
              simp only [Ty.hasVar, Bool.or_eq_false_iff] at plain
              exact last.ground (inner.ground ground plain.1) plain.2
            · intro both
              refine .fn (by simpa [Ty.hasVar] using varies) lengths ?_ (last.accepted both)
              exact fun pair member => (inner.accepted rfl pair member).mono last.later
          · rename_i between fails
            rw [fails] at inner
            refine ⟨inner.later, ?_, fun fits => by simp at fits⟩
            intro ground plain
            simp only [Ty.hasVar, Bool.or_eq_false_iff] at plain
            exact inner.ground ground plain.1
        · exact ⟨.refl bindings, fun ground _ => ground, fun fits => by simp at fits⟩
      · exact fitted_never bindings _ arg
    · rename_i plain
      exact fitted_assignable bindings arg (by simpa [Ty.hasVar] using plain)
  | .prim _, arg => fitted_assignable bindings arg rfl
  | .named _, arg => fitted_assignable bindings arg rfl
  | .void, arg => fitted_assignable bindings arg rfl
  | .object, arg => fitted_assignable bindings arg rfl
  | .dynamic, arg => fitted_assignable bindings arg rfl
  | .never, arg => fitted_assignable bindings arg rfl

theorem fitAll_fitted (bindings : Bindings) :
    (params args : List Ty) →
      environment.FittedAll bindings params args (environment.fitAll bindings params args)
  | [], args => ⟨.refl bindings, fun ground _ => ground, fun _ pair member => by simp at member⟩
  | param :: params, [] =>
    ⟨.refl bindings, fun ground _ => ground, fun _ pair member => by simp at member⟩
  | param :: params, arg :: args => by
    have first := fit_fitted bindings param arg
    simp only [fitAll]
    split
    · rename_i between fits
      rw [fits] at first
      have rest := fitAll_fitted between params args
      refine ⟨first.later.trans rest.later, ?_, ?_⟩
      · intro ground plain
        simp only [Ty.anyHasVar, Bool.or_eq_false_iff] at plain
        exact rest.ground (first.ground ground plain.1) plain.2
      · intro all pair member
        simp only [List.zip_cons_cons, List.mem_cons] at member
        rcases member with same | later
        · subst same
          exact (first.accepted rfl).mono rest.later
        · exact rest.accepted all pair later
    · rename_i between fails
      rw [fails] at first
      refine ⟨first.later, ?_, fun fits => by simp at fits⟩
      intro ground plain
      simp only [Ty.anyHasVar, Bool.or_eq_false_iff] at plain
      exact first.ground ground plain.1

end

end Environment

end ScriptTyping
