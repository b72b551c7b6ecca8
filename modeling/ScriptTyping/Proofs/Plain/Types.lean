import ScriptTyping.Check.Visit
import ScriptTyping.Proofs.Environment.Naming
import ScriptTyping.Proofs.Overload.Resolution

/-!
Types without variables. The types of signatures may have variables, but what lookups, fields, names
and annotations make of them has none.
-/

namespace ScriptTyping

namespace Ty

def Plain (ty : Ty) : Prop := ty.hasVar = false

def AllPlain (types : List Ty) : Prop := ∀ ty ∈ types, ty.Plain

theorem anyHasVar_eq_false_iff {types : List Ty} : anyHasVar types = false ↔ AllPlain types := by
  rw [anyHasVar_eq_any, List.any_eq_false]
  simp only [AllPlain, Plain, Bool.not_eq_true]

theorem plain_applied_iff {head : TyName} {args : List Ty} :
    (applied head args).Plain ↔ AllPlain args :=
  anyHasVar_eq_false_iff

theorem plain_fn_iff {params : List Ty} {result : Ty} :
    (fn params result).Plain ↔ AllPlain params ∧ result.Plain := by
  rw [Plain, hasVar, Bool.or_eq_false_iff, anyHasVar_eq_false_iff]
  rfl

theorem Plain.args {ty : Ty} (plain : ty.Plain) : AllPlain ty.args := by
  cases ty with
  | applied head args => exact plain_applied_iff.mp plain
  | _ => exact fun _ member => absurd member List.not_mem_nil

theorem AllPlain.headD {types : List Ty} (plain : AllPlain types) {default : Ty}
    (isDefault : default.Plain) : (types.headD default).Plain := by
  cases types with
  | nil => exact isDefault
  | cons first rest => exact plain first List.mem_cons_self

mutual

theorem hasVar_bare : (ty : Ty) → ty.bare.hasVar = ty.hasVar
  | var _ => rfl
  | prim _ => rfl
  | named _ => rfl
  | applied _ args => by simp only [bare, hasVar, anyHasVar_bareAll args]
  | fn params result => by
    simp only [bare, hasVar, anyHasVar_bareAll params, hasVar_bare result]
  | void => rfl
  | object => rfl
  | dynamic => rfl
  | never => rfl

theorem anyHasVar_bareAll : (types : List Ty) → anyHasVar (bareAll types) = anyHasVar types
  | [] => rfl
  | ty :: types => by simp only [bareAll, anyHasVar, hasVar_bare ty, anyHasVar_bareAll types]

end

mutual

/-- A type has no variables after each was replaced by a type without any. -/
theorem substitute_plain {binding : Nat → Option Ty}
    (closes : ∀ index, ∃ ty, binding index = some ty ∧ ty.Plain) :
    (ty : Ty) → (ty.substitute binding).Plain
  | var index => by
    obtain ⟨ty, bound, plain⟩ := closes index
    rw [substitute, bound]
    exact plain
  | prim _ => rfl
  | named _ => rfl
  | applied _ args => substituteAll_plain closes args
  | fn params result => by
    rw [Plain, substitute, hasVar, substituteAll_plain closes params, Bool.false_or]
    exact substitute_plain closes result
  | void => rfl
  | object => rfl
  | dynamic => rfl
  | never => rfl

theorem substituteAll_plain {binding : Nat → Option Ty}
    (closes : ∀ index, ∃ ty, binding index = some ty ∧ ty.Plain) :
    (types : List Ty) → anyHasVar (substituteAll binding types) = false
  | [] => rfl
  | ty :: types => by
    rw [substituteAll, anyHasVar, substituteAll_plain closes types, Bool.or_false]
    exact substitute_plain closes ty

end

theorem close_plain (ty : Ty) : ty.close.Plain :=
  substitute_plain (fun _ => ⟨object, rfl, rfl⟩) ty

end Ty

theorem Rule.fieldType_plain (member : Member) (receiver : List Ty) :
    (fieldType member receiver).Plain :=
  Ty.close_plain _

theorem Rule.elementType?_plain {iterated element : Ty} (plain : iterated.Plain)
    (found : elementType? iterated = some element) : element.Plain := by
  unfold elementType? at found
  split at found
  · rw [← Option.some.inj found]
    rfl
  · split at found
    · rw [← Option.some.inj found]
      exact plain.args.headD rfl
    · split at found
      · rw [← Option.some.inj found]
        rfl
      · cases found
  · cases found

theorem OperatorClass.joinNumeric?_plain {left right joined : Ty}
    (joins : joinNumeric? left right = some joined) : joined.Plain := by
  unfold joinNumeric? at joins
  split at joins
  · obtain ⟨prim, _, rfl⟩ := Option.map_eq_some_iff.mp joins
    rfl
  · cases joins

theorem OperatorClass.join?_plain {operatorClass : OperatorClass} {left right joined : Ty}
    (plain : left.Plain) (joins : operatorClass.join? left right = some joined) :
    joined.Plain := by
  cases operatorClass with
  | additive =>
      simp only [join?] at joins
      split at joins
      · rw [← Option.some.inj joins]
        rfl
      · exact joinNumeric?_plain joins
  | comparator => exact joinNumeric?_plain joins
  | bitwise =>
      simp only [join?] at joins
      split at joins
      · rw [← Option.some.inj joins]
        rfl
      · obtain ⟨prim, _, rfl⟩ := Option.map_eq_some_iff.mp joins
        rfl
      · cases joins
  | equator =>
      simp only [join?] at joins
      split at joins
      · rw [← Option.some.inj joins]
        rfl
      · exact joinNumeric?_plain joins
      · split at joins
        · rw [← Option.some.inj joins]
          split
          · exact plain
          · rfl
        · cases joins

structure Resolution.Plain (resolution : Resolution) : Prop where
  typeArgs : Ty.AllPlain resolution.typeArgs
  params : Ty.AllPlain resolution.params
  result : resolution.result.Plain

namespace Environment

variable {environment : Environment}

/-! ### Lookups -/

theorem finish_plain (bindings : Bindings) (ty : Ty) : (bindings.finish ty).Plain :=
  Ty.close_plain _

theorem Attempted.plain {receiver args expected : List Ty} {resolution : Resolution}
    {bindings : Bindings} (attempted : environment.Attempted receiver args resolution expected bindings) :
    resolution.Plain := by
  refine ⟨?_, ?_, ?_⟩
  · rw [attempted.typeArgs]
    rintro _ member
    obtain ⟨index, _, rfl⟩ := List.mem_map.mp member
    exact finish_plain bindings _
  · rw [attempted.params]
    rintro _ member
    obtain ⟨ty, _, rfl⟩ := List.mem_map.mp member
    exact finish_plain bindings ty
  · rw [attempted.result]
    exact finish_plain bindings _

/-- A lookup leaves no variable open, whatever the receiver and the arguments. -/
theorem resolve_plain {receiver args : List Ty} {candidates : List MemberId}
    {resolution : Resolution}
    (found : (environment.resolve receiver candidates args).found = some resolution) :
    resolution.Plain := by
  obtain ⟨_, expected, bindings, attempted⟩ := resolve_attempted found
  exact attempted.plain

/-! ### Names and annotations -/

theorem unbox_plain {ty : Ty} (plain : ty.Plain) : (environment.unbox ty).Plain := by
  unfold unbox
  split
  · split
    · rfl
    · exact plain
  · exact plain

theorem typeNamed?_plain {name : String} {ty : Ty} (found : environment.typeNamed? name = some ty) :
    ty.Plain := by
  unfold typeNamed? at found
  split at found
  · rw [← Option.some.inj found]
    rfl
  · split at found
    · rw [← Option.some.inj found]
      rfl
    · split at found
      · rw [← Option.some.inj found]
        rfl
      · split at found
        · rw [← Option.some.inj found]
          rfl
        · obtain ⟨typeDef, _, rfl⟩ := Option.map_eq_some_iff.mp found
          split
          · rfl
          · refine Ty.plain_applied_iff.mpr fun ty member => ?_
            obtain ⟨param, _, rfl⟩ := List.mem_map.mp member
            rfl

theorem resolveType_plain {text : String} {ty : Ty} (found : environment.resolveType text = .ok ty) :
    ty.Plain := by
  unfold resolveType at found
  split at found
  · cases found
  · rename_i written reads
    split at found
    · cases found
    · rename_i qualified isQualified
      rw [← Except.ok.inj found, Ty.Plain, ← Ty.hasVar_bare, qualify_bare isQualified,
        Ty.hasVar_bare]
      exact Ty.ofText?_ground reads

end Environment

end ScriptTyping
