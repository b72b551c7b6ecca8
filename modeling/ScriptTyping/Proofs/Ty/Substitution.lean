import Mathlib.Data.List.Basic
import ScriptTyping.Ty.Basic

/-!
Replacing variables. What replacing does to a type is told by what it does to the variables of the
type, and one replacement after another is a single replacement.
-/

namespace ScriptTyping

namespace Ty

/-- Induction with the parts of a type in lists. -/
theorem induction {motive : Ty → Prop} (var : ∀ index, motive (var index))
    (prim : ∀ kind, motive (prim kind)) (named : ∀ tyName, motive (named tyName))
    (applied : ∀ head args, (∀ arg ∈ args, motive arg) → motive (applied head args))
    (fn : ∀ params result, (∀ param ∈ params, motive param) → motive result →
      motive (fn params result))
    (void : motive void) (object : motive object) (dynamic : motive dynamic) (never : motive never)
    (ty : Ty) : motive ty :=
  @Ty.rec motive (fun types => ∀ ty ∈ types, motive ty) var prim named applied fn void object dynamic
    never (by simp) (fun _ _ isFirst others => List.forall_mem_cons.mpr ⟨isFirst, others⟩) ty

/-! ### The variables of a type -/

mutual

def vars : Ty → List Nat
  | var index => [index]
  | applied _ args => varsAll args
  | fn params result => varsAll params ++ vars result
  | _ => []

def varsAll : List Ty → List Nat
  | [] => []
  | ty :: rest => vars ty ++ varsAll rest

end

theorem varsAll_eq_flatMap (types : List Ty) : varsAll types = types.flatMap vars := by
  induction types with
  | nil => rfl
  | cons ty types ih => rw [varsAll, ih, List.flatMap_cons]

theorem hasVar_eq_false_iff (ty : Ty) : ty.hasVar = false ↔ ty.vars = [] := by
  induction ty using induction with
  | var index => simp [hasVar, vars]
  | applied head args ih =>
      rw [hasVar, vars, anyHasVar_eq_any, varsAll_eq_flatMap, List.any_eq_false,
        List.flatMap_eq_nil_iff]
      exact forall₂_congr fun arg member => by rw [Bool.not_eq_true, ih arg member]
  | fn params result ihParams ihResult =>
      rw [hasVar, vars, anyHasVar_eq_any, varsAll_eq_flatMap, Bool.or_eq_false_iff,
        List.append_eq_nil_iff, ihResult, List.any_eq_false, List.flatMap_eq_nil_iff]
      refine and_congr_left' (forall₂_congr fun param member => ?_)
      rw [Bool.not_eq_true, ihParams param member]
  | prim | named | void | object | dynamic | never => exact ⟨fun _ => rfl, fun _ => rfl⟩

/-! ### One replacement -/

/-- Replacements make the same of a type if and only if they make the same of its variables. -/
theorem substitute_eq_iff {first second : Nat → Option Ty} (ty : Ty) :
    ty.substitute first = ty.substitute second ↔
      ∀ index ∈ ty.vars, (var index).substitute first = (var index).substitute second := by
  induction ty using induction with
  | var index => simp [vars]
  | applied head args ih =>
      simp only [substitute, vars, applied.injEq, true_and, substituteAll_eq_map,
        varsAll_eq_flatMap, List.map_inj_left, List.forall_mem_flatMap]
      exact forall₂_congr ih
  | fn params result ihParams ihResult =>
      simp only [substitute, vars, fn.injEq, substituteAll_eq_map, varsAll_eq_flatMap,
        List.map_inj_left, List.forall_mem_append, List.forall_mem_flatMap]
      exact and_congr (forall₂_congr ihParams) ihResult
  | prim | named | void | object | dynamic | never => simp [vars, substitute]

theorem substitute_none (ty : Ty) : (ty.substitute fun _ => none) = ty := by
  induction ty using induction with
  | var index => rfl
  | applied head args ih =>
      rw [substitute, substituteAll_eq_map, List.map_congr_left ih, List.map_id']
  | fn params result ihParams ihResult =>
      rw [substitute, substituteAll_eq_map, List.map_congr_left ihParams, List.map_id', ihResult]
  | prim | named | void | object | dynamic | never => rfl

/-- A replacement keeps a type if and only if it keeps the variables of the type. -/
theorem substitute_eq_self_iff {binding : Nat → Option Ty} (ty : Ty) :
    ty.substitute binding = ty ↔ ∀ index ∈ ty.vars, (var index).substitute binding = var index := by
  calc ty.substitute binding = ty
    _ ↔ ty.substitute binding = ty.substitute fun _ => none := by rw [substitute_none]
    _ ↔ ∀ index ∈ ty.vars, (var index).substitute binding = var index := substitute_eq_iff ty

theorem vars_substitute (binding : Nat → Option Ty) (ty : Ty) :
    (ty.substitute binding).vars =
      ty.vars.flatMap fun index => ((var index).substitute binding).vars := by
  have all {types : List Ty} (each : ∀ ty ∈ types, (ty.substitute binding).vars =
      ty.vars.flatMap fun index => ((var index).substitute binding).vars) :
      varsAll (substituteAll binding types) =
        (varsAll types).flatMap fun index => ((var index).substitute binding).vars := by
    rw [substituteAll_eq_map, varsAll_eq_flatMap, varsAll_eq_flatMap, List.flatMap_map,
      List.flatMap_assoc]
    exact List.flatMap_congr each
  induction ty using induction with
  | var index => simp [vars]
  | applied head args ih => rw [substitute, vars, vars, all ih]
  | fn params result ihParams ihResult =>
      rw [substitute, vars, vars, all ihParams, ihResult, List.flatMap_append]
  | prim | named | void | object | dynamic | never => rfl

/-- What is left has no variable if and only if each variable is replaced by a type without one. -/
theorem hasVar_substitute_iff {binding : Nat → Option Ty} (ty : Ty) :
    (ty.substitute binding).hasVar = false ↔
      ∀ index ∈ ty.vars, ∃ known, binding index = some known ∧ known.hasVar = false := by
  rw [hasVar_eq_false_iff, vars_substitute, List.flatMap_eq_nil_iff]
  refine forall₂_congr fun index _ => ?_
  cases bound : binding index with
  | none => simp [substitute, bound, vars]
  | some known => simp [substitute, bound, hasVar_eq_false_iff]

theorem substitute_of_ground (binding : Nat → Option Ty) (ty : Ty) (ground : ty.hasVar = false) :
    ty.substitute binding = ty := by
  rw [substitute_eq_self_iff, (hasVar_eq_false_iff ty).mp ground]
  simp

@[simp]
theorem close_of_ground {ty : Ty} (ground : ty.hasVar = false) : ty.close = ty :=
  substitute_of_ground _ ty ground

/-- Two substitutions that agree on the variables of the first result agree on the type. -/
theorem substitute_eq_of_ground {first second : Nat → Option Ty}
    (agrees : ∀ index ty, first index = some ty → second index = some ty) (ty : Ty)
    (ground : (ty.substitute first).hasVar = false) : ty.substitute second = ty.substitute first := by
  rw [substitute_eq_iff]
  intro index member
  obtain ⟨known, bound, _⟩ := (hasVar_substitute_iff ty).mp ground index member
  rw [substitute, substitute, bound, agrees index known bound]

/-! ### One replacement after another -/

def followedBy (first second : Nat → Option Ty) (index : Nat) : Option Ty :=
  match first index with
  | some ty => some (ty.substitute second)
  | none => second index

theorem substitute_substitute (first second : Nat → Option Ty) (ty : Ty) :
    (ty.substitute first).substitute second = ty.substitute (followedBy first second) := by
  induction ty using induction with
  | var index => cases bound : first index <;> simp [substitute, followedBy, bound]
  | applied head args ih =>
      simp only [substitute, substituteAll_eq_map, List.map_map]
      exact congrArg (applied head) (List.map_congr_left ih)
  | fn params result ihParams ihResult =>
      simp only [substitute, substituteAll_eq_map, List.map_map]
      exact congrArg₂ fn (List.map_congr_left ihParams) ihResult
  | prim | named | void | object | dynamic | never => rfl

def closing (binding : Nat → Option Ty) (index : Nat) : Ty := ((binding index).map close).getD object

theorem close_substitute (binding : Nat → Option Ty) (ty : Ty) :
    (ty.substitute binding).close = ty.substitute fun index => some (closing binding index) := by
  rw [close, substitute_substitute]
  congr 1
  funext index
  rw [followedBy, closing]
  cases binding index <;> rfl

/-! ### Types with few variables -/

mutual

def within (count : Nat) : Ty → Bool
  | var index => index < count
  | applied _ args => allWithin count args
  | fn params result => allWithin count params && within count result
  | _ => true

def allWithin (count : Nat) : List Ty → Bool
  | [] => true
  | ty :: rest => within count ty && allWithin count rest

end

theorem allWithin_eq_all (count : Nat) (types : List Ty) :
    allWithin count types = types.all (within count) := by
  induction types with
  | nil => rfl
  | cons ty types ih => simp [allWithin, ih]

theorem within_iff {count : Nat} (ty : Ty) :
    ty.within count = true ↔ ∀ index ∈ ty.vars, index < count := by
  induction ty using induction with
  | var index => simp [within, vars]
  | applied head args ih =>
      simp only [within, vars, allWithin_eq_all, List.all_eq_true, varsAll_eq_flatMap,
        List.forall_mem_flatMap]
      exact forall₂_congr ih
  | fn params result ihParams ihResult =>
      simp only [within, vars, allWithin_eq_all, Bool.and_eq_true, List.all_eq_true,
        varsAll_eq_flatMap, List.forall_mem_append, List.forall_mem_flatMap]
      exact and_congr (forall₂_congr ihParams) ihResult
  | prim | named | void | object | dynamic | never => simp [within, vars]

theorem within_zero (ty : Ty) : ty.within 0 = !ty.hasVar := by
  rw [Bool.eq_iff_iff, within_iff, Bool.not_eq_true', hasVar_eq_false_iff]
  simp [List.eq_nil_iff_forall_not_mem]

end Ty

end ScriptTyping
