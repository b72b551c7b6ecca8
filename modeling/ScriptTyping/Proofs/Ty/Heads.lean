import ScriptTyping.Environment.Naming
import ScriptTyping.Proofs.Ty.Substitution

/-!
Types in which any type may be applied. What is read of a type and what is made of it goes into the
heads of its applications. As long as names are applied it comes to the same as for `Ty`, and what
comes out applies names again.
-/

namespace ScriptTyping

inductive HeadedTy where
  | var (index : Nat)
  | prim (kind : Prim)
  | named (tyName : TyName)
  | applied (head : HeadedTy) (args : List HeadedTy)
  | fn (params : List HeadedTy) (result : HeadedTy)
  | void
  | object
  | dynamic
  | never
  deriving Repr

namespace HeadedTy

def headName? : HeadedTy → Option String
  | named tyName => some tyName.name
  | applied head _ => headName? head
  | prim kind => some kind.boxedName
  | _ => none

mutual

def hasVar : HeadedTy → Bool
  | var _ => true
  | applied head args => hasVar head || anyHasVar args
  | fn params result => anyHasVar params || hasVar result
  | _ => false

def anyHasVar : List HeadedTy → Bool
  | [] => false
  | ty :: rest => hasVar ty || anyHasVar rest

end

mutual

def substitute (binding : Nat → Option HeadedTy) : HeadedTy → HeadedTy
  | var index => (binding index).getD (var index)
  | applied head args => applied (substitute binding head) (substituteAll binding args)
  | fn params result => fn (substituteAll binding params) (substitute binding result)
  | ty => ty

def substituteAll (binding : Nat → Option HeadedTy) : List HeadedTy → List HeadedTy
  | [] => []
  | ty :: rest => substitute binding ty :: substituteAll binding rest

end

mutual

def qualify (environment : Environment) : HeadedTy → Except String HeadedTy
  | named tyName => do
    let tyName ← environment.qualifyName tyName
    .ok (named tyName)
  | applied head args => do
    let head ← qualify environment head
    let args ← qualifyAll environment args
    .ok (applied head args)
  | fn params result => do
    let params ← qualifyAll environment params
    let result ← qualify environment result
    .ok (fn params result)
  | ty => .ok ty

def qualifyAll (environment : Environment) : List HeadedTy → Except String (List HeadedTy)
  | [] => .ok []
  | ty :: rest => do
    let ty ← qualify environment ty
    let types ← qualifyAll environment rest
    .ok (ty :: types)

end

/-- Whether nothing but names is applied in a type. -/
inductive Nominal : HeadedTy → Prop where
  | var (index : Nat) : Nominal (var index)
  | prim (kind : Prim) : Nominal (prim kind)
  | named (tyName : TyName) : Nominal (named tyName)
  | applied (tyName : TyName) {args : List HeadedTy} :
      (∀ arg ∈ args, Nominal arg) → Nominal (applied (.named tyName) args)
  | fn {params : List HeadedTy} {result : HeadedTy} :
      (∀ param ∈ params, Nominal param) → Nominal result → Nominal (fn params result)
  | void : Nominal void
  | object : Nominal object
  | dynamic : Nominal dynamic
  | never : Nominal never

end HeadedTy

namespace Ty

mutual

def headed : Ty → HeadedTy
  | var index => .var index
  | prim kind => .prim kind
  | named tyName => .named tyName
  | applied head args => .applied (.named head) (headedAll args)
  | fn params result => .fn (headedAll params) (headed result)
  | void => .void
  | object => .object
  | dynamic => .dynamic
  | never => .never

def headedAll : List Ty → List HeadedTy
  | [] => []
  | ty :: rest => headed ty :: headedAll rest

end

theorem headedAll_eq_map (types : List Ty) : headedAll types = types.map headed := by
  induction types with
  | nil => rfl
  | cons ty types ih => rw [headedAll, ih, List.map_cons]

/-! ### The types that apply names -/

theorem nominal_headed (ty : Ty) : ty.headed.Nominal := by
  induction ty using induction with
  | applied head args ih =>
      rw [headed, headedAll_eq_map]
      exact .applied head (List.forall_mem_map.mpr ih)
  | fn params result ihParams ihResult =>
      rw [headed, headedAll_eq_map]
      exact .fn (List.forall_mem_map.mpr ihParams) ihResult
  | _ => constructor

theorem exists_headedAll {types : List HeadedTy}
    (each : ∀ ty ∈ types, ∃ plain : Ty, plain.headed = ty) :
    ∃ plains : List Ty, headedAll plains = types := by
  induction types with
  | nil => exact ⟨[], rfl⟩
  | cons ty types ih =>
      obtain ⟨⟨plain, rfl⟩, others⟩ := List.forall_mem_cons.mp each
      obtain ⟨plains, rfl⟩ := ih others
      exact ⟨plain :: plains, rfl⟩

end Ty

theorem HeadedTy.nominal_iff {ty : HeadedTy} : ty.Nominal ↔ ∃ plain : Ty, plain.headed = ty := by
  constructor
  · intro nominal
    induction nominal with
    | applied tyName _ ih =>
        obtain ⟨args, rfl⟩ := Ty.exists_headedAll ih
        exact ⟨.applied tyName args, rfl⟩
    | fn _ _ ihParams ihResult =>
        obtain ⟨params, rfl⟩ := Ty.exists_headedAll ihParams
        obtain ⟨result, rfl⟩ := ihResult
        exact ⟨.fn params result, rfl⟩
    | var index => exact ⟨.var index, rfl⟩
    | prim kind => exact ⟨.prim kind, rfl⟩
    | named tyName => exact ⟨.named tyName, rfl⟩
    | void => exact ⟨.void, rfl⟩
    | object => exact ⟨.object, rfl⟩
    | dynamic => exact ⟨.dynamic, rfl⟩
    | never => exact ⟨.never, rfl⟩
  · rintro ⟨plain, rfl⟩
    exact plain.nominal_headed

namespace Ty

/-! ### What goes into heads -/

theorem headName?_headed (ty : Ty) : ty.headed.headName? = ty.headName? := by
  cases ty <;> rfl

mutual

theorem hasVar_headed : (ty : Ty) → ty.headed.hasVar = ty.hasVar
  | applied _ args => by
    rw [headed, HeadedTy.hasVar, HeadedTy.hasVar, hasVar, anyHasVar_headedAll args, Bool.false_or]
    all_goals simp
  | fn params result => by
    rw [headed, HeadedTy.hasVar, hasVar, anyHasVar_headedAll params, hasVar_headed result]
  | var _ | prim _ | named _ | void | object | dynamic | never => rfl

theorem anyHasVar_headedAll :
    (types : List Ty) → HeadedTy.anyHasVar (headedAll types) = anyHasVar types
  | [] => rfl
  | ty :: rest => by
    rw [headedAll, HeadedTy.anyHasVar, anyHasVar, hasVar_headed ty, anyHasVar_headedAll rest]

end

section Substitute

variable (binding : Nat → Option Ty)

mutual

theorem headed_substitute : (ty : Ty) →
    (ty.substitute binding).headed =
      ty.headed.substitute fun index => (binding index).map headed
  | var index => by
    rw [substitute, headed, HeadedTy.substitute]
    cases binding index <;> rfl
  | applied head args => by
    rw [substitute, headed, headedAll_substituteAll args]
    rfl
  | fn params result => by
    rw [substitute, headed, headedAll_substituteAll params, headed_substitute result]
    rfl
  | prim _ | named _ | void | object | dynamic | never => rfl

theorem headedAll_substituteAll : (types : List Ty) →
    headedAll (substituteAll binding types) =
      HeadedTy.substituteAll (fun index => (binding index).map headed) (headedAll types)
  | [] => rfl
  | ty :: rest => by
    rw [substituteAll, headedAll, headed_substitute ty, headedAll_substituteAll rest]
    rfl

end

end Substitute

section Qualify

variable (environment : Environment)

mutual

theorem qualify_headed : (ty : Ty) →
    ty.headed.qualify environment = (environment.qualify ty).map headed
  | named tyName => by
    rw [headed, HeadedTy.qualify, Environment.qualify]
    cases environment.qualifyName tyName <;> rfl
  | applied head args => by
    rw [headed, HeadedTy.qualify, HeadedTy.qualify, Environment.qualify, qualifyAll_headedAll args]
    cases environment.qualifyName head <;> cases environment.qualifyAll args <;> rfl
  | fn params result => by
    rw [headed, HeadedTy.qualify, Environment.qualify, qualifyAll_headedAll params,
      qualify_headed result]
    cases environment.qualifyAll params <;> cases environment.qualify result <;> rfl
  | var _ | prim _ | void | object | dynamic | never => rfl

theorem qualifyAll_headedAll : (types : List Ty) →
    HeadedTy.qualifyAll environment (headedAll types) =
      (environment.qualifyAll types).map headedAll
  | [] => rfl
  | ty :: rest => by
    rw [headedAll, HeadedTy.qualifyAll, Environment.qualifyAll, qualify_headed ty,
      qualifyAll_headedAll rest]
    cases environment.qualify ty <;> cases environment.qualifyAll rest <;> rfl

end

end Qualify

end Ty

/-! ### What comes out -/

namespace HeadedTy

variable {ty result : HeadedTy}

theorem Nominal.substitute {binding : Nat → Option HeadedTy} (nominal : ty.Nominal)
    (bound : ∀ index known, binding index = some known → known.Nominal) :
    (ty.substitute binding).Nominal := by
  have plainly : ∀ index, ∃ plain : Option Ty, plain.map Ty.headed = binding index := by
    intro index
    cases isKnown : binding index with
    | none => exact ⟨none, rfl⟩
    | some known =>
        obtain ⟨plain, rfl⟩ := nominal_iff.mp (bound index known isKnown)
        exact ⟨some plain, rfl⟩
  choose plain same using plainly
  obtain ⟨plainTy, rfl⟩ := nominal_iff.mp nominal
  rw [← funext same, ← Ty.headed_substitute]
  exact Ty.nominal_headed _

theorem Nominal.qualify {environment : Environment} (nominal : ty.Nominal)
    (qualified : ty.qualify environment = .ok result) : result.Nominal := by
  obtain ⟨plain, rfl⟩ := nominal_iff.mp nominal
  rw [Ty.qualify_headed] at qualified
  cases run : environment.qualify plain with
  | error name =>
      rw [run] at qualified
      cases qualified
  | ok known =>
      rw [run] at qualified
      cases qualified
      exact known.nominal_headed

end HeadedTy

end ScriptTyping
