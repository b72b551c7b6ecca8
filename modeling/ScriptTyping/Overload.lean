import ScriptTyping.Environment.Coercion

/-!
Choosing a member for a list of argument types. Candidates are tried in order, first without
conversions and then with them. A candidate's type variables are bound from the receiver's generic
arguments and from the arguments, and a variable that would need two types rejects the candidate.
-/

namespace ScriptTyping

inductive Mismatch where
  | tooFew (least : Nat)
  | wrongCount (arity : Nat)
  /-- The argument with this number, counted from 1. -/
  | argument (number : Nat) (expected found : Ty)
  deriving Repr

def Mismatch.text : Mismatch → String
  | tooFew least => "expects at least " ++ toString least ++ " arguments"
  | wrongCount arity => "expects " ++ toString arity ++ " arguments"
  | argument number expected found =>
    "argument " ++ toString number ++ ": expected " ++ expected.text ++ ", found " ++ found.text

abbrev Bindings := List (Option Ty)

namespace Bindings

def get? (bindings : Bindings) (index : Nat) : Option Ty := (bindings[index]?).join

def instantiate (bindings : Bindings) (ty : Ty) : Ty := ty.substitute bindings.get?

def finish (bindings : Bindings) (ty : Ty) : Ty := (bindings.instantiate ty).close

end Bindings

def Member.expand (member : Member) (count : Nat) : Except Mismatch (List Ty) :=
  match member.variadicElement? with
  | some element =>
    let fixed := member.arity - 1
    if count < fixed then .error (.tooFew fixed)
    else .ok (member.params.take fixed ++ List.replicate (count - fixed) element)
  | none =>
    if count = member.arity then .ok member.params else .error (.wrongCount member.arity)

/-- The owner's variables stand for the receiver's generic arguments, as far as it has them. -/
def Member.receiverBindings (member : Member) (receiver : List Ty) : Bindings :=
  (List.range member.vars.length).map fun index =>
    if index < member.ownerVars then receiver[index]? else none

namespace Environment

mutual

def fit (environment : Environment) (bindings : Bindings) : Ty → Ty → Bool × Bindings
  | .var index, arg =>
    match bindings[index]? with
    | none => (arg.isNever, bindings)
    | some (some bound) => (bound == arg || arg.isNever, bindings)
    | some none => (true, if arg.isNever then bindings else bindings.set index (some arg))
  | .applied head params, arg =>
    if Ty.anyHasVar params then
      match arg with
      | .applied argHead args =>
        if head.name = argHead.name ∧ params.length = args.length then
          environment.fitAll bindings params args
        else (false, bindings)
      | _ => (arg.isNever, bindings)
    else (environment.isAssignable (.applied head params) arg, bindings)
  | .fn params result, arg =>
    if Ty.anyHasVar params || result.hasVar then
      match arg with
      | .fn argParams argResult =>
        if params.length = argParams.length then
          match environment.fitAll bindings params argParams with
          | (true, bindings) => environment.fit bindings result argResult
          | (false, bindings) => (false, bindings)
        else (false, bindings)
      | _ => (arg.isNever, bindings)
    else (environment.isAssignable (.fn params result) arg, bindings)
  | param, arg => (environment.isAssignable param arg, bindings)

def fitAll (environment : Environment) (bindings : Bindings) : List Ty → List Ty → Bool × Bindings
  | param :: params, arg :: args =>
    match environment.fit bindings param arg with
    | (true, bindings) => environment.fitAll bindings params args
    | (false, bindings) => (false, bindings)
  | _, _ => (true, bindings)

end

/-- Fits each argument to its parameter, the first of them at position `index`, and lists the
positions of those that fit only through a conversion. -/
def fitArgs (environment : Environment) (converting : Bool) :
    Nat → List (Ty × Ty) → Bindings → Except Mismatch (List Nat × Bindings)
  | _, [], bindings => .ok ([], bindings)
  | index, (param, arg) :: rest, bindings =>
    match environment.fit bindings param arg with
    | (true, bindings) => environment.fitArgs converting (index + 1) rest bindings
    | (false, bindings) =>
      let expected := bindings.instantiate param
      if converting && !expected.hasVar && environment.canCoerce arg expected then do
        let (positions, bindings) ← environment.fitArgs converting (index + 1) rest bindings
        .ok (index :: positions, bindings)
      else .error (.argument (index + 1) expected arg)

end Environment

structure Resolution where
  member : MemberId
  /-- The type of each variable of the signature; `Object` where nothing binds it. -/
  typeArgs : List Ty
  /-- The parameter type of each argument. -/
  params : List Ty
  result : Ty
  /-- The positions of the arguments that have to be converted to their parameter type. -/
  coercions : List Nat
  deriving Repr

structure Construction where
  /-- The constructed type, with its generic arguments. -/
  owner : Ty
  constructor : MemberId
  params : List Ty
  typeArgs : List Ty
  deriving Repr

def Resolution.construction (resolution : Resolution) : Construction where
  owner := resolution.result
  constructor := resolution.member
  params := resolution.params
  typeArgs := resolution.typeArgs

structure Rejection where
  member : MemberId
  reason : Mismatch
  deriving Repr

structure Lookup where
  found : Option Resolution
  rejected : List Rejection
  deriving Repr

namespace Environment

def rejectionText (environment : Environment) (rejection : Rejection) : String :=
  (environment.registry.member rejection.member).text ++ " (" ++ rejection.reason.text ++ ")"

def attempt (environment : Environment) (receiver : List Ty) (args : List Ty) (converting : Bool)
    (id : MemberId) : Except Mismatch Resolution := do
  let member := environment.registry.member id
  let expected ← member.expand args.length
  let (coercions, bindings) ← environment.fitArgs converting 0 (expected.zip args)
    (member.receiverBindings receiver)
  .ok {
    member := id
    typeArgs := (List.range member.vars.length).map fun index => bindings.finish (.var index)
    params := expected.map bindings.finish
    result := bindings.finish member.result
    coercions := coercions }

def firstMatch (environment : Environment) (receiver args : List Ty) (converting : Bool) :
    List MemberId → Lookup
  | [] => ⟨none, []⟩
  | id :: rest =>
    match environment.attempt receiver args converting id with
    | .ok resolution => ⟨some resolution, []⟩
    | .error reason =>
      let lookup := environment.firstMatch receiver args converting rest
      ⟨lookup.found, ⟨id, reason⟩ :: lookup.rejected⟩

/-- The first candidate that accepts the arguments as they are, else the first that accepts them
converted. The rejections are those of the pass without conversions, and none when the pass with
conversions succeeds. -/
def resolve (environment : Environment) (receiver : List Ty) (candidates : List MemberId)
    (args : List Ty) : Lookup :=
  let exact := environment.firstMatch receiver args false candidates
  if exact.found.isSome then exact
  else
    match (environment.firstMatch receiver args true candidates).found with
    | some resolution => ⟨some resolution, []⟩
    | none => exact

end Environment

end ScriptTyping
