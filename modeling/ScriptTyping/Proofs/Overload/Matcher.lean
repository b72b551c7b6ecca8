import ScriptTyping.Proofs.Overload.Rejections

/-!
A matcher that all lookups share. It holds the receiver's generic arguments and a line for each
candidate that the first pass goes past, and a pass with conversions that finds something throws the
lines away. What earlier lookups left in it does not reach a later one, which finds what a lookup on
its own finds, and keeps the same lines.
-/

namespace ScriptTyping

structure Matcher where
  /-- The generic arguments of the receiver. -/
  receiver : List Ty := []
  /-- A line for each candidate that was passed over. -/
  rejected : List String := []

namespace Matcher

def init (matcher : Matcher) (receiver : Option Ty) : Matcher :=
  { matcher with receiver := (receiver.map Ty.args).getD [], rejected := [] }

def seek (matcher : Matcher) (environment : Environment) (args : List Ty) :
    List MemberId → Option Resolution × Matcher
  | [] => (none, matcher)
  | id :: rest =>
    match environment.attempt matcher.receiver args false id with
    | .ok resolution => (some resolution, matcher)
    | .error reason =>
      let line := environment.rejectionText ⟨id, reason⟩
      { matcher with rejected := matcher.rejected ++ [line] }.seek environment args rest

def resolve (matcher : Matcher) (environment : Environment) (candidates : List MemberId)
    (args : List Ty) : Option Resolution × Matcher :=
  match matcher.seek environment args candidates with
  | (some resolution, matcher) => (some resolution, matcher)
  | (none, matcher) =>
    match (environment.firstMatch matcher.receiver args true candidates).found with
    | some resolution => (some resolution, { matcher with rejected := [] })
    | none => (none, matcher)

variable {environment : Environment} {args : List Ty} {candidates : List MemberId}

theorem seek_eq (matcher : Matcher) :
    let lookup := environment.firstMatch matcher.receiver args false candidates
    matcher.seek environment args candidates = (lookup.found, { matcher with
      rejected := matcher.rejected ++ lookup.rejected.map environment.rejectionText }) := by
  induction candidates generalizing matcher with
  | nil => simp [seek, Environment.firstMatch]
  | cons id rest ih =>
      simp only [seek, Environment.firstMatch]
      cases environment.attempt matcher.receiver args false id with
      | ok resolution => simp
      | error reason => simp [ih]

/-- A lookup in a matcher that was made ready finds what it finds on its own, whatever was in the
matcher before. -/
theorem resolve_init (left : Matcher) (receiver : Option Ty) :
    let generics := (receiver.map Ty.args).getD []
    let lookup := environment.resolve generics candidates args
    (left.init receiver).resolve environment candidates args =
      (lookup.found, ⟨generics, lookup.rejected.map environment.rejectionText⟩) := by
  simp only [resolve, seek_eq, init, List.nil_append, Environment.resolve]
  generalize (receiver.map Ty.args).getD [] = generics
  cases exactly : (environment.firstMatch generics args false candidates).found with
  | some resolution => simp [exactly]
  | none =>
      cases converted : (environment.firstMatch generics args true candidates).found with
      | some resolution => simp [converted]
      | none => simp [exactly, converted]

end Matcher

namespace Environment

variable {environment : Environment} {receiver args : List Ty} {candidates : List MemberId}

theorem firstMatch_reasons {converting : Bool}
    (nothing : (environment.firstMatch receiver args converting candidates).found = none) :
    List.Forall₂ (fun id rejection => rejection.member = id ∧
        environment.attempt receiver args converting id = .error rejection.reason)
      candidates (environment.firstMatch receiver args converting candidates).rejected := by
  induction candidates with
  | nil => exact .nil
  | cons id rest ih =>
      rw [firstMatch] at nothing ⊢
      split at nothing
      · cases nothing
      · rename_i reason passed
        exact .cons ⟨rfl, passed⟩ (ih nothing)

/-- A lookup that finds nothing says of every candidate, in order, why the candidate does not take
the arguments as they are. -/
theorem resolve_reasons (nothing : (environment.resolve receiver candidates args).found = none) :
    List.Forall₂ (fun id rejection => rejection.member = id ∧
        environment.attempt receiver args false id = .error rejection.reason)
      candidates (environment.resolve receiver candidates args).rejected := by
  simp only [resolve] at nothing ⊢
  split at nothing
  · rename_i exactly
    rw [nothing] at exactly
    cases exactly
  · rename_i inexact
    split at nothing
    · cases nothing
    · rename_i unconverted
      simp only [inexact, if_false, Bool.false_eq_true]
      exact firstMatch_reasons nothing

end Environment

end ScriptTyping
