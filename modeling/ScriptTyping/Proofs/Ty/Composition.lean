import ScriptTyping.Check.Access
import ScriptTyping.Overload
import ScriptTyping.Proofs.Ty.Substitution

/-!
Replacing variables in steps. Two replacements are one, and so are the two with which the types of
a chosen member and of a field come about: what is known is put in, then `Object` for the rest.
-/

namespace ScriptTyping

theorem Bindings.finish_eq_substitute (bindings : Bindings) (ty : Ty) :
    bindings.finish ty = ty.substitute fun index => some (Ty.closing bindings.get? index) :=
  Ty.close_substitute bindings.get? ty

theorem Rule.fieldType_eq_substitute (member : Member) (receiver : List Ty) :
    fieldType member receiver =
      member.result.substitute fun index => some (Ty.closing (receiver[·]?) index) :=
  Ty.close_substitute (receiver[·]?) member.result

namespace Ty

/-- One replacement after another is the replacement that puts the second into what the first binds
and leaves the other variables to the second. A type stays when none of its variables is bound, and
is left without variables exactly when each of them is bound to a type without any. What closes the
types of a chosen member and of a field is one replacement that binds every variable. -/
theorem substitute_composes (ty : Ty) :
    (∀ first second : Nat → Option Ty, (ty.substitute first).substitute second =
      ty.substitute fun index =>
        match first index with
        | some known => some (known.substitute second)
        | none => second index) ∧
    (∀ binding : Nat → Option Ty, (∀ index ∈ ty.vars, binding index = none) →
      ty.substitute binding = ty) ∧
    (∀ binding : Nat → Option Ty, (ty.substitute binding).hasVar = false ↔
      ∀ index ∈ ty.vars, ∃ known, binding index = some known ∧ known.hasVar = false) ∧
    (∀ bindings : Bindings, bindings.finish ty = ty.substitute fun index =>
      some (((bindings.get? index).map close).getD object)) ∧
    (∀ (member : Member) (receiver : List Ty),
      Rule.fieldType member receiver = member.result.substitute fun index =>
        some (((receiver[index]?).map close).getD object)) := by
  refine ⟨fun first second => substitute_substitute first second ty, ?_,
    fun binding => hasVar_substitute_iff ty, fun bindings => bindings.finish_eq_substitute ty,
    Rule.fieldType_eq_substitute⟩
  intro binding unbound
  rw [substitute_eq_self_iff]
  intro index member
  rw [substitute, unbound index member]
  rfl

def pairing : Ty := fn [generic "Pair" [var 0, var 1]] (var 2)

theorem substitute_composes_pairing :
    (pairing.substitute (Bindings.get? [some (array (var 1)), some (var 0)])).substitute
        (Bindings.get? [some int, some string, some bool]) =
      fn [generic "Pair" [array string, int]] bool ∧
    (∀ index ∈ pairing.vars, Bindings.get? [none, none, none, some int] index = none) ∧
    pairing.substitute (Bindings.get? [none, none, none, some int]) = pairing := by
  have free : ∀ index ∈ pairing.vars, Bindings.get? [none, none, none, some int] index = none := by
    simp [pairing, generic, vars, varsAll, Bindings.get?]
  obtain ⟨composes, keeps, _⟩ := substitute_composes pairing
  exact ⟨(composes _ _).trans rfl, free, keeps _ free⟩

end Ty

end ScriptTyping
