import ScriptTyping.Ty.Basic

/-!
Types are compared up to the namespaces of their names. This is equality of the bare types, so it is
an equivalence, and what does not look at namespaces respects it.
-/

namespace ScriptTyping

namespace Ty

theorem beq_iff_bare {left right : Ty} : (left == right) = true ↔ left.bare = right.bare :=
  same_eq_true_iff left right

instance : EquivBEq Ty where
  rfl := beq_iff_bare.mpr rfl
  symm same := beq_iff_bare.mpr (beq_iff_bare.mp same).symm
  trans first second := beq_iff_bare.mpr ((beq_iff_bare.mp first).trans (beq_iff_bare.mp second))

theorem beqAll_iff_bare {lefts rights : List Ty} :
    (lefts == rights) = true ↔ bareAll lefts = bareAll rights := by
  induction lefts generalizing rights with
  | nil => cases rights <;> simp [bareAll]
  | cons left lefts ih =>
      cases rights with
      | nil => simp [bareAll]
      | cons right rights =>
          simp only [List.cons_beq_cons, Bool.and_eq_true, ih, beq_iff_bare, bareAll,
            List.cons.injEq]

mutual

@[simp]
theorem bare_bare : (ty : Ty) → ty.bare.bare = ty.bare
  | var _ => rfl
  | prim _ => rfl
  | named _ => rfl
  | applied _ args => by simp [bare, bareAll_bareAll args]
  | fn params result => by simp [bare, bareAll_bareAll params, bare_bare result]
  | void => rfl
  | object => rfl
  | dynamic => rfl
  | never => rfl

@[simp]
theorem bareAll_bareAll : (types : List Ty) → bareAll (bareAll types) = bareAll types
  | [] => rfl
  | ty :: types => by simp [bareAll, bare_bare ty, bareAll_bareAll types]

end

theorem bare_beq (ty : Ty) : (ty.bare == ty) = true := beq_iff_bare.mpr (bare_bare ty)

/-! ### What does not look at namespaces -/

theorem headName?_bare (ty : Ty) : ty.bare.headName? = ty.headName? := by cases ty <;> rfl

theorem isNever_bare (ty : Ty) : ty.bare.isNever = ty.isNever := by cases ty <;> rfl

theorem isVoid_bare (ty : Ty) : ty.bare.isVoid = ty.isVoid := by cases ty <;> rfl

theorem eq_dynamic_of_isDynamic {ty : Ty} (isDynamic : ty.isDynamic = true) : ty = .dynamic := by
  cases ty <;> simp [Ty.isDynamic] at isDynamic ⊢

theorem ne_never_of_isCallable {ty : Ty} (isCallable : ty.isCallable = true) : ty ≠ .never := by
  rintro rfl
  simp [Ty.isCallable] at isCallable

theorem beq_callable_of_isCallable {ty : Ty} (isCallable : ty.isCallable = true) :
    (ty == .callable) = true := by
  cases ty <;> simp only [Ty.isCallable, Bool.false_eq_true] at isCallable
  exact isCallable

theorem isDynamic_bare (ty : Ty) : ty.bare.isDynamic = ty.isDynamic := by cases ty <;> rfl

theorem args_bare (ty : Ty) : ty.bare.args = bareAll ty.args := by cases ty <;> rfl

theorem eq_never_of_isNever {ty : Ty} (never : ty.isNever = true) : ty = .never := by
  cases ty <;> simp_all [isNever]

end Ty

end ScriptTyping
