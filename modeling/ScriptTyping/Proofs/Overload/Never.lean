import Mathlib.Data.List.Forall2
import ScriptTyping.Proofs.Overload.Monotone

/-!
An argument of type `never` stands for a failed expression and fits every parameter. It leaves the
variables free that the argument in its place would have bound, so the two runs are compared through
their bindings: what the run with more `never` arguments has bound, the other has bound to the same
type.
-/

namespace ScriptTyping

namespace Bindings

structure Looser (fewer more : Bindings) : Prop where
  length : fewer.length = more.length
  same : ∀ (index : Nat) (ty : Ty), fewer[index]? = some (some ty) →
    ∃ other, more[index]? = some (some other) ∧ (other == ty) = true

variable {fewer more after : Bindings}

theorem Looser.refl (bindings : Bindings) : bindings.Looser bindings :=
  ⟨rfl, fun _ ty bound => ⟨ty, bound, BEq.rfl⟩⟩

theorem Looser.none_iff (looser : fewer.Looser more) {index : Nat} :
    fewer[index]? = none ↔ more[index]? = none := by
  rw [List.getElem?_eq_none_iff, List.getElem?_eq_none_iff, looser.length]

theorem Looser.free (looser : fewer.Looser more) {index : Nat} (free : more[index]? = some none) :
    fewer[index]? = some none := by
  match found : fewer[index]? with
  | none => simp [looser.none_iff.mp found] at free
  | some none => rfl
  | some (some ty) =>
      obtain ⟨other, bound, _⟩ := looser.same index ty found
      simp [bound] at free

/-- Binding more in the run that has bound more keeps the two comparable. -/
theorem Looser.extend (looser : fewer.Looser more) (later : more.Extends after)
    (length : after.length = more.length) : fewer.Looser after := by
  constructor
  · rw [looser.length, length]
  · intro index ty bound
    obtain ⟨other, found, same⟩ := looser.same index ty bound
    exact ⟨other, later index other found, same⟩

theorem bound_of_set {bindings : Bindings} {index position : Nat} {ty other : Ty}
    (found : (bindings.set index (some ty))[position]? = some (some other)) :
    (index = position ∧ ty = other ∧ index < bindings.length) ∨
      bindings[position]? = some (some other) := by
  rw [List.getElem?_set] at found
  split at found
  · rename_i here
    split at found
    · rename_i inside
      exact .inl ⟨here, Option.some.inj (Option.some.inj found), inside⟩
    · cases found
  · exact .inr found

theorem Looser.set (looser : fewer.Looser more) {index : Nat} {bound ty : Ty}
    (there : more[index]? = some (some bound)) (same : (bound == ty) = true) :
    Looser (fewer.set index (some ty)) more := by
  constructor
  · rw [List.length_set, looser.length]
  · intro position other found
    rcases bound_of_set found with ⟨rfl, rfl, _⟩ | before
    · exact ⟨bound, there, same⟩
    · exact looser.same position other before

theorem Looser.setBoth (looser : fewer.Looser more) {index : Nat} (ty : Ty)
    (free : more[index]? = some none) :
    Looser (fewer.set index (some ty)) (more.set index (some ty)) := by
  have inside : index < more.length := (List.getElem?_eq_some_iff.mp free).1
  refine (looser.extend (extends_set free ty) List.length_set).set ?_ BEq.rfl
  exact List.getElem?_set_self inside

end Bindings

namespace Environment

variable {environment : Environment} {fewer more : Bindings}

/-! ### One argument -/

mutual

theorem length_fit (bindings : Bindings) : (param arg : Ty) →
    (environment.fit bindings param arg).2.length = bindings.length
  | .var index, arg => by
    simp only [fit]
    split
    · rfl
    · rfl
    · split
      · rfl
      · exact List.length_set
  | .applied head params, arg => by
    simp only [fit]
    split
    · split
      · split
        · exact length_fitAll bindings params _
        · rfl
      · rfl
    · rfl
  | .fn params result, arg => by
    simp only [fit]
    split
    · split
      · rename_i argParams argResult
        split
        · have first := length_fitAll bindings params argParams
          split
          · rename_i between fits
            rw [fits] at first
            exact (length_fit between result argResult).trans first
          · rename_i between fails
            rw [fails] at first
            exact first
        · rfl
      · rfl
    · rfl
  | .prim _, _ => rfl
  | .named _, _ => rfl
  | .void, _ => rfl
  | .object, _ => rfl
  | .dynamic, _ => rfl
  | .never, _ => rfl

theorem length_fitAll (bindings : Bindings) : (params args : List Ty) →
    (environment.fitAll bindings params args).2.length = bindings.length
  | [], _ => rfl
  | _ :: _, [] => rfl
  | param :: params, arg :: args => by
    have first := length_fit bindings param arg
    simp only [fitAll]
    split
    · rename_i between fits
      rw [fits] at first
      exact (length_fitAll between params args).trans first
    · rename_i between fails
      rw [fails] at first
      exact first

end

/-- A `never` argument fits every parameter and binds nothing. -/
theorem fit_never (environment : Environment) (bindings : Bindings) (param : Ty) :
    environment.fit bindings param .never = (true, bindings) := by
  by_cases plain : param.hasVar = false
  · rw [fit_of_plain plain, isAssignable_never]
  · rw [Bool.not_eq_false] at plain
    cases param with
    | var index =>
        simp only [fit]
        split <;> simp [Ty.isNever]
    | applied head params =>
        have varies : Ty.anyHasVar params = true := plain
        simp only [fit, varies, if_true, Ty.isNever]
    | fn params result =>
        have varies : (Ty.anyHasVar params || result.hasVar) = true := plain
        simp only [fit, varies, if_true, Ty.isNever]
    | _ => simp [Ty.hasVar] at plain

theorem fit_never_looser (looser : fewer.Looser more) {param : Ty} {after : Bindings}
    (fits : environment.fit more param .never = (true, after)) :
    ∃ other, environment.fit fewer param .never = (true, other) ∧ other.Looser after := by
  rw [fit_never, Prod.mk.injEq] at fits
  exact ⟨fewer, fit_never .., fits.2 ▸ looser⟩

theorem fit_var_looser (looser : fewer.Looser more) {index : Nat} {arg : Ty} {after : Bindings}
    (fits : environment.fit more (.var index) arg = (true, after)) :
    ∃ other, environment.fit fewer (.var index) arg = (true, other) ∧ other.Looser after := by
  by_cases never : arg.isNever = true
  · rw [Ty.eq_never_of_isNever never] at fits ⊢
    exact fit_never_looser looser fits
  · rw [Bool.not_eq_true] at never
    simp only [fit, never, Bool.or_false, Bool.false_eq_true, if_false] at fits ⊢
    match bound : more[index]? with
    | none => simp [bound] at fits
    | some none =>
        simp only [bound, Prod.mk.injEq, true_and] at fits
        rw [looser.free bound, ← fits]
        exact ⟨_, rfl, looser.setBoth arg bound⟩
    | some (some ty) =>
        simp only [bound, Prod.mk.injEq] at fits
        obtain ⟨same, rfl⟩ := fits
        match found : fewer[index]? with
        | none => simp [looser.none_iff.mp found] at bound
        | some none => exact ⟨_, rfl, looser.set bound same⟩
        | some (some other) =>
            obtain ⟨ty', bound', alike⟩ := looser.same index other found
            obtain rfl : ty = ty' := by simpa [bound] using bound'
            exact ⟨fewer, by simp only [BEq.trans (BEq.symm alike) same], looser⟩

theorem fit_plain_looser (looser : fewer.Looser more) {param arg : Ty} {after : Bindings}
    (plain : param.hasVar = false) (fits : environment.fit more param arg = (true, after)) :
    ∃ other, environment.fit fewer param arg = (true, other) ∧ other.Looser after := by
  rw [fit_of_plain plain, Prod.mk.injEq] at fits
  rw [fit_of_plain plain, fits.1, ← fits.2]
  exact ⟨fewer, rfl, looser⟩

mutual

/-- An argument that fits goes on to fit when fewer variables are bound. -/
theorem fit_looser {fewer more : Bindings} (looser : fewer.Looser more) :
    (param arg : Ty) → {after : Bindings} → environment.fit more param arg = (true, after) →
    ∃ other, environment.fit fewer param arg = (true, other) ∧ other.Looser after
  | .var index, arg, after, fits => fit_var_looser looser fits
  | .applied head params, arg, after, fits => by
    by_cases varies : Ty.anyHasVar params = true
    · cases arg with
      | applied argHead args =>
          obtain ⟨heads, fits⟩ := (fit_applied_eq_true_iff varies).mp fits
          obtain ⟨other, inner, still⟩ := fitAll_looser looser params args fits
          exact ⟨other, (fit_applied_eq_true_iff varies).mpr ⟨heads, inner⟩, still⟩
      | never => exact fit_never_looser looser fits
      | _ => simp [fit, varies, Ty.isNever] at fits
    · exact fit_plain_looser looser (by simpa [Ty.hasVar] using varies) fits
  | .fn params result, arg, after, fits => by
    by_cases varies : (Ty.anyHasVar params || result.hasVar) = true
    · cases arg with
      | fn args argResult =>
          obtain ⟨lengths, between, first, last⟩ := (fit_fn_eq_true_iff varies).mp fits
          obtain ⟨middle, inner, still⟩ := fitAll_looser looser params args first
          obtain ⟨other, outer, ends⟩ := fit_looser still result argResult last
          exact ⟨other, (fit_fn_eq_true_iff varies).mpr ⟨lengths, middle, inner, outer⟩, ends⟩
      | never => exact fit_never_looser looser fits
      | _ => simp [fit, varies, Ty.isNever] at fits
    · exact fit_plain_looser looser (by simpa [Ty.hasVar] using varies) fits
  | .prim _, _, _, fits => fit_plain_looser looser rfl fits
  | .named _, _, _, fits => fit_plain_looser looser rfl fits
  | .void, _, _, fits => fit_plain_looser looser rfl fits
  | .object, _, _, fits => fit_plain_looser looser rfl fits
  | .dynamic, _, _, fits => fit_plain_looser looser rfl fits
  | .never, _, _, fits => fit_plain_looser looser rfl fits

theorem fitAll_looser {fewer more : Bindings} (looser : fewer.Looser more) :
    (params args : List Ty) → {after : Bindings} →
    environment.fitAll more params args = (true, after) →
    ∃ other, environment.fitAll fewer params args = (true, other) ∧ other.Looser after
  | [], _, _, fits => ⟨fewer, rfl, (Prod.mk.inj fits).2 ▸ looser⟩
  | _ :: _, [], _, fits => ⟨fewer, rfl, (Prod.mk.inj fits).2 ▸ looser⟩
  | param :: params, arg :: args, after, fits => by
    obtain ⟨between, first, rest⟩ := fitAll_cons_eq_true_iff.mp fits
    obtain ⟨middle, inner, still⟩ := fit_looser looser param arg first
    obtain ⟨other, outer, ends⟩ := fitAll_looser still params args rest
    exact ⟨other, fitAll_cons_eq_true_iff.mpr ⟨middle, inner, outer⟩, ends⟩

end

/-! ### All arguments -/

/-- Whether types are the given ones, some of them replaced by `never`. -/
def Silences (args errs : List Ty) : Prop :=
  List.Forall₂ (fun arg err => err = arg ∨ err = .never) args errs

theorem fitArgs_silences {params args errs : List Ty} (silences : Silences args errs)
    (looser : fewer.Looser more) {index : Nat} {positions : List Nat} {after : Bindings}
    (fits : environment.fitArgs false index (params.zip args) more = .ok (positions, after)) :
    ∃ other, environment.fitArgs false index (params.zip errs) fewer = .ok ([], other) := by
  induction silences generalizing params index fewer more with
  | nil => exact ⟨fewer, by simp [fitArgs]⟩
  | @cons arg err args errs replaced _ ih =>
      cases params with
      | nil => exact ⟨fewer, by simp [fitArgs]⟩
      | cons param params =>
          rw [List.zip_cons_cons, fitArgs] at fits ⊢
          cases first : environment.fit more param arg with
          | mk answer between =>
              cases answer with
              | false => simp [first] at fits
              | true =>
                  rw [first] at fits
                  have goesOn : ∃ middle, environment.fit fewer param err = (true, middle) ∧
                      middle.Looser between := by
                    rcases replaced with rfl | rfl
                    · exact fit_looser looser param err first
                    · have fitted := environment.fit_fitted more param arg
                      have length := environment.length_fit more param arg
                      rw [first] at fitted length
                      exact ⟨fewer, fit_never .., looser.extend fitted.later length⟩
                  obtain ⟨middle, here, still⟩ := goesOn
                  rw [here]
                  exact ih still fits

/-- Arguments that are all accepted as they are need no pass with conversions. -/
theorem fitArgs_exactly {converting : Bool} {index : Nat} {pairs : List (Ty × Ty)}
    {before after : Bindings}
    (fits : environment.fitArgs converting index pairs before = .ok ([], after)) :
    environment.fitArgs false index pairs before = .ok ([], after) := by
  induction pairs generalizing index before with
  | nil => exact fits
  | cons pair rest ih =>
      obtain ⟨param, arg⟩ := pair
      rw [fitArgs] at fits ⊢
      split at fits
      · exact ih fits
      · simp only at fits
        split at fits
        · obtain ⟨_, _, last⟩ := Except.bind_eq_ok.mp fits
          simp at last
        · simp at fits

/-! ### Candidates -/

variable {receiver args errs : List Ty}

theorem attempt_silences (silences : Silences args errs) {converting : Bool} {id : MemberId}
    {resolution : Resolution} (exact : resolution.coercions = [])
    (accepts : environment.attempt receiver args converting id = .ok resolution) :
    ∃ other, environment.attempt receiver errs false id = .ok other ∧ other.coercions = [] := by
  rw [attempt] at accepts
  obtain ⟨expected, expands, accepts⟩ := Except.bind_eq_ok.mp accepts
  obtain ⟨⟨positions, bindings⟩, fits, accepts⟩ := Except.bind_eq_ok.mp accepts
  obtain rfl : positions = [] := by
    rw [← Except.ok.inj accepts] at exact
    exact exact
  obtain ⟨other, goesOn⟩ := fitArgs_silences silences (.refl _) (fitArgs_exactly fits)
  rw [List.Forall₂.length_eq silences] at expands
  simp only [attempt, bind, Except.bind, expands, goesOn]
  exact ⟨_, rfl, rfl⟩

theorem attempt_exact {id : MemberId} {resolution : Resolution}
    (accepts : environment.attempt receiver args false id = .ok resolution) :
    resolution.coercions = [] := by
  rw [attempt] at accepts
  obtain ⟨expected, _, accepts⟩ := Except.bind_eq_ok.mp accepts
  obtain ⟨⟨positions, bindings⟩, fits, accepts⟩ := Except.bind_eq_ok.mp accepts
  rw [← Except.ok.inj accepts]
  by_contra converted
  cases (fitArgs_fitted fits).converts converted

/-- Failed arguments do not keep a lookup from matching: one that finds a member which takes the
arguments as they are finds such a member also when any of them are replaced by `never`. -/
theorem resolve_silences {candidates : List MemberId} {resolution : Resolution}
    (found : (environment.resolve receiver candidates args).found = some resolution)
    (exact : resolution.coercions = []) (silences : Silences args errs) :
    ∃ other, (environment.resolve receiver candidates errs).found = some other ∧
      other.coercions = [] := by
  obtain ⟨converting, chosen⟩ := resolve_firstMatch found
  obtain ⟨id, member, accepts⟩ := firstMatch_attempt chosen
  obtain ⟨accepted, goesOn, _⟩ := attempt_silences silences exact accepts
  have first : (environment.firstMatch receiver errs false candidates).found.isSome = true :=
    firstMatch_isSome_iff.mpr ⟨id, member, accepted, goesOn⟩
  obtain ⟨other, chosen⟩ := Option.isSome_iff_exists.mp first
  refine ⟨other, ?_, ?_⟩
  · simp only [resolve, first, if_true]
    exact chosen
  · obtain ⟨other, _, attempted⟩ := firstMatch_attempt chosen
    exact attempt_exact attempted

def folder : Member where
  owner := "folds"
  name := "fold"
  kind := .function
  params := [.var 0, .fn [.var 0] (.var 0)]
  result := .var 0
  vars := ["T"]

def folds : Environment where
  registry := { members := #[folder] }

/-- Without the start it is the step that binds the variable, and without both nothing does. -/
theorem resolve_silences_fold :
    let next := Ty.fn [.int] .int
    let types := fun args => ((folds.resolve [] [0] args).found.map (·.typeArgs)).getD []
    types [.int, next] = [.int] ∧ types [.never, next] = [.int] ∧
      types [.never, .never] = [.object] ∧
      ∃ other, (folds.resolve [] [0] [.never, next]).found = some other ∧ other.coercions = [] := by
  intro next types
  let resolution : Resolution :=
    { member := 0, typeArgs := [.int], params := [.int, next], result := .int, coercions := [] }
  have found : (folds.resolve [] [0] [.int, next]).found = some resolution := by rfl
  refine ⟨by rfl, by rfl, by rfl, ?_⟩
  exact resolve_silences found rfl (.cons (.inr rfl) (.cons (.inl rfl) .nil))

end Environment

end ScriptTyping
