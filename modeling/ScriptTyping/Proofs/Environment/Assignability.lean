import ScriptTyping.Environment.Coercion
import ScriptTyping.Proofs.Environment.Growth
import ScriptTyping.Proofs.Ty.Equality

/-!
Assignability does not look at namespaces, and it survives a change of the environment that keeps
the declared supertypes.
-/

namespace ScriptTyping

namespace Environment

variable {environment old new : Environment} {target source target' source' : Ty}

theorem isAssignable_of_isNever (never : source.isNever = true) :
    environment.isAssignable target source = true := by
  show (target == source || source.isNever || _) = true
  rw [never, Bool.or_true, Bool.true_or]

theorem isAssignable_of_beq (same : (target == source) = true) :
    environment.isAssignable target source = true := by
  show (target == source || source.isNever || _) = true
  rw [same, Bool.true_or, Bool.true_or]

@[simp]
theorem isAssignable_never (environment : Environment) (target : Ty) :
    environment.isAssignable target .never = true :=
  isAssignable_of_isNever rfl

theorem beq_bare (left right : Ty) : (left.bare == right.bare) = (left == right) := by
  rw [Bool.eq_iff_iff, Ty.beq_iff_bare, Ty.beq_iff_bare, Ty.bare_bare, Ty.bare_bare]

theorem beqAll_bare (lefts rights : List Ty) :
    (Ty.bareAll lefts == Ty.bareAll rights) = (lefts == rights) := by
  rw [Bool.eq_iff_iff, Ty.beqAll_iff_bare, Ty.beqAll_iff_bare, Ty.bareAll_bareAll,
    Ty.bareAll_bareAll]

theorem isAssignableHost_bare (environment : Environment) (target source : Ty) :
    environment.isAssignableHost target.bare source.bare =
      environment.isAssignableHost target source := by
  have isEmpty_bare : (Ty.bareAll target.args).isEmpty = target.args.isEmpty := by
    cases target.args <;> rfl
  simp only [isAssignableHost, Ty.headName?_bare, Ty.args_bare, beqAll_bare, isEmpty_bare]

theorem isAssignable_bare (environment : Environment) (target source : Ty) :
    environment.isAssignable target.bare source.bare = environment.isAssignable target source := by
  simp only [isAssignable, beq_bare, Ty.isNever_bare]
  congr 1
  have host := environment.isAssignableHost_bare target source
  cases target <;> cases source <;> simp only [Ty.bare] at host ⊢ <;> exact host

theorem isAssignable_congr (targets : (target == target') = true)
    (sources : (source == source') = true) :
    environment.isAssignable target source = environment.isAssignable target' source' := by
  rw [← environment.isAssignable_bare target source, Ty.beq_iff_bare.mp targets,
    Ty.beq_iff_bare.mp sources, isAssignable_bare]

/-! ### Declared supertypes -/

def Keeps (old new : Environment) : Prop :=
  ∀ name typeDef, old.registry.type? name = some typeDef →
    ∃ later, new.registry.type? name = some later ∧ later.supertype = typeDef.supertype

theorem Keeps.supertype? (keeps : old.Keeps new) {name super : String}
    (declared : old.registry.supertype? name = some super) :
    new.registry.supertype? name = some super := by
  simp only [Registry.supertype?, Option.bind_eq_some_iff] at declared ⊢
  obtain ⟨typeDef, found, isSuper⟩ := declared
  obtain ⟨later, foundLater, same⟩ := keeps name typeDef found
  exact ⟨later, foundLater, same.trans isSuper⟩

theorem Keeps.mem_chain (keeps : old.Keeps new) {steps more : Nat} {sub super : String}
    (enough : steps ≤ more) (member : super ∈ old.registry.chain steps sub) :
    super ∈ new.registry.chain more sub := by
  induction steps generalizing sub more with
  | zero =>
      simp only [Registry.chain, List.mem_singleton] at member
      subst member
      cases more <;> simp [Registry.chain]
  | succ steps ih =>
      obtain ⟨more, rfl⟩ : ∃ next, more = next + 1 := ⟨more - 1, by omega⟩
      simp only [Registry.chain, List.mem_cons] at member ⊢
      rcases member with same | above
      · exact .inl same
      · refine .inr ?_
        cases declared : old.registry.supertype? sub with
        | none => simp [declared] at above
        | some next =>
            rw [declared] at above
            rw [keeps.supertype? declared]
            exact ih (by omega) above

theorem Keeps.isSubtype (keeps : old.Keeps new) (grows : old.Grows new) {sub super : String}
    (below : old.registry.isSubtype sub super = true) :
    new.registry.isSubtype sub super = true := by
  simp only [Registry.isSubtype, List.contains_iff_mem] at below ⊢
  exact keeps.mem_chain grows.registry.size below

theorem Keeps.isAssignableHost (keeps : old.Keeps new) (grows : old.Grows new)
    (assignable : old.isAssignableHost target source = true) :
    new.isAssignableHost target source = true := by
  simp only [Environment.isAssignableHost] at assignable ⊢
  split at assignable
  · rename_i super sub _ _
    by_cases same : super = sub
    · simpa only [same, if_true] using assignable
    · simp only [same, if_false, Bool.and_eq_true] at assignable ⊢
      exact ⟨assignable.1, keeps.isSubtype grows assignable.2⟩
  · simp at assignable

theorem Keeps.isAssignable (keeps : old.Keeps new) (grows : old.Grows new)
    (assignable : old.isAssignable target source = true) :
    new.isAssignable target source = true := by
  simp only [Environment.isAssignable, Bool.or_eq_true] at assignable ⊢
  refine assignable.imp id ?_
  have host : old.isAssignableHost target source = true →
      new.isAssignableHost target source = true := keeps.isAssignableHost grows
  cases target <;> cases source <;> simp only [imp_self] <;> exact host

end Environment

end ScriptTyping
