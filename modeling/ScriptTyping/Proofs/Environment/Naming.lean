import ScriptTyping.Environment.Naming
import ScriptTyping.Proofs.Environment.Growth
import ScriptTyping.Proofs.Ty.Written

/-!
An annotation that denotes a type goes on to denote it, up to namespaces, while the environment
grows.
-/

namespace ScriptTyping

namespace Environment

variable {environment old new : Environment}

/-! ### Qualified types -/

theorem qualifyName_eq_ok_iff {tyName qualified : TyName} :
    environment.qualifyName tyName = .ok qualified ↔ ∃ typeDef,
      environment.registry.type? tyName.name = some typeDef ∧
        ⟨tyName.name, typeDef.home.or tyName.home⟩ = qualified := by
  rw [qualifyName]
  cases environment.registry.type? tyName.name with
  | none => simp
  | some typeDef => cases isHome : typeDef.home <;> simp [isHome]

theorem qualifyName_eq_error_iff {tyName : TyName} {name : String} :
    environment.qualifyName tyName = .error name ↔
      environment.registry.type? tyName.name = none ∧ tyName.name = name := by
  rw [qualifyName]
  cases environment.registry.type? tyName.name <;> simp

theorem qualifyName_name {tyName qualified : TyName}
    (found : environment.qualifyName tyName = .ok qualified) : qualified.name = tyName.name := by
  obtain ⟨_, _, rfl⟩ := qualifyName_eq_ok_iff.mp found
  rfl

theorem Grows.qualifyName (grows : old.Grows new) {tyName qualified : TyName}
    (found : old.qualifyName tyName = .ok qualified) :
    ∃ later, new.qualifyName tyName = .ok later := by
  obtain ⟨typeDef, known, _⟩ := qualifyName_eq_ok_iff.mp found
  obtain ⟨later, isLater⟩ := Option.isSome_iff_exists.mp
    (grows.registry.types tyName.name (by rw [known]; rfl))
  exact ⟨_, qualifyName_eq_ok_iff.mpr ⟨later, isLater, rfl⟩⟩

mutual

theorem qualify_bare : {ty qualified : Ty} → environment.qualify ty = .ok qualified →
    qualified.bare = ty.bare
  | .named tyName, qualified, found => by
    simp only [qualify, Except.bind_eq_ok, Except.ok.injEq] at found
    obtain ⟨later, isLater, rfl⟩ := found
    simp only [Ty.bare, qualifyName_name isLater]
  | .applied head args, qualified, found => by
    simp only [qualify, Except.bind_eq_ok, Except.ok.injEq] at found
    obtain ⟨later, isLater, types, areTypes, rfl⟩ := found
    simp only [Ty.bare, qualifyName_name isLater, qualifyAll_bare areTypes]
  | .fn params result, qualified, found => by
    simp only [qualify, Except.bind_eq_ok, Except.ok.injEq] at found
    obtain ⟨types, areTypes, last, isLast, rfl⟩ := found
    simp only [Ty.bare, qualifyAll_bare areTypes, qualify_bare isLast]
  | .var _, _, found => by rw [← Except.ok.inj found]
  | .prim _, _, found => by rw [← Except.ok.inj found]
  | .void, _, found => by rw [← Except.ok.inj found]
  | .object, _, found => by rw [← Except.ok.inj found]
  | .dynamic, _, found => by rw [← Except.ok.inj found]
  | .never, _, found => by rw [← Except.ok.inj found]

theorem qualifyAll_bare : {types qualified : List Ty} →
    environment.qualifyAll types = .ok qualified → Ty.bareAll qualified = Ty.bareAll types
  | [], _, found => by rw [← Except.ok.inj found]
  | ty :: rest, qualified, found => by
    simp only [qualifyAll, Except.bind_eq_ok, Except.ok.injEq] at found
    obtain ⟨first, isFirst, others, areOthers, rfl⟩ := found
    simp only [Ty.bareAll, qualify_bare isFirst, qualifyAll_bare areOthers]

end

mutual

theorem Grows.qualify (grows : old.Grows new) : {ty qualified : Ty} →
    old.qualify ty = .ok qualified → ∃ later, new.qualify ty = .ok later
  | .named tyName, qualified, found => by
    simp only [Environment.qualify, Except.bind_eq_ok] at found ⊢
    obtain ⟨_, isName, _⟩ := found
    obtain ⟨name, isLater⟩ := grows.qualifyName isName
    exact ⟨_, name, isLater, rfl⟩
  | .applied head args, qualified, found => by
    simp only [Environment.qualify, Except.bind_eq_ok] at found ⊢
    obtain ⟨_, isName, _, areTypes, _⟩ := found
    obtain ⟨name, isLater⟩ := grows.qualifyName isName
    obtain ⟨types, areLater⟩ := grows.qualifyAll areTypes
    exact ⟨_, name, isLater, types, areLater, rfl⟩
  | .fn params result, qualified, found => by
    simp only [Environment.qualify, Except.bind_eq_ok] at found ⊢
    obtain ⟨_, areTypes, _, isLast, _⟩ := found
    obtain ⟨types, areLater⟩ := grows.qualifyAll areTypes
    obtain ⟨last, isLater⟩ := grows.qualify isLast
    exact ⟨_, types, areLater, last, isLater, rfl⟩
  | .var _, _, found => ⟨_, found⟩
  | .prim _, _, found => ⟨_, found⟩
  | .void, _, found => ⟨_, found⟩
  | .object, _, found => ⟨_, found⟩
  | .dynamic, _, found => ⟨_, found⟩
  | .never, _, found => ⟨_, found⟩

theorem Grows.qualifyAll (grows : old.Grows new) : {types qualified : List Ty} →
    old.qualifyAll types = .ok qualified → ∃ later, new.qualifyAll types = .ok later
  | [], _, found => ⟨_, found⟩
  | ty :: rest, qualified, found => by
    simp only [Environment.qualifyAll, Except.bind_eq_ok] at found ⊢
    obtain ⟨_, isFirst, _, areOthers, _⟩ := found
    obtain ⟨first, isLater⟩ := grows.qualify isFirst
    obtain ⟨others, areLater⟩ := grows.qualifyAll areOthers
    exact ⟨_, first, isLater, others, areLater, rfl⟩

end

/-! ### Annotations -/

theorem Grows.resolveType (grows : old.Grows new) {text : String} {ty : Ty}
    (found : old.resolveType text = .ok ty) :
    ∃ later, new.resolveType text = .ok later ∧ (later == ty) = true := by
  unfold Environment.resolveType at found ⊢
  split at found
  · simp at found
  · rename_i written _
    split at found
    · simp at found
    · rename_i qualified isQualified
      obtain ⟨later, isLater⟩ := grows.qualify isQualified
      rw [← Except.ok.inj found]
      rw [isLater]
      refine ⟨later, rfl, Ty.beq_iff_bare.mpr ?_⟩
      rw [qualify_bare isLater, qualify_bare isQualified]

end Environment

end ScriptTyping
