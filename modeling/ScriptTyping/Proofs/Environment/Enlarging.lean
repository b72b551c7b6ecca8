import ScriptTyping.Proofs.Overload.Monotone
import ScriptTyping.Proofs.Registry.Enlarging

/-!
An import of a namespace whose types have new names takes nothing away: what was assignable stays
assignable, candidates keep their order, and a lookup that found a member goes on to find one.
-/

namespace ScriptTyping

namespace Environment

/-- Whether all that an environment accepts is accepted by a later one. -/
structure Enlarges (old new : Environment) : Prop where
  isSubtype : ∀ sub super, old.registry.isSubtype sub super = true →
    new.registry.isSubtype sub super = true
  isAssignable : ∀ target source, old.isAssignable target source = true →
    new.isAssignable target source = true
  canCoerce : ∀ source target, old.canCoerce source target = true →
    new.canCoerce source target = true
  candidates : ∀ owner name kind, old.registry.candidates owner name kind <+:
    new.registry.candidates owner name kind
  functions : ∀ name, old.registry.functions name <+: new.registry.functions name
  /-- The members that were registered may be looked up alone or among others. -/
  resolve : ∀ receiver args ids more, (∀ id ∈ ids, id < old.registry.members.size) → ids <+: more →
    (old.resolve receiver ids args).found.isSome = true →
    (new.resolve receiver more args).found.isSome = true

variable {environment old new : Environment} {path : String}

theorem Enlarges.resolve_candidates (enlarges : old.Enlarges new) {receiver args : List Ty}
    {owner name : String} {kind : MemberKind}
    (found : (old.resolve receiver (old.registry.candidates owner name kind) args).found.isSome =
      true) :
    (new.resolve receiver (new.registry.candidates owner name kind) args).found.isSome = true :=
  enlarges.resolve receiver args _ _ (fun _ => Registry.lt_of_mem_candidates)
    (enlarges.candidates owner name kind) found

theorem Enlarges.resolve_functions (enlarges : old.Enlarges new) {receiver args : List Ty}
    {name : String}
    (found : (old.resolve receiver (old.registry.functions name) args).found.isSome = true) :
    (new.resolve receiver (new.registry.functions name) args).found.isSome = true :=
  enlarges.resolve receiver args _ _ (fun _ => Registry.lt_of_mem_functions)
    (enlarges.functions name) found

theorem Grows.enlarges (grows : old.Grows new) (enlarges : old.registry.Enlarges new.registry) :
    old.Enlarges new := by
  have keeps : old.Keeps new := fun name typeDef known =>
    ⟨typeDef, enlarges.types name typeDef known, rfl⟩
  refine ⟨fun _ _ => enlarges.isSubtype, fun _ _ => keeps.isAssignable grows,
    fun _ _ => keeps.canCoerce grows, enlarges.candidates_prefix, grows.registry.functions_prefix, ?_⟩
  intro receiver args ids more known kept found
  exact keeps.resolve grows known kept.subset found

theorem registry_importNamespace_enlarges
    (fresh : ∀ decl, environment.library.get? path = some decl → decl.FreshIn environment.registry)
    (succeeds : (environment.importNamespace path).2 = none) :
    environment.registry.Enlarges (environment.importNamespace path).1.registry := by
  cases imported : environment.isImported path with
  | true =>
      have run : environment.importNamespace path = (environment, none) := by
        rw [importNamespace, if_pos imported]
      rw [run]
      exact .refl _
  | false =>
      cases known : environment.library.get? path with
      | none => simp [importNamespace, imported, known] at succeeds
      | some decl =>
          rcases environment.registry.addNamespace_cases decl with
            ⟨members, reads, _⟩ | ⟨before, error, _, added⟩
          · rw [importNamespace_reads imported known reads]
            exact (fresh decl known).enlarges reads
          · simp [importNamespace, imported, known, added] at succeeds

/-- An import that succeeds and registers only types with new names takes nothing away. -/
theorem importNamespace_enlarges
    (fresh : ∀ decl, environment.library.get? path = some decl → decl.FreshIn environment.registry)
    (succeeds : (environment.importNamespace path).2 = none) :
    environment.Enlarges (environment.importNamespace path).1 :=
  (environment.importNamespace_grows path).enlarges
    (registry_importNamespace_enlarges fresh succeeds)

def kennel : NamespaceDecl where
  path := "kennel"
  types := [{
    name := "Dog"
    supertype := some "Animal"
    methods := [{ name := "name", params := ["int"], returns := "String" }] }]
  functions := [{ name := "feed", params := ["Animal"] }]

def wildlife : NamespaceDecl where
  path := "wildlife"
  types := [
    { name := "Animal"
      supertype := some "Being"
      methods := [{ name := "name", params := ["String"], returns := "String" }] },
    { name := "Being" }]

def kennels : Environment :=
  ((({ registry := {} } : Environment).addNamespace kennel).addNamespace wildlife).importNamespace
    "kennel" |>.1

/-- Animals come to stand between dogs and beings, and their method behind that of dogs. -/
theorem importNamespace_enlarges_kennels :
    let later := (kennels.importNamespace "wildlife").1
    kennels.registry.isSubtype "Dog" "Being" = false ∧
      later.registry.isSubtype "Dog" "Being" = true ∧
      later.registry.isSubtype "Dog" "Animal" = true ∧
      kennels.registry.candidates "Dog" "name" .method = [0] ∧
      later.registry.candidates "Dog" "name" .method = [0, 2] ∧
      (later.resolve [] (later.registry.candidates "Dog" "name" .method) [.int]).found.isSome = true ∧
      (later.resolve [] (later.registry.functions "feed") [.host "Dog"]).found.isSome = true := by
  intro later
  have enlarges : kennels.Enlarges later := by
    refine importNamespace_enlarges ?_ (by decide)
    intro decl known
    have isWildlife : kennels.library.get? "wildlife" = some wildlife := rfl
    rw [isWildlife, Option.some.injEq] at known
    subst known
    intro type isType
    simp only [wildlife, List.mem_cons, List.not_mem_nil, or_false] at isType
    rcases isType with rfl | rfl <;> decide
  refine ⟨by decide, by decide, ?_, by decide, by decide, ?_, ?_⟩
  · exact enlarges.isSubtype "Dog" "Animal" (by decide)
  · exact enlarges.resolve_candidates (by decide)
  · exact enlarges.resolve_functions (by decide)

end Environment

end ScriptTyping
