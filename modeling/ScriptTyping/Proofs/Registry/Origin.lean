import ScriptTyping.Proofs.Environment.Growth
import ScriptTyping.Proofs.Registry.Enlarging

/-!
Where the types and members of a registry come from. A registry of a session starts with the
built-ins and gets namespaces, each up to its first bad signature, so that whatever is registered is
built in or declared by a namespace.
-/

namespace ScriptTyping

namespace Registry

/-- The registries of sessions: the built-ins, then namespaces in any order, also those that stop
part-way. -/
inductive Built : Registry → Prop where
  | start (maxArity : Nat) : Built (Builtin.registry maxArity)
  | addNamespace {registry : Registry} (decl : NamespaceDecl) :
      Built registry → Built (registry.addNamespace decl).1

variable {registry : Registry} {typeDef : TypeDef} {typeDefs : List TypeDef} {member : Member}
  {name : String}

theorem types_addReadable (registry : Registry) (members : List (Except TypeTextError Member)) :
    (registry.addReadable members).1.types = registry.types := by
  induction members generalizing registry with
  | nil => rfl
  | cons member rest ih =>
      cases member with
      | error error => rfl
      | ok member => exact ih (registry.addMember member)

/-- A type is found under its own name or was registered before. -/
theorem type?_addTypes_cases (found : (registry.addTypes typeDefs).type? name = some typeDef) :
    registry.type? name = some typeDef ∨ typeDef ∈ typeDefs ∧ typeDef.name = name := by
  induction typeDefs generalizing registry with
  | nil => exact .inl found
  | cons first rest ih =>
      rcases ih found with before | ⟨later, isName⟩
      · rw [type?, addType, Table.get?_insert] at before
        split at before
        · rename_i isName
          rw [Option.some.inj before] at isName ⊢
          exact .inr ⟨List.mem_cons_self, isName⟩
        · exact .inl before
      · exact .inr ⟨List.mem_cons_of_mem _ later, isName⟩

theorem Built.type_origin (built : registry.Built)
    (found : registry.type? name = some typeDef) :
    typeDef.name = name ∧
      (typeDef ∈ Builtin.hostTypes ∨ ∃ decl : NamespaceDecl, typeDef ∈ decl.typeDefs) := by
  induction built with
  | start maxArity =>
      rw [Builtin.registry, type?, types_addMembers] at found
      rcases type?_addTypes_cases found with absurd | ⟨isHost, isName⟩
      · cases absurd
      · exact ⟨isName, .inl isHost⟩
  | addNamespace decl _ ih =>
      rw [Registry.addNamespace, type?, types_addReadable] at found
      rcases type?_addTypes_cases found with before | ⟨declared, isName⟩
      · exact ih before
      · exact ⟨isName, .inr ⟨decl, declared⟩⟩

theorem Built.member_origin (built : registry.Built) (inside : member ∈ registry.members.toList) :
    (∃ maxArity, member ∈ (Builtin.registry maxArity).members.toList) ∨
      ∃ decl : NamespaceDecl, .ok member ∈ decl.members := by
  induction built with
  | start maxArity => exact .inl ⟨maxArity, inside⟩
  | addNamespace decl _ ih =>
      rcases mem_addReadable inside with before | declared
      · rw [members_addTypes] at before
        exact ih before
      · exact .inr ⟨decl, declared⟩

/-- A type that no namespace declares is a built-in host type, which extends no other. -/
theorem Built.supertype_of_homeless (built : registry.Built)
    (found : registry.type? name = some typeDef) (homeless : typeDef.home = none) :
    typeDef.supertype = none := by
  have roots : ∀ typeDef ∈ Builtin.hostTypes, typeDef.supertype = none := by decide
  rcases (built.type_origin found).2 with isHost | ⟨decl, declared⟩
  · exact roots typeDef isHost
  · obtain ⟨type, _, rfl⟩ := List.mem_map.mp declared
    cases homeless

end Registry

namespace Environment

theorem registry_importNamespace (environment : Environment) (path : String) :
    (environment.importNamespace path).1.registry = environment.registry ∨
      ∃ decl, (environment.importNamespace path).1.registry =
        (environment.registry.addNamespace decl).1 := by
  rcases environment.importNamespace_cases path with
    ⟨_, run⟩ | ⟨_, _, run⟩ | ⟨decl, _, _, _, _, run⟩ | ⟨decl, _, _, _, run⟩
  · exact .inl (by rw [run])
  · exact .inl (by rw [run])
  · exact .inr ⟨decl, by rw [run]⟩
  · exact .inr ⟨decl, by rw [run]⟩

theorem registry_declareGlobal {environment next : Environment} {name : String} {ty : Ty}
    {id : GlobalId} (declared : environment.declareGlobal name ty = .ok (next, id)) :
    next.registry = environment.registry := by
  rcases declareGlobal_cases declared with ⟨_, _, rfl⟩ | ⟨_, _, rfl⟩ <;> rfl

theorem Built.registry {environment : Environment} (built : environment.Built) :
    environment.registry.Built := by
  induction built with
  | start options =>
      simp only [ofOptions]
      exact Registry.Built.start options.maxInvokeArity
  | addNamespace decl _ ih => exact ih
  | step _ step ih =>
      cases step with
      | declareGlobal declared =>
          rw [registry_declareGlobal declared]
          exact ih
      | importNamespace path =>
          rcases registry_importNamespace _ path with same | ⟨decl, added⟩
          · rw [same]
            exact ih
          · rw [added]
            exact .addNamespace decl ih

end Environment

end ScriptTyping
