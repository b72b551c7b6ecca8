import ScriptTyping.Proofs.Environment.Import
import ScriptTyping.Proofs.Ty.Written

/-!
What lookups in a registry give after it got types with new names only. Such a type may be named as
a supertype before it is registered, so lineages become longer, but only at the end: a name that was
not registered has no supertype and no place but the last. The members that are added belong to such
names too, so that candidates also come only at the end.
-/

namespace ScriptTyping

theorem Table.get?_insert_ne {α : Type} (table : Table α) {name other : String} (value : α)
    (differs : name ≠ other) : (table.insert name value).get? other = table.get? other := by
  rw [Table.get?_insert, if_neg differs]

namespace Registry

/-- Whether a registry adds only types with new names, members of such types and functions. -/
structure Enlarges (old new : Registry) : Prop where
  grows : old.Grows new
  types : ∀ name typeDef, old.type? name = some typeDef → new.type? name = some typeDef
  members : ∀ id, old.members.size ≤ id → id < new.members.size →
    (new.member id).kind = .function ∨ old.type? (new.member id).owner = none

variable {registry old new : Registry} {name owner sub super : String} {kind : MemberKind}
  {steps more : Nat}

theorem Enlarges.refl (registry : Registry) : registry.Enlarges registry :=
  ⟨.refl registry, fun _ _ known => known, fun _ old new => absurd new (Nat.not_lt.mpr old)⟩

/-! ### Positions -/

/-- What was found is found first, in the same order. -/
theorem Grows.positions (grows : old.Grows new) (wanted : Member → Bool) :
    ∃ later, new.positions wanted = old.positions wanted ++ later ∧
      ∀ id ∈ later, old.members.size ≤ id ∧ id < new.members.size ∧
        wanted (new.member id) = true := by
  obtain ⟨count, isSize⟩ := Nat.exists_eq_add_of_le grows.size_members
  refine ⟨((List.range count).map (old.members.size + ·)).filter fun id => wanted (new.member id),
    ?_, fun id member => ?_⟩
  · rw [Registry.positions, Registry.positions, isSize, List.range_add, List.filter_append]
    congr 1
    refine List.filter_congr fun id member => ?_
    rw [grows.member_eq (List.mem_range.mp member)]
  · obtain ⟨inRange, isWanted⟩ := List.mem_filter.mp member
    obtain ⟨index, below, rfl⟩ := List.mem_map.mp inRange
    refine ⟨Nat.le_add_right _ _, ?_, isWanted⟩
    rw [isSize]
    exact Nat.add_lt_add_left (List.mem_range.mp below) _

theorem Grows.positions_prefix (grows : old.Grows new) (wanted : Member → Bool) :
    old.positions wanted <+: new.positions wanted := by
  obtain ⟨later, split, _⟩ := grows.positions wanted
  exact ⟨later, split.symm⟩

theorem Grows.functions_prefix (grows : old.Grows new) (name : String) :
    old.functions name <+: new.functions name :=
  grows.positions_prefix _

theorem Grows.declared_prefix (grows : old.Grows new) (owner name : String) (kind : MemberKind) :
    old.declared owner name kind <+: new.declared owner name kind :=
  grows.positions_prefix _

/-- A type that was registered gets no member. -/
theorem Enlarges.declared_eq (enlarges : old.Enlarges new) {typeDef : TypeDef}
    (known : old.type? owner = some typeDef) (name : String) (kind : MemberKind) :
    new.declared owner name kind = old.declared owner name kind := by
  obtain ⟨later, split, added⟩ := enlarges.grows.positions fun member =>
    member.kind == kind && member.kind != .function && member.name == name && member.owner == owner
  suffices none : later = [] by
    rw [Registry.declared, split, none, List.append_nil]
    rfl
  refine List.eq_nil_iff_forall_not_mem.mpr fun id member => ?_
  obtain ⟨lower, upper, isWanted⟩ := added id member
  simp only [Bool.and_eq_true, bne_iff_ne, ne_eq, beq_iff_eq] at isWanted
  obtain ⟨⟨⟨_, notFunction⟩, _⟩, isOwner⟩ := isWanted
  rcases enlarges.members id lower upper with isFunction | unknown
  · exact notFunction isFunction
  · rw [isOwner, known] at unknown
    cases unknown

/-! ### Lineages -/

theorem supertype?_eq_some : registry.supertype? sub = some super ↔
    ∃ typeDef, registry.type? sub = some typeDef ∧ typeDef.supertype = some super :=
  Option.bind_eq_some_iff

theorem Enlarges.supertype? (enlarges : old.Enlarges new)
    (declared : old.supertype? sub = some super) : new.supertype? sub = some super := by
  obtain ⟨typeDef, known, isSuper⟩ := supertype?_eq_some.mp declared
  exact supertype?_eq_some.mpr ⟨typeDef, enlarges.types sub typeDef known, isSuper⟩

theorem chain_eq_cons (registry : Registry) (steps : Nat) (name : String) :
    ∃ above, registry.chain steps name = name :: above := by
  cases steps with
  | zero => exact ⟨[], rfl⟩
  | succ steps => exact ⟨_, rfl⟩

theorem chain_of_supertype (declared : registry.supertype? sub = some super) (steps : Nat) :
    registry.chain (steps + 1) sub = sub :: registry.chain steps super := by
  rw [chain, declared]

theorem chain_of_root (root : registry.supertype? sub = none) (steps : Nat) :
    registry.chain steps sub = [sub] := by
  cases steps with
  | zero => rfl
  | succ steps => rw [chain, root]

/-- A walk over supertypes goes through the same names first. -/
theorem Enlarges.chain_prefix (enlarges : old.Enlarges new) (enough : steps ≤ more)
    (name : String) : old.chain steps name <+: new.chain more name := by
  induction steps generalizing name more with
  | zero =>
      obtain ⟨above, isChain⟩ := new.chain_eq_cons more name
      exact ⟨above, isChain.symm⟩
  | succ steps ih =>
      cases declared : old.supertype? name with
      | none =>
          obtain ⟨above, isChain⟩ := new.chain_eq_cons more name
          rw [chain_of_root declared, isChain]
          exact ⟨above, rfl⟩
      | some super =>
          obtain ⟨rest, rfl⟩ := Nat.exists_eq_add_of_lt enough
          rw [chain_of_supertype declared, chain_of_supertype (enlarges.supertype? declared)]
          exact List.cons_prefix_cons.mpr ⟨rfl, ih (Nat.le_add_right _ _) super⟩

theorem Enlarges.isSubtype (enlarges : old.Enlarges new) (below : old.isSubtype sub super = true) :
    new.isSubtype sub super = true := by
  rw [Registry.isSubtype, List.contains_iff_mem] at below ⊢
  exact (enlarges.chain_prefix enlarges.grows.size sub).subset below

/-! ### Candidates -/

theorem Grows.declared_prefix_chain (grows : old.Grows new) (steps : Nat) (owner name : String)
    (kind : MemberKind) : old.declared owner name kind <+:
      (new.chain steps owner).flatMap fun type => new.declared type name kind := by
  obtain ⟨above, isChain⟩ := new.chain_eq_cons steps owner
  rw [isChain, List.flatMap_cons]
  exact (grows.declared_prefix owner name kind).trans (List.prefix_append _ _)

/-- Only the last name of a walk may get members, so that no member comes in between. -/
theorem Enlarges.inherited_prefix (enlarges : old.Enlarges new) (enough : steps ≤ more)
    (owner name : String) (kind : MemberKind) :
    (old.chain steps owner).flatMap (fun type => old.declared type name kind) <+:
      (new.chain more owner).flatMap fun type => new.declared type name kind := by
  have last := enlarges.grows.declared_prefix_chain
  induction steps generalizing owner more with
  | zero => simpa [chain] using last more owner name kind
  | succ steps ih =>
      cases declared : old.supertype? owner with
      | none => simpa [chain_of_root declared] using last more owner name kind
      | some super =>
          obtain ⟨typeDef, known, _⟩ := supertype?_eq_some.mp declared
          obtain ⟨rest, rfl⟩ := Nat.exists_eq_add_of_lt enough
          rw [chain_of_supertype declared, chain_of_supertype (enlarges.supertype? declared),
            List.flatMap_cons, List.flatMap_cons, enlarges.declared_eq known,
            List.prefix_append_right_inj]
          exact ih (Nat.le_add_right _ _) super

theorem Enlarges.candidates_prefix (enlarges : old.Enlarges new) (owner name : String)
    (kind : MemberKind) : old.candidates owner name kind <+: new.candidates owner name kind := by
  rw [candidates, candidates]
  by_cases isConstructor : kind = .constructor
  · rw [if_pos isConstructor, if_pos isConstructor]
    exact enlarges.grows.declared_prefix owner name kind
  · rw [if_neg isConstructor, if_neg isConstructor]
    exact enlarges.inherited_prefix enlarges.grows.size owner name kind

/-! ### Adding a namespace -/

theorem type?_addTypes {typeDefs : List TypeDef}
    (differs : ∀ typeDef ∈ typeDefs, typeDef.name ≠ name) :
    (registry.addTypes typeDefs).type? name = registry.type? name := by
  induction typeDefs generalizing registry with
  | nil => rfl
  | cons typeDef rest ih =>
      have others : (registry.addTypes (typeDef :: rest)).type? name =
          (registry.addType typeDef).type? name :=
        ih fun other member => differs other (List.mem_cons_of_mem _ member)
      exact others.trans (Table.get?_insert_ne _ typeDef (differs typeDef List.mem_cons_self))

theorem types_addMembers (registry : Registry) (members : List Member) :
    (registry.addMembers members).types = registry.types := by
  induction members generalizing registry with
  | nil => rfl
  | cons member rest ih => exact ih (registry.addMember member)

end Registry

/-- Every member of a type declaration belongs to the declared type, and none is a function. -/
theorem TypeDecl.owner_of_mem {decl : TypeDecl} {member : Member}
    (declares : .ok member ∈ decl.members) :
    member.owner = decl.name ∧ member.kind ≠ .function := by
  rw [TypeDecl.members, List.mem_append, List.mem_append] at declares
  rcases declares with (ofField | ofConstructor) | ofMethod
  · obtain ⟨field, _, reads⟩ := List.mem_map.mp ofField
    obtain ⟨type, _, reads⟩ := Except.bind_eq_ok.mp reads
    rw [← Except.ok.inj reads]
    exact ⟨rfl, MemberKind.noConfusion⟩
  · obtain ⟨ctor, _, reads⟩ := List.mem_map.mp ofConstructor
    obtain ⟨params, _, reads⟩ := Except.bind_eq_ok.mp reads
    rw [← Except.ok.inj reads]
    exact ⟨rfl, MemberKind.noConfusion⟩
  · obtain ⟨method, _, reads⟩ := List.mem_map.mp ofMethod
    obtain ⟨params, _, reads⟩ := Except.bind_eq_ok.mp reads
    obtain ⟨result, _, reads⟩ := Except.bind_eq_ok.mp reads
    rw [← Except.ok.inj reads]
    exact ⟨rfl, MemberKind.noConfusion⟩

namespace NamespaceDecl

def FreshIn (decl : NamespaceDecl) (registry : Registry) : Prop :=
  ∀ type ∈ decl.types, registry.type? type.name = none

variable {decl : NamespaceDecl} {registry : Registry} {members : List Member}

theorem owner_of_mem {member : Member} (declares : .ok member ∈ decl.members) :
    member.kind = .function ∨ ∃ type ∈ decl.types, member.owner = type.name := by
  rcases List.mem_append.mp declares with ofType | ofFunction
  · obtain ⟨type, isType, ofType⟩ := List.mem_flatMap.mp ofType
    exact .inr ⟨type, isType, (TypeDecl.owner_of_mem ofType).1⟩
  · obtain ⟨function, _, reads⟩ := List.mem_map.mp ofFunction
    obtain ⟨params, _, reads⟩ := Except.bind_eq_ok.mp reads
    obtain ⟨result, _, reads⟩ := Except.bind_eq_ok.mp reads
    rw [← Except.ok.inj reads]
    exact .inl rfl

theorem FreshIn.enlarges (fresh : decl.FreshIn registry) (reads : decl.Reads members) :
    registry.Enlarges ((registry.addTypes decl.typeDefs).addMembers members) := by
  have grows : registry.Grows ((registry.addTypes decl.typeDefs).addMembers members) := by
    have grows := registry.addNamespace_grows decl
    rwa [Registry.addNamespace_reads reads] at grows
  have appended := (registry.addTypes decl.typeDefs).toList_addMembers members
  rw [Registry.members_addTypes] at appended
  refine ⟨grows, fun name typeDef known => ?_, fun id lower upper => ?_⟩
  · rw [Registry.type?, Registry.types_addMembers, ← known]
    refine Registry.type?_addTypes fun added isAdded same => ?_
    obtain ⟨type, isType, rfl⟩ := List.mem_map.mp isAdded
    have unknown := fresh type isType
    rw [show type.name = name from same, known] at unknown
    cases unknown
  · rw [← Array.length_toList, appended, List.length_append, Array.length_toList] at upper
    have found : members[id - registry.members.size]? =
        some (((registry.addTypes decl.typeDefs).addMembers members).member id) := by
      rw [Registry.member, ← Array.getElem?_toList, appended,
        List.getElem?_append_right (by simpa using lower), Array.length_toList,
        List.getElem?_eq_getElem (by omega), Option.getD_some]
    have declares := reads ▸ List.mem_map_of_mem (List.mem_of_getElem? found)
    refine (owner_of_mem declares).imp_right ?_
    rintro ⟨type, isType, isOwner⟩
    rw [isOwner]
    exact fresh type isType

end NamespaceDecl

end ScriptTyping
