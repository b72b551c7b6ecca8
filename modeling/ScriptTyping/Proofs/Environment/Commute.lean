import ScriptTyping.Environment.Coercion
import ScriptTyping.Environment.Naming
import ScriptTyping.Proofs.Environment.Enlarging

/-!
Importing two namespaces in either order. Types come to stand in another order and members at other
positions, so the two registries differ; what a lookup gives does not depend on either, as long as
no type and no function is declared by both namespaces.
-/

namespace ScriptTyping

namespace Table

variable {α : Type} {left right other : Table α}

structure Alike (left right : Table α) : Prop where
  get? : ∀ name, left.get? name = right.get? name
  size : left.size = right.size

theorem Alike.refl (table : Table α) : table.Alike table := ⟨fun _ => rfl, rfl⟩

theorem Alike.symm (alike : left.Alike right) : right.Alike left :=
  ⟨fun name => (alike.get? name).symm, alike.size.symm⟩

theorem Alike.trans (early : left.Alike right) (late : right.Alike other) : left.Alike other :=
  ⟨fun name => (early.get? name).trans (late.get? name), early.size.trans late.size⟩

theorem length_replace (name : String) (value : α) (entries : List (String × α)) :
    (replace name value entries).length =
      if (lookup name entries).isSome then entries.length else entries.length + 1 := by
  induction entries with
  | nil => rfl
  | cons entry rest ih =>
      obtain ⟨key, old⟩ := entry
      by_cases first : key = name
      · simp [replace, lookup, first]
      · simp only [replace, lookup, first, if_false, List.length_cons, ih]
        split <;> rfl

theorem size_insert (table : Table α) (name : String) (value : α) :
    (table.insert name value).size =
      if (table.get? name).isSome then table.size else table.size + 1 :=
  length_replace name value table.entries

theorem Alike.insert (alike : left.Alike right) (name : String) (value : α) :
    (left.insert name value).Alike (right.insert name value) := by
  refine ⟨fun other => ?_, ?_⟩
  · rw [get?_insert, get?_insert, alike.get?]
  · rw [size_insert, size_insert, alike.get?, alike.size]

theorem insert_comm (table : Table α) {name other : String} (differs : name ≠ other)
    (value last : α) : ((table.insert name value).insert other last).Alike
      ((table.insert other last).insert name value) := by
  refine ⟨fun wanted => ?_, ?_⟩
  · simp only [get?_insert]
    by_cases isName : name = wanted
    · subst isName
      rw [if_neg differs.symm, if_pos rfl, if_pos rfl]
    · rw [if_neg isName, if_neg isName]
  · simp only [size_insert, get?_insert, if_neg differs, if_neg differs.symm]
    cases (table.get? name).isSome <;> cases (table.get? other).isSome <;> rfl

end Table

namespace Registry

variable {registry left right : Registry} {typeDefs others : List TypeDef}
  {members later : List Member}

/-! ### Types in another order -/

theorem types_addTypes_alike (alike : left.types.Alike right.types) (typeDefs : List TypeDef) :
    (left.addTypes typeDefs).types.Alike (right.addTypes typeDefs).types := by
  induction typeDefs generalizing left right with
  | nil => exact alike
  | cons typeDef rest ih =>
      have added : (left.addType typeDef).types.Alike (right.addType typeDef).types :=
        alike.insert typeDef.name typeDef
      exact ih added

theorem addType_addTypes (registry : Registry) {typeDef : TypeDef}
    (differs : ∀ other ∈ typeDefs, typeDef.name ≠ other.name) :
    ((registry.addTypes typeDefs).addType typeDef).types.Alike
      ((registry.addType typeDef).addTypes typeDefs).types := by
  induction typeDefs generalizing registry with
  | nil => exact .refl _
  | cons first rest ih =>
      have early := ih (registry.addType first) fun other member =>
        differs other (List.mem_cons_of_mem _ member)
      have swapped : ((registry.addType first).addType typeDef).types.Alike
          ((registry.addType typeDef).addType first).types :=
        registry.types.insert_comm (differs first List.mem_cons_self).symm first typeDef
      exact early.trans (types_addTypes_alike swapped rest)

theorem addTypes_comm (registry : Registry)
    (differs : ∀ typeDef ∈ typeDefs, ∀ other ∈ others, typeDef.name ≠ other.name) :
    ((registry.addTypes others).addTypes typeDefs).types.Alike
      ((registry.addTypes typeDefs).addTypes others).types := by
  induction typeDefs generalizing registry with
  | nil => exact .refl _
  | cons typeDef rest ih =>
      have first := types_addTypes_alike
        (registry.addType_addTypes (differs typeDef List.mem_cons_self)) rest
      exact first.trans (ih (registry.addType typeDef) fun other member =>
        differs other (List.mem_cons_of_mem _ member))

/-! ### Members in another order -/

def definitions (registry : Registry) (ids : List MemberId) : List Member :=
  ids.map registry.member

theorem definitions_positions (registry : Registry) (wanted : Member → Bool) :
    registry.definitions (registry.positions wanted) = registry.members.toList.filter wanted := by
  have all : (List.range registry.members.size).map registry.member =
      registry.members.toList := by
    refine List.ext_getElem (by simp) fun index lower upper => ?_
    simp [member, Array.getElem?_eq_getElem (show index < registry.members.size by simpa using upper)]
  rw [definitions, positions, ← all, List.filter_map]
  rfl

/-- Whether two registries give the same answers, up to the positions of members. -/
structure Alike (left right : Registry) : Prop where
  types : left.types.Alike right.types
  declared : ∀ owner name kind, left.definitions (left.declared owner name kind) =
    right.definitions (right.declared owner name kind)
  functions : ∀ name, left.definitions (left.functions name) =
    right.definitions (right.functions name)

theorem Alike.type? (alike : left.Alike right) (name : String) :
    left.type? name = right.type? name :=
  alike.types.get? name

theorem Alike.chain (alike : left.Alike right) (steps : Nat) (name : String) :
    left.chain steps name = right.chain steps name := by
  induction steps generalizing name with
  | zero => rfl
  | succ steps ih =>
      simp only [Registry.chain, supertype?, alike.type?, ih]

theorem Alike.lineage (alike : left.Alike right) (name : String) :
    left.lineage name = right.lineage name := by
  rw [Registry.lineage, alike.types.size, alike.chain, Registry.lineage]

theorem Alike.isSubtype (alike : left.Alike right) (sub super : String) :
    left.isSubtype sub super = right.isSubtype sub super := by
  rw [Registry.isSubtype, alike.lineage, Registry.isSubtype]

theorem Alike.candidates (alike : left.Alike right) (owner name : String) (kind : MemberKind) :
    left.definitions (left.candidates owner name kind) =
      right.definitions (right.candidates owner name kind) := by
  rw [Registry.candidates, Registry.candidates]
  by_cases isConstructor : kind = .constructor
  · rw [if_pos isConstructor, if_pos isConstructor]
    exact alike.declared owner name kind
  · rw [if_neg isConstructor, if_neg isConstructor, definitions, definitions, List.map_flatMap,
      List.map_flatMap, alike.lineage]
    exact congrArg (fun own => (right.lineage owner).flatMap own)
      (funext fun type => alike.declared type name kind)

theorem types_addMembers_addTypes (registry : Registry) (members : List Member)
    (typeDefs : List TypeDef) : ((registry.addMembers members).addTypes typeDefs).types.Alike
      (registry.addTypes typeDefs).types := by
  refine types_addTypes_alike ?_ typeDefs
  rw [types_addMembers]
  exact .refl _

/-- Two lists of types and members may be registered in either order when no lookup is about parts
of both. -/
theorem addMembers_comm (registry : Registry)
    (types : ∀ typeDef ∈ typeDefs, ∀ other ∈ others, typeDef.name ≠ other.name)
    (owners : ∀ member ∈ members, ∀ other ∈ later, member.kind ≠ .function →
      other.kind ≠ .function → member.owner ≠ other.owner)
    (names : ∀ member ∈ members, ∀ other ∈ later, member.kind = .function →
      other.kind = .function → member.name ≠ other.name) :
    let forth := (((registry.addTypes typeDefs).addMembers members).addTypes others).addMembers later
    let back := (((registry.addTypes others).addMembers later).addTypes typeDefs).addMembers members
    forth.Alike back := by
  intro forth back
  have same : ∀ wanted : Member → Bool,
      (∀ member ∈ members, ∀ other ∈ later, wanted member = true → wanted other = false) →
      forth.definitions (forth.positions wanted) = back.definitions (back.positions wanted) := by
    intro wanted apart
    simp only [forth, back, definitions_positions, toList_addMembers, members_addTypes,
      List.filter_append, List.append_assoc, List.append_cancel_left_eq]
    by_cases early : ∃ member ∈ members, wanted member = true
    · obtain ⟨member, among, isWanted⟩ := early
      have none : later.filter wanted = [] := by
        refine List.filter_eq_nil_iff.mpr fun other isLater => ?_
        simp [apart member among other isLater isWanted]
      rw [none, List.nil_append, List.append_nil]
    · have none : members.filter wanted = [] :=
        List.filter_eq_nil_iff.mpr fun member among isWanted => early ⟨member, among, isWanted⟩
      rw [none, List.nil_append, List.append_nil]
  have swapped : forth.types.Alike back.types := by
    simp only [forth, back, types_addMembers]
    have early := (registry.addTypes typeDefs).types_addMembers_addTypes members others
    have late := (registry.addTypes others).types_addMembers_addTypes later typeDefs
    exact (early.trans (registry.addTypes_comm types).symm).trans late.symm
  refine ⟨swapped, fun owner name kind => same _ ?_, fun name => same _ ?_⟩
  · intro member among other isLater isWanted
    refine Bool.eq_false_iff.mpr fun isOther => ?_
    simp only [Bool.and_eq_true, bne_iff_ne, ne_eq, beq_iff_eq] at isWanted isOther
    obtain ⟨⟨⟨isKind, notFunction⟩, _⟩, isOwner⟩ := isWanted
    obtain ⟨⟨⟨isOtherKind, otherNotFunction⟩, _⟩, isOtherOwner⟩ := isOther
    exact owners member among other isLater notFunction otherNotFunction
      (isOwner.trans isOtherOwner.symm)
  · intro member among other isLater isWanted
    refine Bool.eq_false_iff.mpr fun isOther => ?_
    simp only [Bool.and_eq_true, beq_iff_eq] at isWanted isOther
    exact names member among other isLater isWanted.1 isOther.1 (isWanted.2.trans isOther.2.symm)

end Registry

namespace NamespaceDecl

structure Apart (first second : NamespaceDecl) : Prop where
  types : ∀ type ∈ first.types, ∀ other ∈ second.types, type.name ≠ other.name
  functions : ∀ function ∈ first.functions, ∀ other ∈ second.functions, function.name ≠ other.name

variable {decl : NamespaceDecl} {member : Member}

theorem function_of_mem (declares : .ok member ∈ decl.members) (isFunction : member.kind = .function) :
    ∃ function ∈ decl.functions, member.name = function.name := by
  rcases List.mem_append.mp declares with ofType | ofFunction
  · obtain ⟨type, _, ofType⟩ := List.mem_flatMap.mp ofType
    exact absurd isFunction (TypeDecl.owner_of_mem ofType).2
  · obtain ⟨function, among, reads⟩ := List.mem_map.mp ofFunction
    obtain ⟨params, _, reads⟩ := Except.bind_eq_ok.mp reads
    obtain ⟨result, _, reads⟩ := Except.bind_eq_ok.mp reads
    rw [← Except.ok.inj reads]
    exact ⟨function, among, rfl⟩

/-- The members that come before the first bad signature, and what is wrong with that. -/
theorem adds (decl : NamespaceDecl) : ∃ members error,
    (∀ registry : Registry, registry.addNamespace decl =
      ((registry.addTypes decl.typeDefs).addMembers members, error)) ∧
    ∀ member ∈ members, .ok member ∈ decl.members := by
  rcases ({} : Registry).addNamespace_cases decl with
    ⟨members, reads, _⟩ | ⟨before, error, stops, _⟩
  · refine ⟨members, none, fun registry => Registry.addNamespace_reads reads, fun member among => ?_⟩
    rw [reads]
    exact List.mem_map_of_mem among
  · obtain ⟨rest, split⟩ := stops
    refine ⟨before, some error, fun registry => ?_, fun member among => ?_⟩
    · rw [Registry.addNamespace, split, Registry.addReadable_error]
    · rw [split]
      exact List.mem_append_left _ (List.mem_map_of_mem among)

end NamespaceDecl

namespace Environment

variable {environment : Environment} {path other : String}

/-- What an import registers, and its result, in any environment with the same library where the
path is imported or not as it is here. -/
theorem importNamespace_adds (environment : Environment) (path : String) :
    ∃ typeDefs members error,
      (∀ typeDef ∈ typeDefs, ∃ decl, environment.library.get? path = some decl ∧
        typeDef ∈ decl.typeDefs) ∧
      (∀ member ∈ members, ∃ decl, environment.library.get? path = some decl ∧
        .ok member ∈ decl.members) ∧
      ∀ other : Environment, other.library = environment.library →
        other.isImported path = environment.isImported path →
        (other.importNamespace path).2 = error ∧ (other.importNamespace path).1.registry =
          (other.registry.addTypes typeDefs).addMembers members := by
  cases imported : environment.isImported path with
  | true =>
      refine ⟨[], [], none, by simp, by simp, fun other _ same => ?_⟩
      rw [importNamespace, if_pos same]
      exact ⟨rfl, rfl⟩
  | false =>
      cases known : environment.library.get? path with
      | none =>
          refine ⟨[], [], some (.undefinedNamespace path), by simp, by simp,
            fun other library same => ?_⟩
          rw [← library] at known
          simp [importNamespace, same, known, Registry.addTypes, Registry.addMembers]
      | some decl =>
          obtain ⟨members, error, added, declared⟩ := decl.adds
          refine ⟨decl.typeDefs, members, error.map .badSignature,
            fun typeDef among => ⟨decl, rfl, among⟩,
            fun member among => ⟨decl, rfl, declared member among⟩, fun other library same => ?_⟩
          rw [← library] at known
          cases error <;>
            simp [importNamespace, same, known, added]

theorem library_importNamespace (environment : Environment) (path : String) :
    (environment.importNamespace path).1.library = environment.library :=
  (environment.importNamespace_grows path).library

/-- An import makes no path imported but its own. -/
theorem isImported_importNamespace (environment : Environment) (differs : path ≠ other) :
    (environment.importNamespace path).1.isImported other = environment.isImported other := by
  rcases environment.importNamespace_cases path with
    ⟨_, run⟩ | ⟨_, _, run⟩ | ⟨_, _, _, _, _, run⟩ | ⟨_, _, _, _, run⟩ <;> rw [run]
  · rfl
  · simp [isImported, differs.symm]

/-- After an import its path is imported if and only if it succeeded. -/
theorem isImported_importNamespace_self (environment : Environment) (path : String) :
    (environment.importNamespace path).1.isImported path =
      (environment.importNamespace path).2.isNone := by
  rcases environment.importNamespace_cases path with
    ⟨imported, run⟩ | ⟨fresh, _, run⟩ | ⟨_, _, fresh, _, _, run⟩ | ⟨_, _, _, _, run⟩ <;> rw [run]
  · exact imported
  · exact fresh
  · exact fresh
  · simp [isImported]

/-- A second import of the same path ends as the first one. -/
theorem importNamespace_again (environment : Environment) (path : String) :
    ((environment.importNamespace path).1.importNamespace path).2 =
      (environment.importNamespace path).2 := by
  obtain ⟨typeDefs, members, error, _, _, adds⟩ := environment.importNamespace_adds path
  cases imported : (environment.importNamespace path).1.isImported path with
  | true =>
      rw [importNamespace, if_pos imported]
      rw [isImported_importNamespace_self, Option.isNone_iff_eq_none] at imported
      exact imported.symm
  | false =>
      have fresh : environment.isImported path = false := by
        refine Bool.eq_false_iff.mpr fun known => ?_
        rw [(environment.importNamespace_grows path).imported path known] at imported
        cases imported
      rw [(adds environment rfl rfl).1]
      exact (adds _ (library_importNamespace environment path) (imported.trans fresh.symm)).1

/-- Whether lookups in two environments give the same, up to the positions of members. -/
structure Answers (left right : Environment) : Prop where
  type? : ∀ name, left.registry.type? name = right.registry.type? name
  typeNamed? : ∀ name, left.typeNamed? name = right.typeNamed? name
  isSubtype : ∀ sub super, left.registry.isSubtype sub super = right.registry.isSubtype sub super
  isAssignable : ∀ target source, left.isAssignable target source =
    right.isAssignable target source
  candidates : ∀ owner name kind,
    left.registry.definitions (left.registry.candidates owner name kind) =
      right.registry.definitions (right.registry.candidates owner name kind)
  constructors : ∀ owner, left.registry.definitions (left.registry.constructors owner) =
    right.registry.definitions (right.registry.constructors owner)
  functions : ∀ name, left.registry.definitions (left.registry.functions name) =
    right.registry.definitions (right.registry.functions name)

theorem answers_of_alike {left right : Environment} (alike : left.registry.Alike right.registry) :
    left.Answers right where
  type? := alike.type?
  typeNamed? name := by simp only [Environment.typeNamed?, alike.type?]
  isSubtype := alike.isSubtype
  isAssignable target source := by
    simp only [Environment.isAssignable, isAssignableHost, alike.isSubtype]
  candidates := alike.candidates
  constructors owner := alike.candidates owner _ _
  functions := alike.functions

/-- Two namespaces that declare no type and no function of the same name can be imported in either
order: each import succeeds or fails as it does alone, and the lookups give the same afterwards,
even if an import stops at a bad signature. -/
theorem importNamespace_comm {first second : String}
    (apart : ∀ decl other, environment.library.get? first = some decl →
      environment.library.get? second = some other → decl.Apart other) :
    let forth := (environment.importNamespace first).1.importNamespace second
    let back := (environment.importNamespace second).1.importNamespace first
    forth.2 = (environment.importNamespace second).2 ∧
      back.2 = (environment.importNamespace first).2 ∧ forth.1.Answers back.1 := by
  intro forth back
  by_cases same : first = second
  · subst same
    have again := environment.importNamespace_again first
    exact ⟨again, again, answers_of_alike ⟨.refl _, fun _ _ _ => rfl, fun _ => rfl⟩⟩
  obtain ⟨typeDefs, members, error, types, declared, adds⟩ := environment.importNamespace_adds first
  obtain ⟨others, later, failure, otherTypes, otherDeclared, otherAdds⟩ :=
    environment.importNamespace_adds second
  obtain ⟨isError, early⟩ := adds environment rfl rfl
  obtain ⟨isFailure, lone⟩ := otherAdds environment rfl rfl
  obtain ⟨forthError, forthRegistry⟩ := otherAdds (environment.importNamespace first).1
    (library_importNamespace environment first) (isImported_importNamespace environment same)
  obtain ⟨backError, backRegistry⟩ := adds (environment.importNamespace second).1
    (library_importNamespace environment second)
    (isImported_importNamespace environment (Ne.symm same))
  refine ⟨forthError.trans isFailure.symm, backError.trans isError.symm, answers_of_alike ?_⟩
  rw [forthRegistry, backRegistry, early, lone]
  refine environment.registry.addMembers_comm ?_ ?_ ?_
  · intro typeDef among other isLater
    obtain ⟨decl, known, declares⟩ := types typeDef among
    obtain ⟨otherDecl, otherKnown, otherDeclares⟩ := otherTypes other isLater
    obtain ⟨type, isDeclared, rfl⟩ := List.mem_map.mp declares
    obtain ⟨otherType, otherIsDeclared, rfl⟩ := List.mem_map.mp otherDeclares
    exact (apart decl otherDecl known otherKnown).types type isDeclared otherType otherIsDeclared
  · intro member among other isLater notFunction otherNotFunction
    obtain ⟨decl, known, declares⟩ := declared member among
    obtain ⟨otherDecl, otherKnown, otherDeclares⟩ := otherDeclared other isLater
    obtain ⟨type, isDeclared, isOwner⟩ :=
      (NamespaceDecl.owner_of_mem declares).resolve_left notFunction
    obtain ⟨otherType, otherIsDeclared, isOtherOwner⟩ :=
      (NamespaceDecl.owner_of_mem otherDeclares).resolve_left otherNotFunction
    rw [isOwner, isOtherOwner]
    exact (apart decl otherDecl known otherKnown).types type isDeclared otherType otherIsDeclared
  · intro member among other isLater isFunction otherIsFunction
    obtain ⟨decl, known, declares⟩ := declared member among
    obtain ⟨otherDecl, otherKnown, otherDeclares⟩ := otherDeclared other isLater
    obtain ⟨function, isDeclared, isName⟩ := decl.function_of_mem declares isFunction
    obtain ⟨otherFunction, otherIsDeclared, isOtherName⟩ :=
      otherDecl.function_of_mem otherDeclares otherIsFunction
    rw [isName, isOtherName]
    exact (apart decl otherDecl known otherKnown).functions function isDeclared otherFunction
      otherIsDeclared

theorem kennel_apart_wildlife : kennel.Apart wildlife :=
  ⟨by decide, by decide⟩

/-- The supertype of dogs may be registered before or after them: their methods come from other
positions, in the same order. -/
theorem importNamespace_comm_kennels :
    let environment := ((ofOptions {}).addNamespace kennel).addNamespace wildlife
    let forth := ((environment.importNamespace "kennel").1.importNamespace "wildlife").1.registry
    let back := ((environment.importNamespace "wildlife").1.importNamespace "kennel").1.registry
    let ofForth := forth.candidates "Dog" "name" .method
    let ofBack := back.candidates "Dog" "name" .method
    ofForth.length = 2 ∧ ofForth ≠ ofBack ∧ forth.definitions ofForth = back.definitions ofBack ∧
      forth.isSubtype "Dog" "Being" = true ∧ back.isSubtype "Dog" "Being" = true := by
  intro environment forth back ofForth ofBack
  have apart : ∀ decl other, environment.library.get? "kennel" = some decl →
      environment.library.get? "wildlife" = some other → decl.Apart other := by
    intro decl other known otherKnown
    have isKennel : environment.library.get? "kennel" = some kennel := rfl
    have isWildlife : environment.library.get? "wildlife" = some wildlife := rfl
    rw [isKennel, Option.some.injEq] at known
    rw [isWildlife, Option.some.injEq] at otherKnown
    subst known otherKnown
    exact kennel_apart_wildlife
  obtain ⟨_, _, answers⟩ := importNamespace_comm apart
  have isForth : ofForth = [197, 199] := by
    simp only [ofForth, Registry.candidates, Registry.declared, Registry.positions_eq_walk]
    decide +kernel
  have isBack : ofBack = [198, 197] := by
    simp only [ofBack, Registry.candidates, Registry.declared, Registry.positions_eq_walk]
    decide +kernel
  have below : forth.isSubtype "Dog" "Being" = true := by decide
  refine ⟨?_, ?_, answers.candidates "Dog" "name" .method, below,
    (answers.isSubtype "Dog" "Being").symm.trans below⟩
  · rw [isForth]
    rfl
  · rw [isForth, isBack]
    decide

end Environment

end ScriptTyping
