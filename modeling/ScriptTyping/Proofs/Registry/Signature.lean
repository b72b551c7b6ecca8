import ScriptTyping.Proofs.Registry.Origin
import ScriptTyping.Proofs.Ty.Written

/-!
Signatures of members. The types of a member have no variables but those that it declares, and the
built-in members stand where bindings without a lookup expect them.
-/

namespace ScriptTyping

def Member.Plain (member : Member) : Prop :=
  member.vars = [] → member.params.all (·.hasVar == false) = true ∧ member.result.hasVar = false

def Member.Scoped (member : Member) : Prop :=
  Ty.allWithin member.vars.length member.params = true ∧
    member.result.within member.vars.length = true ∧ member.ownerVars ≤ member.vars.length

instance (member : Member) : Decidable member.Scoped := by
  unfold Member.Scoped
  infer_instance

theorem Member.Scoped.plain {member : Member} (inScope : member.Scoped) : member.Plain := by
  obtain ⟨params, result, _⟩ := inScope
  intro none
  rw [none, List.length_nil] at params result
  rw [Ty.within_zero, Bool.not_eq_true'] at result
  rw [Ty.allWithin_eq_all] at params
  refine ⟨?_, result⟩
  rw [← params]
  congr 1
  funext ty
  rw [Ty.within_zero]
  cases ty.hasVar <;> rfl

/-! ### Declared members -/

theorem readSignature_within {vars texts : List String} {types : List Ty}
    (reads : readSignature vars texts = .ok types) : Ty.allWithin vars.length types = true := by
  induction texts generalizing types with
  | nil =>
      simp only [readSignature, Except.ok.injEq] at reads
      rw [← reads]
      rfl
  | cons text rest ih =>
      obtain ⟨ty, first, reads⟩ := Except.bind_eq_ok.mp reads
      obtain ⟨others, second, reads⟩ := Except.bind_eq_ok.mp reads
      simp only [Except.ok.injEq] at reads
      rw [← reads, Ty.allWithin, ih second, Ty.ofText?_within first]
      rfl

namespace TypeDecl

variable {decl : TypeDecl} {member : Member}

theorem self_within (decl : TypeDecl) {count : Nat} (enough : decl.params.length ≤ count) :
    decl.self.within count = true := by
  rw [self]
  split
  · rfl
  · rw [Ty.generic, Ty.within, Ty.allWithin_eq_all, List.all_map, List.all_eq_true]
    intro index inside
    exact decide_eq_true (Nat.lt_of_lt_of_le (List.mem_range.mp inside) enough)

theorem fieldMember_scoped {field : FieldDecl} (reads : decl.fieldMember field = .ok member) :
    member.Scoped := by
  obtain ⟨ty, first, reads⟩ := Except.bind_eq_ok.mp reads
  simp only [Except.ok.injEq] at reads
  subst reads
  exact ⟨rfl, Ty.ofText?_within first, Nat.le_refl _⟩

theorem constructorMember_scoped {ctor : ConstructorDecl}
    (reads : decl.constructorMember ctor = .ok member) : member.Scoped := by
  obtain ⟨params, first, reads⟩ := Except.bind_eq_ok.mp reads
  simp only [Except.ok.injEq] at reads
  subst reads
  have enough : decl.params.length ≤ (decl.params ++ ctor.generics).length := by simp
  exact ⟨readSignature_within first, decl.self_within enough, enough⟩

theorem methodMember_scoped {method : MethodDecl} (reads : decl.methodMember method = .ok member) :
    member.Scoped := by
  obtain ⟨params, first, reads⟩ := Except.bind_eq_ok.mp reads
  obtain ⟨result, second, reads⟩ := Except.bind_eq_ok.mp reads
  simp only [Except.ok.injEq] at reads
  subst reads
  exact ⟨readSignature_within first, Ty.ofText?_within second, by simp⟩

end TypeDecl

theorem FunctionDecl.member_scoped {decl : FunctionDecl} {path : String} {member : Member}
    (reads : decl.member path = .ok member) : member.Scoped := by
  obtain ⟨params, first, reads⟩ := Except.bind_eq_ok.mp reads
  obtain ⟨result, second, reads⟩ := Except.bind_eq_ok.mp reads
  simp only [Except.ok.injEq] at reads
  subst reads
  exact ⟨readSignature_within first, Ty.ofText?_within second, Nat.zero_le _⟩

theorem NamespaceDecl.members_scoped {decl : NamespaceDecl} {member : Member}
    (declares : .ok member ∈ decl.members) : member.Scoped := by
  rcases List.mem_append.mp declares with ofType | ofFunction
  · obtain ⟨type, _, ofType⟩ := List.mem_flatMap.mp ofType
    rw [TypeDecl.members, List.mem_append, List.mem_append] at ofType
    rcases ofType with (ofField | ofConstructor) | ofMethod
    · obtain ⟨field, _, reads⟩ := List.mem_map.mp ofField
      exact TypeDecl.fieldMember_scoped reads
    · obtain ⟨ctor, _, reads⟩ := List.mem_map.mp ofConstructor
      exact TypeDecl.constructorMember_scoped reads
    · obtain ⟨method, _, reads⟩ := List.mem_map.mp ofMethod
      exact TypeDecl.methodMember_scoped reads
  · obtain ⟨function, _, reads⟩ := List.mem_map.mp ofFunction
    exact FunctionDecl.member_scoped reads

/-! ### Built-in members -/

namespace Builtin

def fixedMembers : List Member := hostMembers ++ operators ++ Conversion.all.map (·.member)

theorem toList_members (maxArity : Nat) :
    (registry maxArity).members.toList = fixedMembers ++ runtimeMembers maxArity := by
  rw [registry, Registry.toList_addMembers, Registry.members_addTypes]
  rfl

theorem fixedMembers_scoped : ∀ member ∈ fixedMembers, member.Scoped := by decide +kernel

theorem runtimeMembers_scoped {maxArity : Nat} :
    ∀ member ∈ runtimeMembers maxArity, member.Scoped := by
  have few : ∀ member ∈ runtimeMembers 0, member.Scoped := by decide
  have objects : ∀ (front : List Ty) (arity : Nat), Ty.allWithin 0 front = true →
      Ty.allWithin 0 (front ++ List.replicate arity Ty.object) = true := by
    intro front arity inside
    rw [Ty.allWithin_eq_all, List.all_append, ← Ty.allWithin_eq_all, inside, List.all_replicate]
    split <;> rfl
  intro member inside
  rcases List.mem_append.mp inside with fixed | invoker
  · exact few member (List.mem_append_left _ fixed)
  · obtain ⟨arity, _, isInvoker⟩ := List.mem_flatMap.mp invoker
    simp only [invokers, List.mem_cons, List.not_mem_nil, or_false] at isInvoker
    rcases isInvoker with rfl | rfl
    · exact ⟨objects _ arity rfl, rfl, Nat.le_refl _⟩
    · exact ⟨objects _ arity rfl, rfl, Nat.le_refl _⟩

theorem length_fixedMembers : fixedMembers.length = RuntimeMember.assertion := by
  rw [fixedMembers, List.length_append, List.length_map]
  rfl

/-- The members that serve runtime lookups stand behind all others, in their order. -/
theorem found_runtime (maxArity index : Nat) :
    (registry maxArity).members[RuntimeMember.assertion + index]? =
      (runtimeMembers maxArity)[index]? := by
  rw [← Array.getElem?_toList, toList_members, ← length_fixedMembers,
    List.getElem?_append_right (Nat.le_add_right _ _), Nat.add_sub_cancel_left]

theorem found_assertion (maxArity : Nat) : (registry maxArity).members[RuntimeMember.assertion]? =
    some (runtimeMethod "assert" [.bool, .string] .void) :=
  found_runtime maxArity 0

theorem length_invokers (count : Nat) : ((List.range count).flatMap invokers).length = 2 * count := by
  induction count with
  | zero => rfl
  | succ count ih => rw [List.range_succ, List.flatMap_append, List.length_append, ih]; rfl

/-- The invokers of each arity stand next to each other. -/
theorem getElem?_invokers {count arity : Nat} (inRange : arity < count) {which : Nat}
    (isOne : which < 2) :
    ((List.range count).flatMap invokers)[2 * arity + which]? = (invokers arity)[which]? := by
  induction count with
  | zero => exact absurd inRange (Nat.not_lt_zero arity)
  | succ count ih =>
      rw [List.range_succ, List.flatMap_append, List.flatMap_singleton]
      rcases Nat.lt_succ_iff_lt_or_eq.mp inRange with earlier | rfl
      · rw [List.getElem?_append_left (by rw [length_invokers]; omega)]
        exact ih earlier
      · rw [List.getElem?_append_right (by rw [length_invokers]; omega), length_invokers,
          Nat.add_sub_cancel_left]

theorem found_invoker {maxArity arity : Nat} (inRange : arity ≤ maxArity) {which : Nat}
    (isOne : which < 2) :
    (registry maxArity).members[RuntimeMember.assertion + 6 + (2 * arity + which)]? =
      (invokers arity)[which]? := by
  have behind : (runtimeMembers maxArity)[6 + (2 * arity + which)]? =
      ((List.range (maxArity + 1)).flatMap invokers)[6 + (2 * arity + which) - 6]? :=
    List.getElem?_append_right (Nat.le_add_right 6 _)
  rw [Nat.add_assoc, found_runtime, behind, Nat.add_sub_cancel_left]
  exact getElem?_invokers (Nat.lt_succ_of_le inRange) isOne

/-- The member of a conversion stands where its entry says. -/
theorem found_conversion (maxArity : Nat) {entry : CastEntry} (isEntry : entry ∈ CastEntry.all) :
    (registry maxArity).members[entry.member]? = some entry.conversion.member := by
  obtain ⟨⟨conversion, index⟩, inside, rfl⟩ := List.mem_map.mp isEntry
  have found := List.mk_mem_zipIdx_iff_getElem?.mp inside
  have inRange := (List.getElem?_eq_some_iff.mp found).1
  have front : firstConversion + index < fixedMembers.length := by
    rw [length_fixedMembers]
    exact Nat.add_lt_add_left inRange firstConversion
  rw [← Array.getElem?_toList, toList_members, List.getElem?_append_left front, fixedMembers]
  simp only [firstConversion]
  rw [List.getElem?_append_right (Nat.le_add_right _ _), Nat.add_sub_cancel_left,
    List.getElem?_map, found]
  rfl

end Builtin

theorem Registry.Built.member_scoped {registry : Registry} (built : registry.Built) :
    ∀ member ∈ registry.members.toList, member.Scoped := by
  intro member inside
  rcases built.member_origin inside with ⟨maxArity, builtin⟩ | ⟨decl, declared⟩
  · rw [Builtin.toList_members] at builtin
    rcases List.mem_append.mp builtin with fixed | runtime
    · exact Builtin.fixedMembers_scoped member fixed
    · exact Builtin.runtimeMembers_scoped member runtime
  · exact NamespaceDecl.members_scoped declared

namespace Environment

variable {environment : Environment}

/-- The types of every registered member are bound, whatever namespaces were read part-way. -/
theorem Built.member_scoped (built : environment.Built) :
    ∀ member ∈ environment.registry.members.toList, member.Scoped :=
  built.registry.member_scoped

theorem Built.member_plain (built : environment.Built) :
    ∀ member ∈ environment.registry.members.toList, member.Plain :=
  fun member inside => (built.member_scoped member inside).plain

/-- A built-in member stands in every environment where it stood first. -/
theorem Built.builtin_member (built : environment.Built) {id : MemberId} {member : Member}
    (found : (Builtin.registry environment.options.maxInvokeArity).members[id]? = some member) :
    id < environment.registry.members.size ∧ environment.registry.member id = member := by
  have grows := built.builtin_grows
  have bound := (Array.getElem?_eq_some_iff.mp found).1
  refine ⟨Nat.lt_of_lt_of_le bound grows.size_members, ?_⟩
  rw [grows.member_eq bound, Registry.member, found]
  rfl

end Environment

end ScriptTyping
