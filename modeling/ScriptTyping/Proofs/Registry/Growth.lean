import ScriptTyping.Registry.Builtin
import ScriptTyping.Registry.Namespace

/-!
A registry only grows: members keep their positions and registered names stay registered, although
a later type takes the place of an earlier one of the same name.
-/

namespace ScriptTyping

namespace Table

variable {α : Type}

theorem length_replace_ge (name : String) (value : α) (entries : List (String × α)) :
    entries.length ≤ (replace name value entries).length := by
  induction entries with
  | nil => simp
  | cons entry rest ih =>
      obtain ⟨key, old⟩ := entry
      simp only [replace]
      split
      · simp
      · simpa using ih

theorem size_insert_ge (table : Table α) (name : String) (value : α) :
    table.size ≤ (table.insert name value).size :=
  length_replace_ge name value table.entries

end Table

namespace Registry

structure Grows (old new : Registry) : Prop where
  members : old.members.toList <+: new.members.toList
  types : ∀ name, (old.type? name).isSome = true → (new.type? name).isSome = true
  size : old.types.size ≤ new.types.size

theorem Grows.refl (registry : Registry) : registry.Grows registry :=
  ⟨List.prefix_refl _, fun _ known => known, Nat.le_refl _⟩

theorem Grows.trans {first second third : Registry} (early : first.Grows second)
    (late : second.Grows third) : first.Grows third :=
  ⟨early.members.trans late.members, fun name known => late.types name (early.types name known),
    Nat.le_trans early.size late.size⟩

theorem Grows.member_eq {old new : Registry} (grows : old.Grows new) {id : MemberId}
    (bound : id < old.members.size) : new.member id = old.member id := by
  obtain ⟨later, appended⟩ := grows.members
  have found : new.members[id]? = old.members[id]? := by
    rw [← Array.getElem?_toList, ← appended, List.getElem?_append_left (by simpa using bound),
      Array.getElem?_toList]
  simp only [member, found]

theorem Grows.size_members {old new : Registry} (grows : old.Grows new) :
    old.members.size ≤ new.members.size := by
  simpa using grows.members.length_le

theorem addType_grows (registry : Registry) (typeDef : TypeDef) :
    registry.Grows (registry.addType typeDef) := by
  refine ⟨List.prefix_refl _, ?_, Table.size_insert_ge _ _ _⟩
  intro name known
  simp only [type?, addType, Table.get?_insert] at known ⊢
  split
  · rfl
  · exact known

theorem addMember_grows (registry : Registry) (member : Member) :
    registry.Grows (registry.addMember member) :=
  ⟨by simp [addMember], fun _ known => known, Nat.le_refl _⟩

theorem addTypes_grows (registry : Registry) (typeDefs : List TypeDef) :
    registry.Grows (registry.addTypes typeDefs) := by
  induction typeDefs generalizing registry with
  | nil => exact .refl registry
  | cons typeDef rest ih => exact (registry.addType_grows typeDef).trans (ih _)

theorem addReadable_grows (registry : Registry) (members : List (Except TypeTextError Member)) :
    registry.Grows (registry.addReadable members).1 := by
  induction members generalizing registry with
  | nil => exact .refl registry
  | cons member rest ih =>
      cases member with
      | error error => exact .refl registry
      | ok member => exact (registry.addMember_grows member).trans (ih _)

theorem addNamespace_grows (registry : Registry) (decl : NamespaceDecl) :
    registry.Grows (registry.addNamespace decl).1 :=
  (registry.addTypes_grows _).trans (addReadable_grows _ _)

/-! ### Where members stand -/

@[simp]
theorem members_addTypes (registry : Registry) (typeDefs : List TypeDef) :
    (registry.addTypes typeDefs).members = registry.members := by
  induction typeDefs generalizing registry with
  | nil => rfl
  | cons typeDef rest ih => exact ih (registry.addType typeDef)

theorem toList_addMembers (registry : Registry) (members : List Member) :
    (registry.addMembers members).members.toList = registry.members.toList ++ members := by
  induction members generalizing registry with
  | nil => simp [addMembers]
  | cons member rest ih =>
      have later := ih (registry.addMember member)
      simp only [addMembers, addMember, List.foldl_cons, Array.toList_push] at later ⊢
      simpa using later

theorem mem_addReadable {registry : Registry} {members : List (Except TypeTextError Member)}
    {member : Member} (added : member ∈ (registry.addReadable members).1.members.toList) :
    member ∈ registry.members.toList ∨ .ok member ∈ members := by
  induction members generalizing registry with
  | nil => exact .inl added
  | cons first rest ih =>
      cases first with
      | error error => exact .inl added
      | ok first =>
          rcases ih added with old | new
          · simp only [addMember, Array.toList_push, List.mem_append, List.mem_singleton] at old
            rcases old with old | same
            · exact .inl old
            · subst same
              exact .inr List.mem_cons_self
          · exact .inr (List.mem_cons_of_mem _ new)

/-! ### Where lookups lead -/

/-- A lookup gives what one walk over all members gives. -/
theorem positions_eq_walk (registry : Registry) (wanted : Member → Bool) :
    registry.positions wanted =
      (registry.members.toList.zipIdx.filter fun entry => wanted entry.1).map (·.2) := by
  have walk : registry.members.toList.zipIdx =
      (List.range registry.members.size).map fun id => (registry.member id, id) := by
    apply List.ext_getElem
    · simp
    · intro id inside _
      have bound : id < registry.members.size := by simpa using inside
      simp [Registry.member, bound]
  rw [walk, List.filter_map, List.map_map]
  exact (List.map_id _).symm

theorem lt_of_mem_positions {registry : Registry} {wanted : Member → Bool} {id : MemberId}
    (found : id ∈ registry.positions wanted) : id < registry.members.size :=
  List.mem_range.mp (List.mem_filter.mp found).1

theorem lt_of_mem_functions {registry : Registry} {name : String} {id : MemberId}
    (found : id ∈ registry.functions name) : id < registry.members.size :=
  lt_of_mem_positions found

theorem lt_of_mem_candidates {registry : Registry} {owner name : String} {kind : MemberKind}
    {id : MemberId} (found : id ∈ registry.candidates owner name kind) :
    id < registry.members.size := by
  unfold candidates at found
  split at found
  · exact lt_of_mem_positions found
  · obtain ⟨type, _, declared⟩ := List.mem_flatMap.mp found
    exact lt_of_mem_positions declared

theorem name_of_mem_declared {registry : Registry} {owner name : String} {kind : MemberKind}
    {id : MemberId} (found : id ∈ registry.declared owner name kind) :
    (registry.member id).name = name ∧ (registry.member id).owner = owner := by
  have wanted := (List.mem_filter.mp found).2
  simp only [Bool.and_eq_true, beq_iff_eq] at wanted
  exact ⟨wanted.1.2, wanted.2⟩

theorem name_of_mem_candidates {registry : Registry} {owner name : String}
    {kind : MemberKind} {id : MemberId} (found : id ∈ registry.candidates owner name kind) :
    (registry.member id).name = name := by
  unfold candidates at found
  split at found
  · exact (name_of_mem_declared found).1
  · obtain ⟨type, _, declared⟩ := List.mem_flatMap.mp found
    exact (name_of_mem_declared declared).1

theorem owner_of_mem_candidates {registry : Registry} {owner name : String}
    {kind : MemberKind} {id : MemberId} (found : id ∈ registry.candidates owner name kind)
    (inherits : kind ≠ .constructor) : (registry.member id).owner ∈ registry.lineage owner := by
  rw [candidates, if_neg inherits] at found
  obtain ⟨type, isAbove, declared⟩ := List.mem_flatMap.mp found
  rw [(name_of_mem_declared declared).2]
  exact isAbove

/-- A name that is no supertype comes up only in its own lineage. -/
theorem eq_of_mem_lineage {registry : Registry} {sub super : String}
    (apart : ∀ name, registry.supertype? name ≠ some super)
    (above : super ∈ registry.lineage sub) : super = sub := by
  unfold lineage at above
  generalize registry.types.size = steps at above
  induction steps generalizing sub with
  | zero => exact List.mem_singleton.mp above
  | succ steps ih =>
      rcases List.mem_cons.mp above with same | later
      · exact same
      · split at later
        · exact absurd later List.not_mem_nil
        · rename_i next declared
          exact absurd (ih later ▸ declared) (apart sub)

end Registry

end ScriptTyping
