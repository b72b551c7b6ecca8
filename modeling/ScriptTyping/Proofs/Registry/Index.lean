import Mathlib.Logic.Function.Basic
import ScriptTyping.Proofs.Registry.Signature

/-!
The lists that members are found in, as registering one member after the other puts them together:
one for each owner and name, and one for the free functions of each name. Lookups walk over all
members instead, and this gives the same lists.
-/

namespace ScriptTyping

inductive MemberKey where
  | owned (owner name : String)
  /-- Free functions, whichever namespace declares them. -/
  | free (name : String)
  deriving DecidableEq, Repr

def Member.key (member : Member) : MemberKey :=
  if member.kind = .function then .free member.name else .owned member.owner member.name

theorem Member.key_eq_owned {member : Member} {owner name : String} :
    member.key = .owned owner name ↔
      member.kind ≠ .function ∧ member.owner = owner ∧ member.name = name := by
  unfold key
  split
  · rename_i isFunction
    simp [isFunction]
  · rename_i notFunction
    simp [notFunction]

theorem Member.key_eq_free {member : Member} {name : String} :
    member.key = .free name ↔ member.kind = .function ∧ member.name = name := by
  unfold key
  split
  · rename_i isFunction
    simp [isFunction]
  · rename_i notFunction
    simp [notFunction]

abbrev MemberIndex := MemberKey → List MemberId

def MemberIndex.add (index : MemberIndex) (entry : Member × MemberId) : MemberIndex :=
  Function.update index entry.1.key (index entry.1.key ++ [entry.2])

theorem MemberIndex.add_apply (index : MemberIndex) (entry : Member × MemberId) (key : MemberKey) :
    index.add entry key = index key ++ if entry.1.key = key then [entry.2] else [] := by
  unfold add
  by_cases here : entry.1.key = key
  · subst here
    rw [Function.update_self, if_pos rfl]
  · rw [Function.update_of_ne (Ne.symm here), if_neg here, List.append_nil]

/-- What is put in comes behind what was there, in the order of the entries. -/
theorem MemberIndex.foldl_add (index : MemberIndex) (entries : List (Member × MemberId))
    (key : MemberKey) :
    entries.foldl add index key =
      index key ++ (entries.filter fun entry => entry.1.key = key).map (·.2) := by
  induction entries generalizing index with
  | nil => simp
  | cons entry rest ih =>
      rw [List.foldl_cons, ih, add_apply, List.append_assoc]
      congr 1
      by_cases here : entry.1.key = key <;> simp [here]

namespace Registry

variable {registry : Registry} {key : MemberKey} {id : MemberId}

def index (registry : Registry) : MemberIndex :=
  registry.members.toList.zipIdx.foldl MemberIndex.add fun _ => []

/-- Registering a member puts it at the end of its list and leaves the others. -/
theorem index_addMember (registry : Registry) (member : Member) :
    (registry.addMember member).index = registry.index.add (member, registry.members.size) := by
  simp [index, addMember, List.zipIdx_append]

/-- A walk over all members finds a list as it came about. -/
theorem index_eq_positions (registry : Registry) (key : MemberKey) :
    registry.index key = registry.positions fun member => member.key = key := by
  rw [index, MemberIndex.foldl_add, List.nil_append, positions_eq_walk]

theorem mem_index : id ∈ registry.index key ↔
    id < registry.members.size ∧ (registry.member id).key = key := by
  rw [index_eq_positions, positions, List.mem_filter, List.mem_range, decide_eq_true_iff]

theorem pairwise_index (registry : Registry) (key : MemberKey) :
    (registry.index key).Pairwise (· < ·) := by
  rw [index_eq_positions]
  exact List.pairwise_lt_range.filter _

theorem count_index (bound : id < registry.members.size) :
    (registry.index key).count id = if (registry.member id).key = key then 1 else 0 := by
  have nodup : (registry.index key).Nodup := (registry.pairwise_index key).imp Nat.ne_of_lt
  simp only [nodup.count, mem_index, bound, true_and]

/-- The members that a type itself declares are those of its list that have the kind. -/
theorem declared_eq_index {owner name : String} {kind : MemberKind} (owned : kind ≠ .function) :
    registry.declared owner name kind =
      (registry.index (.owned owner name)).filter fun id => (registry.member id).kind = kind := by
  rw [declared, index_eq_positions, positions, positions, List.filter_filter]
  refine List.filter_congr fun id _ => ?_
  rw [Bool.eq_iff_iff]
  simp only [Bool.and_eq_true, bne_iff_ne, beq_iff_eq, decide_eq_true_iff, Member.key_eq_owned]
  grind

theorem functions_eq_index (registry : Registry) (name : String) :
    registry.functions name = registry.index (.free name) := by
  rw [functions, index_eq_positions]
  congr 1
  funext member
  rw [Bool.eq_iff_iff]
  simp only [Bool.and_eq_true, beq_iff_eq, decide_eq_true_iff, Member.key_eq_free]

/-- Whether the lists of a registry and the signatures of its members are sound. -/
structure Indexed (registry : Registry) : Prop where
  owned : ∀ owner name, ∀ id ∈ registry.index (.owned owner name),
    id < registry.members.size ∧ (registry.member id).kind ≠ .function ∧
      (registry.member id).owner = owner ∧ (registry.member id).name = name
  free : ∀ name, ∀ id ∈ registry.index (.free name),
    id < registry.members.size ∧ (registry.member id).kind = .function ∧
      (registry.member id).name = name
  /-- Each member stands once in one list, and in no other. -/
  once : ∀ id < registry.members.size, ∃ key,
    (registry.index key).count id = 1 ∧ ∀ other ≠ key, id ∉ registry.index other
  ordered : ∀ key, (registry.index key).Pairwise (· < ·)
  added : ∀ member, (registry.addMember member).index =
    registry.index.add (member, registry.members.size)
  /-- The types of a member have no variables but its own, which include those of its owner. -/
  ofScope : ∀ id < registry.members.size, (registry.member id).Scoped
  declared : ∀ owner name kind, kind ≠ .function → registry.declared owner name kind =
    (registry.index (.owned owner name)).filter fun id => (registry.member id).kind = kind
  functions : ∀ name, registry.functions name = registry.index (.free name)

/-- Every registry of a session finds each member in one list, which is in the order of
registration, also where a namespace stopped at a bad signature. -/
theorem Built.indexed (built : registry.Built) : registry.Indexed where
  owned owner name id inside := (mem_index.mp inside).imp_right Member.key_eq_owned.mp
  free name id inside := (mem_index.mp inside).imp_right Member.key_eq_free.mp
  once id bound := by
    refine ⟨(registry.member id).key, by rw [count_index bound, if_pos rfl], ?_⟩
    intro other differs inside
    exact differs (mem_index.mp inside).2.symm
  ordered := registry.pairwise_index
  added := registry.index_addMember
  ofScope id bound := by
    refine built.member_scoped _ ?_
    rw [Registry.member, Array.getElem?_eq_getElem bound]
    exact Array.mem_toList_iff.mpr (Array.getElem_mem bound)
  declared owner name kind := declared_eq_index
  functions := registry.functions_eq_index

def partlyRead : NamespaceDecl where
  path := "tools"
  types := [{
    name := "Box"
    params := ["T"]
    constructors := [{ params := ["T"] }]
    methods := [{ name := "swap", params := ["T", "U"], returns := "U", generics := ["U"] },
      { name := "value" }]
    fields := [{ name := "value", type := "T" }] }]
  functions := [{ name := "pack", params := ["U"], returns := "Box<U>", generics := ["U"] },
    { name := "pack", params := ["Array<"] }]

theorem indexed_partlyRead :
    let before := Builtin.registry 0
    let registry := (before.addNamespace partlyRead).1
    let first := before.members.size
    registry.Built ∧ (before.addNamespace partlyRead).2 = some .missingName ∧
      registry.index (.owned "Box" "value") = [first, first + 3] ∧
      registry.declared "Box" "value" .field = [first] ∧
      registry.index (.free "pack") = [first + 4] ∧
      (registry.index (.owned "Box" "swap")).Pairwise (· < ·) ∧
      (registry.member (first + 2)).Scoped ∧ (registry.member (first + 2)).vars = ["T", "U"] ∧
      ∃ key, (registry.index key).count (first + 4) = 1 ∧
        ∀ other ≠ key, first + 4 ∉ registry.index other := by
  intro before registry first
  have built : registry.Built := .addNamespace partlyRead (.start 0)
  have indexed := built.indexed
  have runs : registry.members.size = first + 5 ∧
      (before.addNamespace partlyRead).2 = some .missingName ∧
      registry.index (.owned "Box" "value") = [first, first + 3] ∧
      registry.declared "Box" "value" .field = [first] ∧
      registry.index (.free "pack") = [first + 4] ∧
      (registry.member (first + 2)).vars = ["T", "U"] := by
    decide +kernel
  obtain ⟨isSize, stops, ofName, ofField, ofFunction, vars⟩ := runs
  exact ⟨built, stops, ofName, ofField, ofFunction, indexed.ordered _,
    indexed.ofScope _ (by omega), vars, indexed.once _ (by omega)⟩

end Registry

end ScriptTyping
