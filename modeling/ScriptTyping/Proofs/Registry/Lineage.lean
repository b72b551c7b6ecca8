import Mathlib.Data.Finset.Card
import Mathlib.Logic.Relation
import ScriptTyping.Proofs.Registry.Enlarging

/-!
A lineage holds exactly the names that are reached over declared supertypes, and a lookup collects
exactly the members of its name and kind that these declare. All names of a walk but the last are
registered, so a walk of more steps than there are types meets a name twice, and what lies between
can be left out.
-/

namespace ScriptTyping

theorem Table.mem_keys_of_get? {α : Type} {table : Table α} {name : String} {value : α}
    (found : table.get? name = some value) : name ∈ table.keys := by
  obtain ⟨entries⟩ := table
  simp only [get?, keys] at found ⊢
  induction entries with
  | nil => simp [lookup] at found
  | cons entry rest ih =>
      by_cases first : entry.1 = name
      · simp [first]
      · rw [lookup, if_neg first] at found
        exact List.mem_cons_of_mem _ (ih found)

namespace Registry

def Extends (registry : Registry) (sub super : String) : Prop :=
  registry.supertype? sub = some super

def Circular (registry : Registry) (name : String) : Prop :=
  Relation.TransGen registry.Extends name name

def ancestor? (registry : Registry) : Nat → String → Option String
  | 0, name => some name
  | steps + 1, name => (registry.supertype? name).bind (registry.ancestor? steps)

variable {registry : Registry} {sub super owner name : String} {kind : MemberKind} {id : MemberId}
  {steps : Nat}

/-! ### Walks -/

theorem ancestor?_add (registry : Registry) (first rest : Nat) (name : String) :
    registry.ancestor? (first + rest) name =
      (registry.ancestor? first name).bind (registry.ancestor? rest) := by
  induction first generalizing name with
  | zero => simp [ancestor?]
  | succ first ih =>
      rw [Nat.succ_add, ancestor?, ancestor?, Option.bind_assoc]
      congr 1
      funext next
      exact ih next

theorem reflTransGen_iff :
    Relation.ReflTransGen registry.Extends sub super ↔
      ∃ steps, registry.ancestor? steps sub = some super := by
  constructor
  · intro reaches
    induction reaches using Relation.ReflTransGen.head_induction_on with
    | refl => exact ⟨0, rfl⟩
    | head declared _ ih =>
        obtain ⟨steps, found⟩ := ih
        refine ⟨steps + 1, ?_⟩
        rw [ancestor?, declared]
        exact found
  · rintro ⟨steps, found⟩
    induction steps generalizing sub with
    | zero =>
        rw [Option.some.inj found]
    | succ steps ih =>
        obtain ⟨next, declared, found⟩ := Option.bind_eq_some_iff.mp found
        exact .head declared (ih found)

theorem transGen_iff :
    Relation.TransGen registry.Extends sub super ↔
      ∃ steps, 0 < steps ∧ registry.ancestor? steps sub = some super := by
  rw [Relation.TransGen.head'_iff]
  constructor
  · rintro ⟨next, declared, reaches⟩
    obtain ⟨steps, found⟩ := reflTransGen_iff.mp reaches
    refine ⟨steps + 1, by omega, ?_⟩
    rw [ancestor?, declared]
    exact found
  · rintro ⟨steps, positive, found⟩
    obtain ⟨rest, rfl⟩ : ∃ rest, steps = rest + 1 := ⟨steps - 1, by omega⟩
    obtain ⟨next, declared, found⟩ := Option.bind_eq_some_iff.mp found
    exact ⟨next, declared, reflTransGen_iff.mpr ⟨rest, found⟩⟩

/-- A walk that goes on stands on a registered name. -/
theorem ancestor?_registered {step : Nat} (found : registry.ancestor? steps sub = some super)
    (before : step < steps) :
    ∃ name ∈ registry.types.keys, registry.ancestor? step sub = some name := by
  obtain ⟨rest, rfl⟩ : ∃ rest, steps = step + (rest + 1) := ⟨steps - step - 1, by omega⟩
  rw [ancestor?_add] at found
  obtain ⟨name, here, found⟩ := Option.bind_eq_some_iff.mp found
  obtain ⟨next, declared, _⟩ := Option.bind_eq_some_iff.mp found
  obtain ⟨typeDef, registered, _⟩ := supertype?_eq_some.mp declared
  exact ⟨name, Table.mem_keys_of_get? registered, here⟩

/-- A walk of more steps than there are types meets a name twice before its end. -/
theorem exists_repeated (found : registry.ancestor? steps sub = some super)
    (long : registry.types.size < steps) :
    ∃ early late, early < late ∧ late < steps ∧
      registry.ancestor? early sub = registry.ancestor? late sub := by
  let names := (registry.types.keys.map some).toFinset
  have few : names.card < (Finset.range steps).card := by
    have bound := List.toFinset_card_le (registry.types.keys.map some)
    rw [List.length_map, Table.keys, List.length_map] at bound
    rw [Finset.card_range]
    exact Nat.lt_of_le_of_lt bound long
  have inside : Set.MapsTo (registry.ancestor? · sub) (Finset.range steps) names := by
    intro step before
    obtain ⟨name, registered, here⟩ :=
      ancestor?_registered found (Finset.mem_range.mp (Finset.mem_coe.mp before))
    have named : registry.ancestor? step sub ∈ names := by
      rw [here]
      exact List.mem_toFinset.mpr (List.mem_map_of_mem registered)
    exact named
  obtain ⟨one, oneBefore, two, twoBefore, differ, same⟩ :=
    Finset.exists_ne_map_eq_of_card_lt_of_maps_to few inside
  rw [Finset.mem_range] at oneBefore twoBefore
  rcases Nat.lt_or_gt_of_ne differ with earlier | later
  · exact ⟨one, two, earlier, twoBefore, same⟩
  · exact ⟨two, one, later, oneBefore, same.symm⟩

/-- What is reached at all is reached within as many steps as there are types. -/
theorem exists_within (positive : 0 < steps) (found : registry.ancestor? steps sub = some super) :
    ∃ fewer, 0 < fewer ∧ fewer ≤ registry.types.size ∧
      registry.ancestor? fewer sub = some super := by
  induction steps using Nat.strongRecOn with
  | ind steps ih =>
      by_cases enough : steps ≤ registry.types.size
      · exact ⟨steps, positive, enough, found⟩
      · obtain ⟨early, late, before, inside, same⟩ := exists_repeated found (by omega)
        -- The part between the two visits is left out.
        have shorter : registry.ancestor? (early + (steps - late)) sub = some super := by
          rw [ancestor?_add, same, ← ancestor?_add, Nat.add_sub_cancel' (by omega)]
          exact found
        exact ih (early + (steps - late)) (by omega) (by omega) shorter

/-! ### Lineages -/

theorem getElem?_chain (registry : Registry) (steps index : Nat) (name : String) :
    (registry.chain steps name)[index]? =
      if index ≤ steps then registry.ancestor? index name else none := by
  induction steps generalizing index name with
  | zero => cases index <;> simp [chain, ancestor?]
  | succ steps ih =>
      cases index with
      | zero => simp [chain, ancestor?]
      | succ index =>
          cases declared : registry.supertype? name with
          | none => simp [chain_of_root declared, ancestor?, declared]
          | some super => simp [chain_of_supertype declared, ancestor?, declared, ih]

theorem getElem?_lineage {index : Nat} (within : index ≤ registry.types.size) :
    (registry.lineage name)[index]? = registry.ancestor? index name := by
  rw [lineage, getElem?_chain, if_pos within]

theorem ancestor?_of_lineage {index : Nat} (found : (registry.lineage sub)[index]? = some super) :
    registry.ancestor? index sub = some super := by
  rw [lineage, getElem?_chain] at found
  split at found
  · exact found
  · cases found

theorem mem_lineage_iff :
    super ∈ registry.lineage sub ↔ Relation.ReflTransGen registry.Extends sub super := by
  rw [List.mem_iff_getElem?]
  constructor
  · rintro ⟨index, found⟩
    exact reflTransGen_iff.mpr ⟨index, ancestor?_of_lineage found⟩
  · intro reaches
    rcases Relation.reflTransGen_iff_eq_or_transGen.mp reaches with rfl | proper
    · exact ⟨0, getElem?_lineage (Nat.zero_le _)⟩
    · obtain ⟨steps, positive, found⟩ := transGen_iff.mp proper
      obtain ⟨fewer, _, within, found⟩ := exists_within positive found
      exact ⟨fewer, (getElem?_lineage within).trans found⟩

theorem isSubtype_iff :
    registry.isSubtype sub super = true ↔ Relation.ReflTransGen registry.Extends sub super := by
  rw [isSubtype, List.contains_iff_mem, mem_lineage_iff]

/-- A name that stands twice in a lineage is reached again from itself. -/
theorem circular_of_twice {early late : Nat} (before : early < late)
    (first : (registry.lineage owner)[early]? = some name)
    (second : (registry.lineage owner)[late]? = some name) : registry.Circular name := by
  obtain ⟨rest, rfl⟩ := Nat.exists_eq_add_of_lt before
  have again := ancestor?_of_lineage second
  rw [Nat.add_assoc, ancestor?_add, ancestor?_of_lineage first] at again
  exact transGen_iff.mpr ⟨rest + 1, by omega, again⟩

/-- The lineage of a name that is reached again holds it at its start and once more. -/
theorem Circular.again (circular : registry.Circular name) :
    ∃ later, 0 < later ∧ (registry.lineage name)[0]? = some name ∧
      (registry.lineage name)[later]? = some name := by
  obtain ⟨steps, positive, found⟩ := transGen_iff.mp circular
  obtain ⟨fewer, proper, within, found⟩ := exists_within positive found
  exact ⟨fewer, proper, getElem?_lineage (Nat.zero_le _), (getElem?_lineage within).trans found⟩

/-! ### Members -/

theorem mem_declared_iff :
    id ∈ registry.declared owner name kind ↔
      id < registry.members.size ∧ kind ≠ .function ∧ (registry.member id).name = name ∧
        (registry.member id).kind = kind ∧ (registry.member id).owner = owner := by
  simp only [declared, positions, List.mem_filter, List.mem_range, Bool.and_eq_true, bne_iff_ne,
    beq_iff_eq]
  constructor
  · rintro ⟨bound, ⟨⟨isKind, notFunction⟩, isName⟩, isOwner⟩
    exact ⟨bound, isKind ▸ notFunction, isName, isKind, isOwner⟩
  · rintro ⟨bound, notFunction, isName, isKind, isOwner⟩
    exact ⟨bound, ⟨⟨isKind, isKind ▸ notFunction⟩, isName⟩, isOwner⟩

theorem mem_candidates_iff (inherits : kind ≠ .constructor) :
    id ∈ registry.candidates owner name kind ↔
      id ∈ registry.declared (registry.member id).owner name kind ∧
        (registry.member id).owner ∈ registry.lineage owner := by
  rw [candidates, if_neg inherits, List.mem_flatMap]
  constructor
  · rintro ⟨type, isAbove, declares⟩
    obtain ⟨_, isOwner⟩ := name_of_mem_declared declares
    rw [isOwner]
    exact ⟨declares, isAbove⟩
  · rintro ⟨declares, isAbove⟩
    exact ⟨_, isAbove, declares⟩

/-- A name is below another if it leads there over declared supertypes, also where these form a ring
or end at a name that is not registered, and a lookup collects the members of its name and kind that
belong to the names above its owner. -/
theorem candidates_exact (registry : Registry) :
    (∀ sub super, registry.isSubtype sub super = true ↔
      Relation.ReflTransGen registry.Extends sub super) ∧
    ∀ owner name kind, kind ≠ .constructor → kind ≠ .function →
      ∀ id, id ∈ registry.candidates owner name kind ↔
        id < registry.members.size ∧ (registry.member id).name = name ∧
          (registry.member id).kind = kind ∧
          registry.isSubtype owner (registry.member id).owner = true := by
  refine ⟨fun sub super => isSubtype_iff, ?_⟩
  intro owner name kind notConstructor notFunction id
  rw [mem_candidates_iff notConstructor, mem_declared_iff, isSubtype_iff, mem_lineage_iff]
  constructor
  · rintro ⟨⟨bound, _, isName, isKind, _⟩, above⟩
    exact ⟨bound, isName, isKind, above⟩
  · rintro ⟨bound, isName, isKind, above⟩
    exact ⟨⟨bound, notFunction, isName, isKind, rfl⟩, above⟩

def thicket : Registry :=
  (({} : Registry).addTypes [
    { name := "Leaf", supertype := some "Stem" }, { name := "Stem", supertype := some "Root" },
    { name := "Left", supertype := some "Right" }, { name := "Right", supertype := some "Left" }]
  ).addMembers [
    { owner := "Root", name := "grow", kind := .method, params := [], result := .void },
    { owner := "Right", name := "grow", kind := .method, params := [], result := .void }]

/-- The name that is not registered is reached from the bottom of its chain, but not from the
ring. -/
theorem candidates_exact_thicket :
    MemberKind.method ≠ .constructor ∧ MemberKind.method ≠ .function ∧
      Relation.ReflTransGen thicket.Extends "Leaf" "Root" ∧
      Relation.ReflTransGen thicket.Extends "Left" "Right" ∧
      ¬ Relation.ReflTransGen thicket.Extends "Left" "Root" ∧
      0 ∈ thicket.candidates "Leaf" "grow" .method ∧
      1 ∈ thicket.candidates "Left" "grow" .method ∧
      0 ∉ thicket.candidates "Left" "grow" .method := by
  obtain ⟨reaches, collects⟩ := candidates_exact thicket
  have wanted := collects "Leaf" "grow" .method (by decide) (by decide) 0
  have turned := collects "Left" "grow" .method (by decide) (by decide)
  refine ⟨by decide, by decide, (reaches _ _).mp (by decide),
    (reaches _ _).mp (by decide), ?_, wanted.mpr (by decide),
    (turned 1).mpr (by decide), ?_⟩
  · rw [← reaches]
    decide
  · rw [turned 0]
    decide

end Registry

end ScriptTyping
