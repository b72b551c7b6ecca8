import Mathlib.Data.List.Nodup
import ScriptTyping.Overload
import ScriptTyping.Proofs.Registry.Lineage

/-!
How often a lookup lists a member. A member is collected once for each time that its owner stands in
the lineage, and only an owner that is reached again from itself stands there more than once. A
lookup that finds nothing rejects what was collected, one by one.
-/

namespace ScriptTyping

namespace Registry

variable {registry : Registry} {owner other name : String} {kind : MemberKind} {id : MemberId}

theorem nodup_positions (registry : Registry) (wanted : Member → Bool) :
    (registry.positions wanted).Nodup :=
  List.nodup_range.filter _

theorem disjoint_declared (differ : owner ≠ other) :
    (registry.declared owner name kind).Disjoint (registry.declared other name kind) := by
  intro id here there
  exact differ ((name_of_mem_declared here).2.symm.trans (name_of_mem_declared there).2)

/-- A lookup lists each member once if none of them belongs to a type that is reached again. -/
theorem nodup_candidates
    (straight : ∀ id ∈ registry.candidates owner name kind,
      ¬ registry.Circular (registry.member id).owner) :
    (registry.candidates owner name kind).Nodup := by
  by_cases isConstructor : kind = .constructor
  · rw [candidates, if_pos isConstructor]
    exact registry.nodup_positions _
  · rw [candidates, if_neg isConstructor] at straight ⊢
    rw [List.nodup_flatMap]
    refine ⟨fun type _ => registry.nodup_positions _, ?_⟩
    rw [List.pairwise_iff_getElem]
    intro early late inEarly inLate before
    by_cases same : (registry.lineage owner)[early] = (registry.lineage owner)[late]
    · intro id here _
      have circular := circular_of_twice before
        (List.getElem?_eq_getElem inEarly) (same ▸ List.getElem?_eq_getElem inLate)
      have collected : id ∈ (registry.lineage owner).flatMap fun type =>
          registry.declared type name kind :=
        List.mem_flatMap.mpr ⟨_, List.getElem_mem inEarly, here⟩
      rw [← (name_of_mem_declared here).2] at circular
      exact straight id collected circular
    · exact disjoint_declared same

/-- A type that is reached again from itself collects its own members more than once. -/
theorem not_nodup_candidates (inherits : kind ≠ .constructor) (circular : registry.Circular owner)
    (declares : id ∈ registry.declared owner name kind) :
    ¬ (registry.candidates owner name kind).Nodup := by
  rw [candidates, if_neg inherits, List.nodup_flatMap, not_and]
  intro _ apart
  obtain ⟨later, positive, first, again⟩ := circular.again
  obtain ⟨inFirst, isFirst⟩ := List.getElem?_eq_some_iff.mp first
  obtain ⟨inAgain, isAgain⟩ := List.getElem?_eq_some_iff.mp again
  have disjoint := List.pairwise_iff_getElem.mp apart 0 later inFirst inAgain positive
  rw [Function.onFun_apply, isFirst, isAgain] at disjoint
  exact disjoint declares declares

/-- No lookup lists a member twice if and only if no type that is reached again from itself declares
one of that name and kind. Constructors are not inherited, so it makes no difference to them. -/
theorem nodup_candidates_iff :
    (∀ owner, (registry.candidates owner name kind).Nodup) ↔
      kind = .constructor ∨
        ∀ owner, registry.Circular owner → registry.declared owner name kind = [] := by
  constructor
  · intro once
    by_cases isConstructor : kind = .constructor
    · exact .inl isConstructor
    · refine .inr fun owner circular => List.eq_nil_iff_forall_not_mem.mpr fun id declares => ?_
      exact not_nodup_candidates isConstructor circular declares (once owner)
  · rintro (isConstructor | bare) owner
    · rw [candidates, if_pos isConstructor]
      exact registry.nodup_positions _
    · by_cases isConstructor : kind = .constructor
      · rw [candidates, if_pos isConstructor]
        exact registry.nodup_positions _
      · refine nodup_candidates fun id collected circular => ?_
        obtain ⟨declares, _⟩ := (mem_candidates_iff isConstructor).mp collected
        rw [bare _ circular] at declares
        exact List.not_mem_nil declares

end Registry

namespace Environment

variable {environment : Environment} {receiver args : List Ty} {candidates : List MemberId}

theorem firstMatch_rejects {converting : Bool}
    (nothing : (environment.firstMatch receiver args converting candidates).found = none) :
    (environment.firstMatch receiver args converting candidates).rejected.map (·.member) =
      candidates := by
  induction candidates with
  | nil => rfl
  | cons id rest ih =>
      rw [firstMatch] at nothing ⊢
      split at nothing
      · cases nothing
      · rw [List.map_cons, ih nothing]

/-- A lookup that finds nothing rejects every candidate, in order. -/
theorem resolve_rejects (nothing : (environment.resolve receiver candidates args).found = none) :
    (environment.resolve receiver candidates args).rejected.map (·.member) = candidates := by
  simp only [resolve] at nothing ⊢
  cases exactly : (environment.firstMatch receiver args false candidates).found with
  | some resolution => simp [exactly] at nothing
  | none =>
      cases converted : (environment.firstMatch receiver args true candidates).found with
      | some resolution => simp [exactly, converted] at nothing
      | none =>
          rw [Option.isSome_none, if_neg Bool.false_ne_true]
          exact firstMatch_rejects exactly

/-- A lookup lists each member once, for every owner, if and only if no type that is reached again
from itself declares one of that name and kind; for one owner it is enough that none of what it lists
belongs to such a type. What a lookup without result reports is this list, member by member. -/
theorem candidates_once (environment : Environment) (name : String) (kind : MemberKind) :
    ((∀ owner, (environment.registry.candidates owner name kind).Nodup) ↔
      kind = .constructor ∨ ∀ owner, environment.registry.Circular owner →
        environment.registry.declared owner name kind = []) ∧
    (∀ owner, (∀ id ∈ environment.registry.candidates owner name kind,
        ¬ environment.registry.Circular (environment.registry.member id).owner) →
      (environment.registry.candidates owner name kind).Nodup) ∧
    ∀ owner receiver args,
      let lookup := environment.resolve receiver
        (environment.registry.candidates owner name kind) args
      lookup.found = none →
        lookup.rejected.map (·.member) = environment.registry.candidates owner name kind :=
  ⟨Registry.nodup_candidates_iff, fun _ => Registry.nodup_candidates,
    fun _ _ _ => resolve_rejects⟩

/-- The method of a ring of two among four types is listed three times for its own type, and is
rejected three times. -/
theorem candidates_once_thicket :
    let environment : Environment := { registry := Registry.thicket }
    let candidates := environment.registry.candidates "Right" "grow" .method
    environment.registry.Circular "Right" ∧ ¬ candidates.Nodup ∧
      (environment.resolve [] candidates [.int]).found = none ∧
      (environment.resolve [] candidates [.int]).rejected.map (·.member) = [1, 1, 1] := by
  intro environment candidates
  obtain ⟨_, straight, rejects⟩ := candidates_once environment "grow" .method
  have collected : candidates = [1, 1, 1] := by decide
  have twice : ¬ candidates.Nodup := by
    rw [collected]
    decide
  have nothing : (environment.resolve [] candidates [.int]).found.isNone = true := by
    decide
  rw [Option.isNone_iff_eq_none] at nothing
  refine ⟨?_, twice, nothing, (rejects "Right" [] [.int] nothing).trans collected⟩
  -- Everything that is listed belongs to `Right`, so a straight lineage would list it once.
  by_contra circular
  refine twice (straight "Right" fun id listed => ?_)
  have isFirst : id ∈ [1, 1, 1] := collected ▸ listed
  obtain rfl : id = 1 := by simpa using isFirst
  have isOwner : (environment.registry.member 1).owner = "Right" := by decide
  rw [isOwner]
  exact circular

end Environment

end ScriptTyping
