import ScriptTyping.Check.Conversion
import ScriptTyping.Proofs.Environment.Conversion

/-!
Whether a type flows into another is asked twice: of types alone for the arguments of a lookup, and
of a checked node when the node is brought to the type. The answers differ at null literals only.
Such a node is brought to any reference type, whereas its type `Object` flows into `Object` and
`dynamic` only.
-/

namespace ScriptTyping

namespace Environment

variable {environment : Environment} {tree : Tree} {node : NodeId} {found : Ty}

inductive Justifies (environment : Environment) (found required : Ty) : Tag → Binding → Prop where
  | up : environment.isAssignable required found = true →
      Justifies environment found required .upCast .unbound
  | down : (found.isDynamic = true ∨ environment.isAssignable found required = true) →
      Justifies environment found required .downCast .unbound
  | cast {entry : CastEntry} : CastEntry.find? found required = some entry →
      Justifies environment found required .cast (.static entry.member)

/-- A node stays as it is, takes the type as a null literal, or gets a conversion around it; or its
type does not flow into the required one. -/
theorem enforce_cases (environment : Environment) (tree : Tree) (node : NodeId) (required : Ty) :
    let found := (tree.ty? node).getD .never
    (((found == required) = true ∨ found.isNever = true) ∧
        environment.enforce tree node required = (.ok node, tree)) ∨
      (tree.tag node = .nullValue ∧ required.isReference = true ∧
        environment.enforce tree node required = (.ok node, tree.setType node required)) ∨
      (∃ tag binding, environment.Justifies found required tag binding ∧
        environment.canCoerce found required = true ∧
        environment.enforce tree node required =
          (.ok (tree.convert node tag required binding).1,
            (tree.convert node tag required binding).2)) ∨
      (environment.canCoerce found required = false ∧
        ¬ (tree.tag node = .nullValue ∧ required.isReference = true) ∧
        environment.enforce tree node required =
          (.error (Failure.ofError tree ⟨.typeMismatch required found, tree.span node⟩).1,
            (Failure.ofError tree ⟨.typeMismatch required found, tree.span node⟩).2)) := by
  intro found
  unfold enforce
  simp only
  split
  · rename_i kept
    rw [Bool.or_eq_true] at kept
    exact .inl ⟨kept, rfl⟩
  · split
    · rename_i isNull
      exact .inr (.inl ⟨isNull.1, isNull.2, rfl⟩)
    · rename_i notNull
      refine .inr (.inr ?_)
      -- What is left are the three tests of a flow between types, in the order that `canCoerce`
      -- has them in but for the first two.
      split
      · rename_i dynamic
        refine .inl ⟨_, _, .down (.inl (Bool.and_eq_true_iff.mp dynamic).1), ?_, rfl⟩
        rw [canCoerce, dynamic, Bool.or_true, Bool.true_or]
      · rename_i notDynamic
        split
        · rename_i assignable
          exact .inl ⟨_, _, .up assignable, canCoerce_iff.mpr (.inl assignable), rfl⟩
        · rename_i unassignable
          split
          · rename_i member converts
            have coerces : environment.canCoerce found required = true := by
              rw [canCoerce, converts, Option.isSome_some, Bool.or_true]
            simp only [implicitCast?, Option.map_eq_some_iff, Option.filter_eq_some_iff] at converts
            obtain ⟨entry, ⟨isEntry, _⟩, rfl⟩ := converts
            exact .inl ⟨_, _, .cast isEntry, coerces, rfl⟩
          · rename_i unconverted
            refine .inr ⟨?_, notNull, rfl⟩
            rw [Bool.not_eq_true] at unassignable notDynamic
            rw [canCoerce, unassignable, notDynamic, unconverted]
            rfl

/-- A node can be brought to the types that its own type flows into; a null literal also to every
other reference type. -/
theorem enforce_accepts_iff (typed : tree.ty? node = some found) (required : Ty) :
    (∃ result, (environment.enforce tree node required).1 = .ok result) ↔
      environment.canCoerce found required = true ∨
        (tree.tag node = .nullValue ∧ required.isReference = true) := by
  have cases := environment.enforce_cases tree node required
  simp only [typed, Option.getD_some] at cases
  rcases cases with ⟨suits, run⟩ | ⟨isNull, isReference, run⟩ | ⟨_, _, _, coerces, run⟩ |
    ⟨misses, notNull, run⟩
  · refine iff_of_true ⟨node, by rw [run]⟩ (.inl (canCoerce_iff.mpr (.inl ?_)))
    rcases suits with same | isNever
    · exact isAssignable_of_beq (BEq.symm same)
    · exact isAssignable_of_isNever isNever
  · exact iff_of_true ⟨node, by rw [run]⟩ (.inr ⟨isNull, isReference⟩)
  · exact iff_of_true ⟨_, by rw [run]⟩ (.inl coerces)
  · refine iff_of_false (fun ⟨result, accepted⟩ => ?_) ?_
    · rw [run] at accepted
      cases accepted
    · rintro (coerces | isNull)
      · rw [misses] at coerces
        cases coerces
      · exact notNull isNull

/-- A checked node other than a null literal can be brought to exactly the types that a lookup lets
its type flow into. A null literal can be brought to every reference type, of which its type, which
is `Object`, flows into `Object` and `dynamic` only. -/
theorem enforce_iff_canCoerce (typed : tree.ty? node = some found) (required : Ty) :
    let accepted := ∃ result, (environment.enforce tree node required).1 = .ok result
    (tree.tag node ≠ .nullValue → (accepted ↔ environment.canCoerce found required = true)) ∧
    (tree.tag node = .nullValue →
      (accepted ↔ environment.canCoerce found required = true ∨ required.isReference = true)) ∧
    (tree.tag node = .nullValue → found = .object →
      ((accepted ∧ environment.canCoerce found required = false) ↔
        required.isReference = true ∧ required ≠ .object ∧ required ≠ .dynamic)) := by
  intro accepted
  have accepts : accepted ↔ _ := environment.enforce_accepts_iff typed required
  refine ⟨fun notNull => ?_, fun isNull => ?_, fun isNull isObject => ?_⟩
  · simpa only [notNull, false_and, or_false] using accepts
  · simpa only [isNull, true_and] using accepts
  · subst isObject
    rw [accepts, ← Bool.not_eq_true, canCoerce_object, ← not_or]
    constructor
    · rintro ⟨flows | ⟨_, isReference⟩, misses⟩
      · exact absurd flows misses
      · exact ⟨isReference, misses⟩
    · rintro ⟨isReference, misses⟩
      exact ⟨.inr ⟨isNull, isReference⟩, misses⟩

def literals : Tree where
  nodes := #[{ tag := .nullValue, ty := some .object }, { tag := .integer, ty := some .int }]

/-- The null literal can be brought to `String`, into which its type does not flow, but to no
primitive. The number can be brought to a wider primitive. -/
theorem enforce_iff_canCoerce_literals :
    let environment : Environment := { registry := {} }
    literals.ty? 0 = some .object ∧ literals.ty? 1 = some .int ∧
      (∃ result, (environment.enforce literals 0 .string).1 = .ok result) ∧
      environment.canCoerce .object .string = false ∧
      (¬ ∃ result, (environment.enforce literals 0 .int).1 = .ok result) ∧
      ∃ result, (environment.enforce literals 1 .long).1 = .ok result := by
  intro environment
  have isObject : literals.ty? 0 = some .object := rfl
  have isInt : literals.ty? 1 = some .int := rfl
  have isNull : literals.tag 0 = .nullValue := rfl
  have isNumber : literals.tag 1 ≠ .nullValue := nofun
  obtain ⟨_, _, differs⟩ := environment.enforce_iff_canCoerce isObject .string
  obtain ⟨_, boxed, _⟩ := environment.enforce_iff_canCoerce isObject .int
  obtain ⟨number, _, _⟩ := environment.enforce_iff_canCoerce isInt .long
  obtain ⟨accepted, misses⟩ := (differs isNull rfl).mpr ⟨rfl, nofun, nofun⟩
  refine ⟨isObject, isInt, accepted, misses, ?_, ?_⟩
  · rw [boxed isNull]
    decide
  · rw [number isNumber]
    decide

end Environment

end ScriptTyping
