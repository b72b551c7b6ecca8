import ScriptTyping.Proofs.Environment.Conversion
import ScriptTyping.Proofs.Registry.Signature
import ScriptTyping.Ty.Operand

/-!
The common type of two operands is worked out from what they are without their wrappers, and these
flow into it. A wrapper itself flows into the primitive that it wraps, and into no wider one, so an
operand that would have to be unboxed and widened keeps its type.
-/

namespace ScriptTyping

namespace Prim

variable {left right joined : Prim}

theorem boxedName_inj : left.boxedName = right.boxedName ↔ left = right := by
  have apart : ∀ left ∈ all, ∀ right ∈ all, left.boxedName = right.boxedName → left = right := by
    decide
  exact ⟨apart left (mem_all left) right (mem_all right), congrArg boxedName⟩

def Within (low high : Prim) : Prop := low = high ∨ low.widensTo high = true

instance (low high : Prim) : Decidable (low.Within high) :=
  inferInstanceAs (Decidable (low = high ∨ low.widensTo high = true))

theorem joinIntegral?_bounds (joins : joinIntegral? left right = some joined) :
    left.Within joined ∧ right.Within joined := by
  have bounds : ∀ left ∈ all, ∀ right ∈ all, ∀ joined ∈ all,
      joinIntegral? left right = some joined → left.Within joined ∧ right.Within joined := by
    decide
  exact bounds left (mem_all left) right (mem_all right) joined (mem_all joined) joins

theorem joinNumeric?_bounds (joins : joinNumeric? left right = some joined) :
    left.Within joined ∧ right.Within joined := by
  have bounds : ∀ left ∈ all, ∀ right ∈ all, ∀ joined ∈ all,
      joinNumeric? left right = some joined → left.Within joined ∧ right.Within joined := by
    decide
  exact bounds left (mem_all left) right (mem_all right) joined (mem_all joined) joins

end Prim

theorem Ty.eq_prim_of_prim? {ty : Ty} {prim : Prim} (isPrim : ty.prim? = some prim) :
    ty = .prim prim := by
  cases ty with
  | prim other => exact congrArg Ty.prim (Option.some.inj isPrim)
  | _ => cases isPrim

theorem Ty.named_beq_host {tyName : TyName} {name : String} :
    (Ty.named tyName == Ty.host name) = true ↔ tyName.name = name := by
  rw [beq_iff_bare]
  simp only [host, bare, named.injEq, TyName.mk.injEq, and_true]

/-! ### Common types -/

inductive Ty.Within : Ty → Ty → Prop where
  | prim {low high : Prim} : low.Within high → Within (.prim low) (.prim high)
  | same {low high : Ty} : low.isReference = true → (high == low) = true → Within low high
  | object {low : Ty} : low.isReference = true → Within low .object

namespace OperatorClass

variable {operatorClass : OperatorClass} {left right joined : Ty}

theorem bounds_of_prim? {prim : Prim} (isLeft : left.prim? = some prim)
    (isRight : right.prim? = some prim) (isJoined : some (Ty.prim prim) = some joined) :
    left.Within joined ∧ right.Within joined := by
  rw [Ty.eq_prim_of_prim? isLeft, Ty.eq_prim_of_prim? isRight, ← Option.some.inj isJoined]
  exact ⟨.prim (.inl rfl), .prim (.inl rfl)⟩

theorem joinNumeric?_bounds (joins : joinNumeric? left right = some joined) :
    left.Within joined ∧ right.Within joined := by
  unfold joinNumeric? at joins
  split at joins
  · rename_i low high isLow isHigh
    obtain ⟨prim, inner, rfl⟩ := Option.map_eq_some_iff.mp joins
    rw [Ty.eq_prim_of_prim? isLow, Ty.eq_prim_of_prim? isHigh]
    exact (Prim.joinNumeric?_bounds inner).imp .prim .prim
  · cases joins

/-- A common type is an upper bound of both types, unless text is concatenated. -/
theorem join?_bounds (numeric : operatorClass = .additive →
      left.isString = false ∧ right.isString = false)
    (joins : operatorClass.join? left right = some joined) :
    left.Within joined ∧ right.Within joined := by
  cases operatorClass with
  | additive =>
      obtain ⟨leftNumeric, rightNumeric⟩ := numeric rfl
      simp only [join?, leftNumeric, rightNumeric, Bool.or_self] at joins
      exact joinNumeric?_bounds joins
  | comparator => exact joinNumeric?_bounds joins
  | bitwise =>
      simp only [join?] at joins
      split at joins
      · rename_i isLeft isRight
        exact bounds_of_prim? isLeft isRight joins
      · rename_i low high _ isLow isHigh
        obtain ⟨prim, inner, rfl⟩ := Option.map_eq_some_iff.mp joins
        rw [Ty.eq_prim_of_prim? isLow, Ty.eq_prim_of_prim? isHigh]
        exact (Prim.joinIntegral?_bounds inner).imp .prim .prim
      · cases joins
  | equator =>
      simp only [join?] at joins
      split at joins
      · rename_i isLeft isRight
        exact bounds_of_prim? isLeft isRight joins
      · exact joinNumeric?_bounds joins
      · obtain ⟨references, isJoined⟩ := Option.ite_none_right_eq_some.mp joins
        rw [Bool.and_eq_true] at references
        rw [← Option.some.inj isJoined]
        split
        · rename_i same
          exact ⟨.same references.1 BEq.rfl, .same references.2 same⟩
        · exact ⟨.object references.1, .object references.2⟩

end OperatorClass

/-! ### Wrappers -/

def Registry.WrapsByName (registry : Registry) : Prop :=
  ∀ name typeDef prim, registry.type? name = some typeDef → typeDef.boxes = some prim →
    name = prim.boxedName

theorem Registry.Built.wrapsByName {registry : Registry} (built : registry.Built) :
    registry.WrapsByName := by
  have named : ∀ typeDef ∈ Builtin.hostTypes, ∀ prim ∈ typeDef.boxes,
      typeDef.name = prim.boxedName := by
    decide
  intro name typeDef prim found boxes
  obtain ⟨rfl, isHost | ⟨decl, declared⟩⟩ := built.type_origin found
  · exact named typeDef isHost prim boxes
  · obtain ⟨type, _, rfl⟩ := List.mem_map.mp declared
    cases boxes

namespace Environment

variable {environment : Environment} {operand joined : Ty}

/-- The environments of sessions wrap a primitive in the type of its own name only; no namespace
declares a wrapper. -/
theorem Built.wrapsByName (built : environment.Built) : environment.registry.WrapsByName :=
  built.registry.wrapsByName

/-- A type is no wrapper, or it is registered as the wrapper of the primitive that it becomes. -/
theorem unbox_cases (environment : Environment) (operand : Ty) :
    environment.unbox operand = operand ∨
      ∃ tyName typeDef prim, operand = .named tyName ∧ environment.unbox operand = .prim prim ∧
        environment.registry.type? tyName.name = some typeDef ∧ typeDef.boxes = some prim := by
  cases operand with
  | named tyName =>
      rw [unbox]
      split
      · rename_i prim wraps
        obtain ⟨typeDef, found, boxes⟩ := Option.bind_eq_some_iff.mp wraps
        exact .inr ⟨tyName, typeDef, prim, rfl, rfl, found, boxes⟩
      · exact .inl rfl
  | _ => exact .inl rfl

/-! ### Operands -/

/-- What is within a type flows into it. -/
theorem canCoerce_of_within {low high : Ty} (within : low.Within high) :
    environment.canCoerce low high = true := by
  rw [canCoerce_iff]
  cases within with
  | prim within =>
      rcases within with rfl | widens
      · exact .inl (isAssignable_of_beq BEq.rfl)
      · exact .inr (.inr (.widen widens))
  | same _ same => exact .inl (isAssignable_of_beq same)
  | object isReference =>
      left
      cases low with
      | void => cases isReference
      | _ => simp [isAssignable]

/-- A named type flows into the primitive that the type of this name wraps, and into no other. -/
theorem canCoerce_named_prim {tyName : TyName} {prim : Prim} :
    environment.canCoerce (.named tyName) (.prim prim) = true ↔ tyName.name = prim.boxedName := by
  rw [canCoerce_iff]
  constructor
  · rintro (assignable | ⟨isDynamic, _⟩ | converts)
    · simp [isAssignable, Ty.isNever, BEq.beq, Ty.same] at assignable
    · cases isDynamic
    · cases converts with
      | unbox isBoxed => exact isBoxed
  · intro isBoxed
    exact .inr (.inr (.unbox isBoxed))

/-- Only the wrapper of a primitive has a common type that it may not flow into. -/
theorem unbox_within (within : (environment.unbox operand).Within joined) :
    (environment.unbox operand = operand ∧ environment.canCoerce operand joined = true) ∨
      ∃ tyName typeDef low high, operand = .named tyName ∧ joined = .prim high ∧
        environment.unbox operand = .prim low ∧
        environment.registry.type? tyName.name = some typeDef ∧ typeDef.boxes = some low := by
  rcases environment.unbox_cases operand with same | ⟨tyName, typeDef, low, rfl, isPrim, wraps⟩
  · rw [same] at within
    exact .inl ⟨same, canCoerce_of_within within⟩
  · rw [isPrim] at within
    cases within with
    | prim bound => exact .inr ⟨tyName, typeDef, low, _, rfl, rfl, isPrim, wraps⟩
    | same isReference => cases isReference
    | object isReference => cases isReference

theorem canCoerce_joined (within : (environment.unbox operand).Within joined) :
    environment.canCoerce operand joined = true ↔
      environment.unbox operand = operand ∨
        ∃ prim, joined = .prim prim ∧ (operand == .host prim.boxedName) = true := by
  rcases unbox_within within with
    ⟨same, coerces⟩ | ⟨tyName, typeDef, low, high, rfl, rfl, isPrim, _⟩
  · exact iff_of_true coerces (.inl same)
  · rw [canCoerce_named_prim, isPrim]
    constructor
    · intro isBoxed
      exact .inr ⟨high, rfl, Ty.named_beq_host.mpr isBoxed⟩
    · rintro (absurd | ⟨prim, isJoined, isBoxed⟩)
      · cases absurd
      · rw [Ty.prim.inj isJoined]
        exact Ty.named_beq_host.mp isBoxed

/-- In the environment of a session an operand flows into what it wraps, and so into the common type
if that is what it wraps. -/
theorem Built.canCoerce_joined (built : environment.Built)
    (within : (environment.unbox operand).Within joined) :
    environment.canCoerce operand (environment.unbox operand) = true ∧
      (environment.canCoerce operand joined = true ↔
        environment.unbox operand = operand ∨ environment.unbox operand = joined) := by
  rcases unbox_within within with
    ⟨same, coerces⟩ | ⟨tyName, typeDef, low, high, rfl, rfl, isPrim, found, boxes⟩
  · rw [same]
    exact ⟨canCoerce_iff.mpr (.inl (isAssignable_of_beq BEq.rfl)), iff_of_true coerces (.inl rfl)⟩
  · have isBoxed := built.wrapsByName tyName.name typeDef low found boxes
    rw [isPrim]
    refine ⟨canCoerce_named_prim.mpr isBoxed, ?_⟩
    rw [canCoerce_named_prim, isBoxed, Prim.boxedName_inj]
    constructor
    · intro same
      exact .inr (congrArg Ty.prim same)
    · rintro (absurd | same)
      · cases absurd
      · exact Ty.prim.inj same

/-- Each operand that is out of its wrapper can be brought to the common type, unless text is
concatenated. An operand as it stands can be brought there exactly if it is no wrapper or is the
wrapper of the common type itself. In a session the two steps are there for every operand, so it is
only in one step that a wrapper does not get to a wider primitive than the one that it wraps. -/
theorem join_coerces (environment : Environment) {operatorClass : OperatorClass}
    {left right joined : Ty}
    (numeric : operatorClass = .additive →
      (environment.unbox left).isString = false ∧ (environment.unbox right).isString = false)
    (joins : operatorClass.join? (environment.unbox left) (environment.unbox right) =
      some joined) :
    ∀ operand ∈ [left, right],
      environment.canCoerce (environment.unbox operand) joined = true ∧
      (environment.canCoerce operand joined = true ↔
        environment.unbox operand = operand ∨
          ∃ prim, joined = .prim prim ∧ (operand == .host prim.boxedName) = true) ∧
      (environment.Built →
        environment.canCoerce operand (environment.unbox operand) = true ∧
          (environment.canCoerce operand joined = true ↔
            environment.unbox operand = operand ∨ environment.unbox operand = joined)) := by
  obtain ⟨leftWithin, rightWithin⟩ := OperatorClass.join?_bounds numeric joins
  intro operand inside
  have within : (environment.unbox operand).Within joined := by
    simp only [List.mem_cons, List.not_mem_nil, or_false] at inside
    rcases inside with rfl | rfl
    · exact leftWithin
    · exact rightWithin
  exact ⟨canCoerce_of_within within, canCoerce_joined within,
    fun built => built.canCoerce_joined within⟩

/-- A wrapped `int` can be brought to `int` for a sum with an `int`, but not to `long` for a sum with
a `long`, to which the `int` that it wraps can be brought. -/
theorem join_coerces_integer :
    let environment := ofOptions {}
    let integer := Ty.host "Integer"
    let join := fun other => OperatorClass.additive.join? (environment.unbox integer)
      (environment.unbox other)
    join .int = some .int ∧ environment.canCoerce integer .int = true ∧
      join .long = some .long ∧ environment.canCoerce integer .long = false ∧
      environment.canCoerce integer (environment.unbox integer) = true ∧
      environment.canCoerce (environment.unbox integer) .long = true := by
  intro environment integer join
  have unboxed : (Ty.int == environment.unbox integer) = true := by decide
  have wraps : environment.unbox integer = .int := Ty.prim_of_beq unboxed
  have noText : (environment.unbox integer).isString = false := by
    rw [wraps]
    rfl
  have withInt : join .int = some .int := by
    simp only [join, wraps]
    rfl
  have withLong : join .long = some .long := by
    simp only [join, wraps]
    rfl
  obtain ⟨_, _, ofInt⟩ := environment.join_coerces (fun _ => ⟨noText, rfl⟩) withInt
    integer List.mem_cons_self
  obtain ⟨widens, _, ofLong⟩ := environment.join_coerces (fun _ => ⟨noText, rfl⟩) withLong
    integer List.mem_cons_self
  obtain ⟨unboxes, toInt⟩ := ofInt (.start {})
  obtain ⟨_, toLong⟩ := ofLong (.start {})
  have isWrapper : Ty.int ≠ .host "Integer" := nofun
  have isNarrow : Ty.int ≠ .long := nofun
  refine ⟨withInt, toInt.mpr (.inr wraps), withLong, ?_, unboxes, widens⟩
  rw [← Bool.not_eq_true, toLong, wraps]
  exact not_or.mpr ⟨isWrapper, isNarrow⟩

end Environment

end ScriptTyping
