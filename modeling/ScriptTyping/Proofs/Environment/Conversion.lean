import ScriptTyping.Proofs.Environment.Assignability

/-!
Which types flow into which. A type is converted without a cast where a primitive widens, is boxed or
is unboxed, whatever the namespaces are.
-/

namespace ScriptTyping

/-! ### Namespaces -/

theorem CastEntry.find?_bare (source target : Ty) :
    find? source.bare target.bare = find? source target := by
  have ends : ∀ end' ty : Ty, (end' == ty.bare) = (end' == ty) := by
    intro end' ty
    rw [Bool.eq_iff_iff, Ty.beq_iff_bare, Ty.beq_iff_bare, Ty.bare_bare]
  simp only [find?, ends]

theorem castMember?_bare (source target : Ty) :
    castMember? source.bare target.bare = castMember? source target := by
  rw [castMember?, castMember?, CastEntry.find?_bare]

theorem convertMember?_bare (source target : Ty) :
    convertMember? source.bare target.bare = convertMember? source target := by
  rw [convertMember?, convertMember?, CastEntry.find?_bare]

theorem implicitCast?_bare (source target : Ty) :
    implicitCast? source.bare target.bare = implicitCast? source target := by
  rw [implicitCast?, implicitCast?, CastEntry.find?_bare]

theorem Environment.canCoerce_bare (environment : Environment) (source target : Ty) :
    environment.canCoerce source.bare target.bare = environment.canCoerce source target := by
  simp only [canCoerce, isAssignable_bare, implicitCast?_bare, Ty.isDynamic_bare, Ty.isVoid_bare]

/-! ### Implicit conversions -/

inductive Ty.Converts : Ty → Ty → Prop where
  | widen {low high : Prim} : low.widensTo high = true → Converts (.prim low) (.prim high)
  | box {prim : Prim} {tyName : TyName} : tyName.name = prim.boxedName →
      Converts (.prim prim) (.named tyName)
  | unbox {prim : Prim} {tyName : TyName} : tyName.name = prim.boxedName →
      Converts (.named tyName) (.prim prim)

theorem Ty.prim_of_beq {prim : Prim} {ty : Ty} (same : (Ty.prim prim == ty) = true) :
    ty = .prim prim := by
  rw [beq_iff_bare] at same
  cases ty with
  | prim other => exact same.symm
  | _ => simp [bare] at same

theorem Ty.named_of_beq {name : String} {ty : Ty} (same : (Ty.host name == ty) = true) :
    ∃ tyName, ty = .named tyName ∧ tyName.name = name := by
  rw [beq_iff_bare] at same
  cases ty with
  | named tyName =>
      simp only [host, bare, named.injEq, TyName.mk.injEq, and_true] at same
      exact ⟨tyName, rfl, same.symm⟩
  | _ => simp [host, bare] at same

/-- A conversion of the table that is applied without a cast is one of these. -/
theorem Conversion.converts {conversion : Conversion} (listed : conversion ∈ all)
    (implicit : conversion.kind = .widening) {source target : Ty}
    (starts : (conversion.source == source) = true) (ends : (conversion.target == target) = true) :
    source.Converts target := by
  simp only [all, List.mem_append, List.mem_flatMap, List.mem_map, List.mem_singleton] at listed
  rcases listed with ((⟨low, _, high, _, rfl⟩ | ⟨prim, _, isBoxing⟩) | rfl) | ⟨prim, _, rfl⟩
  · rw [Ty.prim_of_beq starts, Ty.prim_of_beq ends]
    by_cases widens : low.widensTo high = true
    · exact .widen widens
    · simp [numeric, widens] at implicit
  · simp only [boxing, List.mem_cons, List.not_mem_nil, or_false] at isBoxing
    rcases isBoxing with rfl | rfl | rfl
    · obtain ⟨tyName, rfl, isBoxed⟩ := Ty.named_of_beq ends
      rw [Ty.prim_of_beq starts]
      exact .box isBoxed
    · obtain ⟨tyName, rfl, isBoxed⟩ := Ty.named_of_beq starts
      rw [Ty.prim_of_beq ends]
      exact .unbox isBoxed
    · cases implicit
  · cases implicit
  · cases implicit

theorem implicitCast?_widen : ∀ low ∈ Prim.all, ∀ high ∈ Prim.all, low.widensTo high = true →
    (implicitCast? (.prim low) (.prim high)).isSome = true := by
  decide

theorem implicitCast?_boxing : ∀ prim ∈ Prim.all,
    (implicitCast? (.prim prim) (.host prim.boxedName)).isSome = true ∧
      (implicitCast? (.host prim.boxedName) (.prim prim)).isSome = true := by
  decide

/-- The table of conversions holds what widens, boxes or unboxes a primitive, and applies nothing
else without a cast. -/
theorem implicitCast?_isSome_iff {source target : Ty} :
    (implicitCast? source target).isSome = true ↔ source.Converts target := by
  constructor
  · intro converts
    obtain ⟨member, converts⟩ := Option.isSome_iff_exists.mp converts
    obtain ⟨entry, isImplicit, _⟩ := Option.map_eq_some_iff.mp converts
    obtain ⟨found, isImplicit⟩ := Option.filter_eq_some_iff.mp isImplicit
    have ends := List.find?_some found
    obtain ⟨⟨conversion, index⟩, isEntry, rfl⟩ := List.mem_map.mp (List.mem_of_find?_eq_some found)
    have listed := List.mem_of_getElem? (List.mk_mem_zipIdx_iff_getElem?.mp isEntry)
    rw [Bool.and_eq_true] at ends
    exact Conversion.converts listed (by simpa using isImplicit) ends.1 ends.2
  · intro converts
    cases converts with
    | widen widens => exact implicitCast?_widen _ (Prim.mem_all _) _ (Prim.mem_all _) widens
    | box isBoxed =>
        rw [← implicitCast?_bare]
        simp only [Ty.bare, isBoxed]
        exact (implicitCast?_boxing _ (Prim.mem_all _)).1
    | unbox isBoxed =>
        rw [← implicitCast?_bare]
        simp only [Ty.bare, isBoxed]
        exact (implicitCast?_boxing _ (Prim.mem_all _)).2

namespace Environment

variable {environment : Environment} {source target : Ty}

/-! ### Flows -/

theorem canCoerce_iff :
    environment.canCoerce source target = true ↔
      environment.isAssignable target source = true ∨
        (source = .dynamic ∧ target ≠ .void) ∨ source.Converts target := by
  rw [canCoerce, Bool.or_eq_true, Bool.or_eq_true, implicitCast?_isSome_iff, or_assoc]
  have dynamic : (source.isDynamic && !target.isVoid) = true ↔
      source = .dynamic ∧ target ≠ .void := by
    cases source <;> cases target <;> simp [Ty.isDynamic, Ty.isVoid]
  rw [dynamic]

/-- `Object` flows into nothing that has values of some types only. -/
theorem canCoerce_object :
    environment.canCoerce .object target = true ↔ target = .object ∨ target = .dynamic := by
  rw [canCoerce_iff]
  constructor
  · rintro (assignable | ⟨isDynamic, _⟩ | converts)
    · cases target with
      | object => exact .inl rfl
      | dynamic => exact .inr rfl
      | _ => simp [isAssignable, isAssignableHost, Ty.headName?, Ty.isNever, BEq.beq, Ty.same]
               at assignable
    · cases isDynamic
    · cases converts
  · rintro (rfl | rfl)
    · exact .inl (isAssignable_of_beq BEq.rfl)
    · exact .inl rfl

/-- `Object` takes whatever has values. -/
theorem canCoerce_object_iff_ne_void :
    environment.canCoerce source .object = true ↔ source ≠ .void := by
  cases source with
  | void =>
      rw [canCoerce_iff]
      refine iff_of_false ?_ (not_not_intro rfl)
      rintro (assignable | ⟨isDynamic, _⟩ | converts)
      · simp [isAssignable, Ty.isNever, BEq.beq, Ty.same] at assignable
      · cases isDynamic
      · cases converts
  | _ => simp [canCoerce, isAssignable]

end Environment

end ScriptTyping
