import ScriptTyping.Proofs.Environment.Assignability
import ScriptTyping.Proofs.Registry.Lineage
import ScriptTyping.Proofs.Registry.Origin

/-!
Assignability as an order. A type takes the values of its own type, of `never`, and of what it
subsumes: everything if it is a top type, function types if it is `Function`, and the host types
below it. Host types are below each other over declared supertypes, so that this is an order where
no type is reached again from itself and `Function`, which takes more than the types below it, is
below nothing.
-/

namespace ScriptTyping

def Ty.Filled : Ty → Prop
  | applied _ args => args ≠ []
  | _ => True

namespace Registry

variable {registry : Registry} {name : String}

theorem Circular.registered (circular : registry.Circular name) : name ∈ registry.types.keys := by
  obtain ⟨next, declared, _⟩ := Relation.TransGen.head'_iff.mp circular
  obtain ⟨typeDef, found, _⟩ := supertype?_eq_some.mp declared
  exact Table.mem_keys_of_get? found

/-- A name that is reached again comes up a second time in its own lineage. -/
theorem not_circular_of_lineages
    (once : ∀ name ∈ registry.types.keys, name ∉ (registry.lineage name).tail) (name : String) :
    ¬ registry.Circular name := by
  intro circular
  obtain ⟨later, positive, _, again⟩ := circular.again
  obtain ⟨index, rfl⟩ : ∃ index, later = index + 1 := ⟨later - 1, by omega⟩
  rw [← List.getElem?_tail] at again
  exact once name circular.registered (List.mem_of_getElem? again)

end Registry

namespace Environment

variable {environment : Environment} {target source top middle bottom : Ty}

inductive Subsumes (environment : Environment) : Ty → Ty → Prop where
  | never {target : Ty} : Subsumes environment target .never
  | top {target source : Ty} : target = .object ∨ target = .dynamic → source ≠ .void →
      Subsumes environment target source
  | callable {tyName : TyName} {params : List Ty} {result : Ty} : tyName.name = "Function" →
      Subsumes environment (.named tyName) (.fn params result)
  | below {tyName : TyName} {source : Ty} {sub : String} : source.prim? = none →
      source.headName? = some sub → Relation.TransGen environment.registry.Extends sub tyName.name →
      Subsumes environment (.named tyName) source

/-! ### What assignability tests -/

/-- A host type of another name that takes values is no generic type. -/
theorem Subsumes.of_host (targetFilled : target.Filled) (sourceFilled : source.Filled)
    (notTarget : target.prim? = none) (notSource : source.prim? = none)
    (assignable : environment.isAssignableHost target source = true) :
    (target == source) = true ∨ environment.Subsumes target source := by
  unfold isAssignableHost at assignable
  split at assignable
  · rename_i super sub isSuper isSub
    split at assignable
    · rename_i same
      left
      cases target <;> cases source <;>
        simp_all [Ty.headName?, Ty.prim?, Ty.args, Ty.Filled, Ty.beq_iff_bare, Ty.bare,
          Ty.beqAll_iff_bare]
    · rename_i differs
      rw [Bool.and_eq_true, Registry.isSubtype_iff] at assignable
      obtain ⟨noArgs, walk⟩ := assignable
      right
      cases target with
      | named tyName =>
          obtain rfl : tyName.name = super := Option.some.inj isSuper
          refine .below notSource isSub ?_
          exact (Relation.reflTransGen_iff_eq_or_transGen.mp walk).resolve_left differs
      | applied head args => exact absurd (List.isEmpty_iff.mp noArgs) targetFilled
      | prim prim => cases notTarget
      | _ => cases isSuper
  · cases assignable

theorem Subsumes.of_isAssignable (targetFilled : target.Filled) (sourceFilled : source.Filled)
    (assignable : environment.isAssignable target source = true) :
    (target == source) = true ∨ environment.Subsumes target source := by
  unfold Environment.isAssignable at assignable
  rw [Bool.or_eq_true, Bool.or_eq_true] at assignable
  rcases assignable with (same | isNever) | assignable
  · exact .inl same
  · rw [Ty.eq_never_of_isNever isNever]
    exact .inr .never
  · split at assignable
    · cases assignable
    · rename_i notVoid
      exact .inr (.top (.inl rfl) notVoid)
    · rename_i notVoid
      exact .inr (.top (.inr rfl) notVoid)
    · exact .inr (.callable (beq_iff_eq.mp assignable))
    · cases assignable
    · cases assignable
    · refine Subsumes.of_host targetFilled sourceFilled ?_ ?_ assignable
      · cases target <;> simp_all [Ty.prim?]
      · cases source <;> simp_all [Ty.prim?]

theorem Subsumes.isAssignable (acyclic : ∀ name, ¬ environment.registry.Circular name)
    (subsumes : environment.Subsumes target source) :
    environment.isAssignable target source = true := by
  cases subsumes with
  | never => exact isAssignable_never environment target
  | top isTop isValue =>
      rcases isTop with rfl | rfl <;> cases source <;> simp_all [Environment.isAssignable]
  | callable isFunction => simp [Environment.isAssignable, isFunction]
  | below notPrim isHead walk =>
      rename_i tyName sub
      have differs : tyName.name ≠ sub := by
        rintro rfl
        exact acyclic _ walk
      have above : environment.registry.isSubtype sub tyName.name = true :=
        Registry.isSubtype_iff.mpr walk.to_reflTransGen
      have host : environment.isAssignableHost (.named tyName) source = true := by
        rw [isAssignableHost, isHead]
        simp [Ty.headName?, Ty.args, differs, above]
      cases source with
      | named other => simp [Environment.isAssignable, host]
      | applied head args => simp [Environment.isAssignable, host]
      | prim prim => cases notPrim
      | _ => cases isHead

/-! ### The order -/

/-- What a type takes, whoever takes all of the type takes too. -/
theorem Subsumes.trans (root : environment.registry.supertype? "Function" = none)
    (upper : environment.Subsumes top middle) (lower : environment.Subsumes middle bottom) :
    environment.Subsumes top bottom := by
  cases lower with
  | never => exact .never
  | top isTop isValue =>
      cases upper with
      | never => rcases isTop with absurd | absurd <;> cases absurd
      | top isTop _ => exact .top isTop isValue
      | callable => rcases isTop with absurd | absurd <;> cases absurd
      | below _ isHead => rcases isTop with rfl | rfl <;> cases isHead
  | callable isFunction =>
      cases upper with
      | top isTop _ => exact .top isTop nofun
      | below _ isHead walk =>
          -- Nothing is above `Function` but the top types.
          obtain ⟨next, declared, _⟩ := Relation.TransGen.head'_iff.mp walk
          rw [← Option.some.inj isHead, Registry.Extends, isFunction, root] at declared
          cases declared
  | below notPrim isHead walk =>
      cases upper with
      | top isTop _ =>
          refine .top isTop ?_
          rintro rfl
          cases isHead
      | below _ isMiddle onward =>
          rw [← Option.some.inj isMiddle] at onward
          exact .below notPrim isHead (walk.trans onward)

/-- In an environment of a session in which no type is reached again from itself, and no namespace
declares `Function`, assignability is a preorder on the types that do not lack arguments. -/
theorem Built.isAssignable_preorder (built : environment.Built)
    (acyclic : ∀ name, ¬ environment.registry.Circular name)
    (kept : ∀ typeDef, environment.registry.type? "Function" = some typeDef → typeDef.home = none) :
    (∀ ty, environment.isAssignable ty ty = true) ∧
      ∀ top middle bottom : Ty, top.Filled → middle.Filled → bottom.Filled →
        environment.isAssignable middle bottom = true → environment.isAssignable top middle = true →
          environment.isAssignable top bottom = true := by
  refine ⟨fun ty => isAssignable_of_beq BEq.rfl, ?_⟩
  intro top middle bottom topFilled middleFilled bottomFilled lower upper
  have root : environment.registry.supertype? "Function" = none := by
    refine Option.bind_eq_none_iff.mpr fun typeDef found => ?_
    exact built.registry.supertype_of_homeless found (kept typeDef found)
  rcases Subsumes.of_isAssignable middleFilled bottomFilled lower with same | below
  · rw [← isAssignable_congr BEq.rfl same]
    exact upper
  · rcases Subsumes.of_isAssignable topFilled middleFilled upper with same | above
    · rw [isAssignable_congr same BEq.rfl]
      exact lower
    · exact (above.trans root below).isAssignable acyclic

def shapes : NamespaceDecl where
  path := "shapes"
  types := [{ name := "Shape" }, { name := "Square", supertype := some "Shape" },
    { name := "Tile", params := ["T"], supertype := some "Square" }]

theorem isAssignable_preorder_shapes :
    let environment := ((ofOptions {}).addNamespace shapes |>.importNamespace "shapes").1
    let tile := Ty.generic "Tile" [.int]
    environment.Built ∧ (∀ name, ¬ environment.registry.Circular name) ∧
      (∀ typeDef, environment.registry.type? "Function" = some typeDef → typeDef.home = none) ∧
      environment.isAssignable (.host "Square") tile = true ∧
      environment.isAssignable (.host "Shape") (.host "Square") = true ∧
      environment.isAssignable (.host "Shape") tile = true ∧
      environment.isAssignable tile (.host "Shape") = false := by
  intro environment tile
  have built : environment.Built := .step (.addNamespace shapes (.start {})) (.importNamespace _ _)
  have acyclic : ∀ name, ¬ environment.registry.Circular name :=
    Registry.not_circular_of_lineages (by decide +kernel)
  have kept : ∀ typeDef, environment.registry.type? "Function" = some typeDef →
      typeDef.home = none := by
    have declared : environment.registry.type? "Function" = some { name := "Function" } := by
      decide +kernel
    intro typeDef found
    rw [declared] at found
    rw [← Option.some.inj found]
  have lower : environment.isAssignable (.host "Square") tile = true := by decide +kernel
  have upper : environment.isAssignable (.host "Shape") (.host "Square") = true := by
    decide +kernel
  obtain ⟨_, trans⟩ := built.isAssignable_preorder acyclic kept
  exact ⟨built, acyclic, kept, lower, upper,
    trans (.host "Shape") (.host "Square") tile trivial trivial (List.cons_ne_nil _ _) lower upper,
    by decide +kernel⟩

end Environment

end ScriptTyping
