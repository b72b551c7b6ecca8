import Mathlib.Logic.Relation
import ScriptTyping.Environment.Basic
import ScriptTyping.Proofs.Registry.Growth
import ScriptTyping.Proofs.Ty.Equality

/-!
How an environment comes about and how it changes. Checking a unit only imports namespaces and
declares globals, so what an environment knows stays known.
-/

namespace ScriptTyping

namespace Environment

inductive Step : Environment → Environment → Prop where
  | importNamespace (environment : Environment) (path : String) :
      Step environment (environment.importNamespace path).1
  | declareGlobal {environment next : Environment} {name : String} {ty : Ty} {id : GlobalId} :
      environment.declareGlobal name ty = .ok (next, id) → Step environment next

abbrev Leads : Environment → Environment → Prop := Relation.ReflTransGen Step

/-- The environments of sessions: the built-ins, then imports, globals and library namespaces in
any order. -/
inductive Built : Environment → Prop where
  | start (options : Options) : Built (ofOptions options)
  | addNamespace {environment : Environment} (decl : NamespaceDecl) :
      Built environment → Built (environment.addNamespace decl)
  | step {environment next : Environment} : Built environment → Step environment next → Built next

theorem Built.leads {environment next : Environment} (built : environment.Built)
    (leads : environment.Leads next) : next.Built := by
  induction leads with
  | refl => exact built
  | tail _ step ih => exact .step ih step

/-! ### What a step does -/

/-- A declaration that succeeds finds a global of that name and type, or adds one as the newest. -/
theorem declareGlobal_cases {environment next : Environment} {name : String} {ty : Ty}
    {id : GlobalId} (declared : environment.declareGlobal name ty = .ok (next, id)) :
    (environment.globalId? name = some id ∧ ((environment.global id).ty == ty) = true ∧
        next = environment) ∨
      (environment.globalId? name = none ∧ id = environment.globals.size ∧
        next = { environment with globals := environment.globals.push ⟨name, ty⟩ }) := by
  unfold declareGlobal at declared
  cases known : environment.globalId? name with
  | some existing =>
      simp only [known] at declared
      split at declared
      · rename_i same
        cases declared
        exact .inl ⟨rfl, same, rfl⟩
      · cases declared
  | none =>
      simp only [known] at declared
      cases declared
      exact .inr ⟨rfl, rfl, rfl⟩

/-- An import finds its path imported already or finds no namespace, and else it registers the
namespace up to its first bad signature or as a whole. -/
theorem importNamespace_cases (environment : Environment) (path : String) :
    (environment.isImported path = true ∧ environment.importNamespace path = (environment, none)) ∨
      (environment.isImported path = false ∧ environment.library.get? path = none ∧
        environment.importNamespace path = (environment, some (.undefinedNamespace path))) ∨
      (∃ decl error, environment.isImported path = false ∧
        environment.library.get? path = some decl ∧
        (environment.registry.addNamespace decl).2 = some error ∧
        environment.importNamespace path = ({ environment with
          registry := (environment.registry.addNamespace decl).1 },
          some (.badSignature error))) ∨
      ∃ decl, environment.isImported path = false ∧
        environment.library.get? path = some decl ∧
        (environment.registry.addNamespace decl).2 = none ∧
        environment.importNamespace path = ({ environment with
          registry := (environment.registry.addNamespace decl).1
          imported := path :: environment.imported }, none) := by
  unfold importNamespace
  cases imported : environment.isImported path with
  | true => exact .inl ⟨rfl, rfl⟩
  | false =>
      rw [if_neg Bool.false_ne_true]
      cases environment.library.get? path with
      | none => exact .inr (.inl ⟨rfl, rfl, rfl⟩)
      | some decl =>
          refine .inr (.inr ?_)
          cases added : environment.registry.addNamespace decl with
          | mk registry error =>
              cases error with
              | some error => exact .inl ⟨decl, error, rfl, rfl, by rw [added], by simp only [added]⟩
              | none => exact .inr ⟨decl, rfl, rfl, by rw [added], by simp only [added]⟩

/-! ### Growth -/

structure Grows (old new : Environment) : Prop where
  registry : old.registry.Grows new.registry
  options : new.options = old.options
  library : new.library = old.library
  imported : ∀ path, old.isImported path = true → new.isImported path = true
  globals : old.globals.toList <+: new.globals.toList

theorem Grows.refl (environment : Environment) : environment.Grows environment :=
  ⟨.refl _, rfl, rfl, fun _ known => known, List.prefix_refl _⟩

theorem Grows.trans {first second third : Environment} (early : first.Grows second)
    (late : second.Grows third) : first.Grows third :=
  ⟨early.registry.trans late.registry, late.options.trans early.options,
    late.library.trans early.library, fun path known => late.imported path (early.imported path known),
    early.globals.trans late.globals⟩

theorem importNamespace_grows (environment : Environment) (path : String) :
    environment.Grows (environment.importNamespace path).1 := by
  rcases environment.importNamespace_cases path with
    ⟨_, run⟩ | ⟨_, _, run⟩ | ⟨decl, _, _, _, _, run⟩ | ⟨decl, _, _, _, run⟩
  · rw [run]
    exact .refl environment
  · rw [run]
    exact .refl environment
  · rw [run]
    exact ⟨environment.registry.addNamespace_grows decl, rfl, rfl, fun _ known => known,
      List.prefix_refl _⟩
  · rw [run]
    refine ⟨environment.registry.addNamespace_grows decl, rfl, rfl, ?_, List.prefix_refl _⟩
    intro other known
    simp only [isImported, List.contains_cons, Bool.or_eq_true] at known ⊢
    exact .inr known

theorem declareGlobal_grows {environment next : Environment} {name : String} {ty : Ty}
    {id : GlobalId} (declared : environment.declareGlobal name ty = .ok (next, id)) :
    environment.Grows next := by
  rcases declareGlobal_cases declared with ⟨_, _, rfl⟩ | ⟨_, _, rfl⟩
  · exact .refl _
  · exact ⟨.refl _, rfl, rfl, fun _ known => known, by simp⟩

theorem Step.grows {old new : Environment} (step : Step old new) : old.Grows new := by
  cases step with
  | importNamespace path => exact importNamespace_grows old path
  | declareGlobal declared => exact declareGlobal_grows declared

theorem Leads.grows {old new : Environment} (leads : old.Leads new) : old.Grows new := by
  induction leads with
  | refl => exact .refl old
  | tail _ step ih => exact ih.trans step.grows

theorem Grows.lt_globals {old new : Environment} (grows : old.Grows new) {id : GlobalId}
    (bound : id < old.globals.size) : id < new.globals.size :=
  Nat.lt_of_lt_of_le bound (by simpa using grows.globals.length_le)

theorem global_eq_of_prefix {old new : Environment}
    (grows : old.globals.toList <+: new.globals.toList) {id : GlobalId}
    (bound : id < old.globals.size) : new.global id = old.global id := by
  obtain ⟨later, appended⟩ := grows
  have found : new.globals[id]? = old.globals[id]? := by
    rw [← Array.getElem?_toList, ← appended, List.getElem?_append_left (by simpa using bound),
      Array.getElem?_toList]
  simp only [global, found]

theorem Grows.global_eq {old new : Environment} (grows : old.Grows new) {id : GlobalId}
    (bound : id < old.globals.size) : new.global id = old.global id :=
  global_eq_of_prefix grows.globals bound

theorem Grows.hasGlobal {old new : Environment} (grows : old.Grows new) {name : String}
    (known : old.hasGlobal name = true) : new.hasGlobal name = true := by
  rw [Environment.hasGlobal, globalId?, Array.findIdx?_isSome, ← Array.any_toList,
    List.any_eq_true] at known ⊢
  obtain ⟨entry, member, isName⟩ := known
  exact ⟨entry, grows.globals.subset member, isName⟩

/-- The global that a declaration gives has the declared type. -/
theorem declareGlobal_global {environment next : Environment} {name : String} {ty : Ty}
    {id : GlobalId} (declared : environment.declareGlobal name ty = .ok (next, id)) :
    id < next.globals.size ∧ ((next.global id).ty == ty) = true := by
  rcases declareGlobal_cases declared with ⟨known, same, rfl⟩ | ⟨_, rfl, rfl⟩
  · exact ⟨(Array.findIdx?_eq_some_iff_getElem.mp known).1, same⟩
  · simp [global, BEq.rfl]

theorem globals_importNamespace (environment : Environment) (path : String) :
    (environment.importNamespace path).1.globals = environment.globals := by
  rcases environment.importNamespace_cases path with
    ⟨_, run⟩ | ⟨_, _, run⟩ | ⟨_, _, _, _, _, run⟩ | ⟨_, _, _, _, run⟩ <;> rw [run]

/-- A declaration makes no name a global but its own. -/
theorem hasGlobal_of_declareGlobal {environment next : Environment} {name other : String} {ty : Ty}
    {id : GlobalId} (declared : environment.declareGlobal name ty = .ok (next, id))
    (known : next.hasGlobal other = true) :
    environment.hasGlobal other = true ∨ other = name := by
  rcases declareGlobal_cases declared with ⟨_, _, rfl⟩ | ⟨_, _, rfl⟩
  · exact .inl known
  · rw [hasGlobal, globalId?, Array.findIdx?_isSome, Array.any_push, Bool.or_eq_true,
      beq_iff_eq] at known
    rw [hasGlobal, globalId?, Array.findIdx?_isSome]
    exact known.imp_right Eq.symm

/-! ### Built-ins -/

theorem Built.builtin_grows {environment : Environment} (built : environment.Built) :
    (Builtin.registry environment.options.maxInvokeArity).Grows environment.registry := by
  induction built with
  | start options =>
      simp only [ofOptions]
      exact Registry.Grows.refl (Builtin.registry options.maxInvokeArity)
  | addNamespace decl _ ih => exact ih
  | step _ step ih =>
      have grows := step.grows
      rw [grows.options]
      exact ih.trans grows.registry

end Environment

end ScriptTyping
