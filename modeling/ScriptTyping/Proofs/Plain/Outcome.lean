import ScriptTyping.Proofs.Outcome.Settled
import ScriptTyping.Proofs.Plain.Statement

/-!
Checking against generic members leaves no type variable behind: neither in the tree nor among the
globals.
-/

namespace ScriptTyping

/-- Whether nothing that outlives checking has a variable in its types. The nodes are those of the
whole arena, also where the tree was rearranged around them. -/
structure Outcome.Plain (outcome : Outcome) : Prop where
  types : ∀ id ty, outcome.tree.ty? id = some ty → ty.hasVar = false
  typeArgs : ∀ id hint target typeArgs,
    outcome.tree.binding id = .invoke hint target typeArgs → ∀ ty ∈ typeArgs, ty.hasVar = false
  constructions : ∀ id construction, outcome.tree.binding id = .construct construction →
    construction.owner.hasVar = false ∧ (∀ ty ∈ construction.params, ty.hasVar = false) ∧
      ∀ ty ∈ construction.typeArgs, ty.hasVar = false
  globals : ∀ global ∈ outcome.environment.globals, global.ty.hasVar = false

theorem CheckState.Plain.outcome {state : CheckState} (plain : state.Plain) (result : Option Ty) :
    Outcome.Plain ⟨result, state.errors, state.warnings, state.tree, state.environment⟩ where
  types id ty isTy := (plain.tree id).ty ty isTy
  typeArgs id hint target typeArgs bound := by
    have isPlain : (state.tree.binding id).Plain := (plain.tree id).binding
    rw [show state.tree.binding id = _ from bound] at isPlain
    exact isPlain
  constructions id construction bound := by
    have isPlain : (state.tree.binding id).Plain := (plain.tree id).binding
    rw [show state.tree.binding id = _ from bound] at isPlain
    exact isPlain
  globals := plain.environment

namespace Tree

variable {tree : Tree} {environment : Environment} {outcome : Outcome}

theorem Plain.check (plain : tree.Plain) (arePlain : environment.Plain)
    (checked : tree.check environment = .ok outcome) : outcome.Plain := by
  have ends := checkRoot_plain { tree, environment } ⟨plain, arePlain, ScopeStack.plain_empty⟩
  unfold Tree.check at checked
  simp only [bind, Except.bind] at checked
  split at checked
  · cases checked
  · rename_i answer run
    obtain ⟨result, state⟩ := answer
    rw [run] at ends
    rw [← Except.ok.inj checked]
    cases result with
    | ok ty => exact ends.2.outcome _
    | error failure => exact CheckState.Plain.outcome ends _

/-- Members may have any signatures: where the globals have no type variables, checking a tree that
was read brings none in. -/
theorem check_closes {source : Option String} {stored : StoredNode}
    (arePlain : ∀ global ∈ environment.globals, global.ty.hasVar = false)
    (checked : (ofStored source stored).check environment = .ok outcome) : outcome.Plain :=
  (ofStored_plain source stored).check arePlain checked

end Tree

def Environment.boxes : Environment :=
  let decl : NamespaceDecl :=
    { path := "boxes"
      types := [{
        name := "Box"
        params := ["T"]
        constructors := [{ params := ["T"] }]
        fields := [{ name := "value", type := "T" }]
        methods := [{ name := "all", returns := "Array<T>" }] }]
      functions := [{ name := "pick", returns := "Array<T>", generics := ["T"] }] }
  ((ofOptions {}).addNamespace decl).importNamespace "boxes" |>.1

def StoredNode.boxing : StoredNode :=
  let named (label : Label) (text : String) : StoredNode := mk (some label) .name text .nowhere []
  let declare (name : String) (value : StoredNode) : StoredNode :=
    mk none .varDecl none .nowhere [named .name name, value]
  mk none .source none .nowhere [
    declare "box" (mk (some .expr) .new none .nowhere [
      mk (some .type) .type "Box" .nowhere [],
      mk (some .param) .list none .nowhere [mk none .integer "1" .nowhere []]]),
    declare "value" (mk (some .expr) .field none .nowhere [named .recv "box", named .name "value"]),
    declare "elements" (mk (some .expr) .methodApply none .nowhere [
      named .recv "box", named .name "all"]),
    declare "picked" (mk (some .expr) .apply none .nowhere [named .name "pick"])]

/-- The types that the variables of the members stand for are known but for that of the pick. -/
theorem Tree.check_closes_boxing : ∃ outcome,
    (ofStored none .boxing).check .boxes = .ok outcome ∧
      (∃ pick ∈ Environment.boxes.registry.functions "pick",
        (Environment.boxes.registry.member pick).result.hasVar = true) ∧
      outcome.environment.globals.toList.map (fun global => global.ty.text) =
        ["Box<int>", "int", "Array<int>", "Array<Object>"] ∧
      outcome.Plain := by
  have isGeneric : ∃ pick ∈ Environment.boxes.registry.functions "pick",
      (Environment.boxes.registry.member pick).result.hasVar = true := by
    simp only [Registry.functions, Registry.positions_eq_walk]
    decide +kernel
  have run : ((ofStored none .boxing).check .boxes).toOption.any (fun outcome => decide
      (outcome.environment.globals.toList.map (fun global => global.ty.text) =
        ["Box<int>", "int", "Array<int>", "Array<Object>"])) = true := by
    decide +kernel
  obtain ⟨outcome, checked, holds⟩ := exists_outcome run
  have arePlain : ∀ global ∈ Environment.boxes.globals, global.ty.hasVar = false := by
    decide +kernel
  exact ⟨outcome, checked, isGeneric, of_decide_eq_true holds, check_closes arePlain checked⟩

end ScriptTyping
