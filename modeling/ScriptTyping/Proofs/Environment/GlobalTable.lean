import ScriptTyping.Proofs.Environment.Globals

/-!
The globals as declarations build them up: entries that hold their own position and storage, and a
table with the position of each name. An environment has neither, since it searches its globals for
a name. In every session the two give the same.
-/

namespace ScriptTyping

structure StorageSlot where
  index : Nat
  symbol : String
  deriving DecidableEq, Repr

structure GlobalEntry where
  id : GlobalId
  name : String
  ty : Ty
  storage : StorageSlot
  deriving Repr

structure GlobalTable where
  entries : Array GlobalEntry := #[]
  ids : Table GlobalId := {}

/-- The entry of a global, which holds what the position of the global tells. -/
def Global.entry (id : GlobalId) (global : Global) : GlobalEntry where
  id := id
  name := global.name
  ty := global.ty
  storage := ⟨id, global.symbol id⟩

namespace GlobalTable

/-- The entry of a name that is declared. There is no answer if its position leads nowhere. -/
def named? (table : GlobalTable) (name : String) : Option (Option GlobalEntry) :=
  match table.ids.get? name with
  | some id => table.entries[id]?.map some
  | none => some none

def declare (table : GlobalTable) (name : String) (ty : Ty) :
    Option (Except Ty (GlobalTable × GlobalId)) :=
  match table.ids.get? name with
  | some id =>
    table.entries[id]?.map fun existing =>
      if existing.ty == ty then .ok (table, id) else .error existing.ty
  | none =>
    let id := table.entries.size
    let symbol := "g" ++ toString id ++ "_" ++ name
    let table : GlobalTable := {
      entries := table.entries.push ⟨id, name, ty, ⟨id, symbol⟩⟩
      ids := table.ids.insert name id }
    some (.ok (table, id))

/-- Whether declarations lead to a table from the empty one. -/
inductive Declared : GlobalTable → Prop where
  | empty : Declared {}
  | declare {table after : GlobalTable} {name : String} {ty : Ty} {id : GlobalId} :
      Declared table → table.declare name ty = some (.ok (after, id)) → Declared after

structure Holds (table : GlobalTable) (environment : Environment) : Prop where
  entries : table.entries = environment.globals.mapIdx Global.entry
  ids : ∀ name, table.ids.get? name = environment.globalId? name

namespace Holds

variable {table : GlobalTable} {environment next : Environment} {name : String} {ty existing : Ty}
  {id : GlobalId}

theorem ofGlobals (holds : table.Holds environment) (same : next.globals = environment.globals) :
    table.Holds next :=
  ⟨by rw [same, holds.entries], fun name => by
    rw [Environment.globalId?, same]
    exact holds.ids name⟩

theorem size_eq (holds : table.Holds environment) :
    table.entries.size = environment.globals.size := by
  rw [holds.entries, Array.size_mapIdx]

theorem entry_eq (holds : table.Holds environment) (known : environment.globalId? name = some id) :
    table.entries[id]? = some ((environment.global id).entry id) := by
  have bound := (Array.findIdx?_eq_some_iff_getElem.mp known).1
  rw [holds.entries, Environment.global_eq_getElem bound]
  simp [bound]

theorem named?_eq (holds : table.Holds environment) (name : String) :
    table.named? name =
      some ((environment.globalId? name).map fun id => (environment.global id).entry id) := by
  rw [named?, holds.ids]
  cases known : environment.globalId? name with
  | none => rfl
  | some id =>
      simp only [holds.entry_eq known]
      rfl

theorem declare_of_error (holds : table.Holds environment)
    (clashes : environment.declareGlobal name ty = .error existing) :
    table.declare name ty = some (.error existing) := by
  unfold Environment.declareGlobal at clashes
  cases known : environment.globalId? name with
  | none => simp [known] at clashes
  | some id =>
      simp only [known] at clashes
      simp only [declare, holds.ids, known, holds.entry_eq known, Option.map_some]
      split at clashes
      · cases clashes
      · rename_i differs
        cases clashes
        exact congrArg some (if_neg differs)

theorem declare_of_ok (holds : table.Holds environment)
    (declared : environment.declareGlobal name ty = .ok (next, id)) :
    ∃ after, table.declare name ty = some (.ok (after, id)) ∧ after.Holds next := by
  rcases Environment.declareGlobal_cases declared with ⟨known, same, rfl⟩ | ⟨unknown, rfl, rfl⟩
  · refine ⟨table, ?_, holds⟩
    simp only [declare, holds.ids, known, holds.entry_eq known, Option.map_some, Global.entry, same,
      if_true]
  · refine ⟨_, by simp only [declare, holds.ids, unknown, holds.size_eq]; rfl, ?_, ?_⟩
    · simp only [holds.entries, Array.mapIdx_push]
      rfl
    · intro other
      simp only [Table.get?_insert, holds.ids, Environment.globalId?, Array.findIdx?_push,
        beq_iff_eq]
      split
      · rename_i isName
        subst isName
        have nowhere := unknown
        rw [Environment.globalId?] at nowhere
        rw [nowhere, Option.none_or]
      · rw [Option.or_none]

end Holds

end GlobalTable

/-- The globals of a session are those of a table that declarations built up. -/
theorem Environment.Built.exists_table {environment : Environment} (built : environment.Built) :
    ∃ table : GlobalTable, table.Declared ∧ table.Holds environment := by
  induction built with
  | start options => exact ⟨{}, .empty, rfl, fun name => by simp [globalId?, ofOptions]⟩
  | addNamespace decl _ ih =>
      obtain ⟨table, declared, holds⟩ := ih
      exact ⟨table, declared, holds.ofGlobals rfl⟩
  | step _ step ih =>
      obtain ⟨table, declared, holds⟩ := ih
      cases step with
      | importNamespace path =>
          exact ⟨table, declared, holds.ofGlobals (globals_importNamespace _ path)⟩
      | declareGlobal succeeds =>
          obtain ⟨after, run, holds⟩ := holds.declare_of_ok succeeds
          exact ⟨after, .declare declared run, holds⟩

end ScriptTyping
