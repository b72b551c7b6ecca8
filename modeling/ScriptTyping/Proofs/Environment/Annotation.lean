import ScriptTyping.Check.Conversion
import ScriptTyping.Proofs.Check.Step
import ScriptTyping.Proofs.Environment.Naming
import ScriptTyping.Proofs.Ty.Grammar

/-!
Annotations. A text denotes a type if it derives one whose names are all registered. The type then has
the namespaces in which its names are declared; otherwise the first name that is not registered is
to blame, or the text itself.
-/

namespace ScriptTyping

namespace Ty

mutual

def tyNames : Ty → List TyName
  | named tyName => [tyName]
  | applied head args => head :: tyNamesAll args
  | fn params result => tyNamesAll params ++ tyNames result
  | _ => []

def tyNamesAll : List Ty → List TyName
  | [] => []
  | ty :: rest => tyNames ty ++ tyNamesAll rest

end

theorem tyNamesAll_eq_flatMap (types : List Ty) : tyNamesAll types = types.flatMap tyNames := by
  induction types with
  | nil => rfl
  | cons ty types ih => rw [tyNamesAll, ih, List.flatMap_cons]

end Ty

namespace Environment

variable {environment : Environment} {tyName qualified : TyName} {text name : String}

def Knows (environment : Environment) (tyName : TyName) : Prop :=
  (environment.registry.type? tyName.name).isSome = true

/-! ### Names -/

theorem knows_of_qualifyName (found : environment.qualifyName tyName = .ok qualified) :
    environment.Knows tyName := by
  obtain ⟨_, known, _⟩ := qualifyName_eq_ok_iff.mp found
  rw [Knows, known]
  rfl

theorem qualifyName_error (failed : environment.qualifyName tyName = .error name) :
    ¬ environment.Knows tyName ∧ tyName.name = name := by
  obtain ⟨unknown, isName⟩ := qualifyName_eq_error_iff.mp failed
  exact ⟨by rw [Knows, unknown]; simp, isName⟩

/-- A name that had no namespace gets that of the registered type. -/
theorem home_of_qualifyName (found : environment.qualifyName tyName = .ok qualified)
    (homeless : tyName.home = none) : ∃ typeDef,
      environment.registry.type? qualified.name = some typeDef ∧ qualified.home = typeDef.home := by
  obtain ⟨typeDef, known, rfl⟩ := qualifyName_eq_ok_iff.mp found
  exact ⟨typeDef, known, by rw [homeless, Option.or_none]⟩

theorem qualifyName_again (found : environment.qualifyName tyName = .ok qualified) :
    environment.qualifyName qualified = .ok qualified := by
  obtain ⟨typeDef, known, rfl⟩ := qualifyName_eq_ok_iff.mp found
  exact qualifyName_eq_ok_iff.mpr ⟨typeDef, known, by cases typeDef.home <;> rfl⟩

/-! ### Types -/

mutual

/-- A qualified type has the same names, qualified. -/
theorem qualify_names : {ty result : Ty} → environment.qualify ty = .ok result →
    ty.tyNames.map environment.qualifyName = result.tyNames.map .ok
  | .named tyName, _, found => by
    obtain ⟨later, isLater, same⟩ := Except.bind_eq_ok.mp found
    cases same
    exact congrArg (fun name => [name]) isLater
  | .applied head args, _, found => by
    obtain ⟨later, isLater, found⟩ := Except.bind_eq_ok.mp found
    obtain ⟨types, areTypes, same⟩ := Except.bind_eq_ok.mp found
    cases same
    rw [Ty.tyNames, Ty.tyNames, List.map_cons, List.map_cons, isLater, qualifyAll_names areTypes]
  | .fn params result, _, found => by
    obtain ⟨types, areTypes, found⟩ := Except.bind_eq_ok.mp found
    obtain ⟨last, isLast, same⟩ := Except.bind_eq_ok.mp found
    cases same
    rw [Ty.tyNames, Ty.tyNames, List.map_append, List.map_append, qualifyAll_names areTypes,
      qualify_names isLast]
  | .var _, _, found => by cases found; rfl
  | .prim _, _, found => by cases found; rfl
  | .void, _, found => by cases found; rfl
  | .object, _, found => by cases found; rfl
  | .dynamic, _, found => by cases found; rfl
  | .never, _, found => by cases found; rfl

theorem qualifyAll_names : {types results : List Ty} → environment.qualifyAll types = .ok results →
    (Ty.tyNamesAll types).map environment.qualifyName = (Ty.tyNamesAll results).map .ok
  | [], _, found => by cases found; rfl
  | ty :: rest, _, found => by
    obtain ⟨first, isFirst, found⟩ := Except.bind_eq_ok.mp found
    obtain ⟨others, areOthers, same⟩ := Except.bind_eq_ok.mp found
    cases same
    rw [Ty.tyNamesAll, Ty.tyNamesAll, List.map_append, List.map_append, qualify_names isFirst,
      qualifyAll_names areOthers]

end

mutual

/-- A type whose names stay as they are stays as it is. -/
theorem qualify_of_names : {ty : Ty} →
    (∀ tyName ∈ ty.tyNames, environment.qualifyName tyName = .ok tyName) →
      environment.qualify ty = .ok ty
  | .named tyName, same => by
    rw [qualify, same tyName (List.mem_singleton_self tyName)]
    rfl
  | .applied head args, same => by
    obtain ⟨isHead, others⟩ := List.forall_mem_cons.mp same
    rw [qualify, isHead, qualifyAll_of_names others]
    rfl
  | .fn params result, same => by
    obtain ⟨areParams, isResult⟩ := List.forall_mem_append.mp same
    rw [qualify, qualifyAll_of_names areParams, qualify_of_names isResult]
    rfl
  | .var _, _ => rfl
  | .prim _, _ => rfl
  | .void, _ => rfl
  | .object, _ => rfl
  | .dynamic, _ => rfl
  | .never, _ => rfl

theorem qualifyAll_of_names : {types : List Ty} →
    (∀ tyName ∈ Ty.tyNamesAll types, environment.qualifyName tyName = .ok tyName) →
      environment.qualifyAll types = .ok types
  | [], _ => rfl
  | ty :: rest, same => by
    obtain ⟨isFirst, others⟩ := List.forall_mem_append.mp same
    rw [qualifyAll, qualify_of_names isFirst, qualifyAll_of_names others]
    rfl

end

def Misses (environment : Environment) (names : List TyName) (name : String) : Prop :=
  ∃ front unknown rest, names = front ++ unknown :: rest ∧
    (∀ known ∈ front, environment.Knows known) ∧ ¬ environment.Knows unknown ∧ unknown.name = name

theorem Misses.append {names : List TyName} (misses : environment.Misses names name)
    (later : List TyName) : environment.Misses (names ++ later) name := by
  obtain ⟨front, unknown, rest, rfl, known, isUnknown, same⟩ := misses
  exact ⟨front, unknown, rest ++ later, by simp, known, isUnknown, same⟩

theorem Misses.after {names earlier : List TyName} (misses : environment.Misses names name)
    (known : ∀ tyName ∈ earlier, environment.Knows tyName) :
    environment.Misses (earlier ++ names) name := by
  obtain ⟨front, unknown, rest, rfl, others, isUnknown, same⟩ := misses
  exact ⟨earlier ++ front, unknown, rest, by simp, List.forall_mem_append.mpr ⟨known, others⟩,
    isUnknown, same⟩

theorem knows_of_names {names results : List TyName}
    (found : names.map environment.qualifyName = results.map .ok) :
    ∀ tyName ∈ names, environment.Knows tyName := by
  intro tyName member
  have inside := List.mem_map_of_mem (f := environment.qualifyName) member
  rw [found] at inside
  obtain ⟨qualified, _, isQualified⟩ := List.mem_map.mp inside
  exact knows_of_qualifyName isQualified.symm

theorem misses_of_qualifyName (failed : environment.qualifyName tyName = .error name)
    (rest : List TyName) : environment.Misses (tyName :: rest) name := by
  obtain ⟨unknown, same⟩ := qualifyName_error failed
  exact ⟨[], tyName, rest, rfl, nofun, unknown, same⟩

mutual

/-- What stops the qualification of a type is the first of its names that is not registered. -/
theorem misses_of_qualify : {ty : Ty} → environment.qualify ty = .error name →
    environment.Misses ty.tyNames name
  | .named tyName, failed => by
    rcases Except.bind_eq_error.mp failed with isName | ⟨_, _, none⟩
    · exact misses_of_qualifyName isName []
    · cases none
  | .applied head args, failed => by
    rcases Except.bind_eq_error.mp failed with isHead | ⟨_, found, failed⟩
    · exact misses_of_qualifyName isHead _
    · rcases Except.bind_eq_error.mp failed with inside | ⟨_, _, none⟩
      · have known : ∀ tyName ∈ [head], environment.Knows tyName :=
          List.forall_mem_singleton.mpr (knows_of_qualifyName found)
        exact (misses_of_qualifyAll inside).after known
      · cases none
  | .fn params result, failed => by
    rcases Except.bind_eq_error.mp failed with inside | ⟨_, found, failed⟩
    · exact (misses_of_qualifyAll inside).append _
    · rcases Except.bind_eq_error.mp failed with isLast | ⟨_, _, none⟩
      · exact (misses_of_qualify isLast).after (knows_of_names (qualifyAll_names found))
      · cases none
  | .var _, failed => nomatch failed
  | .prim _, failed => nomatch failed
  | .void, failed => nomatch failed
  | .object, failed => nomatch failed
  | .dynamic, failed => nomatch failed
  | .never, failed => nomatch failed

theorem misses_of_qualifyAll : {types : List Ty} → environment.qualifyAll types = .error name →
    environment.Misses (Ty.tyNamesAll types) name
  | [], failed => nomatch failed
  | ty :: rest, failed => by
    rcases Except.bind_eq_error.mp failed with isFirst | ⟨_, found, failed⟩
    · exact (misses_of_qualify isFirst).append _
    · rcases Except.bind_eq_error.mp failed with inside | ⟨_, _, none⟩
      · exact (misses_of_qualifyAll inside).after (knows_of_names (qualify_names found))
      · cases none

end

/-! ### Written types -/

def Ty.Homeless (ty : Ty) : Prop := ∀ tyName ∈ ty.tyNames, tyName.home = none

theorem homeless_all {types : List Ty} (each : ∀ ty ∈ types, Ty.Homeless ty) :
    ∀ tyName ∈ Ty.tyNamesAll types, tyName.home = none := by
  rw [Ty.tyNamesAll_eq_flatMap]
  intro tyName member
  obtain ⟨ty, inside, isName⟩ := List.mem_flatMap.mp member
  exact each ty inside tyName isName

theorem homeless_arrays {ty : Ty} (homeless : Ty.Homeless ty) (arrays : Nat) :
    Ty.Homeless (Ty.array^[arrays] ty) := by
  induction arrays with
  | zero => exact homeless
  | succ arrays ih =>
      rw [Function.iterate_succ_apply']
      exact List.forall_mem_cons.mpr ⟨rfl, homeless_all (List.forall_mem_singleton.mpr ih)⟩

theorem homeless_denote (vars : List String) (name : String) :
    Ty.Homeless (TypeText.denote vars name) := by
  have denotes := TypeText.denotes_denote vars name
  generalize TypeText.denote vars name = ty at denotes
  cases denotes with
  | named _ _ _ => exact List.forall_mem_singleton.mpr rfl
  | _ => exact nofun

theorem homeless_written (vars : List String) (written : TypeText.Written) :
    Ty.Homeless (written.ty vars) := by
  induction written using TypeText.Written.induction with
  | ofName name arrays => exact homeless_arrays (homeless_denote vars name) arrays
  | ofGeneric head first rest arrays isFirst others =>
      have args : ∀ ty ∈ first.ty vars :: TypeText.Written.tyAll vars rest, Ty.Homeless ty := by
        rw [TypeText.Written.tyAll_eq_map]
        exact List.forall_mem_cons.mpr ⟨isFirst, List.forall_mem_map.mpr others⟩
      have whole : Ty.Homeless
          (.applied ⟨head, none⟩ (first.ty vars :: TypeText.Written.tyAll vars rest)) :=
        List.forall_mem_cons.mpr ⟨rfl, homeless_all args⟩
      exact homeless_arrays whole arrays
  | ofFn params result arrays each last =>
      have inputs : ∀ ty ∈ TypeText.Written.tyAll vars params, Ty.Homeless ty := by
        rw [TypeText.Written.tyAll_eq_map]
        exact List.forall_mem_map.mpr each
      have whole : Ty.Homeless (.fn (TypeText.Written.tyAll vars params) (result.ty vars)) :=
        List.forall_mem_append.mpr ⟨homeless_all inputs, last⟩
      exact homeless_arrays whole arrays

/-! ### Annotations -/

/-- The name that is to blame for an annotation that denotes no type. -/
inductive Blames (environment : Environment) (text : String) : String → Prop where
  | malformed {error : TypeTextError} : Ty.ofText? [] text = .error error →
      Blames environment text text
  | unregistered {parsed : Ty} {name : String} : Ty.ofText? [] text = .ok parsed →
      environment.Misses parsed.tyNames name → Blames environment text name

structure Resolves (environment : Environment) (parsed ty : Ty) : Prop where
  same : (ty == parsed) = true
  homes : ∀ tyName ∈ ty.tyNames, ∃ typeDef,
    environment.registry.type? tyName.name = some typeDef ∧ tyName.home = typeDef.home
  again : environment.qualify ty = .ok ty

theorem resolves_of_qualify {parsed ty : Ty} (reads : Ty.ofText? [] text = .ok parsed)
    (found : environment.qualify parsed = .ok ty) : environment.Resolves parsed ty := by
  obtain ⟨written, _, _, rfl⟩ := TypeText.ofText?_eq_ok_iff.mp reads
  have names := qualify_names found
  have origin : ∀ tyName ∈ ty.tyNames, ∃ old ∈ (written.ty []).tyNames,
      environment.qualifyName old = .ok tyName := by
    intro tyName member
    exact List.mem_map.mp (names ▸ List.mem_map_of_mem member)
  refine ⟨Ty.beq_iff_bare.mpr (qualify_bare found), fun tyName member => ?_,
    qualify_of_names fun tyName member => ?_⟩
  · obtain ⟨old, isOld, isNew⟩ := origin tyName member
    exact home_of_qualifyName isNew (homeless_written [] written old isOld)
  · obtain ⟨old, _, isNew⟩ := origin tyName member
    exact qualifyName_again isNew

theorem resolveType_ok {ty : Ty} : environment.resolveType text = .ok ty ↔
    ∃ parsed, Ty.ofText? [] text = .ok parsed ∧ environment.qualify parsed = .ok ty := by
  unfold resolveType
  split
  · rename_i failed
    simp [failed]
  · rename_i parsed reads
    simp only [reads, Except.ok.injEq, exists_eq_left']
    split <;> simp [*]

theorem blames_of_error {error : AnnotationError}
    (failed : environment.resolveType text = .error error) :
    environment.Blames text (error.culprit text) := by
  unfold resolveType at failed
  split at failed
  · rename_i malformed
    cases failed
    exact .malformed malformed
  · rename_i reads
    split at failed
    · rename_i missing
      cases failed
      exact .unregistered reads (misses_of_qualify missing)
    · cases failed

/-- An annotation denotes a type exactly when it derives one and all names in that are registered.
The type is the derived one, with the namespaces that declare its names, and qualifying it once more
changes nothing. Else the annotation is undefined, by its first name that is not registered or as a
whole. -/
theorem resolveType_resolves (environment : Environment) (text : String) :
    ((∃ ty, environment.resolveType text = .ok ty) ↔ ∃ parsed,
      Ty.ofText? [] text = .ok parsed ∧ ∀ tyName ∈ parsed.tyNames, environment.Knows tyName) ∧
    (∀ ty, environment.resolveType text = .ok ty → ∃ parsed,
      Ty.ofText? [] text = .ok parsed ∧ environment.Resolves parsed ty) ∧
    ∀ error, environment.resolveType text = .error error →
      environment.Blames text (error.culprit text) ∧
      ∀ (state : CheckState) (node : NodeId), state.environment = environment →
        state.tree.text node = text → ∃ failure tree,
          (Check.denotation node).run.run state = .ok (.error failure,
            { state with tree }.noted (.raised (.error failure.error))) ∧
            failure.error = ⟨.undefinedType (error.culprit text), state.tree.span node⟩ := by
  refine ⟨⟨?_, ?_⟩, ?_, ?_⟩
  · rintro ⟨ty, found⟩
    obtain ⟨parsed, reads, qualified⟩ := resolveType_ok.mp found
    exact ⟨parsed, reads, knows_of_names (qualify_names qualified)⟩
  · rintro ⟨parsed, reads, known⟩
    cases qualified : environment.qualify parsed with
    | ok ty => exact ⟨ty, resolveType_ok.mpr ⟨parsed, reads, qualified⟩⟩
    | error name =>
        obtain ⟨_, unknown, _, names, _, isUnknown, _⟩ := misses_of_qualify qualified
        exact absurd (known unknown (by simp [names])) isUnknown
  · intro ty found
    obtain ⟨parsed, reads, qualified⟩ := resolveType_ok.mp found
    exact ⟨parsed, reads, resolves_of_qualify reads qualified⟩
  · intro error failed
    refine ⟨blames_of_error failed, ?_⟩
    rintro state node rfl rfl
    let cause := ErrorCause.undefinedType (error.culprit (state.tree.text node))
    let failure := Failure.ofError state.tree ⟨cause, state.tree.span node⟩
    refine ⟨failure.1, failure.2, ?_, rfl⟩
    rw [Check.denotation, Check.run_bind, Check.run_textOf]
    dsimp only
    rw [Check.run_bind, Check.run_environment]
    dsimp only
    rw [failed]
    rfl

end Environment

end ScriptTyping
