import Mathlib.Data.List.Nodup
import ScriptTyping.Proofs.Environment.Growth

/-!
The table of globals. A name is declared once, so that names and positions go together, and the
position that a storage name starts with can be read off it, whatever the name of the global is.
-/

namespace ScriptTyping

/-- The digits of a position end at the first underscore, also when the name has digits and
underscores of its own. -/
theorem Global.symbol_inj {first second : Global} {one two : GlobalId}
    (same : first.symbol one = second.symbol two) : one = two := by
  have chars : Nat.toDigits 10 one ++ '_' :: first.name.toList =
      Nat.toDigits 10 two ++ '_' :: second.name.toList := by
    have lists := congrArg String.toList same
    simpa [Global.symbol, Nat.toString_eq_repr, Nat.toList_repr] using lists
  have front : ∀ (id : GlobalId) (rest : List Char),
      (Nat.toDigits 10 id ++ '_' :: rest).takeWhile (·.isDigit) = Nat.toDigits 10 id := by
    intro id rest
    have digits : ∀ char ∈ Nat.toDigits 10 id, char.isDigit = true :=
      fun _ among => Nat.isDigit_of_mem_toDigits (by decide) (by decide) among
    rw [List.takeWhile_append_of_pos digits, List.takeWhile_cons_of_neg (by decide),
      List.append_nil]
  have digits : Nat.toDigits 10 one = Nat.toDigits 10 two := by
    rw [← front one first.name.toList, chars, front]
  have value := congrArg (fun digits => Nat.ofDigitChars 10 digits 0) digits
  simpa [Nat.ofDigitChars_ten_toDigits] using value

namespace Environment

variable {environment next old new : Environment} {name : String} {id : GlobalId} {ty : Ty}

/-! ### Names and positions -/

/-- Whether the globals have positions, names and storage that tell them apart. -/
structure WellNamed (environment : Environment) : Prop where
  /-- A name is found at the one position where a global has it. -/
  found : ∀ name id, environment.globalId? name = some id ↔
    id < environment.globals.size ∧ (environment.global id).name = name
  symbols : ∀ one two, one < environment.globals.size → two < environment.globals.size →
    (environment.global one).symbol one = (environment.global two).symbol two → one = two

theorem global_eq_getElem (bound : id < environment.globals.size) :
    environment.global id = environment.globals[id] := by
  rw [global, Array.getElem?_eq_getElem bound, Option.getD_some]

theorem globalId?_eq_none :
    environment.globalId? name = none ↔ name ∉ environment.globals.toList.map (·.name) := by
  rw [globalId?, Array.findIdx?_eq_none_iff]
  simp

theorem wellNamed_of_nodup (distinct : (environment.globals.toList.map (·.name)).Nodup) :
    environment.WellNamed := by
  refine ⟨fun name id => ?_, fun one two _ _ same => Global.symbol_inj same⟩
  rw [globalId?, Array.findIdx?_eq_some_iff_getElem]
  constructor
  · rintro ⟨bound, isName, _⟩
    refine ⟨bound, ?_⟩
    rw [global_eq_getElem bound]
    exact beq_iff_eq.mp isName
  · rintro ⟨bound, isName⟩
    rw [global_eq_getElem bound] at isName
    refine ⟨bound, beq_iff_eq.mpr isName, fun other before isOther => ?_⟩
    have isSame := (beq_iff_eq.mp isOther).trans isName.symm
    have inRange : id < (environment.globals.toList.map (·.name)).length := by simpa using bound
    have earlier := Nat.lt_trans before inRange
    have names : (environment.globals.toList.map (·.name))[other] =
        (environment.globals.toList.map (·.name))[id] := by simpa using isSame
    have same := (List.getElem_inj distinct).mp names
    exact absurd before (same ▸ Nat.lt_irrefl _)

theorem names_declareGlobal (distinct : (environment.globals.toList.map (·.name)).Nodup)
    (declared : environment.declareGlobal name ty = .ok (next, id)) :
    (next.globals.toList.map (·.name)).Nodup := by
  rcases declareGlobal_cases declared with ⟨_, _, rfl⟩ | ⟨unknown, _, rfl⟩
  · exact distinct
  · simpa using List.nodup_append'.mpr ⟨distinct, by simp, by
      simpa using globalId?_eq_none.mp unknown⟩

theorem Step.names_nodup (step : Step old new)
    (distinct : (old.globals.toList.map (·.name)).Nodup) :
    (new.globals.toList.map (·.name)).Nodup := by
  cases step with
  | importNamespace path =>
      rw [globals_importNamespace]
      exact distinct
  | declareGlobal declared => exact names_declareGlobal distinct declared

theorem Built.wellNamed (built : environment.Built) : environment.WellNamed := by
  refine wellNamed_of_nodup ?_
  induction built with
  | start options => exact List.nodup_nil
  | addNamespace decl _ ih => exact ih
  | step _ step ih => exact step.names_nodup ih

/-! ### Later environments -/

/-- A name that is declared keeps its position, and with it its type and its storage. -/
theorem WellNamed.persists (wellNamed : old.WellNamed) (later : new.WellNamed)
    (grows : old.globals.toList <+: new.globals.toList) (known : old.globalId? name = some id) :
    new.globalId? name = some id ∧ new.global id = old.global id := by
  obtain ⟨bound, isName⟩ := (wellNamed.found name id).mp known
  have same := global_eq_of_prefix grows bound
  refine ⟨(later.found name id).mpr ⟨?_, same ▸ isName⟩, same⟩
  exact Nat.lt_of_lt_of_le bound (by simpa using grows.length_le)

/-- A declaration that succeeds gives the position of the name, where a global of the declared type
is. -/
theorem Built.globalId?_declareGlobal (built : environment.Built)
    (declared : environment.declareGlobal name ty = .ok (next, id)) :
    next.globalId? name = some id ∧ ((next.global id).ty == ty) = true := by
  have later : next.Built := built.step (.declareGlobal declared)
  obtain ⟨bound, isType⟩ := declareGlobal_global declared
  refine ⟨(later.wellNamed.found name id).mpr ⟨bound, ?_⟩, isType⟩
  rcases declareGlobal_cases declared with ⟨known, _, rfl⟩ | ⟨_, rfl, rfl⟩
  · exact ((built.wellNamed.found name _).mp known).2
  · simp [global]

end Environment

end ScriptTyping
