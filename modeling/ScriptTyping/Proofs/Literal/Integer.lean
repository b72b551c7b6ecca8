import Mathlib.Data.List.TakeWhile
import ScriptTyping.Check.Constant
import ScriptTyping.Proofs.Check.Step
import ScriptTyping.Proofs.Literal.Digits

/-!
Integer literals. They fold to the number that they write if it is in the range of their type, and
to zero with one warning otherwise.
-/

namespace ScriptTyping

/-! ### What literals write -/

namespace Literal

open NumberText

inductive WritesInteger : List Char → Int → Prop
  | decimal {text : List Char} {value : Int} : Writes 10 text value → WritesInteger text value
  | binary {marker : Char} {text : List Char} {value : Int} : marker = 'b' ∨ marker = 'B' →
      Writes 2 text value → WritesInteger ('0' :: marker :: text) value
  | hexadecimal {marker : Char} {text : List Char} {value : Int} : marker = 'x' ∨ marker = 'X' →
      Writes 16 text value → WritesInteger ('0' :: marker :: text) value

def WritesLong (text : List Char) (value : Int) : Prop :=
  ∃ digits suffix, text = digits ++ suffix ∧ (∀ char ∈ suffix, char = 'l' ∨ char = 'L') ∧
    Writes 10 digits value

theorem readInteger_pow_eq_ok_iff {radix bits : Nat} {text : List Char} {value : Int}
    (small : radix ≤ 16) :
    readInteger radix (Nat.pow 2 bits) (Nat.pow 2 bits - 1) text = .ok value ↔
      Writes radix text value ∧ -2 ^ bits ≤ value ∧ value < 2 ^ bits := by
  have positive : 0 < Nat.pow 2 bits := Nat.two_pow_pos bits
  have cast : (2 : Int) ^ bits = Nat.pow 2 bits := by simp
  rw [readInteger_eq_ok_iff small positive, cast]
  refine and_congr_right fun _ => ?_
  omega

/-- No decimal number begins like a prefix. -/
theorem not_writes_marker {marker : Char} {text : List Char} {value : Int}
    (none : digit? 10 marker = none) : ¬ Writes 10 ('0' :: marker :: text) value := by
  rw [writes_unsigned_iff (by simp) (by simp)]
  rintro ⟨_, ⟨_, _, all, _⟩, _⟩
  cases all with
  | cons _ all =>
      cases all with
      | cons isDigit _ =>
          rw [(digit?_eq_some_iff (by decide)).mpr isDigit] at none
          cases none

theorem writesInteger_marker_iff (marker : Char) (none : digit? 10 marker = none)
    {text : List Char} {value : Int} :
    WritesInteger ('0' :: marker :: text) value ↔
      (marker = 'b' ∨ marker = 'B') ∧ Writes 2 text value ∨
        (marker = 'x' ∨ marker = 'X') ∧ Writes 16 text value := by
  constructor
  · intro writes
    cases writes with
    | decimal writes => exact absurd writes (not_writes_marker none)
    | binary isMarker writes => exact .inl ⟨isMarker, writes⟩
    | hexadecimal isMarker writes => exact .inr ⟨isMarker, writes⟩
  · rintro (⟨isMarker, writes⟩ | ⟨isMarker, writes⟩)
    · exact .binary isMarker writes
    · exact .hexadecimal isMarker writes

/-- An integer literal is read exactly when it writes a number of 32 bits. -/
theorem integer_eq_ok_iff {text : String} {value : Int} :
    integer text = .ok value ↔
      WritesInteger (withoutUnderscores text) value ∧ -2 ^ 31 ≤ value ∧ value < 2 ^ 31 := by
  unfold integer readInt32
  generalize withoutUnderscores text = chars
  split
  · rw [readInteger_pow_eq_ok_iff (by decide), writesInteger_marker_iff 'b' rfl]
    simp
  · rw [readInteger_pow_eq_ok_iff (by decide), writesInteger_marker_iff 'B' rfl]
    simp
  · rw [readInteger_pow_eq_ok_iff (by decide), writesInteger_marker_iff 'x' rfl]
    simp
  · rw [readInteger_pow_eq_ok_iff (by decide), writesInteger_marker_iff 'X' rfl]
    simp
  · rename_i noLowerB noUpperB noLowerX noUpperX
    have isDecimal : WritesInteger chars value ↔ Writes 10 chars value := by
      constructor
      · intro writes
        cases writes with
        | decimal writes => exact writes
        | binary isMarker _ =>
            rcases isMarker with rfl | rfl
            · exact absurd rfl (noLowerB _)
            · exact absurd rfl (noUpperB _)
        | hexadecimal isMarker _ =>
            rcases isMarker with rfl | rfl
            · exact absurd rfl (noLowerX _)
            · exact absurd rfl (noUpperX _)
      · exact .decimal
    rw [isDecimal, readInteger_pow_eq_ok_iff (by decide)]

/-- No decimal number contains a suffix. -/
theorem not_mem_suffix {text : List Char} {value : Int} (writes : Writes 10 text value) :
    ∀ char ∈ text, char ∉ ['l', 'L'] := by
  have ofDigits : ∀ {text value}, Digits 10 text value → ∀ char ∈ text, char ∉ ['l', 'L'] := by
    intro text value digits char member isLetter
    obtain ⟨digit, isDigit⟩ := digits.isDigit member
    have found := (digit?_eq_some_iff (by decide)).mpr isDigit
    rcases List.mem_pair.mp isLetter with rfl | rfl <;> cases found
  cases writes with
  | unsigned digits => exact ofDigits digits
  | plus digits => exact List.forall_mem_cons.mpr ⟨by decide, ofDigits digits⟩
  | minus digits => exact List.forall_mem_cons.mpr ⟨by decide, ofDigits digits⟩

theorem dropSuffix_append {letters suffix digits : List Char} (dropped : ∀ char ∈ suffix, char ∈ letters)
    (kept : ∀ char ∈ digits, char ∉ letters) : dropSuffix letters (digits ++ suffix) = digits := by
  have stops : digits.reverse.dropWhile letters.contains = digits.reverse := by
    rw [List.dropWhile_eq_self_iff]
    intro some isLetter
    exact kept _ (List.mem_reverse.mp (List.getElem_mem some)) (List.contains_iff_mem.mp isLetter)
  rw [dropSuffix, List.reverse_append, List.dropWhile_append_of_pos, stops, List.reverse_reverse]
  simpa using dropped

theorem exists_dropSuffix (letters text : List Char) : ∃ suffix,
    text = dropSuffix letters text ++ suffix ∧ ∀ char ∈ suffix, char ∈ letters := by
  refine ⟨(text.reverse.takeWhile letters.contains).reverse, ?_, ?_⟩
  · rw [dropSuffix, ← List.reverse_append, List.takeWhile_append_dropWhile, List.reverse_reverse]
  · intro char member
    simpa using List.mem_takeWhile_imp (List.mem_reverse.mp member)

/-- A literal of type `long` is read exactly when it writes a number of 64 bits. -/
theorem long_eq_ok_iff {text : String} {value : Int} :
    long text = .ok value ↔
      WritesLong (withoutUnderscores text) value ∧ -2 ^ 63 ≤ value ∧ value < 2 ^ 63 := by
  rw [long, readInt64, readInteger_pow_eq_ok_iff (by decide)]
  generalize withoutUnderscores text = chars
  refine and_congr_left fun _ => ?_
  constructor
  · intro writes
    obtain ⟨suffix, parts, dropped⟩ := exists_dropSuffix ['l', 'L'] chars
    exact ⟨_, suffix, parts, by simpa using dropped, writes⟩
  · rintro ⟨digits, suffix, rfl, dropped, writes⟩
    rw [dropSuffix_append (by simpa using dropped) (by simpa using not_mem_suffix writes)]
    exact writes

end Literal

/-! ### Folding -/

def CheckState.folded (state : CheckState) (id : NodeId) (ty : Ty) (value : Const)
    (warnings : List CheckWarning) : CheckState :=
  { state with
    tree := state.tree.setConst id ty value
    warnings := state.warnings ++ warnings
    log := state.log.map (· ++ warnings.map fun warning => .raised (.warning warning)) }

namespace Rule

open Check

variable {state : CheckState} {id : NodeId} {ty : Ty} {value other : Const}
  {warnings others : List CheckWarning}

theorem run_setConst : (setConst id ty value).run.run state =
    .ok (.ok ty, state.folded id ty value []) := by
  simp only [CheckState.folded, List.append_nil, List.map_nil, Option.map_id']
  rfl

theorem folded_inj (bound : id < state.tree.nodes.size)
    (same : state.folded id ty value warnings = state.folded id ty other others) :
    value = other ∧ warnings = others := by
  have bindings : (state.tree.setConst id ty value).get id = (state.tree.setConst id ty other).get id :=
    congrArg (·.tree.get id) same
  rw [Tree.setConst, Tree.setConst, Tree.get_modify_self _ _ bound, Tree.get_modify_self _ _ bound]
    at bindings
  have constants : Binding.const value = .const other := congrArg Node.binding bindings
  have lists : state.warnings ++ warnings = state.warnings ++ others :=
    congrArg CheckState.warnings same
  exact ⟨Binding.const.inj constants, List.append_cancel_left lists⟩

def malformedAt (state : CheckState) (id : NodeId) (reason : String) : CheckWarning :=
  ⟨.malformedLiteral (state.tree.text id) reason, state.tree.span id⟩

theorem run_number {α : Type} {zero : α} {read : String → Except NumberTextError α}
    (ty : Ty) (const : α → Const) :
    (number id zero read >>= fun value => setConst id ty (const value) : Check Ty).run.run state =
      .ok (.ok ty, match read (state.tree.text id) with
        | .ok value => state.folded id ty (const value) []
        | .error error => state.folded id ty (const zero) [malformedAt state id error.message]) := by
  have reads : (number id zero read).run.run state =
      (match read (state.tree.text id) with
        | .ok value => pure value
        | .error error => do
          warnAt id (.malformedLiteral (state.tree.text id) error.message)
          return zero : Check α).run.run state := rfl
  rw [run_bind, reads]
  cases read (state.tree.text id) with
  | ok value => exact run_setConst
  | error error => rfl

/-- Whether a rule folds a node exactly to the numbers that it writes, and to zero with one warning
when there is none. -/
structure Folds (rule : Check Ty) (state : CheckState) (id : NodeId) (ty : Ty) (const : Int → Const)
    (writes : Int → Prop) : Prop where
  written : ∀ value, rule.run.run state = .ok (.ok ty, state.folded id ty (const value) []) ↔
    writes value
  malformed : (∀ value, ¬ writes value) → ∃ reason,
    rule.run.run state = .ok (.ok ty, state.folded id ty (const 0) [malformedAt state id reason])

theorem folds_number (bound : id < state.tree.nodes.size) {read : String → Except NumberTextError Int}
    {ty : Ty} {const : Int → Const} {writes : Int → Prop} (apart : const.Injective)
    (reads : ∀ value, read (state.tree.text id) = .ok value ↔ writes value) :
    Folds (number id 0 read >>= fun value => setConst id ty (const value)) state id ty const
      writes := by
  constructor
  · intro value
    rw [run_number, ← reads]
    cases read (state.tree.text id) with
    | ok found =>
        constructor
        · intro same
          have folds := (Prod.mk.inj (Except.ok.inj same)).2
          rw [apart (folded_inj bound folds).1]
        · rintro ⟨rfl⟩
          rfl
    | error error =>
        constructor
        · intro same
          have folds := (Prod.mk.inj (Except.ok.inj same)).2
          cases (folded_inj bound folds).2
        · exact nofun
  · intro none
    cases found : read (state.tree.text id) with
    | ok value => exact absurd ((reads value).mp found) (none value)
    | error error =>
        refine ⟨error.message, ?_⟩
        rw [run_number, found]

/-- An integer literal folds to the number of 32 bits that it writes without its underscores, a
literal of type `long` to the number of 64 bits, and both to zero with a warning if there is no such
number. -/
theorem numbers_fold (bound : id < state.tree.nodes.size) :
    let chars := (state.tree.text id).toList.filter (· != '_')
    Folds (integer id) state id .int .int
      (fun value => Literal.WritesInteger chars value ∧ -2 ^ 31 ≤ value ∧ value < 2 ^ 31) ∧
    Folds (long id) state id .long .long
      (fun value => Literal.WritesLong chars value ∧ -2 ^ 63 ≤ value ∧ value < 2 ^ 63) := by
  intro chars
  exact ⟨folds_number bound (fun _ _ => Const.int.inj) fun _ => Literal.integer_eq_ok_iff,
    folds_number bound (fun _ _ => Const.long.inj) fun _ => Literal.long_eq_ok_iff⟩

def atLiteral (text : String) : CheckState where
  tree := .ofStored none (.mk none .integer (some text) ⟨3, 20⟩ [])
  environment := .ofOptions {}

/-- The smallest integer is in the range, and the number after the largest is not. -/
theorem numbers_fold_limits :
    (integer 0).run.run (atLiteral "-2_147_483_648") =
      .ok (.ok .int, (atLiteral "-2_147_483_648").folded 0 .int (.int (-2147483648)) []) ∧
    (∃ reason, (integer 0).run.run (atLiteral "0x8000_0000") =
      .ok (.ok .int, (atLiteral "0x8000_0000").folded 0 .int (.int 0)
        [⟨.malformedLiteral "0x8000_0000" reason, ⟨3, 20⟩⟩])) ∧
    (long 0).run.run (atLiteral "+9223372036854775807_Ll") =
      .ok (.ok .long, (atLiteral "+9223372036854775807_Ll").folded 0 .long
        (.long 9223372036854775807) []) := by
  have smallest : Literal.integer "-2_147_483_648" = .ok (-2147483648) := by rfl
  have beyond : Literal.integer "0x8000_0000" = .error .tooLarge := by rfl
  have largest : Literal.long "+9223372036854775807_Ll" = .ok 9223372036854775807 := by rfl
  have bound : ∀ text, 0 < (atLiteral text).tree.nodes.size := fun _ => Nat.one_pos
  refine ⟨?_, ?_, ?_⟩
  · exact ((numbers_fold (bound _)).1.written _).mpr (Literal.integer_eq_ok_iff.mp smallest)
  · refine (numbers_fold (bound _)).1.malformed fun value writes => ?_
    have read := Literal.integer_eq_ok_iff.mpr writes
    rw [show (atLiteral "0x8000_0000").tree.text 0 = "0x8000_0000" from rfl, beyond] at read
    cases read
  · exact ((numbers_fold (bound _)).2.written _).mpr (Literal.long_eq_ok_iff.mp largest)

end Rule

end ScriptTyping
