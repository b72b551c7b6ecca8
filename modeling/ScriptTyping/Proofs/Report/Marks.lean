import Mathlib.Algebra.GroupWithZero.Nat
import ScriptTyping.Finding.Report

/-!
The text of a report, read back. The line with the place determines the line number and the column,
and the marks below a source line stand in the columns of the range.
-/

namespace ScriptTyping

namespace Report

/-! ### The place -/

def opening (numberWidth line column : Nat) : String :=
  margin numberWidth ++ "╭─[ <unknown>:" ++ toString line ++ ":" ++ toString column ++ " ]\n" ++
    margin numberWidth ++ "│\n"

/-- The first occurrence of a character splits a list in one way. -/
theorem split_inj {char : Char} {one two : List Char} {rest onward : List Char}
    (notOne : char ∉ one) (notTwo : char ∉ two) (same : one ++ char :: rest = two ++ char :: onward) :
    one = two ∧ rest = onward := by
  induction one generalizing two with
  | nil =>
      cases two with
      | nil => exact ⟨rfl, (List.cons.inj same).2⟩
      | cons other two =>
          rw [List.nil_append, List.cons_append, List.cons.injEq] at same
          exact absurd (List.mem_cons.mpr (Or.inl same.1)) notTwo
  | cons first one ih =>
      cases two with
      | nil =>
          rw [List.nil_append, List.cons_append, List.cons.injEq] at same
          exact absurd (List.mem_cons.mpr (Or.inl same.1.symm)) notOne
      | cons other two =>
          rw [List.cons_append, List.cons_append, List.cons.injEq] at same
          rw [List.mem_cons, not_or] at notOne notTwo
          obtain ⟨rfl, rfl⟩ := ih notOne.2 notTwo.2 same.2
          exact ⟨by rw [same.1], rfl⟩

theorem notMem_toDigits {char : Char} (noDigit : char.isDigit = false) (number : Nat) :
    char ∉ Nat.toDigits 10 number := by
  intro isDigit
  rw [Nat.isDigit_of_mem_toDigits (by decide) (by decide) isDigit] at noDigit
  cases noDigit

theorem toDigits_inj {one two : Nat} (same : Nat.toDigits 10 one = Nat.toDigits 10 two) :
    one = two := by
  have values := congrArg (fun digits => Nat.ofDigitChars 10 digits 0) same
  simpa [Nat.ofDigitChars_ten_toDigits] using values

theorem opening_inj {width width' line line' column column' : Nat} {rest rest' : String}
    (same : opening width line column ++ rest = opening width' line' column' ++ rest') :
    width = width' ∧ line = line' ∧ column = column' ∧ rest = rest' := by
  have chars := congrArg String.toList same
  simp only [opening, margin, Nat.toString_eq_repr, String.toList_append, String.toList_ofList,
    Nat.toList_repr, String.reduceToList, List.append_assoc, List.cons_append, List.nil_append] at chars
  obtain ⟨blanks, chars⟩ := split_inj (by simp) (by simp) chars
  have widths : width = width' := by simpa using congrArg List.length blanks
  simp only [List.cons.injEq, true_and] at chars
  obtain ⟨lines, chars⟩ := split_inj (notMem_toDigits (by decide) _) (notMem_toDigits (by decide) _) chars
  obtain ⟨columns, chars⟩ :=
    split_inj (notMem_toDigits (by decide) _) (notMem_toDigits (by decide) _) chars
  subst widths
  simp only [List.cons.injEq, List.append_cancel_left_eq, true_and, String.toList_inj] at chars
  exact ⟨rfl, toDigits_inj lines, toDigits_inj columns, chars⟩

theorem opening_ne_empty (width line column : Nat) (rest : String) :
    opening width line column ++ rest ≠ "" := by
  intro isEmpty
  have chars := congrArg String.toList isEmpty
  simp only [opening, margin, String.toList_append, String.toList_ofList, List.replicate_succ,
    List.cons_append] at chars
  exact List.cons_ne_nil _ _ chars

/-! ### The source line -/

variable {rest onward : String}

theorem notMem_shownFrom (column : Nat) (line : List Char) : '\n' ∉ shownFrom column line := by
  induction line generalizing column with
  | nil => exact List.not_mem_nil
  | cons char line ih =>
      rw [shownFrom, List.mem_append, not_or]
      refine ⟨?_, ih _⟩
      split
      · simp
      · next visible =>
          rw [List.mem_singleton]
          rintro rfl
          exact visible rfl

/-- The bracket beside a line tells it from the line alone. -/
theorem numbered_ne_bracketed (width : Nat) (line : Line) :
    numbered width "" line ++ ("\n" ++ rest) ≠ numbered width "╭─▶ " line ++ ("\n" ++ onward) := by
  intro same
  have chars := congrArg String.toList same
  simp only [numbered, String.toList_append, String.toList_ofList, String.reduceToList,
    List.append_assoc, List.nil_append, List.cons_append] at chars
  simp only [List.cons.injEq, List.append_cancel_left_eq, true_and] at chars
  have visible := notMem_shownFrom 0 line.shown
  have parts : shownFrom 0 line.shown ++ '\n' :: rest.toList =
      (['╭', '─', '▶', ' '] ++ shownFrom 0 line.shown) ++ '\n' :: onward.toList := chars
  have lengths := congrArg List.length (split_inj visible (by simpa using visible) parts).1
  simp only [List.length_append, List.length_cons, List.length_nil] at lengths
  omega

/-- The number of a line tells it from a row without a number. -/
theorem numbered_ne_bar (width : Nat) (line : Line) :
    numbered (toString line.number).length "" line ++ rest ≠ margin width ++ ("│ " ++ onward) := by
  intro same
  have chars := congrArg String.toList same
  simp only [numbered, margin, Nat.sub_self, List.replicate_zero, Nat.toString_eq_repr,
    String.toList_append, String.toList_ofList, String.reduceToList, Nat.toList_repr,
    List.replicate_succ, List.append_assoc, List.nil_append, List.cons_append, List.cons.injEq,
    true_and] at chars
  have noBlank := notMem_toDigits (by decide : ' '.isDigit = false) line.number
  obtain ⟨digit, digits, isNumber⟩ :=
    List.exists_cons_of_ne_nil (Nat.toDigits_ne_nil (n := line.number) (b := 10))
  rw [isNumber, List.cons_append, List.cons.injEq] at chars
  rw [isNumber, chars.1] at noBlank
  exact noBlank List.mem_cons_self

/-! ### The marks -/

def columnsAt (shown : List Char) (position : Nat) : Nat :=
  match shown[position]? with
  | some char => columns position char
  | none => 1

def Line.columns (line : Line) (first count : Nat) : Nat :=
  ((List.range' first count).map (columnsAt line.shown)).sum

def cell (mark : Char × Char) (width : Nat) : List Char :=
  (mark.1 :: List.replicate width mark.2).take width

theorem length_cell (mark : Char × Char) (width : Nat) : (cell mark width).length = width := by
  simp [cell]

theorem eq_of_mem_cell {mark : Char × Char} {width : Nat} {char : Char}
    (among : char ∈ cell mark width) : char = mark.1 ∨ char = mark.2 := by
  have either := List.mem_of_mem_take among
  rw [List.mem_cons, List.mem_replicate] at either
  exact either.imp_right And.right

def cells (mark : Nat → Char × Char) (line : Line) (first count : Nat) : List Char :=
  (List.range' first count).flatMap fun position =>
    cell (mark position) (columnsAt line.shown position)

variable {mark : Nat → Char × Char} {line : Line} {first count : Nat}

theorem row_eq_cells (mark : Nat → Char × Char) (line : Line) (column count : Nat) :
    row mark column count (line.shown.drop column) = cells mark line column count := by
  induction count generalizing column with
  | zero => rfl
  | succ count ih =>
      have isNext : line.shown[column]? = (line.shown.drop column).head? := List.head?_drop.symm
      rw [cells, List.range'_succ, List.flatMap_cons, ← cells, ← ih, columnsAt, isNext,
        ← List.drop_drop]
      cases line.shown.drop column with
      | nil => rfl
      | cons char rest => rfl

theorem length_cells (mark : Nat → Char × Char) (line : Line) (first count : Nat) :
    (cells mark line first count).length = line.columns first count := by
  simp only [cells, List.length_flatMap, length_cell, Line.columns]

theorem cells_blank (clear : ∀ position, first ≤ position → position < first + count →
    mark position = (' ', ' ')) :
    cells mark line first count = List.replicate (line.columns first count) ' ' := by
  rw [List.eq_replicate_iff]
  refine ⟨length_cells mark line first count, fun char among => ?_⟩
  obtain ⟨position, range, inCell⟩ := List.mem_flatMap.mp among
  rw [List.mem_range'_1] at range
  rw [clear position range.1 range.2] at inCell
  exact (eq_of_mem_cell inCell).elim id id

variable {placement : Placement}

theorem underlineMark_outside {position : Nat} (some : 0 < placement.length)
    (outside : position < placement.column ∨ placement.column + placement.length ≤ position) :
    placement.underlineMark position = (' ', ' ') := by
  have notMiddle : position ≠ placement.middle := by
    rw [Placement.middle]
    omega
  have notUnder : placement.underlines position = false := by
    simp only [Placement.underlines, Bool.and_eq_false_iff, decide_eq_false_iff_not]
    omega
  rw [Placement.underlineMark, if_neg notMiddle, notUnder]
  rfl

theorem underlineMark_inside {position : Nat} (low : placement.column ≤ position)
    (high : position < placement.column + placement.length) :
    placement.underlineMark position = ('┬', '─') ∨ placement.underlineMark position = ('─', '─') := by
  have inside : placement.underlines position = true := by simp [Placement.underlines, low, high]
  rw [Placement.underlineMark, inside]
  by_cases isMiddle : position = placement.middle
  · exact Or.inl (by simp [isMiddle])
  · exact Or.inr (by simp [isMiddle])

/-- The marks below a line: nothing up to the range, then a mark in each of its columns, then
nothing. -/
theorem exists_underline (some : 0 < placement.length) (line : Line) :
    ∃ under behind, under.length = line.columns placement.column placement.length ∧
      (∀ mark ∈ under, mark = '─' ∨ mark = '┬') ∧
      row placement.underlineMark 0 placement.reach line.shown =
        List.replicate (line.columns 0 placement.column) ' ' ++ under ++ List.replicate behind ' ' := by
  have parts : cells placement.underlineMark line 0 placement.reach =
      cells placement.underlineMark line 0 placement.column ++
        cells placement.underlineMark line placement.column placement.length ++
        cells placement.underlineMark line (placement.column + placement.length) 2 := by
    have front := List.range'_append_1 (s := 0) (m := placement.column) (n := placement.length)
    have whole := List.range'_append_1 (s := 0) (m := placement.column + placement.length) (n := 2)
    rw [Nat.zero_add] at front whole
    rw [cells, cells, cells, cells, ← List.flatMap_append, front, ← List.flatMap_append, whole,
      Placement.reach]
  refine ⟨cells placement.underlineMark line placement.column placement.length,
    line.columns (placement.column + placement.length) 2, length_cells _ line _ _, ?_, ?_⟩
  · intro char among
    obtain ⟨position, range, inCell⟩ := List.mem_flatMap.mp among
    rw [List.mem_range'_1] at range
    rcases underlineMark_inside range.1 range.2 with isMark | isMark
    · rw [isMark] at inCell
      exact (eq_of_mem_cell inCell).symm
    · rw [isMark] at inCell
      exact Or.inl ((eq_of_mem_cell inCell).elim id id)
  · have all := row_eq_cells placement.underlineMark line 0 placement.reach
    rw [List.drop_zero, parts, cells_blank fun position _ high => underlineMark_outside some (by omega),
      cells_blank fun position low _ => underlineMark_outside some (Or.inr low)] at all
    exact all

variable {under under' : List Char} {before behind behind' : Nat}

/-- The marks of an underline are what is left of its row without the spaces. -/
theorem underline_inj (marks : ∀ mark ∈ under, mark = '─' ∨ mark = '┬')
    (marks' : ∀ mark ∈ under', mark = '─' ∨ mark = '┬')
    (same : List.replicate before ' ' ++ under ++ List.replicate behind ' ' =
      List.replicate before ' ' ++ under' ++ List.replicate behind' ' ') : under = under' := by
  have kept : ∀ marks : List Char, (∀ mark ∈ marks, mark = '─' ∨ mark = '┬') →
      marks.filter (· ≠ ' ') = marks := by
    intro marks isMark
    rw [List.filter_eq_self]
    intro mark among
    rcases isMark mark among with rfl | rfl <;> decide
  have filtered := congrArg (List.filter (· ≠ ' ')) same
  rw [List.filter_append, List.filter_append, List.filter_append, List.filter_append, kept _ marks,
    kept _ marks'] at filtered
  simpa using filtered

theorem notMem_underline (marks : ∀ mark ∈ under, mark = '─' ∨ mark = '┬') :
    '\n' ∉ List.replicate before ' ' ++ under ++ List.replicate behind ' ' := by
  simp only [List.mem_append, List.mem_replicate, not_or]
  refine ⟨⟨by simp, fun among => ?_⟩, by simp⟩
  rcases marks _ among with isMark | isMark <;> cases isMark

end Report

end ScriptTyping
