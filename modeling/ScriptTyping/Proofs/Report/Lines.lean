import ScriptTyping.Finding.Report

/-!
Lines of a report. The lines of a source together are the source, and the line at an offset is the
one that the character at this offset belongs to.
-/

namespace ScriptTyping

theorem flatten_cutAfter (ends : Char → Bool) (text : List Char) :
    (cutAfter ends text).flatten = text := by
  induction text with
  | nil => rfl
  | cons char rest ih =>
      rw [cutAfter]
      split
      · rw [List.flatten_cons, ih, List.singleton_append]
      · split
        · next isNil =>
            rw [isNil] at ih
            rw [← ih]
            rfl
        · next isCons =>
            rw [isCons, List.flatten_cons] at ih
            rw [List.flatten_cons, List.cons_append, ih]

namespace Report

theorem flatten_joinLineEnds (lines : List (List Char)) :
    (joinLineEnds lines).flatten = lines.flatten := by
  fun_induction joinLineEnds lines with
  | case1 line rest _ ih => simp [ih]
  | case2 line rest _ ih => simp [ih]
  | case3 line rest _ ih => simp [ih]
  | case4 => rfl

theorem flatten_linesOf (source : String) : (linesOf source).flatten = source.toList := by
  have whole := flatten_joinLineEnds (cutAfter endsLine source.toList)
  rw [flatten_cutAfter] at whole
  rw [linesOf]
  split
  · next isNil => rw [← whole, isNil]; rfl
  · exact whole

theorem linesOf_ne_nil (source : String) : linesOf source ≠ [] := by
  rw [linesOf]
  split
  · exact List.cons_ne_nil _ _
  · assumption

/-! ### Line ends -/

section LineEnds

def lineEnds : List Char → Nat
  | '\r' :: '\n' :: rest => lineEnds rest + 1
  | char :: rest => lineEnds rest + (endsLine char).toNat
  | [] => 0

variable {line : List Char} {rest before after : List (List Char)}

theorem joinLineEnds_cons (apart : line.getLast? = some '\r' → rest.head? ≠ some ['\n']) :
    joinLineEnds (line :: rest) = line :: joinLineEnds rest := by
  induction rest generalizing line with
  | nil => rfl
  | cons next rest ih =>
      by_cases isFeed : next = ['\n']
      · subst isFeed
        have noReturn : line.getLast? ≠ some '\r' := fun isReturn => apart isReturn rfl
        rw [joinLineEnds, if_neg (by simpa using noReturn), ih (by simp)]
      · rw [joinLineEnds]
        simpa using isFeed

/-- A character in front of a line stays there. -/
theorem joinLineEnds_cons_cons (char : Char) (some : line ≠ []) (rest : List (List Char)) :
    ∃ first others, joinLineEnds (line :: rest) = first :: others ∧
      joinLineEnds ((char :: line) :: rest) = (char :: first) :: others := by
  have last : (char :: line).getLast? = line.getLast? := by
    rw [List.getLast?_cons, List.getLast?_eq_some_getLast some]
    rfl
  by_cases joins : line.getLast? = .some '\r' ∧ rest.head? = .some ['\n']
  · obtain ⟨isReturn, isFeed⟩ := joins
    obtain ⟨rest, rfl⟩ := List.head?_eq_some_iff.mp isFeed
    refine ⟨line ++ ['\n'], joinLineEnds rest, ?_, ?_⟩
    · rw [joinLineEnds, if_pos (by simpa using isReturn)]
    · rw [joinLineEnds, last, if_pos (by simpa using isReturn)]
      rfl
  · rw [not_and] at joins
    exact ⟨line, joinLineEnds rest, joinLineEnds_cons joins, joinLineEnds_cons (last ▸ joins)⟩

theorem exists_cutAfter_cons (ends : Char → Bool) (char : Char) (rest : List Char) :
    ∃ piece pieces, cutAfter ends (char :: rest) = (char :: piece) :: pieces := by
  rw [cutAfter]
  split
  · exact ⟨[], _, rfl⟩
  · split
    · exact ⟨[], [], rfl⟩
    · exact ⟨_, _, rfl⟩

variable {char : Char} {text : List Char}

theorem lineEnds_cons (noPair : ∀ rest, char = '\r' → text = '\n' :: rest → False) :
    lineEnds (char :: text) = lineEnds text + (endsLine char).toNat := by
  rw [lineEnds]
  exact noPair

/-- A line end that no line feed completes is a line of its own. -/
theorem lines_cons_of_ends (ends : endsLine char = true)
    (noPair : ∀ rest, char = '\r' → text = '\n' :: rest → False) :
    joinLineEnds (cutAfter endsLine (char :: text)) =
      [char] :: joinLineEnds (cutAfter endsLine text) := by
  rw [cutAfter, if_pos ends, joinLineEnds_cons]
  intro isReturn isFeed
  cases text with
  | nil => cases isFeed
  | cons next rest =>
      obtain ⟨piece, pieces, isCut⟩ := exists_cutAfter_cons endsLine next rest
      rw [isCut, List.head?_cons, Option.some.injEq, List.cons.injEq] at isFeed
      exact noPair rest (by simpa using isReturn) (by rw [isFeed.1])

/-- Another character belongs to the line after it. -/
theorem lines_cons_of_not_ends (other : endsLine char = false) :
    joinLineEnds (cutAfter endsLine (char :: text)) =
      match joinLineEnds (cutAfter endsLine text) with
      | [] => [[char]]
      | first :: others => (char :: first) :: others := by
  have notEnds : ¬ endsLine char = true := by simp [other]
  cases text with
  | nil => simp [cutAfter, other, joinLineEnds]
  | cons next rest =>
      obtain ⟨piece, pieces, isCut⟩ := exists_cutAfter_cons endsLine next rest
      obtain ⟨first, others, isJoined, isLonger⟩ :=
        joinLineEnds_cons_cons char (List.cons_ne_nil next piece) pieces
      rw [cutAfter, if_neg notEnds, isCut, isJoined]
      exact isLonger

/-- Before a line of a text as many lines end as there are. -/
theorem lineEnds_flatten
    (isLine : joinLineEnds (cutAfter endsLine text) = before ++ line :: after) :
    lineEnds before.flatten = before.length := by
  induction text using lineEnds.induct generalizing before line with
  | case1 rest ih =>
      cases before with
      | nil => rfl
      | cons first before =>
          obtain ⟨rfl, isLater⟩ := List.cons.inj isLine
          rw [List.length_cons, ← ih isLater]
          rfl
  | case2 char rest noPair ih =>
      cases before with
      | nil => rfl
      | cons first before =>
          cases ends : endsLine char with
          | true =>
              rw [lines_cons_of_ends ends noPair, List.cons_append, List.cons.injEq] at isLine
              obtain ⟨rfl, isLater⟩ := isLine
              have whole : before.flatten ++ (line ++ after.flatten) = rest := by
                rw [← List.flatten_cons, ← List.flatten_append, ← isLater, flatten_joinLineEnds,
                  flatten_cutAfter]
              have stillNoPair : ∀ later, char = '\r' → before.flatten = '\n' :: later → False := by
                intro later isReturn isFeed
                rw [isFeed, List.cons_append] at whole
                exact noPair _ isReturn whole.symm
              rw [List.flatten_cons, List.singleton_append, lineEnds_cons stillNoPair, ih isLater, ends]
              rfl
          | false =>
              rw [lines_cons_of_not_ends ends] at isLine
              split at isLine
              · have none : [] = before ++ line :: after := (List.cons.inj isLine).2
                simp at none
              · next shorter others isShorter =>
                  rw [List.cons_append, List.cons.injEq] at isLine
                  obtain ⟨rfl, rfl⟩ := isLine
                  have noReturn : char ≠ '\r' := by
                    rintro rfl
                    cases ends
                  have fewer : lineEnds (shorter :: before).flatten = (shorter :: before).length :=
                    ih isShorter
                  rw [List.flatten_cons, List.cons_append, ← List.flatten_cons,
                    lineEnds_cons fun _ isReturn => absurd isReturn noReturn, fewer, ends]
                  rfl
  | case3 =>
      cases before with
      | nil => rfl
      | cons first before => cases isLine

end LineEnds

/-! ### Lines -/

structure Site (source : String) where
  before : List (List Char)
  text : List Char
  after : List (List Char)
  isLine : linesOf source = before ++ text :: after

namespace Site

variable {source : String} {offset first count : Nat} {site other : Site source}

def number (site : Site source) : Nat := site.before.length + 1

def start (site : Site source) : Nat := site.before.flatten.length

def line (site : Site source) : Line := ⟨site.number, site.start, site.text⟩

def Holds (site : Site source) (first count : Nat) : Prop :=
  site.start ≤ first ∧ first + count ≤ site.start + site.text.length

theorem stop_le (site : Site source) : site.start + site.text.length ≤ source.length := by
  have whole := congrArg List.length (flatten_linesOf source)
  rw [site.isLine, List.flatten_append, List.flatten_cons, List.length_append, List.length_append,
    String.length_toList] at whole
  unfold start
  omega

theorem Holds.stop_le (holds : site.Holds first count) : first + count ≤ source.length :=
  Nat.le_trans holds.2 site.stop_le

theorem line_inj (same : site.number = other.number) : site.line = other.line := by
  have lengths : site.before.length = other.before.length := Nat.succ.inj same
  have parts := List.append_inj (site.isLine.symm.trans other.isLine) lengths
  rw [line, line, start, start, same, parts.1, (List.cons.inj parts.2).1]

/-- The number of a line is one more than the number of line ends before it. -/
theorem number_eq (site : Site source) :
    site.number = lineEnds (source.toList.take site.start) + 1 := by
  have isBefore : source.toList.take site.start = site.before.flatten := by
    rw [← flatten_linesOf, site.isLine, List.flatten_append, start, List.take_left]
  have isLine := site.isLine
  rw [linesOf] at isLine
  rw [isBefore, number]
  split at isLine
  · cases isBlank : site.before with
    | nil => rfl
    | cons first before => simp [isBlank] at isLine
  · rw [lineEnds_flatten isLine]

end Site

/-! ### The line at an offset -/

variable {offset number start : Nat}

theorem lineAt_append {before next : List (List Char)} (some : next ≠ [])
    (reached : start + before.flatten.length ≤ offset) :
    lineAt offset number start (before ++ next) =
      lineAt offset (number + before.length) (start + before.flatten.length) next := by
  induction before generalizing number start with
  | nil => rfl
  | cons line before ih =>
      rw [List.flatten_cons, List.length_append] at reached
      have onward : before ++ next ≠ [] := by simp [some]
      rw [List.cons_append, lineAt, if_neg (by omega), ih (by omega), List.flatten_cons,
        List.length_append, List.length_cons, Nat.add_right_comm number, Nat.add_assoc start,
        Nat.add_assoc number]
      exact fun isNil => onward isNil

theorem lineAt_cons {line : List Char} (rest : List (List Char))
    (inside : offset < start + line.length) :
    lineAt offset number start (line :: rest) = ⟨number, start, line⟩ := by
  cases rest with
  | nil => rfl
  | cons next rest => rw [lineAt, if_pos inside]; exact List.cons_ne_nil _ _

/-- Every offset has a line, which begins before it. -/
theorem exists_lineAt {lines : List (List Char)} (some : lines ≠ []) (reached : start ≤ offset) :
    ∃ before text after, lines = before ++ text :: after ∧
      lineAt offset number start lines =
        ⟨number + before.length, start + before.flatten.length, text⟩ ∧
      start + before.flatten.length ≤ offset := by
  fun_induction lineAt offset number start lines with
  | case1 => contradiction
  | case2 number start line => exact ⟨[], line, [], rfl, rfl, reached⟩
  | case3 number start line rest _ _ => exact ⟨[], line, rest, rfl, rfl, reached⟩
  | case4 number start line rest isCons beyond ih =>
      obtain ⟨before, text, after, isLine, found, begins⟩ := ih (fun isNil => isCons isNil) (by omega)
      refine ⟨line :: before, text, after, by rw [isLine, List.cons_append], ?_, ?_⟩
      · rw [found, List.length_cons, List.flatten_cons, List.length_append, Nat.add_assoc number,
          Nat.add_comm 1, Nat.add_assoc start]
      · rw [List.flatten_cons, List.length_append]
        omega

namespace Site

variable {source : String} {first count : Nat}

theorem lineAt_eq (site : Site source) (begins : site.start ≤ offset)
    (inside : offset < site.start + site.text.length) :
    lineAt offset 1 0 (linesOf source) = site.line := by
  unfold start at begins inside
  rw [site.isLine, lineAt_append (List.cons_ne_nil _ _) (by omega), lineAt_cons _ (by omega), line,
    number, start, Nat.add_comm, Nat.zero_add]

theorem exists_of_offset (source : String) (offset : Nat) :
    ∃ site : Site source, lineAt offset 1 0 (linesOf source) = site.line ∧ site.start ≤ offset := by
  obtain ⟨before, text, after, isLine, found, begins⟩ :=
    exists_lineAt (linesOf_ne_nil source) (Nat.zero_le offset)
  rw [Nat.zero_add] at begins
  refine ⟨⟨before, text, after, isLine⟩, ?_, begins⟩
  rw [found, line, number, start, Nat.add_comm, Nat.zero_add]

end Site

end Report

end ScriptTyping
