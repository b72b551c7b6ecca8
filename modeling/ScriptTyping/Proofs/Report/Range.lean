import ScriptTyping.Proofs.Report.Lines
import ScriptTyping.Proofs.Report.Marks
import ScriptTyping.Proofs.Text.LineIndex

/-!
What a report says about a range. Spans count bytes and reports count characters, and nothing
translates between the two. So the place is right if and only if the text before the span is ASCII,
and otherwise the report shows the characters whose numbers are the byte offsets of the span.
-/

namespace ScriptTyping

/-! ### Bytes and characters -/

def IsAscii (text : String) : Prop := ∀ char ∈ text.toList, char.toNat < 128

theorem length_encoding (chars : List Char) :
    chars.length ≤ (chars.flatMap String.utf8EncodeChar).length ∧
      ((chars.flatMap String.utf8EncodeChar).length = chars.length ↔
        ∀ char ∈ chars, char.toNat < 128) := by
  induction chars with
  | nil => simp
  | cons char chars ih =>
      obtain ⟨more, exact⟩ := ih
      have positive : 0 < char.utf8Size := Char.utf8Size_pos char
      have one : char.utf8Size = 1 ↔ char.toNat < 128 := by
        rw [Char.utf8Size_eq_one_iff, UInt32.le_iff_toNat_le]
        exact Nat.lt_succ_iff.symm
      rw [List.flatMap_cons, List.length_append, String.length_utf8EncodeChar, List.length_cons,
        List.forall_mem_cons, ← one, ← exact]
      omega

theorem utf8ByteSize_eq_length_iff {text : String} :
    text.utf8ByteSize = text.length ↔ IsAscii text := by
  rw [← length_bytesOf, bytesOf_eq, ← String.length_toList]
  exact (length_encoding text.toList).2

namespace Diagnostic

def headline (diagnostic : Diagnostic) : String :=
  "[" ++ diagnostic.code ++ "] " ++ Report.severityTitle diagnostic.severity ++ ": " ++
    String.ofList ((textLines diagnostic.message).headD [])

def Locates (diagnostic : Diagnostic) (source : String) (line column : Nat) : Prop :=
  ∃ numberWidth rest, diagnostic.report source =
    diagnostic.headline ++ "\n" ++ (Report.opening numberWidth line column ++ rest)

/-- Whether the report gives the place of `count` characters of a line from the offset `first` on and
underlines these: below the line stand marks, in the columns of these characters and nowhere else. -/
def Shows (diagnostic : Diagnostic) {source : String} (site : Report.Site source)
    (first count : Nat) : Prop :=
  let numberWidth := (toString site.number).length
  let position := first - site.start
  ∃ under behind rest, under.length = site.line.columns position count ∧
    (∀ mark ∈ under, mark = '─' ∨ mark = '┬') ∧
    diagnostic.report source =
      diagnostic.headline ++ "\n" ++ (Report.opening numberWidth site.number (position + 1) ++
        (Report.numbered numberWidth "" site.line ++ "\n" ++
          (Report.margin numberWidth ++ "│ " ++
            String.ofList (List.replicate (site.line.columns 0 position) ' ' ++ under ++
              List.replicate behind ' ') ++ "\n" ++ rest)))

theorem Shows.locates {diagnostic : Diagnostic} {source : String} {site : Report.Site source}
    {first count : Nat} (shows : diagnostic.Shows site first count) :
    diagnostic.Locates source site.number (first - site.start + 1) := by
  obtain ⟨under, behind, rest, _, _, isReport⟩ := shows
  exact ⟨_, _, isReport⟩

structure ReadsAsCharacters (diagnostic : Diagnostic) (source : String) : Prop where
  place : ∀ site : Report.Site source, site.Holds diagnostic.span.start 1 →
    diagnostic.span.stop ≤ source.length + 1 →
    diagnostic.Locates source site.number (diagnostic.span.start - site.start + 1)
  underline : ∀ site : Report.Site source, site.Holds diagnostic.span.start diagnostic.span.length →
    diagnostic.Shows site diagnostic.span.start diagnostic.span.length
  beyond : source.length + 1 < diagnostic.span.stop →
    diagnostic.report source = diagnostic.headline ++ "\n"

/-! ### The placement -/

variable {diagnostic : Diagnostic} {source : String} {site : Report.Site source} {first count : Nat}

def placement (diagnostic : Diagnostic) (source : String) : Report.Placement where
  extent := ⟨diagnostic.span.start, diagnostic.span.stop⟩
  first := Report.lineAt diagnostic.span.start 1 0 (Report.linesOf source)
  last := Report.lineAt (diagnostic.span.stop - 1) 1 0 (Report.linesOf source)

def rows (diagnostic : Diagnostic) (source : String) : List String :=
  let placement := diagnostic.placement source
  let label := Report.severityLabel diagnostic.severity
  let numberWidth := (toString placement.last.number).length
  if placement.isAcross then Report.rowsAcross placement label numberWidth
  else Report.rowsInside placement label numberWidth

theorem rows_across (across : (diagnostic.placement source).isAcross = true) :
    ∃ below, diagnostic.rows source =
      Report.numbered (toString (diagnostic.placement source).last.number).length "╭─▶ "
        (diagnostic.placement source).first :: below := by
  simp only [rows, across, if_true, Report.rowsAcross, List.cons_append]
  exact ⟨_, rfl⟩

theorem rows_outside (notAcross : (diagnostic.placement source).isAcross = false)
    (outside : (diagnostic.placement source).isOutside = true) :
    diagnostic.rows source =
      [Report.margin (toString (diagnostic.placement source).last.number).length ++ "│ "] := by
  simp only [rows, notAcross, Bool.false_eq_true, if_false, Report.rowsInside, outside, if_true,
    String.append_empty]

theorem exists_body (diagnostic : Diagnostic) (source : String) (note : List String) :
    ∃ below, Report.body diagnostic note (diagnostic.placement source) =
      [Report.margin (toString (diagnostic.placement source).last.number).length ++ "╭─[ <unknown>:" ++
          toString (diagnostic.placement source).first.number ++ ":" ++
          toString ((diagnostic.placement source).column + 1) ++ " ]",
        Report.margin (toString (diagnostic.placement source).last.number).length ++ "│"] ++
      (diagnostic.rows source ++ below) := by
  simp only [Report.body, List.append_assoc]
  exact ⟨_, rfl⟩

theorem column_eq (isFirst : (diagnostic.placement source).first = site.line) :
    (diagnostic.placement source).column = diagnostic.span.start - site.start := by
  rw [Report.Placement.column, isFirst]
  rfl

/-- The placement is drawn inside one line if and only if the line has all characters of the range. -/
theorem isInside_iff (some : diagnostic.span.start < diagnostic.span.stop)
    (isFirst : (diagnostic.placement source).first = site.line)
    (begins : site.start ≤ diagnostic.span.start) :
    (diagnostic.placement source).isAcross = false ∧ (diagnostic.placement source).isOutside = false ↔
      site.Holds diagnostic.span.start diagnostic.span.length := by
  obtain ⟨last, isLast, _⟩ := Report.Site.exists_of_offset source (diagnostic.span.stop - 1)
  have isLast : (diagnostic.placement source).last = last.line := isLast
  simp only [Report.Placement.isAcross, Report.Placement.isOutside, isFirst, isLast,
    bne_eq_false_iff_eq, decide_eq_false_iff_not, Report.Site.Holds, Span.length]
  constructor
  · rintro ⟨sameNumber, enough⟩
    rw [← Report.Site.line_inj sameNumber] at enough
    have enough : ¬ site.start + site.text.length < diagnostic.span.stop := enough
    omega
  · rintro ⟨_, enough⟩
    have sameLine : last.line = site.line :=
      isLast.symm.trans (site.lineAt_eq (by omega) (by omega))
    rw [sameLine]
    have enough : ¬ site.start + site.text.length < diagnostic.span.stop := by omega
    exact ⟨rfl, enough⟩

section InSource

variable (some : diagnostic.span.start < diagnostic.span.stop)
  (within : diagnostic.span.stop ≤ source.utf8ByteSize)

include some within

theorem report_eq :
    diagnostic.report source =
      diagnostic.headline ++ "\n" ++ (if source.length < diagnostic.span.stop - 1 then ""
        else String.join ((Report.body diagnostic
          (Report.noteLines ((textLines diagnostic.message).drop 1))
          (diagnostic.placement source)).map fun line => line ++ "\n")) := by
  have extent : Report.extentOf diagnostic.span source.utf8ByteSize =
      ⟨diagnostic.span.start, diagnostic.span.stop⟩ := by
    simp only [Report.extentOf]
    rw [Nat.min_eq_left (by omega), Nat.min_eq_left within, Nat.max_eq_left (by omega),
      if_neg (by omega)]
  have final : max (diagnostic.span.stop - 1) diagnostic.span.start = diagnostic.span.stop - 1 :=
    Nat.max_eq_left (by omega)
  simp only [report, extent, Report.place?, final]
  by_cases far : source.length < diagnostic.span.stop - 1
  · simp only [far, if_true, List.map_cons, List.map_nil, String.join_cons, String.join_nil]
    rfl
  · simp only [far, if_false, List.map_cons, String.join_cons]
    rfl

theorem exists_report (near : diagnostic.span.stop ≤ source.length + 1) :
    ∃ rest, diagnostic.report source = diagnostic.headline ++ "\n" ++
      (Report.opening (toString (diagnostic.placement source).last.number).length
        (diagnostic.placement source).first.number ((diagnostic.placement source).column + 1) ++
        (String.join ((diagnostic.rows source).map (· ++ "\n")) ++ rest)) := by
  obtain ⟨below, isBody⟩ := diagnostic.exists_body source
    (Report.noteLines ((textLines diagnostic.message).drop 1))
  have ending : " ]" ++ "\n" = " ]\n" := rfl
  refine ⟨String.join (below.map (· ++ "\n")), ?_⟩
  rw [report_eq some within, if_neg (by omega), isBody, Report.opening, ← ending]
  simp only [List.map_append, String.join_append, List.map_cons, List.map_nil, String.join_cons,
    String.join_nil, String.append_assoc, String.append_empty]
  rfl

/-- A span whose offsets are those of characters of one line gets these characters shown. -/
theorem shows_of_holds (holds : site.Holds diagnostic.span.start diagnostic.span.length) :
    diagnostic.Shows site diagnostic.span.start diagnostic.span.length := by
  have near : diagnostic.span.start + diagnostic.span.length ≤ source.length := holds.stop_le
  have ends : diagnostic.span.start + diagnostic.span.length = diagnostic.span.stop :=
    Nat.add_sub_cancel' (Nat.le_of_lt some)
  have isFirst : (diagnostic.placement source).first = site.line :=
    site.lineAt_eq holds.1 (by have := holds.2; omega)
  have isInside := (isInside_iff some isFirst holds.1).mpr holds
  have column := column_eq isFirst
  have lastNumber : (diagnostic.placement source).last.number = site.number := by
    have same : (diagnostic.placement source).first.number =
        (diagnostic.placement source).last.number := by
      simpa [Report.Placement.isAcross] using isInside.1
    rw [← same, isFirst]
    rfl
  have length : (diagnostic.placement source).length = diagnostic.span.length := rfl
  have positive : 0 < (diagnostic.placement source).length := Nat.sub_pos_of_lt some
  obtain ⟨under, behind, covers, marks, isRow⟩ := Report.exists_underline positive site.line
  obtain ⟨rest, isReport⟩ := exists_report some within (by omega)
  rw [column] at covers isRow
  rw [length] at covers
  obtain ⟨label, isRows⟩ : ∃ label, diagnostic.rows source =
      [Report.numbered (toString site.number).length "" site.line,
        Report.margin (toString site.number).length ++ "│ " ++ String.ofList (Report.row
          (diagnostic.placement source).underlineMark 0 (diagnostic.placement source).reach
          site.line.shown), label] := by
    simp only [rows, isInside.1, Report.rowsInside, isInside.2, isFirst, lastNumber]
    exact ⟨_, rfl⟩
  refine ⟨under, behind, label ++ "\n" ++ rest, covers, marks, ?_⟩
  rw [isReport, isRows, isFirst, lastNumber, column, isRow]
  simp only [List.map_cons, List.map_nil, String.join_cons, String.join_nil, String.append_assoc,
    String.empty_append]
  rfl

/-- A place determines the offset. -/
theorem Locates.start_eq (begins : site.start ≤ first)
    (locates : diagnostic.Locates source site.number (first - site.start + 1)) :
    diagnostic.span.stop ≤ source.length + 1 ∧ diagnostic.span.start = first ∧
      (diagnostic.placement source).first = site.line := by
  obtain ⟨width, rest, isReport⟩ := locates
  have near : diagnostic.span.stop ≤ source.length + 1 := by
    by_contra far
    rw [report_eq some within, if_pos (by omega), String.append_right_inj] at isReport
    exact Report.opening_ne_empty _ _ _ _ isReport.symm
  obtain ⟨behind, isDrawn⟩ := exists_report some within near
  rw [isDrawn, String.append_right_inj] at isReport
  obtain ⟨_, sameNumber, sameColumn, _⟩ := Report.opening_inj isReport
  obtain ⟨other, found, otherBegins⟩ := Report.Site.exists_of_offset source diagnostic.span.start
  have isFirst : (diagnostic.placement source).first = other.line := found
  rw [isFirst] at sameNumber
  have sameLine : other.line = site.line := Report.Site.line_inj sameNumber
  rw [sameLine] at isFirst
  have sameStart : other.start = site.start := congrArg Report.Line.start sameLine
  have column := column_eq isFirst
  refine ⟨near, ?_, isFirst⟩
  omega

theorem locates_iff (begins : site.start ≤ first)
    (inside : first < site.start + site.text.length) :
    diagnostic.Locates source site.number (first - site.start + 1) ↔
      diagnostic.span.start = first ∧ diagnostic.span.stop ≤ source.length + 1 := by
  constructor
  · intro locates
    obtain ⟨near, isStart, _⟩ := locates.start_eq some within begins
    exact ⟨isStart, near⟩
  · rintro ⟨rfl, near⟩
    have isFirst : (diagnostic.placement source).first = site.line := site.lineAt_eq begins inside
    obtain ⟨rest, isReport⟩ := exists_report some within near
    rw [column_eq isFirst, isFirst] at isReport
    exact ⟨_, _, isReport⟩

theorem Shows.holds (begins : site.start ≤ first)
    (shows : diagnostic.Shows site first count) :
    diagnostic.span.start = first ∧
      site.Holds diagnostic.span.start diagnostic.span.length := by
  obtain ⟨near, isStart, isFirst⟩ := shows.locates.start_eq some within begins
  obtain ⟨under, behind, rest, _, _, isReport⟩ := shows
  obtain ⟨below, isDrawn⟩ := exists_report some within near
  rw [isDrawn, String.append_right_inj] at isReport
  obtain ⟨sameWidth, _, _, sameRows⟩ := Report.opening_inj isReport
  -- Below the place stands the line with its number. Neither of the other forms begins so.
  have notAcross : (diagnostic.placement source).isAcross = false := by
    rw [Bool.eq_false_iff]
    intro across
    obtain ⟨others, isRows⟩ := rows_across across
    simp only [isRows, isFirst, sameWidth, List.map_cons, String.join_cons, String.append_assoc] at sameRows
    exact Report.numbered_ne_bracketed _ site.line sameRows.symm
  have notOutside : (diagnostic.placement source).isOutside = false := by
    rw [Bool.eq_false_iff]
    intro outside
    simp only [rows_outside notAcross outside, sameWidth, List.map_cons, String.join_cons,
      String.append_assoc] at sameRows
    exact Report.numbered_ne_bar _ site.line sameRows.symm
  exact ⟨isStart, (isInside_iff some isFirst (isStart ▸ begins)).mp ⟨notAcross, notOutside⟩⟩

theorem shows_iff (begins : site.start ≤ first) :
    diagnostic.Shows site first count ↔ diagnostic.span.start = first ∧
      site.Holds first diagnostic.span.length ∧
      site.line.columns (first - site.start) diagnostic.span.length =
        site.line.columns (first - site.start) count := by
  constructor
  · intro shows
    obtain ⟨rfl, holds⟩ := shows.holds some within begins
    refine ⟨rfl, holds, ?_⟩
    obtain ⟨under, behind, rest, covers, marks, isReport⟩ := shows
    obtain ⟨drawn, past, below, coversAll, marked, isDrawn⟩ := shows_of_holds some within holds
    rw [isDrawn] at isReport
    simp only [String.append_assoc, String.append_right_inj] at isReport
    have chars := congrArg String.toList isReport
    simp only [String.toList_append, String.toList_ofList, String.reduceToList, List.cons_append,
      List.nil_append] at chars
    have rows := (Report.split_inj (Report.notMem_underline marked) (Report.notMem_underline marks) chars).1
    rw [← coversAll, ← covers, Report.underline_inj marked marks rows]
  · rintro ⟨rfl, holds, sameColumns⟩
    obtain ⟨under, behind, rest, covers, shown⟩ := shows_of_holds some within holds
    exact ⟨under, behind, rest, covers.trans sameColumns, shown⟩

theorem readsAsCharacters : diagnostic.ReadsAsCharacters source where
  place _ holds near := (locates_iff some within holds.1 (by have := holds.2; omega)).mpr ⟨rfl, near⟩
  underline _ := shows_of_holds some within
  beyond far := by rw [report_eq some within, if_pos (by omega), String.append_empty]

end InSource

/-- For a span of bytes that covers some characters of one line, the report gives the place of the
first of them exactly when all characters before it are ASCII (and the span does not end, by its
number of bytes, behind the source). It shows the covered characters exactly when, besides, as many
characters of the line as they have bytes fill the same columns, which is so for ASCII. -/
theorem report_shows {lead covered rest : String} (cut : source = lead ++ covered ++ rest)
    (some : covered ≠ "")
    (range : diagnostic.span = ⟨lead.utf8ByteSize, (lead ++ covered).utf8ByteSize⟩)
    (inLine : site.Holds lead.length covered.length) :
    (diagnostic.Locates source (Report.lineEnds (source.toList.take site.start) + 1)
        (lead.length - site.start + 1) ↔
      IsAscii lead ∧ lead.length + covered.utf8ByteSize ≤ source.length + 1) ∧
    (diagnostic.Shows site lead.length covered.length ↔
      IsAscii lead ∧ site.Holds lead.length covered.utf8ByteSize ∧
        site.line.columns (lead.length - site.start) covered.utf8ByteSize =
          site.line.columns (lead.length - site.start) covered.length) ∧
    (IsAscii lead → IsAscii covered → diagnostic.Shows site lead.length covered.length) ∧
    diagnostic.ReadsAsCharacters source := by
  have start : diagnostic.span.start = lead.utf8ByteSize := congrArg Span.start range
  have stop : diagnostic.span.stop = lead.utf8ByteSize + covered.utf8ByteSize := by
    rw [range, String.utf8ByteSize_append]
  have length : diagnostic.span.length = covered.utf8ByteSize := by
    rw [Span.length, start, stop, Nat.add_sub_cancel_left]
  have bytes : 0 < covered.utf8ByteSize :=
    Nat.pos_of_ne_zero fun isZero => some (String.utf8ByteSize_eq_zero_iff.mp isZero)
  have chars : 0 < covered.length :=
    Nat.pos_of_ne_zero fun isZero => some (String.length_eq_zero_iff.mp isZero)
  have ordered : diagnostic.span.start < diagnostic.span.stop := by omega
  have within : diagnostic.span.stop ≤ source.utf8ByteSize := by
    rw [stop, cut, String.utf8ByteSize_append, String.utf8ByteSize_append]
    omega
  have inside : lead.length < site.start + site.text.length := by
    have := inLine.2
    omega
  have isShown : diagnostic.Shows site lead.length covered.length ↔
      IsAscii lead ∧ site.Holds lead.length covered.utf8ByteSize ∧
        site.line.columns (lead.length - site.start) covered.utf8ByteSize =
          site.line.columns (lead.length - site.start) covered.length := by
    rw [shows_iff ordered within inLine.1, start, utf8ByteSize_eq_length_iff, length]
  refine ⟨?_, isShown, fun plain plainCovered => isShown.mpr ?_, readsAsCharacters ordered within⟩
  · rw [← site.number_eq, locates_iff ordered within inLine.1 inside, start,
      utf8ByteSize_eq_length_iff, stop]
    refine and_congr_right fun plain => ?_
    rw [utf8ByteSize_eq_length_iff.mpr plain]
  · rw [utf8ByteSize_eq_length_iff.mpr plainCovered]
    exact ⟨plain, inLine, rfl⟩

def atName : Diagnostic := CheckError.diagnostic ⟨.undefinedName "y", ⟨5, 6⟩⟩

def accented : Report.Site "é = y + 1" := ⟨[], "é = y + 1".toList, [], by decide⟩

/-- The report gives column 6 and underlines the space after the name. -/
theorem report_shows_accented :
    ("é = y + 1" = "é = " ++ "y" ++ " + 1" ∧ "y" ≠ "" ∧
      atName.span = ⟨"é = ".utf8ByteSize, ("é = " ++ "y").utf8ByteSize⟩ ∧
      accented.Holds "é = ".length "y".length) ∧
    ¬ atName.Locates "é = y + 1" 1 5 ∧ ¬ atName.Shows accented 4 1 ∧
      atName.Locates "é = y + 1" 1 6 ∧ atName.Shows accented 5 1 := by
  have cut : "é = y + 1" = "é = " ++ "y" ++ " + 1" := by decide
  have some : "y" ≠ "" := by decide
  have range : atName.span = ⟨"é = ".utf8ByteSize, ("é = " ++ "y").utf8ByteSize⟩ := by decide
  have inLine : accented.Holds "é = ".length "y".length := ⟨by decide, by decide⟩
  have notAscii : ¬ IsAscii "é = " := fun ascii => absurd (ascii 'é' (by decide)) (by decide)
  obtain ⟨place, underline, _, reads⟩ := report_shows cut some range inLine
  have shows : atName.Shows accented 5 1 := reads.underline accented ⟨by decide, by decide⟩
  exact ⟨⟨cut, some, range, inLine⟩, fun located => notAscii (place.mp located).1,
    fun shown => notAscii (underline.mp shown).1, shows.locates, shows⟩

end Diagnostic

end ScriptTyping
