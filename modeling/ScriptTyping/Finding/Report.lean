import ScriptTyping.Finding.Diagnostic
import ScriptTyping.Text.Line
import ScriptTyping.Text.Width

/-!
Diagnostics as reports: a headline, the source line with the range underlined, help, and the
rejected candidates. The range of a report counts characters of the source. A range over several
lines is drawn as a bracket on their left.
-/

namespace ScriptTyping

namespace Report

structure Extent where
  start : Nat
  stop : Nat
  deriving DecidableEq, Repr

/-- The span cut to the length of the source in bytes; an empty span is widened by one where the
source has a further byte. -/
def extentOf (span : Span) (byteLength : Nat) : Extent :=
  let start := min span.start byteLength
  let stop := max (min span.stop byteLength) start
  if start = stop then ⟨start, min (stop + 1) byteLength⟩ else ⟨start, stop⟩

def endsLine (char : Char) : Bool :=
  char == '\n' || char == '\r' || char == '\x0b' || char == '\x0c' || char == '\u0085' ||
    char == '\u2028' || char == '\u2029'

def joinLineEnds : List (List Char) → List (List Char)
  | line :: ['\n'] :: rest =>
    if line.getLast? == some '\r' then (line ++ ['\n']) :: joinLineEnds rest
    else line :: ['\n'] :: joinLineEnds rest
  | line :: rest => line :: joinLineEnds rest
  | [] => []

def linesOf (source : String) : List (List Char) :=
  match joinLineEnds (cutAfter endsLine source.toList) with
  | [] => [[]]
  | lines => lines

structure Line where
  number : Nat
  start : Nat
  text : List Char
  deriving DecidableEq, Repr

def lineAt (offset number start : Nat) : List (List Char) → Line
  | [] => ⟨number, start, []⟩
  | [line] => ⟨number, start, line⟩
  | line :: rest =>
    if offset < start + line.length then ⟨number, start, line⟩
    else lineAt offset (number + 1) (start + line.length) rest

def Line.shown (line : Line) : List Char := trimBlankEnd line.text

structure Placement where
  extent : Extent
  first : Line
  last : Line
  deriving DecidableEq, Repr

/-- The placement of a range, unless it reaches further than one character beyond the source. -/
def place? (source : String) (extent : Extent) : Option Placement :=
  let final := max (extent.stop - 1) extent.start
  if source.length < final then none
  else
    let lines := linesOf source
    some ⟨extent, lineAt extent.start 1 0 lines, lineAt final 1 0 lines⟩

def columns (column : Nat) (char : Char) : Nat :=
  if char == '\t' then 4 - column % 4 else if isBlank char then 1 else Width.ofChar char

def shownFrom (column : Nat) : List Char → List Char
  | [] => []
  | char :: rest =>
    (if isBlank char then List.replicate (columns column char) ' ' else [char]) ++
      shownFrom (column + 1) rest

def row (mark : Nat → Char × Char) (column count : Nat) (line : List Char) : List Char :=
  match count with
  | 0 => []
  | count + 1 =>
    let width := match line with
      | [] => 1
      | char :: _ => columns column char
    let (first, filler) := mark column
    (first :: List.replicate width filler).take width ++ row mark (column + 1) count (line.drop 1)

namespace Placement

def column (placement : Placement) : Nat := placement.extent.start - placement.first.start

def length (placement : Placement) : Nat := placement.extent.stop - placement.extent.start

def isAcross (placement : Placement) : Bool := placement.first.number != placement.last.number

def isOutside (placement : Placement) : Bool :=
  placement.last.start + placement.last.text.length < placement.extent.stop

def middle (placement : Placement) : Nat := placement.column + placement.length / 2

def reach (placement : Placement) : Nat := placement.column + placement.length + 2

def underlines (placement : Placement) (column : Nat) : Bool :=
  placement.column ≤ column && column < placement.column + placement.length

def underlineMark (placement : Placement) (column : Nat) : Char × Char :=
  if column = placement.middle then if placement.underlines column then ('┬', '─') else ('│', ' ')
  else if placement.underlines column then ('─', '─')
  else (' ', ' ')

def labelMark (placement : Placement) (column : Nat) : Char × Char :=
  if column = placement.middle then ('╰', '─')
  else if placement.middle < column then ('─', '─')
  else (' ', ' ')

end Placement

def severityTitle : Severity → String
  | .error => "Error"
  | .warning => "Warning"

def severityLabel : Severity → String
  | .error => "here"
  | .warning => "this"

def noteLines (further : List (List Char)) : List String :=
  match further with
  | [] => []
  | _ =>
    let text := "\n".intercalate ("rejected candidates:" :: further.map fun line =>
      String.ofList (trimBlanks line))
    (textLines text).map String.ofList

def hanging (title : String) : List String → List String
  | [] => []
  | first :: rest =>
    (title ++ ": " ++ first) ::
      rest.map fun line => String.ofList (List.replicate (title.length + 2) ' ') ++ line

def margin (numberWidth : Nat) : String := String.ofList (List.replicate (numberWidth + 2) ' ')

def numbered (numberWidth : Nat) (edge : String) (line : Line) : String :=
  let number := toString line.number
  " " ++ String.ofList (List.replicate (numberWidth - number.length) ' ') ++ number ++ " │ " ++
    edge ++ String.ofList (shownFrom 0 line.shown)

def rowsInside (placement : Placement) (label : String) (numberWidth : Nat) : List String :=
  let bar := fun text : String => margin numberWidth ++ "│ " ++ text
  let marks := fun mark => String.ofList (row mark 0 placement.reach placement.first.shown)
  if placement.isOutside then [bar ""]
  else
    [numbered numberWidth "" placement.first,
      bar (marks placement.underlineMark),
      bar (marks placement.labelMark ++ " " ++ label)]

/-- The rows for a range over several lines. The lines between the first and the last are left out,
and so is the last when it does not hold the end of the range. -/
def rowsAcross (placement : Placement) (label : String) (numberWidth : Nat) : List String :=
  let last := placement.last
  let bar := fun text : String => margin numberWidth ++ "│ " ++ text
  let fill := fun mark : Char =>
    String.ofList (row (fun _ => (mark, mark)) 0 (last.text.length + 2) last.shown)
  let gap :=
    if placement.isOutside ∨ placement.first.number + 1 < last.number then
      [margin numberWidth ++ "┆ ┆   "]
    else []
  let ending :=
    if placement.isOutside then []
    else
      [numbered numberWidth "├─▶ " last, bar ("│   " ++ fill ' '),
        bar ("╰───" ++ fill '─' ++ " " ++ label)]
  numbered numberWidth "╭─▶ " placement.first :: gap ++ ending

def body (diagnostic : Diagnostic) (note : List String) (placement : Placement) : List String :=
  let numberWidth := (toString placement.last.number).length
  let margin := margin numberWidth
  let label := severityLabel diagnostic.severity
  let block := fun lines : List String => if lines.isEmpty then [] else "" :: lines
  [margin ++ "╭─[ <unknown>:" ++ toString placement.first.number ++ ":" ++
      toString (placement.column + 1) ++ " ]",
    margin ++ "│"] ++
  (if placement.isAcross then rowsAcross placement label numberWidth
    else rowsInside placement label numberWidth) ++
  (block (hanging "Help" diagnostic.help.toList) ++ block (hanging "Note" note)).map
    (fun line => margin ++ "│ " ++ line) ++
  [String.ofList (List.replicate (numberWidth + 2) '─') ++ "╯"]

end Report

def Diagnostic.report (diagnostic : Diagnostic) (source : String) : String :=
  let lines := textLines diagnostic.message
  let headline := "[" ++ diagnostic.code ++ "] " ++ Report.severityTitle diagnostic.severity ++
    ": " ++ String.ofList (lines.headD [])
  let extent := Report.extentOf diagnostic.span source.utf8ByteSize
  let body := match Report.place? source extent with
    | none => []
    | some placement => Report.body diagnostic (Report.noteLines (lines.drop 1)) placement
  String.join ((headline :: body).map fun line => line ++ "\n")

end ScriptTyping
