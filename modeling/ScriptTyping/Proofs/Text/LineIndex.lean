import Mathlib.Algebra.Group.Nat.Defs
import Mathlib.Data.List.DropRight
import ScriptTyping.Text.LineIndex

/-!
Line and column numbers. The line of a byte offset counts the line feeds before it, and the column
counts the bytes after the last of them.
-/

namespace ScriptTyping

/-! ### Bytes -/

def lineFeed : UInt8 := 10

theorem lineFeed_ne_ofNat {code : Nat} (other : code ≠ 10) (bound : code < 256) :
    lineFeed ≠ UInt8.ofNat code := by
  intro same
  have codes := congrArg UInt8.toNat same
  rw [UInt8.toNat_ofNat', Nat.mod_eq_of_lt bound] at codes
  exact other codes.symm

/-- No other character has the byte of a line feed in its encoding: longer encodings have larger
bytes only. -/
theorem lineFeed_notMem_utf8EncodeChar {char : Char} (other : char ≠ '\n') :
    lineFeed ∉ String.utf8EncodeChar char := by
  have code : char.toNat ≠ 10 := fun same => other (Char.toNat_inj.mp same)
  have inside : char.toNat < 0x110000 := by
    rcases char.valid with low | ⟨_, high⟩
    · exact Nat.lt_trans low (by decide)
    · exact high
  unfold String.utf8EncodeChar
  dsimp only
  rw [Char.toNat_val]
  split_ifs with one two three
  · simpa using lineFeed_ne_ofNat code (by omega)
  · simp only [List.mem_cons, List.not_mem_nil, or_false, not_or]
    exact ⟨lineFeed_ne_ofNat (by omega) (by omega), lineFeed_ne_ofNat (by omega) (by omega)⟩
  · simp only [List.mem_cons, List.not_mem_nil, or_false, not_or]
    exact ⟨lineFeed_ne_ofNat (by omega) (by omega), lineFeed_ne_ofNat (by omega) (by omega),
      lineFeed_ne_ofNat (by omega) (by omega)⟩
  · simp only [List.mem_cons, List.not_mem_nil, or_false, not_or]
    exact ⟨lineFeed_ne_ofNat (by omega) (by omega), lineFeed_ne_ofNat (by omega) (by omega),
      lineFeed_ne_ofNat (by omega) (by omega), lineFeed_ne_ofNat (by omega) (by omega)⟩

def bytesOf (text : String) : List UInt8 := text.toUTF8.data.toList

theorem bytesOf_eq (text : String) : bytesOf text = text.toList.flatMap String.utf8EncodeChar := by
  rw [bytesOf, String.toUTF8, ← String.utf8Encode_toList, List.utf8Encode, List.toList_data_toByteArray]

theorem length_bytesOf (text : String) : (bytesOf text).length = text.utf8ByteSize := rfl

/-! ### Line starts -/

def startsAfter (offset : Nat) : List UInt8 → List Nat
  | [] => []
  | byte :: rest =>
    if byte = lineFeed then (offset + 1) :: startsAfter (offset + 1) rest
    else startsAfter (offset + 1) rest

variable {offset : Nat} {bytes : List UInt8}

theorem startsAfter_append (offset : Nat) (bytes rest : List UInt8) :
    startsAfter offset (bytes ++ rest) =
      startsAfter offset bytes ++ startsAfter (offset + bytes.length) rest := by
  induction bytes generalizing offset with
  | nil => rfl
  | cons byte bytes ih =>
      have next : offset + (bytes.length + 1) = offset + 1 + bytes.length := by omega
      rw [List.cons_append, startsAfter, startsAfter, ih, List.length_cons, next]
      split
      · rfl
      · rfl

theorem startsAfter_eq_nil (none : lineFeed ∉ bytes) : startsAfter offset bytes = [] := by
  induction bytes generalizing offset with
  | nil => rfl
  | cons byte bytes ih =>
      rw [List.mem_cons, not_or] at none
      rw [startsAfter, if_neg (Ne.symm none.1), ih none.2]

theorem length_startsAfter (offset : Nat) (bytes : List UInt8) :
    (startsAfter offset bytes).length = bytes.count lineFeed := by
  induction bytes generalizing offset with
  | nil => rfl
  | cons byte bytes ih =>
      rw [startsAfter, List.count_cons, apply_ite List.length, List.length_cons, ih]
      by_cases isFeed : byte = lineFeed
      · simp [isFeed]
      · simp [isFeed]

/-- The line starts of the characters are those of their bytes. -/
theorem lineStartsFrom_eq (offset : Nat) (chars : List Char) :
    lineStartsFrom offset chars = startsAfter offset (chars.flatMap String.utf8EncodeChar) := by
  induction chars generalizing offset with
  | nil => rfl
  | cons char chars ih =>
      rw [lineStartsFrom, List.flatMap_cons, startsAfter_append, String.length_utf8EncodeChar, ih]
      by_cases isFeed : char = '\n'
      · subst isFeed
        rfl
      · rw [if_neg isFeed, startsAfter_eq_nil (lineFeed_notMem_utf8EncodeChar isFeed), List.nil_append]

theorem bounds_of_mem_startsAfter {start : Nat} (member : start ∈ startsAfter offset bytes) :
    offset < start ∧ start ≤ offset + bytes.length := by
  induction bytes generalizing offset with
  | nil => cases member
  | cons byte bytes ih =>
      have later : start ∈ startsAfter (offset + 1) bytes →
          offset < start ∧ start ≤ offset + (byte :: bytes).length := by
        intro inRest
        obtain ⟨low, high⟩ := ih inRest
        rw [List.length_cons]
        omega
      rw [startsAfter] at member
      split at member
      · rcases List.mem_cons.mp member with rfl | inRest
        · rw [List.length_cons]
          omega
        · exact later inRest
      · exact later member

/-- The line starts up to an offset are those of the bytes before it. -/
theorem takeWhile_startsAfter (start count : Nat) (bytes : List UInt8) :
    (startsAfter start bytes).takeWhile (· ≤ start + count) =
      startsAfter start (bytes.take count) := by
  by_cases whole : bytes.length ≤ count
  · rw [List.take_of_length_le whole, List.takeWhile_eq_self_iff]
    intro reached member
    have := (bounds_of_mem_startsAfter member).2
    exact decide_eq_true (by omega)
  · have length : (bytes.take count).length = count := List.length_take_of_le (by omega)
    have split := startsAfter_append start (bytes.take count) (bytes.drop count)
    rw [List.take_append_drop, length] at split
    have beyond : (startsAfter (start + count) (bytes.drop count)).takeWhile (· ≤ start + count) = [] := by
      rw [List.takeWhile_eq_nil_iff]
      intro some isReached
      have := (bounds_of_mem_startsAfter (List.get_mem _ ⟨0, some⟩)).1
      exact Nat.not_le.mpr this (of_decide_eq_true isReached)
    rw [split, List.takeWhile_append_of_pos, beyond, List.append_nil]
    intro reached member
    have := (bounds_of_mem_startsAfter member).2
    exact decide_eq_true (by omega)

/-- The last line before the end of some bytes starts just before the bytes after the last line
feed. -/
theorem getLastD_startsAfter (bytes : List UInt8) :
    (startsAfter 0 bytes).getLastD 0 + (bytes.rtakeWhile (· != lineFeed)).length = bytes.length := by
  induction bytes using List.reverseRecOn with
  | nil => rfl
  | append_singleton bytes byte ih =>
      rw [List.getLastD_eq_getLast?] at ih ⊢
      rw [startsAfter_append, List.rtakeWhile_concat, List.length_append, List.length_singleton]
      by_cases isFeed : byte = lineFeed
      · simp [startsAfter, isFeed]
      · simp [startsAfter, isFeed]
        omega

theorem rtakeWhile_append {α : Type} {holds : α → Bool} {front back : List α}
    (all : ∀ item ∈ back, holds item = true) :
    (front ++ back).rtakeWhile holds = front.rtakeWhile holds ++ back := by
  rw [List.rtakeWhile, List.reverse_append, List.takeWhile_append_of_pos, List.reverse_append,
    List.reverse_reverse, List.rtakeWhile]
  simpa using all

namespace LineIndex

variable {text : String}

theorem length_before (within : offset ≤ text.utf8ByteSize) :
    ((bytesOf text).take offset).length = offset :=
  List.length_take_of_le within

theorem takeWhile_starts (text : String) (offset : Nat) :
    (ofSource text).starts.takeWhile (· ≤ offset) =
      0 :: startsAfter 0 ((bytesOf text).take offset) := by
  have reached := takeWhile_startsAfter 0 offset (bytesOf text)
  rw [Nat.zero_add] at reached
  rw [ofSource, lineStartsFrom_eq, ← bytesOf_eq, List.takeWhile_cons_of_pos (by simp), reached]

theorem position_ofSource (within : offset ≤ text.utf8ByteSize) :
    (ofSource text).position offset = (((bytesOf text).take offset).count lineFeed + 1,
      (((bytesOf text).take offset).rtakeWhile (· != lineFeed)).length + 1) := by
  have length := length_before within
  have last := getLastD_startsAfter ((bytesOf text).take offset)
  rw [position, takeWhile_starts, List.length_cons, length_startsAfter, List.getLastD_cons]
  congr 1
  omega

/-- Offsets on a later line have a larger line number, and on the same line a larger column. -/
theorem position_lt {first second : Nat} (ascending : first < second)
    (within : second ≤ text.utf8ByteSize) :
    Prod.Lex (· < ·) (· < ·) ((ofSource text).position first) ((ofSource text).position second) := by
  rw [position_ofSource (by omega), position_ofSource within]
  obtain ⟨between, parts⟩ : ∃ between, (bytesOf text).take second =
      (bytesOf text).take first ++ between :=
    ⟨_, (List.take_append_drop first _).symm.trans (by rw [List.take_take, Nat.min_eq_left (by omega)])⟩
  have some : 0 < between.length := by
    have lengths := congrArg List.length parts
    rw [List.length_append, length_before within, length_before (by omega)] at lengths
    omega
  rw [parts, List.count_append]
  by_cases isFeed : lineFeed ∈ between
  · have := List.count_pos_iff.mpr isFeed
    exact .left _ _ (by omega)
  · have plain : ∀ byte ∈ between, (byte != lineFeed) = true := by
      intro byte member
      rw [bne_iff_ne]
      rintro rfl
      exact isFeed member
    rw [List.count_eq_zero_of_not_mem isFeed, rtakeWhile_append plain, List.length_append]
    exact .right _ (by omega)

/-- Whether the place after some bytes has a line or a column that needs 33 bits, if the bytes are
fewer than `2 ^ 32`. -/
def Overflows (before : List UInt8) : Prop :=
  before.length + 1 = 2 ^ 32 ∧ ((∀ byte ∈ before, byte = lineFeed) ∨ lineFeed ∉ before)

theorem length_rtakeWhile_eq_iff {bytes : List UInt8} :
    (bytes.rtakeWhile (· != lineFeed)).length = bytes.length ↔ lineFeed ∉ bytes := by
  constructor
  · intro whole inside
    have same := (List.rtakeWhile_suffix (· != lineFeed) bytes).eq_of_length whole
    have other := List.mem_rtakeWhile_imp (same ▸ inside)
    simp at other
  · intro absent
    have plain : ∀ byte ∈ bytes, (byte != lineFeed) = true := by
      intro byte member
      rw [bne_iff_ne]
      rintro rfl
      exact absent member
    rw [List.rtakeWhile_eq_self_iff.mpr plain]

theorem overflows_iff {before : List UInt8} (few : before.length < 2 ^ 32) : Overflows before ↔
    ¬ (before.count lineFeed + 1 < 2 ^ 32 ∧
      (before.rtakeWhile (· != lineFeed)).length + 1 < 2 ^ 32) := by
  have fewLines : before.count lineFeed ≤ before.length := List.count_le_length
  have fewColumns : (before.rtakeWhile (· != lineFeed)).length ≤ before.length :=
    (List.rtakeWhile_suffix _ _).length_le
  have allFeeds : before.count lineFeed = before.length ↔ ∀ byte ∈ before, byte = lineFeed := by
    rw [List.count_eq_length]
    exact forall₂_congr fun _ _ => eq_comm
  rw [Overflows, ← allFeeds, ← length_rtakeWhile_eq_iff]
  omega

theorem position?_ofSource (within : offset ≤ text.utf8ByteSize) (bound : offset < 2 ^ 32) :
    let before := (bytesOf text).take offset
    (Overflows before → (ofSource text).position? offset = none) ∧
      (¬ Overflows before → (ofSource text).position? offset =
        some (before.count lineFeed + 1, (before.rtakeWhile (· != lineFeed)).length + 1)) := by
  intro before
  have few : before.length < 2 ^ 32 := by rwa [length_before within]
  rw [position?, position_ofSource within, overflows_iff few, not_not]
  exact ⟨fun overflows => if_neg overflows, fun fits => if_pos fits⟩

theorem eq_position_of_position? {index : LineIndex} {place : Nat × Nat}
    (found : index.position? offset = some place) : place = index.position offset := by
  simp only [position?, Option.ite_none_right_eq_some, Option.some.injEq] at found
  exact found.2.symm

/-- All offsets have a place but perhaps the last, and each comes before those of later offsets. -/
theorem position?_lt (short : text.utf8ByteSize < 2 ^ 32) {first second : Nat}
    (ascending : first < second) (within : second ≤ text.utf8ByteSize) :
    ∃ place, (ofSource text).position? first = some place ∧
      ∀ later, (ofSource text).position? second = some later →
        Prod.Lex (· < ·) (· < ·) place later := by
  have fits : ¬ Overflows ((bytesOf text).take first) := by
    rintro ⟨full, _⟩
    rw [length_before (by omega)] at full
    omega
  have found := (position?_ofSource (by omega) (by omega)).2 fits
  refine ⟨_, found, fun later isLater => ?_⟩
  rw [eq_position_of_position? found, eq_position_of_position? isLater]
  exact position_lt ascending within

theorem position?_ne (short : text.utf8ByteSize < 2 ^ 32) {first second : Nat}
    (ascending : first < second) (within : second ≤ text.utf8ByteSize) :
    (ofSource text).position? first ≠ (ofSource text).position? second := by
  intro same
  obtain ⟨place, found, later⟩ := position?_lt short ascending within
  have before := later place (same ▸ found)
  rw [Prod.lex_def] at before
  omega

/-- In a text of less than `2 ^ 32` bytes an offset up to the end has the line that the line feeds
before it make and the column that the bytes after the last of them make, and no line is beyond the
last. Just one offset may have none, the end of a text of `2 ^ 32 - 1` bytes that are all of them
line feeds or none. No two offsets have the same line and column, and they are in the order of
these. -/
theorem position_counts (short : text.utf8ByteSize < 2 ^ 32) :
    (∀ offset ≤ text.utf8ByteSize,
      let before := (bytesOf text).take offset
      let line := before.count lineFeed + 1
      let column := (before.rtakeWhile (· != lineFeed)).length + 1
      line ≤ (ofSource text).lineCount ∧
        (Overflows before → (ofSource text).position? offset = none) ∧
        (¬ Overflows before → (ofSource text).position? offset = some (line, column))) ∧
    (∀ first ≤ text.utf8ByteSize, ∀ second ≤ text.utf8ByteSize,
      (ofSource text).position? first = (ofSource text).position? second → first = second) ∧
    ∀ first second, first < second → second ≤ text.utf8ByteSize →
      ∃ place, (ofSource text).position? first = some place ∧
        ∀ later, (ofSource text).position? second = some later →
          Prod.Lex (· < ·) (· < ·) place later := by
  refine ⟨fun offset within => ⟨?_, position?_ofSource within (by omega)⟩, ?_,
    fun _ _ => position?_lt short⟩
  · have reached := congrArg Prod.fst (position_ofSource within)
    exact Nat.le_trans (Nat.le_of_eq reached.symm) (List.takeWhile_sublist _).length_le
  · intro first withinFirst second withinSecond same
    rcases Nat.lt_trichotomy first second with less | equal | greater
    · exact absurd same (position?_ne short less withinSecond)
    · exact equal
    · exact absurd same.symm (position?_ne short greater withinFirst)

/-- The last letter of a text with an accented letter, an empty line and two letters. -/
theorem position_counts_accented :
    "é\n\nab".utf8ByteSize < 2 ^ 32 ∧ (ofSource "é\n\nab").position? 5 = some (3, 2) := by
  have short : "é\n\nab".utf8ByteSize < 2 ^ 32 := by decide
  obtain ⟨_, _, found⟩ := (position_counts short).1 5 (by decide)
  have fits : ¬ Overflows ((bytesOf "é\n\nab").take 5) := fun overflows => by
    exact absurd overflows.1 (by decide)
  exact ⟨short, (found fits).trans (by decide)⟩

def unbroken (size : Nat) : String := String.ofList (List.replicate size 'a')

theorem utf8ByteSize_unbroken (size : Nat) : (unbroken size).utf8ByteSize = size := by
  rw [← length_bytesOf, bytesOf_eq, unbroken, String.toList_ofList, List.length_flatMap,
    List.map_replicate, List.sum_replicate_nat]
  exact Nat.mul_one size

/-- The line starts of a text do not tell how long its last line is. -/
theorem ofSource_unbroken (size : Nat) : ofSource (unbroken size) = ofSource "" := by
  have chars : lineStartsFrom 0 (List.replicate size 'a') = [] := by
    rw [lineStartsFrom_eq]
    refine startsAfter_eq_nil fun inside => ?_
    obtain ⟨char, member, isFeed⟩ := List.mem_flatMap.mp inside
    rw [List.eq_of_mem_replicate member] at isFeed
    exact absurd isFeed (by decide)
  rw [ofSource, unbroken, String.toList_ofList, chars]
  rfl

/-- The end of a line of `2 ^ 32 - 1` letters has no column of 32 bits. -/
theorem not_position_counts : ¬ ∀ text : String, text.utf8ByteSize < 2 ^ 32 →
    ∀ offset ≤ text.utf8ByteSize,
      let before := (bytesOf text).take offset
      (ofSource text).position? offset =
        some (before.count lineFeed + 1, (before.rtakeWhile (· != lineFeed)).length + 1) := by
  intro claim
  have size := utf8ByteSize_unbroken (2 ^ 32 - 1)
  have found := claim (unbroken (2 ^ 32 - 1)) (by rw [size]; decide) (2 ^ 32 - 1)
    (Nat.le_of_eq size.symm)
  rw [ofSource_unbroken] at found
  have none : (ofSource "").position? (2 ^ 32 - 1) = none := by decide
  rw [none] at found
  cases found

end LineIndex

end ScriptTyping
