import Mathlib.Tactic.SplitIfs
import ScriptTyping.Json.Printer
import ScriptTyping.Json.Reader

/-!
Strings and numbers as they are written, and that they are read back. A string ends with its quote.
A number ends where the text goes on with nothing that a number may go on with.
-/

namespace ScriptTyping

namespace JsonText

/-! ### Strings -/

inductive Piece.Shows : Piece → Char → Prop where
  | itself (char : Char) : Shows (.char char) char
  | control {char : Char} (low : char.toNat < 0x20) : Shows (.unit char.toNat) char

def ReadsAs (written : List Char) (char : Char) : Prop :=
  ∃ piece : Piece, piece.Shows char ∧ ∀ rest, readPieces (written ++ rest) =
    (readPieces rest).map fun (pieces, rest) => (piece :: pieces, rest)

theorem readsAs_letter {letter char : Char} (named : escaped? letter = some char)
    (plain : letter ≠ 'u') : ReadsAs ['\\', letter] char := by
  refine ⟨.char char, .itself char, fun rest => ?_⟩
  rw [List.cons_append, List.singleton_append, readPieces, named]
  · cases readPieces rest <;> rfl
  · exact fun _ _ _ _ _ isUnit _ => plain isUnit

theorem hexValue?_low : ∀ code < 0x20,
    hexValue? ['0', '0', hexDigit (code / 16), hexDigit (code % 16)] = some code := by
  decide

theorem readsAs_unit {char : Char} (low : char.toNat < 0x20) :
    ReadsAs ['\\', 'u', '0', '0', hexDigit (char.toNat / 16), hexDigit (char.toNat % 16)] char := by
  refine ⟨.unit char.toNat, .control low, fun rest => ?_⟩
  simp only [List.cons_append, List.nil_append]
  rw [readPieces, hexValue?_low _ low]
  cases readPieces rest <;> rfl

theorem readsAs_itself {char : Char} (notQuote : char ≠ '"') (notSlash : char ≠ '\\')
    (visible : ¬ char.toNat < 0x20) : ReadsAs [char] char := by
  refine ⟨.char char, .itself char, fun rest => ?_⟩
  rw [List.singleton_append, readPieces, if_neg (by simp [visible, notSlash])]
  · cases readPieces rest <;> rfl
  · exact notQuote
  · exact fun _ _ _ _ _ isSlash _ => notSlash isSlash
  · exact fun _ _ isSlash _ => notSlash isSlash

theorem readsAs_escapeChar (char : Char) : ReadsAs (escapeChar char) char := by
  unfold escapeChar
  simp only [beq_iff_eq]
  split_ifs with isQuote isSlash isBack isFeed isLine isReturn isTab isLow
  · subst isQuote
    exact readsAs_letter rfl (by decide)
  · subst isSlash
    exact readsAs_letter rfl (by decide)
  · subst isBack
    exact readsAs_letter rfl (by decide)
  · subst isFeed
    exact readsAs_letter rfl (by decide)
  · subst isLine
    exact readsAs_letter rfl (by decide)
  · subst isReturn
    exact readsAs_letter rfl (by decide)
  · subst isTab
    exact readsAs_letter rfl (by decide)
  · exact readsAs_unit isLow
  · exact readsAs_itself isQuote isSlash isLow

theorem joinPieces?_shows {piece : Piece} {char : Char} (shows : piece.Shows char)
    (pieces : List Piece) :
    joinPieces? (piece :: pieces) = (joinPieces? pieces).map (char :: ·) := by
  cases shows with
  | itself char => rw [joinPieces?]
  | control low =>
      have notHigh : isHighSurrogate char.toNat = false := by simp [isHighSurrogate]; omega
      have notLow : isLowSurrogate char.toNat = false := by simp [isLowSurrogate]; omega
      match pieces with
      | [] => simp [joinPieces?, notHigh, notLow]
      | .char _ :: _ => simp [joinPieces?, notHigh, notLow]
      | .unit _ :: _ => rw [joinPieces?]; simp [notHigh, notLow]

/-- A string as it is written is read back, up to its closing quote. -/
theorem readString_escaped (text rest : List Char) :
    readString (text.flatMap escapeChar ++ '"' :: rest) =
      some (some (String.ofList text), rest) := by
  have read : ∃ pieces, readPieces (text.flatMap escapeChar ++ '"' :: rest) = some (pieces, rest) ∧
      joinPieces? pieces = some text := by
    induction text with
    | nil => exact ⟨[], by rw [List.flatMap_nil, List.nil_append, readPieces], by rw [joinPieces?]⟩
    | cons char text ih =>
        obtain ⟨pieces, readRest, joined⟩ := ih
        obtain ⟨piece, shows, readFirst⟩ := readsAs_escapeChar char
        refine ⟨piece :: pieces, ?_, ?_⟩
        · rw [List.flatMap_cons, List.append_assoc, readFirst, readRest]
          rfl
        · rw [joinPieces?_shows shows, joined, Option.map_some]
  obtain ⟨pieces, readAll, joined⟩ := read
  simp [readString, readAll, joined]

theorem toList_quote (text : String) :
    (quote text).toList = '"' :: (text.toList.flatMap escapeChar ++ ['"']) := by
  simp [quote]

/-! ### Numbers -/

def goesOn (char : Char) : Bool := char.isDigit || char == '.' || char == 'e' || char == 'E'

def Ends (rest : List Char) : Prop := ∀ char ∈ rest.head?, goesOn char = false

theorem ends_cons {char : Char} {rest : List Char} (ends : goesOn char = false) :
    Ends (char :: rest) := by
  rintro _ ⟨⟩
  exact ends

def IsDigits (text : List Char) : Prop := text ≠ [] ∧ ∀ char ∈ text, char.isDigit = true

/-- A number as it is written, taken apart. Without a fraction and a power it is an integer. -/
structure Numeral where
  isNegative : Bool
  whole : List Char
  fraction : List Char
  power : List Char
  whole_digits : IsDigits whole
  whole_lead : whole.head? = some '0' → whole = ['0']
  fraction_form : fraction = [] ∨ ∃ digits, IsDigits digits ∧ fraction = '.' :: digits
  power_form : power = [] ∨ ∃ letter sign digits, (letter = 'e' ∨ letter = 'E') ∧
    sign ∈ [[], ['+'], ['-']] ∧ IsDigits digits ∧ power = letter :: sign ++ digits

theorem spanDigits_append {digits rest : List Char} (all : ∀ char ∈ digits, char.isDigit = true)
    (stops : ∀ char ∈ rest.head?, char.isDigit = false) :
    NumberText.spanDigits (digits ++ rest) = (digits, rest) := by
  rw [NumberText.spanDigits, List.takeWhile_append_of_pos all, List.dropWhile_append_of_pos all]
  cases rest with
  | nil => simp
  | cons char rest => simp [stops char rfl]

theorem readDigits?_append {digits rest : List Char} (some : IsDigits digits)
    (stops : ∀ char ∈ rest.head?, char.isDigit = false) :
    readDigits? (digits ++ rest) = .some (digits, rest) := by
  rw [readDigits?, spanDigits_append some.right stops]
  split
  · rename_i same
    cases same
    exact absurd rfl some.left
  · rfl

theorem Ends.stops {rest : List Char} (ends : Ends rest) :
    ∀ char ∈ rest.head?, char.isDigit = false := by
  intro char first
  have whole := ends char first
  simp only [goesOn, Bool.or_eq_false_iff] at whole
  exact whole.1.1.1

namespace Numeral

variable (numeral : Numeral) {rest : List Char}

def body : List Char := numeral.whole ++ numeral.fraction ++ numeral.power

def chars : List Char := (if numeral.isNegative then ['-'] else []) ++ numeral.body

def json : Json :=
  let value : Int := NumberText.decimalValue numeral.whole
  if numeral.fraction.isEmpty && numeral.power.isEmpty && !(numeral.isNegative && value == 0) then
    .integer (if numeral.isNegative then -value else value)
  else .decimal (String.ofList numeral.chars)

theorem readPower?_append (ends : Ends rest) :
    readPower? (numeral.power ++ rest) = some (numeral.power, rest) := by
  rcases numeral.power_form with none | ⟨letter, sign, digits, isLetter, isSign, isDigits, form⟩
  · rw [none, List.nil_append]
    cases rest with
    | nil => rfl
    | cons char rest =>
        have noLetter := ends char rfl
        simp only [goesOn, Bool.or_eq_false_iff] at noLetter
        simp [readPower?, noLetter.1.2, noLetter.2]
  · have isPower : (letter == 'e' || letter == 'E') = true := by
      rcases isLetter with rfl | rfl <;> rfl
    have read := readDigits?_append isDigits ends.stops
    rw [form, List.append_assoc, List.cons_append]
    simp only [List.mem_cons, List.not_mem_nil, or_false] at isSign
    rcases isSign with rfl | rfl | rfl
    · have noSign : ∀ sign tail, sign.isDigit = false → digits ++ rest ≠ sign :: tail := by
        intro sign tail notDigit same
        obtain ⟨first, more, rfl⟩ := List.exists_cons_of_ne_nil isDigits.left
        cases same
        have isDigit := isDigits.right sign List.mem_cons_self
        simp [notDigit] at isDigit
      rw [List.nil_append, readPower?, if_pos isPower, read]
      · rfl
      · exact fun tail => noSign '+' tail rfl
      · exact fun tail => noSign '-' tail rfl
    · rw [List.singleton_append, readPower?, if_pos isPower, read]
      rfl
    · rw [List.singleton_append, readPower?, if_pos isPower, read]
      rfl

theorem goesOn_power {char : Char} (ends : Ends rest)
    (first : char ∈ (numeral.power ++ rest).head?) : char.isDigit = false ∧ char ≠ '.' := by
  rcases numeral.power_form with none | ⟨letter, sign, digits, isLetter, isSign, isDigits, form⟩
  · rw [none, List.nil_append] at first
    have out := ends char first
    simp only [goesOn, Bool.or_eq_false_iff, beq_eq_false_iff_ne] at out
    exact out.1.1
  · rw [form] at first
    cases first
    rcases isLetter with rfl | rfl <;> decide

theorem readFraction?_append (ends : Ends rest) :
    readFraction? (numeral.fraction ++ (numeral.power ++ rest)) =
      some (numeral.fraction, numeral.power ++ rest) := by
  rcases numeral.fraction_form with none | ⟨digits, isDigits, form⟩
  · rw [none, List.nil_append]
    unfold readFraction?
    split
    · rename_i same
      exact absurd rfl (numeral.goesOn_power ends (by rw [same]; rfl)).right
    · rfl
  · rw [form, List.cons_append, readFraction?,
      readDigits?_append isDigits fun _ first => (numeral.goesOn_power ends first).left]
    rfl

theorem readWhole?_append (ends : Ends rest) :
    readWhole? (numeral.body ++ rest) =
      some (numeral.whole, numeral.fraction ++ (numeral.power ++ rest)) := by
  have out : ∀ char ∈ (numeral.fraction ++ (numeral.power ++ rest)).head?,
      char.isDigit = false := by
    intro char first
    rcases numeral.fraction_form with none | ⟨digits, _, form⟩
    · rw [none, List.nil_append] at first
      exact (numeral.goesOn_power ends first).left
    · rw [form] at first
      cases first
      rfl
  have read := readDigits?_append numeral.whole_digits out
  rw [body, List.append_assoc, List.append_assoc]
  unfold readWhole?
  split
  · rename_i tail same
    obtain ⟨first, more, form⟩ := List.exists_cons_of_ne_nil numeral.whole_digits.left
    rw [form] at same
    cases same
    have alone := numeral.whole_lead (by rw [form]; rfl)
    rw [alone] at form
    cases form
    rw [alone]
    rfl
  · exact read

theorem readNumber?_body (ends : Ends rest) :
    readNumber? numeral.isNegative (numeral.body ++ rest) = some (numeral.json, rest) := by
  simp only [readNumber?, numeral.readWhole?_append ends, Option.bind_eq_bind, Option.bind_some,
    numeral.readFraction?_append ends, numeral.readPower?_append ends, json]
  split
  · rfl
  · simp [chars, body]

end Numeral

theorem readValue_digit {first : Char} (isDigit : first.isDigit = true) (fuel : Nat)
    (rest : List Char) :
    readValue (fuel + 1) (first :: rest) = readNumber? false (first :: rest) := by
  unfold readValue
  split <;> rename_i same <;> first
    | rfl
    | cases same; exact absurd isDigit (by decide)

theorem Numeral.readValue_chars (numeral : Numeral) {rest : List Char} (ends : Ends rest)
    (fuel : Nat) : readValue (fuel + 1) (numeral.chars ++ rest) = some (numeral.json, rest) := by
  have read := numeral.readNumber?_body ends
  rw [chars]
  cases sign : numeral.isNegative with
  | true =>
      rw [sign] at read
      rw [if_pos rfl, List.singleton_append, List.cons_append]
      exact read
  | false =>
      obtain ⟨first, more, form⟩ := List.exists_cons_of_ne_nil numeral.whole_digits.left
      have isDigit := numeral.whole_digits.right first (form ▸ List.mem_cons_self)
      rw [sign] at read
      rw [if_neg Bool.false_ne_true, List.nil_append, ← read, body, form]
      exact readValue_digit isDigit fuel _

theorem Numeral.chars_of_decimal {numeral : Numeral} {text : String}
    (isDecimal : numeral.json = .decimal text) : numeral.chars = text.toList := by
  rw [json] at isDecimal
  split_ifs at isDecimal
  cases isDecimal
  exact String.toList_ofList.symm

/-! ### Integers -/

theorem isDigits_toDigits (value : Nat) : IsDigits (Nat.toDigits 10 value) :=
  ⟨Nat.toDigits_ne_nil, fun _ => Nat.isDigit_of_mem_toDigits (by decide) (by decide)⟩

/-- Only zero has a zero in front. -/
theorem head_toDigits {value : Nat} (lead : (Nat.toDigits 10 value).head? = some '0') :
    value = 0 := by
  induction value using Nat.strongRecOn with
  | ind value ih =>
      rw [Nat.toDigits_eq_if (by decide)] at lead
      split at lead
      · exact Nat.digitChar_eq_zero.mp (Option.some.inj lead)
      · rename_i large
        rw [List.head?_append, Option.or_of_isSome (by simp)] at lead
        have none := ih (value / 10) (by omega) lead
        omega

theorem decimalValue_toDigits (value : Nat) :
    NumberText.decimalValue (Nat.toDigits 10 value) = value := by
  have read := Nat.ofDigitChars_ten_toDigits (n := value)
  rw [Nat.ofDigitChars_eq_foldl] at read
  rw [NumberText.decimalValue]
  simpa only [Nat.mul_comm] using read

def Numeral.ofInt (value : Int) : Numeral where
  isNegative := decide (value < 0)
  whole := Nat.toDigits 10 value.natAbs
  fraction := []
  power := []
  whole_digits := isDigits_toDigits _
  whole_lead lead := by rw [head_toDigits lead]; rfl
  fraction_form := .inl rfl
  power_form := .inl rfl

theorem Numeral.json_ofInt (value : Int) : (ofInt value).json = .integer value := by
  have notZero : (decide (value < 0) && ((value.natAbs : Int) == 0)) = false := by
    rw [Bool.and_eq_false_iff, decide_eq_false_iff_not, beq_eq_false_iff_ne]
    omega
  have same : (if value < 0 then -(value.natAbs : Int) else value.natAbs) = value := by
    split <;> omega
  simp only [json, ofInt, decimalValue_toDigits, notZero, List.isEmpty_nil, decide_eq_true_eq, same]
  rfl

theorem Numeral.chars_ofInt (value : Int) : (ofInt value).chars = (toString value).toList := by
  simp only [chars, body, ofInt, List.append_nil, Int.toString_eq_repr, Int.repr_eq_if,
    decide_eq_true_eq]
  by_cases isNegative : value < 0
  · rw [if_pos isNegative, if_neg (Int.not_le.mpr isNegative), String.toList_append, Nat.toList_repr,
      show (-value).toNat = value.natAbs by omega]
    rfl
  · rw [if_neg isNegative, if_pos (Int.not_lt.mp isNegative), Nat.toList_repr,
      show value.toNat = value.natAbs by omega]
    rfl

end JsonText
end ScriptTyping
