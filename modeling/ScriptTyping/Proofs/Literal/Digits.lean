import Mathlib.Data.List.Forall2
import Mathlib.Data.Nat.Digits.Defs
import Mathlib.Tactic.IntervalCases
import ScriptTyping.Number.Read

/-!
Integers read from text: exactly the digits of a radix, after at most one sign, that write a number
of the wanted range.
-/

namespace ScriptTyping

namespace NumberText

def IsDigit (radix : Nat) (char : Char) (value : Nat) : Prop :=
  value < radix ∧ (char = value.digitChar ∨ char = value.digitChar.toUpper)

instance (radix : Nat) (char : Char) (value : Nat) : Decidable (IsDigit radix char value) :=
  inferInstanceAs (Decidable (_ ∧ _))

def Digits (radix : Nat) (text : List Char) (value : Nat) : Prop :=
  text ≠ [] ∧ ∃ digits, List.Forall₂ (IsDigit radix) text digits ∧
    Nat.ofDigits radix digits.reverse = value

inductive Writes (radix : Nat) : List Char → Int → Prop
  | unsigned {text : List Char} {value : Nat} : Digits radix text value → Writes radix text value
  | plus {text : List Char} {value : Nat} : Digits radix text value →
      Writes radix ('+' :: text) value
  | minus {text : List Char} {value : Nat} : Digits radix text value →
      Writes radix ('-' :: text) (-value)

variable {radix limit below above start value : Nat} {char : Char} {text : List Char}
  {beyond : NumberTextError}

/-! ### Digits -/

theorem digitChar_of_isDigit (isDigit : char.isDigit = true) :
    char = (char.toNat - '0'.toNat).digitChar := by
  have bounds : 48 ≤ char.toNat ∧ char.toNat ≤ 57 := by
    simpa [Char.isDigit, Char.le_def, UInt32.le_iff_toNat_le] using isDigit
  obtain ⟨low, high⟩ := bounds
  rw [← Char.ofNat_toNat char]
  generalize char.toNat = code at *
  interval_cases code <;> decide

theorem digitChar_of_isAlpha (isAlpha : char.isAlpha = true)
    (small : char.toLower.toNat - 'a'.toNat + 10 < 16) :
    char = (char.toLower.toNat - 'a'.toNat + 10).digitChar ∨
      char = (char.toLower.toNat - 'a'.toNat + 10).digitChar.toUpper := by
  have bounds : 65 ≤ char.toNat ∧ char.toNat ≤ 90 ∨ 97 ≤ char.toNat ∧ char.toNat ≤ 122 := by
    change (decide ('A'.val ≤ char.val ∧ char.val ≤ 'Z'.val) ||
      (decide ('a'.val ≤ char.val) && decide (char.val ≤ 'z'.val))) = true at isAlpha
    simpa [UInt32.le_iff_toNat_le] using isAlpha
  rw [← Char.ofNat_toNat char] at small ⊢
  generalize char.toNat = code at *
  rcases bounds with ⟨low, high⟩ | ⟨low, high⟩ <;> interval_cases code <;> revert small <;> decide

theorem digit?_of_lt (found : digit? 16 char = some value) (bound : value < radix) :
    digit? radix char = some value := by
  simp only [digit?, Option.filter_eq_some_iff, decide_eq_true_eq] at *
  exact ⟨found.1, bound⟩

theorem digit?_digitChar : ∀ value < 16, digit? 16 value.digitChar = some value ∧
    digit? 16 value.digitChar.toUpper = some value := by
  decide

theorem digit?_eq_some_iff (small : radix ≤ 16) :
    digit? radix char = some value ↔ IsDigit radix char value := by
  constructor
  · intro found
    simp only [digit?, Option.filter_eq_some_iff, decide_eq_true_eq] at found
    obtain ⟨found, bound⟩ := found
    refine ⟨bound, ?_⟩
    split at found
    · rename_i isDigit
      cases found
      exact .inl (digitChar_of_isDigit isDigit)
    · split at found
      · rename_i isAlpha
        cases found
        exact digitChar_of_isAlpha isAlpha (Nat.lt_of_lt_of_le bound small)
      · cases found
  · rintro ⟨bound, rfl | rfl⟩
    · exact digit?_of_lt (digit?_digitChar value (Nat.lt_of_lt_of_le bound small)).1 bound
    · exact digit?_of_lt (digit?_digitChar value (Nat.lt_of_lt_of_le bound small)).2 bound

def continued (radix start : Nat) (digits : List Nat) : Nat :=
  digits.foldl (fun value digit => value * radix + digit) start

theorem ofDigits_reverse (radix : Nat) (digits : List Nat) :
    Nat.ofDigits radix digits.reverse = continued radix 0 digits := by
  simp [Nat.ofDigits_eq_foldr, continued, List.foldr_reverse, Nat.mul_comm, Nat.add_comm]

theorem le_continued (positive : 0 < radix) (start : Nat) (digits : List Nat) :
    start ≤ continued radix start digits := by
  induction digits generalizing start with
  | nil => exact Nat.le_refl start
  | cons digit rest ih =>
      calc
        start ≤ start * radix + digit := by nlinarith
        _ ≤ continued radix (start * radix + digit) rest := ih _

/-- Digits are read unless a character is no digit or the number is too large: no number becomes
smaller by further digits. -/
theorem readDigits_eq_ok_iff (small : radix ≤ 16) (within : start ≤ limit) :
    readDigits radix limit beyond start text = .ok value ↔
      value ≤ limit ∧ ∃ digits, List.Forall₂ (IsDigit radix) text digits ∧
        continued radix start digits = value := by
  induction text generalizing start with
  | nil =>
      simp only [readDigits, Except.ok.injEq, List.forall₂_nil_left_iff, exists_eq_left]
      constructor
      · rintro rfl
        exact ⟨within, rfl⟩
      · exact And.right
  | cons char rest ih =>
      simp only [readDigits, List.forall₂_cons_left_iff]
      cases found : digit? radix char with
      | none =>
          simp only [reduceCtorEq, false_iff]
          rintro ⟨_, _, ⟨digit, digits, isDigit, _, rfl⟩, _⟩
          rw [(digit?_eq_some_iff small).mpr isDigit] at found
          cases found
      | some digit =>
          have isDigit := (digit?_eq_some_iff small).mp found
          have only : ∀ other, IsDigit radix char other → other = digit := by
            intro other isOther
            rw [(digit?_eq_some_iff small).mpr isOther] at found
            exact Option.some.inj found
          dsimp only
          split
          · rename_i fits
            rw [ih fits]
            constructor
            · rintro ⟨inside, digits, all, same⟩
              exact ⟨inside, digit :: digits, ⟨digit, digits, isDigit, all, rfl⟩, same⟩
            · rintro ⟨inside, _, ⟨other, digits, isOther, all, rfl⟩, same⟩
              obtain rfl := only other isOther
              exact ⟨inside, digits, all, same⟩
          · rename_i exceeds
            simp only [reduceCtorEq, false_iff]
            rintro ⟨inside, _, ⟨other, digits, isOther, _, rfl⟩, same⟩
            obtain rfl := only other isOther
            have grows := le_continued (Nat.zero_lt_of_lt isOther.1) (start * radix + other) digits
            have whole : continued radix (start * radix + other) digits = value := same
            omega

theorem readDigits_zero_eq_ok_iff (small : radix ≤ 16) (some : text ≠ []) :
    readDigits radix limit beyond 0 text = .ok value ↔
      value ≤ limit ∧ Digits radix text value := by
  simp only [readDigits_eq_ok_iff small (Nat.zero_le limit), Digits, ofDigits_reverse, ne_eq, some,
    not_false_eq_true, true_and]

theorem not_digits_nil : ¬ Digits radix [] value := fun digits => digits.1 rfl

theorem not_digits_cons (small : radix ≤ 16) (none : digit? radix char = none) :
    ¬ Digits radix (char :: text) value := by
  rintro ⟨_, _, all, _⟩
  cases all with
  | cons isDigit _ =>
      rw [(digit?_eq_some_iff small).mpr isDigit] at none
      cases none

theorem Digits.isDigit (digits : Digits radix text value) (member : char ∈ text) :
    ∃ value, IsDigit radix char value := by
  obtain ⟨-, values, all, -⟩ := digits
  induction all with
  | nil => cases member
  | cons isDigit _ ih =>
      rcases List.mem_cons.mp member with rfl | inRest
      · exact ⟨_, isDigit⟩
      · exact ih inRest

/-! ### Signs -/

theorem writes_plus_iff (small : radix ≤ 16) {number : Int} :
    Writes radix ('+' :: text) number ↔ ∃ value, Digits radix text value ∧ number = value := by
  constructor
  · intro writes
    cases writes with
    | unsigned digits => exact absurd digits (not_digits_cons small rfl)
    | plus digits => exact ⟨_, digits, rfl⟩
  · rintro ⟨value, digits, rfl⟩
    exact .plus digits

theorem writes_minus_iff (small : radix ≤ 16) {number : Int} :
    Writes radix ('-' :: text) number ↔ ∃ value, Digits radix text value ∧ number = -value := by
  constructor
  · intro writes
    cases writes with
    | unsigned digits => exact absurd digits (not_digits_cons small rfl)
    | minus digits => exact ⟨_, digits, rfl⟩
  · rintro ⟨value, digits, rfl⟩
    exact .minus digits

theorem writes_unsigned_iff (noPlus : ∀ rest, text ≠ '+' :: rest)
    (noMinus : ∀ rest, text ≠ '-' :: rest) {number : Int} :
    Writes radix text number ↔ ∃ value, Digits radix text value ∧ number = value := by
  constructor
  · intro writes
    cases writes with
    | unsigned digits => exact ⟨_, digits, rfl⟩
    | plus _ => exact absurd rfl (noPlus _)
    | minus _ => exact absurd rfl (noMinus _)
  · rintro ⟨value, digits, rfl⟩
    exact .unsigned digits

/-- Digits with a sign are read as a number of the range if the limit says so of the digits. -/
theorem signed_iff (small : radix ≤ 16) (some : text ≠ []) {sign : Nat → Int}
    (fits : ∀ value : Nat, value ≤ limit ↔ -(below : Int) ≤ sign value ∧ sign value ≤ above)
    {number : Int} :
    (do
      let value ← readDigits radix limit beyond 0 text
      .ok (sign value) : Except NumberTextError Int) = .ok number ↔
      (∃ value, Digits radix text value ∧ number = sign value) ∧ -below ≤ number ∧
        number ≤ above := by
  have reads : ∀ value, readDigits radix limit beyond 0 text = .ok value ↔
      (-(below : Int) ≤ sign value ∧ sign value ≤ above) ∧ Digits radix text value := by
    intro value
    rw [readDigits_zero_eq_ok_iff small some, fits]
  constructor
  · cases found : readDigits radix limit beyond 0 text with
    | error error => exact nofun
    | ok value =>
        rintro ⟨rfl⟩
        obtain ⟨inside, digits⟩ := (reads value).mp found
        exact ⟨⟨value, digits, rfl⟩, inside⟩
  · rintro ⟨⟨value, digits, rfl⟩, inside⟩
    rw [(reads value).mpr ⟨inside, digits⟩]
    rfl

/-- An integer is read exactly when the text writes it and it is in the range. -/
theorem readInteger_eq_ok_iff (small : radix ≤ 16) (negative : 0 < below) {number : Int} :
    readInteger radix below above text = .ok number ↔
      Writes radix text number ∧ -below ≤ number ∧ number ≤ above := by
  unfold readInteger
  split
  · simp [writes_unsigned_iff, not_digits_nil]
  · simp [writes_plus_iff small, not_digits_nil]
  · simp [writes_minus_iff small, not_digits_nil]
  · rename_i digits some
    have any : digits ≠ [] := fun none => some (by rw [none])
    rw [writes_plus_iff small]
    exact signed_iff small any fun value => by omega
  · rename_i digits some
    have any : digits ≠ [] := fun none => some (by rw [none])
    rw [if_neg (by omega), writes_minus_iff small]
    exact signed_iff small any fun value => by omega
  · rename_i some _ _ noPlus noMinus
    rw [writes_unsigned_iff noPlus noMinus]
    exact signed_iff small some fun value => by omega

/-- Digits without a sign are read as what they write, also where there are no negative numbers. -/
theorem readInteger_digits (small : radix ≤ 16) (digits : Digits radix text value)
    (inside : value ≤ above) : readInteger radix below above text = .ok (value : Int) := by
  have reads : readDigits radix above .tooLarge 0 text = .ok value :=
    (readDigits_zero_eq_ok_iff small digits.1).mpr ⟨inside, digits⟩
  unfold readInteger
  split
  · exact absurd digits not_digits_nil
  · exact absurd digits (not_digits_cons small rfl)
  · exact absurd digits (not_digits_cons small rfl)
  · exact absurd digits (not_digits_cons small rfl)
  · exact absurd digits (not_digits_cons small rfl)
  · rw [reads]
    rfl

end NumberText

end ScriptTyping
