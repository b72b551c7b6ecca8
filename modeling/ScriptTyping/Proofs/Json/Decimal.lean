import ScriptTyping.Number.Shortest
import ScriptTyping.Proofs.Json.Scalar

/-!
The text of a double is read as the number it is written as, and never as an integer: it has a point
or a power, and no needless zero in front.
-/

namespace ScriptTyping

namespace Shortest

/-! ### Digits -/

def Digits.Proper (digits : Digits) : Prop := digits.digits = 0 → digits.exponent = 0

theorem low_interval_pos {number : Binary64} (notZero : number.magnitude ≠ 0) :
    0 < (interval number).low := by
  have significand : 0 < number.significand := by
    unfold Binary64.significand
    split
    · rename_i small
      rw [Nat.mod_eq_of_lt small]
      exact Nat.pos_of_ne_zero notZero
    · exact Nat.add_pos_left (by decide) _
  refine Nat.mul_pos ?_ (Nat.pow_pos (by decide))
  split <;> omega

theorem Interval.ne_zero_of_holds {interval : Interval} {value scale den : Nat}
    (low : 0 < interval.low) (unit : 0 < den) (inside : interval.holds (value * scale) den = true) :
    value ≠ 0 := by
  rintro rfl
  have positive := Nat.mul_pos low unit
  rw [Interval.holds, Nat.zero_mul, Nat.zero_mul] at inside
  split at inside <;> simp only [Bool.and_eq_true, decide_eq_true_eq] at inside <;> omega

theorem Interval.digits_neighbour? {interval : Interval} {exponent : Int} {digits : Digits}
    (low : 0 < interval.low) (found : interval.neighbour? exponent = some digits) :
    digits.digits ≠ 0 := by
  have down : 0 < Nat.pow 10 (-exponent).toNat := Nat.pow_pos (by decide)
  simp only [neighbour?] at found
  split at found
  · rename_i below _
    have notZero := ne_zero_of_holds low down below
    cases found
    show (if _ then _ else _) ≠ 0
    split
    · exact notZero
    · exact Nat.succ_ne_zero _
  · rename_i below _
    cases found
    exact ne_zero_of_holds low down below
  · cases found
    exact Nat.succ_ne_zero _
  · cases found

theorem stripZeros_proper {digits : Digits} (proper : digits.Proper) (fuel : Nat) :
    (stripZeros fuel digits).Proper := by
  induction fuel generalizing digits with
  | zero => exact proper
  | succ fuel ih =>
      obtain ⟨value, exponent⟩ := digits
      rw [stripZeros]
      split
      · rename_i strips
        simp only [Bool.and_eq_true, decide_eq_true_eq, beq_iff_eq] at strips
        refine ih fun none => absurd none ?_
        show value / 10 ≠ 0
        omega
      · exact proper

theorem digits_proper {number : Binary64} (notZero : number.magnitude ≠ 0) :
    (digits number).Proper := by
  refine stripZeros_proper ?_ 20
  cases found : (List.range 17).findSome? fun count => (interval number).neighbour?
      (pointPosition (interval number).value (interval number).unit - (count + 1 : Nat)) with
  | none => exact fun _ => rfl
  | some digits =>
      obtain ⟨count, _, isNeighbour⟩ := List.exists_of_findSome?_eq_some found
      have some := Interval.digits_neighbour? (low_interval_pos notZero) isNeighbour
      exact fun none => absurd none some

/-! ### Layout -/

open JsonText

theorem isDigits_zero : IsDigits ['0'] := ⟨List.cons_ne_nil _ _, by simp⟩

theorem isDigits_append {left right : List Char} (leftDigits : IsDigits left)
    (rightDigits : ∀ char ∈ right, char.isDigit = true) : IsDigits (left ++ right) := by
  refine ⟨List.append_ne_nil_of_left_ne_nil leftDigits.left right, fun char member => ?_⟩
  exact (List.mem_append.mp member).elim (leftDigits.right char) (rightDigits char)

theorem isDigit_of_mem_replicate {count : Nat} {char : Char}
    (member : char ∈ List.replicate count '0') : char.isDigit = true := by
  rw [List.eq_of_mem_replicate member]
  rfl

def IsDecimal (text : List Char) : Prop :=
  ∀ isNegative, ∃ numeral : Numeral, numeral.isNegative = isNegative ∧ numeral.body = text ∧
    (numeral.fraction ≠ [] ∨ numeral.power ≠ [])

theorem isDecimal_fraction (whole places : List Char) (wholeDigits : IsDigits whole)
    (lead : whole.head? = some '0' → whole = ['0']) (placesDigits : IsDigits places) :
    IsDecimal (whole ++ '.' :: places) := by
  intro isNegative
  refine ⟨⟨isNegative, whole, '.' :: places, [], wholeDigits, lead, .inr ⟨places, placesDigits, rfl⟩,
    .inl rfl⟩, rfl, ?_, .inl (List.cons_ne_nil _ _)⟩
  rw [Numeral.body, List.append_nil]

theorem isDecimal_small {places : List Char} (placesDigits : IsDigits places) :
    IsDecimal ("0." ++ String.ofList places).toList := by
  simpa using isDecimal_fraction ['0'] places isDigits_zero (fun _ => rfl) placesDigits

theorem toList_exponentText (exponent : Int) : ∃ sign ∈ [[], ['+'], ['-']], ∃ digits,
    IsDigits digits ∧ (exponentText exponent).toList = 'e' :: sign ++ digits := by
  unfold exponentText
  rw [Int.toString_eq_repr, Int.repr_eq_if]
  by_cases positive : 0 ≤ exponent
  · refine ⟨['+'], by simp, _, isDigits_toDigits exponent.toNat, ?_⟩
    rw [if_pos positive, if_pos positive, String.toList_append, Nat.toList_repr]
    rfl
  · refine ⟨['-'], by simp, _, isDigits_toDigits (-exponent).toNat, ?_⟩
    rw [if_neg positive, if_neg positive, String.toList_append, String.toList_append,
      Nat.toList_repr]
    rfl

theorem isDecimal_power {first : Char} {fraction : List Char} (isDigit : first.isDigit = true)
    (form : fraction = [] ∨ ∃ digits, IsDigits digits ∧ fraction = '.' :: digits) (exponent : Int) :
    IsDecimal (first :: fraction ++ (exponentText exponent).toList) := by
  intro isNegative
  obtain ⟨sign, isSign, digits, isDigits, power⟩ := toList_exponentText exponent
  have whole : IsDigits [first] := ⟨List.cons_ne_nil _ _, by simpa using isDigit⟩
  have lead : [first].head? = some '0' → [first] = ['0'] := fun same => by cases same; rfl
  have isPower : (exponentText exponent).toList ≠ [] := power ▸ List.cons_ne_nil _ _
  exact ⟨⟨isNegative, [first], fraction, _, whole, lead, form,
    .inr ⟨'e', sign, digits, .inl rfl, isSign, isDigits, power⟩⟩, rfl, rfl, .inr isPower⟩

theorem layout_isDecimal {digits : Digits} (proper : digits.Proper) :
    IsDecimal (layout digits).toList := by
  have textDigits := isDigits_toDigits digits.digits
  have zero := proper ∘ head_toDigits
  simp only [layout, Nat.toString_eq_repr, Nat.toList_repr, Bool.and_eq_true, decide_eq_true_eq]
  split_ifs with padded inside small
  · rw [String.toList_append, String.toList_ofList]
    refine isDecimal_fraction _ ['0']
      (isDigits_append textDigits fun _ => isDigit_of_mem_replicate) ?_ isDigits_zero
    intro lead
    rw [List.head?_append, Option.or_of_isSome (by simp)] at lead
    rw [zero lead, head_toDigits lead]
    rfl
  · -- without a zero in front, as zero has no place after the point
    generalize Nat.toDigits 10 digits.digits = text at *
    simp only [String.toList_append, String.toList_ofList, List.append_assoc]
    generalize same : (text.length + digits.exponent).toNat = point
    refine isDecimal_fraction (text.take point) (text.drop point)
      ⟨?_, fun _ member => textDigits.right _ (List.mem_of_mem_take member)⟩ ?_
      ⟨?_, fun _ member => textDigits.right _ (List.mem_of_mem_drop member)⟩
    · rw [ne_eq, List.take_eq_nil_iff]
      exact not_or.mpr ⟨by omega, textDigits.left⟩
    · intro lead
      rw [List.head?_take, if_neg (by omega)] at lead
      have := zero lead
      omega
    · rw [ne_eq, List.drop_eq_nil_iff]
      omega
  · refine isDecimal_small ⟨List.append_ne_nil_of_right_ne_nil _ textDigits.left, ?_⟩
    intro char member
    exact (List.mem_append.mp member).elim isDigit_of_mem_replicate (textDigits.right char)
  · generalize Nat.toDigits 10 digits.digits = text at *
    rw [String.toList_append]
    have all := textDigits.right
    match text with
    | [] => exact absurd rfl textDigits.left
    | [first] =>
      rw [String.toList_ofList]
      exact isDecimal_power (all first List.mem_cons_self) (.inl rfl) _
    | first :: second :: rest =>
      rw [String.toList_ofList]
      refine isDecimal_power (all first List.mem_cons_self) (.inr ⟨second :: rest, ⟨?_, ?_⟩, rfl⟩) _
      · exact List.cons_ne_nil _ _
      · exact fun char member => all char (List.mem_cons_of_mem _ member)

end Shortest

namespace Binary64

open JsonText

theorem toList_text (number : Binary64) : ∃ text, Shortest.IsDecimal text ∧
    number.text.toList = (if number.isNegative then ['-'] else []) ++ text := by
  have sign : (if number.isNegative then "-" else "").toList =
      if number.isNegative then ['-'] else [] := by
    split <;> rfl
  by_cases isZero : number.magnitude = 0
  · refine ⟨_, Shortest.isDecimal_fraction ['0'] ['0'] Shortest.isDigits_zero (fun _ => rfl)
      Shortest.isDigits_zero, ?_⟩
    simp only [text, if_pos isZero, String.toList_append, sign]
    rfl
  · refine ⟨_, Shortest.layout_isDecimal (Shortest.digits_proper isZero), ?_⟩
    simp only [text, if_neg isZero, String.toList_append, sign]

/-- A double is written as a number that is no integer. -/
theorem text_numeral (number : Binary64) :
    ∃ numeral : Numeral, numeral.json = .decimal number.text := by
  obtain ⟨text, isDecimal, parts⟩ := number.toList_text
  obtain ⟨numeral, sign, body, notInteger⟩ := isDecimal number.isNegative
  have chars : numeral.chars = number.text.toList := by rw [Numeral.chars, sign, body, parts]
  refine ⟨numeral, ?_⟩
  simp only [Numeral.json, chars, String.ofList_toList]
  rw [if_neg]
  rcases notInteger with some | some <;> simp [some]

end Binary64

end ScriptTyping
