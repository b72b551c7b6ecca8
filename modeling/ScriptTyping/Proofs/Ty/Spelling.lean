import ScriptTyping.Ty.Written

/-!
How tokens are spelled. Names are as long as they can be, every other character that is not blank is
a mark, and blanks may stand before, between and after the tokens. So a text has one list of tokens,
which is the list that it is cut into.
-/

namespace ScriptTyping

namespace TypeText

def Apart (chars : List Char) : Prop := ∀ char ∈ chars.head?, isNameChar char = false

def IsName (name : String) : Prop :=
  name.toList ≠ [] ∧ ∀ char ∈ name.toList, isNameChar char = true

-- There are finitely many characters, but trying all of them takes too long.
instance (name : String) : Decidable (IsName name) :=
  decidable_of_iff (name.toList ≠ [] ∧ name.toList.all isNameChar = true) (by
    rw [IsName, List.all_eq_true])

inductive Spells : List Token → List Char → Prop where
  | nil : Spells [] []
  | gap {char : Char} {tokens : List Token} {chars : List Char} : isGap char = true →
      Spells tokens chars → Spells tokens (char :: chars)
  | mark {char : Char} {tokens : List Token} {chars : List Char} : isNameChar char = false →
      isGap char = false → Spells tokens chars → Spells (.mark char :: tokens) (char :: chars)
  | name {name : String} {tokens : List Token} {chars : List Char} : IsName name → Apart chars →
      Spells tokens chars → Spells (.name name :: tokens) (name.toList ++ chars)

variable {tokens later : List Token} {chars more reversed : List Char} {char : Char} {name : String}

theorem apart_nil : Apart [] := by simp [Apart]

theorem apart_cons (stops : isNameChar char = false) : Apart (char :: chars) := by
  simpa [Apart] using stops

theorem apart_append (first : Apart chars) (second : Apart more) : Apart (chars ++ more) := by
  cases chars with
  | nil => exact second
  | cons char chars => exact apart_cons (first char rfl)

theorem isNameChar_of_isGap (blank : isGap char = true) : isNameChar char = false := by
  simp only [isGap, Bool.or_eq_true, beq_iff_eq] at blank
  rcases blank with (((rfl | rfl) | rfl) | rfl) | rfl <;> rfl

/-- Two texts that do not run into one name spell the tokens of both. -/
theorem Spells.append (first : Spells tokens chars) (second : Spells later more)
    (apart : Apart more) : Spells (tokens ++ later) (chars ++ more) := by
  induction first with
  | nil => exact second
  | gap blank _ ih => exact .gap blank ih
  | mark other solid _ ih => exact .mark other solid ih
  | name isName ends _ ih =>
      rw [List.append_assoc]
      exact .name isName (apart_append ends apart) ih

theorem Spells.single (isName : IsName name) : Spells [.name name] name.toList := by
  have spells := Spells.name isName apart_nil .nil
  rwa [List.append_nil] at spells

/-- The names among spelled tokens are names. -/
theorem Spells.isName (spells : Spells tokens chars) (inside : Token.name name ∈ tokens) :
    IsName name := by
  induction spells with
  | nil => cases inside
  | gap _ _ ih => exact ih inside
  | mark _ _ _ ih =>
      rcases List.mem_cons.mp inside with same | inside
      · cases same
      · exact ih inside
  | name isName _ _ ih =>
      rcases List.mem_cons.mp inside with same | inside
      · cases same
        exact isName
      · exact ih inside

/-! ### Cutting into tokens -/

theorem tokensFrom_append (all : ∀ char ∈ more, isNameChar char = true) (reversed : List Char) :
    tokensFrom reversed (more ++ chars) = tokensFrom (more.reverse ++ reversed) chars := by
  induction more generalizing reversed with
  | nil => rfl
  | cons char more ih =>
      obtain ⟨isFirst, others⟩ := List.forall_mem_cons.mp all
      rw [List.cons_append, tokensFrom, if_pos isFirst, ih others, List.reverse_cons,
        List.append_assoc, List.singleton_append]

theorem tokensFrom_apart (apart : Apart chars) (reversed : List Char) :
    tokensFrom reversed chars = endName reversed (tokensFrom [] chars) := by
  cases chars with
  | nil => rfl
  | cons char chars =>
      have stops := apart char rfl
      simp only [tokensFrom, stops, Bool.false_eq_true, if_false]
      split <;> rfl

theorem tokensFrom_of_spells (spells : Spells tokens chars) : tokensFrom [] chars = tokens := by
  induction spells with
  | nil => rfl
  | gap blank _ ih =>
      rw [tokensFrom, if_neg (by rw [isNameChar_of_isGap blank]; decide), if_pos blank, ih]
      rfl
  | mark other solid _ ih =>
      rw [tokensFrom, if_neg (by rw [other]; decide), if_neg (by rw [solid]; decide), ih]
      rfl
  | @name name _ _ isName apart _ ih =>
      obtain ⟨some, all⟩ := isName
      rw [tokensFrom_append all, List.append_nil, tokensFrom_apart apart, ih, endName]
      · rw [List.reverse_reverse, String.ofList_toList]
      · simpa using some

theorem Spells.endName (all : ∀ char ∈ reversed, isNameChar char = true) (apart : Apart chars)
    (spells : Spells tokens chars) :
    Spells (endName reversed tokens) (reversed.reverse ++ chars) := by
  cases reversed with
  | nil => exact spells
  | cons char reversed =>
      have isName : IsName (String.ofList (char :: reversed).reverse) := by
        rw [IsName, String.toList_ofList]
        exact ⟨by simp, fun _ member => all _ (List.mem_reverse.mp member)⟩
      have spells := Spells.name isName apart spells
      rwa [String.toList_ofList] at spells

/-- The induction is on the characters that are left, and the name that is being read may be any. -/
theorem spells_tokensFrom (all : ∀ char ∈ reversed, isNameChar char = true) :
    Spells (tokensFrom reversed chars) (reversed.reverse ++ chars) := by
  induction chars generalizing reversed with
  | nil => exact .endName all apart_nil .nil
  | cons char chars ih =>
      rw [tokensFrom]
      split
      · rename_i isNext
        have spells := ih (List.forall_mem_cons.mpr ⟨isNext, all⟩)
        rwa [List.reverse_cons, List.append_assoc, List.singleton_append] at spells
      · rename_i stops
        rw [Bool.not_eq_true] at stops
        have rest : Spells (tokensFrom [] chars) chars := ih nofun
        split
        · rename_i blank
          exact .endName all (apart_cons stops) (.gap blank rest)
        · rename_i solid
          rw [Bool.not_eq_true] at solid
          exact .endName all (apart_cons stops) (.mark stops solid rest)

/-- The tokens of a text are those that it spells. -/
theorem tokens_eq_iff {text : String} : TypeText.tokens text = later ↔ Spells later text.toList := by
  constructor
  · rintro rfl
    have none : ∀ char ∈ ([] : List Char), isNameChar char = true := nofun
    exact spells_tokensFrom none
  · exact tokensFrom_of_spells

end TypeText

end ScriptTyping
