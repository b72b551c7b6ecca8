import ScriptTyping.Proofs.Literal.Integer

/-!
Quoted literals. However the characters of a text are escaped between quotes, the literal denotes
that text, and a literal of a single character folds to a character.
-/

namespace ScriptTyping

namespace Literal

open NumberText

/-! ### Escapes -/

def letters : List (Char × Char) :=
  [('n', '\n'), ('t', '\t'), ('r', '\r'), ('b', '\x08'), ('f', '\x0c'), ('0', '\x00')]

inductive Spells (char : Char) : List Char → Prop
  | itself : char ≠ '\\' → Spells char [char]
  | letter {letter : Char} : (letter, char) ∈ letters → Spells char ['\\', letter]
  | escaped : char ∉ ['n', 't', 'r', 'b', 'f', '0', 'u'] → Spells char ['\\', char]
  | code {digits : List Char} : digits.length = 4 → Digits 16 digits char.toNat →
      Spells char ('\\' :: 'u' :: digits)

/-- Whether a text is another one between quotes, each of its characters written in some way. -/
def Quotes (text denoted : String) : Prop :=
  ∃ quote pieces, (quote = '"' ∨ quote = '\'') ∧ List.Forall₂ Spells denoted.toList pieces ∧
    text.toList = quote :: pieces.flatten ++ [quote]

variable {char : Char} {piece rest : List Char}

theorem unescape_itself (plain : char ≠ '\\') (rest : List Char) :
    unescape (char :: rest) = char :: unescape rest := by
  rw [unescape]
  all_goals simp [plain]

theorem unescape_backslash (other : char ≠ 'u') (rest : List Char) :
    unescape ('\\' :: char :: rest) = escaped char :: unescape rest := by
  rw [unescape]
  simpa using other

theorem escaped_letter {letter : Char} (listed : (letter, char) ∈ letters) :
    letter ≠ 'u' ∧ escaped letter = char := by
  revert listed
  simp only [letters, List.mem_cons, Prod.mk.injEq, List.not_mem_nil, or_false]
  rintro (⟨rfl, rfl⟩ | ⟨rfl, rfl⟩ | ⟨rfl, rfl⟩ | ⟨rfl, rfl⟩ | ⟨rfl, rfl⟩ | ⟨rfl, rfl⟩) <;> decide

theorem escaped_other (unlisted : char ∉ ['n', 't', 'r', 'b', 'f', '0', 'u']) :
    char ≠ 'u' ∧ escaped char = char := by
  constructor
  · rintro rfl
    exact unlisted (by decide)
  · unfold escaped
    split <;> first | rfl | exact absurd (by decide) unlisted

theorem codePoint?_digits {digits : List Char} (code : Digits 16 digits char.toNat) :
    codePoint? digits = some char := by
  have isValid : char.toNat.isValidChar := char.valid
  have inside : char.toNat ≤ Nat.pow 2 32 - 1 := Nat.le_pred_of_lt char.val.toNat_lt
  rw [codePoint?, readNat32, readInteger_digits (by decide) code inside]
  dsimp only
  rw [Int.toNat_natCast, if_pos isValid, Char.ofNat_toNat]

/-- However a character is written, it is read again, whatever follows. -/
theorem unescape_spells (spells : Spells char piece) (rest : List Char) :
    unescape (piece ++ rest) = char :: unescape rest := by
  cases spells with
  | itself plain => exact unescape_itself plain rest
  | letter listed =>
      obtain ⟨other, denotes⟩ := escaped_letter listed
      exact (unescape_backslash other rest).trans (by rw [denotes])
  | escaped unlisted =>
      obtain ⟨other, denotes⟩ := escaped_other unlisted
      exact (unescape_backslash other rest).trans (by rw [denotes])
  | @code digits four code =>
      have reads : unescape ('\\' :: 'u' :: (digits ++ rest)) =
          unicodeEscape ((digits ++ rest).take 4) ++ unescape ((digits ++ rest).drop 4) := by
        rw [unescape]
      rw [List.take_left' four, List.drop_left' four, unicodeEscape, codePoint?_digits code] at reads
      exact reads

theorem unescape_flatten {chars : List Char} {pieces : List (List Char)}
    (written : List.Forall₂ Spells chars pieces) : unescape pieces.flatten = chars := by
  induction written with
  | nil =>
      rw [List.flatten_nil, unescape]
  | cons spells _ ih => rw [List.flatten_cons, unescape_spells spells, ih]

theorem withoutQuotes_quoted {quote : Char} (isQuote : quote = '"' ∨ quote = '\'')
    (chars : List Char) : withoutQuotes (quote :: chars ++ [quote]) = chars := by
  rw [List.cons_append, withoutQuotes, if_pos ⟨isQuote, List.getLast?_concat⟩, List.dropLast_concat]

theorem unquote_quotes {text denoted : String} (quotes : Quotes text denoted) :
    unquote text = denoted := by
  obtain ⟨quote, pieces, isQuote, written, isText⟩ := quotes
  rw [unquote, isText, withoutQuotes_quoted isQuote, unescape_flatten written, String.ofList_toList]

end Literal

/-! ### Folding -/

namespace Rule

open Check

variable {state : CheckState} {id : NodeId} {char : Char}

theorem run_character_single (single : (Literal.unquote (state.tree.text id)).toList = [char]) :
    (character id).run.run state = .ok (.ok .char, state.folded id .char (.char char) []) := by
  have reads : (textOf id).run.run state = .ok (.ok (state.tree.text id), state) := rfl
  rw [character, run_bind, reads]
  dsimp only
  rw [single]
  exact run_setConst

theorem run_character_text (several : ∀ char, (Literal.unquote (state.tree.text id)).toList ≠ [char]) :
    (character id).run.run state =
      .ok (.ok .string, state.folded id .string (.string (Literal.unquote (state.tree.text id))) []) := by
  have reads : (textOf id).run.run state = .ok (.ok (state.tree.text id), state) := rfl
  rw [character, run_bind, reads]
  dsimp only
  split
  · rename_i char single
    exact absurd single (several char)
  · exact run_setConst

/-- However a text is written between quotes, the literal denotes it. A literal for a `char` folds to
a character if it denotes just that one, and to the text that it denotes otherwise. -/
theorem quoted_folds {text denoted : String} (quotes : Literal.Quotes text denoted) :
    Literal.unquote text = denoted ∧
    ∀ (state : CheckState) (id : NodeId), id < state.tree.nodes.size → state.tree.text id = text →
      (∀ char, (character id).run.run state =
        .ok (.ok .char, state.folded id .char (.char char) []) ↔ denoted.toList = [char]) ∧
      ((∀ char, denoted.toList ≠ [char]) → (character id).run.run state =
        .ok (.ok .string, state.folded id .string (.string denoted) [])) := by
  have denotes := Literal.unquote_quotes quotes
  refine ⟨denotes, fun state id bound isText => ?_⟩
  rw [← isText] at denotes
  refine ⟨fun char => ⟨fun same => ?_, fun single => ?_⟩, fun several => ?_⟩
  · by_cases single : ∃ other, denoted.toList = [other]
    · obtain ⟨other, single⟩ := single
      rw [run_character_single (by rw [denotes, single])] at same
      have folds := (Prod.mk.inj (Except.ok.inj same)).2
      rw [single, Const.char.inj (folded_inj bound folds).1]
    · rw [run_character_text (by rw [denotes]; exact not_exists.mp single)] at same
      cases Except.ok.inj (Prod.mk.inj (Except.ok.inj same)).1
  · exact run_character_single (by rw [denotes, single])
  · rw [run_character_text (by rw [denotes]; exact several), denotes]

/-- A quote, two accented letters, a line feed and a backslash, each written in another way. -/
theorem quoted_folds_mixed :
    Literal.unquote "\"\\\"\\u00e9é\\n\\\\\"" = "\"éé\n\\" ∧
      (character 0).run.run (atLiteral "'\\u0027'") =
        .ok (.ok .char, (atLiteral "'\\u0027'").folded 0 .char (.char '\'') []) := by
  have accented : NumberText.Digits 16 ['0', '0', 'e', '9'] 'é'.toNat :=
    ⟨by decide, [0, 0, 14, 9], by decide, by decide⟩
  have mixed : Literal.Quotes "\"\\\"\\u00e9é\\n\\\\\"" "\"éé\n\\" := by
    have chars : "\"éé\n\\".toList = ['"', 'é', 'é', '\n', '\\'] := by decide
    refine ⟨'"', [['\\', '"'], ['\\', 'u', '0', '0', 'e', '9'], ['é'], ['\\', 'n'], ['\\', '\\']],
      .inl rfl, ?_, by decide⟩
    rw [chars]
    exact .cons (.escaped (by decide)) (.cons (.code rfl accented) (.cons (.itself (by decide))
      (.cons (.letter (by decide)) (.cons (.escaped (by decide)) .nil))))
  have quote : Literal.Quotes "'\\u0027'" "'" := by
    have chars : "'".toList = ['\''] := by decide
    refine ⟨'\'', [['\\', 'u', '0', '0', '2', '7']], .inr rfl, ?_, by decide⟩
    rw [chars]
    exact .cons (.code rfl ⟨by decide, [0, 0, 2, 7], by decide, by decide⟩) .nil
  have folds := (quoted_folds quote).2 (atLiteral "'\\u0027'") 0 Nat.one_pos rfl
  exact ⟨(quoted_folds mixed).1, (folds.1 _).mpr (by decide)⟩

end Rule

end ScriptTyping
