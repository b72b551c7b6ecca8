import Mathlib.Data.List.Forall2
import ScriptTyping.Proofs.Json.Decimal

/-!
JSON values as they are written, on one line or laid out, and that they are read back. What a value
is read as does not depend on what follows it, as long as no number goes on there.
-/

namespace ScriptTyping

inductive Json.Writable : Json → Prop where
  | null : Writable .null
  | bool (value : Bool) : Writable (.bool value)
  | integer (value : Int) : Writable (.integer value)
  | decimal {text : String} (numeral : JsonText.Numeral) (isDecimal : numeral.json = .decimal text) :
      Writable (.decimal text)
  | string (value : String) : Writable (.string value)
  | array {items : List Json} : (∀ item ∈ items, Writable item) → Writable (.array items)
  | object {members : List (String × Json)} : (∀ member ∈ members, Writable member.2) →
      Writable (.object members)

namespace JsonText

/-! ### Gaps -/

def IsGap (text : List Char) : Prop := ∀ char ∈ text, isGap char = true

theorem skipGaps_append {gap : List Char} (blank : IsGap gap) (rest : List Char) :
    skipGaps (gap ++ rest) = skipGaps rest :=
  List.dropWhile_append_of_pos blank

theorem skipGaps_cons {first : Char} (solid : isGap first = false) (rest : List Char) :
    skipGaps (first :: rest) = first :: rest := by
  rw [skipGaps, List.dropWhile_cons, if_neg (by simp [solid])]

/-! ### One value -/

structure Reads (text : List Char) (json : Json) : Prop where
  starts : ∃ first rest, text = first :: rest ∧ isGap first = false ∧ first ≠ ']'
  read : ∀ {fuel : Nat} {rest : List Char}, 2 * text.length ≤ fuel → Ends rest →
    readValue fuel (text ++ rest) = some (json, rest)

theorem Reads.skipGaps {text : List Char} {json : Json} (reads : Reads text json)
    (rest : List Char) : skipGaps (text ++ rest) = text ++ rest := by
  obtain ⟨first, more, rfl, solid, _⟩ := reads.starts
  exact skipGaps_cons solid _

theorem Reads.ofSucc {first : Char} {more : List Char} {json : Json} (solid : isGap first = false)
    (opens : first ≠ ']') (read : ∀ {fuel rest}, 2 * more.length + 1 ≤ fuel → Ends rest →
      readValue (fuel + 1) (first :: (more ++ rest)) = some (json, rest)) :
    Reads (first :: more) json := by
  refine ⟨⟨first, more, rfl, solid, opens⟩, fun {fuel rest} enough ends => ?_⟩
  rw [List.length_cons] at enough
  obtain ⟨fuel, rfl⟩ := Nat.exists_eq_add_of_lt (show 0 < fuel by omega)
  rw [Nat.zero_add, List.cons_append]
  exact read (by omega) ends

theorem reads_null : Reads "null".toList .null := .ofSucc rfl (by decide) fun _ _ => rfl

theorem reads_bool (value : Bool) :
    Reads (if value then "true" else "false").toList (.bool value) := by
  cases value with
  | true => exact .ofSucc rfl (by decide) fun _ _ => rfl
  | false => exact .ofSucc rfl (by decide) fun _ _ => rfl

theorem reads_string (value : String) : Reads (quote value).toList (.string value) := by
  rw [toList_quote]
  refine .ofSucc rfl (by decide) fun {fuel rest} _ _ => ?_
  rw [List.append_assoc, List.singleton_append, readValue, readString_escaped,
    String.ofList_toList]
  rfl

theorem Numeral.reads (numeral : Numeral) : Reads numeral.chars numeral.json := by
  have starts : ∃ first rest, numeral.chars = first :: rest ∧ isGap first = false ∧ first ≠ ']' := by
    rw [chars, body]
    split
    · exact ⟨_, _, rfl, rfl, by decide⟩
    · obtain ⟨first, more, form⟩ := List.exists_cons_of_ne_nil numeral.whole_digits.left
      have isDigit := numeral.whole_digits.right first (form ▸ List.mem_cons_self)
      refine ⟨first, _, by rw [form]; rfl, ?_, ?_⟩
      · exact Bool.eq_false_iff.mpr fun blank => by
          simp only [isGap, Bool.or_eq_true, beq_iff_eq] at blank
          rcases blank with ((rfl | rfl) | rfl) | rfl <;> contradiction
      · rintro rfl
        contradiction
  refine ⟨starts, fun {fuel rest} enough ends => ?_⟩
  obtain ⟨first, more, form, _⟩ := starts
  rw [form, List.length_cons] at enough
  obtain ⟨fuel, rfl⟩ := Nat.exists_eq_add_of_lt (show 0 < fuel by omega)
  rw [Nat.zero_add]
  exact numeral.readValue_chars ends fuel

/-! ### Items and members -/

theorem ends_gap {gap rest : List Char} {next : Char} (blank : IsGap gap)
    (stops : goesOn next = false) : Ends (gap ++ next :: rest) := by
  cases gap with
  | nil => exact ends_cons stops
  | cons char gap =>
      have isGap := blank char List.mem_cons_self
      refine ends_cons ?_
      simp only [JsonText.isGap, Bool.or_eq_true, beq_iff_eq] at isGap
      rcases isGap with ((rfl | rfl) | rfl) | rfl <;> rfl

def ReadsMember (text : List Char) (member : String × Json) : Prop :=
  ∃ gap value, IsGap gap ∧ Reads value member.2 ∧
    text = (quote member.1).toList ++ ':' :: (gap ++ value)

def afterMember (fuel : Nat) (member : String × Json) (text : List Char) :
    Option (List (Option String × Json) × List Char) :=
  match skipGaps text with
  | ',' :: rest => do
    let (members, rest) ← readMembers fuel rest
    some ((some member.1, member.2) :: members, rest)
  | '\x7d' :: rest => some ([(some member.1, member.2)], rest)
  | _ => none

theorem ReadsMember.readMembers_eq {text : List Char} {member : String × Json}
    (reads : ReadsMember text member) {front rest : List Char} (frontBlank : IsGap front)
    {fuel : Nat} (enough : 2 * text.length ≤ fuel) (ends : Ends rest) :
    readMembers (fuel + 1) (front ++ (text ++ rest)) = afterMember fuel member rest := by
  obtain ⟨name, value⟩ := member
  obtain ⟨gap, written, gapBlank, isValue, rfl⟩ := reads
  simp only [List.length_append, List.length_cons] at enough
  have readWritten := isValue.read (show 2 * written.length ≤ fuel by omega) ends
  rw [readMembers, skipGaps_append frontBlank, toList_quote]
  simp only [List.cons_append, List.append_assoc, List.nil_append]
  rw [skipGaps_cons rfl]
  simp only [readString_escaped, Option.bind_eq_bind, Option.bind_some]
  rw [skipGaps_cons rfl]
  simp only [skipGaps_append gapBlank, isValue.skipGaps, readWritten, Option.bind_some,
    String.ofList_toList]
  rfl

section Sequences

variable {lead close : List Char} (leadBlank : IsGap lead) (closeBlank : IsGap close)

include leadBlank closeBlank

theorem readItems_joined {texts : List (List Char)} {items : List Json}
    (reads : List.Forall₂ Reads texts items) (some : texts ≠ []) :
    ∀ (front rest : List Char) (fuel : Nat), IsGap front →
      2 * ((',' :: lead).intercalate texts ++ close).length + 3 ≤ fuel →
      readItems fuel (front ++ ((',' :: lead).intercalate texts ++ (close ++ ']' :: rest))) =
        .some (items, rest) := by
  induction reads with
  | nil => exact absurd rfl some
  | @cons text item texts items first others ih =>
      intro front rest fuel frontBlank enough
      obtain ⟨fuel, rfl⟩ := Nat.exists_eq_add_of_lt (show 0 < fuel by omega)
      rw [Nat.zero_add, readItems, skipGaps_append frontBlank]
      cases texts with
      | nil =>
          cases others
          rw [List.intercalate_singleton] at enough ⊢
          rw [List.length_append] at enough
          rw [first.skipGaps, first.read (by omega) (ends_gap closeBlank rfl)]
          simp only [Option.bind_eq_bind, Option.bind_some, skipGaps_append closeBlank]
          rfl
      | cons next texts =>
          rw [List.intercalate_cons_cons] at enough ⊢
          simp only [List.append_assoc, List.cons_append, List.length_append, List.length_cons]
            at enough ⊢
          have again := ih (List.cons_ne_nil _ _) lead rest fuel leadBlank (by simp; omega)
          rw [first.skipGaps, first.read (by omega) (ends_cons rfl)]
          simp only [Option.bind_eq_bind, Option.bind_some]
          rw [skipGaps_cons rfl]
          simp only [again, Option.bind_some]

theorem readMembers_joined {texts : List (List Char)} {members : List (String × Json)}
    (reads : List.Forall₂ ReadsMember texts members) (some : texts ≠ []) :
    ∀ (front rest : List Char) (fuel : Nat), IsGap front →
      2 * ((',' :: lead).intercalate texts ++ close).length + 3 ≤ fuel →
      readMembers fuel (front ++ ((',' :: lead).intercalate texts ++ (close ++ '\x7d' :: rest))) =
        .some (members.map fun (name, value) => (.some name, value), rest) := by
  induction reads with
  | nil => exact absurd rfl some
  | @cons text member texts members first others ih =>
      intro front rest fuel frontBlank enough
      obtain ⟨fuel, rfl⟩ := Nat.exists_eq_add_of_lt (show 0 < fuel by omega)
      rw [Nat.zero_add]
      cases texts with
      | nil =>
          cases others
          rw [List.intercalate_singleton] at enough ⊢
          rw [List.length_append] at enough
          rw [first.readMembers_eq frontBlank (by omega) (ends_gap closeBlank rfl), afterMember,
            skipGaps_append closeBlank]
          rfl
      | cons next texts =>
          rw [List.intercalate_cons_cons] at enough ⊢
          simp only [List.append_assoc, List.cons_append, List.length_append, List.length_cons]
            at enough ⊢
          have again := ih (List.cons_ne_nil _ _) lead rest fuel leadBlank (by simp; omega)
          rw [first.readMembers_eq frontBlank (by omega) (ends_cons rfl), afterMember,
            skipGaps_cons rfl]
          simp only [again, Option.bind_eq_bind, Option.bind_some, List.map_cons]

end Sequences

theorem mapM_named (members : List (String × Json)) :
    (members.map fun (name, value) => (some name, value)).mapM
      (fun (name, value) => name.map fun name => (name, value)) = some members := by
  induction members with
  | nil => rfl
  | cons member members ih => simp [ih]

theorem ofMembers_named (members : List (String × Json)) :
    ofMembers (members.map fun (name, value) => (some name, value)) = .object members := by
  rw [ofMembers, mapM_named]

theorem exists_intercalate {α : Type} (separator : List α) (first : List α)
    (texts : List (List α)) : ∃ tail, separator.intercalate (first :: texts) = first ++ tail := by
  cases texts with
  | nil => exact ⟨[], by rw [List.intercalate_singleton, List.append_nil]⟩
  | cons next texts => exact ⟨_, by rw [List.intercalate_cons_cons, List.append_assoc]⟩

section Brackets

variable {lead close : List Char} (leadBlank : IsGap lead) (closeBlank : IsGap close)

include leadBlank closeBlank

theorem reads_array {texts : List (List Char)} {items : List Json}
    (reads : List.Forall₂ Reads texts items) (some : texts ≠ []) :
    Reads ('[' :: (lead ++ ((',' :: lead).intercalate texts ++ (close ++ [']']))))
      (.array items) := by
  refine .ofSucc rfl (by decide) fun {fuel rest} enough _ => ?_
  have read := readItems_joined leadBlank closeBlank reads some [] rest fuel (by simp [IsGap])
    (by simp at enough ⊢; omega)
  obtain ⟨first, more, form, solid, opens⟩ : ∃ first more,
      (',' :: lead).intercalate texts ++ (close ++ ']' :: rest) = first :: more ∧
        isGap first = false ∧ first ≠ ']' := by
    cases reads with
    | nil => exact absurd rfl some
    | cons isItem others =>
        obtain ⟨first, more, rfl, solid, opens⟩ := isItem.starts
        obtain ⟨tail, form⟩ := exists_intercalate (',' :: lead) (first :: more) _
        exact ⟨first, _, by rw [form]; rfl, solid, opens⟩
  simp only [List.append_assoc, List.singleton_append, List.nil_append] at read ⊢
  rw [readValue, skipGaps_append leadBlank, form, skipGaps_cons solid]
  rw [form] at read
  split
  · rename_i same
    cases same
    exact absurd rfl opens
  · rw [read]
    rfl

theorem reads_object {texts : List (List Char)} {members : List (String × Json)}
    (reads : List.Forall₂ ReadsMember texts members) (some : texts ≠ []) :
    Reads ('\x7b' :: (lead ++ ((',' :: lead).intercalate texts ++ (close ++ ['\x7d']))))
      (.object members) := by
  refine .ofSucc rfl (by decide) fun {fuel rest} enough _ => ?_
  have read := readMembers_joined leadBlank closeBlank reads some [] rest fuel (by simp [IsGap])
    (by simp at enough ⊢; omega)
  obtain ⟨more, form⟩ : ∃ more,
      (',' :: lead).intercalate texts ++ (close ++ '\x7d' :: rest) = '"' :: more := by
    cases reads with
    | nil => exact absurd rfl some
    | cons isMember others =>
        obtain ⟨gap, value, _, _, rfl⟩ := isMember
        obtain ⟨tail, form⟩ := exists_intercalate (',' :: lead) _ _
        exact ⟨_, by rw [form, toList_quote]; rfl⟩
  simp only [List.append_assoc, List.singleton_append, List.nil_append] at read ⊢
  rw [readValue, skipGaps_append leadBlank, form, skipGaps_cons rfl]
  rw [form] at read
  show (do let (members, rest) ← readMembers fuel _; Option.some (ofMembers members, rest)) = _
  rw [read]
  simp only [Option.bind_eq_bind, Option.bind_some, ofMembers_named]

end Brackets

/-! ### Whole values -/

theorem compactItems_eq_map (items : List Json) : compactItems items = items.map compact := by
  induction items with
  | nil => rfl
  | cons item items ih => rw [compactItems, ih, List.map_cons]

def compactMember (member : String × Json) : String := quote member.1 ++ ":" ++ compact member.2

theorem compactMembers_eq_map (members : List (String × Json)) :
    compactMembers members = members.map compactMember := by
  induction members with
  | nil => rfl
  | cons member members ih => rw [compactMembers, ih, List.map_cons, compactMember]

theorem prettyItems_eq_map (level : Nat) (items : List Json) :
    prettyItems level items = items.map (pretty level) := by
  induction items with
  | nil => rfl
  | cons item items ih => rw [prettyItems, ih, List.map_cons]

def prettyMember (level : Nat) (member : String × Json) : String :=
  quote member.1 ++ ": " ++ pretty level member.2

theorem prettyMembers_eq_map (level : Nat) (members : List (String × Json)) :
    prettyMembers level members = members.map (prettyMember level) := by
  induction members with
  | nil => rfl
  | cons member members ih => rw [prettyMembers, ih, List.map_cons, prettyMember]

theorem isGap_nil : IsGap [] := fun _ inside => by simp at inside

theorem isGap_indent (level : Nat) : IsGap (indent level).toList := by
  intro char inside
  simp only [indent, String.toList_append, String.toList_ofList, List.mem_append,
    List.mem_replicate] at inside
  rcases inside with newline | ⟨_, rfl⟩
  · simp at newline
    subst newline
    rfl
  · rfl

theorem readsMember_compact {member : String × Json}
    (reads : Reads (compact member.2).toList member.2) :
    ReadsMember (compactMember member).toList member :=
  ⟨[], _, isGap_nil, reads, by simp [compactMember]⟩

theorem readsMember_pretty {level : Nat} {member : String × Json}
    (reads : Reads (pretty level member.2).toList member.2) :
    ReadsMember (prettyMember level member).toList member :=
  ⟨[' '], _, by simp [IsGap, isGap], reads, by simp [prettyMember]⟩

theorem forall₂_map {α : Type} {R : List Char → α → Prop} {write : α → String} {values : List α}
    (written : ∀ value ∈ values, R (write value).toList value) :
    List.Forall₂ R ((values.map write).map String.toList) values := by
  rw [List.map_map, List.forall₂_map_left_iff, List.forall₂_same]
  exact written

theorem reads_integer (value : Int) : Reads (toString value).toList (.integer value) := by
  rw [← Numeral.chars_ofInt, ← Numeral.json_ofInt]
  exact (Numeral.ofInt value).reads

theorem reads_decimal {text : String} {numeral : Numeral} (isDecimal : numeral.json = .decimal text) :
    Reads text.toList (.decimal text) := by
  rw [← Numeral.chars_of_decimal isDecimal, ← isDecimal]
  exact numeral.reads

theorem reads_emptyArray : Reads "[]".toList (.array []) :=
  .ofSucc rfl (by decide) fun _ _ => rfl

theorem reads_emptyObject : Reads "\x7b\x7d".toList (.object []) :=
  .ofSucc rfl (by decide) fun _ _ => rfl

/-- A value on one line is read back. -/
theorem reads_compact {json : Json} (writable : json.Writable) :
    Reads (compact json).toList json := by
  induction writable with
  | null => exact reads_null
  | bool value => exact reads_bool value
  | integer value => exact reads_integer value
  | decimal numeral isDecimal => exact reads_decimal isDecimal
  | string value => exact reads_string value
  | @array items _ ih =>
      rw [compact, compactItems_eq_map]
      cases items with
      | nil => exact reads_emptyArray
      | cons item items =>
          have reads := reads_array isGap_nil isGap_nil (forall₂_map ih) (by simp)
          simpa [String.toList_intercalate] using reads
  | @object members _ ih =>
      rw [compact, compactMembers_eq_map]
      cases members with
      | nil => exact reads_emptyObject
      | cons member members =>
          have written := forall₂_map fun member inside => readsMember_compact (ih member inside)
          have reads := reads_object isGap_nil isGap_nil written (by simp)
          simpa [String.toList_intercalate] using reads

/-- A value that is laid out is read back, whatever the level. -/
theorem reads_pretty {json : Json} (writable : json.Writable) (level : Nat) :
    Reads (pretty level json).toList json := by
  induction writable generalizing level with
  | null => exact reads_null
  | bool value => exact reads_bool value
  | integer value => exact reads_integer value
  | decimal numeral isDecimal => exact reads_decimal isDecimal
  | string value => exact reads_string value
  | @array items _ ih =>
      cases items with
      | nil => exact reads_emptyArray
      | cons item items =>
          have written := forall₂_map fun item inside => ih item inside (level + 1)
          have reads := reads_array (isGap_indent (level + 1)) (isGap_indent level) written (by simp)
          rw [pretty, prettyItems_eq_map]
          · simpa [String.toList_intercalate] using reads
          · exact List.cons_ne_nil _ _
  | @object members _ ih =>
      cases members with
      | nil => exact reads_emptyObject
      | cons member members =>
          have written := forall₂_map fun member inside =>
            readsMember_pretty (ih member inside (level + 1))
          have reads := reads_object (isGap_indent (level + 1)) (isGap_indent level) written
            (by simp)
          rw [pretty, prettyMembers_eq_map]
          · simpa [String.toList_intercalate] using reads
          · exact List.cons_ne_nil _ _

theorem Reads.ofText? {text : String} {json : Json} (reads : Reads text.toList json) :
    Json.ofText? text = some json := by
  have ends : Ends [] := fun _ first => by simp at first
  have read := reads.read (show 2 * text.toList.length ≤ 2 * text.toList.length + 2 by omega) ends
  have solid := reads.skipGaps []
  rw [List.append_nil] at read solid
  simp only [Json.ofText?, solid, read]
  rfl

end JsonText

/-- The text of a value is read as that value. -/
theorem Json.Writable.ofText?_text {json : Json} (writable : json.Writable) :
    Json.ofText? json.text = some json :=
  (JsonText.reads_compact writable).ofText?

end ScriptTyping
