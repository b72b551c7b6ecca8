import ScriptTyping.Proofs.Ty.Grammar

/-!
The texts of types are read back. Arrays are shown as applications, so the text that was read and the
text that is shown may differ, but both derive, and denote the same type.
-/

namespace ScriptTyping

def Ty.varNames (count : Nat) : List String :=
  (List.range count).map fun index => "T" ++ toString index

namespace TypeText

def ReadsBack (vars : List String) (ty : Ty) : Prop := Ty.ofText? vars ty.text = .ok ty

variable {vars : List String} {ty : Ty} {types : List Ty} {count : Nat} {name : String}
  {written : Written} {token : Token}

/-! ### Names -/

/-- What a name denotes is shown by that name. -/
theorem Denotes.text (denotes : Denotes (Ty.varNames count) name ty) : ty.text = name := by
  cases denotes with
  | var isHere _ =>
      rw [Ty.varNames, List.getElem?_map] at isHere
      obtain ⟨index, found, rfl⟩ := Option.map_eq_some_iff.mp isHere
      obtain ⟨_, rfl⟩ := List.getElem?_eq_some_iff.mp found
      rw [List.getElem_range]
      rfl
  | prim _ same | void _ same | object _ same | dynamic _ same => exact same.symm
  | named _ _ _ => rfl

theorem readsBack_denote (isName : IsName name) :
    ReadsBack (Ty.varNames count) (denote (Ty.varNames count) name) := by
  have isText := (denotes_denote (Ty.varNames count) name).text
  refine ofText?_eq_ok_iff.mpr ⟨.name name 0, ?_, trivial, rfl⟩
  rw [isText]
  exact .single isName

/-! ### Types with commas between them -/

/-- Types that are read back are so together. -/
theorem exists_separated (each : ∀ ty ∈ types, ReadsBack vars ty) :
    ∃ list, Written.GreedyAll list ∧ Written.tyAll vars list = types ∧
      Spells (separated (Written.tokensAll list)) (", ".intercalate (Ty.textAll types)).toList := by
  induction types with
  | nil => exact ⟨[], trivial, rfl, .nil⟩
  | cons ty types ih =>
      obtain ⟨isFirst, others⟩ := List.forall_mem_cons.mp each
      obtain ⟨first, spells, greedy, isTy⟩ := ofText?_eq_ok_iff.mp isFirst
      obtain ⟨list, greedyAll, areTypes, spellsAll⟩ := ih others
      refine ⟨first :: list, ⟨greedy, greedyAll⟩, by rw [Written.tyAll, isTy, areTypes], ?_⟩
      cases types with
      | nil =>
          cases list with
          | nil =>
              rw [separated_single, Ty.textAll, Ty.textAll, String.intercalate_singleton]
              exact spells
          | cons => cases areTypes
      | cons next types =>
          cases list with
          | nil => cases areTypes
          | cons second list =>
              rw [Ty.textAll, Ty.textAll, String.intercalate_cons_cons, separated_cons]
              simp only [String.toList_append, List.append_assoc]
              refine spells.append (.mark rfl rfl (.gap rfl spellsAll)) (apart_cons rfl)

theorem mem_separated {list : List Written} (inside : written ∈ list) (member : token ∈ written.tokens) :
    token ∈ separated (Written.tokensAll list) := by
  induction list with
  | nil => cases inside
  | cons first rest ih =>
      cases rest with
      | nil =>
          rw [separated_single, ← List.mem_singleton.mp inside]
          exact member
      | cons next rest =>
          rw [separated_cons, List.mem_append]
          rcases List.mem_cons.mp inside with rfl | later
          · exact .inl member
          · exact .inr (List.mem_cons_of_mem _ (ih later))

/-! ### Types -/

theorem readsBack_generic (isName : IsName name) (occupied : types ≠ [])
    (each : ∀ ty ∈ types, ReadsBack vars ty) : ReadsBack vars (.generic name types) := by
  obtain ⟨list, greedy, rfl, spells⟩ := exists_separated each
  cases list with
  | nil => exact absurd rfl occupied
  | cons first rest =>
      refine ofText?_eq_ok_iff.mpr ⟨.generic name first rest 0, ?_, greedy, rfl⟩
      have close : Spells [.mark '>'] ['>'] := .mark rfl rfl .nil
      have closed := spells.append close (apart_cons rfl)
      have args : Spells (.mark '<' :: _) ('<' :: _) := .mark rfl rfl closed
      have spelled := Spells.name isName (apart_cons rfl) args
      simp only [Ty.generic, Ty.text, TyName.text, String.toList_append, List.append_assoc]
      exact spelled

theorem readsBack_array (element : ReadsBack vars ty) (arrays : Nat) :
    ReadsBack vars (Ty.array^[arrays] ty) := by
  induction arrays with
  | zero => exact element
  | succ arrays ih =>
      rw [Function.iterate_succ_apply']
      exact readsBack_generic (by decide) (by simp) (by simpa using ih)

theorem readsBack_fn (each : ∀ ty ∈ types, ReadsBack vars ty) (last : ReadsBack vars ty) :
    ReadsBack vars (.fn types ty) := by
  obtain ⟨params, greedyAll, rfl, spellsAll⟩ := exists_separated each
  obtain ⟨result, spells, greedy, rfl⟩ := ofText?_eq_ok_iff.mp last
  refine ofText?_eq_ok_iff.mpr ⟨.fn params result 0, ?_, ⟨greedyAll, greedy, rfl⟩, rfl⟩
  have arrow : Spells (.mark ')' :: .mark '-' :: .mark '>' :: _)
      (')' :: ' ' :: '-' :: '>' :: ' ' :: _) :=
    .mark rfl rfl (.gap rfl (.mark rfl rfl (.mark rfl rfl (.gap rfl spells))))
  have spelled : Spells (.mark '(' :: _) ('(' :: _) :=
    .mark rfl rfl (spellsAll.append arrow (apart_cons rfl))
  rw [Written.tokens, brackets, List.append_nil]
  simp only [Ty.text, String.toList_append, List.append_assoc]
  exact spelled

/-- Where all names are well formed, the type is read back. The induction is on the derivation. -/
theorem Written.readsBack {written : Written}
    (names : ∀ name, Token.name name ∈ written.tokens → IsName name) :
    ReadsBack (Ty.varNames count) (written.ty (Ty.varNames count)) := by
  induction written using Written.induction with
  | ofName name arrays =>
      exact readsBack_array (readsBack_denote (names name List.mem_cons_self)) arrays
  | ofGeneric head first rest arrays isFirst others =>
      have inside : ∀ inner ∈ first :: rest, ∀ name, Token.name name ∈ inner.tokens → IsName name := by
        intro inner isInner name member
        refine names name (.tail _ (.tail _ (List.mem_append_left _ ?_)))
        have separated := mem_separated isInner member
        exact separated
      refine readsBack_array (readsBack_generic (names head List.mem_cons_self) (by simp) ?_) arrays
      rw [Written.tyAll_eq_map, ← List.map_cons, List.forall_mem_map]
      refine List.forall_mem_cons.mpr ⟨isFirst (inside first List.mem_cons_self), ?_⟩
      exact fun inner isInner =>
        others inner isInner (inside inner (List.mem_cons_of_mem _ isInner))
  | ofFn params result arrays each last =>
      refine readsBack_array (readsBack_fn ?_ (last fun name member => ?_)) arrays
      · rw [Written.tyAll_eq_map, List.forall_mem_map]
        refine fun inner isInner => each inner isInner fun name member => ?_
        exact names name (.tail _ (List.mem_append_left _ (mem_separated isInner member)))
      · refine names name (.tail _ (List.mem_append_right _ ?_))
        exact .tail _ (.tail _ (.tail _ (List.mem_append_left _ member)))

end TypeText

/-- A type that is read where the first variables are in scope is read again from its own text. -/
theorem Ty.ofText?_shown {count : Nat} {text : String} {ty : Ty}
    (reads : ofText? (varNames count) text = .ok ty) :
    ofText? (varNames count) ty.text = .ok ty := by
  obtain ⟨written, spells, _, rfl⟩ := TypeText.ofText?_eq_ok_iff.mp reads
  exact TypeText.Written.readsBack fun _ member => spells.isName member

/-- Arrays, variables and a function type are shown in another way than they were written. -/
theorem Ty.ofText?_shown_arrays : ∃ ty,
    ofText? (varNames 2) "(T0[] , geo.Point< T1 >)->int[][]" = .ok ty ∧
      ty.text = "(Array<T0>, geo.Point<T1>) -> Array<Array<int>>" ∧
        ofText? (varNames 2) "(Array<T0>, geo.Point<T1>) -> Array<Array<int>>" = .ok ty := by
  have run : (ofText? (varNames 2) "(T0[] , geo.Point< T1 >)->int[][]").toOption.any (fun ty =>
      ty.text == "(Array<T0>, geo.Point<T1>) -> Array<Array<int>>") = true := by
    decide +kernel
  cases reads : ofText? (varNames 2) "(T0[] , geo.Point< T1 >)->int[][]" with
  | error error => simp [reads, Except.toOption] at run
  | ok ty =>
      have shown : ty.text = "(Array<T0>, geo.Point<T1>) -> Array<Array<int>>" := by
        simpa [reads, Except.toOption] using run
      have again := ofText?_shown reads
      rw [shown] at again
      exact ⟨ty, rfl, shown, again⟩

end ScriptTyping
