import Mathlib.Logic.Function.Iterate
import ScriptTyping.Proofs.Ty.Spelling
import ScriptTyping.Proofs.Ty.Written

/-!
The grammar of written types, and that the reader decides it. A type is a base with `[]` after it any
number of times; a base is a name, a name with types in angle brackets, or a function type, which
ends with the type of its result. So brackets after a function type could belong to it or to its
result, and they are read as those of the result.
-/

namespace ScriptTyping

namespace TypeText

/-- A derivation of a written type. The last number says how often `[]` follows the base. -/
inductive Written where
  | name (name : String) (arrays : Nat)
  | generic (head : String) (first : Written) (rest : List Written) (arrays : Nat)
  | fn (params : List Written) (result : Written) (arrays : Nat)

def brackets : Nat → List Token
  | 0 => []
  | count + 1 => .mark '[' :: .mark ']' :: brackets count

def separated (lists : List (List Token)) : List Token := [.mark ','].intercalate lists

namespace Written

mutual

def tokens : Written → List Token
  | name text arrays => .name text :: brackets arrays
  | generic head first rest arrays =>
    .name head :: .mark '<' ::
      (separated (first.tokens :: tokensAll rest) ++ .mark '>' :: brackets arrays)
  | fn params result arrays =>
    .mark '(' :: (separated (tokensAll params) ++ .mark ')' :: .mark '-' :: .mark '>' ::
      (result.tokens ++ brackets arrays))

def tokensAll : List Written → List (List Token)
  | [] => []
  | written :: rest => written.tokens :: tokensAll rest

end

mutual

def ty (vars : List String) : Written → Ty
  | name text arrays => Ty.array^[arrays] (denote vars text)
  | generic head first rest arrays =>
    Ty.array^[arrays] (.generic head (first.ty vars :: tyAll vars rest))
  | fn params result arrays => Ty.array^[arrays] (.fn (tyAll vars params) (result.ty vars))

def tyAll (vars : List String) : List Written → List Ty
  | [] => []
  | written :: rest => written.ty vars :: tyAll vars rest

end

mutual

def Greedy : Written → Prop
  | name _ _ => True
  | generic _ first rest _ => first.Greedy ∧ GreedyAll rest
  | fn params result arrays => GreedyAll params ∧ result.Greedy ∧ arrays = 0

def GreedyAll : List Written → Prop
  | [] => True
  | written :: rest => written.Greedy ∧ GreedyAll rest

end

mutual

/-- The derivation with more brackets at its end, in which each function type hands its brackets on
to its result. -/
def absorb (more : Nat) : Written → Written
  | name text arrays => .name text (arrays + more)
  | generic head first rest arrays => .generic head (first.absorb 0) (absorbAll rest) (arrays + more)
  | fn params result arrays => .fn (absorbAll params) (result.absorb (arrays + more)) 0

def absorbAll : List Written → List Written
  | [] => []
  | written :: rest => written.absorb 0 :: absorbAll rest

end

variable {vars : List String} {written : Written} {list : List Written}

theorem tokensAll_eq_map (list : List Written) : tokensAll list = list.map tokens := by
  induction list with
  | nil => rfl
  | cons written rest ih => rw [tokensAll, ih, List.map_cons]

theorem tyAll_eq_map (vars : List String) (list : List Written) :
    tyAll vars list = list.map (ty vars) := by
  induction list with
  | nil => rfl
  | cons written rest ih => rw [tyAll, ih, List.map_cons]

theorem absorbAll_eq_map (list : List Written) : absorbAll list = list.map (absorb 0) := by
  induction list with
  | nil => rfl
  | cons written rest ih => rw [absorbAll, ih, List.map_cons]

theorem greedyAll_iff : GreedyAll list ↔ ∀ written ∈ list, written.Greedy := by
  induction list with
  | nil => simp [GreedyAll]
  | cons written rest ih => simp [GreedyAll, ih]

/-- What holds of a derivation when it holds of its parts holds of every derivation. -/
theorem induction {motive : Written → Prop}
    (ofName : ∀ text arrays, motive (.name text arrays))
    (ofGeneric : ∀ head first rest arrays, motive first → (∀ written ∈ rest, motive written) →
      motive (.generic head first rest arrays))
    (ofFn : ∀ params result arrays, (∀ written ∈ params, motive written) → motive result →
      motive (.fn params result arrays)) : (written : Written) → motive written
  | name text arrays => ofName text arrays
  | generic head first rest arrays => by
    refine ofGeneric head first rest arrays (induction ofName ofGeneric ofFn first) ?_
    intro written member
    have smaller := List.sizeOf_lt_of_mem member
    exact induction ofName ofGeneric ofFn written
  | fn params result arrays => by
    refine ofFn params result arrays ?_ (induction ofName ofGeneric ofFn result)
    intro written member
    have smaller := List.sizeOf_lt_of_mem member
    exact induction ofName ofGeneric ofFn written
termination_by written => sizeOf written
decreasing_by all_goals simp_wf; omega

end Written

/-! ### Commas and brackets -/

theorem separated_single (first : Written) :
    separated (Written.tokensAll [first]) = first.tokens :=
  List.intercalate_singleton

theorem separated_cons (first next : Written) (rest : List Written) :
    separated (Written.tokensAll (first :: next :: rest)) =
      first.tokens ++ .mark ',' :: separated (Written.tokensAll (next :: rest)) := by
  rw [separated, Written.tokensAll, Written.tokensAll, List.intercalate_cons_cons,
    List.append_assoc]
  rfl

theorem brackets_add (first second : Nat) :
    brackets (first + second) = brackets first ++ brackets second := by
  induction first with
  | zero => rw [Nat.zero_add]; rfl
  | succ first ih => rw [Nat.succ_add, brackets, ih]; rfl

def Stops (tokens : List Token) : Prop :=
  ∀ token ∈ tokens.head?, token ≠ .mark '[' ∧ token ≠ .mark '<'

theorem stops_cons {char : Char} (square : char ≠ '[') (angle : char ≠ '<') (rest : List Token) :
    Stops (.mark char :: rest) := by
  simp [Stops, square, angle]

theorem readArrays_stop {rest : List Token} (stops : Stops rest) (ty : Ty) :
    readArrays ty rest = .ok (ty, rest) := by
  rw [readArrays]
  · rintro _ rfl
    exact (stops _ rfl).1 rfl
  · rintro _ rfl
    exact (stops _ rfl).1 rfl

theorem readArrays_brackets {rest : List Token} (stops : Stops rest) (count : Nat) (ty : Ty) :
    readArrays ty (brackets count ++ rest) = .ok (Ty.array^[count] ty, rest) := by
  induction count generalizing ty with
  | zero => exact readArrays_stop stops ty
  | succ count ih => exact ih (Ty.array ty)

theorem exists_brackets {ty result : Ty} {tokens rest : List Token}
    (reads : readArrays ty tokens = .ok (result, rest)) :
    ∃ count, tokens = brackets count ++ rest ∧ Ty.array^[count] ty = result := by
  induction ty, tokens using readArrays.induct with
  | case1 ty later ih =>
      rw [readArrays] at reads
      obtain ⟨count, rfl, isResult⟩ := ih reads
      exact ⟨count + 1, rfl, isResult⟩
  | case2 => simp_all [readArrays]
  | case3 =>
      rw [readArrays] at reads
      · cases reads
        exact ⟨0, rfl, rfl⟩
      all_goals assumption

namespace Written

variable {vars : List String} {written : Written} {list : List Written} {rest : List Token}
  {fuel : Nat}

/-! ### Brackets after function types -/

theorem greedy_absorb (written : Written) : ∀ more, (written.absorb more).Greedy := by
  have all {list : List Written} (each : ∀ inner ∈ list, ∀ more, (inner.absorb more).Greedy) :
      GreedyAll (absorbAll list) := by
    rw [greedyAll_iff, absorbAll_eq_map, List.forall_mem_map]
    exact fun inner member => each inner member 0
  induction written using induction with
  | ofName text arrays => exact fun _ => trivial
  | ofGeneric head first rest arrays isFirst others => exact fun _ => ⟨isFirst 0, all others⟩
  | ofFn params result arrays each last => exact fun more => ⟨all each, last _, rfl⟩

theorem tokens_absorb (written : Written) :
    ∀ more, (written.absorb more).tokens = written.tokens ++ brackets more := by
  have all {list : List Written}
      (each : ∀ inner ∈ list, ∀ more, (inner.absorb more).tokens = inner.tokens ++ brackets more) :
      tokensAll (absorbAll list) = tokensAll list := by
    rw [tokensAll_eq_map, tokensAll_eq_map, absorbAll_eq_map, List.map_map, List.map_inj_left]
    exact fun inner member => (each inner member 0).trans (List.append_nil _)
  induction written using induction with
  | ofName text arrays =>
      intro more
      rw [absorb, tokens, tokens, brackets_add]
      rfl
  | ofGeneric head first rest arrays isFirst others =>
      intro more
      rw [absorb, tokens, tokens, brackets_add, isFirst, all others]
      simp [brackets]
  | ofFn params result arrays each last =>
      intro more
      rw [absorb, tokens, tokens, last, all each, brackets_add]
      simp [brackets]

/-! ### What is derived is read -/

def Reads (vars : List String) (written : Written) : Prop :=
  ∀ fuel rest, 2 * written.tokens.length ≤ fuel → Stops rest →
    readTy vars fuel (written.tokens ++ rest) = .ok (written.ty vars, rest)

theorem readTys_separated (fuel : Nat) (rest : List Token) {close : Char}
    (closes : close = ')' ∨ close = '>')
    (unclosed : TypeTextError) (occupied : list ≠ []) (each : ∀ written ∈ list, written.Reads vars)
    (enough : 2 * ((separated (tokensAll list)).length + 1) ≤ fuel) :
    readTys vars close unclosed fuel (separated (tokensAll list) ++ .mark close :: rest) =
      .ok (tyAll vars list, rest) := by
  have stopsClose : Stops (.mark close :: rest) := by
    rcases closes with rfl | rfl <;> exact stops_cons (by decide) (by decide) _
  induction list generalizing fuel with
  | nil => exact absurd rfl occupied
  | cons first others ih =>
      obtain ⟨isFirst, areOthers⟩ := List.forall_mem_cons.mp each
      obtain ⟨fuel, rfl⟩ := Nat.exists_eq_succ_of_ne_zero (show fuel ≠ 0 by omega)
      cases others with
      | nil =>
          rw [separated_single] at enough ⊢
          have read := isFirst fuel _ (by omega) stopsClose
          simp only [readTys, read, bind, Except.bind, if_true, tyAll]
      | cons next others =>
          rw [separated_cons] at enough ⊢
          rw [List.length_append, List.length_cons] at enough
          rw [List.append_assoc, List.cons_append]
          have readFirst := isFirst fuel
            (.mark ',' :: (separated (tokensAll (next :: others)) ++ .mark close :: rest))
            (by omega) (stops_cons (by decide) (by decide) _)
          have readOthers := ih fuel (by simp) areOthers (by omega)
          have notClose : ',' ≠ close := by rcases closes with rfl | rfl <;> decide
          simp only [readTys, readFirst, readOthers, bind, Except.bind, if_neg notClose, if_true,
            tyAll]

theorem reads_name (text : String) (arrays : Nat) : (name text arrays).Reads vars := by
  intro fuel rest enough stops
  obtain ⟨fuel, rfl⟩ := Nat.exists_eq_succ_of_ne_zero (n := fuel) (by simp [tokens] at enough; omega)
  have noArguments : ∀ more, brackets arrays ++ rest = .mark '<' :: more → False := by
    intro more same
    cases arrays with
    | zero => exact (stops _ (by rw [show rest = _ from same]; rfl)).2 rfl
    | succ arrays => cases same
  rw [tokens, List.cons_append, readTy.eq_5 _ _ _ _ noArguments, readArrays_brackets stops]
  rfl

theorem reads_generic (head : String) {first : Written} {others : List Written}
    (each : ∀ written ∈ first :: others, written.Reads vars) (arrays : Nat) :
    (generic head first others arrays).Reads vars := by
  intro fuel rest enough stops
  rw [tokens, ← tokensAll] at enough ⊢
  simp only [List.length_cons, List.length_append] at enough
  obtain ⟨fuel, rfl⟩ := Nat.exists_eq_succ_of_ne_zero (show fuel ≠ 0 by omega)
  have read := readTys_separated fuel (brackets arrays ++ rest) (.inr rfl)
    (.unclosedArgs head) (by simp) each (by omega)
  simp only [List.cons_append, List.append_assoc, readTy, read, bind, Except.bind,
    readArrays_brackets stops]
  rfl

/-- Types with commas between them do not start with a closing mark. -/
theorem separated_ne_close (first : Written) (others : List Written) (rest more : List Token) :
    separated (tokensAll (first :: others)) ++ rest ≠ .mark ')' :: more := by
  have start : ∀ rest, first.tokens ++ rest ≠ .mark ')' :: more := by
    cases first <;> simp [tokens]
  cases others with
  | nil => exact separated_single first ▸ start rest
  | cons next others =>
      rw [separated_cons, List.append_assoc]
      exact start _

theorem reads_fn {params : List Written} {result : Written}
    (each : ∀ written ∈ params, written.Reads vars) (last : result.Reads vars) :
    (fn params result 0).Reads vars := by
  intro fuel rest enough stops
  rw [tokens, brackets, List.append_nil] at enough ⊢
  simp only [List.length_cons, List.length_append] at enough
  obtain ⟨fuel, rfl⟩ := Nat.exists_eq_add_of_le' (show 2 ≤ fuel by omega)
  have readLast : readResult vars (fuel + 1) (tyAll vars params)
      (.mark '-' :: .mark '>' :: (result.tokens ++ rest)) =
        .ok ((fn params result 0).ty vars, rest) := by
    simp only [readResult, last fuel rest (by omega) stops, bind, Except.bind]
    rfl
  rw [List.cons_append, List.append_assoc]
  cases params with
  | nil => exact readLast
  | cons first others =>
      have read := readTys_separated (fuel + 1)
        (.mark '-' :: .mark '>' :: (result.tokens ++ rest)) (.inl rfl)
        .unclosedParams (by simp) each (by omega)
      rw [readTy.eq_3 _ _ _ fun more => separated_ne_close first others _ more]
      simp only [List.cons_append, read, bind, Except.bind, readLast]

theorem reads_of_greedy (greedy : written.Greedy) : written.Reads vars := by
  induction written using induction with
  | ofName text arrays => exact reads_name text arrays
  | ofGeneric head first rest arrays isFirst others =>
      obtain ⟨greedyFirst, greedyOthers⟩ := greedy
      rw [greedyAll_iff] at greedyOthers
      refine reads_generic head (List.forall_mem_cons.mpr ⟨isFirst greedyFirst, ?_⟩) arrays
      exact fun inner member => others inner member (greedyOthers inner member)
  | ofFn params result arrays each last =>
      obtain ⟨greedyParams, greedyResult, rfl⟩ := greedy
      rw [greedyAll_iff] at greedyParams
      refine reads_fn (fun inner member => ?_) (last greedyResult)
      exact each inner member (greedyParams inner member)

end Written

/-! ### What is read is derived -/

structure Derives (vars : List String) (fuel : Nat) : Prop where
  one : ∀ {tokens ty rest}, readTy vars fuel tokens = .ok (ty, rest) →
    ∃ written : Written, written.Greedy ∧ tokens = written.tokens ++ rest ∧ written.ty vars = ty
  result : ∀ {params tokens ty rest}, readResult vars fuel params tokens = .ok (ty, rest) →
    ∃ written : Written, written.Greedy ∧
      tokens = .mark '-' :: .mark '>' :: (written.tokens ++ rest) ∧ .fn params (written.ty vars) = ty
  many : ∀ {close unclosed tokens types rest},
    readTys vars close unclosed fuel tokens = .ok (types, rest) →
      ∃ first others, Written.GreedyAll (first :: others) ∧
        tokens = separated (Written.tokensAll (first :: others)) ++ .mark close :: rest ∧
        Written.tyAll vars (first :: others) = types

section Derives

variable {vars : List String} {fuel : Nat} {tokens rest : List Token}

theorem Derives.one_succ (derives : Derives vars fuel) {ty : Ty}
    (reads : readTy vars (fuel + 1) tokens = .ok (ty, rest)) : ∃ written : Written,
      written.Greedy ∧ tokens = written.tokens ++ rest ∧ written.ty vars = ty := by
  unfold readTy at reads
  split at reads
  · simp at reads
  · rename_i same
    obtain rfl := Nat.succ.inj same
    obtain ⟨result, greedy, rfl, rfl⟩ := derives.result reads
    refine ⟨.fn [] result 0, ⟨trivial, greedy, rfl⟩, ?_, rfl⟩
    simp [Written.tokens, Written.tokensAll, separated, brackets]
  · rename_i same
    obtain rfl := Nat.succ.inj same
    obtain ⟨⟨params, later⟩, isParams, reads⟩ := Except.bind_eq_ok.mp reads
    obtain ⟨first, others, greedyParams, rfl, rfl⟩ := derives.many isParams
    obtain ⟨result, greedy, rfl, rfl⟩ := derives.result reads
    refine ⟨.fn (first :: others) result 0, ⟨greedyParams, greedy, rfl⟩, ?_, rfl⟩
    simp [Written.tokens, brackets]
  · rename_i head _ same
    obtain rfl := Nat.succ.inj same
    obtain ⟨⟨args, later⟩, isArgs, reads⟩ := Except.bind_eq_ok.mp reads
    obtain ⟨first, others, greedy, rfl, rfl⟩ := derives.many isArgs
    obtain ⟨arrays, rfl, rfl⟩ := exists_brackets reads
    refine ⟨.generic head first others arrays, greedy, ?_, rfl⟩
    simp [Written.tokens, Written.tokensAll]
  · rename_i text _ _ _
    obtain ⟨arrays, rfl, rfl⟩ := exists_brackets reads
    exact ⟨.name text arrays, trivial, rfl, rfl⟩
  · simp at reads

theorem Derives.result_succ (derives : Derives vars fuel) {params : List Ty} {ty : Ty}
    (reads : readResult vars (fuel + 1) params tokens = .ok (ty, rest)) : ∃ written : Written,
      written.Greedy ∧ tokens = .mark '-' :: .mark '>' :: (written.tokens ++ rest) ∧
        .fn params (written.ty vars) = ty := by
  unfold readResult at reads
  split at reads
  · simp at reads
  · rename_i same
    obtain rfl := Nat.succ.inj same
    obtain ⟨⟨result, later⟩, isResult, reads⟩ := Except.bind_eq_ok.mp reads
    cases reads
    obtain ⟨written, greedy, rfl, rfl⟩ := derives.one isResult
    exact ⟨written, greedy, rfl, rfl⟩
  · simp at reads

theorem Derives.many_succ (derives : Derives vars fuel) {close : Char} {unclosed : TypeTextError}
    {types : List Ty}
    (reads : readTys vars close unclosed (fuel + 1) tokens = .ok (types, rest)) :
    ∃ first others, Written.GreedyAll (first :: others) ∧
      tokens = separated (Written.tokensAll (first :: others)) ++ .mark close :: rest ∧
      Written.tyAll vars (first :: others) = types := by
  rw [readTys] at reads
  obtain ⟨⟨ty, later⟩, isFirst, reads⟩ := Except.bind_eq_ok.mp reads
  obtain ⟨first, greedy, rfl, rfl⟩ := derives.one isFirst
  simp only at reads
  split at reads
  · split at reads
    · rename_i isClose
      cases reads
      refine ⟨first, [], ⟨greedy, trivial⟩, ?_, rfl⟩
      rw [separated_single, isClose]
    · split at reads
      · rename_i isComma
        obtain ⟨⟨others, last⟩, areOthers, reads⟩ := Except.bind_eq_ok.mp reads
        cases reads
        obtain ⟨next, more, greedyOthers, rfl, rfl⟩ := derives.many areOthers
        refine ⟨first, next :: more, ⟨greedy, greedyOthers⟩, ?_, rfl⟩
        rw [separated_cons, isComma, List.append_assoc, List.cons_append]
      · simp at reads
  · simp at reads

end Derives

theorem derives (vars : List String) (fuel : Nat) : Derives vars fuel := by
  -- for the three readers at once, each of which calls the others with less
  induction fuel with
  | zero =>
      refine ⟨fun reads => ?_, fun reads => ?_, fun reads => ?_⟩
      · simp [readTy] at reads
      · simp [readResult] at reads
      · simp [readTys] at reads
  | succ fuel ih => exact ⟨ih.one_succ, ih.result_succ, ih.many_succ⟩

theorem ofText?_eq_ok_iff {vars : List String} {text : String} {ty : Ty} :
    Ty.ofText? vars text = .ok ty ↔ ∃ written : Written, Spells written.tokens text.toList ∧
      written.Greedy ∧ written.ty vars = ty := by
  constructor
  · intro reads
    unfold Ty.ofText? at reads
    simp only at reads
    split at reads
    · cases reads
    · rename_i found
      cases reads
      obtain ⟨written, greedy, same, isTy⟩ := (derives vars _).one found
      rw [List.append_nil] at same
      exact ⟨written, tokens_eq_iff.mp same, greedy, isTy⟩
    · cases reads
  · rintro ⟨written, spells, greedy, rfl⟩
    have reads : written.Reads vars := Written.reads_of_greedy greedy
    have read := reads (2 * written.tokens.length + 2) [] (Nat.le_add_right _ 2) (by simp [Stops])
    rw [List.append_nil] at read
    rw [Ty.ofText?, tokens_eq_iff.mpr spells]
    simp only [read]

/-! ### Plain names -/

/-- What a plain name denotes: the first variable of that name, else a primitive or one of the types
with a name of its own, else a host type, whose namespace is not known yet. -/
inductive Denotes (vars : List String) (name : String) : Ty → Prop where
  | var {index : Nat} : vars[index]? = some name →
      (∀ earlier < index, vars[earlier]? ≠ some name) → Denotes vars name (.var index)
  | prim {prim : Prim} : name ∉ vars → name = prim.name → Denotes vars name (.prim prim)
  | void : name ∉ vars → name = "void" → Denotes vars name .void
  | object : name ∉ vars → name = "Object" → Denotes vars name .object
  | dynamic : name ∉ vars → name = "dynamic" → Denotes vars name .dynamic
  | named : name ∉ vars → (∀ prim : Prim, name ≠ prim.name) →
      name ∉ ["void", "Object", "dynamic"] → Denotes vars name (.named ⟨name, none⟩)

theorem ofName?_name (prim : Prim) : Prim.ofName? prim.name = some prim := by
  cases prim <;> rfl

theorem ofName?_eq_none_iff {name : String} :
    Prim.ofName? name = none ↔ ∀ prim : Prim, name ≠ prim.name := by
  rw [Prim.ofName?, List.find?_eq_none]
  constructor
  · intro none prim same
    exact none prim prim.mem_all (by simp [same])
  · intro other prim _ same
    exact other prim (beq_iff_eq.mp same).symm

theorem findIdx?_eq_none_iff {vars : List String} {name : String} :
    vars.findIdx? (· == name) = none ↔ name ∉ vars := by
  rw [List.findIdx?_eq_none_iff]
  constructor
  · intro none member
    simpa using none name member
  · rintro absent other member
    rw [beq_eq_false_iff_ne]
    rintro rfl
    exact absent member

theorem findIdx?_eq_some_iff {vars : List String} {name : String} {index : Nat} :
    vars.findIdx? (· == name) = some index ↔
      vars[index]? = some name ∧ ∀ earlier < index, vars[earlier]? ≠ some name := by
  rw [List.findIdx?_eq_some_iff_getElem]
  constructor
  · rintro ⟨bound, isHere, isFirst⟩
    refine ⟨by rw [List.getElem?_eq_getElem bound, beq_iff_eq.mp isHere], fun earlier before => ?_⟩
    have other := isFirst earlier before
    rw [List.getElem?_eq_getElem (Nat.lt_trans before bound)]
    simpa using other
  · rintro ⟨isHere, isFirst⟩
    obtain ⟨bound, same⟩ := List.getElem?_eq_some_iff.mp isHere
    refine ⟨bound, beq_iff_eq.mpr same, fun earlier before => ?_⟩
    have other := isFirst earlier before
    rw [List.getElem?_eq_getElem (Nat.lt_trans before bound)] at other
    simpa using other

theorem denotes_denote (vars : List String) (name : String) :
    Denotes vars name (denote vars name) := by
  rw [denote]
  split
  · rename_i index found
    obtain ⟨isHere, isFirst⟩ := findIdx?_eq_some_iff.mp found
    exact .var isHere isFirst
  · rename_i absent
    have unbound := findIdx?_eq_none_iff.mp absent
    split
    · rename_i prim isPrim
      have same := List.find?_some isPrim
      exact .prim unbound (beq_iff_eq.mp same).symm
    · rename_i other
      split
      · exact .void unbound ‹_›
      · split
        · exact .object unbound ‹_›
        · split
          · exact .dynamic unbound ‹_›
          · exact .named unbound (ofName?_eq_none_iff.mp other) (by simp [*])

theorem denote_eq_iff {vars : List String} {name : String} {ty : Ty} :
    denote vars name = ty ↔ Denotes vars name ty := by
  constructor
  · rintro rfl
    exact denotes_denote vars name
  · intro denotes
    cases denotes with
    | var isHere isFirst => rw [denote, findIdx?_eq_some_iff.mpr ⟨isHere, isFirst⟩]
    | prim unbound isPrim =>
        rw [denote, findIdx?_eq_none_iff.mpr unbound, isPrim, ofName?_name]
    | void unbound same | object unbound same | dynamic unbound same =>
        rw [denote, findIdx?_eq_none_iff.mpr unbound, same]
        rfl
    | named unbound other apart =>
        simp only [List.mem_cons, List.not_mem_nil, or_false, not_or] at apart
        obtain ⟨notVoid, notObject, notDynamic⟩ := apart
        rw [denote, findIdx?_eq_none_iff.mpr unbound, ofName?_eq_none_iff.mpr other]
        simp only [if_neg notVoid, if_neg notObject, if_neg notDynamic]
        rfl

end TypeText

/-- A text is read exactly when it derives from the grammar, and as the type that the derivation
denotes in which each function type leaves all brackets that follow to its result. -/
theorem Ty.ofText?_derives (vars : List String) (text : String) :
    ((∃ ty, ofText? vars text = .ok ty) ↔
      ∃ written : TypeText.Written, TypeText.Spells written.tokens text.toList) ∧
    (∀ ty, ofText? vars text = .ok ty ↔ ∃ written : TypeText.Written,
      TypeText.Spells written.tokens text.toList ∧ written.Greedy ∧ written.ty vars = ty) ∧
    ∀ name ty, TypeText.denote vars name = ty ↔ TypeText.Denotes vars name ty := by
  refine ⟨⟨?_, ?_⟩, fun ty => TypeText.ofText?_eq_ok_iff, fun name ty => TypeText.denote_eq_iff⟩
  · rintro ⟨ty, reads⟩
    obtain ⟨written, spells, _⟩ := TypeText.ofText?_eq_ok_iff.mp reads
    exact ⟨written, spells⟩
  · rintro ⟨written, spells⟩
    have same : (written.absorb 0).tokens = written.tokens := by
      rw [written.tokens_absorb, TypeText.brackets, List.append_nil]
    exact ⟨_, TypeText.ofText?_eq_ok_iff.mpr
      ⟨written.absorb 0, same ▸ spells, written.greedy_absorb 0, rfl⟩⟩

end ScriptTyping
