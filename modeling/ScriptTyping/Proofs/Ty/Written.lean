import ScriptTyping.Proofs.Ty.Substitution
import ScriptTyping.Ty.Written

/-!
Written types. A type has no other variables than those that are in scope where it is read.
-/

namespace ScriptTyping

theorem Except.bind_eq_ok {ε α β : Type} {first : Except ε α} {next : α → Except ε β} {result : β} :
    (first >>= next) = .ok result ↔ ∃ value, first = .ok value ∧ next value = .ok result := by
  cases first with
  | error error => simp [bind, Except.bind]
  | ok value => simp [bind, Except.bind]

theorem Except.bind_eq_error {ε α β : Type} {first : Except ε α} {next : α → Except ε β}
    {error : ε} : (first >>= next) = .error error ↔
      first = .error error ∨ ∃ value, first = .ok value ∧ next value = .error error := by
  cases first with
  | error other => simp [bind, Except.bind]
  | ok value => simp [bind, Except.bind]

namespace TypeText

theorem denote_within (vars : List String) (name : String) :
    (denote vars name).within vars.length = true := by
  rw [denote]
  split
  · rename_i found
    exact decide_eq_true (List.findIdx?_eq_some_iff_findIdx_eq.mp found).1
  · split
    · rfl
    · split
      · rfl
      · split
        · rfl
        · split <;> rfl

theorem readArrays_within {count : Nat} {ty result : Ty} {tokens rest : List Token}
    (inside : ty.within count = true) (reads : readArrays ty tokens = .ok (result, rest)) :
    result.within count = true := by
  induction ty, tokens using readArrays.induct with
  | case1 ty rest ih =>
      rw [readArrays] at reads
      refine ih ?_ reads
      simp [Ty.array, Ty.generic, Ty.within, Ty.allWithin, inside]
  | case2 => simp_all [readArrays]
  | case3 => simp_all [readArrays]

structure ReadsWithin (vars : List String) (fuel : Nat) : Prop where
  one : ∀ {tokens ty rest}, readTy vars fuel tokens = .ok (ty, rest) →
    ty.within vars.length = true
  result : ∀ {params tokens ty rest}, Ty.allWithin vars.length params = true →
    readResult vars fuel params tokens = .ok (ty, rest) → ty.within vars.length = true
  many : ∀ {close unclosed tokens types rest},
    readTys vars close unclosed fuel tokens = .ok (types, rest) →
      Ty.allWithin vars.length types = true

theorem reads_within (vars : List String) (fuel : Nat) : ReadsWithin vars fuel := by
  -- for the three readers at once, each of which calls the others with less
  induction fuel with
  | zero =>
      refine ⟨?_, ?_, ?_⟩
      · intro tokens ty rest reads
        simp [readTy] at reads
      · intro params tokens ty rest _ reads
        simp [readResult] at reads
      · intro close unclosed tokens types rest reads
        simp [readTys] at reads
  | succ fuel ih =>
      refine ⟨?_, ?_, ?_⟩
      · intro tokens ty rest reads
        unfold readTy at reads
        split at reads
        · simp at reads
        · rename_i same
          obtain rfl := Nat.succ.inj same
          exact ih.result rfl reads
        · rename_i same
          obtain rfl := Nat.succ.inj same
          obtain ⟨⟨params, later⟩, first, reads⟩ := Except.bind_eq_ok.mp reads
          exact ih.result (ih.many first) reads
        · rename_i name _ same
          obtain rfl := Nat.succ.inj same
          obtain ⟨⟨args, later⟩, first, reads⟩ := Except.bind_eq_ok.mp reads
          have inside : (Ty.generic name args).within vars.length = true := ih.many first
          exact readArrays_within inside reads
        · exact readArrays_within (denote_within vars _) reads
        · simp at reads
      · intro params tokens ty rest inside reads
        unfold readResult at reads
        split at reads
        · simp at reads
        · rename_i same
          obtain rfl := Nat.succ.inj same
          obtain ⟨⟨result, later⟩, first, reads⟩ := Except.bind_eq_ok.mp reads
          simp only [Except.ok.injEq, Prod.mk.injEq] at reads
          rw [← reads.1, Ty.within, inside, ih.one first]
          rfl
        · simp at reads
      · intro close unclosed tokens types rest reads
        rw [readTys] at reads
        obtain ⟨⟨ty, later⟩, first, reads⟩ := Except.bind_eq_ok.mp reads
        simp only at reads
        split at reads
        · split at reads
          · simp only [Except.ok.injEq, Prod.mk.injEq] at reads
            rw [← reads.1, Ty.allWithin, ih.one first]
            rfl
          · split at reads
            · obtain ⟨⟨others, last⟩, second, reads⟩ := Except.bind_eq_ok.mp reads
              simp only [Except.ok.injEq, Prod.mk.injEq] at reads
              rw [← reads.1, Ty.allWithin, ih.one first, ih.many second]
              rfl
            · simp at reads
        · simp at reads

end TypeText

/-- A written type has no variables but those in scope. -/
theorem Ty.ofText?_within {vars : List String} {text : String} {ty : Ty}
    (reads : ofText? vars text = .ok ty) : ty.within vars.length = true := by
  unfold ofText? at reads
  simp only at reads
  split at reads
  · simp at reads
  · rename_i found
    simp only [Except.ok.injEq] at reads
    rw [← reads]
    exact (TypeText.reads_within vars _).one found
  · simp at reads

theorem Ty.ofText?_ground {text : String} {ty : Ty} (reads : ofText? [] text = .ok ty) :
    ty.hasVar = false := by
  have inside := ofText?_within reads
  rwa [List.length_nil, within_zero, Bool.not_eq_true'] at inside

end ScriptTyping
