import ScriptTyping.Proofs.Rule.Basic

/-!
Literals and constructs without a rule.
-/

namespace ScriptTyping

namespace Rule

open Check

variable {premise : Premise} {calm : Calm} {first : Environment} {unseen : Nat → Option Label → Prop}
  {old : CheckState} {branch : Branch} {tag : Tag}

section Literals

variable (isOpen : Open premise calm first unseen old branch) (isTag : branch.node.tag = tag)
  (free : tag.isFree = true)

include isOpen isTag free

theorem setConst_yields (ty : Ty) (value : Const) :
    (setConst branch.id ty value).Yields calm old branch (Ruled premise first) := by
  refine .bindModify isOpen rfl rfl ((isOpen.inside.rebind rfl).alike rfl rfl) ?_
  intro new opens _ _
  exact .pure opens.stands (opens.closeFree isTag free)

theorem number_yields {α : Type} (zero : α) (reader : String → Except NumberTextError α) (ty : Ty)
    (value : α → Const) :
    (number branch.id zero reader >>= fun result => setConst branch.id ty (value result)).Yields calm
      old branch (Ruled premise first) := by
  have reads : (number branch.id zero reader).Yields calm old branch fun _ new after =>
      after = branch ∧ Open premise calm first unseen new branch := by
    refine .bindRead isOpen.stands ?_
    split
    · exact .pure isOpen.stands ⟨rfl, isOpen⟩
    · refine .bindWarnAt isOpen ?_
      intro new opens _ _
      exact .pure opens.stands ⟨rfl, opens⟩
  refine reads.bind ?_
  rintro result new _ _ ⟨rfl, opens⟩
  exact setConst_yields opens isTag free ty (value result)

theorem character_yields :
    (character branch.id).Yields calm old branch (Ruled premise first) := by
  refine .bindRead isOpen.stands ?_
  simp only
  split
  · exact setConst_yields isOpen isTag free _ _
  · exact setConst_yields isOpen isTag free _ _

end Literals

theorem unsupported_yields (isOpen : Open premise calm first unseen old branch)
    (facts : ∀ errors, errors ≠ [] →
      (branch.typed .never).Facts premise old.environment errors old.scopes.returnType?) :
    (unsupported tag branch.id).Yields calm old branch (Ruled premise first) := by
  refine .bindRead isOpen.stands (.bindReport isOpen rfl ?_)
  intro new opens environment scopes isLoud
  refine .pure opens.stands (opens.close ?_)
  rw [environment, scopes]
  exact facts new.errors isLoud

end Rule

end ScriptTyping
