import ScriptTyping.Proofs.Ownership.Conversion

/-!
Argument lists of a place, accepted arguments, and children that a rule picks out of those it has.
-/

namespace ScriptTyping

namespace Site

variable {site : Site} {old now new : Tree} {kid list first second third : NodeId}
  {slots : List Slot} {label other : Label}

structure Listed (site : Site) (now : Tree) (list : NodeId) (slots : List Slot) : Prop where
  found : now.child? site.id .param = some list
  isList : now.tag list = .list
  slotted : (now.get list).Slotted list slots

theorem Listed.mem (listed : site.Listed now list slots) : list ∈ now.childIds site.id :=
  Tree.mem_childIds_of_child? listed.found

theorem Gathers.listed (gathers : site.Gathers list old new) :
    site.Listed new list (new.slots list) :=
  ⟨gathers.found, gathers.isList, new.slotted_slots list⟩

theorem Listed.all (listed : site.Listed now list slots) :
    site.Listed now list (now.slots list) :=
  ⟨listed.found, listed.isList, now.slotted_slots list⟩

theorem Listed.spares (listed : site.Listed old list slots) (spares : site.Spares kid old new)
    (different : list ≠ kid) : site.Listed new list slots := by
  have same := spares.others list listed.mem different
  refine ⟨by rw [spares.child?, listed.found], ?_, by rw [same]; exact listed.slotted⟩
  rw [Tree.tag, same]
  exact listed.isList

theorem Keeps.pick (keeps : site.Keeps now) {ids : List NodeId} (nodup : ids.Nodup)
    (members : ids ⊆ now.childIds site.id) : site.Parts now ids :=
  keeps.parts.some (List.subperm_of_subset nodup members)

theorem Keeps.relabel (keeps : site.Keeps now) (label other : Label) :
    site.Keeps (now.relabel site.id label other) :=
  keeps.rearrange keeps.parts (Node.nodes_relabel _ label other) (Node.note_relabel _ label other)
    (by rw [Node.tag_relabel]; exact keeps.single)

theorem Keeps.nameConstant (keeps : site.Keeps now) (member : kid ∈ now.childIds site.id)
    (tag : Tag) (ty : Ty) (value : Const) :
    site.Keeps (((now.setTag kid tag).setConst kid ty value).markDone kid) ∧
      site.Spares kid now (((now.setTag kid tag).setConst kid ty value).markDone kid) := by
  simp only [Tree.setTag, Tree.setConst, Tree.markDone, Tree.modify_modify]
  exact keeps.finish member (fun _ => rfl) (fun _ => rfl) fun _ => rfl

end Site

namespace Check

variable {α : Type} {site : Site} {step : Check α} {now : Tree} {kid list : NodeId}
  {visit : Visit} {slots : List Slot} {fits : α → Prop}

/-! ### Arguments -/

theorem Works.inList (keeps : site.Keeps now) (listed : site.Listed now list slots)
    (works : ∀ inner : Site, inner.Keeps now → inner.room = site.room →
      (now.get inner.id).Slotted inner.id slots → Works inner step now fun result tree =>
        (now.get inner.id).Resembles (tree.get inner.id) ∧ fits result) :
    Works site step now fun result tree =>
      site.Spares list now tree ∧ site.Listed tree list slots ∧ fits result := by
  have single : (now.tag list).isCompound = false := by rw [listed.isList]; rfl
  have within : Works site step now fun result tree => site.Spares list now tree ∧
      (now.get list).Resembles (tree.get list) ∧ fits result := by
    refine .within keeps listed.mem single fun inner same keeps room => ?_
    subst same
    refine (works inner keeps (room listed.isList) listed.slotted).mono ?_
    exact fun _ _ _ ⟨resembles, fitting⟩ => ⟨resembles.toSameKind, resembles, fitting⟩
  refine within.mono fun _ tree _ ⟨spares, resembles, fitting⟩ => ⟨spares, ⟨?_, ?_, ?_⟩, fitting⟩
  · rw [spares.child?, listed.found]
  · rw [Tree.tag, resembles.tag]
    exact listed.isList
  · exact listed.slotted.resembles resembles

theorem visitArguments_works (masters : Masters site.room visit) (keeps : site.Keeps now)
    (listed : site.Listed now list slots) :
    Works site (visitAll visit slots) now fun types tree => site.Spares list now tree ∧
      site.Listed tree list slots ∧ types.length = slots.length := by
  refine .inList keeps listed fun inner keeps room slotted => ?_
  refine (visitAll_works (room ▸ masters) keeps slotted).mono fun types tree _ ⟨top, length⟩ => ?_
  exact ⟨by rw [top]; exact .refl _, length⟩

theorem coerceArguments_works {step : Check Unit} (keeps : site.Keeps now)
    (listed : site.Listed now list slots)
    (works : ∀ inner : Site, inner.Keeps now → (now.get inner.id).Slotted inner.id slots →
      Works inner step now fun _ tree => (now.get inner.id).Resembles (tree.get inner.id)) :
    Works site step now fun _ tree => site.Spares list now tree ∧
      site.Listed tree list slots := by
  have within : Works site step now fun _ tree => site.Spares list now tree ∧
      site.Listed tree list slots ∧ True := by
    refine .inList keeps listed fun inner keeps _ slotted => ?_
    exact (works inner keeps slotted).mono fun _ _ _ resembles => ⟨resembles, trivial⟩
  exact within.mono fun _ _ _ ⟨spares, listed, _⟩ => ⟨spares, listed⟩

theorem accept_stays {hint : Hint} {resolution : Resolution}
    (converts : Stays site (convertArguments slots resolution resolution.coercions) now) :
    Stays site (accept site.id hint resolution slots) now :=
  converts.bind fun _ _ keeps _ => bound_stays keeps _ _

/-- The arguments in a list, brought to the parameter types of a member that accepts them. -/
theorem convertList_stays {environment : Environment} {receiver args : List Ty}
    {candidates : List MemberId} {resolution : Resolution} (keeps : site.Keeps now)
    (listed : site.Listed now list slots) (length : args.length = slots.length)
    (found : (environment.resolve receiver candidates args).found = some resolution) :
    Stays site (convertArguments slots resolution resolution.coercions) now := by
  refine (coerceArguments_works keeps listed fun inner keeps slotted => ?_).stays
  exact convertArguments_works keeps slotted (length ▸ resolve_reachable found)

/-! ### Other children -/

theorem flatten_stays {items : List NodeId} (keeps : site.Keeps now)
    (parts : site.Parts now items) : Stays site (modifyTree (·.flatten site.id items)) now := by
  refine modifyTree_stays (keeps.rearrange parts.splice ?_ rfl keeps.single)
  rw [List.map_map]
  exact List.map_id _

theorem flattenBound_stays {items : List NodeId} {result : α} (keeps : site.Keeps now)
    (parts : site.Parts now items) (binding : Binding) : Stays site (do
      modifyTree (·.flatten site.id items)
      setBinding site.id binding
      return result) now :=
  .bind (flatten_stays keeps parts) fun _ _ keeps _ => bound_stays keeps binding result

theorem nameConstant_works (keeps : site.Keeps now) (member : kid ∈ now.childIds site.id) :
    Works site (Rule.nameConstant kid) now fun _ tree => site.Spares kid now tree := by
  refine .bindAside (aside_textOf kid) fun name => .bindModify ?_
  obtain ⟨keepsNew, spares⟩ := keeps.nameConstant member .text .string (.string name)
  rw [setConst, bind_assoc]
  refine .bindModify ?_
  rw [pure_bind]
  exact .modifyTree keepsNew spares

theorem aside_isValue (name : String) : Aside (Rule.isValue name) :=
  fun state => ⟨state.scopes.hasVariable name || state.environment.hasGlobal name, state, rfl, rfl⟩

theorem typeReceiver?_works (keeps : site.Keeps now) (member : kid ∈ now.childIds site.id) :
    Works site (Rule.typeReceiver? kid) now fun _ tree => site.Spares kid now tree := by
  have unchanged : Works site (pure none : Check (Option Ty)) now
      fun _ tree => site.Spares kid now tree := .pure keeps (.refl site kid now)
  refine .bindTag ?_
  split
  · refine .bindAside (aside_textOf kid) fun name => ?_
    refine .bindAside (aside_isValue name) fun isValue => ?_
    split
    · exact unchanged
    · refine .bindAside aside_environment fun environment => ?_
      split
      · rename_i owner _
        obtain ⟨keepsNew, spares⟩ : site.Keeps ((now.setType kid owner).markDone kid) ∧
            site.Spares kid now ((now.setType kid owner).markDone kid) := by
          simp only [Tree.setType, Tree.markDone, Tree.modify_modify]
          exact keeps.finish member (fun _ => rfl) (fun _ => rfl) fun _ => rfl
        exact .bindModify (.bind (.modifyTree keepsNew spares) fun _ _ keeps spares =>
          .pure keeps spares)
      · exact unchanged
  · exact unchanged

end Check

end ScriptTyping
