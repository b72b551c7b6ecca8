import ScriptTyping.Proofs.Ownership.Expression

/-!
The rules for calls stay within the place at which they work.
-/

namespace ScriptTyping

namespace Rule

open Check

variable {site : Site} {now : Tree} {visit : Visit} {receiver nameNode list : NodeId}
  {slots : List Slot} {args : List Ty}

/-! ### Functions -/

theorem applyValue_stays (keeps : site.Keeps now) (listed : site.Listed now list slots)
    (name : String) (args params : List Ty) (result : Ty) :
    Stays site (applyValue site.id name slots args params result) now := by
  refine .bindAside aside_environment fun environment => ?_
  dsimp only
  split
  · exact .failAt keeps site.id _
  · refine .bind (coerceArguments_works keeps listed fun inner keeps slotted => ?_) ?_
    · refine coerceEach_works keeps fun slot member => slotted slot ?_
      obtain ⟨pair, isPair, rfl⟩ := List.mem_map.mp member
      exact (List.of_mem_zip isPair).1
    · intro _ tree keeps _
      refine .bind (modifyTree_stays (keeps.relabel .name .recv)) fun _ _ keeps _ => ?_
      exact bound_stays keeps _ _

theorem applyCallable_stays (keeps : site.Keeps now) (listed : site.Listed now list slots)
    (isName : now.child? site.id .name = some nameNode) :
    Stays site (applyCallable site.id nameNode list slots) now := by
  refine .bindAside aside_environment fun environment => ?_
  dsimp only
  split
  · exact .failAt keeps site.id _
  · exact dispatch_stays keeps listed isName (by decide) _ _

theorem applyFunction_stays (keeps : site.Keeps now) (listed : site.Listed now list slots)
    (length : args.length = slots.length) (name : String) :
    Stays site (applyFunction site.id name slots args) now :=
  .bindAside aside_environment fun _ =>
    conclude_stays keeps _ _ fun _ found => convertList_stays keeps listed length found

theorem apply_stays (masters : Masters site.room visit) (keeps : site.Keeps now) :
    Stays site (apply visit site.id) now := by
  refine .bindRequired keeps fun nameNode isName => ?_
  refine .bindAside (aside_textOf nameNode) fun name => ?_
  refine .bind (argumentList_works keeps) fun list tree keeps gathers => ?_
  rw [← gathers.others (by decide)] at isName
  refine .bindSlots (.bind (visitArguments_works masters keeps gathers.listed) ?_)
  intro args tree keeps ⟨spares, listed, length⟩
  rw [← spares.child?] at isName
  refine .bindAside aside_scopes fun scopes => ?_
  dsimp only
  split
  · split
    · exact bound_stays keeps _ _
    · exact .failAt keeps site.id _
  · refine .bindAside (aside_isValue name) fun isValue => ?_
    split
    · have different := keeps.distinct listed.found isName (by decide)
      refine .bind (.check masters keeps (Tree.mem_childIds_of_child? isName)) ?_
      intro valueTy tree keeps spares
      rw [← spares.child?] at isName
      have listed := listed.spares spares different
      split
      · exact applyValue_stays keeps listed name args _ _
      · split
        · exact applyCallable_stays keeps listed isName
        · exact applyFunction_stays keeps listed length name
    · exact applyFunction_stays keeps listed length name

/-! ### Methods -/

theorem applyStatic_stays (masters : Masters site.room visit) (keeps : site.Keeps now)
    (listed : site.Listed now list slots) (owner : Ty) (name : String) :
    Stays site (applyStatic visit site.id owner name slots) now := by
  refine .bind (visitArguments_works masters keeps listed) ?_
  intro args tree keeps ⟨_, listed, length⟩
  refine .bindAside aside_environment fun environment => ?_
  dsimp only
  split
  · exact .failAt keeps site.id _
  · exact conclude_stays keeps _ _ fun _ found => convertList_stays keeps listed length found

theorem applyDynamic_stays (keeps : site.Keeps now) (listed : site.Listed now list slots)
    (isReceiver : now.child? site.id .recv = some receiver)
    (isName : now.child? site.id .name = some nameNode) :
    Stays site (applyDynamic site.id receiver nameNode list slots) now := by
  refine .bindAside aside_environment fun environment => ?_
  dsimp only
  split
  · exact .failAt keeps site.id _
  · refine .bind (coerceArguments_works keeps listed fun inner keeps slotted =>
      coerceAll_works keeps slotted .object) ?_
    intro _ tree keeps ⟨spares, listed⟩
    rw [← spares.child?] at isReceiver isName
    have apart := keeps.distinct listed.found isName (by decide)
    refine .bind (nameConstant_works keeps (Tree.mem_childIds_of_child? isName)) ?_
    intro _ tree keeps spares
    rw [← spares.child?] at isReceiver isName
    have listed := listed.spares spares apart
    have nodup : [receiver, nameNode, list].Nodup := by
      simp [keeps.distinct isReceiver isName (by decide),
        keeps.distinct isReceiver listed.found (by decide), apart.symm]
    refine flattenBound_stays keeps (keeps.pick nodup ?_) _
    simp [Tree.mem_childIds_of_child? isReceiver, Tree.mem_childIds_of_child? isName, listed.mem]

theorem applyOnValue_stays (masters : Masters site.room visit) (keeps : site.Keeps now)
    (listed : site.Listed now list slots) (isReceiver : now.child? site.id .recv = some receiver)
    (isName : now.child? site.id .name = some nameNode) (name : String) :
    Stays site (applyOnValue visit site.id receiver nameNode list name slots) now := by
  have apart := keeps.distinct listed.found isReceiver (by decide)
  refine .bind (.check masters keeps (Tree.mem_childIds_of_child? isReceiver)) ?_
  intro receiverTy tree keeps spares
  rw [← spares.child?] at isReceiver isName
  refine .bind (visitArguments_works masters keeps (listed.spares spares apart)) ?_
  intro args tree keeps ⟨spares, listed, length⟩
  rw [← spares.child?] at isReceiver isName
  refine .bindAside aside_environment fun environment => ?_
  dsimp only
  split
  · rename_i resolution found
    exact accept_stays (convertList_stays keeps listed length found)
  · split
    · exact applyDynamic_stays keeps listed isReceiver isName
    · exact .reject keeps site.id _ _

theorem methodApply_stays (masters : Masters site.room visit) (keeps : site.Keeps now) :
    Stays site (methodApply visit site.id) now := by
  refine .bindRequired keeps fun receiver isReceiver => ?_
  refine .bindRequired keeps fun nameNode isName => ?_
  refine .bindAside (aside_textOf nameNode) fun name => ?_
  refine .bind (argumentList_works keeps) fun list tree keeps gathers => ?_
  rw [← gathers.others (by decide)] at isReceiver isName
  have apart := keeps.distinct gathers.found isReceiver (by decide)
  refine .bindSlots (.bind (typeReceiver?_works keeps (Tree.mem_childIds_of_child? isReceiver)) ?_)
  intro owner tree keeps spares
  rw [← spares.child?] at isReceiver isName
  have listed := gathers.listed.spares spares apart
  cases owner with
  | some owner => exact applyStatic_stays masters keeps listed owner name
  | none => exact applyOnValue_stays masters keeps listed isReceiver isName name

/-! ### Construction -/

theorem construct_stays (masters : Masters site.room visit) (keeps : site.Keeps now) :
    Stays site (construct visit site.id) now := by
  refine .bindRequired keeps fun written isWritten => ?_
  have reaches := Tree.reaches_kid (Tree.mem_childIds_of_child? isWritten)
  refine .bind (annotation_works keeps reaches) fun ty tree keeps _ => ?_
  refine .bind (argumentList_works keeps) fun list tree keeps gathers => ?_
  refine .bindSlots (.bind (visitArguments_works masters keeps gathers.listed) ?_)
  intro args tree keeps ⟨_, listed, length⟩
  refine .bindAside aside_environment fun environment => ?_
  dsimp only
  split
  · rename_i resolution found
    exact .bind (convertList_stays keeps listed length found) fun _ _ keeps _ =>
      bound_stays keeps _ _
  · exact .reject keeps site.id _ _

end Rule

end ScriptTyping
