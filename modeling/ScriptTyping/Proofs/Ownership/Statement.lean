import ScriptTyping.Proofs.Ownership.Expression

/-!
The rules for sequences, branches and loops stay within the place at which they work.
-/

namespace ScriptTyping

namespace Rule

open Check

variable {site : Site} {now : Tree} {visit : Visit} {id body nameNode target receiver : NodeId}

/-! ### Sequences -/

theorem statementsFrom_stays (masters : Masters site.room visit) (keeps : site.Keeps now)
    (count index : Nat) (last : Ty) :
    Stays site (statementsFrom visit site.id last index count) now := by
  induction count generalizing now index last with
  | zero => exact .pure keeps trivial
  | succ count ih =>
      refine .bindTree ?_
      split
      · exact .pure keeps trivial
      · rename_i child found
        refine .bindAttempt masters keeps found (fun ty tree keeps _ => ih keeps _ _) ?_
        intro failure tree top keepsNew
        have isKid : tree.childAt? site.id index = some child := by rwa [Tree.childAt?, top]
        have replaced : Stays site (replace ⟨site.id, index⟩ failure.replacement) tree :=
          .bindOccupant isKid (modifyTree_stays keepsNew)
        refine .bind replaced fun _ _ keeps _ => ?_
        exact .bindAside (aside_recordError failure.error) fun _ => ih keeps _ _

theorem statements_stays (masters : Masters site.room visit) (keeps : site.Keeps now) :
    Stays site (statements visit site.id) now :=
  .bindChildIds (statementsFrom_stays masters keeps _ _ _)

theorem statementList_stays (masters : Masters site.room visit) (keeps : site.Keeps now) :
    Stays site (statementList visit site.id) now :=
  .bind (statements_stays masters keeps) fun _ _ keeps _ => .pure keeps trivial

theorem block_stays (masters : Masters site.room visit) (keeps : site.Keeps now) :
    Stays site (block visit site.id) now :=
  .bindAside aside_scopes fun _ => .inBlockIf _ (statementList_stays masters keeps)

/-! ### Branches -/

theorem assertionMessage_works (keeps : site.Keeps now) (id : NodeId) :
    Works site (assertionMessage id) now fun _ tree => tree = now := by
  refine .bindTree ?_
  split
  · exact .pure keeps rfl
  · exact .pure keeps rfl
  · exact .stop trivial

theorem assertion_stays (masters : Masters site.room visit) (keeps : site.Keeps now) :
    Stays site (assertion visit site.id) now := by
  refine .bind (enforce_works masters keeps .cond .bool) fun condition tree keeps swaps => ?_
  refine .bindAside (aside_read _) fun hasMessage => ?_
  split
  · refine .bind (enforce_works masters keeps .msg .string) fun _ _ keeps _ => ?_
    exact bound_stays keeps _ _
  · refine .bindSame (assertionMessage_works keeps condition) fun text => ?_
    refine .bindAside (aside_read _) fun span => .bindBuild ?_
    have condOnly : site.Parts tree ([condition] ++ ([] ++ [])) :=
      keeps.pick (List.nodup_singleton condition) (by simpa using swaps.mem)
    have grown := keeps.adds (tree.alloc_adds (constantText span text))
    refine .bind (modifyTree_stays ?_) fun _ _ keeps _ => bound_stays keeps _ _
    exact grown.rearrange (condOnly.group keeps rfl (.inl rfl)) rfl rfl grown.single

theorem optional_stays (masters : Masters site.room visit) (keeps : site.Keeps now)
    (label : Label) : Stays site (optional visit site.id label) now := by
  refine .bindChild? ?_
  split
  · rename_i child found
    exact .bind (.check masters keeps (Tree.mem_childIds_of_child? found)) fun _ _ keeps _ =>
      .pure keeps trivial
  · exact .pure keeps trivial

theorem visitRequired_works (masters : Masters site.room visit) (keeps : site.Keeps now)
    (label : Label) : Works site (required site.id label >>= visit) now fun _ tree =>
      tree.get site.id = now.get site.id := by
  refine .bindRequired keeps fun kid found => ?_
  exact (Works.check masters keeps (Tree.mem_childIds_of_child? found)).mono
    fun _ _ _ spares => spares.top

theorem ifStmt_stays (masters : Masters site.room visit) (keeps : site.Keeps now) :
    Stays site (ifStmt visit site.id) now := by
  refine .bind (enforce_works masters keeps .cond .bool) fun _ _ keeps _ => ?_
  refine .bindRequired keeps fun branch found => ?_
  refine .bind (.check masters keeps (Tree.mem_childIds_of_child? found)) fun _ _ keeps _ => ?_
  exact .bind (optional_stays masters keeps .elseBranch) fun _ _ keeps _ => .pure keeps trivial

theorem conditional_stays (masters : Masters site.room visit) (keeps : site.Keeps now) :
    Stays site (conditional visit site.id) now := by
  refine .bind (enforce_works masters keeps .cond .bool) fun _ _ keeps _ => ?_
  refine .bindRequired keeps fun branch found => ?_
  refine .bind (.check masters keeps (Tree.mem_childIds_of_child? found)) ?_
  intro thenTy tree keeps _
  refine .bindRequiredSlot keeps fun index isIndex => ?_
  have slotted : (tree.get site.id).Slotted site.id [⟨site.id, index⟩] := by
    simp [Node.Slotted, Node.lt_of_indexOf? isIndex]
  refine .bindVisitSlot masters keeps slotted (by simp) fun elseTy last keeps top => ?_
  split
  · exact .pure keeps trivial
  · exact .bind (coerceIn_works keeps (top ▸ slotted) (by simp) thenTy) fun _ _ keeps _ =>
      .pure keeps trivial

/-! ### Loops -/

theorem body_stays (masters : Masters site.room visit) (keeps : site.Keeps now) :
    Stays site (Rule.body visit site.id) now := by
  refine .bindRequired keeps fun kid found => ?_
  exact .bind (.check masters keeps (Tree.mem_childIds_of_child? found)) fun _ _ keeps _ =>
    .pure keeps trivial

theorem whileLoop_stays (masters : Masters site.room visit) (keeps : site.Keeps now) :
    Stays site (whileLoop visit site.id) now :=
  .bind (enforce_works masters keeps .cond .bool) fun _ _ keeps _ => body_stays masters keeps

theorem loopSteps_stays (masters : Masters site.room visit) (keeps : site.Keeps now) :
    Stays site (loopSteps visit site.id) now :=
  .bind (optional_stays masters keeps .iter) fun _ _ keeps _ => body_stays masters keeps

theorem forLoop_stays (masters : Masters site.room visit) (keeps : site.Keeps now) :
    Stays site (forLoop visit site.id) now := by
  refine .bindAside aside_scopes fun scopes => .inBlockIf _ ?_
  refine .bind (optional_stays masters keeps .init) fun _ _ keeps _ => ?_
  refine .bindAside (aside_read _) fun hasCondition => ?_
  split
  · exact .bind (enforce_works masters keeps .cond .bool) fun _ _ keeps _ =>
      loopSteps_stays masters keeps
  · exact loopSteps_stays masters keeps

theorem elementType_works (keeps : site.Keeps now) (iterated : Ty) :
    Works site (elementType site.id iterated) now fun _ tree =>
      (now.get site.id).Akin (tree.get site.id) := by
  rw [elementType]
  split
  · exact .pure keeps (.refl _)
  · refine .bindAside aside_environment fun environment => ?_
    dsimp only
    split
    · exact .bind (setBinding_works keeps _) fun _ _ keeps akin => .pure keeps akin
    · exact .reject keeps site.id _ _

theorem loopVariable_works (keeps : site.Keeps now) (iterated : NodeId) (written : Option Ty)
    (element : Ty) : Works site (loopVariable iterated written element) now
      fun _ tree => tree = now := by
  rw [loopVariable.eq_def]
  split
  · exact .pure keeps rfl
  · refine .bindAside aside_environment fun environment => ?_
    split
    · exact .pure keeps rfl
    · exact .failAt keeps iterated _

theorem loopOver_stays (masters : Masters site.room visit) (keeps : site.Keeps now)
    (written : Option Ty) : Stays site (loopOver visit site.id written) now := by
  refine .bindRequired keeps fun nameNode isName => ?_
  refine .bindAside (aside_textOf nameNode) fun name => ?_
  refine .bindRequired keeps fun iterated isIterated => ?_
  refine .bind (.check masters keeps (Tree.mem_childIds_of_child? isIterated)) ?_
  intro iteratedTy tree keeps spares
  have member := Tree.mem_childIds_of_child? isName
  rw [← spares.childIds] at member
  refine .bind (elementType_works keeps iteratedTy) fun element tree keeps akin => ?_
  refine .bindSame (loopVariable_works keeps iterated written element) fun ty => ?_
  have reaches : tree.Reaches site.id nameNode := by
    refine Tree.reaches_kid ?_
    rwa [Tree.childIds, akin.children]
  refine .bind (setType_works keeps reaches ty) fun _ _ keeps _ => .inBlock ?_
  exact .bindAside (aside_modifyScopes _) fun _ => body_stays masters keeps

theorem forEach_stays (masters : Masters site.room visit) (keeps : site.Keeps now) :
    Stays site (forEach visit site.id) now := by
  rw [forEach_eq]
  refine .bindSame ?_ fun written => loopOver_stays masters keeps written
  refine .bindChild? ?_
  split
  · exact .bindSame (denotation_works keeps _) fun ty => .pure keeps rfl
  · exact .pure keeps rfl

end Rule

end ScriptTyping
