import ScriptTyping.Proofs.Ownership.Statement
import ScriptTyping.Proofs.Rule.Function

/-!
The rules for imports, functions, returns and variables stay within the place at which they work.
-/

namespace ScriptTyping

namespace Rule

open Check

variable {site : Site} {now : Tree} {visit : Visit} {id body nameNode : NodeId}

theorem importDecl_stays (keeps : site.Keeps now) : Stays site (importDecl site.id) now := by
  refine .bindRequiredOrFirst keeps fun target _ => .bindTree ?_
  split
  · exact .failAt keeps site.id _
  · refine .bindAside aside_environment fun environment => ?_
    refine .bindAside (aside_setEnvironment _) fun _ => ?_
    split
    · exact .failAt keeps site.id _
    · exact .bind (markDone_stays keeps) fun _ _ keeps _ => .pure keeps trivial

/-! ### Functions -/

theorem declareGlobal_works (keeps : site.Keeps now) (name : String) (ty : Ty)
    (nameNode : NodeId) :
    Works site (declareGlobal name ty nameNode) now fun _ tree => tree = now := by
  refine .bindAside aside_environment fun environment => ?_
  split
  · exact .bindAside (aside_setEnvironment _) fun _ => .pure keeps rfl
  · exact .failAt keeps nameNode _

theorem parameter_works (keeps : site.Keeps now) (reaches : now.Reaches site.id id) :
    Works site (parameter id) now fun _ tree => now.Akin tree := by
  refine .bindAside (aside_read _) fun named => .bindAside (aside_textOf _) fun name => ?_
  refine .bind (annotation?_works keeps reaches .type) fun written tree keeps early => ?_
  refine .bind (setType_works keeps (early.reaches reaches) _) fun _ _ keeps late => ?_
  exact .pure keeps (early.trans late)

theorem parameters_works {ids : List NodeId} (keeps : site.Keeps now)
    (each : ∀ id ∈ ids, now.Reaches site.id id) :
    Works site (parameters ids) now fun _ tree => now.Akin tree := by
  induction ids generalizing now with
  | nil => exact .pure keeps (.refl now)
  | cons id rest ih =>
      refine .bind (parameter_works keeps (each id List.mem_cons_self)) ?_
      intro param tree keeps early
      have later : ∀ id ∈ rest, tree.Reaches site.id id := fun other member =>
        early.reaches (each other (List.mem_cons_of_mem _ member))
      exact .bind (ih keeps later) fun _ _ keeps late => .pure keeps (early.trans late)

theorem parameterList_works (keeps : site.Keeps now) :
    Works site (parameterList site.id) now fun _ tree => now.Akin tree := by
  refine .bindChild? ?_
  split
  · rename_i list found
    refine .bindChildIds (parameters_works keeps fun id member => ?_)
    exact .step (Tree.mem_childIds_of_child? found) (Tree.reaches_kid member)
  · exact .pure keeps (.refl now)

theorem prototype_stays (keeps : site.Keeps now) (nameNode : NodeId) (name : String) (ty : Ty) :
    Stays site (prototype site.id nameNode name ty) now := by
  refine .bindAside aside_environment fun environment => ?_
  split
  · exact .failAt keeps nameNode _
  · refine .bindSame (declareGlobal_works keeps name ty nameNode) fun _ => ?_
    exact .bind (markDone_stays keeps) fun _ _ keeps _ => .pure keeps trivial

theorem exitFunction_works (keeps : site.Keeps now) :
    Works site exitFunction now fun _ tree => tree = now := by
  refine .bindAside aside_scopes fun scopes => ?_
  split
  · exact .bindAside (aside_modifyScopes _) fun _ => .pure keeps rfl
  · exact .stop trivial

/-- The body of a function may change or be replaced; the other parts of the function stay. -/
theorem enteredBody_works (masters : Masters site.room visit) (keeps : site.Keeps now)
    (isBody : now.child? site.id .body = some body) (params : List (String × Ty)) :
    Works site (enteredBody visit site.id body params) now fun _ tree =>
      ∀ {label}, label ≠ .body → tree.child? site.id label = now.child? site.id label := by
  obtain ⟨index, isIndex, found⟩ := Node.indexOf?_of_child? isBody
  have returns : ∀ {tree : Tree}, site.Keeps tree →
      (∀ {label}, label ≠ .body → tree.child? site.id label = now.child? site.id label) →
      Works site leaveFunction tree fun _ tree =>
        ∀ {label}, label ≠ .body → tree.child? site.id label = now.child? site.id label :=
    fun keeps same => .bindSame (exitFunction_works keeps) fun _ => .pure keeps same
  refine .bindAside (aside_modifyScopes _) fun _ => ?_
  refine .bindAttempt masters keeps found (fun _ tree keeps top => ?_) ?_
  · exact returns keeps fun _ => by rw [Tree.child?, top, Tree.child?]
  · intro failure tree top keepsNew
    have bound := keepsNew.bound
    rw [Tree.replaceAt, Tree.size_modify] at bound
    have isBodyNew : (tree.get site.id).indexOf? .body = some index := by rwa [top]
    refine .bindModify (.bindAside (aside_recordError failure.error) fun _ => ?_)
    rw [Tree.setChild_of_indexOf? isBodyNew]
    refine returns keepsNew fun {label} different => ?_
    rw [Tree.child?, Tree.replaceAt, Tree.get_modify_self _ _ bound, top, Tree.child?]
    exact Node.child?_replaceAt_other isIndex different

theorem functionBody_works (masters : Masters site.room visit) (keeps : site.Keeps now)
    (isBody : now.child? site.id .body = some body) (name : String) (written : Option Ty)
    (params : List (String × Ty)) :
    Works site (functionBody visit site.id body name written params) now fun _ tree =>
      ∀ {label}, label ≠ .body → tree.child? site.id label = now.child? site.id label := by
  rw [functionBody_eq]
  have checks := enteredBody_works masters keeps isBody params
  refine .bindAside (aside_modifyScopes _) fun _ => ?_
  cases written with
  | some ty => exact .bindAside (aside_modifyScopes _) fun _ => checks
  | none => exact checks

theorem setAnnotation_works (keeps : site.Keeps now) (ty : Ty) :
    Works site ( setAnnotation site.id ty) now fun _ tree => now.Akin tree := by
  refine .bindChild? ?_
  split
  · rename_i node found
    exact setType_works keeps (Tree.reaches_kid (Tree.mem_childIds_of_child? found)) ty
  · exact .pure keeps (.refl now)

theorem define_stays (masters : Masters site.room visit) (keeps : site.Keeps now)
    (isName : now.child? site.id .name = some nameNode)
    (isBody : now.child? site.id .body = some body) (name : String) (written : Option Ty)
    (params : List (String × Ty)) :
    Stays site (define visit site.id nameNode body name written params) now := by
  refine .bind (functionBody_works masters keeps isBody name written params) ?_
  intro result tree keeps same
  rw [← same (by decide)] at isName
  refine .bind (setAnnotation_works keeps result) fun _ tree keeps akin => ?_
  rw [← akin.child?] at isName
  have reaches := Tree.reaches_kid (Tree.mem_childIds_of_child? isName)
  refine .bind (setType_works keeps reaches result) ?_
  intro _ tree keeps _
  refine .bindSame (declareGlobal_works keeps name _ nameNode) fun globalId => ?_
  exact bound_stays keeps _ _

theorem funcDecl_stays (masters : Masters site.room visit) (keeps : site.Keeps now) :
    Stays site (funcDecl visit site.id) now := by
  rw [funcDecl_eq]
  refine .bindRequired keeps fun nameNode isName => ?_
  refine .bindAside (aside_textOf nameNode) fun name => ?_
  refine .bind (annotation?_works keeps (.refl site.id) .type) fun written tree keeps akin => ?_
  rw [← akin.child?] at isName
  refine .bind (parameterList_works keeps) fun params tree keeps akin => ?_
  rw [← akin.child?] at isName
  refine .bindChild? ?_
  split
  · exact prototype_stays keeps nameNode name _
  · rename_i body isBody
    exact define_stays masters keeps isName isBody name written params

theorem fixReturn_stays (keeps : site.Keeps now) (ty : Ty) : Stays site (fixReturn ty) now :=
  .bindAside (aside_modifyScopes _) fun _ => .pure keeps trivial

theorem firstReturn_stays (masters : Masters site.room visit) (keeps : site.Keeps now) :
    Stays site (firstReturn visit site.id) now := by
  refine .bindChild? ?_
  split
  · rename_i child found
    exact .bind (.check masters keeps (Tree.mem_childIds_of_child? found))
      fun ty _ keeps _ => fixReturn_stays keeps ty
  · exact fixReturn_stays keeps .void

theorem returnStmt_stays (masters : Masters site.room visit) (keeps : site.Keeps now) :
    Stays site (returnStmt visit site.id) now := by
  refine .bindAside aside_scopes fun scopes => ?_
  split
  · exact .failAt keeps site.id _
  · split
    · exact firstReturn_stays masters keeps
    · refine .bind (modifyTree_stays ?_) fun _ _ keeps _ => .pure keeps trivial
      exact keeps.rearrange (keeps.parts.some (Node.nodes_removeChild _ .expr).subperm) rfl
        (Node.note_removeChild _ .expr) (by rw [Node.tag_removeChild]; exact keeps.single)
    · exact .bind (enforce_works masters keeps .expr _) fun _ _ keeps _ => .pure keeps trivial

/-! ### Variables -/

theorem variableType_works (masters : Masters site.room visit) (keeps : site.Keeps now)
    (nameNode : NodeId) (written : Option Ty) :
    Works site (variableType visit site.id nameNode written) now fun _ tree =>
      tree.child? site.id .name = now.child? site.id .name := by
  refine .bindAside (aside_read _) fun isInitialized => ?_
  cases written with
  | some ty =>
      cases isInitialized with
      | true =>
          refine .bind (enforce_works masters keeps .expr ty) fun _ _ keeps swaps => ?_
          exact .pure keeps (swaps.others (by decide))
      | false => exact .pure keeps rfl
  | none =>
      cases isInitialized with
      | true =>
          refine (visitRequired_works masters keeps .expr).mono fun _ _ _ top => ?_
          rw [Tree.child?, top, Tree.child?]
      | false =>
          refine .bindAside (aside_textOf nameNode) fun text => ?_
          exact .bindAside (aside_warnAt nameNode _) fun _ => .pure keeps rfl

theorem globalStore_stays (keeps : site.Keeps now) (globalId : GlobalId) :
    Stays site (globalStore site.id globalId) now := by
  refine .bind (modifyTree_stays ?_) fun _ _ keeps _ => (setBinding_works keeps _).stays
  simp only [Tree.removeChild, Tree.relabel, Tree.setTag, Tree.modify_modify]
  refine keeps.rearrange (keeps.parts.some (Node.nodes_removeChild _ .type).subperm) ?_ ?_ rfl
  · exact (Node.nodes_relabel _ _ _).trans (Node.nodes_relabel _ _ _)
  · exact (Node.note_relabel _ _ _).trans
      ((Node.note_relabel _ _ _).trans (Node.note_removeChild _ _))

theorem varDecl_stays (masters : Masters site.room visit) (keeps : site.Keeps now) :
    Stays site (varDecl visit site.id) now := by
  refine .bindRequired keeps fun nameNode isName => ?_
  refine .bindAside (aside_textOf nameNode) fun name => ?_
  refine .bind (annotation?_works keeps (.refl site.id) .type) fun written tree keeps akin => ?_
  rw [← akin.child?] at isName
  refine .bindAside (aside_read _) fun isInitialized => ?_
  refine .bind (variableType_works masters keeps nameNode written) fun ty tree keeps same => ?_
  rw [← same] at isName
  have reaches := Tree.reaches_kid (Tree.mem_childIds_of_child? isName)
  refine .bind (setType_works keeps reaches ty) fun _ tree keeps _ => ?_
  refine .bindAside aside_scopes fun scopes => ?_
  split
  · exact .bindAside (aside_modifyScopes _) fun _ => .pure keeps trivial
  · refine .bindSame (declareGlobal_works keeps name ty nameNode) fun globalId => ?_
    split
    · exact .bind (globalStore_stays keeps globalId) fun _ _ keeps _ => .pure keeps trivial
    · exact .bind (markDone_stays keeps) fun _ _ keeps _ => .pure keeps trivial

end Rule

end ScriptTyping
