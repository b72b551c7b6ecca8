import ScriptTyping.Proofs.Rule.Lookup

/-!
Imports, returns and variables.
-/

namespace ScriptTyping

namespace Branch

theorem length_under (branch : Branch) (label : Label) :
    (branch.stored.under label).length = branch.kids.countP (·.label == some label) := by
  rw [StoredNode.under, children_stored, List.filter_map, List.length_map,
    ← List.countP_eq_length_filter]
  simp only [Function.comp_def, label_stored]

/-- Apart from the first child under a label there is none if there is at most one. -/
theorem Kid.lone {branch kid : Branch} {label : Label} {index : Nat}
    (isKid : branch.Kid label index kid) (lone : (branch.stored.under label).length ≤ 1) :
    ∀ other ∈ branch.kids.eraseIdx index, other.label ≠ some label := by
  obtain ⟨inRange, isHere⟩ := List.getElem?_eq_some_iff.mp isKid.found
  have perm := List.getElem_cons_eraseIdx_perm inRange
  rw [isHere] at perm
  have count : branch.kids.countP (·.label == some label) ≤ 1 := by
    rw [← length_under]
    exact lone
  rw [← perm.countP_eq, List.countP_cons_of_pos (by simp [isKid.label])] at count
  have none := List.countP_eq_zero.mp (Nat.le_zero.mp (Nat.le_of_succ_le_succ count))
  exact fun other member same => none other member (by simp [same])

end Branch

namespace Check

variable {β : Type} {premise : Premise} {calm : Calm} {first : Environment} {seen : List Label}
  {unseen : Nat → Option Label → Prop} {old : CheckState} {branch kid : Branch} {label : Label}
  {index : Nat} {visit : Visit}

theorem requiredOrFirst_yields (stands : old.tree.Stands branch) :
    (requiredOrFirst branch.id label).Yields calm old branch fun id new after =>
      new = old ∧ after = branch ∧ ∃ (index : Nat) (kid : Branch),
        branch.kids[index]? = some kid ∧ id = kid.id := by
  refine .bindRead stands (.bindRead stands ?_)
  rw [stands.holds.child?_eq, stands.holds.childIds_eq]
  cases found : branch.first? label with
  | some kid =>
      obtain ⟨index, isKid⟩ := Branch.first?_eq_some_iff.mp found
      exact .pure stands ⟨rfl, rfl, index, kid, isKid.found, rfl⟩
  | none =>
      have missing := @required_yields calm old branch label branch stands stands.holds
      cases kids : branch.kids with
      | cons kid others => exact .pure stands ⟨rfl, rfl, 0, kid, by simp, rfl⟩
      | nil =>
          simp only [List.map_nil, List.head?_nil, Option.map_none, Option.or_none]
          refine missing.mono ?_
          rintro _ _ _ _ ⟨rfl, rfl, index, kid, isKid, rfl⟩
          simp [isKid.first?] at found

theorem Yields.bindRequiredOrFirst {next : NodeId → Check β}
    {post : β → CheckState → Branch → Prop} (stands : old.tree.Stands branch)
    (rest : ∀ (index : Nat) (kid : Branch), branch.kids[index]? = some kid →
      (next kid.id).Yields calm old branch post) :
    (requiredOrFirst branch.id label >>= next).Yields calm old branch post := by
  refine .bindSame (requiredOrFirst_yields stands) ?_
  rintro _ ⟨index, kid, found, rfl⟩
  exact rest index kid found

theorem Yields.bindEnvironment {next : Unit → Check β} {post : β → CheckState → Branch → Prop}
    {environment : Environment} (isOpen : Open premise calm first unseen old branch)
    (leads : old.environment.Leads environment) (loud : ¬ calm.still old.mode)
    (same : environment.globals = old.environment.globals)
    (rest : Open premise calm first unseen { old with environment := environment } branch →
      (next ()).Yields calm { old with environment := environment } branch post) :
    (setEnvironment environment >>= next).Yields calm old branch post :=
  .bindState isOpen rfl (.ofEnvironment leads)
    ⟨fun _ => rfl, fun isStill => absurd isStill loud,
      fun _ _ known => by rwa [Environment.hasGlobal, Environment.globalId?, same] at known⟩ rfl rest

end Check

namespace Rule

open Check

variable {premise : Premise} {calm : Calm} {first : Environment} {seen : List Label}
  {unseen : Nat → Option Label → Prop} {old : CheckState} {branch kid : Branch} {tag : Tag}
  {index : Nat} {visit : Visit}

theorem importDecl_yields (isOpen : Open premise calm first unseen old branch)
    (isTag : branch.node.tag = tag) (free : tag.isFree = true)
    (loud : ∀ mode, ¬ calm.still mode) :
    (importDecl branch.id).Yields calm old branch (Ruled premise first) := by
  refine .bindRequiredOrFirst isOpen.stands ?_
  intro index target _
  refine .bindRead isOpen.stands ?_
  simp only
  split
  · exact .failAt isOpen.stands _ rfl
  · rename_i path _
    refine .bindRead isOpen.stands ?_
    have leads : old.environment.Leads (old.environment.importNamespace path).1 :=
      .single (.importNamespace _ _)
    refine .bindEnvironment isOpen leads (loud _)
      (Environment.globals_importNamespace _ path) ?_
    intro opens
    split
    · exact .failAt opens.stands _ rfl
    · refine .bindModify opens rfl rfl (opens.inside.alike rfl rfl) ?_
      intro new opensNew _ _
      exact .pure opensNew.stands (opensNew.closeFree isTag free)

/-! ### Returns -/

theorem returned {ty : Ty} (isOpen : Open premise calm first unseen old branch)
    (isTag : branch.node.tag = .returnStmt)
    (returns : premise.lone → branch.Returns old.scopes.returnType?) :
    Ruled premise first ty old branch := by
  refine isOpen.close ?_
  unfold Branch.Facts
  simp only [Branch.typed, Branch.node_alter, isTag]
  exact returns

/-- The return that fixes the return type of its function. -/
theorem firstReturn_yields (visits : Visits premise visit)
    (isOpen : Open premise calm first (Unseen []) old branch)
    (isTag : branch.node.tag = .returnStmt) (loud : ¬ calm.returns)
    (allows : premise.Allows branch.stored) (inside : old.scopes.inFunction = true)
    (isNone : old.scopes.returnType? = none) :
    (firstReturn visit branch.id).Yields calm old branch (Ruled premise first) := by
  refine .bindRead isOpen.stands ?_
  rw [isOpen.stands.holds.child?_eq]
  cases found : branch.first? .expr with
  | none =>
      refine .bindRun rfl (.refl isOpen.stands) ?_
      refine .bindState isOpen rfl (.ofScopes (ScopeStack.setReturnType_evolves _ _))
        ⟨fun isCalm => absurd isCalm loud, fun _ => .refl _, fun _ _ known => known⟩ rfl ?_
      intro opens
      refine .pure opens.stands (returned opens isTag fun _ => ⟨.void, ?_, ?_, ?_⟩)
      · simp only [ScopeStack.returnType?_setReturnType inside, isNone, Option.getD_none]
      · exact fun _ kid member isExpr => absurd isExpr (Branch.first?_eq_none_iff.mp found kid member)
      · exact fun notVoid => absurd rfl notVoid
  | some kid =>
      obtain ⟨index, isKid⟩ := Branch.first?_eq_some_iff.mp found
      refine .bindVisitKid visits isOpen isKid (by decide) ?_
      intro ty new newKid becomes typed opens
      refine .bindState opens rfl (.ofScopes (ScopeStack.setReturnType_evolves _ _))
        ⟨fun isCalm => absurd isCalm loud, fun _ => .refl _, fun _ _ known => known⟩ rfl ?_
      intro opensLast
      have suits : ∀ required, ty = required → newKid.Suits required := by
        rintro _ rfl
        exact ⟨ty, typed, .inl BEq.rfl⟩
      refine .pure opensLast.stands (returned opensLast isTag fun lone => ⟨ty, ?_, ?_, ?_⟩)
      · obtain ⟨_, quiet⟩ := allows.lone lone (by rw [Branch.tag_stored, isTag])
        have isChild : kid.stored ∈ branch.stored.under .expr := by
          rw [StoredNode.under, Branch.children_stored, List.mem_filter]
          exact ⟨List.mem_map_of_mem isKid.mem, by simp [isKid.label]⟩
        have stillNone : new.scopes.returnType? = none :=
          (becomes.keeps.returns (quiet _ isChild)).trans isNone
        have stillInside : new.scopes.inFunction = true :=
          becomes.evolves.scopes.inFunction.trans inside
        simp only [ScopeStack.returnType?_setReturnType stillInside, stillNone, Option.getD_none]
      · intro isVoid other member isExpr
        have inRange := (List.getElem?_eq_some_iff.mp isKid.found).1
        have perm := List.set_perm_cons_eraseIdx inRange newKid
        rcases List.mem_cons.mp (perm.mem_iff.mp member) with rfl | isOther
        · exact suits _ isVoid
        · have few := (allows.lone lone (by rw [Branch.tag_stored, isTag])).1
          exact absurd isExpr (isKid.lone few other isOther)
      · intro _
        exact ⟨newKid, (isKid.setKid_self becomes.turns.label).first?, suits _ rfl⟩

/-- A return from a function without a result loses its expression. -/
theorem voidReturn_yields (isOpen : Open premise calm first (Unseen []) old branch)
    (isTag : branch.node.tag = .returnStmt) (allows : premise.Allows branch.stored)
    (isVoid : old.scopes.returnType? = some .void) :
    (voidReturn branch.id).Yields calm old branch (Ruled premise first) := by
  have removed : ∀ after : Branch, (∀ other ∈ after.kids, other.label ≠ some .expr) →
      after.Returns (some .void) := by
    intro after none
    refine ⟨.void, rfl, fun _ kid member isExpr => absurd isExpr (none kid member), ?_⟩
    exact fun notVoid => absurd rfl notVoid
  cases found : branch.first? .expr with
  | none =>
      have absent : (old.tree.get branch.id).indexOf? .expr = none := by
        rw [isOpen.stands.holds.indexOf?_eq, List.findIdx?_eq_none_iff]
        intro kid member
        simpa using Branch.first?_eq_none_iff.mp found kid member
      rw [isOpen.stands.holds.get_eq] at absent
      refine .bindModify isOpen (by simp only [Node.removeChild, absent])
        (Node.note_removeChild _ _) (isOpen.inside.removeChild .expr) ?_
      intro new opens _ scopes
      refine .pure opens.stands (returned opens (by simp [isTag]) fun _ => ?_)
      rw [scopes, isVoid]
      exact removed _ (Branch.first?_eq_none_iff.mp found)
  | some kid =>
      obtain ⟨index, isKid⟩ := Branch.first?_eq_some_iff.mp found
      have present : branch.node.indexOf? .expr = some index := by
        rw [← isOpen.stands.holds.get_eq, isOpen.stands.holds.indexOf?_eq]
        exact isKid.first
      have children : (branch.node.removeChild .expr).children =
          (branch.kids.eraseIdx index).map Branch.child := by
        simp only [Node.removeChild, present, isOpen.stands.holds.children_eq, List.eraseIdx_map]
      have arranged : Arranged premise first old branch (branch.node.removeChild .expr)
          (branch.kids.eraseIdx index) :=
        ⟨(Parts.ofOpen isOpen).sublist (List.eraseIdx_sublist _ _)
          (Branch.notesAll_eraseIdx isKid.found
            (isOpen.silent isKid.found (unseen_kid isKid (by decide)))), children⟩
      refine .bindArranged isOpen arranged rfl (Node.note_removeChild _ _)
        (isOpen.inside.removeChild .expr) ?_
      intro new after opens _ sameNode sameKids _ scopes
      refine .pure opens.stands (returned opens (by simp [sameNode, isTag]) fun lone => ?_)
      rw [scopes, isVoid]
      refine removed _ ?_
      rw [sameKids]
      exact isKid.lone (allows.lone lone (by rw [Branch.tag_stored, isTag])).1

theorem returnStmt_yields (visits : Visits premise visit)
    (isOpen : Open premise calm first (Unseen []) old branch)
    (isTag : branch.node.tag = .returnStmt) (loud : ¬ calm.returns)
    (allows : premise.Allows branch.stored) :
    (returnStmt visit branch.id).Yields calm old branch (Ruled premise first) := by
  refine .bindRead isOpen.stands ?_
  split
  · exact .failAt isOpen.stands _ rfl
  · rename_i inside
    rw [Bool.not_eq_true, Bool.not_eq_false'] at inside
    split
    · rename_i isNone
      exact firstReturn_yields visits isOpen isTag loud allows inside isNone
    · rename_i isVoid
      exact voidReturn_yields isOpen isTag allows isVoid
    · rename_i ty notVoid fixed
      refine (enforce_yields visits isOpen (by decide) ty).bind ?_
      rintro _ new _ becomes ⟨index, kid, newKid, _, ⟨isKid, label, suits, rfl, opens⟩⟩
      refine .pure opens.stands (opens.close ?_)
      unfold Branch.Facts
      simp only [Branch.typed, Branch.node_alter, Branch.tag_setKid, isTag]
      intro _
      refine ⟨ty, becomes.evolves.scopes.returnType? fixed, fun same => ?_, fun _ => ?_⟩
      · exact absurd same notVoid
      · exact ⟨newKid, (isKid.setKid_self label).first?, suits⟩

/-! ### Variables -/

structure Beside (label : Label) (before after : Branch) : Prop where
  alike : before.Alike after
  others : ∀ {other : Label} {index : Nat} {kid : Branch}, other ≠ label →
    before.Kid other index kid → after.Kid other index kid

theorem Beside.others_back {before after kid : Branch} {label other : Label} {index : Nat}
    (beside : Beside label before after) (different : other ≠ label)
    (isKid : after.Kid other index kid) : before.Kid other index kid := by
  obtain ⟨old, isOld⟩ := Branch.exists_kid (by
    rw [Branch.findIdx?_labels, ← beside.alike.labels, ← Branch.findIdx?_labels]
    exact isKid.first)
  have same := (beside.others different isOld).found.symm.trans isKid.found
  rw [Option.some.injEq] at same
  exact same ▸ isOld

theorem variableType_yields (visits : Visits premise visit)
    (isOpen : Open premise calm first (Unseen seen) old branch) (isNew : Label.expr ∉ seen)
    (nameNode : NodeId) (written : Option Ty) :
    (variableType visit branch.id nameNode written).Yields calm old branch fun ty new after =>
      Beside .expr branch after ∧ Open premise calm first (Unseen (.expr :: seen)) new after ∧
        ∀ kid, after.first? .expr = some kid → kid.Suits ty := by
  have same : ∀ {ty new}, branch.first? .expr = none →
      Open premise calm first (Unseen seen) new branch →
      Beside .expr branch branch ∧ Open premise calm first (Unseen (.expr :: seen)) new branch ∧
        ∀ kid, branch.first? .expr = some kid → kid.Suits ty := by
    intro ty new absent opens
    refine ⟨⟨.refl opens.stands, fun _ isKid => isKid⟩, opens.narrow fun _ _ => unseen_cons, ?_⟩
    intro kid isKid
    simp [absent] at isKid
  have changed : ∀ {ty new} {index : Nat} {kid newKid : Branch}, branch.Kid .expr index kid →
      newKid.label = kid.label → newKid.Suits ty →
      Open premise calm first (Unseen (.expr :: seen)) new (branch.setKid index newKid) →
      Beside .expr branch (branch.setKid index newKid) ∧
        Open premise calm first (Unseen (.expr :: seen)) new (branch.setKid index newKid) ∧
          ∀ other, (branch.setKid index newKid).first? .expr = some other → other.Suits ty := by
    intro ty new index kid newKid isKid label suits opens
    refine ⟨⟨.setKid isKid.found label, fun different isOther =>
      isOther.setKid_other isKid.found label (isKid.ne isOther (Ne.symm different))⟩, opens, ?_⟩
    intro other isOther
    rw [(isKid.setKid_self label).first?, Option.some.injEq] at isOther
    exact isOther ▸ suits
  refine .bindRead isOpen.stands ?_
  have known := isOpen.stands.holds.has_eq .expr
  generalize old.tree.has branch.id .expr = isInitialized at known
  cases isInitialized with
  | false =>
      have absent : branch.first? .expr = none := by simpa using known.symm
      cases written with
      | some ty => exact .pure isOpen.stands (same absent isOpen)
      | none =>
          refine .bindRead isOpen.stands (.bindWarnAt isOpen ?_)
          intro new opens _ _
          exact .pure opens.stands (same absent opens)
  | true =>
      cases written with
      | some ty =>
          refine (enforce_yields visits isOpen isNew ty).bind ?_
          rintro _ new _ _ ⟨index, kid, newKid, _, ⟨isKid, label, suits, rfl, opens⟩⟩
          exact .pure opens.stands (changed isKid label suits opens)
      | none =>
          refine .bindRequired isOpen.stands ?_
          intro index kid isKid
          refine (child_yields visits isOpen isKid.found (unseen_kid isKid isNew)
            (fun _ _ => unseen_cons) (not_unseen_cons isKid)).mono ?_
          rintro ty new _ _ ⟨newKid, becomes, typed, _, rfl, opens⟩
          exact changed isKid becomes.turns.label ⟨ty, typed, .inl BEq.rfl⟩ opens

/-- A declared name is none of those that have to stay unknown. -/
theorem becomes_declareGlobal {name : String} {ty : Ty} {environment : Environment}
    {globalId : GlobalId} (stands : old.tree.Stands branch)
    (declared : old.environment.declareGlobal name ty = .ok (environment, globalId))
    (loud : ¬ calm.still old.mode) (named : ¬ calm.spares old.place name) :
    Becomes calm old branch { old with environment := environment } branch := by
  refine .ofState stands rfl (.ofEnvironment (.single (.declareGlobal declared)))
    ⟨fun _ => rfl, fun isStill => absurd isStill loud, ?_⟩ (.same rfl rfl)
  intro other spared known
  refine (Environment.hasGlobal_of_declareGlobal declared known).resolve_right ?_
  rintro rfl
  exact named spared

theorem declareGlobal_yields {name : String} (stands : old.tree.Stands branch)
    (loud : ¬ calm.still old.mode) (named : ¬ calm.spares old.place name) (ty : Ty)
    (nameNode : NodeId) :
    (declareGlobal name ty nameNode).Yields calm old branch fun globalId new after =>
      after = branch ∧ new.tree = old.tree ∧ new.scopes = old.scopes ∧ old.Evolves new ∧
        globalId < new.environment.globals.size ∧
        ((new.environment.global globalId).ty == ty) = true := by
  refine .bindRead stands ?_
  split
  · rename_i environment globalId declared
    have becomes := becomes_declareGlobal stands declared loud named
    obtain ⟨bound, same⟩ := Environment.declareGlobal_global declared
    exact .ofRun rfl becomes ⟨rfl, rfl, rfl, becomes.evolves, bound, same⟩
  · exact .failAt stands _ rfl

/-- A declaration with an initial value becomes an assignment that is bound to its global. -/
theorem globalStore_yields (isOpen : Open premise calm first unseen old branch)
    (uncalling : branch.node.tag.isCalling = false) (unnamed : branch.node.tag ≠ .name)
    (silent : ∀ index kid, branch.Kid .type index kid → kid.notes = 0) (globalId : GlobalId) :
    (globalStore branch.id globalId).Yields calm old branch fun _ new after =>
      Open premise calm first (fun _ _ => False) new after ∧ after.node.tag = .assign ∧
        after.node.binding = .field .set (.global globalId) ∧
        new.environment = old.environment ∧
        (branch.kids.countP (·.label == some .expr) ≤ 1 → branch.first? .right = none →
          after.value? = (branch.first? .expr).map (·.under (some .right))) := by
  have arranged := (((Arranged.ofOpen isOpen).removeChild .type fun index kid isFirst found =>
    silent index kid ⟨isFirst, found⟩).relabel .name .left).relabel .expr .right
  let change (node : Node) : Node :=
    { ((node.removeChild .type).relabel .name .left).relabel .expr .right with tag := .assign }
  have stored : Arranged premise first old branch (change branch.node) _ :=
    ⟨arranged.parts, arranged.children⟩
  have alters_eq : (((old.tree.removeChild branch.id .type).relabel branch.id .name .left).relabel
      branch.id .expr .right).setTag branch.id .assign = old.tree.modify branch.id change := by
    simp only [Tree.removeChild, Tree.relabel, Tree.setTag, Tree.modify_modify]
    rfl
  have inside : (change branch.node).Inside :=
    (((isOpen.inside.removeChild .type).relabel .name .left).relabel .expr .right).retag (by simp)
      (by simp) (by simpa using uncalling) (by simpa using unnamed)
  have note : (change branch.node).note = branch.node.note := by
    show Node.note (((branch.node.removeChild .type).relabel .name .left).relabel .expr .right) = _
    simp only [Node.note_relabel, Node.note_removeChild]
  refine .bindArranged isOpen stored alters_eq note inside ?_
  intro new after opens sameId sameNode sameKids environment _
  rw [← sameId]
  refine (modify_yields opens rfl rfl (opens.inside.rebind rfl)).mono ?_
  rintro _ last _ _ ⟨rfl, opensLast, sameEnvironment, _⟩
  refine ⟨opensLast, ?_, rfl, sameEnvironment.trans environment, fun few absent => ?_⟩
  · rw [Branch.node_alter, sameNode]
  · have fewLater : (Branch.relabelled .name .left
        (branch.kids.eraseP (·.label == some .type))).countP (·.label == some .expr) ≤ 1 := by
      rw [Branch.countP_relabelled_other (by decide) (by decide)]
      exact Nat.le_trans List.eraseP_sublist.countP_le few
    have noRight : (Branch.relabelled .name .left
        (branch.kids.eraseP (·.label == some .type))).find? (·.label == some .right) = none := by
      rw [Branch.find?_relabelled_other (by decide) (by decide),
        Branch.find?_eraseP_other (by decide)]
      exact absent
    show (after.first? .expr).or (after.first? .right) = _
    rw [Branch.first?, Branch.first?, sameKids, Branch.find?_relabelled_gone fewLater (by decide),
      Option.none_or, Branch.find?_relabelled_target noRight,
      Branch.find?_relabelled_other (by decide) (by decide), Branch.find?_eraseP_other (by decide)]
    rfl

/-- What a declaration is like that became a store to its global. -/
theorem storedGlobal_yields {globalId : GlobalId} {ty : Ty}
    (isOpen : Open premise calm first unseen old branch) (isVar : branch.node.tag = .varDecl)
    (bound : globalId < old.environment.globals.size)
    (declared : ((old.environment.global globalId).ty == ty) = true)
    (isSome : (branch.first? .expr).isSome = true)
    (suits : ∀ kid, branch.first? .expr = some kid → kid.Suits ty)
    (few : premise.tidy → branch.kids.countP (·.label == some .expr) ≤ 1)
    (clear : premise.tidy → branch.first? .right = none)
    (silent : ∀ index kid, branch.Kid .type index kid → kid.notes = 0) :
    (globalStore branch.id globalId >>= fun _ => pure ty).Yields calm old branch
      (Ruled premise first) := by
  refine (globalStore_yields isOpen (by simp [isVar, Tag.isCalling]) (by simp [isVar]) silent
    globalId).bind ?_
  rintro _ final afterFinal _ ⟨opensFinal, isAssign, isStore, environment, value⟩
  refine .pure opensFinal.stands (opensFinal.close ?_)
  unfold Branch.Facts
  simp only [Branch.typed, Branch.node_alter, isAssign]
  refine ⟨.ofUnbound fun hint member typeArgs isBound => ?_, fun tidy => ⟨fun _ => ?_, ?_, ?_⟩,
    .ofOther fun hint member typeArgs isBound => ?_, fun called => ?_⟩
  · simp [isStore] at isBound
  · obtain ⟨kid, isKid⟩ := Option.isSome_iff_exists.mp isSome
    refine ⟨kid.under (some .right), ty, ?_, rfl, suits kid isKid⟩
    show afterFinal.value? = _
    rw [value (few tidy) (clear tidy), isKid, Option.map_some]
  · intro other isBound
    simp only [Branch.node_alter, isStore, Binding.field.injEq, FieldTarget.global.injEq,
      true_and] at isBound
    subst isBound
    rw [environment]
    exact ⟨bound, ty, rfl, declared⟩
  · intro memberId isBound
    simp [isStore] at isBound
  · simp [isStore] at isBound
  · simp [isStore, Binding.isCall] at called

/-- A variable outside functions and blocks becomes a global. -/
theorem globalVariable_yields {ty : Ty} {name : String} {isInitialized : Bool}
    (isOpen : Open premise calm first unseen old branch) (isVar : branch.node.tag = .varDecl)
    (loud : ¬ calm.still old.mode) (named : ¬ calm.spares old.place name)
    (initialized : isInitialized = (branch.first? .expr).isSome)
    (suits : ∀ kid, branch.first? .expr = some kid → kid.Suits ty)
    (few : premise.tidy → branch.kids.countP (·.label == some .expr) ≤ 1)
    (clear : premise.tidy → branch.first? .right = none)
    (silent : ∀ index kid, branch.Kid .type index kid → kid.notes = 0) (nameNode : NodeId) :
    (globalVariable branch.id nameNode name ty isInitialized).Yields calm old branch
      (Ruled premise first) := by
  refine (declareGlobal_yields isOpen.stands loud named _ _).bind ?_
  rintro globalId last _ _ ⟨rfl, tree, _, evolves, bound, declared⟩
  have opens := isOpen.ofState tree evolves
  split
  · rename_i isTrue
    exact storedGlobal_yields opens isVar bound declared (initialized ▸ isTrue) suits few clear silent
  · refine .bindModify opens rfl rfl (opens.inside.alike rfl rfl) ?_
    intro final opensFinal _ _
    exact .pure opensFinal.stands (opensFinal.closeFree isVar rfl)

theorem varDecl_yields (visits : Visits premise visit)
    (isOpen : Open premise calm first (Unseen []) old branch)
    (isTag : branch.node.tag = .varDecl) (allows : premise.Allows branch.stored)
    (asideName : ∀ index kid, branch.Kid .name index kid → premise.aside kid.node.tag)
    (asideType : ∀ index kid, branch.Kid .type index kid → premise.aside kid.node.tag)
    (loud : ∀ mode, calm.still mode → mode.inside = true)
    (exposed : ∀ place name, calm.spares place name → branch.stored.exposed? place ≠ some name) :
    (varDecl visit branch.id).Yields calm old branch (Ruled premise first) := by
  have isKnown : branch.stored.tag.storeLabels? = some [.name, .type, .expr] := by
    rw [Branch.tag_stored, isTag]
    rfl
  refine .bindRequired isOpen.stands ?_
  intro index nameKid isName
  have raw := isOpen.raw index nameKid isName.found fun _ member => absurd member List.not_mem_nil
  refine .bindRead isOpen.stands ?_
  refine .bindWritten? isOpen (by decide) asideType ?_
  intro written new after alike others silent _ _ opens
  rw [← alike.id]
  refine .bindRead opens.stands ?_
  have initialized := opens.stands.holds.has_eq .expr
  refine (variableType_yields visits opens (by decide) nameKid.id written).bind ?_
  rintro ty later afterLater _ ⟨beside, opensLater, suits⟩
  have isNameLater := beside.others (by decide) (others .name index nameKid (by decide) isName)
  have turns : later.tree.Turns nameKid (later.tree.setType nameKid.id ty) (nameKid.typed ty) :=
    .alter (opensLater.stands.kid isNameLater.mem) rfl rfl
  obtain ⟨becomes, opensTyped⟩ := opensLater.changeKid isNameLater.found turns
    (Branch.notes_alter rfl) (raw.typed (asideName index nameKid isName) ty) (fun _ _ => unseen_cons)
    (not_unseen_cons isNameLater)
  have isVar : afterLater.node.tag = .varDecl := beside.alike.tag.trans (alike.tag.trans isTag)
  refine .bindRun rfl becomes (.bindRead opensTyped.stands ?_)
  split
  · refine .bindState opensTyped rfl (.ofScopes (ScopeStack.declare_evolves _ _ _))
      (.same rfl (ScopeStack.returnType?_declare _ _ _)) rfl ?_
    intro opensLast
    exact .pure opensLast.stands (opensLast.closeFree isVar rfl)
  · rename_i outside
    have isOutside := ScopeStack.inFunction_of_not_hasLocalScope (Bool.not_eq_true _ ▸ outside)
    have isLoud : ¬ calm.still (CheckState.mode _) := fun isStill =>
      absurd (isOutside.symm.trans (loud _ isStill)) (by decide)
    have uncovered : later.place.covered = false := Bool.not_eq_true _ ▸ outside
    have isNamed : ¬ calm.spares later.place (old.tree.text nameKid.id) := by
      refine fun spared => exposed _ _ spared ?_
      rw [(isOpen.stands.kid isName.mem).holds.text_eq]
      simp [StoredNode.exposed?, isTag, uncovered, isName.first?_stored]
    have alikeLast : branch.Alike (afterLater.setKid index (nameKid.typed ty)) :=
      (alike.trans beside.alike).trans (.setKid isNameLater.found rfl)
    have sameLabel : (nameKid.typed ty).label = nameKid.label := rfl
    have sameValue := Branch.first?_setKid_other isNameLater sameLabel
      (show Label.name ≠ .expr by decide)
    rw [initialized, ← beside.alike.id]
    refine globalVariable_yields opensTyped isVar isLoud isNamed ?_ ?_ ?_ ?_ ?_ nameKid.id
    · rw [sameValue, beside.alike.isSome_first?]
    · rw [sameValue]
      exact suits
    · intro tidy
      rw [alikeLast.countP_eq, ← branch.length_under]
      exact (allows.tidy tidy).lone isKnown .expr
    · intro tidy
      have absent : branch.stored.first? .right = none :=
        (allows.tidy tidy).absent isKnown (by decide)
      rw [Branch.first?_stored, Option.map_eq_none_iff] at absent
      rw [← Option.not_isSome_iff_eq_none] at absent ⊢
      rw [alikeLast.isSome_first?]
      exact absent
    · intro place kid isType
      exact silent place kid
        (beside.others_back (by decide) (isType.of_setKid isNameLater sameLabel (by decide)))

end Rule

end ScriptTyping
