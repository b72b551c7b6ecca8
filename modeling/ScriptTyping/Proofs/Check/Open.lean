import ScriptTyping.Proofs.Check.Settled

/-!
A branch whose top node is being checked. Its children are settled, and those that were not seen yet
are still raw. Visiting a child and bringing it to a type keep this up.
-/

namespace ScriptTyping

/-- Whether all but the top node of a branch is settled, and the children that are unseen by
position and role are raw, and as calm as the branch. -/
structure Open (premise : Premise) (calm : Calm) (first : Environment)
    (unseen : Nat → Option Label → Prop) (state : CheckState) (branch : Branch) : Prop where
  stands : state.tree.Stands branch
  later : premise.loaded.nodes.size ≤ state.tree.nodes.size
  leads : first.Leads state.environment
  inside : branch.node.Inside
  raw : ∀ index kid, branch.kids[index]? = some kid →
    unseen index (Branch.roleAt branch.kids index) → Raw premise kid
  quiet : ∀ index kid, branch.kids[index]? = some kid →
    unseen index (Branch.roleAt branch.kids index) → calm.Implies kid.stored.calm
  settled : ∀ kid ∈ branch.kids,
    Settled premise first state.moment state.scopes.returnType? kid

def Unseen (seen : List Label) (_ : Nat) (role : Option Label) : Prop :=
  ∀ wanted ∈ seen, role ≠ some wanted

def Branch.Reported (branch : Branch) (errors : List CheckError) (ty : Ty) : Prop :=
  branch.node.tag = .list → ty = .never ∧ errors ≠ []

def Visits (premise : Premise) (visit : Visit) : Prop :=
  ∀ old before, old.tree.Stands before → premise.loaded.nodes.size ≤ old.tree.nodes.size →
    Raw premise before →
    (visit before.id).Yields before.stored.calm old before fun ty new after =>
      after.node.ty = some ty ∧ after.Reported new.errors ty ∧
        Settled premise old.environment new.moment new.scopes.returnType? after

section Open

variable {premise : Premise} {calm : Calm} {first : Environment}
  {unseen less : Nat → Option Label → Prop}
  {old new : CheckState} {branch kid newKid : Branch} {index : Nat}

theorem Open.start (stands : old.tree.Stands branch)
    (later : premise.loaded.nodes.size ≤ old.tree.nodes.size) (raw : Raw premise branch)
    (opened : branch.node.tag ≠ .funcDecl) (sound : branch.node.tag ≠ .error)
    (quiet : ∀ index kid, branch.kids[index]? = some kid →
      unseen index (Branch.roleAt branch.kids index) → calm.Implies kid.stored.calm) :
    Open premise calm old.environment unseen old branch :=
  ⟨stands, later, .refl, .ofUnbound opened sound raw.blank.binding_eq,
    fun _ _ found _ => raw.kid (List.mem_of_getElem? found), quiet,
    fun _ member => (raw.kid member).settled⟩

theorem Open.silent (isOpen : Open premise calm first unseen old branch)
    (found : branch.kids[index]? = some kid)
    (isUnseen : unseen index (Branch.roleAt branch.kids index)) : kid.notes = 0 :=
  (isOpen.raw index kid found isUnseen).blank.notes_eq

theorem Open.others_silent {seen : List Label} {places : List Nat}
    (isOpen : Open premise calm first (Unseen seen) old branch)
    (kids : List.Forall₂ (fun label index => ∃ kid, branch.Kid label index kid) seen places) :
    ∀ index kid, branch.kids[index]? = some kid → index ∉ places → kid.notes = 0 := by
  intro index kid found other
  refine isOpen.silent found fun label isSeen isRole => other ?_
  obtain ⟨spot, inSeen, rfl⟩ := List.mem_iff_getElem.mp isSeen
  have inPlaces : spot < places.length := kids.length_eq ▸ inSeen
  obtain ⟨_, isKid⟩ := (List.forall₂_iff_get.mp kids).2 spot inSeen inPlaces
  have same : places[spot] = index :=
    Option.some.inj (isKid.first.symm.trans (Branch.roleAt_eq_some_iff.mp isRole))
  exact same ▸ List.getElem_mem inPlaces

theorem Settled.evolve {returnType : Option Ty} {moment : Moment}
    (settled : Settled premise first moment returnType branch) (leads : moment.Leads new.moment)
    (returns : ∀ ty, returnType = some ty → new.scopes.returnType? = some ty) :
    Settled premise first new.moment new.scopes.returnType? branch :=
  settled.mono leads returns

/-- A child is changed or exchanged, and is seen after that. -/
theorem Open.exchange (isOpen : Open premise calm first unseen old branch) (evolves : old.Evolves new)
    (stands : new.tree.Stands (branch.setKid index newKid))
    (size : old.tree.nodes.size ≤ new.tree.nodes.size)
    (found : branch.kids[index]? = some kid) (label : newKid.label = kid.label)
    (settled : Settled premise first new.moment new.scopes.returnType? newKid)
    (fewer : ∀ position role, less position role → unseen position role)
    (seen : ¬ less index (Branch.roleAt branch.kids index)) :
    Open premise calm first less new (branch.setKid index newKid) := by
  have unseenIsOld : ∀ position other, (branch.setKid index newKid).kids[position]? = some other →
      less position (Branch.roleAt (branch.setKid index newKid).kids position) →
        branch.kids[position]? = some other ∧
          unseen position (Branch.roleAt branch.kids position) := by
    intro position other isOther isUnseen
    rw [Branch.kids_setKid, Branch.roleAt_congr (Branch.labels_set found label)] at isUnseen
    rw [Branch.kids_setKid, List.getElem?_set] at isOther
    split at isOther
    · rename_i same
      subst same
      split at isOther
      · exact absurd isUnseen seen
      · simp at isOther
    · exact ⟨isOther, fewer _ _ isUnseen⟩
  refine ⟨stands, Nat.le_trans isOpen.later size, isOpen.leads.trans evolves.environment,
    isOpen.inside.alike rfl rfl, ?_, ?_, ?_⟩
  · intro position other isOther isUnseen
    obtain ⟨isOld, wasUnseen⟩ := unseenIsOld position other isOther isUnseen
    exact isOpen.raw position other isOld wasUnseen
  · intro position other isOther isUnseen
    obtain ⟨isOld, wasUnseen⟩ := unseenIsOld position other isOther isUnseen
    exact isOpen.quiet position other isOld wasUnseen
  · intro other member
    rcases List.mem_or_eq_of_mem_set member with isOld | rfl
    · exact (isOpen.settled other isOld).evolve evolves.moment
        fun ty fixed => evolves.scopes.returnType? fixed
    · exact settled

/-- A step on a seen or unseen child that settles it. -/
theorem Open.step {quiet : Calm} (isOpen : Open premise calm first unseen old branch)
    (found : branch.kids[index]? = some kid) (becomes : Becomes quiet old kid new newKid)
    (settled : Settled premise first new.moment new.scopes.returnType? newKid)
    (fewer : ∀ position role, less position role → unseen position role)
    (seen : ¬ less index (Branch.roleAt branch.kids index)) :
    Open premise calm first less new (branch.setKid index newKid) :=
  isOpen.exchange becomes.evolves (Tree.Turns.inside isOpen.stands found becomes.turns).stands
    becomes.turns.size found becomes.turns.label settled fewer seen

theorem Open.ofState (isOpen : Open premise calm first unseen old branch) (tree : new.tree = old.tree)
    (evolves : old.Evolves new) : Open premise calm first unseen new branch :=
  ⟨by rw [tree]; exact isOpen.stands, by rw [tree]; exact isOpen.later,
    isOpen.leads.trans evolves.environment, isOpen.inside, isOpen.raw, isOpen.quiet,
    fun kid member => (isOpen.settled kid member).evolve evolves.moment
      fun _ fixed => evolves.scopes.returnType? fixed⟩

end Open

namespace Check

variable {premise : Premise} {calm : Calm} {first : Environment}
  {unseen less : Nat → Option Label → Prop}
  {old : CheckState} {branch kid : Branch} {index : Nat} {visit : Visit}

theorem child_yields (visits : Visits premise visit)
    (isOpen : Open premise calm first unseen old branch)
    (found : branch.kids[index]? = some kid) (isUnseen : unseen index (Branch.roleAt branch.kids index))
    (fewer : ∀ position role, less position role → unseen position role)
    (seen : ¬ less index (Branch.roleAt branch.kids index)) :
    (visit kid.id).Yields calm old branch fun ty new after => ∃ newKid,
      Becomes kid.stored.calm old kid new newKid ∧ newKid.node.ty = some ty ∧
        newKid.Reported new.errors ty ∧ after = branch.setKid index newKid ∧
          Open premise calm first less new after := by
  have raw := isOpen.raw index kid found isUnseen
  have stands := isOpen.stands.kid (List.mem_of_getElem? found)
  have visited := (visits old kid stands isOpen.later raw).mono
    fun _ _ _ becomes reached => And.intro becomes reached
  have yields := visited.calmer (isOpen.quiet index kid found isUnseen)
  refine (yields.inside isOpen.stands found).mono ?_
  rintro ty new _ _ ⟨newKid, _, ⟨becomes, typed, reported, settled⟩, rfl⟩
  exact ⟨newKid, becomes, typed, reported, rfl,
    isOpen.step found becomes (settled.earlier isOpen.leads) fewer seen⟩

theorem Yields.bindVisit {β : Type} {next : Ty → Check β} {post : β → CheckState → Branch → Prop}
    (visits : Visits premise visit) (isOpen : Open premise calm first unseen old branch)
    (found : branch.kids[index]? = some kid) (isUnseen : unseen index (Branch.roleAt branch.kids index))
    (fewer : ∀ position role, less position role → unseen position role)
    (seen : ¬ less index (Branch.roleAt branch.kids index))
    (rest : ∀ ty new newKid, Becomes kid.stored.calm old kid new newKid →
      newKid.node.ty = some ty →
      Open premise calm first less new (branch.setKid index newKid) →
      (next ty).Yields calm new (branch.setKid index newKid) post) :
    (visit kid.id >>= next).Yields calm old branch post := by
  refine (child_yields visits isOpen found isUnseen fewer seen).bind ?_
  rintro ty new _ _ ⟨newKid, becomes, typed, _, rfl, opens⟩
  exact rest ty new newKid becomes typed opens

/-! ### Conversions -/

theorem run_occupant {slot : Slot} {node : NodeId}
    (found : old.tree.childAt? slot.parent slot.index = some node) :
    (occupant slot).run.run old = .ok (.ok node, old) := by
  rw [occupant, run_bind]
  have reads : (Check.tree).run.run old = .ok (.ok old.tree, old) := rfl
  simp only [reads, found]
  rfl

theorem run_replace {slot : Slot} {node : NodeId} (newNode : NodeId)
    (found : old.tree.childAt? slot.parent slot.index = some node) :
    (replace slot newNode).run.run old =
      .ok (.ok (), { old with tree := old.tree.replaceAt slot.parent slot.index newNode }) := by
  rw [replace, run_bind, run_occupant found]
  rfl

end Check

end ScriptTyping
