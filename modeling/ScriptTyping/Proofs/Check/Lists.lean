import ScriptTyping.Proofs.Check.Sequences

/-!
Argument lists: the list under a label, visiting its items and converting them for a resolution.
-/

namespace ScriptTyping

namespace Tree

variable {tree : Tree} {branch kid : Branch} {label : Label} {index : Nat}

theorem setChild_eq_replaceAt (holds : tree.Holds branch) (isKid : branch.Kid label index kid)
    (child : NodeId) :
    tree.setChild branch.id label child = tree.replaceAt branch.id index child := by
  refine tree.modify_congr ?_
  simp only [Node.setChild, holds.indexOf?_eq, isKid.first]

theorem setChild_eq_pushChild (holds : tree.Holds branch) (absent : branch.first? label = none)
    (child : NodeId) :
    tree.setChild branch.id label child = tree.pushChild branch.id (some label) child := by
  refine tree.modify_congr ?_
  have none : branch.kids.findIdx? (·.label == some label) = none := by
    rw [List.findIdx?_eq_none_iff]
    intro kid member
    simpa using Branch.first?_eq_none_iff.mp absent kid member
  simp only [Node.setChild, holds.indexOf?_eq, none]

end Tree

namespace Branch

structure IsList (branch : Branch) : Prop where
  tag : branch.node.tag = .list
  binding : branch.node.binding = .unbound
  ty : branch.node.ty = none

def slots (branch : Branch) : List Slot := branch.slotsAt (List.range branch.kids.length)

def Typed (branch : Branch) (types : List Ty) : Prop :=
  List.Forall₂ (fun kid ty => kid.node.ty = some ty) branch.kids types

theorem IsList.inside {branch : Branch} (isList : branch.IsList) : branch.node.Inside :=
  .ofUnbound (by rw [isList.tag]; simp) (by rw [isList.tag]; simp) isList.binding

theorem IsList.notes {branch : Branch} (isList : branch.IsList) :
    branch.notes = notesAll branch.kids :=
  notes_below isList.inside.sound

theorem IsList.alike {before after : Branch} (isList : before.IsList) (alike : before.Alike after) :
    after.IsList := by
  obtain ⟨tag, binding, ty⟩ := isList
  rw [alike.changed]
  exact ⟨tag, binding, ty⟩

theorem argumentCount_stored {branch kid : Branch} {index : Nat}
    (isKid : branch.Kid .param index kid) : branch.stored.argumentCount =
      if kid.node.tag = .list then kid.kids.length else 1 := by
  simp only [StoredNode.argumentCount, isKid.first?_stored, tag_stored, children_stored,
    List.length_map]

theorem Alike.slots_eq {before after : Branch} (alike : before.Alike after) :
    after.slots = before.slots := by
  simp only [slots, slotsAt, alike.length, alike.id]

theorem kid_push {branch kid new : Branch} {label : Label} {index : Nat}
    (isKid : branch.Kid label index kid) :
    (branch.withKids (branch.kids ++ [new])).Kid label index kid := by
  have inRange := (List.getElem?_eq_some_iff.mp isKid.found).1
  refine ⟨?_, ?_⟩
  · rw [kids_withKids, List.findIdx?_append, isKid.first]
    rfl
  · rw [kids_withKids, List.getElem?_append_left inRange]
    exact isKid.found

theorem kid_pushed {branch new : Branch} {label : Label} (absent : branch.first? label = none)
    (labelled : new.label = some label) :
    (branch.withKids (branch.kids ++ [new])).Kid label branch.kids.length new := by
  have none : branch.kids.findIdx? (·.label == some label) = none := by
    rw [List.findIdx?_eq_none_iff]
    intro kid member
    simpa using first?_eq_none_iff.mp absent kid member
  refine ⟨?_, ?_⟩
  · rw [kids_withKids, List.findIdx?_append, none]
    simp [List.findIdx?_cons, labelled]
  · rw [kids_withKids, List.getElem?_append_right (Nat.le_refl _)]
    simp

end Branch

section Lists

variable {premise : Premise} {calm : Calm} {first : Environment} {last : Moment}
  {returnType : Option Ty} {unseen less : Nat → Option Label → Prop} {old new : CheckState}
  {branch kid items : Branch} {index : Nat} {seen : List Label} {label : Label}

theorem Branch.IsList.settled (isList : items.IsList)
    (kids : ∀ kid ∈ items.kids, Settled premise first last returnType kid) :
    Settled premise first last returnType items := by
  refine .idle ⟨isList.binding, ?_, ?_, fun _ => isList.inside.sound, ?_⟩ kids
  · intro _
    rw [isList.tag]
    exact ⟨by simp, by simp⟩
  · intro typed
    rw [isList.ty] at typed
    simp at typed
  · intro isSequence
    simp [isList.tag, Tag.isSequence] at isSequence

theorem Settled.kids (settled : Settled premise first last returnType branch)
    (notFunction : branch.node.tag ≠ .funcDecl) :
    ∀ kid ∈ branch.kids, Settled premise first last returnType kid := by
  cases settled with
  | idle _ kids => exact kids
  | checked _ _ _ _ _ same kids =>
      rw [← same notFunction]
      exact kids

theorem Open.narrow (isOpen : Open premise calm first unseen old branch)
    (fewer : ∀ position role, less position role → unseen position role) :
    Open premise calm first less old branch :=
  ⟨isOpen.stands, isOpen.later, isOpen.leads, isOpen.inside,
    fun index kid found isLess => isOpen.raw index kid found (fewer _ _ isLess),
    fun index kid found isLess => isOpen.quiet index kid found (fewer _ _ isLess),
    isOpen.settled⟩

theorem Open.ofKid (isOpen : Open premise calm first unseen old branch) (member : kid ∈ branch.kids)
    (within : kid.node.Inside) :
    Open premise calm first (fun _ _ => False) old kid :=
  ⟨isOpen.stands.kid member, isOpen.later, isOpen.leads, within, fun _ _ _ none => none.elim,
    fun _ _ _ none => none.elim, (isOpen.settled kid member).kids within.opened⟩

theorem Open.ofRaw (isOpen : Open premise calm first unseen old branch) (member : kid ∈ branch.kids)
    (within : kid.node.Inside) (raw : ∀ inner ∈ kid.kids, Raw premise inner)
    (quiet : ∀ inner ∈ kid.kids, calm.Implies inner.stored.calm) :
    Open premise calm first (fun _ _ => True) old kid :=
  ⟨isOpen.stands.kid member, isOpen.later, isOpen.leads, within,
    fun _ _ found _ => raw _ (List.mem_of_getElem? found),
    fun _ _ found _ => quiet _ (List.mem_of_getElem? found),
    (isOpen.settled kid member).kids within.opened⟩

theorem Open.pushed (isOpen : Open premise calm first unseen old branch) {middle : Tree}
    (adds : old.tree.Adds middle) (standsNew : middle.Stands kid)
    (fresh : ∀ position ∈ kid.ids, old.tree.nodes.size ≤ position)
    (silent : kid.notes = 0)
    (settled : Settled premise first old.moment old.scopes.returnType? kid)
    (seen : ¬ unseen branch.kids.length
      (Branch.roleAt (branch.kids ++ [kid]) branch.kids.length)) :
    let new := { old with tree := middle.pushChild branch.id kid.label kid.id }
    Becomes calm old branch new (branch.withKids (branch.kids ++ [kid])) ∧
      Open premise calm first unseen new (branch.withKids (branch.kids ++ [kid])) := by
  have turns := Tree.Turns.push isOpen.stands adds standsNew fresh
  have isOld : ∀ position inner, (branch.kids ++ [kid])[position]? = some inner →
      unseen position (Branch.roleAt (branch.kids ++ [kid]) position) →
        branch.kids[position]? = some inner ∧
          unseen position (Branch.roleAt branch.kids position) := by
    intro position inner found isUnseen
    rcases Nat.lt_or_ge position branch.kids.length with isOld | isLast
    · rw [Branch.roleAt_append _ isOld] at isUnseen
      rw [List.getElem?_append_left isOld] at found
      exact ⟨found, isUnseen⟩
    · have inRange := (List.getElem?_eq_some_iff.mp found).1
      rw [List.length_append, List.length_singleton] at inRange
      have same : position = branch.kids.length := by omega
      exact absurd (same ▸ isUnseen) seen
  have notes : (branch.withKids (branch.kids ++ [kid])).notes = branch.notes := by
    refine Branch.notes_withKids ?_
    rw [Branch.notesAll_append, Branch.notesAll_singleton, silent, add_zero]
  refine ⟨.ofTree turns notes, turns.stands, Nat.le_trans isOpen.later turns.size, isOpen.leads,
    isOpen.inside.alike rfl rfl, ?_, ?_, ?_⟩
  · intro position inner found isUnseen
    obtain ⟨isHere, wasUnseen⟩ := isOld position inner found isUnseen
    exact isOpen.raw position inner isHere wasUnseen
  · intro position inner found isUnseen
    obtain ⟨isHere, wasUnseen⟩ := isOld position inner found isUnseen
    exact isOpen.quiet position inner isHere wasUnseen
  · intro inner member
    rcases List.mem_append.mp member with isOld | isNew
    · exact isOpen.settled inner isOld
    · rw [List.mem_singleton.mp isNew]
      exact settled

end Lists

namespace Check

variable {β : Type} {premise : Premise} {calm : Calm} {first : Environment} {old : CheckState}
  {branch items : Branch} {index : Nat} {seen : List Label} {label : Label} {visit : Visit}
  {types receiver : List Ty} {candidates : List MemberId} {resolution : Resolution}

structure Listed (premise : Premise) (calm : Calm) (first : Environment) (seen : List Label)
    (old : CheckState) (branch : Branch) (new : CheckState) (after : Branch) (index : Nat) (items : Branch) : Prop where
  isKid : after.Kid .param index items
  isList : items.IsList
  length : items.kids.length = branch.stored.argumentCount
  raw : ∀ kid ∈ items.kids, Raw premise kid
  quiet : ∀ kid ∈ items.kids, calm.Implies kid.stored.calm
  changed : after = branch.withKids after.kids
  others : ∀ label index kid, label ≠ .param → branch.Kid label index kid →
    after.Kid label index kid
  isOpen : Open premise calm first (Unseen (.param :: seen)) new after
  environment : new.environment = old.environment
  scopes : new.scopes = old.scopes

theorem Listed.id {new : CheckState} {after : Branch}
    (listed : Listed premise calm first seen old branch new after index items) :
    after.id = branch.id := by
  rw [listed.changed]
  rfl

theorem Listed.tag {new : CheckState} {after : Branch}
    (listed : Listed premise calm first seen old branch new after index items) :
    after.node.tag = branch.node.tag := by
  rw [listed.changed]
  rfl

section ArgumentList

variable {kid : Branch} (isOpen : Open premise calm first (Unseen seen) old branch)
  (isNew : Label.param ∉ seen)

include isOpen isNew

/-- Arguments that were read as a list stay in it. -/
theorem argumentList_of_list (isKid : branch.Kid .param index kid)
    (isList : kid.node.tag = .list) :
    (argumentList branch.id).Yields calm old branch fun list new after =>
      ∃ index items, list = items.id ∧
        Listed premise calm first seen old branch new after index items := by
  have holds := isOpen.stands.holds
  have child := holds.child?_eq .param
  rw [isKid.first?, Option.map_some] at child
  have raw := isOpen.raw index kid isKid.found (unseen_kid isKid isNew)
  have quiet := isOpen.quiet index kid isKid.found (unseen_kid isKid isNew)
  have run : (argumentList branch.id).run.run old = .ok (.ok kid.id, old) := by
    simp only [argumentList, run_build, Tree.argumentList, child, (holds.kid isKid.mem).tag_eq,
      isList, if_true]
  refine .ofRun run (.refl isOpen.stands) ⟨index, kid, rfl, isKid, ?_, ?_, ?_, ?_, ?_, ?_,
    isOpen.narrow fun _ _ => unseen_cons, rfl, rfl⟩
  · exact ⟨isList, raw.blank.binding_eq, raw.blank.ty_eq⟩
  · rw [Branch.argumentCount_stored isKid, if_pos isList]
  · exact fun _ member => raw.kid member
  · exact fun _ member => quiet.trans
      (Branch.calm_kid (by simp [isList]) (.inl (by simp [isList])) member)
  · exact (Branch.Alike.refl isOpen.stands).changed
  · exact fun _ _ _ _ isOther => isOther

/-- A single argument gets a list of its own. -/
theorem argumentList_of_single (isKid : branch.Kid .param index kid)
    (single : kid.node.tag ≠ .list) :
    (argumentList branch.id).Yields calm old branch fun list new after =>
      ∃ index items, list = items.id ∧
        Listed premise calm first seen old branch new after index items := by
  have holds := isOpen.stands.holds
  have child := holds.child?_eq .param
  rw [isKid.first?, Option.map_some] at child
  have raw := isOpen.raw index kid isKid.found (unseen_kid isKid isNew)
  have quiet := isOpen.quiet index kid isKid.found (unseen_kid isKid isNew)
  let node : Node := {
    tag := .list, children := [⟨none, kid.id⟩], span := old.tree.coverOf [⟨none, kid.id⟩] }
  let list := kid.wrapped (old.tree.alloc node).1 node none
  have isList : list.IsList := ⟨rfl, rfl, rfl⟩
  have settled : Settled premise first old.moment old.scopes.returnType? list := by
    refine isList.settled ?_
    intro inner member
    rw [List.mem_singleton.mp member]
    exact (raw.under none).settled
  obtain ⟨_, becomes, opens⟩ := (isOpen.narrow fun _ _ => unseen_cons).wrapped isKid.found
    (not_unseen_cons isKid) rfl isList.inside.sound settled
  have placed := holds.adds (old.tree.alloc_adds node)
  have run : (argumentList branch.id).run.run old =
      .ok (.ok list.id, { old with
        tree := (old.tree.alloc node).2.replaceAt branch.id index list.id }) := by
    simp only [argumentList, run_build, Tree.argumentList, child, (holds.kid isKid.mem).tag_eq,
      single, if_false, Tree.sequence, Tree.branch, List.map_singleton]
    rw [Tree.setChild_eq_replaceAt placed isKid]
    rfl
  refine .ofRun run becomes ⟨index, list, rfl, isKid.setKid_self rfl, isList, ?_, ?_, ?_, rfl, ?_,
    opens, rfl, rfl⟩
  · rw [Branch.argumentCount_stored isKid, if_neg single]
    rfl
  · intro inner member
    rw [List.mem_singleton.mp member]
    exact raw.under none
  · intro inner member
    rw [List.mem_singleton.mp member, Branch.calm_under]
    exact quiet
  · intro other position inner different isOther
    exact isOther.setKid_other isKid.found rfl (isKid.ne isOther different.symm)

omit isNew in
/-- Where no arguments were written an empty list is added. -/
theorem argumentList_of_none (absent : branch.first? .param = none) :
    (argumentList branch.id).Yields calm old branch fun list new after =>
      ∃ index items, list = items.id ∧
        Listed premise calm first seen old branch new after index items := by
  have holds := isOpen.stands.holds
  have child := holds.child?_eq .param
  rw [absent, Option.map_none] at child
  let node : Node := { tag := .list, children := [], span := old.tree.coverOf [] }
  let list : Branch := .mk (some .param) (old.tree.alloc node).1 node []
  have isList : list.IsList := ⟨rfl, rfl, rfl⟩
  have settled : Settled premise first old.moment old.scopes.returnType? list :=
    isList.settled fun inner member => by simp [list] at member
  have fresh : ∀ position ∈ list.ids, old.tree.nodes.size ≤ position := by
    intro position inside
    rw [Branch.ids_eq] at inside
    simp only [list, Branch.id_mk, Branch.kids_mk, List.flatMap_nil, List.mem_singleton] at inside
    exact Nat.le_of_eq inside.symm
  obtain ⟨becomes, opens⟩ := (isOpen.narrow fun _ _ => unseen_cons).pushed
    (old.tree.alloc_adds node) (old.tree.stands_alloc rfl _) fresh isList.notes settled
    (fun isUnseen => isUnseen .param List.mem_cons_self (Branch.kid_pushed absent rfl).role)
  have placed := holds.adds (old.tree.alloc_adds node)
  have run : (argumentList branch.id).run.run old =
      .ok (.ok list.id, { old with
        tree := (old.tree.alloc node).2.pushChild branch.id list.label list.id }) := by
    simp only [argumentList, run_build, Tree.argumentList, child, Tree.sequence, Tree.branch,
      List.map_nil]
    rw [Tree.setChild_eq_pushChild placed absent]
    rfl
  refine .ofRun run becomes ⟨branch.kids.length, list, rfl, Branch.kid_pushed absent rfl, isList, ?_,
    ?_, ?_, rfl, ?_, opens, rfl, rfl⟩
  · simp only [StoredNode.argumentCount, Branch.first?_stored, absent, Option.map_none]
    rfl
  · intro inner member
    simp [list] at member
  · intro inner member
    simp [list] at member
  · exact fun _ _ _ _ isOther => Branch.kid_push isOther

theorem argumentList_yields :
    (argumentList branch.id).Yields calm old branch fun list new after =>
      ∃ index items, list = items.id ∧
        Listed premise calm first seen old branch new after index items := by
  cases found : branch.first? .param with
  | none => exact argumentList_of_none isOpen found
  | some kid =>
      obtain ⟨index, isKid⟩ := Branch.first?_eq_some_iff.mp found
      by_cases isList : kid.node.tag = .list
      · exact argumentList_of_list isOpen isNew isKid isList
      · exact argumentList_of_single isOpen isNew isKid isList

end ArgumentList

/-! ### Items -/

theorem slots_eq {tree : Tree} (holds : tree.Holds branch) :
    tree.slots branch.id = branch.slots := by
  simp only [Tree.slots, holds.length_eq, Branch.slots, Branch.slotsAt]

structure OnList (premise : Premise) (calm : Calm) (first : Environment) (seen : List Label)
    (old : CheckState) (branch : Branch) (index : Nat) (items : Branch) (new : CheckState)
    (after newItems : Branch) : Prop where
  becomes : Becomes calm old items new newItems
  alike : items.Alike newItems
  changed : after = branch.setKid index newItems
  isOpen : Open premise calm first (Unseen seen) new after

theorem OnList.isKid {new : CheckState} {after newItems : Branch}
    (isKid : branch.Kid label index items)
    (onList : OnList premise calm first seen old branch index items new after newItems) :
    after.Kid label index newItems := by
  rw [onList.changed]
  exact isKid.setKid_self onList.becomes.turns.label

theorem Yields.onList {α : Type} {step : Check α} {goal : α → CheckState → Branch → Prop}
    (isOpen : Open premise calm first (Unseen seen) old branch)
    (isKid : branch.Kid label index items) (isSeen : label ∈ seen) (isList : items.IsList)
    (yields : step.Yields calm old items fun result new after => items.Alike after ∧
      Open premise calm first (fun _ _ => False) new after ∧ goal result new after) :
    step.Yields calm old branch fun result new after => ∃ newItems,
      OnList premise calm first seen old branch index items new after newItems ∧
        goal result new newItems := by
  refine (yields.inside isOpen.stands isKid.found).mono ?_
  rintro result new _ _ ⟨newItems, becomes, ⟨alike, opens, reached⟩, rfl⟩
  have settled := (isList.alike alike).settled opens.settled
  exact ⟨newItems, ⟨becomes, alike, rfl, isOpen.step isKid.found becomes settled
    (fun _ _ known => known) fun isUnseen => isUnseen label isSeen isKid.role⟩, reached⟩

theorem visitList_yields (visits : Visits premise visit)
    (isOpen : Open premise calm first (Unseen seen) old branch)
    (isKid : branch.Kid label index items) (isSeen : label ∈ seen) (isList : items.IsList)
    (raw : ∀ kid ∈ items.kids, Raw premise kid)
    (quiet : ∀ kid ∈ items.kids, calm.Implies kid.stored.calm) :
    (visitAll visit items.slots).Yields calm old branch fun types new after => ∃ newItems,
      OnList premise calm first seen old branch index items new after newItems ∧
        newItems.Typed types := by
  refine .onList isOpen isKid isSeen isList ?_
  refine (visitAll_yields visits (isOpen.ofRaw isKid.mem isList.inside raw quiet) List.nodup_range ?_
    (fun _ _ (none : False) => none.elim)).mono ?_
  · intro position member
    have inRange := List.mem_range.mp member
    exact ⟨items.kids[position], List.getElem?_eq_getElem inRange, trivial⟩
  · intro types new after _ visited
    refine ⟨visited.alike, visited.isOpen, ?_⟩
    have length := visited.typed.length_eq
    rw [List.length_range, ← visited.alike.length] at length
    refine List.forall₂_iff_get.mpr ⟨length, ?_⟩
    intro position inKids inTypes
    obtain ⟨kid, found, typed⟩ := (List.forall₂_iff_get.mp visited.typed).2 position
      (by rw [List.length_range, ← visited.alike.length]; exact inKids) inTypes
    simp only [List.get_eq_getElem, List.getElem_range] at found typed ⊢
    rw [List.getElem?_eq_getElem inKids, Option.some.injEq] at found
    rw [found]
    exact typed

theorem suitsAt_range (typed : items.Typed types) :
    List.Forall₂ items.SuitsAt (List.range items.kids.length) types := by
  have length := typed.length_eq
  refine List.forall₂_iff_get.mpr ⟨by rw [List.length_range]; exact length, ?_⟩
  intro position inRange inTypes
  rw [List.length_range] at inRange
  have isTyped := (List.forall₂_iff_get.mp typed).2 position inRange inTypes
  simp only [List.get_eq_getElem, List.getElem_range] at isTyped ⊢
  exact ⟨_, List.getElem?_eq_getElem inRange, _, isTyped, .inl BEq.rfl⟩

theorem convertList_yields (isOpen : Open premise calm first (Unseen seen) old branch)
    (isKid : branch.Kid label index items) (isSeen : label ∈ seen) (isList : items.IsList)
    (typed : items.Typed types)
    (found : (old.environment.resolve receiver candidates types).found = some resolution)
    (registered : ∀ id ∈ candidates, id < old.environment.registry.members.size) :
    (convertArguments items.slots resolution resolution.coercions).Yields calm old branch
      fun _ new after => ∃ newItems,
        OnList premise calm first seen old branch index items new after newItems ∧
          new.environment = old.environment ∧
          Resolved new.environment newItems.kids resolution receiver types candidates := by
  refine .onList isOpen isKid isSeen isList ?_
  refine (convertArguments_yields (isOpen.ofKid isKid.mem isList.inside) List.nodup_range
    (suitsAt_range typed) (fun _ _ none => none.elim) found).mono ?_
  intro _ new after _ fitting
  have isArgument : List.Forall₂ (fun index arg => after.kids[index]? = some arg)
      (List.range items.kids.length) after.kids := by
    refine List.forall₂_iff_get.mpr ⟨by rw [List.length_range, fitting.alike.length], ?_⟩
    intro place _ inKids
    simp [inKids]
  refine ⟨fitting.alike, fitting.isOpen, fitting.environment, ?_⟩
  refine fitting.resolved found registered ?_ isArgument
  rw [List.length_range, typed.length_eq]

theorem coerceItems_yields {required : List Ty}
    (isOpen : Open premise calm first (Unseen seen) old branch)
    (isKid : branch.Kid label index items) (isSeen : label ∈ seen) (isList : items.IsList)
    (typed : items.Typed types) (length : required.length = items.kids.length) :
    (coerceEach (items.slots.zip required)).Yields calm old branch fun _ new after => ∃ newItems,
      OnList premise calm first seen old branch index items new after newItems ∧
        new.environment = old.environment ∧
        List.Forall₂ Branch.Suits newItems.kids required := by
  refine .onList isOpen isKid isSeen isList ?_
  let pairs := (List.range items.kids.length).zip required
  have steps : items.slots.zip required = pairs.map fun pair => (⟨items.id, pair.1⟩, pair.2) :=
    List.zip_map_left
  have positions : pairs.map Prod.fst = List.range items.kids.length := by
    refine List.map_fst_zip (Nat.le_of_eq ?_)
    rw [List.length_range, length]
  rw [steps]
  refine (coerceEach_yields (isOpen.ofKid isKid.mem isList.inside)
    (by rw [positions]; exact List.nodup_range) ?_).mono ?_
  · intro pair member
    have inRange := List.mem_range.mp (positions ▸ List.mem_map_of_mem member)
    have inTypes : pair.1 < types.length := by
      rw [← typed.length_eq]
      exact inRange
    have isTyped := (List.forall₂_iff_get.mp typed).2 pair.1 inRange inTypes
    exact ⟨_, _, List.getElem?_eq_getElem inRange, isTyped, fun none => none.elim⟩
  · intro _ new after _ converted
    refine ⟨converted.alike, converted.isOpen, converted.environment, ?_⟩
    refine List.forall₂_iff_get.mpr ⟨by rw [converted.alike.length, length], ?_⟩
    intro position inKids inRequired
    have inItems : position < (List.range items.kids.length).length := by
      rw [List.length_range, ← converted.alike.length]
      exact inKids
    have member : (position, required[position]) ∈ pairs := by
      have inPairs : position < pairs.length := by
        rw [List.length_zip]
        omega
      have same : pairs[position] = (position, required[position]) := by
        simp [pairs]
      exact same ▸ List.getElem_mem inPairs
    obtain ⟨kid, found, suits⟩ := converted.suits _ member
    rw [List.getElem?_eq_getElem inKids, Option.some.injEq] at found
    simp only [List.get_eq_getElem, found]
    exact suits

theorem coerceList_yields (ty : Ty) (isOpen : Open premise calm first (Unseen seen) old branch)
    (isKid : branch.Kid label index items) (isSeen : label ∈ seen) (isList : items.IsList)
    (typed : items.Typed types) :
    (coerceAll ty items.slots).Yields calm old branch fun _ new after => ∃ newItems,
      OnList premise calm first seen old branch index items new after newItems ∧
        new.environment = old.environment ∧
        List.Forall₂ Branch.Suits newItems.kids (List.replicate items.slots.length ty) := by
  have steps : coerceAll ty items.slots =
      coerceEach (items.slots.zip (List.replicate items.slots.length ty)) := by
    rw [coerceAll_eq, List.map_prod_left_eq_zip, List.map_const']
  rw [steps]
  refine coerceItems_yields isOpen isKid isSeen isList typed ?_
  simp [Branch.slots, Branch.slotsAt]

end Check

end ScriptTyping
