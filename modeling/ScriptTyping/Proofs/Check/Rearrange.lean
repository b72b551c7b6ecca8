import Mathlib.Data.List.Flatten
import ScriptTyping.Proofs.Check.Lists

/-!
Rules that give the top node other children: parts of the old ones under other labels, new nodes
around parts, and lists spliced in.
-/

namespace ScriptTyping

/-- Branches that can stand together below the top node of a branch: each is settled, they share no
node, and they have all notes of the children. -/
structure Parts (premise : Premise) (first : Environment) (base : CheckState) (middle : Tree)
    (branch : Branch) (kids : List Branch) : Prop where
  adds : base.tree.Adds middle
  holds : ∀ kid ∈ kids, middle.Holds kid
  nodup : (kids.flatMap Branch.ids).Nodup
  known : ∀ position ∈ kids.flatMap Branch.ids,
    position ∈ branch.kids.flatMap Branch.ids ∨ base.tree.nodes.size ≤ position
  settled : ∀ kid ∈ kids, Settled premise first base.moment base.scopes.returnType? kid
  notes : Branch.notesAll kids = Branch.notesAll branch.kids

namespace Branch

def opened (branch : Branch) : List Branch :=
  if branch.node.tag = .list then branch.kids else [branch]

theorem opened_of_list {branch : Branch} (isList : branch.node.tag = .list) :
    branch.opened = branch.kids :=
  if_pos isList

theorem opened_of_other {branch : Branch} (other : branch.node.tag ≠ .list) :
    branch.opened = [branch] :=
  if_neg other

/-- What a visit gave another type than `never` is no list. -/
theorem Reported.unlisted {branch : Branch} {errors : List CheckError} {ty : Ty}
    (reported : branch.Reported errors ty) (other : ty ≠ .never) : branch.node.tag ≠ .list :=
  fun isList => other (reported isList).1

theorem ids_opened (branch : Branch) :
    (branch.opened.flatMap ids).Sublist branch.ids := by
  unfold opened
  split
  · rw [branch.ids_eq]
    exact List.sublist_cons_self _ _
  · rw [List.flatMap_singleton]

theorem ids_flatMap_opened (kids : List Branch) :
    ((kids.flatMap opened).flatMap ids).Sublist (kids.flatMap ids) := by
  rw [List.flatMap_assoc]
  exact List.Sublist.flatMap_right kids fun kid _ => kid.ids_opened

theorem notes_opened (branch : Branch) : notesAll branch.opened = branch.notes := by
  unfold opened
  split
  · rename_i isList
    exact (branch.notes_below (by simp [isList])).symm
  · exact notesAll_singleton branch

theorem notes_flatMap_opened (kids : List Branch) :
    notesAll (kids.flatMap opened) = notesAll kids := by
  induction kids with
  | nil => rfl
  | cons kid rest ih => rw [List.flatMap_cons, notesAll_append, notes_opened, ih, notesAll]

end Branch

section Parts

variable {premise : Premise} {calm : Calm} {first : Environment}
  {unseen less : Nat → Option Label → Prop} {old : CheckState} {middle later : Tree}
  {branch new : Branch} {kids others : List Branch}

theorem Parts.ofOpen (isOpen : Open premise calm first unseen old branch) :
    Parts premise first old old.tree branch branch.kids := by
  have nodup := isOpen.stands.nodup
  rw [branch.ids_eq, List.nodup_cons] at nodup
  exact ⟨.refl _, fun _ member => isOpen.stands.holds.kid member, nodup.2,
    fun _ inside => .inl inside, isOpen.settled, rfl⟩

theorem Parts.sublist (parts : Parts premise first old middle branch kids)
    (fewer : others.Sublist kids) (notes : Branch.notesAll others = Branch.notesAll kids) :
    Parts premise first old middle branch others := by
  have ids : (others.flatMap Branch.ids).Sublist (kids.flatMap Branch.ids) := fewer.flatMap _
  exact ⟨parts.adds, fun kid member => parts.holds kid (fewer.mem member), parts.nodup.sublist ids,
    fun position inside => parts.known position (ids.mem inside),
    fun kid member => parts.settled kid (fewer.mem member), notes.trans parts.notes⟩

/-- Children at several places, in any order, if the others have no notes. -/
theorem Parts.pick (parts : Parts premise first old middle branch kids) (indices : List Nat)
    (nodup : indices.Nodup) (found : List.Forall₂ (fun index kid => kids[index]? = some kid)
      indices others)
    (silent : ∀ index kid, kids[index]? = some kid → index ∉ indices → kid.notes = 0) :
    Parts premise first old middle branch others := by
  have isAt : ∀ place (inRange : place < others.length), ∃ inIndices : place < indices.length,
      kids[indices[place]]? = some others[place] := by
    intro place inRange
    have inIndices : place < indices.length := by
      rw [found.length_eq]
      exact inRange
    exact ⟨inIndices, (List.forall₂_iff_get.mp found).2 place inIndices inRange⟩
  have isPart : ∀ kid ∈ others, kid ∈ kids := by
    intro kid member
    obtain ⟨place, inRange, rfl⟩ := List.mem_iff_getElem.mp member
    exact List.mem_of_getElem? (isAt place inRange).2
  have apart := List.nodup_flatMap.mp parts.nodup
  refine ⟨parts.adds, fun kid member => parts.holds kid (isPart kid member), ?_, ?_,
    fun kid member => parts.settled kid (isPart kid member),
    (Branch.notesAll_pick nodup found silent).trans parts.notes⟩
  · refine List.nodup_flatMap.mpr ⟨fun kid member => apart.1 kid (isPart kid member), ?_⟩
    refine List.pairwise_iff_getElem.mpr ?_
    intro one other inOne inOther before
    obtain ⟨inIndicesOne, isOne⟩ := isAt one inOne
    obtain ⟨inIndicesOther, isOther⟩ := isAt other inOther
    have different : indices[one] ≠ indices[other] := fun same =>
      absurd ((nodup.getElem_inj_iff).mp same) (Nat.ne_of_lt before)
    obtain ⟨boundOne, sameOne⟩ := List.getElem?_eq_some_iff.mp isOne
    obtain ⟨boundOther, sameOther⟩ := List.getElem?_eq_some_iff.mp isOther
    simp only [← sameOne, ← sameOther, Function.onFun]
    rcases Nat.lt_or_gt_of_ne different with smaller | greater
    · exact List.pairwise_iff_getElem.mp apart.2 _ _ boundOne boundOther smaller
    · intro position inside insideOther
      exact List.pairwise_iff_getElem.mp apart.2 _ _ boundOther boundOne greater insideOther inside
  · intro position inside
    obtain ⟨kid, member, insideKid⟩ := List.mem_flatMap.mp inside
    exact parts.known position (List.mem_flatMap.mpr ⟨kid, isPart kid member, insideKid⟩)

theorem Parts.under (parts : Parts premise first old middle branch kids)
    (same : List.Forall₂ (fun kid other => ∃ label, other = Branch.under kid label) kids others) :
    Parts premise first old middle branch others := by
  have ids : others.flatMap Branch.ids = kids.flatMap Branch.ids := by
    clear parts
    induction same with
    | nil => rfl
    | cons isSame _ ih =>
        obtain ⟨label, rfl⟩ := isSame
        rw [List.flatMap_cons, List.flatMap_cons, ih, Branch.ids_under]
  have notes : Branch.notesAll others = Branch.notesAll kids := by
    clear parts ids
    induction same with
    | nil => rfl
    | cons isSame _ ih =>
        obtain ⟨label, rfl⟩ := isSame
        rw [Branch.notesAll, Branch.notesAll, ih, Branch.notes_under]
  have isPart : ∀ other ∈ others, ∃ kid ∈ kids, ∃ label, other = Branch.under kid label := by
    intro other member
    obtain ⟨place, inRange, rfl⟩ := List.mem_iff_getElem.mp member
    have inKids : place < kids.length := by
      rw [same.length_eq]
      exact inRange
    exact ⟨kids[place], List.getElem_mem inKids,
      (List.forall₂_iff_get.mp same).2 place inKids inRange⟩
  refine ⟨parts.adds, ?_, ids ▸ parts.nodup, ids ▸ parts.known, ?_, notes.trans parts.notes⟩
  · intro other member
    obtain ⟨kid, isKid, label, rfl⟩ := isPart other member
    exact (parts.holds kid isKid).under label
  · intro other member
    obtain ⟨kid, isKid, label, rfl⟩ := isPart other member
    exact (parts.settled kid isKid).under label

theorem Parts.opened (parts : Parts premise first old middle branch kids) :
    Parts premise first old middle branch (kids.flatMap Branch.opened) := by
  have ids := Branch.ids_flatMap_opened kids
  refine ⟨parts.adds, ?_, parts.nodup.sublist ids,
    fun position inside => parts.known position (ids.mem inside), ?_,
    (Branch.notes_flatMap_opened kids).trans parts.notes⟩
  · intro kid member
    obtain ⟨part, isPart, inside⟩ := List.mem_flatMap.mp member
    unfold Branch.opened at inside
    split at inside
    · exact (parts.holds part isPart).kid inside
    · rw [List.mem_singleton.mp inside]
      exact parts.holds part isPart
  · intro kid member
    obtain ⟨part, isPart, inside⟩ := List.mem_flatMap.mp member
    unfold Branch.opened at inside
    split at inside
    · rename_i isList
      exact (parts.settled part isPart).kids (by simp [isList]) kid inside
    · rw [List.mem_singleton.mp inside]
      exact parts.settled part isPart

/-- The children of a part that have all its notes come into its place. -/
theorem Parts.spill {kid : Branch} {inner back : List Branch} (kids : List Branch)
    (parts : Parts premise first old middle branch (kids ++ kid :: back))
    (fewer : inner.Sublist kid.kids) (notFunction : kid.node.tag ≠ .funcDecl)
    (notes : Branch.notesAll inner = kid.notes) :
    Parts premise first old middle branch (kids ++ inner ++ back) := by
  have isPart : kid ∈ kids ++ kid :: back := List.mem_append_right _ List.mem_cons_self
  have ids : ((kids ++ inner ++ back).flatMap Branch.ids).Sublist
      ((kids ++ kid :: back).flatMap Branch.ids) := by
    have below : (inner.flatMap Branch.ids).Sublist kid.ids := by
      rw [kid.ids_eq]
      exact (fewer.flatMap _).cons _
    rw [List.append_assoc, List.flatMap_append, List.flatMap_append, List.flatMap_append,
      List.flatMap_cons]
    exact (List.Sublist.refl _).append (below.append (.refl _))
  have member : ∀ other ∈ kids ++ inner ++ back, other ∈ kids ++ kid :: back ∨ other ∈ kid.kids := by
    intro other isOther
    rw [List.append_assoc, List.mem_append, List.mem_append] at isOther
    rcases isOther with isFront | isInner | isBack
    · exact .inl (List.mem_append_left _ isFront)
    · exact .inr (fewer.mem isInner)
    · exact .inl (List.mem_append_right _ (List.mem_cons_of_mem _ isBack))
  have same : Branch.notesAll (kids ++ inner ++ back) = Branch.notesAll (kids ++ kid :: back) := by
    rw [Branch.notesAll_append, Branch.notesAll_append, Branch.notesAll_append, Branch.notesAll,
      notes, add_assoc]
  refine ⟨parts.adds, ?_, parts.nodup.sublist ids,
    fun position inside => parts.known position (ids.mem inside), ?_, same.trans parts.notes⟩
  · intro other isOther
    rcases member other isOther with isOld | isInner
    · exact parts.holds other isOld
    · exact (parts.holds kid isPart).kid isInner
  · intro other isOther
    rcases member other isOther with isOld | isInner
    · exact parts.settled other isOld
    · exact (parts.settled kid isPart).kids notFunction other isInner

theorem Parts.push (parts : Parts premise first old middle branch kids) (adds : middle.Adds later)
    (stands : later.Stands new) (fresh : ∀ position ∈ new.ids, middle.nodes.size ≤ position)
    (settled : Settled premise first old.moment old.scopes.returnType? new)
    (silent : new.notes = 0) : Parts premise first old later branch (kids ++ [new]) := by
  have same : Branch.notesAll (kids ++ [new]) = Branch.notesAll kids := by
    rw [Branch.notesAll_append, Branch.notesAll_singleton, silent, add_zero]
  refine ⟨parts.adds.trans adds, ?_, ?_, ?_, ?_, same.trans parts.notes⟩
  · intro kid member
    rcases List.mem_append.mp member with isOld | isNew
    · exact (parts.holds kid isOld).adds adds
    · rw [List.mem_singleton.mp isNew]
      exact stands.holds
  · rw [List.flatMap_append, List.flatMap_singleton]
    refine List.Nodup.append parts.nodup stands.nodup ?_
    intro position inside insideNew
    obtain ⟨kid, member, insideKid⟩ := List.mem_flatMap.mp inside
    exact Nat.not_lt.mpr (fresh position insideNew) ((parts.holds kid member).ids_bound insideKid)
  · intro position inside
    rw [List.flatMap_append, List.flatMap_singleton, List.mem_append] at inside
    rcases inside with isOld | isNew
    · exact parts.known position isOld
    · exact .inr (Nat.le_trans parts.adds.size (fresh position isNew))
  · intro kid member
    rcases List.mem_append.mp member with isOld | isNew
    · exact parts.settled kid isOld
    · rw [List.mem_singleton.mp isNew]
      exact settled

/-- The last parts are put below a new node. -/
theorem Parts.group {inner : List Branch} {node : Node} (kids : List Branch)
    (label : Option Label) (parts : Parts premise first old middle branch (kids ++ inner))
    (children : node.children = inner.map Branch.child) (sound : node.tag ≠ .error)
    (settled : Settled premise first old.moment old.scopes.returnType?
      (.mk label (middle.alloc node).1 node inner)) :
    Parts premise first old (middle.alloc node).2 branch
      (kids ++ [Branch.mk label (middle.alloc node).1 node inner]) := by
  have adds := middle.alloc_adds node
  have fresh : middle.nodes.size ∉ (kids ++ inner).flatMap Branch.ids := by
    intro inside
    obtain ⟨kid, member, insideKid⟩ := List.mem_flatMap.mp inside
    exact Nat.lt_irrefl _ ((parts.holds kid member).ids_bound insideKid)
  have ids : ((kids ++ [Branch.mk label (middle.alloc node).1 node inner]).flatMap Branch.ids).Perm
      (middle.nodes.size :: (kids ++ inner).flatMap Branch.ids) := by
    rw [List.flatMap_append, List.flatMap_append, List.flatMap_singleton, Branch.ids_eq]
    exact List.perm_middle
  have same : Branch.notesAll (kids ++ [Branch.mk label (middle.alloc node).1 node inner]) =
      Branch.notesAll (kids ++ inner) := by
    rw [Branch.notesAll_append, Branch.notesAll_append, Branch.notesAll_singleton,
      Branch.notes_below (by exact sound), Branch.kids_mk]
  refine ⟨parts.adds.trans adds, ?_, ?_, ?_, ?_, same.trans parts.notes⟩
  · intro kid member
    rcases List.mem_append.mp member with isOld | isNew
    · exact (parts.holds kid (List.mem_append_left _ isOld)).adds adds
    · rw [List.mem_singleton.mp isNew]
      refine Tree.Holds.mk ?_ (middle.get_alloc_new node) children ?_
      · rw [Branch.id_mk, Tree.size_alloc]
        exact Nat.lt_succ_self middle.nodes.size
      · intro below isBelow
        exact (parts.holds below (List.mem_append_right _ isBelow)).adds adds
  · exact ids.nodup_iff.mpr (List.nodup_cons.mpr ⟨fresh, parts.nodup⟩)
  · intro position inside
    rcases List.mem_cons.mp (ids.mem_iff.mp inside) with isNew | isOld
    · rw [isNew]
      exact .inr parts.adds.size
    · exact parts.known position isOld
  · intro kid member
    rcases List.mem_append.mp member with isOld | isNew
    · exact parts.settled kid (List.mem_append_left _ isOld)
    · rw [List.mem_singleton.mp isNew]
      exact settled

theorem Open.rearranged (isOpen : Open premise calm first unseen old branch)
    (parts : Parts premise first old middle branch kids) (change : Node → Node)
    (children : (change branch.node).children = kids.map Branch.child)
    (note : (change branch.node).note = branch.node.note)
    (inside : (change branch.node).Inside) (less : Nat → Option Label → Prop)
    (raw : ∀ index kid, kids[index]? = some kid → less index (Branch.roleAt kids index) →
      Raw premise kid ∧ calm.Implies kid.stored.calm) :
    let new := { old with tree := middle.modify branch.id change }
    let after := Branch.mk branch.label branch.id (change branch.node) kids
    Becomes calm old branch new after ∧ Open premise calm first less new after := by
  have apart := List.nodup_flatMap.mp parts.nodup
  have turns : old.tree.Turns branch (middle.modify branch.id change)
      (.mk branch.label branch.id (change branch.node) kids) := by
    refine .rearrange isOpen.stands parts.adds children note ?_ apart.2 ?_
    · exact fun kid member => ⟨parts.holds kid member, apart.1 kid member⟩
    · intro kid member position inside
      exact parts.known position (List.mem_flatMap.mpr ⟨kid, member, inside⟩)
  have notes : (Branch.mk branch.label branch.id (change branch.node) kids).notes =
      branch.notes := by
    rw [Branch.notes_below (by exact inside.sound), Branch.notes_below isOpen.inside.sound]
    exact parts.notes
  refine ⟨.ofTree turns notes, turns.stands, Nat.le_trans isOpen.later turns.size, isOpen.leads,
    inside, ?_, ?_, parts.settled⟩
  · exact fun index kid found isUnseen => (raw index kid found isUnseen).1
  · exact fun index kid found isUnseen => (raw index kid found isUnseen).2

end Parts

/-! ### Flattening -/

theorem Tree.splice_eq {tree : Tree} {kids : List Branch} (holds : ∀ kid ∈ kids, tree.Holds kid) :
    tree.splice (kids.map Branch.id) = (kids.flatMap Branch.opened).map Branch.id := by
  rw [splice, List.flatMap_map, List.map_flatMap]
  refine List.flatMap_congr fun kid member => ?_
  rw [(holds kid member).tag_eq, (holds kid member).childIds_eq]
  unfold Branch.opened
  split
  · rfl
  · rfl

def Branch.flattened (branch : Branch) (kids : List Branch) : Branch :=
  branch.withKids ((kids.flatMap opened).map (·.under none))

@[simp]
theorem Branch.tag_flattened (branch : Branch) (kids : List Branch) :
    (branch.flattened kids).node.tag = branch.node.tag :=
  rfl

/-- A flattened branch supplies a member with what its opened parts suit. -/
theorem Branch.Supplies.ofFlattened {after : Branch} {parts kids : List Branch}
    {params : List Ty} {result : Ty}
    (isFlat : after.kids = (parts.flatMap opened).map (·.under none))
    (opens : parts.flatMap opened = kids) (suits : List.Forall₂ Suits kids params)
    (typed : after.node.ty = some result) (names : params.head? = some .dynamic → Names kids) :
    after.Supplies params result := by
  have kids_eq : after.kids = kids.map (·.under none) := by
    rw [isFlat, opens]
  refine ⟨?_, typed, fun isDynamic => ?_⟩
  · rw [kids_eq, List.forall₂_map_left_iff]
    exact suits
  · obtain ⟨receiver, name, arguments, rfl, isNamed⟩ := names isDynamic
    exact ⟨receiver.under none, name.under none, _, kids_eq, isNamed⟩

/-- A dynamic receiver and the items of a list are spread over a flattened branch. -/
theorem Branch.Spreads.ofFlattened {premise : Premise} {more count : Nat}
    {after receiver items : Branch}
    (isFlat : after.kids = ([receiver, items].flatMap opened).map (·.under none))
    (unlisted : receiver.node.tag ≠ .list) (isList : items.node.tag = .list)
    (typed : receiver.node.ty = some .dynamic)
    (suits : List.Forall₂ Suits items.kids (List.replicate (count + more) .object))
    (indexes : premise.Indexes after.id count) : after.Spreads premise more := by
  refine ⟨receiver.under none, items.kids.map (·.under none), count, ?_, typed, ?_, indexes⟩
  · simp [isFlat, opened_of_other unlisted, opened_of_list isList]
  · rw [List.forall₂_map_left_iff]
    exact suits

namespace Check

variable {β : Type} {premise : Premise} {calm : Calm} {first : Environment}
  {unseen less : Nat → Option Label → Prop} {old : CheckState} {branch : Branch}
  {kids : List Branch} {next : Unit → Check β} {post : β → CheckState → Branch → Prop}

theorem Yields.bindRearrange (isOpen : Open premise calm first unseen old branch)
    (parts : Parts premise first old old.tree branch kids) {alters : Tree → Tree}
    {change : Node → Node} (alters_eq : alters old.tree = old.tree.modify branch.id change)
    (children : (change branch.node).children = kids.map Branch.child)
    (note : (change branch.node).note = branch.node.note)
    (inside : (change branch.node).Inside)
    (rest : ∀ new, Open premise calm first (fun _ _ => False) new
        (.mk branch.label branch.id (change branch.node) kids) →
      new.environment = old.environment → new.scopes = old.scopes →
      (next ()).Yields calm new (.mk branch.label branch.id (change branch.node) kids) post) :
    (modifyTree alters >>= next).Yields calm old branch post := by
  obtain ⟨becomes, opens⟩ := isOpen.rearranged parts change children note inside
    (fun _ _ => False)
    fun _ _ _ none => none.elim
  rw [← alters_eq] at becomes opens
  exact .bindRun rfl becomes (rest _ opens rfl rfl)

theorem Yields.bindFlatten (isOpen : Open premise calm first unseen old branch)
    (parts : Parts premise first old old.tree branch kids)
    (rest : ∀ new, Open premise calm first (fun _ _ => False) new (branch.flattened kids) →
      new.environment = old.environment → new.scopes = old.scopes →
      (next ()).Yields calm new (branch.flattened kids) post) :
    (modifyTree (·.flatten branch.id (kids.map Branch.id)) >>= next).Yields calm old branch
      post := by
  have unlabelled : List.Forall₂ (fun kid other => ∃ label, other = Branch.under kid label)
      (kids.flatMap Branch.opened) ((kids.flatMap Branch.opened).map (·.under none)) := by
    rw [List.forall₂_map_right_iff, List.forall₂_same]
    exact fun _ _ => ⟨none, rfl⟩
  let change (node : Node) : Node :=
    { node with
      children := ((kids.flatMap Branch.opened).map (·.under none)).map Branch.child }
  have alters_eq : old.tree.flatten branch.id (kids.map Branch.id) =
      old.tree.modify branch.id change := by
    refine old.tree.modify_congr ?_
    simp only [Tree.splice_eq parts.holds, List.map_map, change]
    rfl
  exact .bindRearrange isOpen (parts.opened.under unlabelled) alters_eq rfl rfl
    (isOpen.inside.alike rfl rfl) rest

end Check

/-! ### Relabelling -/

@[simp]
theorem Node.note_relabel (node : Node) (label target : Label) :
    (node.relabel label target).note = node.note := by
  unfold relabel
  split <;> rfl

@[simp]
theorem Node.note_removeChild (node : Node) (label : Label) :
    (node.removeChild label).note = node.note := by
  unfold removeChild
  split <;> rfl

@[simp]
theorem Node.note_setChild (node : Node) (label : Label) (child : NodeId) :
    (node.setChild label child).note = node.note := by
  unfold setChild
  split <;> rfl

@[simp]
theorem Node.binding_setChild (node : Node) (label : Label) (child : NodeId) :
    (node.setChild label child).binding = node.binding := by
  unfold setChild
  split <;> rfl

@[simp]
theorem Node.binding_relabel (node : Node) (label target : Label) :
    (node.relabel label target).binding = node.binding := by
  unfold relabel
  split <;> rfl

@[simp]
theorem Node.binding_removeChild (node : Node) (label : Label) :
    (node.removeChild label).binding = node.binding := by
  unfold removeChild
  split <;> rfl

theorem Node.Inside.relabel {node : Node} (inside : node.Inside) (label target : Label) :
    (node.relabel label target).Inside :=
  inside.alike (node.tag_relabel label target) (node.binding_relabel label target)

theorem Node.Inside.removeChild {node : Node} (inside : node.Inside) (label : Label) :
    (node.removeChild label).Inside :=
  inside.alike (node.tag_removeChild label) (node.binding_removeChild label)

namespace Branch

def relabelled (label target : Label) : List Branch → List Branch
  | [] => []
  | kid :: rest =>
    if kid.label = some label then kid.under (some target) :: rest
    else kid :: relabelled label target rest

section Relabelled

variable {kids : List Branch} {label target wanted : Label}

theorem relabelled_of_absent (absent : ∀ kid ∈ kids, kid.label ≠ some label) :
    relabelled label target kids = kids := by
  induction kids with
  | nil => rfl
  | cons kid rest ih =>
      obtain ⟨other, others⟩ := List.forall_mem_cons.mp absent
      simp only [relabelled, other, if_false, ih others]

theorem children_relabelled (index : Nat)
    (found : kids.findIdx? (·.label == some label) = some index) :
    (kids.map child).modify index (fun child => { child with label := some target }) =
      (relabelled label target kids).map child := by
  induction kids generalizing index with
  | nil => simp at found
  | cons kid rest ih =>
      rw [List.findIdx?_cons] at found
      by_cases isLabel : kid.label = some label
      · simp only [isLabel, BEq.rfl, if_true, Option.some.injEq] at found
        subst found
        simp only [relabelled, isLabel, if_true]
        rfl
      · have different : (kid.label == some label) = false := by simpa using isLabel
        simp only [different, Bool.false_eq_true, if_false, Option.map_eq_some_iff] at found
        obtain ⟨place, isPlace, rfl⟩ := found
        simp only [relabelled, isLabel, if_false, List.map_cons, List.modify_succ_cons, ih place isPlace]

theorem relabelled_same : List.Forall₂ (fun kid other => ∃ label, other = Branch.under kid label)
    kids (relabelled label target kids) := by
  have same : ∀ kids : List Branch, List.Forall₂
      (fun kid other => ∃ label, other = Branch.under kid label) kids kids :=
    fun kids => List.forall₂_same.mpr fun kid _ => ⟨kid.label, kid.mk_parts.symm⟩
  induction kids with
  | nil => exact .nil
  | cons kid rest ih =>
      unfold relabelled
      split
      · exact .cons ⟨some target, rfl⟩ (same rest)
      · exact .cons ⟨kid.label, kid.mk_parts.symm⟩ ih

theorem find?_relabelled_other (notLabel : wanted ≠ label) (notTarget : wanted ≠ target) :
    (relabelled label target kids).find? (·.label == some wanted) =
      kids.find? (·.label == some wanted) := by
  induction kids with
  | nil => rfl
  | cons kid rest ih =>
      by_cases isLabel : kid.label = some label
      · simp [relabelled, isLabel, Ne.symm notLabel, Ne.symm notTarget]
      · simp only [relabelled, isLabel, if_false, List.find?_cons, ih]

theorem find?_relabelled_target (absent : kids.find? (·.label == some target) = none) :
    (relabelled label target kids).find? (·.label == some target) =
      (kids.find? (·.label == some label)).map (·.under (some target)) := by
  induction kids with
  | nil => rfl
  | cons kid rest ih =>
      rw [List.find?_cons] at absent
      split at absent
      · simp at absent
      · rename_i notTarget
        by_cases isLabel : kid.label = some label
        · simp [relabelled, isLabel]
        · have notLabel : (kid.label == some label) = false := by simpa using isLabel
          simp only [relabelled, isLabel, if_false, List.find?_cons, notTarget, notLabel, ih absent]

/-- The only branch under a label is under another one after that. -/
theorem find?_relabelled_gone (few : kids.countP (·.label == some label) ≤ 1)
    (different : target ≠ label) :
    (relabelled label target kids).find? (·.label == some label) = none := by
  induction kids with
  | nil => rfl
  | cons kid rest ih =>
      by_cases isLabel : kid.label = some label
      · rw [List.countP_cons_of_pos (by simp [isLabel])] at few
        have others := List.countP_eq_zero.mp (Nat.le_zero.mp (Nat.le_of_succ_le_succ few))
        have notTarget : (some target == some label) = false := by simpa using different
        simp only [relabelled, isLabel, if_true, List.find?_cons, label_under, notTarget]
        exact List.find?_eq_none.mpr others
      · have notLabel : (kid.label == some label) = false := by simpa using isLabel
        rw [List.countP_cons_of_neg (by simp [isLabel])] at few
        simp only [relabelled, isLabel, if_false, List.find?_cons, notLabel, ih few]

theorem countP_relabelled_other (notLabel : wanted ≠ label) (notTarget : wanted ≠ target) :
    (relabelled label target kids).countP (·.label == some wanted) =
      kids.countP (·.label == some wanted) := by
  induction kids with
  | nil => rfl
  | cons kid rest ih =>
      by_cases isLabel : kid.label = some label
      · simp [relabelled, isLabel, Ne.symm notLabel, Ne.symm notTarget]
      · simp only [relabelled, isLabel, if_false, List.countP_cons, ih]

theorem find?_eraseP_other (different : wanted ≠ label) :
    (kids.eraseP (·.label == some label)).find? (·.label == some wanted) =
      kids.find? (·.label == some wanted) := by
  induction kids with
  | nil => rfl
  | cons kid rest ih =>
      by_cases isLabel : kid.label = some label
      · simp [isLabel, Ne.symm different]
      · have notLabel : (kid.label == some label) = false := by simpa using isLabel
        simp only [List.eraseP_cons, notLabel, cond_false, List.find?_cons, ih]

end Relabelled

end Branch

structure Arranged (premise : Premise) (first : Environment) (base : CheckState) (branch : Branch)
    (node : Node) (kids : List Branch) : Prop where
  parts : Parts premise first base base.tree branch kids
  children : node.children = kids.map Branch.child

section Arranged

variable {premise : Premise} {calm : Calm} {first : Environment}
  {unseen : Nat → Option Label → Prop} {old : CheckState} {branch : Branch} {node : Node}
  {kids : List Branch}

theorem Arranged.ofOpen (isOpen : Open premise calm first unseen old branch) :
    Arranged premise first old branch branch.node branch.kids :=
  ⟨.ofOpen isOpen, isOpen.stands.holds.children_eq⟩

theorem Arranged.indexOf?_eq (arranged : Arranged premise first old branch node kids)
    (label : Label) : node.indexOf? label = kids.findIdx? (·.label == some label) := by
  rw [Node.indexOf?, arranged.children, List.findIdx?_map]
  rfl

theorem Arranged.removeChild (arranged : Arranged premise first old branch node kids)
    (label : Label)
    (silent : ∀ index kid, kids.findIdx? (·.label == some label) = some index →
      kids[index]? = some kid → kid.notes = 0) :
    Arranged premise first old branch (node.removeChild label)
      (kids.eraseP (·.label == some label)) := by
  unfold Node.removeChild
  rw [arranged.indexOf?_eq, List.eraseP_eq_eraseIdx]
  cases isFirst : kids.findIdx? (·.label == some label) with
  | none => exact arranged
  | some index =>
      have inRange := (List.findIdx?_eq_some_iff_getElem.mp isFirst).1
      have found := List.getElem?_eq_getElem inRange
      refine ⟨arranged.parts.sublist (List.eraseIdx_sublist _ _)
        (Branch.notesAll_eraseIdx found (silent index _ isFirst found)), ?_⟩
      simp only [arranged.children, List.eraseIdx_map]

theorem Arranged.relabel (arranged : Arranged premise first old branch node kids)
    (label target : Label) : Arranged premise first old branch (node.relabel label target)
      (Branch.relabelled label target kids) := by
  refine ⟨arranged.parts.under Branch.relabelled_same, ?_⟩
  unfold Node.relabel
  rw [arranged.indexOf?_eq]
  split
  · rename_i index found
    simp only [arranged.children]
    exact Branch.children_relabelled index found
  · rename_i absent
    rw [Branch.relabelled_of_absent]
    · exact arranged.children
    · intro kid member
      simpa using List.findIdx?_eq_none_iff.mp absent kid member

/-- A child of a child that has all its notes comes into its place. -/
theorem Arranged.hoist {label : Label} {index : Nat} {kid inner : Branch}
    (isOpen : Open premise calm first unseen old branch) (isKid : branch.Kid label index kid)
    (isInner : inner ∈ kid.kids) (notFunction : kid.node.tag ≠ .funcDecl)
    (notes : inner.notes = kid.notes) :
    Arranged premise first old branch (branch.node.setChild label inner.id)
      (branch.kids.set index (inner.under kid.label)) := by
  obtain ⟨inRange, isHere⟩ := List.getElem?_eq_some_iff.mp isKid.found
  have holds := isOpen.stands.holds
  refine ⟨?_, ?_⟩
  · have parts := Parts.ofOpen isOpen
    rw [← List.take_append_drop index branch.kids, List.drop_eq_getElem_cons inRange, isHere] at parts
    have spilt := parts.spill _ (List.singleton_sublist.mpr isInner) notFunction
      ((Branch.notesAll_singleton inner).trans notes)
    have same : ∀ kids : List Branch, List.Forall₂
        (fun kid other => ∃ label, other = Branch.under kid label) kids kids :=
      fun kids => List.forall₂_same.mpr fun kid _ => ⟨kid.label, kid.mk_parts.symm⟩
    rw [List.append_assoc] at spilt
    rw [List.set_eq_take_append_cons_drop, if_pos inRange]
    exact spilt.under (List.rel_append (same _) (.cons ⟨kid.label, rfl⟩ (same _)))
  · have present : branch.node.indexOf? label = some index := by
      rw [← holds.get_eq, holds.indexOf?_eq, isKid.first]
    have child : (inner.under kid.label).child = { kid.child with node := inner.id } := rfl
    simp only [Node.setChild, present, Node.replaceAt, holds.children_eq]
    exact Branch.child_modify isKid.found child

end Arranged

namespace Check

variable {β : Type} {premise : Premise} {calm : Calm} {first : Environment}
  {unseen : Nat → Option Label → Prop} {old : CheckState} {branch : Branch} {kids : List Branch}
  {next : Unit → Check β} {post : β → CheckState → Branch → Prop}

theorem Yields.bindArranged (isOpen : Open premise calm first unseen old branch)
    {alters : Tree → Tree} {change : Node → Node}
    (arranged : Arranged premise first old branch (change branch.node) kids)
    (alters_eq : alters old.tree = old.tree.modify branch.id change)
    (note : (change branch.node).note = branch.node.note)
    (inside : (change branch.node).Inside)
    (rest : ∀ new after, Open premise calm first (fun _ _ => False) new after →
      after.id = branch.id → after.node = change branch.node → after.kids = kids →
      new.environment = old.environment → new.scopes = old.scopes →
      (next ()).Yields calm new after post) :
    (modifyTree alters >>= next).Yields calm old branch post :=
  .bindRearrange isOpen arranged.parts alters_eq arranged.children note inside
    fun new opens environment scopes => rest new _ opens rfl rfl rfl environment scopes

end Check

end ScriptTyping
