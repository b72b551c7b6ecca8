import ScriptTyping.Proofs.Outcome.Coercions
import ScriptTyping.Proofs.Outcome.Runs

/-!
What a call comes to before it looks for a member: its arguments stand in a list of their own, and
each of them was checked. Below separate nodes the visits do not notice each other, so in the end
every argument still has the type that its visit gave.
-/

namespace ScriptTyping

/-! ### Visits of separate nodes -/

namespace Tree

structure Seats (tree : Tree) (list : NodeId) (places : List Nat) (kids : List Branch) : Prop where
  bound : list < tree.nodes.size
  seated : List.Forall₂ (fun place kid => tree.childAt? list place = some kid.id) places kids
  outside : ∀ kid ∈ kids, list ∉ kid.ids
  stands : ∀ kid ∈ kids, tree.Stands kid
  apart : kids.Pairwise fun kid other => List.Disjoint kid.ids other.ids
  isSealed : ∀ kid ∈ kids, tree.Sealed kid.id

variable {tree later : Tree} {id list : NodeId} {place : Nat} {places : List Nat} {kid : Branch}
  {kids : List Branch}

theorem Sealed.congr (isSealed : tree.Sealed id) (same : later.get id = tree.get id) :
    later.Sealed id := by
  intro isDone
  rw [same] at isDone
  obtain ⟨typed, notNull⟩ := isSealed isDone
  refine ⟨?_, ?_⟩
  · rw [ty?, same]
    exact typed
  · rw [tag, same]
    exact notNull

theorem Seats.frame (seats : tree.Seats list places kids)
    (size : tree.nodes.size ≤ later.nodes.size) (top : later.get list = tree.get list)
    (below : ∀ kid ∈ kids, ∀ position ∈ kid.ids, later.get position = tree.get position) :
    later.Seats list places kids := by
  refine ⟨Nat.lt_of_lt_of_le seats.bound size, seats.seated.imp fun place kid found => ?_,
    seats.outside, fun kid isKid => (seats.stands kid isKid).frame size (below kid isKid),
    seats.apart, fun kid isKid => ?_⟩
  · rw [childAt?, top]
    exact found
  · exact (seats.isSealed kid isKid).congr (below kid isKid kid.id kid.id_mem_ids)

theorem Seats.tail (seats : tree.Seats list (place :: places) (kid :: kids)) :
    tree.Seats list places kids :=
  ⟨seats.bound, (List.forall₂_cons.mp seats.seated).2,
    fun other isOther => seats.outside other (List.mem_cons_of_mem _ isOther),
    fun other isOther => seats.stands other (List.mem_cons_of_mem _ isOther),
    (List.pairwise_cons.mp seats.apart).2,
    fun other isOther => seats.isSealed other (List.mem_cons_of_mem _ isOther)⟩

theorem Seats.visited {state new : CheckState} {depth : Nat} {ty : Ty}
    (seats : state.tree.Seats list (place :: places) (kid :: kids))
    (ran : (visit depth kid.id).run.run state = .ok (.ok ty, new)) :
    new.tree.Seats list places kids ∧ new.tree.Offers kid.id ty ∧
      state.tree.nodes.size ≤ new.tree.nodes.size ∧ ∀ position < state.tree.nodes.size,
        position ∉ kid.ids → new.tree.get position = state.tree.get position := by
  have stands := seats.stands kid List.mem_cons_self
  obtain ⟨size, frame⟩ := visit_frame ran
  obtain ⟨typed, null⟩ := visit_typed ran stands.holds.bound (seats.isSealed kid List.mem_cons_self)
  have kept : ∀ position < state.tree.nodes.size, position ∉ kid.ids →
      new.tree.get position = state.tree.get position := fun position bound outside =>
    frame position bound fun reaches => outside (reaches.mem_ids stands.holds)
  refine ⟨seats.tail.frame size ?_ fun other isOther position inside => ?_, ⟨typed, null⟩, size,
    kept⟩
  · exact kept list seats.bound (seats.outside kid List.mem_cons_self)
  · have within := (seats.tail.stands other isOther).holds.ids_bound inside
    refine kept position within fun insideKid => ?_
    exact (List.pairwise_cons.mp seats.apart).1 other isOther insideKid inside

end Tree

namespace Check

variable {state new : CheckState} {depth : Nat} {list : NodeId} {places : List Nat}
  {kids : List Branch} {types : List Ty}

/-- Every visited node has the type that its visit gave. -/
theorem visitAll_offers (seats : state.tree.Seats list places kids)
    (ran : (visitAll (visit depth) (places.map (Slot.mk list))).run.run state =
      .ok (.ok types, new)) :
    List.Forall₂ (fun kid ty => new.tree.Offers kid.id ty) kids types ∧
      ∀ position < state.tree.nodes.size, (∀ kid ∈ kids, position ∉ kid.ids) →
        new.tree.get position = state.tree.get position := by
  induction places generalizing state kids types with
  | nil =>
      cases seats.seated
      cases ran
      exact ⟨.nil, fun _ _ _ => rfl⟩
  | cons place places ih =>
      cases kids with
      | nil => cases seats.seated
      | cons kid kids =>
          obtain ⟨node, between, isNode, ran⟩ := exists_of_run_bind ran
          rw [run_occupant (List.forall₂_cons.mp seats.seated).1] at isNode
          cases isNode
          obtain ⟨ty, mid, visited, ran⟩ := exists_of_run_bind ran
          obtain ⟨others, last, visitedAll, ran⟩ := exists_of_run_bind ran
          cases ran
          obtain ⟨seatsLater, offers, size, kept⟩ := seats.visited visited
          obtain ⟨offersAll, keptLater⟩ := ih seatsLater visitedAll
          -- the later visits are below the other nodes, and so the first one keeps its type
          have bound := (seats.stands kid List.mem_cons_self).holds.bound
          have same := keptLater kid.id (Nat.lt_of_lt_of_le bound size) fun other isOther =>
            (List.pairwise_cons.mp seats.apart).1 other isOther kid.id_mem_ids
          refine ⟨.cons (offers.congr same) offersAll, fun position bound outside => ?_⟩
          obtain ⟨outsideFirst, outsideRest⟩ := List.forall_mem_cons.mp outside
          rw [keptLater position (Nat.lt_of_lt_of_le bound size) outsideRest]
          exact kept position bound outsideFirst

end Check

/-! ### The list of arguments -/

namespace Tree

variable {tree : Tree} {id item position : NodeId} {branch list kid : Branch}

theorem slots_eq_of_get {later : Tree} (same : later.get id = tree.get id) :
    later.slots id = tree.slots id := by
  rw [slots, slots, same]

theorem Stands.slots_eq (stands : tree.Stands list) :
    tree.slots list.id = (List.range list.kids.length).map (Slot.mk list.id) := by
  rw [slots, stands.holds.length_eq]

theorem Stands.seats (stands : tree.Stands list)
    (isSealed : ∀ kid ∈ list.kids, tree.Sealed kid.id) :
    tree.Seats list.id (List.range list.kids.length) list.kids := by
  refine ⟨stands.holds.bound, ?_, fun kid member => stands.id_notMem member,
    fun kid member => stands.kid member, stands.apart, isSealed⟩
  rw [List.forall₂_iff_get]
  refine ⟨List.length_range, fun index _ inKids => ?_⟩
  rw [stands.holds.childAt?_eq]
  simp [inKids]

theorem get_argumentList (different : position ≠ id) (bound : position < tree.nodes.size) :
    (tree.argumentList id .param).2.get position = tree.get position := by
  have wrapped : ∀ items : List NodeId,
      ((tree.sequence .list items).2.setChild id .param
        (tree.sequence .list items).1).get position = tree.get position := by
    intro items
    rw [setChild, get_modify_other _ _ different]
    exact tree.get_alloc_old _ bound
  rw [argumentList]
  split
  · split
    · rfl
    · exact wrapped _
  · exact wrapped []

theorem reaches_of_argumentList (bound : id < tree.nodes.size)
    (member : item ∈ (tree.argumentList id .param).2.childIds (tree.argumentList id .param).1) :
    ∃ kid ∈ tree.childIds id, tree.Reaches kid item := by
  have wrapped : ∀ items : List NodeId,
      ((tree.sequence .list items).2.setChild id .param (tree.sequence .list items).1).childIds
        (tree.sequence .list items).1 = items := by
    intro items
    have different : (tree.sequence .list items).1 ≠ id := Nat.ne_of_gt bound
    rw [childIds, setChild, get_modify_other _ _ different, sequence, Tree.branch]
    simp only [alloc, get, Array.getElem?_push_size, Option.getD_some, List.map_map]
    exact List.map_id items
  rw [argumentList] at member
  split at member
  · rename_i kid isKid
    have below := mem_childIds_of_child? isKid
    split at member
    · exact ⟨kid, below, reaches_kid member⟩
    · rw [wrapped, List.mem_singleton] at member
      subst member
      exact ⟨item, below, .refl item⟩
  · rw [wrapped] at member
    cases member

/-- The list stands apart from what else the construct has, and its items were not touched. -/
theorem Stands.listed {state : CheckState} {label : Label} (stands : state.tree.Stands branch)
    (single : branch.node.tag.isCompound = false) (different : label ≠ .param)
    (isKid : state.tree.child? branch.id label = some item)
    (isSealed : ∀ {position}, state.tree.Reaches branch.id position → state.tree.Sealed position) :
    let new := (state.tree.argumentList branch.id .param).2
    ∃ list kid : Branch, list.id = (state.tree.argumentList branch.id .param).1 ∧ kid.id = item ∧
      new.Stands list ∧ new.Stands kid ∧ List.Disjoint list.ids kid.ids ∧
      ∀ inner ∈ list.kids, new.Sealed inner.id := by
  intro new
  let site : Site := ⟨state.tree, branch, Branch.heightAll false branch.kids⟩
  have keeps : site.Keeps state.tree :=
    .refl stands ⟨single, fun _ member => Branch.height_le_heightAll member⟩
  obtain ⟨⟨after, turns, _⟩, gathers⟩ :
      site.Keeps new ∧ site.Gathers (state.tree.argumentList branch.id .param).1 state.tree new :=
    (Check.argumentList_works keeps).ends state rfl
  have isList : new.child? after.id .param = some (state.tree.argumentList branch.id .param).1 := by
    rw [turns.id]
    exact gathers.found
  have isKid : new.child? after.id label = some item := by
    rw [turns.id]
    exact (gathers.others different).trans isKid
  rw [turns.stands.holds.child?_eq, Option.map_eq_some_iff] at isList isKid
  obtain ⟨list, isList, sameList⟩ := isList
  obtain ⟨kid, isKid, sameKid⟩ := isKid
  obtain ⟨place, isList⟩ := Branch.first?_eq_some_iff.mp isList
  obtain ⟨placeKid, isKid⟩ := Branch.first?_eq_some_iff.mp isKid
  have standsList := turns.stands.kid isList.mem
  refine ⟨list, kid, sameList, sameKid, standsList, turns.stands.kid isKid.mem,
    turns.stands.disjoint isList.found isKid.found (isList.ne isKid different.symm), ?_⟩
  intro inner isInner
  have listed : inner.id ∈ new.childIds (state.tree.argumentList branch.id .param).1 := by
    rw [← sameList, standsList.holds.childIds_eq]
    exact List.mem_map_of_mem isInner
  obtain ⟨top, isTop, reaches⟩ := reaches_of_argumentList stands.holds.bound listed
  have treelike := stands.treelike
  refine (isSealed (.step isTop reaches)).congr (get_argumentList ?_ ?_)
  · intro same
    exact treelike.acyclic (.refl branch.id) isTop (same ▸ reaches)
  · exact treelike.inside (.step isTop reaches)

end Tree

namespace Check

variable {state new : CheckState} {depth : Nat} {list : Branch} {types : List Ty}

theorem visitAll_lists (stands : state.tree.Stands list)
    (isSealed : ∀ kid ∈ list.kids, state.tree.Sealed kid.id)
    (ran : (visitAll (visit depth) (state.tree.slots list.id)).run.run state =
      .ok (.ok types, new)) :
    types.length = list.kids.length ∧
      new.tree.Lists list.id types (List.range list.kids.length) := by
  rw [stands.slots_eq] at ran
  obtain ⟨offers, kept⟩ := visitAll_offers (stands.seats isSealed) ran
  have same : new.tree.get list.id = state.tree.get list.id :=
    kept list.id stands.holds.bound fun kid member => stands.id_notMem member
  have place : ∀ index, new.tree.childAt? list.id index = list.kids[index]?.map Branch.id := by
    intro index
    rw [Tree.childAt?, same]
    exact stands.holds.childAt?_eq index
  refine ⟨offers.length_eq.symm, fun index pending => ?_,
    fun index isIndex other isOther same => ?_⟩
  · have inKids := List.mem_range.mp pending
    have inTypes : index < types.length := offers.length_eq ▸ inKids
    refine ⟨list.kids[index].id, types[index], ?_, List.getElem?_eq_getElem inTypes, ?_, ?_⟩
    · rw [place, List.getElem?_eq_getElem inKids]
      rfl
    · intro same
      have outside := stands.id_notMem (List.getElem_mem inKids)
      exact outside (same ▸ Branch.id_mem_ids _)
    · exact (List.forall₂_iff_get.mp offers).2 index inKids inTypes
  · by_contra different
    have isKid := List.getElem?_eq_getElem (List.mem_range.mp isIndex)
    have isKidOther := List.getElem?_eq_getElem (List.mem_range.mp isOther)
    rw [place, place, isKid, isKidOther] at same
    have shared := stands.disjoint isKid isKidOther different (Branch.id_mem_ids _)
    exact shared (Option.some.inj same ▸ Branch.id_mem_ids _)

end Check

end ScriptTyping
