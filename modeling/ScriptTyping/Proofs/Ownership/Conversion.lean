import ScriptTyping.Proofs.Overload.Resolution
import ScriptTyping.Proofs.Ownership.Step

/-!
The steps that rules share stay within the place at which a rule works: changes of its node, types
of nodes below it, visits and conversions of its children, and argument lists.
-/

namespace ScriptTyping

structure Node.Resembles (old new : Node) : Prop extends old.SameKind new where
  labels : new.children.map Child.label = old.children.map Child.label

section Nodes

variable {first second third node : Node} {index : Nat} {kid : NodeId} {label other : Label}

theorem Node.Resembles.refl (node : Node) : node.Resembles node := ⟨⟨rfl, rfl⟩, rfl⟩

theorem Node.Resembles.trans (early : first.Resembles second) (late : second.Resembles third) :
    first.Resembles third :=
  ⟨⟨late.tag.trans early.tag, late.done.trans early.done⟩, late.labels.trans early.labels⟩

theorem Node.Resembles.length (resembles : first.Resembles second) :
    second.children.length = first.children.length := by
  simpa using congrArg List.length resembles.labels

theorem Node.replaceAt_resembles (node : Node) (index : Nat) (kid : NodeId) :
    node.Resembles (node.replaceAt index kid) :=
  ⟨⟨rfl, rfl⟩, node.labels_replaceAt index kid⟩

theorem Node.indexOf?_eq_labels (node : Node) (label : Label) :
    node.indexOf? label = (node.children.map Child.label).findIdx? (· == some label) := by
  rw [indexOf?, List.findIdx?_map]
  rfl

theorem Node.Resembles.indexOf? (resembles : first.Resembles second) (label : Label) :
    second.indexOf? label = first.indexOf? label := by
  rw [Node.indexOf?_eq_labels, Node.indexOf?_eq_labels, resembles.labels]

theorem Node.childAt?_eq (node : Node) (index : Nat) :
    node.childAt? index = (node.children.map Child.node)[index]? := by
  rw [childAt?, List.getElem?_map]

theorem Node.childAt?_of_lt (inRange : index < node.children.length) :
    ∃ kid, node.childAt? index = some kid :=
  Option.isSome_iff_exists.mp ((node.childAt?_isSome_iff index).mpr inRange)

theorem Node.childAt?_replaceAt_self (inRange : index < node.children.length) :
    (node.replaceAt index kid).childAt? index = some kid := by
  rw [childAt?_eq, children_replaceAt, List.getElem?_set_self (by simpa using inRange)]

theorem Node.child?_replaceAt_self (found : node.indexOf? label = some index) :
    (node.replaceAt index kid).child? label = some kid := by
  rw [child?_eq, (node.replaceAt_resembles index kid).indexOf?, found, Option.bind_some,
    childAt?_replaceAt_self (lt_of_indexOf? found)]

theorem Node.child?_replaceAt_other (found : node.indexOf? label = some index)
    (different : other ≠ label) : (node.replaceAt index kid).child? other = node.child? other := by
  rw [child?_eq, child?_eq, (node.replaceAt_resembles index kid).indexOf?]
  cases isOther : node.indexOf? other with
  | none => rfl
  | some place =>
      have apart : index ≠ place := by
        rintro rfl
        obtain ⟨_, matched, _⟩ := List.findIdx?_eq_some_iff_getElem.mp found
        obtain ⟨_, matchedToo, _⟩ := List.findIdx?_eq_some_iff_getElem.mp isOther
        rw [beq_iff_eq] at matched matchedToo
        exact different (Option.some.inj (matchedToo.symm.trans matched))
      rw [Option.bind_some, Option.bind_some, childAt?_eq, childAt?_eq, children_replaceAt,
        List.getElem?_set_ne apart]

theorem Node.indexOf?_of_child? (found : node.child? label = some kid) :
    ∃ index, node.indexOf? label = some index ∧ node.childAt? index = some kid := by
  rwa [child?_eq, Option.bind_eq_some_iff] at found

theorem Node.indexOf?_of_child?_none (absent : node.child? label = none) :
    node.indexOf? label = none := by
  cases isIndex : node.indexOf? label with
  | none => rfl
  | some index =>
      obtain ⟨kid, found⟩ := childAt?_of_lt (lt_of_indexOf? isIndex)
      rw [child?_eq, isIndex, Option.bind_some, found] at absent
      simp at absent

theorem Node.child?_push_self (absent : node.child? label = none) :
    (node.push (some label) kid).child? label = some kid := by
  rw [child?, Option.map_eq_none_iff] at absent
  simp [child?, push, List.find?_append, absent]

theorem Node.child?_push_other (different : other ≠ label) :
    (node.push (some label) kid).child? other = node.child? other := by
  simp [child?, push, List.find?_append, different.symm]

end Nodes

def Node.Slotted (node : Node) (id : NodeId) (slots : List Slot) : Prop :=
  ∀ slot ∈ slots, slot.parent = id ∧ slot.index < node.children.length

theorem Node.Slotted.resembles {old new : Node} {id : NodeId} {slots : List Slot}
    (slotted : old.Slotted id slots) (resembles : old.Resembles new) : new.Slotted id slots := by
  intro slot member
  rw [resembles.length]
  exact slotted slot member

theorem Tree.occupied (tree : Tree) {id : NodeId} {slot : Slot} {slots : List Slot}
    (slotted : (tree.get id).Slotted id slots) (member : slot ∈ slots) :
    ∃ kid, slot = ⟨id, slot.index⟩ ∧ tree.childAt? id slot.index = some kid := by
  obtain ⟨parent, inRange⟩ := slotted slot member
  obtain ⟨kid, found⟩ := Node.childAt?_of_lt inRange
  exact ⟨kid, by rw [← parent], found⟩

theorem Tree.slotted_slots (tree : Tree) (id : NodeId) :
    (tree.get id).Slotted id (tree.slots id) := by
  intro slot member
  obtain ⟨index, inRange, rfl⟩ := List.mem_map.mp member
  exact ⟨rfl, List.mem_range.mp inRange⟩

/-! ### Trees that only differ in types -/

def Tree.Akin (old new : Tree) : Prop :=
  ∀ position, (old.get position).Akin (new.get position)

section Akin

variable {first second third old new : Tree} {id below : NodeId} {label : Label}

theorem Tree.Akin.refl (tree : Tree) : tree.Akin tree := fun _ => .refl _

theorem Tree.Akin.trans (early : first.Akin second) (late : second.Akin third) :
    first.Akin third :=
  fun position => (early position).trans (late position)

theorem Tree.Akin.childIds (akin : old.Akin new) (id : NodeId) :
    new.childIds id = old.childIds id := by
  rw [Tree.childIds, (akin id).children, Tree.childIds]

theorem Tree.Akin.child? (akin : old.Akin new) (id : NodeId) (label : Label) :
    new.child? id label = old.child? id label := by
  rw [Tree.child?, Node.child?, (akin id).children, Tree.child?, Node.child?]

theorem Tree.Akin.reaches (akin : old.Akin new) (reaches : old.Reaches id below) :
    new.Reaches id below := by
  induction reaches with
  | refl id => exact .refl id
  | step member _ ih => exact .step (by rwa [akin.childIds]) ih

theorem Tree.Reaches.trans {tree : Tree} {last : NodeId} (early : tree.Reaches id below)
    (late : tree.Reaches below last) : tree.Reaches id last := by
  induction early with
  | refl _ => exact late
  | step member _ ih => exact .step member (ih late)

theorem Tree.reaches_kid {tree : Tree} {kid : NodeId} (member : kid ∈ tree.childIds id) :
    tree.Reaches id kid :=
  .step member (.refl kid)

end Akin

namespace Site

variable {site : Site} {old middle now new : Tree} {kid coerced list : NodeId} {index : Nat}
  {label other : Label}

/-! ### What a step leaves in place -/

theorem Keeps.owns (keeps : site.Keeps now) (member : kid ∈ now.childIds site.id) :
    kid ≠ site.id ∧ kid < now.nodes.size := by
  obtain ⟨part, rfl, owns⟩ := keeps.parts.each kid member
  exact ⟨(owns.owned part.id part.id_mem_ids).1, owns.stands.holds.bound⟩

theorem Spares.refl (site : Site) (kid : NodeId) (tree : Tree) : site.Spares kid tree tree :=
  ⟨rfl, fun _ _ _ => rfl⟩

theorem Spares.childIds (spares : site.Spares kid old new) :
    new.childIds site.id = old.childIds site.id := by
  rw [Tree.childIds, spares.top, Tree.childIds]

theorem Spares.child? (spares : site.Spares kid old new) (label : Label) :
    new.child? site.id label = old.child? site.id label := by
  rw [Tree.child?, spares.top, Tree.child?]

theorem Spares.childAt? (spares : site.Spares kid old new) (index : Nat) :
    new.childAt? site.id index = old.childAt? site.id index := by
  rw [Tree.childAt?, spares.top, Tree.childAt?]

theorem Keeps.spares (keeps : site.Keeps old) (adds : old.Adds new) (kid : NodeId) :
    site.Spares kid old new :=
  ⟨adds.get _ keeps.bound, fun other member _ => adds.get other (keeps.owns member).2⟩

theorem Keeps.sparesModify (keeps : site.Keeps now) (member : kid ∈ now.childIds site.id)
    (change : Node → Node) : site.Spares kid now (now.modify kid change) :=
  ⟨now.get_modify_other change (keeps.owns member).1.symm,
    fun _ _ different => now.get_modify_other change different⟩

structure Exchanges (site : Site) (index : Nat) (kid coerced : NodeId) (old new : Tree) :
    Prop where
  top : new.get site.id = (old.get site.id).replaceAt index coerced
  others : ∀ other ∈ old.childIds site.id, other ≠ kid → new.get other = old.get other

structure Swaps (site : Site) (label : Label) (coerced : NodeId) (old new : Tree) : Prop where
  found : new.child? site.id label = some coerced
  others : ∀ {other}, other ≠ label → new.child? site.id other = old.child? site.id other
  nodes : ∀ {other kid}, other ≠ label → old.child? site.id other = some kid →
    new.get kid = old.get kid

theorem Swaps.mem (swaps : site.Swaps label coerced old new) : coerced ∈ new.childIds site.id :=
  Tree.mem_childIds_of_child? swaps.found

theorem Exchanges.after (exchanges : site.Exchanges index kid coerced middle new)
    (spares : site.Spares kid old middle) : site.Exchanges index kid coerced old new := by
  refine ⟨by rw [exchanges.top, spares.top], fun other member different => ?_⟩
  rw [exchanges.others other (by rwa [spares.childIds]) different,
    spares.others other member different]

theorem Exchanges.resembles (exchanges : site.Exchanges index kid coerced old new) :
    (old.get site.id).Resembles (new.get site.id) := by
  rw [exchanges.top]
  exact Node.replaceAt_resembles _ index coerced

theorem Exchanges.swaps (exchanges : site.Exchanges index kid coerced old new)
    (keeps : site.Keeps old) (found : (old.get site.id).indexOf? label = some index)
    (isKid : old.childAt? site.id index = some kid) : site.Swaps label coerced old new := by
  refine ⟨?_, fun {other} different => ?_, fun {other} inner different isOther => ?_⟩
  · rw [Tree.child?, exchanges.top]
    exact Node.child?_replaceAt_self found
  · rw [Tree.child?, exchanges.top, Tree.child?]
    exact Node.child?_replaceAt_other found different
  · refine exchanges.others inner (Tree.mem_childIds_of_child? isOther) ?_
    refine keeps.distinct isOther ?_ different
    rw [Tree.child?, Node.child?_eq, found]
    exact isKid

structure Gathers (site : Site) (list : NodeId) (old new : Tree) : Prop where
  found : new.child? site.id .param = some list
  isList : new.tag list = .list
  others : ∀ {other}, other ≠ .param → new.child? site.id other = old.child? site.id other
  kind : (old.get site.id).SameKind (new.get site.id)

end Site

theorem Tree.setChild_of_indexOf? {tree : Tree} {id : NodeId} {label : Label} {index : Nat}
    (found : (tree.get id).indexOf? label = some index) (kid : NodeId) :
    tree.setChild id label kid = tree.replaceAt id index kid := by
  refine tree.modify_congr ?_
  simp only [Node.setChild, found]

namespace Check

abbrev Stays {α : Type} (site : Site) (step : Check α) (now : Tree) : Prop :=
  Works site step now fun _ _ => True

variable {α β : Type} {site : Site} {step : Check α} {now old : Tree} {kid id : NodeId}
  {visit : Visit} {label : Label} {slot : Slot} {slots : List Slot} {index : Nat}

theorem Works.stays {post : α → Tree → Prop} (works : Works site step now post) :
    Stays site step now :=
  works.mono fun _ _ _ _ => trivial

theorem modifyTree_stays {change : Tree → Tree} (keeps : site.Keeps (change now)) :
    Stays site (modifyTree change) now :=
  .modifyTree keeps trivial

/-! ### The node itself -/

theorem alter_works (keeps : site.Keeps now) {change : Node → Node}
    (akin : ∀ node : Node, node.Akin (change node))
    (note : ∀ node : Node, (change node).note = node.note) :
    Works site (modifyTree (·.modify site.id change)) now fun _ tree =>
      (now.get site.id).Akin (tree.get site.id) := by
  refine .modifyTree (keeps.alter (akin _).children (note _) (akin _).tag) ?_
  rw [now.get_modify_self change keeps.bound]
  exact akin _

theorem setBinding_works (keeps : site.Keeps now) (binding : Binding) :
    Works site (setBinding site.id binding) now fun _ tree =>
      (now.get site.id).Akin (tree.get site.id) :=
  alter_works keeps (fun _ => ⟨rfl, rfl, rfl⟩) fun _ => rfl

theorem setConst_stays (keeps : site.Keeps now) (ty : Ty) (value : Const) :
    Stays site (setConst site.id ty value) now :=
  .bind (alter_works keeps (fun _ => ⟨rfl, rfl, rfl⟩) fun _ => rfl) fun _ _ keeps _ =>
    .pure keeps trivial

theorem markDone_stays (keeps : site.Keeps now) : Stays site (markDone site.id) now :=
  modifyTree_stays (keeps.alter rfl rfl rfl)

theorem bound_stays (keeps : site.Keeps now) (binding : Binding) (result : α) :
    Stays site (setBinding site.id binding >>= fun _ => pure result) now :=
  .bind (setBinding_works keeps binding) fun _ _ keeps _ => .pure keeps trivial

/-! ### Types -/

theorem setType_works (keeps : site.Keeps now) (reaches : now.Reaches site.id id) (ty : Ty) :
    Works site (setType id ty) now fun _ tree => now.Akin tree :=
  .modifyTree (keeps.setType reaches ty) (now.akin_setType id ty)

theorem denotation_works (keeps : site.Keeps now) (id : NodeId) :
    Works site ( denotation id) now fun _ tree => tree = now := by
  refine .bindAside (aside_textOf id) fun text => .bindAside aside_environment fun environment => ?_
  split
  · exact .pure keeps rfl
  · exact .failAt keeps id _

theorem annotation_works (keeps : site.Keeps now) (reaches : now.Reaches site.id id) :
    Works site ( annotation id) now fun _ tree => now.Akin tree := by
  refine .bindSame (denotation_works keeps id) fun ty => ?_
  exact .bind (setType_works keeps reaches ty) fun _ _ keeps akin => .pure keeps akin

theorem annotation?_works (keeps : site.Keeps now) (reaches : now.Reaches site.id id)
    (label : Label) : Works site (annotation? id label) now fun _ tree => now.Akin tree := by
  refine .bindChild? ?_
  split
  · rename_i node found
    have below := reaches.trans (Tree.reaches_kid (Tree.mem_childIds_of_child? found))
    exact .bind (annotation_works keeps below) fun _ _ keeps akin => .pure keeps akin
  · exact .pure keeps (.refl now)

/-! ### Conversions -/

theorem replace_works {coerced : NodeId} (keeps : site.Keeps old)
    (spares : site.Spares kid old now) (found : old.childAt? site.id index = some kid)
    (keepsNew : site.Keeps (now.replaceAt site.id index coerced)) :
    Works site (replace ⟨site.id, index⟩ coerced) now fun _ tree =>
      site.Exchanges index kid coerced old tree := by
  have isKid : now.childAt? site.id index = some kid := by rwa [spares.childAt?]
  have bound := keepsNew.bound
  rw [Tree.replaceAt, Tree.size_modify] at bound
  refine .bindOccupant isKid (.modifyTree keepsNew ⟨?_, fun other member different => ?_⟩)
  · rw [← spares.top]
    exact now.get_modify_self _ bound
  · rw [← spares.others other member different]
    exact now.get_modify_other _ (keeps.owns member).1

theorem convert_works (keeps : site.Keeps now) (found : now.childAt? site.id index = some kid)
    (tag : Tag) (ty : Ty) (binding : Binding) :
    Works site (replace ⟨site.id, index⟩ (now.convert kid tag ty binding).1)
      (now.convert kid tag ty binding).2 fun _ tree =>
        site.Exchanges index kid (now.convert kid tag ty binding).1 now tree :=
  replace_works keeps (keeps.spares (now.alloc_adds _) kid) found
    (keeps.wrap found rfl (.inl rfl))

theorem kept_works (keeps : site.Keeps old) (spares : site.Spares kid old now)
    (found : old.childAt? site.id index = some kid) (keepsNew : site.Keeps now) :
    Works site (replace ⟨site.id, index⟩ kid) now fun _ tree =>
      site.Exchanges index kid kid old tree := by
  refine replace_works keeps spares found (keepsNew.exchange ?_)
  have place : (now.childIds site.id)[index]? = some kid := by
    rw [spares.childIds, Tree.childIds, List.getElem?_map]
    exact found
  obtain ⟨inRange, same⟩ := List.getElem?_eq_some_iff.mp place
  rw [← same, List.set_getElem_self]
  exact keepsNew.parts

theorem aside_noteConversion (node coerced : NodeId) : Aside (noteConversion node coerced) := by
  unfold noteConversion
  split
  · exact aside_pure ()
  · exact aside_noteTyped coerced

theorem coerce_works (keeps : site.Keeps now) (found : now.childAt? site.id index = some kid)
    (ty : Ty) : Works site (coerce ⟨site.id, index⟩ ty) now fun coerced tree =>
      site.Exchanges index kid coerced now tree := by
  have member := Tree.mem_childIds_of_childAt? found
  have settled : ∀ {coerced : NodeId} {tree : Tree},
      Works site (replace ⟨site.id, index⟩ coerced) tree
        (fun _ tree => site.Exchanges index kid coerced now tree) →
      Works site (do
        let coerced ← orRaise (.ok coerced)
        noteConversion kid coerced
        replace ⟨site.id, index⟩ coerced
        return coerced) tree fun coerced tree => site.Exchanges index kid coerced now tree :=
    fun replaced => .bindRun (fun _ _ => rfl) (.bindAside (aside_noteConversion kid _) fun _ =>
      .bind replaced fun _ _ keeps exchanges => .pure keeps exchanges)
  refine .bindOccupant found (.bindAside aside_environment fun environment => .bindBuild ?_)
  rcases environment.enforce_cases now kid ty with
    ⟨_, same⟩ | ⟨_, _, retyped⟩ | ⟨tag, binding, _, _, converted⟩ | ⟨_, _, failed⟩
  · rw [same]
    exact settled (kept_works keeps (.refl site kid now) found keeps)
  · rw [retyped]
    exact settled (kept_works keeps (keeps.sparesModify member _) found
      (keeps.setType (Tree.reaches_kid member) ty))
  · rw [converted]
    exact settled (convert_works keeps found tag ty binding)
  · rw [failed]
    exact .bindBroken (keeps.breaks _)

/-! ### Children in slots -/

theorem Works.bindVisitSlot {next : Ty → Check β} {post : β → Tree → Prop}
    (masters : Masters site.room visit) (keeps : site.Keeps now)
    (slotted : (now.get site.id).Slotted site.id slots) (member : slot ∈ slots)
    (rest : ∀ ty tree, site.Keeps tree → tree.get site.id = now.get site.id →
      Works site (next ty) tree post) :
    Works site (occupant slot >>= fun node => visit node >>= next) now post := by
  obtain ⟨kid, same, found⟩ := now.occupied slotted member
  rw [same]
  refine .bindOccupant found ?_
  exact .bind (.check masters keeps (Tree.mem_childIds_of_childAt? found))
    fun ty tree keeps spares => rest ty tree keeps spares.top

theorem visitAll_works (masters : Masters site.room visit) (keeps : site.Keeps now)
    (slotted : (now.get site.id).Slotted site.id slots) :
    Works site (visitAll visit slots) now fun types tree =>
      tree.get site.id = now.get site.id ∧ types.length = slots.length := by
  induction slots generalizing now with
  | nil => exact .pure keeps ⟨rfl, rfl⟩
  | cons slot rest ih =>
      refine .bindVisitSlot masters keeps slotted List.mem_cons_self fun ty tree keeps top => ?_
      have later : (tree.get site.id).Slotted site.id rest := by
        rw [top]
        exact fun slot member => slotted slot (List.mem_cons_of_mem _ member)
      refine .bind (ih keeps later) fun types last keeps ⟨topLast, length⟩ => .pure keeps ⟨?_, ?_⟩
      · rw [topLast, top]
      · rw [List.length_cons, List.length_cons, length]

theorem coerceIn_works (keeps : site.Keeps now)
    (slotted : (now.get site.id).Slotted site.id slots) (member : slot ∈ slots) (ty : Ty) :
    Works site (coerce slot ty) now fun _ tree =>
      (now.get site.id).Resembles (tree.get site.id) := by
  obtain ⟨kid, same, found⟩ := now.occupied slotted member
  rw [same]
  exact (coerce_works keeps found ty).mono fun _ _ _ exchanges => exchanges.resembles

theorem coerceEach_works {pairs : List (Slot × Ty)} (keeps : site.Keeps now)
    (slotted : (now.get site.id).Slotted site.id (pairs.map Prod.fst)) :
    Works site (coerceEach pairs) now fun _ tree =>
      (now.get site.id).Resembles (tree.get site.id) := by
  induction pairs generalizing now with
  | nil => exact .pure keeps (.refl _)
  | cons pair rest ih =>
      refine .bind (coerceIn_works keeps slotted List.mem_cons_self pair.2) ?_
      intro _ tree keeps resembles
      have later : (tree.get site.id).Slotted site.id (rest.map Prod.fst) :=
        Node.Slotted.resembles (fun slot member => slotted slot (List.mem_cons_of_mem _ member))
          resembles
      exact (ih keeps later).mono fun _ _ _ => resembles.trans

theorem coerceAll_works (keeps : site.Keeps now)
    (slotted : (now.get site.id).Slotted site.id slots) (ty : Ty) :
    Works site (coerceAll ty slots) now fun _ tree =>
      (now.get site.id).Resembles (tree.get site.id) := by
  have same : (slots.map fun slot => (slot, ty)).map Prod.fst = slots := by
    rw [List.map_map]
    exact List.map_id slots
  rw [coerceAll_eq]
  exact coerceEach_works keeps (by rwa [same])

def Reachable (resolution : Resolution) (indices : List Nat) (count : Nat) : Prop :=
  ∀ index ∈ indices, index < count ∧ index < resolution.params.length

theorem convertArguments_works {resolution : Resolution} {indices : List Nat}
    (keeps : site.Keeps now) (slotted : (now.get site.id).Slotted site.id slots)
    (covered : Reachable resolution indices slots.length) :
    Works site (convertArguments slots resolution indices) now fun _ tree =>
      (now.get site.id).Resembles (tree.get site.id) := by
  induction indices generalizing now with
  | nil => exact .pure keeps (.refl _)
  | cons index rest ih =>
      obtain ⟨inSlots, inParams⟩ := covered index List.mem_cons_self
      rw [convertArguments, List.getElem?_eq_getElem inSlots, List.getElem?_eq_getElem inParams]
      refine .bind (coerceIn_works keeps slotted (List.getElem_mem inSlots) _) ?_
      intro _ tree keeps resembles
      refine (ih keeps (slotted.resembles resembles) ?_).mono fun _ _ _ => resembles.trans
      exact fun other member => covered other (List.mem_cons_of_mem _ member)

theorem resolve_reachable {environment : Environment} {receiver args : List Ty}
    {candidates : List MemberId} {resolution : Resolution}
    (found : (environment.resolve receiver candidates args).found = some resolution) :
    Reachable resolution resolution.coercions args.length := by
  obtain ⟨_, expected, bindings, attempted⟩ := Environment.resolve_attempted found
  intro index member
  obtain ⟨arg, param, isArg, isParam, _⟩ := attempted.coerced member
  exact ⟨(List.getElem?_eq_some_iff.mp isArg).1, (List.getElem?_eq_some_iff.mp isParam).1⟩

/-! ### Children under labels -/

theorem enforce_works (masters : Masters site.room visit) (keeps : site.Keeps now)
    (label : Label) (ty : Ty) : Works site (enforce visit site.id label ty) now fun coerced tree =>
      site.Swaps label coerced now tree := by
  refine .bindRequiredSlot keeps fun index isIndex => ?_
  obtain ⟨kid, found⟩ := Node.childAt?_of_lt (Node.lt_of_indexOf? isIndex)
  refine .bindOccupant found ?_
  refine .bind (.check masters keeps (Tree.mem_childIds_of_childAt? found)) ?_
  intro _ tree keepsNew spares
  have isKid : tree.childAt? site.id index = some kid := by rwa [spares.childAt?]
  refine (coerce_works keepsNew isKid ty).mono fun _ _ _ exchanges => ?_
  exact (exchanges.after spares).swaps keeps isIndex found

theorem gathers_some (keeps : site.Keeps now) (found : now.child? site.id .param = some kid) :
    site.Keeps ((now.sequence .list [kid]).2.setChild site.id .param now.nodes.size) ∧
      site.Gathers now.nodes.size now
        ((now.sequence .list [kid]).2.setChild site.id .param now.nodes.size) := by
  obtain ⟨index, isIndex, isKid⟩ := Node.indexOf?_of_child? found
  have top : (now.sequence .list [kid]).2.get site.id = now.get site.id :=
    now.get_alloc_old _ keeps.bound
  have keepsNew : site.Keeps
      ((now.sequence .list [kid]).2.replaceAt site.id index now.nodes.size) :=
    keeps.wrap isKid rfl (.inr rfl)
  have bound := keepsNew.bound
  rw [Tree.replaceAt, Tree.size_modify] at bound
  have topNew : ((now.sequence .list [kid]).2.replaceAt site.id index now.nodes.size).get site.id =
      (now.get site.id).replaceAt index now.nodes.size := by
    rw [Tree.replaceAt, Tree.get_modify_self _ _ bound, top]
  rw [Tree.setChild_of_indexOf? (by rw [top]; exact isIndex)]
  refine ⟨keepsNew, ?_, ?_, fun {other} different => ?_, ?_⟩
  · rw [Tree.child?, topNew]
    exact Node.child?_replaceAt_self isIndex
  · rw [Tree.tag, Tree.replaceAt, Tree.get_modify_other _ _ (Nat.ne_of_gt keeps.bound)]
    exact congrArg Node.tag (now.get_alloc_new _)
  · rw [Tree.child?, topNew, Tree.child?]
    exact Node.child?_replaceAt_other isIndex different
  · rw [topNew]
    exact (Node.replaceAt_resembles _ _ _).toSameKind

theorem gathers_none (keeps : site.Keeps now) (absent : now.child? site.id .param = none) :
    site.Keeps ((now.sequence .list []).2.setChild site.id .param now.nodes.size) ∧
      site.Gathers now.nodes.size now
        ((now.sequence .list []).2.setChild site.id .param now.nodes.size) := by
  have top : (now.sequence .list []).2.get site.id = now.get site.id :=
    now.get_alloc_old _ keeps.bound
  have grown : site.Keeps (now.sequence .list []).2 := keeps.adds (now.alloc_adds _)
  have push : ((now.sequence .list []).2.get site.id).setChild .param now.nodes.size =
      (now.get site.id).push (some .param) now.nodes.size := by
    rw [top, Node.setChild, Node.indexOf?_of_child?_none absent]
  have topNew : ((now.sequence .list []).2.setChild site.id .param now.nodes.size).get site.id =
      (now.get site.id).push (some .param) now.nodes.size := by
    rw [Tree.setChild, Tree.get_modify_self _ _ grown.bound, push]
  have parts : site.Parts (now.sequence .list []).2 (now.childIds site.id ++ [now.nodes.size]) := by
    have old : site.Parts now (now.childIds site.id ++ ([] ++ [])) := by
      simpa using keeps.parts
    exact old.group keeps rfl (.inr rfl)
  refine ⟨grown.rearrange parts ?_ (by rw [push, top]; rfl) (by rw [push]; exact keeps.single),
    ?_, ?_, fun {other} different => ?_, ?_⟩
  · rw [push, Node.push, List.map_append]
    rfl
  · rw [Tree.child?, topNew]
    exact Node.child?_push_self absent
  · rw [Tree.tag, Tree.setChild, Tree.get_modify_other _ _ (Nat.ne_of_gt keeps.bound)]
    exact congrArg Node.tag (now.get_alloc_new _)
  · rw [Tree.child?, topNew, Tree.child?]
    exact Node.child?_push_other different
  · rw [topNew]
    exact ⟨rfl, rfl⟩

theorem argumentList_works (keeps : site.Keeps now) :
    Works site (argumentList site.id) now fun list tree => site.Gathers list now tree := by
  have gathers : site.Keeps (now.argumentList site.id .param).2 ∧
      site.Gathers (now.argumentList site.id .param).1 now (now.argumentList site.id .param).2 := by
    rw [Tree.argumentList]
    split
    · rename_i kid found
      split
      · rename_i isList
        exact ⟨keeps, found, isList, fun _ => rfl, ⟨rfl, rfl⟩⟩
      · exact gathers_some keeps found
    · rename_i absent
      exact gathers_none keeps absent
  exact .build gathers.1 gathers.2

end Check

end ScriptTyping
