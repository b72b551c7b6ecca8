import ScriptTyping.Proofs.Outcome.Reach
import ScriptTyping.Proofs.Ownership.Height

/-!
A place in an arena at which a rule works. The rule owns the branch that stands there: it may change
the branch and add to it, as long as no node comes to stand in two places and every child can be
checked with the visits that are left; nothing else in the arena changes.
-/

namespace ScriptTyping

/-! ### Children of a node -/

theorem Node.child?_eq (node : Node) (label : Label) :
    node.child? label = (node.indexOf? label).bind node.childAt? := by
  unfold child? indexOf? childAt?
  induction node.children with
  | nil => rfl
  | cons child rest ih =>
      rw [List.find?_cons, List.findIdx?_cons]
      split
      · simp_all
      · simp_all [Option.bind_map]

theorem Node.childAt?_isSome_iff (node : Node) (index : Nat) :
    (node.childAt? index).isSome ↔ index < node.children.length := by
  simp [childAt?]

theorem Node.lt_of_indexOf? {node : Node} {label : Label} {index : Nat}
    (found : node.indexOf? label = some index) : index < node.children.length :=
  (List.findIdx?_eq_some_iff_getElem.mp found).1

theorem Tree.mem_childIds_of_childAt? {tree : Tree} {id kid : NodeId} {index : Nat}
    (found : tree.childAt? id index = some kid) : kid ∈ tree.childIds id := by
  obtain ⟨child, isChild, rfl⟩ := Option.map_eq_some_iff.mp found
  exact List.mem_map_of_mem (List.mem_of_getElem? isChild)

theorem Tree.mem_childIds_of_child? {tree : Tree} {id kid : NodeId} {label : Label}
    (found : tree.child? id label = some kid) : kid ∈ tree.childIds id := by
  obtain ⟨child, isChild, rfl⟩ := Option.map_eq_some_iff.mp found
  exact List.mem_map_of_mem (List.mem_of_find?_eq_some isChild)

theorem map_modify_const {α : Type} (children : List Child) (index : Nat) {view : Child → α}
    {change : Child → Child} {value : α} (sets : ∀ child, view (change child) = value) :
    (children.modify index change).map view = (children.map view).set index value := by
  refine List.ext_getElem? fun position => ?_
  rw [List.getElem?_map, List.getElem?_modify, List.getElem?_set, List.length_map,
    List.getElem?_map]
  by_cases here : index = position
  · subst here
    simp only [if_true]
    split
    · rename_i inRange
      simp [inRange, sets]
    · rename_i beyond
      simp [Nat.not_lt.mp beyond]
  · simp [here]

theorem Node.children_replaceAt (node : Node) (index : Nat) (kid : NodeId) :
    (node.replaceAt index kid).children.map Child.node =
      (node.children.map Child.node).set index kid :=
  map_modify_const node.children index fun _ => rfl

theorem map_modify_same {α : Type} (children : List Child) (index : Nat) {view : Child → α}
    {change : Child → Child} (same : ∀ child, view (change child) = view child) :
    (children.modify index change).map view = children.map view := by
  refine List.ext_getElem? fun position => ?_
  rw [List.getElem?_map, List.getElem?_modify, List.getElem?_map]
  cases children[position]? with
  | none => rfl
  | some child =>
      by_cases here : index = position
      · simp [here, same]
      · simp [here]

theorem Node.labels_replaceAt (node : Node) (index : Nat) (kid : NodeId) :
    (node.replaceAt index kid).children.map Child.label = node.children.map Child.label :=
  map_modify_same node.children index fun _ => rfl

theorem Node.nodes_relabel (node : Node) (label other : Label) :
    (node.relabel label other).children.map Child.node = node.children.map Child.node := by
  unfold relabel
  split
  · exact map_modify_same node.children _ fun _ => rfl
  · rfl

theorem Node.nodes_removeChild (node : Node) (label : Label) :
    ((node.removeChild label).children.map Child.node).Sublist (node.children.map Child.node) := by
  unfold removeChild
  split
  · exact (List.eraseIdx_sublist _ _).map Child.node
  · exact .refl _

/-! ### Places -/

/-- The arena and the branch as a rule finds them, with the visits that each child may take. -/
structure Site where
  start : Tree
  branch : Branch
  room : Nat

theorem Failure.height_leaf (failure : Failure) (label : Option Label) (levels : Nat) :
    (failure.leaf label).height false ≤ levels :=
  Branch.height_weightless (.inl rfl) fun kid member => by simp [Failure.leaf] at member

namespace Site

def id (site : Site) : NodeId := site.branch.id

structure Fits (site : Site) (after : Branch) : Prop where
  single : after.node.tag.isCompound = false
  kids : ∀ kid ∈ after.kids, kid.height false ≤ site.room

def Keeps (site : Site) (now : Tree) : Prop :=
  ∃ after, site.start.Turns site.branch now after ∧ site.Fits after

/-- Whether an arena is one in which the rule may fail: the rest of the arena is as it was, and a
new leaf stands for the error. -/
structure Breaks (site : Site) (now : Tree) (failure : Failure) : Prop where
  size : site.start.nodes.size ≤ now.nodes.size
  frame : ∀ position, position < site.start.nodes.size → position ∉ site.branch.ids →
    now.get position = site.start.get position
  root : now.root = site.start.root
  source : now.source = site.start.source
  fresh : site.start.nodes.size ≤ failure.replacement
  leaf : ∀ label, now.Stands (failure.leaf label)

def HasKid (site : Site) (now : Tree) (kid : Branch) : Prop :=
  ∃ (after : Branch) (index : Nat), site.start.Turns site.branch now after ∧ site.Fits after ∧
    after.kids[index]? = some kid

structure Spares (site : Site) (kid : NodeId) (old new : Tree) : Prop where
  top : new.get site.id = old.get site.id
  others : ∀ other ∈ old.childIds site.id, other ≠ kid → new.get other = old.get other

variable {site : Site} {old now new : Tree} {inner newInner : Branch} {kid : NodeId}
  {failure : Failure}

theorem Keeps.bound (keeps : site.Keeps now) : site.id < now.nodes.size := by
  obtain ⟨after, turns, _⟩ := keeps
  have bound := turns.stands.holds.bound
  rwa [turns.id] at bound

theorem Keeps.refl {tree : Tree} {branch : Branch} {room : Nat} (stands : tree.Stands branch)
    (fits : (Site.mk tree branch room).Fits branch) : (Site.mk tree branch room).Keeps tree :=
  ⟨branch, .refl stands, fits⟩

theorem Keeps.size (keeps : site.Keeps now) : site.start.nodes.size ≤ now.nodes.size := by
  obtain ⟨_, turns, _⟩ := keeps
  exact turns.size

theorem Keeps.hasKid (keeps : site.Keeps now) (member : kid ∈ now.childIds site.id) :
    ∃ inner, inner.id = kid ∧ site.HasKid now inner := by
  obtain ⟨after, turns, fits⟩ := keeps
  rw [Site.id, ← turns.id] at member
  obtain ⟨inner, isKid, same⟩ := turns.stands.holds.mem_childIds member
  obtain ⟨index, found⟩ := List.mem_iff_getElem?.mp isKid
  exact ⟨inner, same, after, index, turns, fits, found⟩

theorem Keeps.adds (keeps : site.Keeps old) (adds : old.Adds new) : site.Keeps new := by
  obtain ⟨after, turns, fits⟩ := keeps
  refine ⟨after, ⟨turns.stands.adds adds, turns.id, turns.label, turns.note, turns.fresh, ?_,
    Nat.le_trans turns.size adds.size, adds.root.trans turns.root,
    adds.source.trans turns.source⟩, fits⟩
  intro position bound outside
  rw [adds.get position (Nat.lt_of_lt_of_le bound turns.size), turns.frame position bound outside]

theorem breaks_of_turns {after : Branch} (turns : site.start.Turns site.branch old after)
    (error : CheckError) :
    site.Breaks (Failure.ofError old error).2 (Failure.ofError old error).1 := by
  have leaf : ∀ label, (Failure.ofError old error).2.Stands
      ((Failure.ofError old error).1.leaf label) := fun label => old.stands_alloc rfl label
  have adds := old.alloc_adds {
    tag := .error, span := error.span, text := some error.message, ty := some .never, done := true }
  refine ⟨Nat.le_trans turns.size adds.size, fun position bound outside => ?_,
    adds.root.trans turns.root, adds.source.trans turns.source, turns.size, leaf⟩
  exact (adds.get position (Nat.lt_of_lt_of_le bound turns.size)).trans
    (turns.frame position bound outside)

theorem Keeps.breaks (keeps : site.Keeps old) (error : CheckError) :
    site.Breaks (Failure.ofError old error).2 (Failure.ofError old error).1 := by
  obtain ⟨_, turns, _⟩ := keeps
  exact breaks_of_turns turns error

theorem HasKid.stands (hasKid : site.HasKid now inner) : now.Stands inner := by
  obtain ⟨after, index, turns, _, found⟩ := hasKid
  exact turns.stands.kid (List.mem_of_getElem? found)

theorem HasKid.height (hasKid : site.HasKid now inner) : inner.height false ≤ site.room := by
  obtain ⟨after, index, _, fits, found⟩ := hasKid
  exact fits.kids inner (List.mem_of_getElem? found)

theorem HasKid.notMem (hasKid : site.HasKid now inner) : site.id ∉ inner.ids := by
  obtain ⟨after, index, turns, _, found⟩ := hasKid
  rw [Site.id, ← turns.id]
  exact turns.stands.id_notMem (List.mem_of_getElem? found)

theorem HasKid.apart (hasKid : site.HasKid now inner) {other : NodeId}
    (member : other ∈ now.childIds site.id) (different : other ≠ inner.id) :
    other ∉ inner.ids ∧ other < now.nodes.size := by
  obtain ⟨after, index, turns, _, found⟩ := hasKid
  rw [Site.id, ← turns.id] at member
  obtain ⟨kid, isKid, rfl⟩ := turns.stands.holds.mem_childIds member
  obtain ⟨place, foundOther⟩ := List.mem_iff_getElem?.mp isKid
  have places : index ≠ place := by
    rintro rfl
    exact different (congrArg Branch.id (Option.some.inj (foundOther.symm.trans found)))
  refine ⟨fun inside => ?_, (turns.stands.kid isKid).holds.bound⟩
  exact turns.stands.disjoint found foundOther places inside kid.id_mem_ids

/-- Work inside a child is work in the place. -/
theorem HasKid.inside (hasKid : site.HasKid old inner) (turns : old.Turns inner new newInner)
    (height : newInner.height false ≤ site.room) :
    site.Keeps new ∧ site.Spares inner.id old new := by
  have outside := hasKid.notMem
  have apart := @hasKid.apart
  obtain ⟨after, index, outer, fits, found⟩ := hasKid
  refine ⟨⟨after.setKid index newInner, outer.trans (.inside outer.stands found turns), fits.single,
    fun kid member => ?_⟩, turns.frame site.id ?_ outside, fun other member different => ?_⟩
  · rcases List.mem_or_eq_of_mem_set member with isOld | rfl
    · exact fits.kids kid isOld
    · exact height
  · rw [Site.id, ← outer.id]
    exact outer.stands.holds.bound
  · obtain ⟨notInside, bound⟩ := apart member different
    exact turns.frame other bound notInside

theorem HasKid.breaks {room : Nat} (hasKid : site.HasKid old inner)
    (breaks : (Site.mk old inner room).Breaks new failure) : site.Breaks new failure := by
  obtain ⟨after, index, outer, _, found⟩ := hasKid
  refine ⟨Nat.le_trans outer.size breaks.size, ?_, breaks.root.trans outer.root,
    breaks.source.trans outer.source, Nat.le_trans outer.size breaks.fresh, breaks.leaf⟩
  intro position bound outside
  have outsideInner : position ∉ inner.ids := by
    intro inside
    rcases outer.fresh position (Branch.ids_subset (List.mem_of_getElem? found) inside) with
      isOld | later
    · exact outside isOld
    · exact Nat.not_lt.mpr later bound
  rw [breaks.frame position (Nat.lt_of_lt_of_le bound outer.size) outsideInner,
    outer.frame position bound outside]

theorem Keeps.kidAt (keeps : site.Keeps now) {index : Nat}
    (found : now.childAt? site.id index = some kid) :
    ∃ after inner, inner.id = kid ∧ site.start.Turns site.branch now after ∧ site.Fits after ∧
      after.kids[index]? = some inner := by
  obtain ⟨after, turns, fits⟩ := keeps
  rw [Site.id, ← turns.id, turns.stands.holds.childAt?_eq, Option.map_eq_some_iff] at found
  obtain ⟨inner, isKid, same⟩ := found
  exact ⟨after, inner, same, turns, fits, isKid⟩

theorem recover {after : Branch} {index room : Nat}
    (turns : site.start.Turns site.branch now after) (fits : site.Fits after)
    (found : after.kids[index]? = some inner)
    (breaks : (Site.mk now inner room).Breaks new failure) :
    new.get site.id = now.get site.id ∧
      site.Keeps (new.replaceAt site.id index failure.replacement) := by
  have notTop := turns.stands.id_notMem (List.mem_of_getElem? found)
  have replaced : now.Turns after (new.replaceAt after.id index failure.replacement)
      (after.setKid index (failure.leaf inner.label)) := by
    have label : (failure.leaf inner.label).label = inner.label := rfl
    refine .replaceAt turns.stands found label (breaks.leaf inner.label) ?_ breaks.frame
      breaks.size breaks.root breaks.source
    intro position inside
    rw [Failure.leaf, Branch.ids_eq, Branch.kids_mk, List.flatMap_nil, List.mem_singleton] at inside
    exact .inr (inside ▸ breaks.fresh)
  rw [Site.id, ← turns.id]
  refine ⟨breaks.frame _ turns.stands.holds.bound notTop, _, turns.trans replaced, fits.single, ?_⟩
  intro kid member
  rcases List.mem_or_eq_of_mem_set member with isOld | rfl
  · exact fits.kids kid isOld
  · exact Failure.height_leaf failure inner.label site.room

/-! ### Parts of a place -/

structure Owns (site : Site) (now : Tree) (part : Branch) : Prop where
  stands : now.Stands part
  height : part.height false ≤ site.room
  owned : ∀ position ∈ part.ids, position ≠ site.id ∧
    (position ∈ site.branch.ids ∨ site.start.nodes.size ≤ position)

structure Parts (site : Site) (now : Tree) (ids : List NodeId) : Prop where
  each : ∀ id ∈ ids, ∃ part, part.id = id ∧ site.Owns now part
  apart : ids.Pairwise fun first second =>
    ∀ position, now.Reaches first position → ¬ now.Reaches second position

variable {ids others front back : List NodeId}

theorem Parts.branches (parts : site.Parts now ids) : ∃ branches : List Branch,
    branches.map Branch.id = ids ∧ (∀ part ∈ branches, site.Owns now part) ∧
      (branches.map Branch.ids).Pairwise List.Disjoint := by
  obtain ⟨each, apart⟩ := parts
  induction ids with
  | nil => exact ⟨[], rfl, by simp, .nil⟩
  | cons id rest ih =>
      obtain ⟨part, rfl, owns⟩ := each id List.mem_cons_self
      rw [List.pairwise_cons] at apart
      obtain ⟨branches, rfl, all, disjoint⟩ :=
        ih (fun other member => each other (List.mem_cons_of_mem _ member)) apart.2
      refine ⟨part :: branches, rfl, List.forall_mem_cons.mpr ⟨owns, all⟩,
        List.pairwise_cons.mpr ⟨?_, disjoint⟩⟩
      rw [List.forall_mem_map]
      intro other member position inside insideOther
      exact apart.1 other.id (List.mem_map_of_mem member) position
        (owns.stands.holds.reaches inside) ((all other member).stands.holds.reaches insideOther)

theorem Parts.ofBranches {branches : List Branch} (all : ∀ part ∈ branches, site.Owns now part)
    (disjoint : (branches.map Branch.ids).Pairwise List.Disjoint) :
    site.Parts now (branches.map Branch.id) := by
  refine ⟨List.forall_mem_map.mpr fun part member => ⟨part, rfl, all part member⟩, ?_⟩
  refine List.pairwise_map.mpr ((List.pairwise_map.mp disjoint).imp_of_mem ?_)
  intro first second isFirst isSecond disjoint position reaches reachesToo
  exact disjoint (reaches.mem_ids (all first isFirst).stands.holds)
    (reachesToo.mem_ids (all second isSecond).stands.holds)

theorem Keeps.parts (keeps : site.Keeps now) : site.Parts now (now.childIds site.id) := by
  obtain ⟨after, turns, fits⟩ := keeps
  rw [Site.id, ← turns.id, turns.stands.holds.childIds_eq]
  refine .ofBranches (fun part isKid => ?_) (List.pairwise_map.mpr turns.stands.apart)
  refine ⟨turns.stands.kid isKid, fits.kids part isKid, fun position inside => ⟨?_, ?_⟩⟩
  · rintro rfl
    rw [Site.id, ← turns.id] at inside
    exact turns.stands.id_notMem isKid inside
  · exact turns.fresh position (Branch.ids_subset isKid inside)

theorem Parts.some (parts : site.Parts now ids) (chosen : others.Subperm ids) :
    site.Parts now others := by
  refine ⟨fun id member => parts.each id (chosen.subset member), ?_⟩
  obtain ⟨same, perm, sublist⟩ := chosen
  refine (parts.apart.sublist sublist).perm perm ?_
  exact fun disjoint position reaches reachesToo => disjoint position reachesToo reaches

theorem Parts.unfold {id : NodeId} (parts : site.Parts now (front ++ id :: back)) :
    site.Parts now (front ++ (now.childIds id ++ back)) := by
  obtain ⟨branches, same, all, disjoint⟩ := parts.branches
  obtain ⟨before, rest, rfl, rfl, sameRest⟩ := List.map_eq_append_iff.mp same
  obtain ⟨part, behind, rfl, rfl, rfl⟩ := List.map_eq_cons_iff.mp sameRest
  have owns : site.Owns now part := all part (by simp)
  have whole : (part.kids.map Branch.ids).flatten ⊆ part.ids := by
    intro position inside
    rw [← List.flatMap_def] at inside
    rw [Branch.ids_eq]
    exact List.mem_cons_of_mem _ inside
  rw [owns.stands.holds.childIds_eq, ← List.map_append, ← List.map_append]
  refine .ofBranches (fun other member => ?_) ?_
  · rw [List.mem_append, List.mem_append] at member
    rcases member with isFront | isKid | isBack
    · exact all other (by simp [isFront])
    · exact ⟨owns.stands.kid isKid, Nat.le_trans (Branch.height_kid false isKid) owns.height,
        fun position inside => owns.owned position (Branch.ids_subset isKid inside)⟩
    · exact all other (by simp [isBack])
  · simp only [List.map_append, List.map_cons, List.pairwise_append, List.pairwise_cons,
      List.mem_append, List.mem_cons] at disjoint ⊢
    obtain ⟨apartFront, ⟨apartPart, apartBack⟩, apartBoth⟩ := disjoint
    have below : ∀ ids ∈ part.kids.map Branch.ids, ids ⊆ part.ids :=
      fun ids isKid position inside => whole (List.mem_flatten.mpr ⟨ids, isKid, inside⟩)
    refine ⟨apartFront, ⟨List.pairwise_map.mpr owns.stands.apart, apartBack, ?_⟩, ?_⟩
    · exact fun ids isKid other isBack =>
        List.disjoint_of_subset_left (below ids isKid) (apartPart other isBack)
    · rintro ids isFront other (isKid | isBack)
      · exact List.disjoint_of_subset_right (below other isKid)
          (apartBoth ids isFront part.ids (.inl rfl))
      · exact apartBoth ids isFront other (.inr isBack)

theorem Parts.splice (parts : site.Parts now ids) : site.Parts now (now.splice ids) := by
  -- what is spliced already stands in front, as parts are apart from one another as a whole
  have all : ∀ front, site.Parts now (front ++ ids) → site.Parts now (front ++ now.splice ids) := by
    clear parts
    induction ids with
    | nil => exact fun _ parts => parts
    | cons id rest ih =>
        intro front parts
        have spliced : now.splice (id :: rest) =
            (if now.tag id = .list then now.childIds id else [id]) ++ now.splice rest := rfl
        rw [spliced]
        split
        · rw [← List.append_assoc]
          exact ih _ (by rw [List.append_assoc]; exact parts.unfold)
        · rw [← List.append_assoc]
          exact ih _ (by simpa using parts)
  exact all [] parts

theorem Owns.adds {part : Branch} (owns : site.Owns old part) (adds : old.Adds new) :
    site.Owns new part :=
  ⟨owns.stands.adds adds, owns.height, owns.owned⟩

theorem Owns.under {part : Branch} (owns : site.Owns now part) (label : Option Label) :
    site.Owns now (part.under label) :=
  ⟨owns.stands.under label, by rw [Branch.height_under]; exact owns.height,
    by rw [Branch.ids_under]; exact owns.owned⟩

theorem relabel {branches : List Branch} {children : List Child}
    (same : children.map Child.node = branches.map Branch.id)
    (all : ∀ part ∈ branches, site.Owns now part) :
    ∃ kids : List Branch, kids.map Branch.child = children ∧
      kids.map Branch.ids = branches.map Branch.ids ∧ ∀ kid ∈ kids, site.Owns now kid := by
  induction branches generalizing children with
  | nil =>
      rw [List.map_nil, List.map_eq_nil_iff] at same
      exact ⟨[], same.symm, rfl, by simp⟩
  | cons part rest ih =>
      obtain ⟨child, others, rfl, node, sameRest⟩ := List.map_eq_cons_iff.mp same
      obtain ⟨kids, rfl, ids, owned⟩ :=
        ih sameRest fun other member => all other (List.mem_cons_of_mem _ member)
      refine ⟨part.under child.label :: kids, ?_, ?_, List.forall_mem_cons.mpr ⟨?_, owned⟩⟩
      · rw [List.map_cons, Branch.child, Branch.label_under, Branch.id_under, ← node]
      · rw [List.map_cons, List.map_cons, Branch.ids_under, ids]
      · exact (all part List.mem_cons_self).under _

theorem Keeps.owns_alloc (keeps : site.Keeps now) {node : Node} {kids : List Branch}
    (children : kids.map Branch.child = node.children) (owned : ∀ kid ∈ kids, site.Owns now kid)
    (apart : (kids.map Branch.ids).Pairwise List.Disjoint)
    (weightless : node.done = true ∨ node.tag = .list) :
    site.Owns (now.alloc node).2 (.mk none now.nodes.size node kids) := by
  refine ⟨Tree.stands_node (fun kid member => (owned kid member).stands)
    (List.pairwise_map.mp apart) children.symm none, ?_, fun position inside => ?_⟩
  · exact Branch.height_weightless weightless fun kid member => (owned kid member).height
  · rw [Branch.ids_eq, List.mem_cons, List.mem_flatMap] at inside
    rcases inside with rfl | ⟨kid, member, inside⟩
    · exact ⟨Nat.ne_of_gt keeps.bound, .inr keeps.size⟩
    · exact (owned kid member).owned position inside

/-- Neighbours in a list of separate parts are one part, with a node that is in none of them. -/
theorem pairwise_disjoint_group {before inner behind : List (List NodeId)} {id : NodeId}
    (disjoint : (before ++ (inner ++ behind)).Pairwise List.Disjoint)
    (new : ∀ part ∈ before ++ behind, id ∉ part) :
    (before ++ (id :: inner.flatten) :: behind).Pairwise List.Disjoint := by
  simp only [List.pairwise_append, List.pairwise_cons, List.mem_append, List.mem_cons]
    at disjoint new ⊢
  obtain ⟨apartFront, ⟨_, apartBack, apartRest⟩, apartBoth⟩ := disjoint
  refine ⟨apartFront, ⟨fun other isBack => ?_, apartBack⟩, ?_⟩
  · refine List.disjoint_cons_left.mpr ⟨new other (.inr isBack), fun position inside => ?_⟩
    obtain ⟨part, isInner, inPart⟩ := List.mem_flatten.mp inside
    exact apartRest part isInner other isBack inPart
  · rintro other isFront last (rfl | isBack)
    · refine List.disjoint_cons_right.mpr ⟨new other (.inl isFront), fun position inOther => ?_⟩
      intro inside
      obtain ⟨part, isInner, inPart⟩ := List.mem_flatten.mp inside
      exact apartBoth other isFront part (.inl isInner) inOther inPart
    · exact apartBoth other isFront last (.inr isBack)

/-- A new node over some of the parts, in their place. -/
theorem Parts.group (parts : site.Parts now (front ++ (ids ++ back))) (keeps : site.Keeps now)
    {node : Node} (children : node.children.map Child.node = ids)
    (weightless : node.done = true ∨ node.tag = .list) :
    site.Parts (now.alloc node).2 (front ++ now.nodes.size :: back) := by
  obtain ⟨branches, same, all, disjoint⟩ := parts.branches
  obtain ⟨before, rest, rfl, rfl, sameRest⟩ := List.map_eq_append_iff.mp same
  obtain ⟨inner, behind, rfl, sameInner, rfl⟩ := List.map_eq_append_iff.mp sameRest
  have adds := now.alloc_adds node
  obtain ⟨kids, isChildren, sameIds, owned⟩ := relabel (children.trans sameInner.symm)
    fun part member => all part (by simp [member])
  rw [List.map_append, List.map_append] at disjoint
  have apart : (kids.map Branch.ids).Pairwise List.Disjoint := by
    rw [sameIds]
    exact disjoint.sublist ((List.sublist_append_left _ _).trans (List.sublist_append_right _ _))
  let top : Branch := .mk none now.nodes.size node kids
  have ids : top.ids = now.nodes.size :: (inner.map Branch.ids).flatten := by
    rw [Branch.ids_eq, Branch.id_mk, Branch.kids_mk, List.flatMap_def, sameIds]
  have goal : site.Parts (now.alloc node).2 ((before ++ top :: behind).map Branch.id) := by
    refine .ofBranches (fun part member => ?_) ?_
    · rw [List.mem_append, List.mem_cons] at member
      rcases member with isFront | rfl | isBack
      · exact (all part (by simp [isFront])).adds adds
      · exact keeps.owns_alloc isChildren owned apart weightless
      · exact (all part (by simp [isBack])).adds adds
    · rw [List.map_append, List.map_cons, ids]
      refine pairwise_disjoint_group disjoint ?_
      rw [← List.map_append, List.forall_mem_map]
      intro part member inside
      have isPart : part ∈ before ++ (inner ++ behind) := by
        rcases List.mem_append.mp member with isFront | isBack
        · simp [isFront]
        · simp [isBack]
      exact Nat.lt_irrefl _ ((all part isPart).stands.holds.ids_bound inside)
  rw [List.map_append, List.map_cons] at goal
  exact goal

/-- The parts become the children of the node that the rule works on. -/
theorem Keeps.rearrange (keeps : site.Keeps now) (parts : site.Parts now ids)
    {change : Node → Node} (children : (change (now.get site.id)).children.map Child.node = ids)
    (note : (change (now.get site.id)).note = (now.get site.id).note)
    (single : (change (now.get site.id)).tag.isCompound = false) :
    site.Keeps (now.modify site.id change) := by
  obtain ⟨branches, rfl, all, disjoint⟩ := parts.branches
  obtain ⟨kids, isChildren, sameIds, owned⟩ := relabel children all
  obtain ⟨after, turns, _⟩ := keeps
  have bound : site.id < now.nodes.size := by
    rw [Site.id, ← turns.id]
    exact turns.stands.holds.bound
  have node : now.get site.id = after.node := by
    rw [Site.id, ← turns.id]
    exact turns.stands.holds.get_eq
  refine ⟨.mk after.label site.id (change (now.get site.id)) kids, ⟨⟨.mk ?_ ?_ isChildren.symm ?_,
    ?_⟩, rfl, turns.label, ?_, ?_, ?_, ?_, turns.root, turns.source⟩, single,
    fun kid member => (owned kid member).height⟩
  · rw [Tree.size_modify]
    exact bound
  · exact now.get_modify_self change bound
  · intro kid member
    refine (owned kid member).stands.holds.frame (by simp) fun position inside => ?_
    exact now.get_modify_other change ((owned kid member).owned position inside).1
  · rw [Branch.ids_eq, List.nodup_cons, List.nodup_flatMap, Branch.kids_mk, Branch.id_mk]
    rw [← sameIds, List.pairwise_map] at disjoint
    refine ⟨fun inside => ?_, fun kid member => (owned kid member).stands.nodup, disjoint⟩
    obtain ⟨kid, member, insideKid⟩ := List.mem_flatMap.mp inside
    exact ((owned kid member).owned _ insideKid).1 rfl
  · rw [Branch.node_mk, note, node, turns.note]
  · intro position inside
    rw [Branch.ids_eq, Branch.id_mk, Branch.kids_mk, List.mem_cons, List.mem_flatMap] at inside
    rcases inside with rfl | ⟨kid, member, insideKid⟩
    · exact .inl site.branch.id_mem_ids
    · exact ((owned kid member).owned position insideKid).2
  · intro position before outside
    have different : position ≠ site.id := by
      rintro rfl
      exact outside site.branch.id_mem_ids
    rw [now.get_modify_other change different, turns.frame position before outside]
  · rw [Tree.size_modify]
    exact turns.size

theorem Keeps.single (keeps : site.Keeps now) : (now.get site.id).tag.isCompound = false := by
  obtain ⟨after, turns, fits⟩ := keeps
  rw [Site.id, ← turns.id, turns.stands.holds.get_eq]
  exact fits.single

theorem Keeps.alter (keeps : site.Keeps now) {change : Node → Node}
    (children : (change (now.get site.id)).children = (now.get site.id).children)
    (note : (change (now.get site.id)).note = (now.get site.id).note)
    (tag : (change (now.get site.id)).tag = (now.get site.id).tag) :
    site.Keeps (now.modify site.id change) := by
  exact keeps.rearrange keeps.parts (by rw [children]; rfl) note (by rw [tag]; exact keeps.single)

theorem Parts.nodup (parts : site.Parts now ids) : ids.Nodup := by
  refine parts.apart.imp fun apart same => ?_
  subst same
  exact apart _ (.refl _) (.refl _)

theorem Keeps.nodup (keeps : site.Keeps now) : (now.childIds site.id).Nodup := keeps.parts.nodup

/-- Children under two labels are two nodes. -/
theorem Keeps.distinct (keeps : site.Keeps now) {label other : Label} {first second : NodeId}
    (isFirst : now.child? site.id label = some first)
    (isSecond : now.child? site.id other = some second) (different : label ≠ other) :
    first ≠ second := by
  rw [Tree.child?, Node.child?_eq, Option.bind_eq_some_iff] at isFirst isSecond
  obtain ⟨index, isIndex, foundFirst⟩ := isFirst
  obtain ⟨place, isPlace, foundSecond⟩ := isSecond
  rintro rfl
  have same : index = place := by
    refine (List.getElem?_inj ?_ keeps.nodup).mp ?_
    · rw [Tree.childIds, List.length_map]
      exact Node.lt_of_indexOf? isIndex
    · rw [Tree.childIds, List.getElem?_map, List.getElem?_map]
      exact foundFirst.trans foundSecond.symm
  subst same
  obtain ⟨bound, matched, _⟩ := List.findIdx?_eq_some_iff_getElem.mp isIndex
  obtain ⟨_, matchedToo, _⟩ := List.findIdx?_eq_some_iff_getElem.mp isPlace
  rw [beq_iff_eq] at matched matchedToo
  exact different (Option.some.inj (matched.symm.trans matchedToo))

theorem Keeps.exchange (keeps : site.Keeps now) {index : Nat}
    (parts : site.Parts now ((now.childIds site.id).set index kid)) :
    site.Keeps (now.replaceAt site.id index kid) :=
  keeps.rearrange parts (Node.children_replaceAt _ index kid) rfl keeps.single

theorem childIds_split {tree : Tree} {id : NodeId} {index : Nat}
    (found : tree.childAt? id index = some kid) : ∃ front back,
      tree.childIds id = front ++ kid :: back ∧
        ∀ other, (tree.childIds id).set index other = front ++ other :: back := by
  have place : (tree.childIds id)[index]? = some kid := by
    rw [Tree.childIds, List.getElem?_map]
    exact found
  obtain ⟨inRange, same⟩ := List.getElem?_eq_some_iff.mp place
  refine ⟨(tree.childIds id).take index, (tree.childIds id).drop (index + 1), ?_, fun other => ?_⟩
  · rw [← same, List.getElem_cons_drop, List.take_append_drop]
  · rw [List.set_eq_take_append_cons_drop, if_pos inRange]

/-- A node below a child gets into the place of the child. -/
theorem Keeps.hoist (keeps : site.Keeps now) {index : Nat} {inner : NodeId}
    (found : now.childAt? site.id index = some kid) (member : inner ∈ now.childIds kid) :
    site.Keeps (now.replaceAt site.id index inner) := by
  obtain ⟨front, back, split, place⟩ := childIds_split found
  have parts := keeps.parts
  rw [split] at parts
  refine keeps.exchange (parts.unfold.some ?_)
  rw [place]
  refine (List.Sublist.append (.refl _) ?_).subperm
  exact List.Sublist.append (List.singleton_sublist.mpr member) (.refl _)

/-- A new node gets into the place of a child, which comes below it. -/
theorem Keeps.wrap (keeps : site.Keeps now) {index : Nat}
    (found : now.childAt? site.id index = some kid) {node : Node}
    (children : node.children.map Child.node = [kid])
    (weightless : node.done = true ∨ node.tag = .list) :
    site.Keeps ((now.alloc node).2.replaceAt site.id index now.nodes.size) := by
  obtain ⟨front, back, split, place⟩ := childIds_split found
  have parts := keeps.parts
  rw [split, ← List.singleton_append] at parts
  have grouped := parts.group keeps children weightless
  have sameTop : (now.alloc node).2.childIds site.id = now.childIds site.id := by
    rw [Tree.childIds, now.get_alloc_old node keeps.bound, Tree.childIds]
  refine (keeps.adds (now.alloc_adds node)).exchange ?_
  rw [sameTop, place]
  exact grouped

theorem Keeps.finish (keeps : site.Keeps now) (member : kid ∈ now.childIds site.id)
    {change : Node → Node} (children : ∀ node, (change node).children = node.children)
    (note : ∀ node, (change node).note = node.note) (done : ∀ node, (change node).done = true) :
    site.Keeps (now.modify kid change) ∧ site.Spares kid now (now.modify kid change) := by
  obtain ⟨inner, rfl, hasKid⟩ := keeps.hasKid member
  exact hasKid.inside (.alter hasKid.stands (children _) (note _))
    (Nat.le_trans (Branch.height_alter_done (done _)) hasKid.height)

end Site

/-! ### Types of nodes below -/

structure Node.SameKind (old new : Node) : Prop where
  tag : new.tag = old.tag
  done : new.done = old.done

theorem Node.SameKind.cost {old new : Node} (same : old.SameKind new) : new.cost = old.cost := by
  rw [Node.cost, same.tag, same.done, Node.cost]

structure Node.Akin (old new : Node) : Prop where
  tag : new.tag = old.tag
  done : new.done = old.done
  children : new.children = old.children

theorem Node.Akin.refl (node : Node) : node.Akin node := ⟨rfl, rfl, rfl⟩

theorem Node.Akin.trans {first second third : Node} (early : first.Akin second)
    (late : second.Akin third) : first.Akin third :=
  ⟨late.tag.trans early.tag, late.done.trans early.done, late.children.trans early.children⟩

namespace Tree

theorem akin_setType (tree : Tree) (id : NodeId) (ty : Ty) (position : NodeId) :
    (tree.get position).Akin ((tree.setType id ty).get position) := by
  by_cases changed : position = id ∧ position < tree.nodes.size
  · obtain ⟨rfl, bound⟩ := changed
    rw [setType, tree.get_modify_self _ bound]
    exact ⟨rfl, rfl, rfl⟩
  · rw [setType, get_modify_unchanged changed]
    exact .refl _

theorem Stands.setType {tree : Tree} {branch : Branch} (stands : tree.Stands branch)
    {position : NodeId} (inside : position ∈ branch.ids) (ty : Ty) :
    ∃ after, tree.Turns branch (tree.setType position ty) after ∧
      after.node.tag = branch.node.tag ∧ (∀ copied, after.height copied ≤ branch.height copied) ∧
      ∀ kid ∈ after.kids, ∃ old ∈ branch.kids, ∀ copied, kid.height copied ≤ old.height copied := by
  induction branch using Branch.induction with
  | mk branch ih =>
      rw [Branch.ids_eq, List.mem_cons, List.mem_flatMap] at inside
      rcases inside with rfl | ⟨kid, member, inside⟩
      · refine ⟨_, .alter stands rfl rfl, rfl, fun copied => ?_, fun kid member => ?_⟩
        · exact Nat.le_of_eq (Branch.height_alter_same rfl rfl)
        · exact ⟨kid, member, fun _ => Nat.le_refl _⟩
      · obtain ⟨newKid, turns, _, lower, _⟩ := ih kid member (stands.kid member) inside
        obtain ⟨index, found⟩ := List.mem_iff_getElem?.mp member
        refine ⟨_, .inside stands found turns, rfl, Branch.height_setKid found lower, ?_⟩
        intro other isKid
        rcases List.mem_or_eq_of_mem_set isKid with isOld | rfl
        · exact ⟨other, isOld, fun _ => Nat.le_refl _⟩
        · exact ⟨kid, member, lower⟩

end Tree

theorem Site.Keeps.setType {site : Site} {now : Tree} {position : NodeId}
    (keeps : site.Keeps now) (reaches : now.Reaches site.id position) (ty : Ty) :
    site.Keeps (now.setType position ty) := by
  obtain ⟨after, turns, fits⟩ := keeps
  rw [Site.id, ← turns.id] at reaches
  obtain ⟨last, retyped, tag, _, lower⟩ :=
    turns.stands.setType (reaches.mem_ids turns.stands.holds) ty
  refine ⟨last, turns.trans retyped, by rw [tag]; exact fits.single, fun kid member => ?_⟩
  obtain ⟨old, isOld, less⟩ := lower kid member
  exact Nat.le_trans (less false) (fits.kids old isOld)

end ScriptTyping
