import ScriptTyping.Syntax.Tree

/-!
A tree below a node, apart from the arena that holds it: its parts, the first child under a label,
and the replacement of a child.
-/

namespace ScriptTyping

def Node.note (node : Node) : Option String × Span := (node.text, node.span)

namespace Branch

def label : Branch → Option Label
  | mk label _ _ _ => label

def id : Branch → NodeId
  | mk _ id _ _ => id

def node : Branch → Node
  | mk _ _ node _ => node

def kids : Branch → List Branch
  | mk _ _ _ kids => kids

def child (branch : Branch) : Child := ⟨branch.label, branch.id⟩

section Parts

variable (top : Option Label) (position : NodeId) (content : Node) (below : List Branch)

@[simp]
theorem label_mk : (mk top position content below).label = top := rfl

@[simp]
theorem id_mk : (mk top position content below).id = position := rfl

@[simp]
theorem node_mk : (mk top position content below).node = content := rfl

@[simp]
theorem kids_mk : (mk top position content below).kids = below := rfl

end Parts

@[simp]
theorem mk_parts (branch : Branch) :
    mk branch.label branch.id branch.node branch.kids = branch := by
  cases branch
  rfl

/-- What holds of a branch when it holds of its children holds of every branch. -/
theorem induction {motive : Branch → Prop}
    (mk : ∀ branch : Branch, (∀ kid ∈ branch.kids, motive kid) → motive branch) :
    (branch : Branch) → motive branch
  | .mk top position content below => by
    refine mk _ fun kid member => ?_
    have isBelow : kid ∈ below := member
    have smaller := List.sizeOf_lt_of_mem isBelow
    exact induction mk kid
termination_by branch => sizeOf branch
decreasing_by simp_wf; omega

mutual

def ids : Branch → List NodeId
  | mk _ id _ kids => id :: idsAll kids

def idsAll : List Branch → List NodeId
  | [] => []
  | kid :: rest => ids kid ++ idsAll rest

end

theorem idsAll_eq_flatMap (branches : List Branch) : idsAll branches = branches.flatMap ids := by
  induction branches with
  | nil => rfl
  | cons kid rest ih => simp [idsAll, ih]

theorem ids_eq (branch : Branch) : branch.ids = branch.id :: branch.kids.flatMap ids := by
  cases branch
  simp [ids, idsAll_eq_flatMap]

theorem id_mem_ids (branch : Branch) : branch.id ∈ branch.ids := by
  rw [ids_eq]
  exact List.mem_cons_self

theorem ids_subset {branch kid : Branch} (member : kid ∈ branch.kids) : kid.ids ⊆ branch.ids := by
  intro position inside
  simp only [ids_eq branch, List.mem_cons, List.mem_flatMap]
  exact .inr ⟨kid, member, inside⟩

theorem length_ids_lt {branch kid : Branch} (member : kid ∈ branch.kids) :
    kid.ids.length < branch.ids.length := by
  obtain ⟨front, back, split⟩ := List.append_of_mem member
  rw [ids_eq branch, split]
  simp only [List.flatMap_append, List.flatMap_cons, List.length_cons, List.length_append]
  omega

/-! ### Children under labels -/

structure Kid (branch : Branch) (label : Label) (index : Nat) (kid : Branch) : Prop where
  first : branch.kids.findIdx? (·.label == some label) = some index
  found : branch.kids[index]? = some kid

def first? (branch : Branch) (label : Label) : Option Branch :=
  branch.kids.find? (·.label == some label)

section Kids

variable {branch kid other : Branch} {wanted otherWanted : Label} {index position : Nat}

theorem Kid.mem (isKid : branch.Kid wanted index kid) : kid ∈ branch.kids :=
  List.mem_of_getElem? isKid.found

theorem Kid.label (isKid : branch.Kid wanted index kid) : kid.label = some wanted := by
  obtain ⟨bound, matched, _⟩ := List.findIdx?_eq_some_iff_getElem.mp isKid.first
  have found := isKid.found
  rw [List.getElem?_eq_getElem bound, Option.some.injEq] at found
  rw [← found]
  simpa using matched

theorem Kid.ne (isKid : branch.Kid wanted index kid)
    (isOther : branch.Kid otherWanted position other) (different : wanted ≠ otherWanted) :
    index ≠ position := by
  intro same
  subst same
  have found := isKid.found.symm.trans isOther.found
  simp only [Option.some.injEq] at found
  subst found
  have labels := isKid.label.symm.trans isOther.label
  simp only [Option.some.injEq] at labels
  exact different labels

theorem Kid.index_eq (isKid : branch.Kid wanted index kid)
    (isOther : branch.Kid wanted position other) : position = index :=
  Option.some.inj (isOther.first.symm.trans isKid.first)

theorem exists_kid (first : branch.kids.findIdx? (·.label == some wanted) = some index) :
    ∃ kid, branch.Kid wanted index kid := by
  have bound := (List.findIdx?_eq_some_iff_getElem.mp first).1
  exact ⟨branch.kids[index], first, List.getElem?_eq_getElem bound⟩

theorem first?_eq_some_iff : branch.first? wanted = some kid ↔ ∃ index, branch.Kid wanted index kid := by
  constructor
  · intro found
    obtain ⟨matched, index, bound, same, earlier⟩ := List.find?_eq_some_iff_getElem.mp found
    refine ⟨index, ?_, ?_⟩
    · refine List.findIdx?_eq_some_iff_getElem.mpr ⟨bound, by rw [same]; exact matched, ?_⟩
      intro position less
      simpa using earlier position less
    · rw [List.getElem?_eq_getElem bound, same]
  · rintro ⟨index, first, found⟩
    obtain ⟨bound, matched, earlier⟩ := List.findIdx?_eq_some_iff_getElem.mp first
    rw [List.getElem?_eq_getElem bound, Option.some.injEq] at found
    refine List.find?_eq_some_iff_getElem.mpr ⟨by rw [← found]; exact matched, index, bound, found, ?_⟩
    intro position less
    simpa using earlier position less

theorem Kid.first? (isKid : branch.Kid wanted index kid) : branch.first? wanted = some kid :=
  first?_eq_some_iff.mpr ⟨index, isKid⟩

theorem first?_eq_none_iff :
    branch.first? wanted = none ↔ ∀ kid ∈ branch.kids, kid.label ≠ some wanted := by
  simp [Branch.first?, List.find?_eq_none]

end Kids

theorem findIdx?_labels (branches : List Branch) (wanted : Label) :
    branches.findIdx? (·.label == some wanted) =
      (branches.map Branch.label).findIdx? (· == some wanted) := by
  rw [List.findIdx?_map]
  rfl

def roleAt (kids : List Branch) (index : Nat) : Option Label :=
  (kids[index]?.bind label).filter fun label =>
    kids.findIdx? (·.label == some label) = some index

theorem roleAt_eq_some_iff {kids : List Branch} {index : Nat} {wanted : Label} :
    roleAt kids index = some wanted ↔ kids.findIdx? (·.label == some wanted) = some index := by
  simp only [roleAt, Option.filter_eq_some_iff, decide_eq_true_eq, and_iff_right_iff_imp]
  intro first
  obtain ⟨bound, matched, _⟩ := List.findIdx?_eq_some_iff_getElem.mp first
  rw [List.getElem?_eq_getElem bound, Option.bind_some]
  simpa using matched

theorem Kid.role {branch kid : Branch} {wanted : Label} {index : Nat}
    (isKid : branch.Kid wanted index kid) : roleAt branch.kids index = some wanted :=
  roleAt_eq_some_iff.mpr isKid.first

theorem roleAt_congr {kids others : List Branch}
    (labels : others.map Branch.label = kids.map Branch.label) : roleAt others = roleAt kids := by
  funext index
  refine Option.ext fun wanted => ?_
  rw [roleAt_eq_some_iff, roleAt_eq_some_iff, findIdx?_labels, findIdx?_labels, labels]

theorem roleAt_append {kids : List Branch} {index : Nat} (others : List Branch)
    (inRange : index < kids.length) : roleAt (kids ++ others) index = roleAt kids index := by
  refine Option.ext fun wanted => ?_
  rw [roleAt_eq_some_iff, roleAt_eq_some_iff, List.findIdx?_append]
  cases kids.findIdx? (·.label == some wanted) with
  | some place => rfl
  | none =>
      simp only [Option.none_or, Option.map_eq_some_iff, reduceCtorEq, iff_false, not_exists]
      intro place ⟨_, same⟩
      omega

/-! ### Changes -/

def withKids (branch : Branch) (kids : List Branch) : Branch :=
  mk branch.label branch.id { branch.node with children := kids.map child } kids

def setKid (branch : Branch) (index : Nat) (kid : Branch) : Branch :=
  branch.withKids (branch.kids.set index kid)

def alter (branch : Branch) (change : Node → Node) : Branch :=
  mk branch.label branch.id (change branch.node) branch.kids

def under (branch : Branch) (label : Option Label) : Branch :=
  mk label branch.id branch.node branch.kids

section Changes

variable (branch : Branch) (newKids : List Branch) (position : Nat) (newKid : Branch)
  (change : Node → Node) (newLabel : Option Label)

@[simp]
theorem label_withKids : (branch.withKids newKids).label = branch.label := rfl

@[simp]
theorem id_withKids : (branch.withKids newKids).id = branch.id := rfl

@[simp]
theorem kids_withKids : (branch.withKids newKids).kids = newKids := rfl

@[simp]
theorem node_withKids :
    (branch.withKids newKids).node = { branch.node with children := newKids.map child } := rfl

@[simp]
theorem withKids_withKids (otherKids : List Branch) :
    (branch.withKids newKids).withKids otherKids = branch.withKids otherKids := rfl

@[simp]
theorem label_setKid : (branch.setKid position newKid).label = branch.label := rfl

@[simp]
theorem id_setKid : (branch.setKid position newKid).id = branch.id := rfl

@[simp]
theorem kids_setKid : (branch.setKid position newKid).kids = branch.kids.set position newKid := rfl

@[simp]
theorem tag_setKid : (branch.setKid position newKid).node.tag = branch.node.tag := rfl

@[simp]
theorem ty_setKid : (branch.setKid position newKid).node.ty = branch.node.ty := rfl

@[simp]
theorem binding_setKid : (branch.setKid position newKid).node.binding = branch.node.binding := rfl

@[simp]
theorem text_setKid : (branch.setKid position newKid).node.text = branch.node.text := rfl

@[simp]
theorem note_setKid : (branch.setKid position newKid).node.note = branch.node.note := rfl

@[simp]
theorem setKid_setKid (otherKid : Branch) :
    (branch.setKid position newKid).setKid position otherKid = branch.setKid position otherKid := by
  simp only [setKid, withKids_withKids, kids_withKids, List.set_set]

@[simp]
theorem label_alter : (branch.alter change).label = branch.label := rfl

@[simp]
theorem id_alter : (branch.alter change).id = branch.id := rfl

@[simp]
theorem node_alter : (branch.alter change).node = change branch.node := rfl

@[simp]
theorem kids_alter : (branch.alter change).kids = branch.kids := rfl

@[simp]
theorem ids_alter : (branch.alter change).ids = branch.ids := by
  rw [ids_eq, ids_eq, id_alter, kids_alter]

@[simp]
theorem label_under : (branch.under newLabel).label = newLabel := rfl

@[simp]
theorem id_under : (branch.under newLabel).id = branch.id := rfl

@[simp]
theorem node_under : (branch.under newLabel).node = branch.node := rfl

@[simp]
theorem kids_under : (branch.under newLabel).kids = branch.kids := rfl

@[simp]
theorem ids_under : (branch.under newLabel).ids = branch.ids := by
  rw [ids_eq, ids_eq, id_under, kids_under]

theorem under_eq {branch : Branch} {label : Option Label} (same : branch.label = label) :
    branch.under label = branch := by
  rw [← same, under, mk_parts]

end Changes

section Replacement

variable {branch kid other newKid : Branch} {wanted : Label} {index position : Nat}

theorem labels_set (found : branch.kids[index]? = some kid) (labels : newKid.label = kid.label) :
    (branch.kids.set index newKid).map Branch.label = branch.kids.map Branch.label := by
  obtain ⟨bound, same⟩ := List.getElem?_eq_some_iff.mp found
  rw [List.map_set, labels, ← same, ← List.getElem_map Branch.label, List.set_getElem_self]
  simpa using bound

theorem child_modify {kids : List Branch} (found : kids[index]? = some kid)
    {change : Child → Child} (same : newKid.child = change kid.child) :
    (kids.map child).modify index change = (kids.set index newKid).map child := by
  refine List.ext_getElem? fun position => ?_
  rw [List.getElem?_modify, List.getElem?_map, List.getElem?_map, List.getElem?_set]
  by_cases here : index = position
  · subst here
    have inRange := (List.getElem?_eq_some_iff.mp found).1
    rw [found, if_pos rfl, if_pos inRange, Option.map_some, Option.map_some, same]
    simp only [Option.map_eq_map, Option.map_some, if_true]
  · simp [here]

theorem getElem?_setKid_self (found : branch.kids[index]? = some kid) :
    (branch.setKid index newKid).kids[index]? = some newKid := by
  rw [kids_setKid]
  exact List.getElem?_set_self (List.getElem?_eq_some_iff.mp found).1

theorem getElem?_setKid_ne (different : position ≠ index) :
    (branch.setKid index newKid).kids[position]? = branch.kids[position]? := by
  rw [kids_setKid, List.getElem?_set_ne (Ne.symm different)]

theorem Kid.setKid_self (isKid : branch.Kid wanted index kid) (labels : newKid.label = kid.label) :
    (branch.setKid index newKid).Kid wanted index newKid := by
  refine ⟨?_, ?_⟩
  · rw [kids_setKid, findIdx?_labels, labels_set isKid.found labels, ← findIdx?_labels]
    exact isKid.first
  · exact getElem?_setKid_self isKid.found

theorem Kid.setKid_other (isOther : branch.Kid wanted position other)
    (found : branch.kids[index]? = some kid) (labels : newKid.label = kid.label)
    (different : index ≠ position) : (branch.setKid index newKid).Kid wanted position other := by
  refine ⟨?_, ?_⟩
  · rw [kids_setKid, findIdx?_labels, labels_set found labels, ← findIdx?_labels]
    exact isOther.first
  · rw [getElem?_setKid_ne (Ne.symm different)]
    exact isOther.found

theorem Kid.of_setKid {otherWanted : Label}
    (isOther : (branch.setKid index newKid).Kid otherWanted position other)
    (isKid : branch.Kid wanted index kid) (labels : newKid.label = kid.label)
    (different : wanted ≠ otherWanted) : branch.Kid otherWanted position other := by
  have apart := (isKid.setKid_self labels).ne isOther different
  refine ⟨?_, ?_⟩
  · rw [findIdx?_labels, ← labels_set isKid.found labels, ← findIdx?_labels]
    exact isOther.first
  · have found := isOther.found
    rw [getElem?_setKid_ne (Ne.symm apart)] at found
    exact found

theorem first?_setKid_other {otherWanted : Label} (isKid : branch.Kid wanted index kid)
    (labels : newKid.label = kid.label) (different : wanted ≠ otherWanted) :
    (branch.setKid index newKid).first? otherWanted = branch.first? otherWanted := by
  refine Option.ext fun other => ?_
  rw [first?_eq_some_iff, first?_eq_some_iff]
  constructor
  · rintro ⟨position, isOther⟩
    exact ⟨position, isOther.of_setKid isKid labels different⟩
  · rintro ⟨position, isOther⟩
    exact ⟨position, isOther.setKid_other isKid.found labels (isKid.ne isOther different)⟩

end Replacement

end Branch

end ScriptTyping
