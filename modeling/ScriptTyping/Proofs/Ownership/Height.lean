import ScriptTyping.Proofs.Syntax.Load

/-!
How many visits may be open below one another in a branch. A node that is done is not visited, but
those below it count: they may come to a place in which they are. A copy is checked from the start,
so that in what may be copied a node that is done counts too.
-/

namespace ScriptTyping

namespace Tag

def isCompound : Tag → Bool
  | .compound _ => true
  | _ => false

/-- How many more visits a node of this kind may take than what is below it. A list is passed over,
and a compound assignment is checked as an assignment of an operator. -/
def weight : Tag → Nat
  | .list => 0
  | .compound _ => 2
  | _ => 1

theorem weight_le_one {tag : Tag} (single : tag.isCompound = false) : tag.weight ≤ 1 := by
  cases tag <;> simp_all [weight, isCompound]

theorem weight_eq_one {tag : Tag} (single : tag.isCompound = false) (other : tag ≠ .list) :
    tag.weight = 1 := by
  cases tag <;> simp_all [weight, isCompound]

theorem weight_le_two (tag : Tag) : tag.weight ≤ 2 := by
  cases tag <;> simp [weight]

end Tag

def Node.cost (node : Node) : Nat := if node.done then 0 else node.tag.weight

theorem Node.cost_le_one {node : Node} (single : node.tag.isCompound = false) : node.cost ≤ 1 := by
  rw [cost]
  split
  · exact Nat.zero_le 1
  · exact Tag.weight_le_one single

namespace Branch

mutual

def height (copied : Bool) : Branch → Nat
  | mk _ _ node kids =>
    if node.done && !copied then heightAll copied kids
    else node.tag.weight + heightAll (copied || node.tag.isCompound) kids

def heightAll (copied : Bool) : List Branch → Nat
  | [] => 0
  | kid :: rest => max (height copied kid) (heightAll copied rest)

end

variable {branch other kid newKid : Branch} {kids : List Branch} {copied : Bool}
  {levels index : Nat}

theorem height_eq (copied : Bool) (branch : Branch) : branch.height copied =
    if branch.node.done && !copied then heightAll copied branch.kids
    else branch.node.tag.weight +
      heightAll (copied || branch.node.tag.isCompound) branch.kids := by
  cases branch
  rw [height]
  rfl

theorem heightAll_le_iff : heightAll copied kids ≤ levels ↔
    ∀ kid ∈ kids, kid.height copied ≤ levels := by
  induction kids with
  | nil => simp [heightAll]
  | cons kid rest ih => rw [heightAll, Nat.max_le, List.forall_mem_cons, ih]

theorem height_le_heightAll (member : kid ∈ kids) : kid.height copied ≤ heightAll copied kids :=
  heightAll_le_iff.mp (Nat.le_refl _) kid member

theorem heightAll_mono {others : List Branch} {whole : Bool}
    (bounded : ∀ kid ∈ kids, ∃ other ∈ others, kid.height copied ≤ other.height whole) :
    heightAll copied kids ≤ heightAll whole others := by
  refine heightAll_le_iff.mpr fun kid member => ?_
  obtain ⟨other, isOther, less⟩ := bounded kid member
  exact Nat.le_trans less (height_le_heightAll isOther)

theorem height_le_whole (copied : Bool) (branch : Branch) :
    branch.height copied ≤ branch.height true := by
  induction branch using Branch.induction with
  | mk branch ih =>
      cases copied with
      | true => exact Nat.le_refl _
      | false =>
          have whole : heightAll false branch.kids ≤ heightAll true branch.kids :=
            heightAll_mono fun kid member => ⟨kid, member, ih kid member⟩
          rw [height_eq, height_eq true]
          simp only [Bool.not_false, Bool.and_true, Bool.false_or, Bool.not_true, Bool.and_false,
            Bool.false_eq_true, if_false, Bool.true_or]
          split
          · exact Nat.le_add_left_of_le whole
          · cases branch.node.tag.isCompound with
            | true => exact Nat.le_refl _
            | false => exact Nat.add_le_add_left whole _

theorem heightAll_le_whole (copied : Bool) (kids : List Branch) :
    heightAll copied kids ≤ heightAll true kids :=
  heightAll_mono fun kid member => ⟨kid, member, height_le_whole copied kid⟩

theorem heightAll_le_height (copied : Bool) (branch : Branch) :
    heightAll copied branch.kids ≤ branch.height copied := by
  rw [height_eq]
  split
  · exact Nat.le_refl _
  · refine Nat.le_add_left_of_le ?_
    cases copied with
    | true => exact Nat.le_refl _
    | false =>
        cases branch.node.tag.isCompound with
        | true => exact heightAll_le_whole false branch.kids
        | false => exact Nat.le_refl _

theorem height_kid (copied : Bool) (member : kid ∈ branch.kids) :
    kid.height copied ≤ branch.height copied :=
  Nat.le_trans (height_le_heightAll member) (heightAll_le_height copied branch)

@[simp]
theorem height_under (copied : Bool) (branch : Branch) (label : Option Label) :
    (branch.under label).height copied = branch.height copied := by
  rw [height_eq, height_eq copied branch]
  rfl

theorem height_single (branch : Branch) (single : branch.node.tag.isCompound = false) :
    branch.height false = branch.node.cost + heightAll false branch.kids := by
  rw [height_eq, single, Node.cost]
  split <;> simp_all

theorem height_compound (branch : Branch) (undone : branch.node.done = false)
    (double : branch.node.tag.isCompound = true) :
    branch.height false = branch.node.tag.weight + heightAll true branch.kids := by
  simp [height_eq, undone, double]

theorem height_weightless (weightless : branch.node.done = true ∨ branch.node.tag = .list)
    (kids : ∀ kid ∈ branch.kids, kid.height false ≤ levels) : branch.height false ≤ levels := by
  have all := heightAll_le_iff.mpr kids
  rcases weightless with done | isList
  · simpa [height_eq, done] using all
  · simp only [height_eq, isList, Tag.weight, Tag.isCompound, Bool.or_false, Nat.zero_add]
    split <;> exact all

theorem height_alter_done {change : Node → Node} (done : (change branch.node).done = true) :
    (branch.alter change).height false ≤ branch.height false := by
  refine Nat.le_trans ?_ (heightAll_le_height false branch)
  exact height_weightless (.inl done) fun kid member => height_le_heightAll member

theorem height_alter_same {change : Node → Node} (tag : (change branch.node).tag = branch.node.tag)
    (done : (change branch.node).done = branch.node.done) :
    (branch.alter change).height copied = branch.height copied := by
  rw [height_eq, height_eq copied branch, node_alter, kids_alter, tag, done]

theorem height_setKid (found : branch.kids[index]? = some kid)
    (lower : ∀ copied, newKid.height copied ≤ kid.height copied) (copied : Bool) :
    (branch.setKid index newKid).height copied ≤ branch.height copied := by
  have all : ∀ copied, heightAll copied (branch.kids.set index newKid) ≤
      heightAll copied branch.kids := by
    intro copied
    refine heightAll_mono fun other member => ?_
    rcases List.mem_or_eq_of_mem_set member with isOld | rfl
    · exact ⟨other, isOld, Nat.le_refl _⟩
    · exact ⟨kid, List.mem_of_getElem? found, lower copied⟩
  rw [height_eq, height_eq copied branch, kids_setKid, tag_setKid]
  show (if branch.node.done && !copied then _ else _) ≤ _
  split
  · exact all copied
  · exact Nat.add_le_add_left (all _) _

theorem height_congr (same : branch.stored = other.stored) :
    branch.height true = other.height true := by
  induction branch using Branch.induction generalizing other with
  | mk branch ih =>
      rw [stored_eq, stored_eq other, StoredNode.mk.injEq] at same
      obtain ⟨_, tag, _, _, kids⟩ := same
      have all : ∀ {kids others : List Branch}, (∀ kid ∈ kids, ∀ {other : Branch},
          kid.stored = other.stored → kid.height true = other.height true) →
          kids.map stored = others.map stored → heightAll true kids = heightAll true others := by
        intro kids others each same
        induction kids generalizing others with
        | nil => rw [List.map_eq_nil_iff.mp same.symm]
        | cons kid rest later =>
            cases others with
            | nil => simp at same
            | cons first others =>
                rw [List.map_cons, List.map_cons, List.cons.injEq] at same
                rw [heightAll, heightAll, each kid List.mem_cons_self same.1,
                  later (fun kid member => each kid (List.mem_cons_of_mem _ member)) same.2]
      simp only [height_eq, Bool.not_true, Bool.and_false, Bool.false_eq_true, if_false,
        Bool.true_or, tag, all ih kids]

/-- A branch takes at most two visits for each of its nodes. -/
theorem height_le_ids (copied : Bool) (branch : Branch) :
    branch.height copied ≤ 2 * branch.ids.length := by
  refine Nat.le_trans (height_le_whole copied branch) ?_
  induction branch using Branch.induction with
  | mk branch ih =>
      have all : heightAll true branch.kids ≤ 2 * (branch.kids.flatMap ids).length := by
        refine heightAll_le_iff.mpr fun kid member => Nat.le_trans (ih kid member) ?_
        obtain ⟨front, back, split⟩ := List.append_of_mem member
        rw [split, List.flatMap_append, List.flatMap_cons, List.length_append, List.length_append]
        omega
      have weight := branch.node.tag.weight_le_two
      rw [height_eq, ids_eq, List.length_cons]
      simp only [Bool.not_true, Bool.and_false, Bool.false_eq_true, if_false, Bool.true_or]
      omega

end Branch

end ScriptTyping
