import ScriptTyping.Check.Collection
import ScriptTyping.Proofs.Rule.Lookup

/-!
Collections and interpolated text, whose items stand below the node itself.
-/

namespace ScriptTyping

namespace Rule

open Check

section Alternation

variable {α β : Type}

theorem alternate_map (change : α → β) (items : List α) :
    alternate (items.map change) =
      ((alternate items).1.map change, (alternate items).2.map change) := by
  induction items with
  | nil => rfl
  | cons item rest ih => simp only [List.map_cons, alternate, ih]

theorem alternate_perm (items : List α) :
    ((alternate items).1 ++ (alternate items).2).Perm items := by
  induction items with
  | nil => exact .refl _
  | cons item rest ih =>
      simp only [alternate, List.cons_append]
      exact (List.perm_append_comm.trans ih).cons item

/-- Items at even positions come into the first list, the others into the second. -/
theorem alternate_of_getElem? {items : List α} {item : α} {index : Nat}
    (found : items[index]? = some item) :
    item ∈ if index % 2 = 0 then (alternate items).1 else (alternate items).2 := by
  induction items generalizing index with
  | nil => simp at found
  | cons first rest ih =>
      cases index with
      | zero =>
          rw [List.getElem?_cons_zero, Option.some.injEq] at found
          rw [found]
          exact List.mem_cons_self
      | succ index =>
          have later := ih (by simpa using found)
          rcases Nat.mod_two_eq_zero_or_one index with isEven | isOdd
          · rw [if_pos isEven] at later
            rw [if_neg (by omega)]
            exact later
          · rw [if_neg (by omega)] at later
            rw [if_pos (by omega)]
            exact List.mem_cons_of_mem _ later

end Alternation

variable {premise : Premise} {calm : Calm} {first : Environment}
  {unseen less : Nat → Option Label → Prop} {old : CheckState} {branch : Branch} {visit : Visit}
  {indices : List Nat} {types : List Ty}

theorem slots_yields {β : Type} {next : List Slot → Check β}
    {post : β → CheckState → Branch → Prop} (stands : old.tree.Stands branch)
    (rest : (next branch.slots).Yields calm old branch post) :
    (slots branch.id >>= next).Yields calm old branch post := by
  refine .bindRead stands ?_
  rw [slots_eq stands.holds]
  exact rest

theorem unseen_range (branch : Branch) :
    ∀ index ∈ List.range branch.kids.length, ∃ kid, branch.kids[index]? = some kid ∧
      Unseen [] index (Branch.roleAt branch.kids index) := by
  intro index member
  have inRange := List.mem_range.mp member
  exact ⟨branch.kids[index], List.getElem?_eq_getElem inRange, fun _ none => by simp at none⟩

theorem positions_paired (indices : List Nat) (ty : Ty) :
    (indices.map fun index => (index, ty)).map Prod.fst = indices := by
  rw [List.map_map]
  exact List.map_id _

theorem coerceAt_yields (ty : Ty) (isOpen : Open premise calm first unseen old branch)
    (nodup : indices.Nodup)
    (typed : List.Forall₂ (fun index ty => ∃ kid, branch.kids[index]? = some kid ∧
      kid.node.ty = some ty) indices types)
    (seen : ∀ index ∈ indices, ¬ unseen index (Branch.roleAt branch.kids index)) :
    (coerceAll ty (branch.slotsAt indices)).Yields calm old branch fun _ new after =>
      Converted premise calm first unseen old branch (indices.map fun index => (index, ty)) new
        after := by
  have steps : coerceAll ty (branch.slotsAt indices) = coerceEach
      ((indices.map fun index => (index, ty)).map fun pair => (⟨branch.id, pair.1⟩, pair.2)) := by
    rw [coerceAll_eq, Branch.slotsAt, List.map_map, List.map_map]
    rfl
  rw [steps]
  refine coerceEach_yields isOpen (by rw [positions_paired]; exact nodup) ?_
  intro pair member
  obtain ⟨index, isIndex, rfl⟩ := List.mem_map.mp member
  obtain ⟨place, inRange, rfl⟩ := List.mem_iff_getElem.mp isIndex
  have inTypes : place < types.length := by
    rw [← typed.length_eq]
    exact inRange
  obtain ⟨kid, found, isTyped⟩ := (List.forall₂_iff_get.mp typed).2 place inRange inTypes
  exact ⟨kid, _, found, isTyped, seen _ isIndex⟩

structure Agreed (premise : Premise) (calm : Calm) (first : Environment) (branch : Branch)
    (indices : List Nat) (ty : Ty) (new : CheckState) (after : Branch) : Prop where
  alike : branch.Alike after
  isOpen : Open premise calm first (fun _ _ => False) new after
  suits : ∀ index ∈ indices, after.SuitsAt index ty
  others : ∀ position, position ∉ indices → after.kids[position]? = branch.kids[position]?

theorem Agreed.consists {ty : Ty} {new : CheckState} {after : Branch}
    (agreed : Agreed premise calm first branch (List.range branch.kids.length) ty new after) :
    after.Consists ty := by
  intro kid member
  obtain ⟨index, inRange, isKid⟩ := List.mem_iff_getElem.mp member
  obtain ⟨other, found, suits⟩ :=
    agreed.suits index (List.mem_range.mpr (agreed.alike.length ▸ inRange))
  rw [List.getElem?_eq_getElem inRange, isKid, Option.some.injEq] at found
  exact found ▸ suits

/-- Children that were visited and brought to a type. -/
theorem Agreed.ofConverted {less : Nat → Option Label → Prop} {middle new : CheckState}
    {between after : Branch} {ty : Ty}
    (visited : Visited premise calm first less branch indices types middle between)
    (converted : Converted premise calm first (fun _ _ => False) middle between
      (indices.map fun index => (index, ty)) new after) :
    Agreed premise calm first branch indices ty new after := by
  refine ⟨visited.alike.trans converted.alike, converted.isOpen, fun index member => ?_,
    fun position outside => ?_⟩
  · exact converted.suits (index, ty) (List.mem_map_of_mem member)
  · rw [converted.others position (by rw [positions_paired]; exact outside)]
    exact visited.others position outside

/-- Children that have a type from their visits. -/
theorem Agreed.ofVisited {new : CheckState} {after : Branch} {ty : Ty}
    (visited : Visited premise calm first (fun _ _ => False) branch indices types new after)
    (same : ∀ found ∈ types, (found == ty) = true) :
    Agreed premise calm first branch indices ty new after := by
  refine ⟨visited.alike, visited.isOpen, fun index member => ?_, visited.others⟩
  obtain ⟨place, inRange, rfl⟩ := List.mem_iff_getElem.mp member
  have inTypes : place < types.length := by
    rw [← visited.typed.length_eq]
    exact inRange
  obtain ⟨kid, found, typed⟩ := (List.forall₂_iff_get.mp visited.typed).2 place inRange inTypes
  exact ⟨kid, found, _, typed, .inl (same _ (List.getElem_mem inTypes))⟩

theorem elements_yields (visits : Visits premise visit)
    (isOpen : Open premise calm first unseen old branch) (nodup : indices.Nodup)
    (isUnseen : ∀ index ∈ indices, ∃ kid, branch.kids[index]? = some kid ∧
      unseen index (Branch.roleAt branch.kids index)) :
    (elements visit (branch.slotsAt indices)).Yields calm old branch fun ty new after =>
      Agreed premise calm first branch indices ty new after := by
  refine (visitAll_yields visits isOpen nodup isUnseen
    (fun _ _ (none : False) => none.elim)).bind ?_
  intro types new after _ visited
  split
  · exact .pure visited.isOpen.stands (.ofVisited visited fun _ none => absurd none List.not_mem_nil)
  · rename_i ty rest
    split
    · rename_i same
      refine .pure visited.isOpen.stands (.ofVisited visited fun found member => ?_)
      rcases List.mem_cons.mp member with rfl | later
      · exact BEq.rfl
      · exact List.all_eq_true.mp same found later
    · have slots : branch.slotsAt indices = after.slotsAt indices := by
        rw [Branch.slotsAt, Branch.slotsAt, visited.alike.id]
      rw [slots]
      refine (coerceAt_yields .object visited.isOpen nodup visited.typed
        (fun _ _ none => none.elim)).bind ?_
      intro _ last afterLast _ converted
      exact .pure converted.isOpen.stands (.ofConverted visited converted)

theorem array_yields (visits : Visits premise visit)
    (isOpen : Open premise calm first (Unseen []) old branch) (isTag : branch.node.tag = .array) :
    (array visit branch.id).Yields calm old branch (Ruled premise first) := by
  refine slots_yields isOpen.stands ?_
  refine (elements_yields visits isOpen List.nodup_range (unseen_range branch)).bind ?_
  intro ty new after _ agreed
  refine .pure agreed.isOpen.stands (agreed.isOpen.close ?_)
  unfold Branch.Facts
  simp only [Branch.typed, Branch.node_alter, agreed.alike.tag.trans isTag]
  exact ⟨ty, rfl, agreed.consists⟩

theorem set_yields (visits : Visits premise visit)
    (isOpen : Open premise calm first (Unseen []) old branch) (isTag : branch.node.tag = .set) :
    (set visit branch.id).Yields calm old branch (Ruled premise first) := by
  refine slots_yields isOpen.stands ?_
  refine (elements_yields visits isOpen List.nodup_range (unseen_range branch)).bind ?_
  intro ty new after _ agreed
  refine .pure agreed.isOpen.stands (agreed.isOpen.close ?_)
  unfold Branch.Facts
  simp only [Branch.typed, Branch.node_alter, agreed.alike.tag.trans isTag]
  exact ⟨ty, rfl, agreed.consists⟩

theorem interpolation_yields (visits : Visits premise visit)
    (isOpen : Open premise calm first (Unseen []) old branch)
    (isTag : branch.node.tag = .interpolation) :
    (interpolation visit branch.id).Yields calm old branch (Ruled premise first) := by
  refine slots_yields isOpen.stands ?_
  refine (visitAll_yields visits isOpen List.nodup_range (unseen_range branch)
    (fun _ _ (none : False) => none.elim)).bind ?_
  intro types new after _ visited
  have slots : branch.slots = after.slotsAt (List.range branch.kids.length) := by
    rw [Branch.slots, Branch.slotsAt, Branch.slotsAt, visited.alike.id]
  rw [slots, ← visited.alike.id]
  refine (coerceAt_yields .object visited.isOpen List.nodup_range visited.typed
    (fun _ _ none => none.elim)).bind ?_
  intro _ later afterLater _ converted
  have agreed := Agreed.ofConverted visited converted
  rw [← converted.alike.id]
  have isTagLater := agreed.alike.tag.trans isTag
  refine .bindModify agreed.isOpen rfl rfl
    (agreed.isOpen.inside.calling (by rw [isTagLater]; rfl) _ _ _) ?_
  intro last opensLast _ _
  refine .pure opensLast.stands (opensLast.close ?_)
  unfold Branch.Facts
  simp only [Branch.typed, Branch.node_alter, isTagLater]
  refine ⟨.ofBound rfl (.inert fun _ _ _ => ?_), agreed.consists⟩
  exact RuntimeMember.not_dispatches (.inr (by decide))

/-! ### Keys -/

structure Keyed (premise : Premise) (calm : Calm) (first : Environment)
    (unseen : Nat → Option Label → Prop) (branch : Branch) (indices : List Nat) (new : CheckState)
    (after : Branch) : Prop where
  alike : branch.Alike after
  isOpen : Open premise calm first (fun position role => unseen position role ∧ position ∉ indices)
    new after
  suits : ∀ index ∈ indices, after.SuitsAt index .string
  others : ∀ position, position ∉ indices → after.kids[position]? = branch.kids[position]?

theorem keys_yields (visits : Visits premise visit)
    (isOpen : Open premise calm first unseen old branch) (nodup : indices.Nodup)
    (isUnseen : ∀ index ∈ indices, ∃ kid, branch.kids[index]? = some kid ∧
      unseen index (Branch.roleAt branch.kids index)) :
    (keys visit (branch.slotsAt indices)).Yields calm old branch fun _ new after =>
      Keyed premise calm first unseen branch indices new after := by
  induction indices generalizing old branch unseen with
  | nil =>
      refine .pure isOpen.stands ⟨.refl isOpen.stands, ?_, fun _ none => ?_, fun _ _ => rfl⟩
      · exact isOpen.narrow fun _ _ both => both.1
      · exact absurd none List.not_mem_nil
  | cons index rest ih =>
      obtain ⟨notInRest, nodupRest⟩ := List.nodup_cons.mp nodup
      obtain ⟨kid, found, isUnseenKid⟩ := isUnseen index List.mem_cons_self
      refine .bindOccupant isOpen.stands found ?_
      refine .bindVisit visits isOpen found isUnseenKid
        (fun position role (both : unseen position role ∧ position ≠ index) => both.1)
        (fun both => both.2 rfl) ?_
      intro ty new newKid becomes typed opens
      have placed : (branch.setKid index newKid).kids[index]? = some newKid :=
        Branch.getElem?_setKid_self found
      refine (coerce_yields opens placed (fun both => both.2 rfl) typed .string).bind ?_
      rintro node later _ _ ⟨coerced, rfl, label, suits, rfl, opensLater, _, _⟩
      rw [Branch.setKid_setKid] at opensLater ⊢
      have sameLabel := label.trans becomes.turns.label
      refine (ih opensLater nodupRest (unseen_rest found sameLabel notInRest isUnseen)).mono ?_
      rintro _ last after _ ⟨alike, opensLast, isKeys, others⟩
      refine ⟨(Branch.Alike.setKid found sameLabel).trans alike, ?_, ?_, ?_⟩
      · refine opensLast.narrow ?_
        rintro position role ⟨isUnseen, outside⟩
        rw [List.mem_cons, not_or] at outside
        exact ⟨⟨isUnseen, outside.1⟩, outside.2⟩
      · intro position member
        rcases List.mem_cons.mp member with rfl | later
        · exact ⟨coerced, (others position notInRest).trans (Branch.getElem?_setKid_self found), suits⟩
        · exact isKeys position later
      · intro position outside
        rw [List.mem_cons, not_or] at outside
        rw [others position outside.2, Branch.getElem?_setKid_ne outside.1]

theorem dict_yields (visits : Visits premise visit)
    (isOpen : Open premise calm first (Unseen []) old branch) (isTag : branch.node.tag = .dict) :
    (dict visit branch.id).Yields calm old branch (Ruled premise first) := by
  refine slots_yields isOpen.stands ?_
  split
  · exact .failAt isOpen.stands _ rfl
  · have perm := alternate_perm (List.range branch.kids.length)
    have nodup := perm.nodup_iff.mpr List.nodup_range
    obtain ⟨nodupKeys, nodupValues, apart⟩ := List.nodup_append'.mp nodup
    have inRange := unseen_range branch
    rw [Branch.slots, Branch.slotsAt, alternate_map]
    simp only
    refine (keys_yields visits isOpen nodupKeys fun index member =>
      inRange index (perm.mem_iff.mp (List.mem_append_left _ member))).bind ?_
    intro _ new after _ keyed
    have valuesUnseen : ∀ index ∈ (alternate (List.range branch.kids.length)).2, ∃ kid,
        after.kids[index]? = some kid ∧ Unseen [] index (Branch.roleAt after.kids index) ∧
          index ∉ (alternate (List.range branch.kids.length)).1 := by
      intro index member
      have outside := fun inside => apart inside member
      obtain ⟨kid, found, isUnseen⟩ := inRange index (perm.mem_iff.mp (List.mem_append_right _ member))
      rw [← Branch.roleAt_congr keyed.alike.labels] at isUnseen
      exact ⟨kid, (keyed.others index outside).trans found, isUnseen, outside⟩
    have elements := elements_yields visits keyed.isOpen nodupValues valuesUnseen
    rw [Branch.slotsAt, keyed.alike.id] at elements
    refine elements.bind ?_
    intro ty later afterLater _ agreed
    have alike := keyed.alike.trans agreed.alike
    have alternates : afterLater.Alternates ty := by
      intro index kid found
      have inKids : index < branch.kids.length :=
        alike.length ▸ (List.getElem?_eq_some_iff.mp found).1
      have isListed := alternate_of_getElem? (List.getElem?_range inKids)
      have here : afterLater.SuitsAt index (if index % 2 = 0 then .string else ty) := by
        split
        · rename_i isEven
          rw [if_pos isEven] at isListed
          obtain ⟨key, isKey, suits⟩ := keyed.suits index isListed
          exact ⟨key, (agreed.others index (apart isListed)).trans isKey, suits⟩
        · rename_i isOdd
          rw [if_neg isOdd] at isListed
          exact agreed.suits index isListed
      obtain ⟨other, isOther, suits⟩ := here
      rw [found, Option.some.injEq] at isOther
      exact isOther ▸ suits
    refine .pure agreed.isOpen.stands (agreed.isOpen.close ?_)
    unfold Branch.Facts
    simp only [Branch.typed, Branch.node_alter, alike.tag.trans isTag]
    exact ⟨ty, rfl, alternates⟩

end Rule

end ScriptTyping
