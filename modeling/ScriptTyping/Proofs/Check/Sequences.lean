import ScriptTyping.Proofs.Check.Slots
import ScriptTyping.Proofs.Overload.Resolution

/-!
Visiting and converting several children of one branch. The other children and the labels stay as
they are.
-/

namespace ScriptTyping

namespace Branch

def slotsAt (branch : Branch) (indices : List Nat) : List Slot :=
  indices.map fun index => ⟨branch.id, index⟩

structure Alike (before after : Branch) : Prop where
  changed : after = before.withKids after.kids
  labels : after.kids.map Branch.label = before.kids.map Branch.label

def SuitsAt (branch : Branch) (index : Nat) (ty : Ty) : Prop :=
  ∃ kid, branch.kids[index]? = some kid ∧ kid.Suits ty

section Alike

variable {before between after inner newInner : Branch} {index : Nat} {wanted : Label}

theorem Alike.refl {tree : Tree} (stands : tree.Stands before) : before.Alike before := by
  refine ⟨?_, rfl⟩
  rw [withKids, ← stands.holds.children_eq, mk_parts]

theorem Alike.trans (first : before.Alike between) (second : between.Alike after) :
    before.Alike after := by
  refine ⟨?_, second.labels.trans first.labels⟩
  rw [second.changed, first.changed]
  rfl

theorem Alike.setKid (found : before.kids[index]? = some inner)
    (same : newInner.label = inner.label) : before.Alike (before.setKid index newInner) :=
  ⟨rfl, labels_set found same⟩

theorem Alike.id (alike : before.Alike after) : after.id = before.id := by
  rw [alike.changed]
  rfl

theorem Alike.tag (alike : before.Alike after) : after.node.tag = before.node.tag := by
  rw [alike.changed]
  rfl

theorem Alike.length (alike : before.Alike after) : after.kids.length = before.kids.length := by
  simpa using congrArg List.length alike.labels

theorem Alike.countP_eq (alike : before.Alike after) (wanted : Label) :
    after.kids.countP (·.label == some wanted) = before.kids.countP (·.label == some wanted) := by
  have labels := congrArg (List.countP (· == some wanted)) alike.labels
  rw [List.countP_map, List.countP_map] at labels
  exact labels

theorem Alike.isSome_first? (alike : before.Alike after) (wanted : Label) :
    (after.first? wanted).isSome = (before.first? wanted).isSome := by
  have labels := congrArg (List.any · (· == some wanted)) alike.labels
  simp only [List.any_map] at labels
  rw [Bool.eq_iff_iff, Branch.first?, Branch.first?, List.find?_isSome, List.find?_isSome,
    ← List.any_eq_true, ← List.any_eq_true]
  exact Bool.eq_iff_iff.mp labels

theorem Alike.kid (alike : before.Alike after) (isKid : before.Kid wanted index inner) :
    ∃ newInner, after.Kid wanted index newInner := by
  refine exists_kid ?_
  rw [findIdx?_labels, alike.labels, ← findIdx?_labels]
  exact isKid.first

end Alike

end Branch

namespace Check

variable {premise : Premise} {calm : Calm} {first : Environment} {unseen less : Nat → Option Label → Prop}
  {old : CheckState} {branch : Branch} {visit : Visit} {indices : List Nat}

/-- Once the child at the first of some positions was visited, those at the others are still to be
seen. -/
theorem unseen_rest {kid newKid : Branch} {index : Nat} {rest : List Nat}
    (found : branch.kids[index]? = some kid) (same : newKid.label = kid.label)
    (notInRest : index ∉ rest)
    (isUnseen : ∀ position ∈ index :: rest, ∃ other, branch.kids[position]? = some other ∧
      unseen position (Branch.roleAt branch.kids position)) :
    ∀ position ∈ rest, ∃ other, (branch.setKid index newKid).kids[position]? = some other ∧
      unseen position (Branch.roleAt (branch.setKid index newKid).kids position) ∧
        position ≠ index := by
  intro position member
  obtain ⟨other, isOther, isUnseenOther⟩ := isUnseen position (List.mem_cons_of_mem _ member)
  have different : position ≠ index := fun same => notInRest (same ▸ member)
  refine ⟨other, (Branch.getElem?_setKid_ne different).trans isOther, ?_, different⟩
  rw [Branch.kids_setKid, Branch.roleAt_congr (Branch.labels_set found same)]
  exact isUnseenOther

structure Visited (premise : Premise) (calm : Calm) (first : Environment) (less : Nat → Option Label → Prop)
    (branch : Branch) (indices : List Nat) (types : List Ty) (new : CheckState) (after : Branch) :
    Prop where
  alike : branch.Alike after
  isOpen : Open premise calm first less new after
  typed : List.Forall₂ (fun index ty => ∃ kid, after.kids[index]? = some kid ∧
    kid.node.ty = some ty) indices types
  others : ∀ position, position ∉ indices → after.kids[position]? = branch.kids[position]?

theorem visitAll_yields (visits : Visits premise visit)
    (isOpen : Open premise calm first unseen old branch) (nodup : indices.Nodup)
    (isUnseen : ∀ index ∈ indices, ∃ kid, branch.kids[index]? = some kid ∧
      unseen index (Branch.roleAt branch.kids index))
    (fewer : ∀ position role, less position role → unseen position role ∧ position ∉ indices) :
    (visitAll visit (branch.slotsAt indices)).Yields calm old branch fun types new after =>
      Visited premise calm first less branch indices types new after := by
  induction indices generalizing old branch unseen with
  | nil =>
      refine .pure isOpen.stands ⟨.refl isOpen.stands, ?_, .nil, fun _ _ => rfl⟩
      exact ⟨isOpen.stands, isOpen.later, isOpen.leads, isOpen.inside, fun index kid found isLess =>
        isOpen.raw index kid found (fewer _ _ isLess).1, fun index kid found isLess =>
        isOpen.quiet index kid found (fewer _ _ isLess).1, isOpen.settled⟩
  | cons index rest ih =>
      obtain ⟨notInRest, nodupRest⟩ := List.nodup_cons.mp nodup
      obtain ⟨kid, found, isUnseenKid⟩ := isUnseen index List.mem_cons_self
      refine .bindOccupant isOpen.stands found ?_
      refine .bindVisit visits isOpen found isUnseenKid
        (fun position role (both : unseen position role ∧ position ≠ index) => both.1)
        (fun both => both.2 rfl) ?_
      intro ty new newKid becomes typed opens
      have stillUnseen := unseen_rest found becomes.turns.label notInRest isUnseen
      refine (ih opens nodupRest stillUnseen ?_).bind ?_
      · intro position role isLess
        obtain ⟨isUnseenHere, outside⟩ := fewer position role isLess
        rw [List.mem_cons, not_or] at outside
        exact ⟨⟨isUnseenHere, outside.1⟩, outside.2⟩
      · intro types last after _ visited
        refine .pure visited.isOpen.stands ⟨?_, visited.isOpen, ?_, ?_⟩
        · exact (Branch.Alike.setKid found becomes.turns.label).trans visited.alike
        · refine .cons ⟨newKid, ?_, typed⟩ visited.typed
          rw [visited.others index notInRest, Branch.getElem?_setKid_self found]
        · intro position outside
          rw [List.mem_cons, not_or] at outside
          rw [visited.others position outside.2, Branch.getElem?_setKid_ne outside.1]

structure Converted (premise : Premise) (calm : Calm) (first : Environment)
    (unseen : Nat → Option Label → Prop) (old : CheckState) (branch : Branch)
    (pairs : List (Nat × Ty)) (new : CheckState) (after : Branch) : Prop where
  alike : branch.Alike after
  isOpen : Open premise calm first unseen new after
  environment : new.environment = old.environment
  scopes : new.scopes = old.scopes
  suits : ∀ pair ∈ pairs, after.SuitsAt pair.1 pair.2
  others : ∀ position, position ∉ pairs.map Prod.fst →
    after.kids[position]? = branch.kids[position]?

theorem Coerced.converted {kid newKid after : Branch} {index : Nat} {required : Ty}
    {new : CheckState} (found : branch.kids[index]? = some kid)
    (coerced : Coerced premise calm first unseen old branch kid index required new after newKid) :
    Converted premise calm first unseen old branch [(index, required)] new after := by
  obtain ⟨label, suits, rfl, opens, environment, scopes, _⟩ := coerced
  refine ⟨.setKid found label, opens, environment, scopes, ?_, ?_⟩
  · intro pair member
    rw [List.mem_singleton.mp member]
    exact ⟨newKid, Branch.getElem?_setKid_self found, suits⟩
  · intro position outside
    rw [List.map_singleton, List.mem_singleton] at outside
    exact Branch.getElem?_setKid_ne outside

theorem Converted.append {pairs more : List (Nat × Ty)} {middle new : CheckState}
    {between after : Branch}
    (early : Converted premise calm first unseen old branch pairs middle between)
    (late : Converted premise calm first unseen middle between more new after)
    (apart : ∀ pair ∈ pairs, pair.1 ∉ more.map Prod.fst) :
    Converted premise calm first unseen old branch (pairs ++ more) new after := by
  refine ⟨early.alike.trans late.alike, late.isOpen, late.environment.trans early.environment,
    late.scopes.trans early.scopes, ?_, ?_⟩
  · intro pair member
    rcases List.mem_append.mp member with isEarly | isLate
    · obtain ⟨kid, found, suits⟩ := early.suits pair isEarly
      exact ⟨kid, (late.others pair.1 (apart pair isEarly)).trans found, suits⟩
    · exact late.suits pair isLate
  · intro position outside
    rw [List.map_append, List.mem_append, not_or] at outside
    exact (late.others position outside.2).trans (early.others position outside.1)

theorem coerceEach_yields {pairs : List (Nat × Ty)}
    (isOpen : Open premise calm first unseen old branch) (nodup : (pairs.map Prod.fst).Nodup)
    (typed : ∀ pair ∈ pairs, ∃ kid ty, branch.kids[pair.1]? = some kid ∧ kid.node.ty = some ty ∧
      ¬ unseen pair.1 (Branch.roleAt branch.kids pair.1)) :
    (coerceEach (pairs.map fun pair => (⟨branch.id, pair.1⟩, pair.2))).Yields calm old branch
      fun _ new after => Converted premise calm first unseen old branch pairs new after := by
  induction pairs generalizing old branch with
  | nil =>
      exact .pure isOpen.stands ⟨.refl isOpen.stands, isOpen, rfl, rfl,
        fun _ member => by simp at member, fun _ _ => rfl⟩
  | cons pair rest ih =>
      obtain ⟨index, required⟩ := pair
      simp only [List.map_cons, List.nodup_cons] at nodup
      obtain ⟨notInRest, nodupRest⟩ := nodup
      obtain ⟨kid, ty, found, isTyped, seen⟩ := typed _ List.mem_cons_self
      refine Yields.bind (coerce_yields isOpen found seen isTyped required) ?_
      rintro node new between _ ⟨newKid, _, coerced⟩
      have converted := coerced.converted found
      rw [← converted.alike.id]
      refine (ih converted.isOpen nodupRest ?_).mono ?_
      · intro pair member
        obtain ⟨other, otherTy, isOther, isTypedOther, seenOther⟩ :=
          typed pair (List.mem_cons_of_mem _ member)
        refine ⟨other, otherTy, (converted.others pair.1 ?_).trans isOther, isTypedOther, ?_⟩
        · intro inside
          have same : pair.1 = index := List.mem_singleton.mp inside
          exact notInRest (same ▸ List.mem_map_of_mem member)
        · rw [Branch.roleAt_congr converted.alike.labels]
          exact seenOther
      · intro _ last after _ later
        refine converted.append later ?_
        intro pair member
        rw [List.mem_singleton.mp member]
        exact notInRest

theorem coerceAll_eq (ty : Ty) (slots : List Slot) :
    coerceAll ty slots = coerceEach (slots.map fun slot => (slot, ty)) := by
  induction slots with
  | nil => rfl
  | cons slot rest ih => simp only [coerceAll, List.map_cons, coerceEach, ih]

theorem convertArguments_eq {slots : List Slot} {resolution : Resolution} {positions : List Nat}
    {pairs : List (Slot × Ty)}
    (agree : List.Forall₂ (fun position pair => slots[position]? = some pair.1 ∧
      resolution.params[position]? = some pair.2) positions pairs) :
    convertArguments slots resolution positions = coerceEach pairs := by
  induction agree with
  | nil => rfl
  | cons found _ ih =>
      simp only [convertArguments, found.1, found.2, coerceEach, ih]

/-- The conversions of a member whose arguments are the children at some positions: which child is
brought to which type. -/
def conversions (resolution : Resolution) (indices : List Nat) : List (Nat × Ty) :=
  resolution.coercions.map fun place =>
    (indices.getD place 0, resolution.params.getD place .never)

section Conversions

variable {resolution : Resolution} {place index : Nat} {ty : Ty}

theorem mem_conversions (isIndex : indices[place]? = some index)
    (isType : resolution.params[place]? = some ty) (member : place ∈ resolution.coercions) :
    (index, ty) ∈ conversions resolution indices := by
  refine List.mem_map.mpr ⟨place, member, ?_⟩
  rw [List.getD_eq_getElem?_getD, List.getD_eq_getElem?_getD, isIndex, isType, Option.getD_some,
    Option.getD_some]

variable (inRange : ∀ place ∈ resolution.coercions, place < indices.length ∧
  place < resolution.params.length)

include inRange

theorem exists_of_mem_conversions {pair : Nat × Ty} (member : pair ∈ conversions resolution indices) :
    ∃ place ∈ resolution.coercions, indices[place]? = some pair.1 ∧
      resolution.params[place]? = some pair.2 := by
  obtain ⟨place, isPlace, rfl⟩ := List.mem_map.mp member
  obtain ⟨inIndices, inParams⟩ := inRange place isPlace
  exact ⟨place, isPlace, by simp [inIndices], by simp [inParams]⟩

theorem convertArguments_conversions (branch : Branch) :
    convertArguments (branch.slotsAt indices) resolution resolution.coercions =
      coerceEach ((conversions resolution indices).map fun pair => (⟨branch.id, pair.1⟩, pair.2)) := by
  refine convertArguments_eq ?_
  rw [conversions, List.map_map, List.forall₂_map_right_iff, List.forall₂_same]
  intro place member
  obtain ⟨inIndices, inParams⟩ := inRange place member
  simp [Branch.slotsAt, inIndices, inParams]

variable (nodup : indices.Nodup)

include nodup

theorem nodup_conversions (distinct : resolution.coercions.Nodup) :
    ((conversions resolution indices).map Prod.fst).Nodup := by
  rw [conversions, List.map_map]
  refine distinct.map_on ?_
  intro place member other memberOther same
  have inFirst := (inRange place member).1
  have inOther := (inRange other memberOther).1
  simp only [Function.comp_apply, List.getD_eq_getElem?_getD, List.getElem?_eq_getElem inFirst,
    List.getElem?_eq_getElem inOther, Option.getD_some] at same
  exact nodup.getElem_inj_iff.mp same

theorem notMem_conversions (isIndex : indices[place]? = some index)
    (absent : place ∉ resolution.coercions) :
    index ∉ (conversions resolution indices).map Prod.fst := by
  intro member
  obtain ⟨pair, isPair, rfl⟩ := List.mem_map.mp member
  obtain ⟨other, isOther, isFirst, _⟩ := exists_of_mem_conversions inRange isPair
  obtain ⟨inIndices, isIndex⟩ := List.getElem?_eq_some_iff.mp isIndex
  obtain ⟨inOther, isFirst⟩ := List.getElem?_eq_some_iff.mp isFirst
  exact absent (nodup.getElem_inj_iff.mp (isIndex.trans isFirst.symm) ▸ isOther)

end Conversions

structure Fitting (premise : Premise) (calm : Calm) (first : Environment)
    (unseen : Nat → Option Label → Prop) (old : CheckState) (branch : Branch) (indices : List Nat) (types : List Ty)
    (resolution : Resolution) (new : CheckState) (after : Branch) : Prop where
  alike : branch.Alike after
  isOpen : Open premise calm first unseen new after
  environment : new.environment = old.environment
  scopes : new.scopes = old.scopes
  kept : ∀ place index ty, indices[place]? = some index → types[place]? = some ty →
    place ∉ resolution.coercions → after.SuitsAt index ty
  converted : ∀ place index ty, indices[place]? = some index →
    resolution.params[place]? = some ty → place ∈ resolution.coercions → after.SuitsAt index ty

theorem convertArguments_yields {environment : Environment} {receiver types : List Ty}
    {candidates : List MemberId} {resolution : Resolution}
    (isOpen : Open premise calm first unseen old branch) (nodup : indices.Nodup)
    (suits : List.Forall₂ branch.SuitsAt indices types)
    (seen : ∀ index ∈ indices, ¬ unseen index (Branch.roleAt branch.kids index))
    (found : (environment.resolve receiver candidates types).found = some resolution) :
    (convertArguments (branch.slotsAt indices) resolution resolution.coercions).Yields calm old branch
      fun _ new after =>
        Fitting premise calm first unseen old branch indices types resolution new after := by
  obtain ⟨_, expected, bindings, attempted⟩ := Environment.resolve_attempted found
  have length := suits.length_eq
  have inRange : ∀ place ∈ resolution.coercions, place < indices.length ∧
      place < resolution.params.length := by
    intro place member
    obtain ⟨arg, param, isArg, isParam, _⟩ := attempted.coerced member
    have argRange := (List.getElem?_eq_some_iff.mp isArg).1
    exact ⟨by omega, (List.getElem?_eq_some_iff.mp isParam).1⟩
  have suitsAt : ∀ {place index : Nat} {ty : Ty}, indices[place]? = some index → types[place]? = some ty →
      branch.SuitsAt index ty := by
    intro place index ty isIndex isType
    obtain ⟨inIndices, rfl⟩ := List.getElem?_eq_some_iff.mp isIndex
    obtain ⟨inTypes, rfl⟩ := List.getElem?_eq_some_iff.mp isType
    exact (List.forall₂_iff_get.mp suits).2 place inIndices inTypes
  -- The arguments that fit are not touched, and so the types that they have still suit.
  rw [convertArguments_conversions inRange]
  refine (coerceEach_yields isOpen (nodup_conversions inRange nodup attempted.nodup) ?_).mono ?_
  · intro pair member
    obtain ⟨place, _, isIndex, _⟩ := exists_of_mem_conversions inRange member
    have inTypes : place < types.length := length ▸ (List.getElem?_eq_some_iff.mp isIndex).1
    obtain ⟨kid, isKid, ty, isTyped, _⟩ := suitsAt isIndex (List.getElem?_eq_getElem inTypes)
    exact ⟨kid, ty, isKid, isTyped, seen _ (List.mem_of_getElem? isIndex)⟩
  · intro _ new after _ converted
    refine ⟨converted.alike, converted.isOpen, converted.environment, converted.scopes, ?_, ?_⟩
    · intro place index ty isIndex isType absent
      obtain ⟨kid, isKid, suitsKid⟩ := suitsAt isIndex isType
      have apart := notMem_conversions inRange nodup isIndex absent
      exact ⟨kid, (converted.others index apart).trans isKid, suitsKid⟩
    · intro place index ty isIndex isType member
      exact converted.suits _ (mem_conversions isIndex isType member)

theorem Fitting.resolved {types receiver : List Ty} {candidates : List MemberId}
    {resolution : Resolution} {new : CheckState} {after : Branch} {arguments : List Branch}
    (fitting : Fitting premise calm first unseen old branch indices types resolution new after)
    (found : (old.environment.resolve receiver candidates types).found = some resolution)
    (registered : ∀ id ∈ candidates, id < old.environment.registry.members.size)
    (length : types.length = indices.length)
    (isArgument : List.Forall₂ (fun index arg => after.kids[index]? = some arg) indices arguments) :
    Resolved new.environment arguments resolution receiver types candidates := by
  have isAt : ∀ {place : Nat} {arg : Branch}, arguments[place]? = some arg →
      ∃ index, indices[place]? = some index ∧ after.kids[index]? = some arg := by
    intro place arg isArg
    obtain ⟨inArguments, rfl⟩ := List.getElem?_eq_some_iff.mp isArg
    have inIndices : place < indices.length := by
      rw [isArgument.length_eq]
      exact inArguments
    exact ⟨indices[place], List.getElem?_eq_getElem inIndices,
      (List.forall₂_iff_get.mp isArgument).2 place inIndices inArguments⟩
  rw [fitting.environment]
  refine ⟨found, registered, length.trans isArgument.length_eq, ?_, ?_⟩
  · intro place arg ty isArg isTy absent
    obtain ⟨index, isIndex, isKid⟩ := isAt isArg
    obtain ⟨other, isOther, suits⟩ := fitting.kept place index ty isIndex isTy absent
    rw [isKid, Option.some.injEq] at isOther
    rw [isOther]
    exact suits
  · intro place arg ty isArg isTy member
    obtain ⟨index, isIndex, isKid⟩ := isAt isArg
    obtain ⟨other, isOther, suits⟩ := fitting.converted place index ty isIndex isTy member
    rw [isKid, Option.some.injEq] at isOther
    rw [isOther]
    exact suits

end Check

end ScriptTyping
