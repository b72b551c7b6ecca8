import ScriptTyping.Proofs.Environment.Coercion
import ScriptTyping.Proofs.Environment.Enforcement
import ScriptTyping.Proofs.Ownership.Conversion

/-!
Bringing the checked items of a list to types, one item after another. What is done for one of them
leaves the others as they were, so each of them meets its type as the types alone say.
-/

namespace ScriptTyping

namespace Tree

structure Offers (tree : Tree) (id : NodeId) (ty : Ty) : Prop where
  typed : tree.ty? id = some ty
  null : tree.tag id = .nullValue → ty = .object

theorem Offers.congr {tree other : Tree} {id : NodeId} {ty : Ty} (offers : tree.Offers id ty)
    (same : other.get id = tree.get id) : other.Offers id ty := by
  refine ⟨?_, ?_⟩
  · rw [ty?, same]
    exact offers.typed
  · rw [tag, same]
    exact offers.null

structure Lists (tree : Tree) (list : NodeId) (types : List Ty) (pending : List Nat) : Prop where
  item : ∀ index ∈ pending, ∃ node ty, tree.childAt? list index = some node ∧
    types[index]? = some ty ∧ node ≠ list ∧ tree.Offers node ty
  apart : ∀ index ∈ pending, ∀ other ∈ pending,
    tree.childAt? list index = tree.childAt? list other → index = other

variable {tree new : Tree} {list node result kid : NodeId} {types : List Ty} {ty required : Ty}
  {index other : Nat} {pending rest : List Nat}

theorem Lists.mono (lists : tree.Lists list types pending) (fewer : rest ⊆ pending) :
    tree.Lists list types rest :=
  ⟨fun index member => lists.item index (fewer member),
    fun index isIndex other isOther => lists.apart index (fewer isIndex) other (fewer isOther)⟩

theorem bound_of_childAt? (found : tree.childAt? list index = some node) :
    list < tree.nodes.size := by
  by_contra beyond
  rw [childAt?, get_beyond (Nat.not_lt.mp beyond)] at found
  cases found

theorem childAt?_replaceAt_other (bound : list < tree.nodes.size) (different : index ≠ other) :
    (tree.replaceAt list index kid).childAt? list other = tree.childAt? list other := by
  rw [childAt?, replaceAt, get_modify_self _ _ bound, Node.childAt?_eq, Node.children_replaceAt,
    List.getElem?_set_ne different, childAt?, Node.childAt?_eq]

/-- When an item was brought to a type, the others wait as before. -/
theorem Lists.bring (lists : tree.Lists list types (index :: rest)) (fresh : index ∉ rest)
    (found : tree.childAt? list index = some node)
    (brings : tree.Brings node required result new) :
    new.childAt? list index = some node ∧
      (new.replaceAt list index result).Lists list types rest := by
  obtain ⟨first, _, isFirst, _, notList, _⟩ := lists.item index List.mem_cons_self
  obtain rfl : first = node := Option.some.inj (isFirst.symm.trans found)
  -- a conversion is a new node behind all others, so the list and the waiting items are older
  have top : new.get list = tree.get list :=
    brings.get_other (bound_of_childAt? found) notList.symm
  have place : ∀ other ∈ rest,
      (new.replaceAt list index result).childAt? list other = tree.childAt? list other := by
    intro other pending
    have different : index ≠ other := by
      rintro rfl
      exact fresh pending
    have bound := Nat.lt_of_lt_of_le (bound_of_childAt? found) brings.size
    rw [childAt?_replaceAt_other bound different, childAt?, top, childAt?]
  refine ⟨by rw [childAt?, top]; exact found, fun other pending => ?_, ?_⟩
  · obtain ⟨node, ty, isNode, isTy, different, offers⟩ :=
      lists.item other (List.mem_cons_of_mem _ pending)
    have notFirst : node ≠ first := by
      rintro rfl
      have same := lists.apart index List.mem_cons_self other (List.mem_cons_of_mem _ pending)
        (found.trans isNode.symm)
      exact fresh (same ▸ pending)
    refine ⟨node, ty, (place other pending).trans isNode, isTy, different, offers.congr ?_⟩
    rw [replaceAt, get_modify_other _ _ different,
      brings.get_other (bound_of_ty? offers.typed) notFirst]
  · intro one isOne two isTwo same
    rw [place one isOne, place two isTwo] at same
    exact lists.apart one (List.mem_cons_of_mem _ isOne) two (List.mem_cons_of_mem _ isTwo) same

end Tree

namespace Check

variable {state : CheckState} {slot : Slot} {list node result : NodeId} {types : List Ty}
  {found required : Ty} {new : Tree} {failure : Failure} {index : Nat} {pending rest : List Nat}

/-! ### One item -/

theorem run_coerce (isNode : state.tree.childAt? slot.parent slot.index = some node)
    (accepted : state.environment.enforce state.tree node required = (.ok result, new))
    (kept : new.childAt? slot.parent slot.index = some node) :
    ∃ log, state.log.Leads log ∧ (coerce slot required).run.run state = .ok (.ok result,
      { state with tree := new.replaceAt slot.parent slot.index result, log }) := by
  have goesOn : (orRaise (.ok result)).run.run { state with tree := new } =
    .ok (.ok result, { state with tree := new }) := rfl
  have notes : (noteConversion node result).run.run { state with tree := new } =
      .ok (.ok (), { state.converted node result with tree := new }) := by
    rw [run_noteConversion, CheckState.converted_tree]
  have replaces : (replace slot result).run.run { state.converted node result with tree := new } = _ :=
    run_replace result kept
  obtain ⟨log, leads, same⟩ :=
    state.exists_converted node result (new.replaceAt slot.parent slot.index result)
  refine ⟨log, leads, ?_⟩
  rw [← same, coerce, run_bind, run_occupant isNode]
  dsimp only
  rw [run_bind, run_environment]
  dsimp only
  rw [run_bind, run_build, accepted]
  dsimp only
  rw [run_bind, goesOn]
  dsimp only
  rw [run_bind, notes]
  dsimp only
  rw [run_bind, replaces]
  rfl

theorem run_coerce_error (isNode : state.tree.childAt? slot.parent slot.index = some node)
    (refused : state.environment.enforce state.tree node required = (.error failure, new)) :
    (coerce slot required).run.run state = .ok (.error failure,
      { state with tree := new }.noted (.raised (.error failure.error))) := by
  rw [coerce, run_bind, run_occupant isNode]
  dsimp only
  rw [run_bind, run_environment]
  dsimp only
  rw [run_bind, run_build, refused]
  rfl

theorem run_coerce_of_flows (lists : state.tree.Lists list types (index :: rest))
    (fresh : index ∉ rest) (isFound : types[index]? = some found)
    (flows : state.environment.canCoerce found required = true) :
    ∃ result tree log, state.log.Leads log ∧ (coerce ⟨list, index⟩ required).run.run state =
        .ok (.ok result, { state with tree, log }) ∧ tree.Lists list types rest := by
  obtain ⟨node, ty, isNode, isTy, _, offers⟩ := lists.item index List.mem_cons_self
  obtain rfl : ty = found := Option.some.inj (isTy.symm.trans isFound)
  obtain ⟨result, accepted⟩ :=
    (state.environment.enforce_accepts_iff offers.typed required).mpr (.inl flows)
  have enforced : state.environment.enforce state.tree node required =
      (.ok result, (state.environment.enforce state.tree node required).2) := Prod.ext accepted rfl
  obtain ⟨kept, waits⟩ := lists.bring fresh isNode (Environment.enforce_brings offers.typed enforced)
  obtain ⟨log, leads, ran⟩ := @run_coerce state ⟨list, index⟩ _ _ _ _ isNode enforced kept
  exact ⟨result, _, log, leads, ran, waits⟩

/-- An item whose type does not flow into the required one is refused, unless it may be null. -/
theorem run_coerce_of_stuck (lists : state.tree.Lists list types (index :: rest))
    (isFound : types[index]? = some found)
    (stuck : state.environment.canCoerce found required = false) (notObject : found ≠ .object) :
    ∃ failure tree log span, (coerce ⟨list, index⟩ required).run.run state =
        .ok (.error failure, { state with tree, log }) ∧
      failure.error = ⟨.typeMismatch required found, span⟩ := by
  obtain ⟨node, ty, isNode, isTy, _, offers⟩ := lists.item index List.mem_cons_self
  obtain rfl : ty = found := Option.some.inj (isTy.symm.trans isFound)
  cases enforced : state.environment.enforce state.tree node required with
  | mk answer new =>
      cases answer with
      | ok result =>
          have accepted : ∃ result,
              (state.environment.enforce state.tree node required).1 = .ok result :=
            ⟨result, by rw [enforced]⟩
          rcases (state.environment.enforce_accepts_iff offers.typed required).mp accepted with
            flows | ⟨isNull, _⟩
          · rw [stuck] at flows
            cases flows
          · exact absurd (offers.null isNull) notObject
      | error failure =>
          obtain ⟨isError, _⟩ := Environment.enforce_refuses offers.typed enforced
          exact ⟨failure, new, _, _, run_coerce_error isNode enforced, isError⟩

/-! ### All items -/

theorem run_coerceEach (required : Nat → Ty) (lists : state.tree.Lists list types pending)
    (nodup : pending.Nodup) (flows : ∀ index ∈ pending, ∃ found, types[index]? = some found ∧
      state.environment.canCoerce found (required index) = true) :
    ∃ tree log, state.log.Leads log ∧
      (coerceEach (pending.map fun index => (⟨list, index⟩, required index))).run.run state =
        .ok (.ok (), { state with tree, log }) := by
  induction pending generalizing state with
  | nil => exact ⟨state.tree, state.log, .refl _, rfl⟩
  | cons index rest ih =>
      obtain ⟨fresh, nodup⟩ := List.nodup_cons.mp nodup
      obtain ⟨found, isFound, flowsFirst⟩ := flows index List.mem_cons_self
      obtain ⟨result, between, log, leads, ran, waits⟩ :=
        run_coerce_of_flows lists fresh isFound flowsFirst
      rw [List.map_cons, coerceEach, run_bind, ran]
      obtain ⟨tree, last, later, runs⟩ := @ih { state with tree := between, log } waits nodup
        fun other member => flows other (List.mem_cons_of_mem _ member)
      exact ⟨tree, last, leads.trans later, runs⟩

theorem run_convertArguments {resolution : Resolution} {slots : List Slot}
    (lists : state.tree.Lists list types pending) (nodup : pending.Nodup)
    (places : ∀ index ∈ pending, slots[index]? = some ⟨list, index⟩)
    (flows : ∀ index ∈ pending, ∃ arg param, types[index]? = some arg ∧
      resolution.params[index]? = some param ∧ state.environment.canCoerce arg param = true) :
    ∃ tree log, state.log.Leads log ∧ (convertArguments slots resolution pending).run.run state =
      .ok (.ok (), { state with tree, log }) := by
  have steps : convertArguments slots resolution pending = coerceEach
      (pending.map fun index => (⟨list, index⟩, resolution.params.getD index .never)) := by
    refine convertArguments_eq ?_
    rw [List.forall₂_map_right_iff, List.forall₂_same]
    intro index member
    obtain ⟨_, param, _, isParam, _⟩ := flows index member
    exact ⟨places index member, by simp [isParam]⟩
  rw [steps]
  refine run_coerceEach (resolution.params.getD · .never) lists nodup fun index member => ?_
  obtain ⟨arg, param, isArg, isParam, coerces⟩ := flows index member
  exact ⟨arg, isArg, by simpa [isParam] using coerces⟩

theorem run_coerceAll_object (lists : state.tree.Lists list types pending) (nodup : pending.Nodup)
    (valued : ∀ index ∈ pending, types[index]? ≠ some .void) :
    ∃ tree log, state.log.Leads log ∧
      (coerceAll .object (pending.map (Slot.mk list))).run.run state =
        .ok (.ok (), { state with tree, log }) := by
  rw [coerceAll_eq, List.map_map]
  refine run_coerceEach (fun _ => .object) lists nodup fun index member => ?_
  obtain ⟨_, ty, _, isTy, _⟩ := lists.item index member
  refine ⟨ty, isTy, Environment.canCoerce_object_iff_ne_void.mpr ?_⟩
  rintro rfl
  exact valued index member isTy

theorem run_coerceAll_void (lists : state.tree.Lists list types pending) (nodup : pending.Nodup)
    (valueless : ∃ index ∈ pending, types[index]? = some .void) :
    ∃ failure tree log span, (coerceAll .object (pending.map (Slot.mk list))).run.run state =
        .ok (.error failure, { state with tree, log }) ∧
      failure.error = ⟨.typeMismatch .object .void, span⟩ := by
  induction pending generalizing state with
  | nil =>
      obtain ⟨_, member, _⟩ := valueless
      cases member
  | cons index rest ih =>
      obtain ⟨fresh, nodup⟩ := List.nodup_cons.mp nodup
      obtain ⟨node, ty, _, isTy, _⟩ := lists.item index List.mem_cons_self
      rw [List.map_cons, coerceAll, run_bind]
      by_cases isVoid : ty = .void
      · subst isVoid
        have stuck : state.environment.canCoerce .void .object = false := by
          rw [← Bool.not_eq_true, Environment.canCoerce_object_iff_ne_void]
          exact not_not_intro rfl
        have different : Ty.void ≠ .object := by simp
        obtain ⟨failure, tree, log, span, ran, isError⟩ :=
          run_coerce_of_stuck lists isTy stuck different
        rw [ran]
        exact ⟨failure, tree, log, span, rfl, isError⟩
      · have flows := (@Environment.canCoerce_object_iff_ne_void state.environment ty).mpr isVoid
        obtain ⟨result, between, log, _, ran, waits⟩ := run_coerce_of_flows lists fresh isTy flows
        obtain ⟨place, member, isPlace⟩ := valueless
        have later : place ∈ rest := by
          rcases List.mem_cons.mp member with rfl | later
          · exact absurd (Option.some.inj (isTy.symm.trans isPlace)) isVoid
          · exact later
        rw [ran]
        exact @ih { state with tree := between, log } waits nodup ⟨place, later, isPlace⟩

end Check

end ScriptTyping
