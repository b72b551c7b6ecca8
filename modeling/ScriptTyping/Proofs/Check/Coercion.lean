import ScriptTyping.Proofs.Check.Open
import ScriptTyping.Proofs.Environment.Coercion

/-!
Bringing a checked child to a type. The child stays, is a null literal with another type, or gets a
conversion around it; in each case it has the type after that, or `never`.
-/

namespace ScriptTyping

namespace Branch

def wrapped (branch : Branch) (id : NodeId) (node : Node) (label : Option Label) : Branch :=
  mk branch.label id node [branch.under label]

theorem notes_wrapped (branch : Branch) (id : NodeId) {node : Node} (label : Option Label)
    (sound : node.tag ≠ .error) : (branch.wrapped id node label).notes = branch.notes := by
  rw [notes_below (by exact sound), wrapped, kids_mk, notesAll_singleton, notes_under]

end Branch

section Kept

variable {premise : Premise} {first : Environment} {last : Moment} {returnType : Option Ty}
  {kid : Branch}

theorem Settled.retype (settled : Settled premise first last returnType kid)
    (isNull : kid.node.tag = .nullValue) (typed : kid.node.ty.isSome = true) (ty : Ty) :
    Settled premise first last returnType
      (kid.alter fun node => { node with ty := some ty }) := by
  cases settled with
  | idle idle kids =>
      have other : ¬ (kid.alter fun node => { node with ty := some ty }).node.tag.isSequence = true := by
        simp [isNull, Tag.isSequence]
      exact .idle ⟨idle.unbound, idle.plain, fun _ => idle.aside typed, idle.clean,
        fun isSequence => absurd isSequence other⟩ kids
  | checked before after facts applies dated same kids =>
      refine .checked before after ?_ (applies.alike rfl rfl) dated same kids
      simp only [Branch.Facts, Branch.node_alter, isNull]

theorem Settled.wrapped {found required : Ty} {tag : Tag} {binding : Binding} {id : NodeId}
    {node : Node} (settled : Settled premise first last returnType kid)
    (leads : first.Leads last.environment) (dated : last.log.Holds (.typed id last.environment))
    (typed : kid.node.ty = some found)
    (justified : last.environment.Justifies found required tag binding) (isTag : node.tag = tag)
    (bound : node.binding = binding) (ty : node.ty = some required) :
    Settled premise first last returnType (kid.wrapped id node (some .expr)) := by
  have converts : (kid.wrapped id node (some .expr)).Converts found required :=
    ⟨kid.under (some .expr), rfl, rfl, typed, ty⟩
  have facts : (kid.wrapped id node (some .expr)).Facts premise last.environment last.errors
      returnType := by
    subst isTag
    unfold Branch.Facts
    simp only [Branch.wrapped, Branch.node_mk]
    generalize isTag : node.tag = tag at justified
    cases justified with
    | up assignable => exact fun _ => ⟨found, required, converts, assignable⟩
    | down allowed => exact fun _ => ⟨found, required, converts, allowed⟩
    | cast isEntry => exact ⟨found, required, _, converts, isEntry, bound⟩
  have applies : node.Applies := by
    cases justified with
    | up | down => exact .ofOther (by rw [bound]; rfl)
    | cast => exact .calling (by rw [isTag]; rfl) bound
  refine .checked leads .refl facts applies (fun _ => dated) (fun _ => rfl) ?_
  intro inner member
  rw [List.mem_singleton.mp member]
  exact settled.under (some .expr)

end Kept

/-! ### Conversions in the log -/

namespace CheckState

def converted (state : CheckState) (node coerced : NodeId) : CheckState :=
  if coerced = node then state else state.noted (.typed coerced state.environment)

variable (state : CheckState) (node coerced : NodeId)

theorem converted_self : state.converted node node = state := if_pos rfl

theorem converted_tree (tree : Tree) : CheckState.converted { state with tree } node coerced =
    { state.converted node coerced with tree } := by
  unfold converted
  split <;> rfl

/-- A conversion that is noted changes the log only. -/
theorem exists_converted (tree : Tree) : ∃ log, state.log.Leads log ∧
    { state.converted node coerced with tree } = { state with tree, log } := by
  unfold converted
  split
  · exact ⟨state.log, .refl _, rfl⟩
  · exact ⟨_, .note _ _, rfl⟩

theorem environment_converted : (state.converted node coerced).environment = state.environment := by
  unfold converted
  split <;> rfl

theorem scopes_converted : (state.converted node coerced).scopes = state.scopes := by
  unfold converted
  split <;> rfl

end CheckState

theorem Check.run_noteConversion (state : CheckState) (node coerced : NodeId) :
    (noteConversion node coerced).run.run state = .ok (.ok (), state.converted node coerced) := by
  unfold noteConversion CheckState.converted
  split <;> rfl

section Exchange

variable {premise : Premise} {calm : Calm} {first : Environment} {unseen : Nat → Option Label → Prop}
  {old : CheckState} {branch kid newKid : Branch} {index : Nat} {middle : Tree}

theorem Open.replaced (isOpen : Open premise calm first unseen old branch)
    (found : branch.kids[index]? = some kid) (seen : ¬ unseen index (Branch.roleAt branch.kids index))
    (label : newKid.label = kid.label) (standsNew : middle.Stands newKid)
    (fresh : ∀ position ∈ newKid.ids, position ∈ kid.ids ∨ old.tree.nodes.size ≤ position)
    (frame : ∀ position, position < old.tree.nodes.size → position ∉ kid.ids →
      middle.get position = old.tree.get position)
    (size : old.tree.nodes.size ≤ middle.nodes.size) (root : middle.root = old.tree.root)
    (source : middle.source = old.tree.source) (notes : newKid.notes = kid.notes)
    (settled : Settled premise first old.moment old.scopes.returnType? newKid) :
    let new := { old with tree := middle.replaceAt branch.id index newKid.id }
    middle.childAt? branch.id index = some kid.id ∧
      Becomes calm old branch new (branch.setKid index newKid) ∧
      Open premise calm first unseen new (branch.setKid index newKid) := by
  have turns := Tree.Turns.replaceAt isOpen.stands found label standsNew fresh frame size root source
  have becomes : Becomes calm old branch _ (branch.setKid index newKid) :=
    .ofTree turns (Branch.notes_setKid_same found notes)
  have here : middle.childAt? branch.id index = some kid.id := by
    have notTop := isOpen.stands.id_notMem (List.mem_of_getElem? found)
    rw [Tree.childAt?, frame _ isOpen.stands.holds.bound notTop, ← Tree.childAt?,
      isOpen.stands.holds.childAt?_eq, found, Option.map_some]
  exact ⟨here, becomes,
    isOpen.exchange becomes.evolves turns.stands turns.size found label settled
      (fun _ _ known => known) seen⟩

theorem Open.wrapped (isOpen : Open premise calm first unseen old branch)
    (found : branch.kids[index]? = some kid)
    (seen : ¬ unseen index (Branch.roleAt branch.kids index)) {node : Node} {label : Option Label}
    (children : node.children = [⟨label, kid.id⟩])
    (sound : node.tag ≠ .error)
    (settled : Settled premise first old.moment old.scopes.returnType?
      (kid.wrapped (old.tree.alloc node).1 node label)) :
    let middle := (old.tree.alloc node).2
    let newKid := kid.wrapped (old.tree.alloc node).1 node label
    let new := { old with tree := middle.replaceAt branch.id index newKid.id }
    middle.childAt? branch.id index = some kid.id ∧
      Becomes calm old branch new (branch.setKid index newKid) ∧
      Open premise calm first unseen new (branch.setKid index newKid) := by
  have stands := isOpen.stands.kid (List.mem_of_getElem? found)
  have adds := old.tree.alloc_adds node
  refine isOpen.replaced found seen rfl ?_ ?_ (fun position bound _ => adds.get position bound)
    adds.size adds.root adds.source (kid.notes_wrapped _ label sound) settled
  · refine Tree.stands_node ?_ (List.pairwise_singleton _ _) children kid.label
    intro inner member
    rw [List.mem_singleton.mp member]
    exact stands.under _
  · intro position inside
    simp only [Branch.wrapped, Branch.ids_eq (.mk _ _ _ _), Branch.id_mk, Branch.kids_mk,
      List.flatMap_singleton, Branch.ids_under, List.mem_cons] at inside
    rcases inside with same | inside
    · exact .inr (Nat.le_of_eq same.symm)
    · exact .inl inside

theorem Open.coerced (isOpen : Open premise calm first unseen old branch)
    (found : branch.kids[index]? = some kid)
    (seen : ¬ unseen index (Branch.roleAt branch.kids index)) {foundTy : Ty}
    (typed : kid.node.ty = some foundTy) (required : Ty) :
    (∃ newKid middle, newKid.label = kid.label ∧ newKid.Suits required ∧
        (newKid.node.tag = .list → kid.node.tag = .list) ∧
        old.environment.enforce old.tree kid.id required = (.ok newKid.id, middle) ∧
        middle.childAt? branch.id index = some kid.id ∧
        let new := { old.converted kid.id newKid.id with
          tree := middle.replaceAt branch.id index newKid.id }
        Becomes calm old branch new (branch.setKid index newKid) ∧
          Open premise calm first unseen new (branch.setKid index newKid)) ∨
      ∃ error : CheckError, error.cause.isFatal = true ∧
        old.environment.enforce old.tree kid.id required =
          (.error (Failure.ofError old.tree error).1, (Failure.ofError old.tree error).2) := by
  have member : kid ∈ branch.kids := List.mem_of_getElem? found
  have stands := isOpen.stands.kid member
  have settled := isOpen.settled kid member
  have typeHere : (old.tree.ty? kid.id).getD .never = foundTy := by
    rw [stands.holds.ty?_eq, typed, Option.getD_some]
  have cases := old.environment.enforce_cases old.tree kid.id required
  simp only [typeHere] at cases
  rcases cases with ⟨kept, result⟩ | ⟨isNull, _, result⟩ | ⟨tag, binding, justified, _, result⟩ |
    ⟨_, _, result⟩
  · have suits : kid.Suits required := ⟨foundTy, typed, kept⟩
    have rest := isOpen.replaced found seen rfl stands (fun _ inside => .inl inside)
      (fun _ _ _ => rfl) (Nat.le_refl _) rfl rfl rfl settled
    exact .inl ⟨kid, old.tree, rfl, suits, id, result, by rw [old.converted_self kid.id]; exact rest⟩
  · rw [stands.holds.tag_eq] at isNull
    let newKid := kid.alter fun node => { node with ty := some required }
    have turns : old.tree.Turns kid (old.tree.setType kid.id required) newKid := .alter stands rfl rfl
    have suits : newKid.Suits required := ⟨required, rfl, .inl BEq.rfl⟩
    have rest := isOpen.replaced found seen turns.label turns.stands turns.fresh turns.frame
      turns.size turns.root turns.source (Branch.notes_alter rfl)
      (settled.retype isNull (by rw [typed]; rfl) required)
    have stays : old.converted kid.id newKid.id = old := old.converted_self kid.id
    exact .inl ⟨newKid, _, rfl, suits, id, result, by rw [stays]; exact rest⟩
  · let node : Node := {
      tag, span := old.tree.span kid.id, children := [⟨some .expr, kid.id⟩], ty := some required,
      binding, done := true }
    let newKid := kid.wrapped (old.tree.alloc node).1 node (some .expr)
    have suits : newKid.Suits required := ⟨required, rfl, .inl BEq.rfl⟩
    let event : Event := .typed newKid.id old.environment
    have isNew : newKid.id ≠ kid.id := Nat.ne_of_gt stands.holds.bound
    have converts : old.converted kid.id newKid.id = old.noted event := if_neg isNew
    have opens : Open premise calm first unseen (old.noted event) branch :=
      isOpen.ofState rfl (.noted old event)
    have settledNew :
        Settled premise first (old.noted event).moment old.scopes.returnType? newKid :=
      (opens.settled kid member).wrapped isOpen.leads (Log.holds_note old.log event) typed justified
        rfl rfl rfl
    have sound : tag ≠ .error := by
      cases justified <;> simp
    have wraps : newKid.node.tag ≠ .list := by
      show tag ≠ .list
      cases justified <;> simp
    obtain ⟨here, becomes, rest⟩ := opens.wrapped found seen rfl sound settledNew
    refine .inl ⟨newKid, (old.tree.alloc node).2, rfl, suits, fun isList => absurd isList wraps,
      result, here, ?_⟩
    rw [converts]
    exact ⟨(Becomes.noted isOpen.stands event).trans becomes, rest⟩
  · exact .inr ⟨_, rfl, result⟩

end Exchange

namespace Check

variable {premise : Premise} {calm : Calm} {first : Environment} {unseen : Nat → Option Label → Prop}
  {old : CheckState} {branch kid : Branch} {index : Nat}

structure Coerced (premise : Premise) (calm : Calm) (first : Environment)
    (unseen : Nat → Option Label → Prop) (old : CheckState) (branch kid : Branch) (index : Nat)
    (required : Ty) (new : CheckState) (after newKid : Branch) : Prop where
  label : newKid.label = kid.label
  suits : newKid.Suits required
  changed : after = branch.setKid index newKid
  isOpen : Open premise calm first unseen new after
  environment : new.environment = old.environment
  scopes : new.scopes = old.scopes
  listed : newKid.node.tag = .list → kid.node.tag = .list

theorem coerce_yields (isOpen : Open premise calm first unseen old branch)
    (found : branch.kids[index]? = some kid)
    (seen : ¬ unseen index (Branch.roleAt branch.kids index)) {foundTy : Ty}
    (typed : kid.node.ty = some foundTy) (required : Ty) :
    (coerce ⟨branch.id, index⟩ required).Yields calm old branch fun node new after =>
      ∃ newKid, node = newKid.id ∧
        Coerced premise calm first unseen old branch kid index required new after newKid := by
  have here : old.tree.childAt? branch.id index = some kid.id := by
    rw [isOpen.stands.holds.childAt?_eq, found, Option.map_some]
  have occupied : (occupant ⟨branch.id, index⟩).run.run old = .ok (.ok kid.id, old) :=
    run_occupant here
  refine .bindRun occupied (.refl isOpen.stands) (.bindRead isOpen.stands ?_)
  rcases isOpen.coerced found seen typed required with
    ⟨newKid, middle, label, suits, listed, result, hereLater, becomes, opens⟩ |
      ⟨error, fatal, result⟩
  · refine .ofRun ?_ becomes ⟨newKid, rfl, label, suits, rfl, opens,
      old.environment_converted .., old.scopes_converted .., listed⟩
    have built : (build (old.environment.enforce · kid.id required)).run.run old =
        .ok (.ok (.ok newKid.id), { old with tree := middle }) := by
      simp only [run_build, result]
    have noted : (noteConversion kid.id newKid.id).run.run { old with tree := middle } =
        .ok (.ok (), { old.converted kid.id newKid.id with tree := middle }) := by
      rw [run_noteConversion, CheckState.converted_tree]
    have replaced : (replace ⟨branch.id, index⟩ newKid.id).run.run
        { old.converted kid.id newKid.id with tree := middle } =
          .ok (.ok (), { old.converted kid.id newKid.id with
            tree := middle.replaceAt branch.id index newKid.id }) :=
      run_replace newKid.id hereLater
    rw [run_bind, built]
    show (orRaise (.ok newKid.id) >>= _).run.run _ = _
    rw [run_bind]
    show (noteConversion kid.id newKid.id >>= _).run.run _ = _
    rw [run_bind, noted]
    show (replace ⟨branch.id, index⟩ newKid.id >>= _).run.run _ = _
    rw [run_bind, replaced]
    rfl
  · have breaks : ScriptTyping.Breaks calm old branch _ _ := Breaks.ofError old branch fatal
    have failed : (build (old.environment.enforce · kid.id required)).run.run old =
        .ok (.ok (.error (Failure.ofError old.tree error).1),
          { old with tree := (Failure.ofError old.tree error).2 }) := by
      simp only [run_build, result]
    unfold Yields
    rw [run_bind, failed]
    exact breaks

end Check

end ScriptTyping
