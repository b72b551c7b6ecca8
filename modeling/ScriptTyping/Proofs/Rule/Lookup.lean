import ScriptTyping.Proofs.Check.Rearrange
import ScriptTyping.Proofs.Rule.Annotation
import ScriptTyping.Proofs.Rule.Stages

/-!
Binding a node to the member that accepts its arguments, which stand below the node itself or in an
argument list, or to a call of the runtime that takes them as they are.
-/

namespace ScriptTyping

namespace Check

variable {β : Type} {premise : Premise} {calm : Calm} {first : Environment} {seen : List Label}
  {unseen : Nat → Option Label → Prop} {old : CheckState} {branch items : Branch} {visit : Visit}
  {index : Nat} {label : Label} {types receiver : List Ty} {candidates : List MemberId}
  {resolution : Resolution}

structure Accepted (premise : Premise) (calm : Calm) (first : Environment)
    (unseen : Nat → Option Label → Prop) (branch : Branch) (hint : Hint) (resolution : Resolution)
    (ty : Ty) (new : CheckState) (after : Branch) : Prop where
  isOpen : Open premise calm first unseen new after
  tag : after.node.tag = branch.node.tag
  bound : after.node.binding = .invoke hint (.member resolution.member) resolution.typeArgs
  result : (after.typed ty).HasResult new.environment resolution
  serves : (after.typed ty).Serves new.environment new.errors

/-- A node is bound to the member that accepts the children at some positions. -/
theorem accept_yields {indices : List Nat} (hint : Hint)
    (isOpen : Open premise calm first unseen old branch)
    (isCalling : branch.node.tag.isCalling = true) (nodup : indices.Nodup)
    (suits : List.Forall₂ branch.SuitsAt indices types)
    (seen : ∀ index ∈ indices, ¬ unseen index (Branch.roleAt branch.kids index))
    (found : (old.environment.resolve receiver candidates types).found = some resolution)
    (registered : ∀ id ∈ candidates, id < old.environment.registry.members.size)
    (silent : ∀ id ∈ candidates, (old.environment.registry.member id).isDispatcher = false)
    (isArgument : ∀ after, branch.Alike after →
      List.Forall₂ (fun index arg => after.kids[index]? = some arg) indices after.arguments) :
    (accept branch.id hint resolution (branch.slotsAt indices)).Yields calm old branch
      fun ty new after => Accepted premise calm first unseen branch hint resolution ty new after := by
  refine (convertArguments_yields isOpen nodup suits seen found).bind ?_
  intro _ new after _ fitting
  rw [← fitting.alike.id]
  have isCallingNew : after.node.tag.isCalling = true := by
    rw [fitting.alike.tag]
    exact isCalling
  refine .bindModify fitting.isOpen rfl rfl (fitting.isOpen.inside.calling isCallingNew _ _ _) ?_
  intro last opens environment _
  refine .pure opens.stands
    ⟨opens, fitting.alike.tag, rfl, ⟨rfl, receiver, types, candidates, ?_⟩, ?_⟩
  · rw [environment]
    exact fitting.resolved found registered suits.length_eq.symm (isArgument after fitting.alike)
  · refine .ofBound rfl (.found (.inl ?_))
    rw [environment, fitting.environment]
    exact silent _ (Environment.resolve_attempted found).1

/-! ### Argument lists -/

theorem Yields.bindVisitList {next : List Ty → Check β} {post : β → CheckState → Branch → Prop}
    (visits : Visits premise visit) (isOpen : Open premise calm first (Unseen seen) old branch)
    (isKid : branch.Kid label index items) (isSeen : label ∈ seen) (isList : items.IsList)
    (raw : ∀ kid ∈ items.kids, Raw premise kid)
    (quiet : ∀ kid ∈ items.kids, calm.Implies kid.stored.calm)
    (rest : ∀ types new newItems, Becomes calm old items new newItems → newItems.IsList →
      newItems.Typed types → newItems.slots = items.slots →
      Open premise calm first (Unseen seen) new (branch.setKid index newItems) →
      (next types).Yields calm new (branch.setKid index newItems) post) :
    (visitAll visit items.slots >>= next).Yields calm old branch post := by
  refine (visitList_yields visits isOpen isKid isSeen isList raw quiet).bind ?_
  rintro types new _ _ ⟨newItems, ⟨becomes, alike, rfl, opens⟩, typed⟩
  exact rest types new newItems becomes (isList.alike alike) typed alike.slots_eq opens

theorem Yields.bindCoerceList {next : Unit → Check β} {post : β → CheckState → Branch → Prop}
    (ty : Ty) (isOpen : Open premise calm first (Unseen seen) old branch)
    (isKid : branch.Kid label index items) (isSeen : label ∈ seen) (isList : items.IsList)
    (typed : items.Typed types)
    (rest : ∀ new newItems, Becomes calm old items new newItems → newItems.IsList →
      Open premise calm first (Unseen seen) new (branch.setKid index newItems) →
      new.environment = old.environment →
      List.Forall₂ Branch.Suits newItems.kids (List.replicate items.slots.length ty) →
      (next ()).Yields calm new (branch.setKid index newItems) post) :
    (coerceAll ty items.slots >>= next).Yields calm old branch post := by
  refine (coerceList_yields ty isOpen isKid isSeen isList typed).bind ?_
  rintro _ new _ _ ⟨newItems, ⟨becomes, alike, rfl, opens⟩, environment, suits⟩
  exact rest new newItems becomes (isList.alike alike) opens environment suits

/-- Some children are spliced into their parent; the others have no notes. -/
theorem Yields.bindSplice {next : Unit → Check β} {post : β → CheckState → Branch → Prop}
    {indices : List Nat} {kids : List Branch} {ids : List NodeId}
    (isOpen : Open premise calm first unseen old branch) (nodup : indices.Nodup)
    (found : List.Forall₂ (fun index kid => branch.kids[index]? = some kid) indices kids)
    (silent : ∀ index kid, branch.kids[index]? = some kid → index ∉ indices → kid.notes = 0)
    (same : ids = kids.map Branch.id)
    (rest : ∀ new, Open premise calm first (fun _ _ => False) new (branch.flattened kids) →
      new.environment = old.environment → (next ()).Yields calm new (branch.flattened kids) post) :
    (modifyTree (·.flatten branch.id ids) >>= next).Yields calm old branch post := by
  rw [same]
  exact .bindFlatten isOpen ((Parts.ofOpen isOpen).pick _ nodup found silent)
    fun new opens environment _ => rest new opens environment

/-- A node is bound to the member that accepts the items of its argument list. The member is none
that the runtime calls, or a method of another child, and the other children stay. -/
theorem acceptList_yields (hint : Hint) (isLookup : hint ∈ [Hint.apply, .methodApply])
    (isOpen : Open premise calm first (Unseen seen) old branch)
    (isCalling : branch.node.tag.isCalling = true)
    (isKid : branch.Kid .param index items) (isSeen : Label.param ∈ seen) (isList : items.IsList)
    (typed : items.Typed types)
    (found : (old.environment.resolve receiver candidates types).found = some resolution)
    (registered : ∀ id ∈ candidates, id < old.environment.registry.members.size)
    (finds : ∀ id ∈ candidates, (old.environment.registry.member id).isDispatcher = false ∨
      ∃ position kid, position ≠ index ∧ branch.kids[position]? = some kid ∧
        kid.node.tag ≠ .list ∧ ∃ ty name, kid.node.ty = some ty ∧
          id ∈ old.environment.members ty name .method)
    (takesList : ∀ after : Branch, after.node.tag = branch.node.tag →
      after.arguments = ((after.first? .param).map Branch.kids).getD []) :
    (accept branch.id hint resolution items.slots).Yields calm old branch
      fun ty new after =>
        Accepted premise calm first (Unseen seen) branch hint resolution ty new after ∧
          ∀ label place kid, label ≠ .param → branch.Kid label place kid →
            after.Kid label place kid := by
  refine (convertList_yields isOpen isKid isSeen isList typed found registered).bind ?_
  rintro _ new after _ ⟨newItems, onList, same, resolved⟩
  have isKidNew := onList.isKid isKid
  have sameLabel := onList.becomes.turns.label
  obtain ⟨_, _, rfl, opens⟩ := onList
  refine .bindModify opens rfl rfl (opens.inside.calling isCalling _ _ _) ?_
  intro last opensLast environment _
  refine .pure opensLast.stands
    ⟨⟨opensLast, rfl, rfl, ⟨rfl, receiver, types, candidates, ?_⟩, .ofBound rfl (.found ?_)⟩,
      fun label place kid different isOther => ?_⟩
  · rw [environment, takesList _ (by rfl)]
    have isFirst := isKidNew.first?
    show Resolved _ (((branch.setKid index newItems).first? .param).map Branch.kids |>.getD []) _ _ _ _
    rw [isFirst]
    exact resolved
  · unfold Branch.Finds
    rw [environment, same]
    refine (finds _ (Environment.resolve_attempted found).1).imp_right ?_
    rintro ⟨position, kid, different, isKid, isMethod⟩
    refine ⟨isLookup, kid, List.mem_of_getElem? (i := position) ?_, isMethod⟩
    exact (Branch.getElem?_setKid_ne different).trans isKid
  · have kept := isOther.setKid_other isKid.found sameLabel (isKid.ne isOther different.symm)
    exact ⟨kept.first, kept.found⟩

/-! ### Calls of the runtime -/

structure Dispatched (premise : Premise) (calm : Calm) (first : Environment) (old : CheckState)
    (branch front : Branch) (count : Nat) (member : MemberId) (new : CheckState) (after : Branch) :
    Prop where
  isOpen : Open premise calm first (fun _ _ => False) new after
  id : after.id = branch.id
  tag : after.node.tag = branch.node.tag
  bound : after.node.binding = .static member
  environment : new.environment = old.environment
  kids : ∃ items : Branch, items.node.tag = .list ∧
    after.kids = ([front, items].flatMap Branch.opened).map (·.under none) ∧
    List.Forall₂ Branch.Suits items.kids (List.replicate count .object)

theorem dispatch_yields {front : Branch} {place : Nat}
    (isOpen : Open premise calm first (Unseen [label, .param]) old branch)
    (isCalling : branch.node.tag.isCalling = true) (isFront : branch.Kid label index front)
    (apart : label ≠ .param) (isItems : branch.Kid .param place items) (isList : items.IsList)
    (typed : items.Typed types) (member : MemberId) (ty : Ty) :
    (Rule.dispatch branch.id items.slots [front.id, items.id] member ty).Yields calm old branch
      fun result new after => result = ty ∧
        Dispatched premise calm first old branch front items.slots.length member new after := by
  have different := isFront.ne isItems apart
  refine .bindCoerceList .object isOpen isItems (by simp) isList typed ?_
  intro new newItems becomes isListNew opens environment suits
  have isFrontNew := isFront.setKid_other isItems.found becomes.turns.label (Ne.symm different)
  have isItemsNew := isItems.setKid_self becomes.turns.label
  have ids : [front.id, items.id] = [front, newItems].map Branch.id := by
    simp only [List.map_cons, List.map_nil, becomes.turns.id]
  refine .bindSplice opens (by simpa using different)
    (.cons isFrontNew.found (.cons isItemsNew.found .nil))
    (opens.others_silent (.cons ⟨_, isFrontNew⟩ (.cons ⟨_, isItemsNew⟩ .nil))) ids ?_
  intro flat opensFlat environmentFlat
  refine .bindModify opensFlat rfl rfl (opensFlat.inside.calling isCalling _ _ _) ?_
  intro last opensLast environmentLast _
  exact .pure opensLast.stands ⟨rfl, opensLast, rfl, rfl, rfl,
    environmentLast.trans (environmentFlat.trans environment), newItems, isListNew.tag, rfl, suits⟩

end Check

end ScriptTyping
