import ScriptTyping.Proofs.Ownership.Site
import ScriptTyping.Proofs.Rule.Control

/-!
Steps of a rule that stay within the place at which the rule works, whatever the environment and the
scopes are. They always come to an end: a child that is looked for at a position is there, and no
visit goes deeper than was foreseen.
-/

namespace ScriptTyping

def Fault.IsOuter : Fault → Prop
  | .scope _ => True
  | .columnOverflow => True
  | _ => False

namespace Check

variable {α β : Type}

/-- Whether a step of a rule stays within the place at which the rule works. -/
structure Works (site : Site) (step : Check α) (now : Tree) (post : α → Tree → Prop) : Prop where
  ends : ∀ state : CheckState, state.tree = now → match step.run.run state with
    | .error fault => fault.IsOuter
    | .ok (.ok result, new) => site.Keeps new.tree ∧ post result new.tree
    | .ok (.error failure, new) => site.Breaks new.tree failure

structure Remakes (step : Check α) (now : Tree) (branch : Branch) (levels : Nat) : Prop where
  ends : ∀ state : CheckState, state.tree = now → match step.run.run state with
    | .error fault => fault.IsOuter
    | .ok (.ok _, new) => ∃ after, now.Turns branch new.tree after ∧ after.height false ≤ levels
    | .ok (.error failure, new) => (Site.mk now branch levels).Breaks new.tree failure

def Masters (levels : Nat) (visit : Visit) : Prop :=
  ∀ {now : Tree} {branch : Branch}, now.Stands branch → branch.height false ≤ levels →
    (visit branch.id).Remakes now branch levels

def Aside (step : Check α) : Prop :=
  ∀ state, ∃ result new, step.run.run state = .ok (.ok result, new) ∧ new.tree = state.tree

variable {site : Site} {step : Check α} {next : α → Check β} {now : Tree}
  {between weaker : α → Tree → Prop} {post : β → Tree → Prop} {result : α} {id kid : NodeId}
  {visit : Visit} {label : Label} {slot : Slot}

/-! ### Steps one after another -/

theorem Works.pure (keeps : site.Keeps now) (reached : between result now) :
    Works site (Pure.pure result) now between :=
  ⟨fun _ same => ⟨same ▸ keeps, same ▸ reached⟩⟩

theorem Works.mono (works : Works site step now between)
    (weakens : ∀ result tree, site.Keeps tree → between result tree → weaker result tree) :
    Works site step now weaker := by
  refine ⟨fun state same => ?_⟩
  have ends := works.ends state same
  split at ends
  · exact ends
  · exact ⟨ends.1, weakens _ _ ends.1 ends.2⟩
  · exact ends

theorem Works.bind (first : Works site step now between)
    (rest : ∀ result tree, site.Keeps tree → between result tree →
      Works site (next result) tree post) : Works site (step >>= next) now post := by
  refine ⟨fun state same => ?_⟩
  have ends := first.ends state same
  rw [run_bind]
  cases ran : step.run.run state with
  | error fault =>
      rw [ran] at ends
      exact ends
  | ok answer =>
      obtain ⟨result, new⟩ := answer
      rw [ran] at ends
      cases result with
      | ok result => exact (rest _ _ ends.1 ends.2).ends _ rfl
      | error failure => exact ends

theorem Works.bindSame (first : Works site step now fun _ tree => tree = now)
    (rest : ∀ result, Works site (next result) now post) : Works site (step >>= next) now post := by
  refine first.bind fun result tree _ same => ?_
  rw [same]
  exact rest result

theorem Works.bindRun (run : ∀ state : CheckState, state.tree = now →
      step.run.run state = .ok (.ok result, state))
    (rest : Works site (next result) now post) : Works site (step >>= next) now post :=
  ⟨fun state same => by rw [run_bind, run state same]; exact rest.ends state same⟩

theorem Works.bindAside (aside : Aside step) (rest : ∀ result, Works site (next result) now post) :
    Works site (step >>= next) now post := by
  refine ⟨fun state same => ?_⟩
  obtain ⟨result, new, run, sameTree⟩ := aside state
  rw [run_bind, run]
  exact (rest result).ends new (sameTree.trans same)

theorem Works.bindModify {change : Tree → Tree} {next : Unit → Check β}
    (rest : Works site (next ()) (change now) post) :
    Works site (Check.modifyTree change >>= next) now post := by
  refine ⟨fun state same => ?_⟩
  subst same
  rw [run_bind]
  exact rest.ends { state with tree := change state.tree } rfl

theorem Works.bindBuild {change : Tree → α × Tree}
    (rest : Works site (next (change now).1) (change now).2 post) :
    Works site (Check.build change >>= next) now post := by
  refine ⟨fun state same => ?_⟩
  subst same
  rw [run_bind]
  exact rest.ends { state with tree := (change state.tree).2 } rfl

theorem Works.modifyTree {change : Tree → Tree} {reached : Unit → Tree → Prop}
    (keeps : site.Keeps (change now)) (done : reached () (change now)) :
    Works site (Check.modifyTree change) now reached :=
  ⟨fun state same => by subst same; exact ⟨keeps, done⟩⟩

theorem Works.build {change : Tree → α × Tree} (keeps : site.Keeps (change now).2)
    (done : between (change now).1 (change now).2) : Works site (Check.build change) now between :=
  ⟨fun state same => by subst same; exact ⟨keeps, done⟩⟩

/-! ### Failing -/

theorem Works.stop {fault : Fault} (outer : fault.IsOuter) :
    Works site (Check.stop fault : Check α) now between :=
  ⟨fun _ _ => outer⟩

theorem Works.bindBroken {failure : Failure} (breaks : site.Breaks now failure) :
    Works site (orRaise (.error failure) >>= next) now post :=
  ⟨fun _ same => by subst same; exact breaks⟩

def MayFail (site : Site) (now : Tree) : Prop :=
  ∀ error, site.Breaks (Failure.ofError now error).2 (Failure.ofError now error).1

theorem Works.failOf (mayFail : MayFail site now) (id : NodeId) (cause : ErrorCause) :
    Works site (Check.failAt id cause : Check α) now between :=
  ⟨fun state same => by subst same; exact mayFail ⟨cause, state.tree.span id⟩⟩

theorem Works.failAt (keeps : site.Keeps now) (id : NodeId) (cause : ErrorCause) :
    Works site (Check.failAt id cause : Check α) now between :=
  .failOf keeps.breaks id cause

/-! ### Around the tree -/

theorem aside_read (view : CheckView → α) : Aside (Check.read view) :=
  fun state => ⟨view state.toCheckView, state, rfl, rfl⟩

theorem aside_pure (result : α) : Aside (Pure.pure result : Check α) :=
  fun state => ⟨result, state, rfl, rfl⟩

theorem Aside.bind (first : Aside step) (rest : ∀ result, Aside (next result)) :
    Aside (step >>= next) := by
  intro state
  obtain ⟨result, middle, run, same⟩ := first state
  obtain ⟨last, new, runRest, sameRest⟩ := rest result middle
  exact ⟨last, new, by rw [run_bind, run]; exact runRest, sameRest.trans same⟩

theorem aside_environment : Aside Check.environment := aside_read _

theorem aside_scopes : Aside Check.scopes := aside_read _

theorem aside_modifyScopes (change : ScopeStack → ScopeStack) :
    Aside (Check.modifyScopes change) :=
  fun _ => ⟨(), _, rfl, rfl⟩

theorem aside_setEnvironment (environment : Environment) :
    Aside (Check.setEnvironment environment) :=
  fun _ => ⟨(), _, rfl, rfl⟩

theorem aside_recordError (error : CheckError) : Aside (Check.recordError error) :=
  fun _ => ⟨(), _, rfl, rfl⟩

theorem aside_note (event : Event) : Aside (Check.note event) := fun _ => ⟨(), _, rfl, rfl⟩

theorem aside_noteTyped (id : NodeId) : Aside (Check.noteTyped id) :=
  aside_environment.bind fun _ => aside_note _

theorem aside_report (error : CheckError) : Aside (Check.report error) :=
  (aside_note _).bind fun _ => aside_recordError error

theorem aside_warnAt (id : NodeId) (cause : WarningCause) : Aside (Check.warnAt id cause) :=
  fun _ => ⟨(), _, rfl, rfl⟩

theorem aside_textOf (id : NodeId) : Aside (Check.textOf id) := aside_read _

theorem Works.reject (keeps : site.Keeps now) (id : NodeId) (what : String)
    (rejected : List Rejection) :
    Works site (Check.reject id what rejected : Check α) now between :=
  .bindAside aside_environment fun _ => .failAt keeps id _

theorem Works.inBlock (works : Works site step now between) :
    Works site (Check.inBlock step) now between := by
  refine ⟨fun state same => ?_⟩
  have ends := works.ends { state with scopes := state.scopes.beginBlock } same
  rw [run_inBlock]
  split at ends
  · rename_i stopped
    rw [stopped]
    exact ends
  · rename_i new ran
    rw [ran]
    dsimp only
    cases new.scopes.endBlock with
    | ok closed => exact ends
    | error fault => trivial
  · rename_i new failed
    rw [failed]
    dsimp only
    cases new.scopes.endBlock with
    | ok closed => exact ends
    | error fault => trivial

theorem Works.inBlockIf (wanted : Bool) (works : Works site step now between) :
    Works site (Check.inBlockIf wanted step) now between := by
  cases wanted with
  | true => exact works.inBlock
  | false => exact works

/-! ### Reading nodes -/

theorem Works.bindTag {next : Tag → Check β} (rest : Works site (next (now.tag id)) now post) :
    Works site (tagOf id >>= next) now post :=
  .bindRun (fun _ same => by subst same; rfl) rest

theorem Works.bindChild? {next : Option NodeId → Check β}
    (rest : Works site (next (now.child? id label)) now post) :
    Works site (child? id label >>= next) now post :=
  .bindRun (fun _ same => by subst same; rfl) rest

theorem Works.bindChildIds {next : List NodeId → Check β}
    (rest : Works site (next (now.childIds id)) now post) :
    Works site (childIds id >>= next) now post :=
  .bindRun (fun _ same => by subst same; rfl) rest

theorem Works.bindSlots {next : List Slot → Check β}
    (rest : Works site (next (now.slots id)) now post) :
    Works site (Check.slots id >>= next) now post :=
  .bindRun (fun _ same => by subst same; rfl) rest

theorem Works.bindTree {next : Tree → Check β} (rest : Works site (next now) now post) :
    Works site (Check.tree >>= next) now post :=
  .bindRun (fun _ same => by subst same; rfl) rest

theorem Works.bindRequiredOf {next : NodeId → Check β} (mayFail : MayFail site now)
    (rest : ∀ kid, now.child? id label = some kid → Works site (next kid) now post) :
    Works site (required id label >>= next) now post := by
  rw [required, bind_assoc]
  refine .bindChild? ?_
  split
  · rename_i kid found
    rw [pure_bind]
    exact rest kid found
  · rw [bind_assoc]
    have failed : ∀ cause, Works site (Check.failAt id cause : Check NodeId) now
        fun _ _ => False := fun cause => .failOf mayFail id cause
    exact .bindTag ((failed _).bind fun _ _ _ none => none.elim)

theorem Works.bindRequired {next : NodeId → Check β} (keeps : site.Keeps now)
    (rest : ∀ kid, now.child? id label = some kid → Works site (next kid) now post) :
    Works site (required id label >>= next) now post :=
  .bindRequiredOf keeps.breaks rest

theorem Works.bindRequiredOrFirst {next : NodeId → Check β} (keeps : site.Keeps now)
    (rest : ∀ kid ∈ now.childIds id, Works site (next kid) now post) :
    Works site (requiredOrFirst id label >>= next) now post := by
  rw [requiredOrFirst, bind_assoc]
  refine .bindChild? ?_
  rw [bind_assoc]
  refine .bindChildIds ?_
  split
  · rename_i kid found
    rw [pure_bind]
    refine rest kid ?_
    rcases Option.or_eq_some_iff.mp found with labelled | ⟨_, first⟩
    · exact Tree.mem_childIds_of_child? labelled
    · exact List.mem_of_head? first
  · exact .bindRequired keeps fun kid found => rest kid (Tree.mem_childIds_of_child? found)

theorem Works.bindRequiredSlot {next : Slot → Check β} (keeps : site.Keeps now)
    (rest : ∀ index, (now.get site.id).indexOf? label = some index →
      Works site (next ⟨site.id, index⟩) now post) :
    Works site (requiredSlot site.id label >>= next) now post := by
  rw [requiredSlot, bind_assoc]
  refine .bindTree ?_
  split
  · rename_i index found
    rw [pure_bind]
    exact rest index found
  · rename_i absent
    rw [bind_assoc]
    refine .bindRequired keeps fun kid found => ?_
    rw [Tree.child?, Node.child?_eq, absent] at found
    simp at found

theorem Works.bindOccupant {next : NodeId → Check β}
    (found : now.childAt? slot.parent slot.index = some kid)
    (rest : Works site (next kid) now post) : Works site (occupant slot >>= next) now post :=
  .bindRun (fun _ same => run_occupant (same ▸ found)) rest

/-! ### Working at a child -/

theorem Works.check (masters : Masters site.room visit) (keeps : site.Keeps now)
    (member : kid ∈ now.childIds site.id) :
    Works site (visit kid) now fun _ tree => site.Spares kid now tree := by
  obtain ⟨inner, rfl, hasKid⟩ := keeps.hasKid member
  refine ⟨fun state same => ?_⟩
  have ends := (masters hasKid.stands hasKid.height).ends state same
  split at ends
  · exact ends
  · obtain ⟨after, turns, height⟩ := ends
    exact hasKid.inside turns height
  · exact hasKid.breaks ends

/-- A child that fails is replaced. -/
theorem Works.bindAttempt {index : Nat} {next : Except Failure Ty → Check β}
    (masters : Masters site.room visit) (keeps : site.Keeps now)
    (found : now.childAt? site.id index = some kid)
    (succeeded : ∀ ty tree, site.Keeps tree → tree.get site.id = now.get site.id →
      Works site (next (.ok ty)) tree post)
    (failed : ∀ failure tree, tree.get site.id = now.get site.id →
      site.Keeps (tree.replaceAt site.id index failure.replacement) →
      Works site (next (.error failure)) tree post) :
    Works site (attempt (visit kid) >>= next) now post := by
  obtain ⟨after, inner, rfl, turns, fits, isKid⟩ := keeps.kidAt found
  have hasKid : site.HasKid now inner := ⟨after, index, turns, fits, isKid⟩
  refine ⟨fun state same => ?_⟩
  have ends := (masters hasKid.stands hasKid.height).ends state same
  rw [run_bind, run_attempt]
  split at ends
  · rename_i stopped
    rw [stopped]
    exact ends
  · rename_i ran
    rw [ran]
    obtain ⟨newInner, turnsInner, height⟩ := ends
    obtain ⟨keepsNew, spares⟩ := hasKid.inside turnsInner height
    exact (succeeded _ _ keepsNew spares.top).ends _ rfl
  · rename_i broken
    rw [broken]
    obtain ⟨top, keepsNew⟩ := Site.recover turns fits isKid ends
    exact (failed _ _ top keepsNew).ends _ rfl

/-- A rule may work at a child as it does at its own node. -/
theorem Works.within {fits : α → Tree → Prop} (keeps : site.Keeps now)
    (member : kid ∈ now.childIds site.id) (single : (now.tag kid).isCompound = false)
    (works : ∀ inner : Site, inner.id = kid → inner.Keeps now →
      (now.tag kid = .list → inner.room = site.room) →
      Works inner step now fun result tree =>
        (now.get kid).SameKind (tree.get kid) ∧ fits result tree) :
    Works site step now fun result tree => site.Spares kid now tree ∧ fits result tree := by
  obtain ⟨part, rfl, hasKid⟩ := keeps.hasKid member
  have node : now.get part.id = part.node := hasKid.stands.holds.get_eq
  have height := hasKid.height
  rw [Tree.tag, node] at single works
  rw [part.height_single single] at height
  let inner : Site := ⟨now, part, site.room - part.node.cost⟩
  have fitting : inner.Fits part := by
    refine ⟨single, fun kid member => ?_⟩
    have lower := Branch.heightAll_le_iff.mp (Nat.le_refl (Branch.heightAll false part.kids)) kid
      member
    show kid.height false ≤ site.room - part.node.cost
    omega
  have room : part.node.tag = .list → inner.room = site.room := by
    intro isList
    show site.room - part.node.cost = site.room
    simp [Node.cost, isList, Tag.weight]
  refine ⟨fun state same => ?_⟩
  have ends := (works inner rfl (.refl hasKid.stands fitting) room).ends state same
  split at ends
  · exact ends
  · obtain ⟨⟨after, turns, fits⟩, kind, reached⟩ := ends
    have sameCost : after.node.cost = part.node.cost := by
      rw [← kind.cost, ← turns.stands.holds.get_eq, turns.id]
    have all : Branch.heightAll false after.kids ≤ site.room - part.node.cost :=
      Branch.heightAll_le_iff.mpr fits.kids
    obtain ⟨keepsNew, spares⟩ := hasKid.inside turns (by
      rw [after.height_single fits.single, sameCost]
      omega)
    exact ⟨keepsNew, spares, reached⟩
  · exact hasKid.breaks ends

end Check

end ScriptTyping
