import ScriptTyping.Proofs.Check.Step
import ScriptTyping.Proofs.Environment.Growth
import ScriptTyping.Proofs.Locality.Realm

/-!
Two runs of a step from states that agree on a realm, in the same environment and scopes. They end
alike: with the same fault, or with the same result in states that again agree. The second may have
more visits left, so that it goes on where the first gives up.
-/

namespace ScriptTyping

/-! ### Scopes -/

namespace ScopeStack

def local? (scopes : ScopeStack) (name : String) : Option Ty :=
  scopes.visible.head?.bind (·.get? name)

structure Widens (old new : ScopeStack) : Prop where
  evolves : old.Evolves new
  keeps : ∀ name, (old.local? name).isSome → (new.local? name).isSome

section Widens

variable {old new first second third : ScopeStack}

theorem Widens.refl (scopes : ScopeStack) : scopes.Widens scopes := ⟨.refl scopes, fun _ => id⟩

theorem Widens.trans (early : first.Widens second) (late : second.Widens third) :
    first.Widens third :=
  ⟨early.evolves.trans late.evolves, fun name found => late.keeps name (early.keeps name found)⟩

theorem isSome_insert {block : Block} {name other : String} (ty : Ty)
    (found : (block.get? name).isSome) : ((block.insert other ty).get? name).isSome := by
  rw [Table.get?_insert]
  split <;> simp [found]

theorem declare_widens (scopes : ScopeStack) (name : String) (ty : Ty) :
    scopes.Widens (scopes.declare name ty) := by
  refine ⟨scopes.declare_evolves name ty, fun other found => ?_⟩
  obtain ⟨functions, toplevel⟩ := scopes
  cases functions with
  | nil =>
      cases toplevel with
      | nil => exact found
      | cons block blocks => exact isSome_insert ty found
  | cons scope outer =>
      obtain ⟨scopeName, parent, paramTypes, params, blocks, returnType⟩ := scope
      cases blocks with
      | nil => exact isSome_insert ty found
      | cons block blocks => exact isSome_insert ty found

theorem setReturnType_widens (scopes : ScopeStack) (ty : Ty) :
    scopes.Widens (scopes.setReturnType ty) := by
  refine ⟨scopes.setReturnType_evolves ty, fun name found => ?_⟩
  obtain ⟨functions, toplevel⟩ := scopes
  cases functions <;> exact found

theorem Evolves.endBlock_widens (evolves : old.beginBlock.Evolves new) :
    ∃ closed, new.endBlock = .ok closed ∧ old.Widens closed := by
  obtain ⟨closed, ended, outer, _⟩ := evolves.endBlock
  refine ⟨closed, ended, outer, fun name found => ?_⟩
  have visible : closed.visible = old.visible := by
    obtain ⟨functions, toplevel⟩ := old
    cases functions with
    | nil =>
        cases evolves with
        | @outside _ blocks count tail =>
            cases blocks with
            | nil => simp at count
            | cons block blocks =>
                rw [← Except.ok.inj ended]
                exact tail
    | cons scope others =>
        cases evolves with
        | @inside _ later _ _ inner =>
            obtain ⟨laterName, parent, types, params, blocks, returnType⟩ := later
            have tail := inner.outer
            have sameParams := inner.params (by simp)
            have count := inner.count
            cases blocks with
            | nil => simp at count
            | cons block blocks =>
                simp only [List.tail_cons] at tail sameParams
                rw [← Except.ok.inj ended]
                simp only [ScopeStack.visible, tail, sameParams]
  rwa [local?, visible]

end Widens

end ScopeStack

/-! ### Pairs of states -/

namespace Realm

/-- Whether two states of checking agree on the realm, and on all but the tree, the errors, the
warnings and the log. -/
structure Pairs (realm : Realm) (left right : CheckState) : Prop where
  trees : realm.Joins left.tree right.tree
  environment : right.environment = left.environment
  scopes : right.scopes = left.scopes

def Extends {α : Type} (left right newLeft newRight : List α) : Prop :=
  ∃ more, newLeft = left ++ more ∧ newRight = right ++ more

def Records (left right newLeft newRight : Log) : Prop :=
  ∃ more, newLeft = left.map (· ++ more) ∧ newRight = right.map (· ++ more)

structure Advances (realm : Realm) (left right newLeft newRight : CheckState) : Prop where
  trees : realm.Shifts left.tree right.tree newLeft.tree newRight.tree
  environment : newRight.environment = newLeft.environment
  leads : left.environment.Leads newLeft.environment
  scopes : newRight.scopes = newLeft.scopes
  widens : left.scopes.Widens newLeft.scopes
  errors : Extends left.errors right.errors newLeft.errors newRight.errors
  warnings : Extends left.warnings right.warnings newLeft.warnings newRight.warnings
  log : Records left.log right.log newLeft.log newRight.log

/-- Whether checking may stop with a fault: a scope is never closed that is not open, and a column
overflows only where a node may start. -/
def Allows (realm : Realm) : Fault → Prop
  | .scope _ => False
  | .columnOverflow => ∃ text start, realm.source = some text ∧ realm.starts start ∧
      (LineIndex.ofSource text).position? start = none
  | _ => True

inductive Matches {α : Type} (realm : Realm) (fits : α → Prop) (left right : CheckState) :
    Except Fault (Except Failure α × CheckState) → Except Fault (Except Failure α × CheckState) →
      Prop where
  | gives {result : α} {newLeft newRight : CheckState} : fits result →
      realm.Advances left right newLeft newRight →
      Matches realm fits left right (.ok (.ok result, newLeft)) (.ok (.ok result, newRight))
  | fails {failure : Failure} {newLeft newRight : CheckState} :
      realm.inside failure.replacement → realm.Advances left right newLeft newRight →
      Matches realm fits left right (.ok (.error failure, newLeft)) (.ok (.error failure, newRight))
  | stops {fault : Fault} : realm.Allows fault →
      Matches realm fits left right (.error fault) (.error fault)
  | deeper {other : Except Fault (Except Failure α × CheckState)} :
      Matches realm fits left right (.error .tooDeep) other

section Matches

variable {realm : Realm} {left right newLeft newRight lastLeft lastRight : CheckState}

theorem Extends.refl {α : Type} (left right : List α) : Extends left right left right :=
  ⟨[], by simp, by simp⟩

theorem Extends.trans {α : Type} {left right newLeft newRight lastLeft lastRight : List α}
    (first : Extends left right newLeft newRight)
    (second : Extends newLeft newRight lastLeft lastRight) :
    Extends left right lastLeft lastRight := by
  obtain ⟨early, rfl, rfl⟩ := first
  obtain ⟨late, rfl, rfl⟩ := second
  exact ⟨early ++ late, by simp, by simp⟩

theorem Records.refl (left right : Log) : Records left right left right := ⟨[], by simp, by simp⟩

theorem Records.trans {left right newLeft newRight lastLeft lastRight : Log}
    (first : Records left right newLeft newRight)
    (second : Records newLeft newRight lastLeft lastRight) :
    Records left right lastLeft lastRight := by
  obtain ⟨early, rfl, rfl⟩ := first
  obtain ⟨late, rfl, rfl⟩ := second
  exact ⟨early ++ late, by simp [Function.comp_def], by simp [Function.comp_def]⟩

theorem Pairs.advances (pairs : realm.Pairs left right) : realm.Advances left right left right :=
  ⟨.refl pairs.trees, pairs.environment, .refl, pairs.scopes, .refl _, .refl _ _, .refl _ _,
    .refl _ _⟩

theorem Advances.pairs (advances : realm.Advances left right newLeft newRight) :
    realm.Pairs newLeft newRight :=
  ⟨advances.trees.joins, advances.environment, advances.scopes⟩

theorem Advances.trans (first : realm.Advances left right newLeft newRight)
    (second : realm.Advances newLeft newRight lastLeft lastRight) :
    realm.Advances left right lastLeft lastRight :=
  ⟨first.trees.trans second.trees, second.environment, first.leads.trans second.leads,
    second.scopes, first.widens.trans second.widens, first.errors.trans second.errors,
    first.warnings.trans second.warnings, first.log.trans second.log⟩

theorem Pairs.ofTrees (pairs : realm.Pairs left right) {first second : Tree}
    (shifts : realm.Shifts left.tree right.tree first second) :
    realm.Advances left right { left with tree := first } { right with tree := second } :=
  ⟨shifts, pairs.environment, .refl, pairs.scopes, .refl _, .refl _ _, .refl _ _, .refl _ _⟩

theorem Pairs.setEnvironment (pairs : realm.Pairs left right) {next : Environment}
    (leads : left.environment.Leads next) :
    realm.Advances left right { left with environment := next } { right with environment := next } :=
  ⟨.refl pairs.trees, rfl, leads, pairs.scopes, .refl _, .refl _ _, .refl _ _, .refl _ _⟩

end Matches

end Realm

/-! ### Steps -/

namespace Check

variable {α β : Type} {realm : Realm}

structure Agrees (realm : Realm) (fits : α → Prop) (step other : Check α) : Prop where
  ends : ∀ left right, realm.Pairs left right →
    realm.Matches fits left right (step.run.run left) (other.run.run right)

abbrev Obeys (realm : Realm) (fits : α → Prop) (step : Check α) : Prop :=
  Agrees realm fits step step

def Any (_ : α) : Prop := True

variable {fits between : α → Prop} {goal : β → Prop} {step other : Check α}
  {next onward : α → Check β} {id kid : NodeId} {ids : List NodeId} {label : Label} {slot : Slot}
  {current changed : Environment}

structure AgreesIn (realm : Realm) (current : Environment) (fits : α → Prop)
    (step other : Check α) : Prop where
  ends : ∀ left right, realm.Pairs left right → left.environment = current →
    realm.Matches fits left right (step.run.run left) (other.run.run right)

theorem Agrees.within (agrees : Agrees realm fits step other) :
    AgreesIn realm current fits step other :=
  ⟨fun left right pairs _ => agrees.ends left right pairs⟩

theorem Agrees.everywhere
    (agrees : ∀ environment, AgreesIn realm environment fits step other) :
    Agrees realm fits step other :=
  ⟨fun left right pairs => (agrees left.environment).ends left right pairs rfl⟩

theorem Agrees.pure {result : α} (reached : fits result) :
    Obeys realm fits (Pure.pure result) :=
  ⟨fun _ _ pairs => .gives reached pairs.advances⟩

theorem AgreesIn.bind (first : AgreesIn realm current between step other)
    (rest : ∀ result, between result → Agrees realm goal (next result) (onward result)) :
    AgreesIn realm current goal (step >>= next) (other >>= onward) := by
  refine ⟨fun left right pairs isIn => ?_⟩
  rw [run_bind, run_bind]
  have runs := first.ends left right pairs isIn
  generalize step.run.run left = ends at runs
  generalize other.run.run right = otherEnds at runs
  cases runs with
  | @gives result newLeft newRight reached advances =>
      have later := (rest result reached).ends newLeft newRight advances.pairs
      show realm.Matches goal left right ((next result).run.run newLeft)
        ((onward result).run.run newRight)
      generalize (next result).run.run newLeft = last at later
      generalize (onward result).run.run newRight = otherLast at later
      cases later with
      | gives goes onwards => exact .gives goes (advances.trans onwards)
      | fails inside onwards => exact .fails inside (advances.trans onwards)
      | stops allowed => exact .stops allowed
      | deeper => exact .deeper
  | fails inside advances => exact .fails inside advances
  | stops allowed => exact .stops allowed
  | deeper => exact .deeper

theorem Agrees.bind (first : Agrees realm between step other)
    (rest : ∀ result, between result → Agrees realm goal (next result) (onward result)) :
    Agrees realm goal (step >>= next) (other >>= onward) :=
  .everywhere fun _ => first.within.bind rest

theorem Agrees.bindAny (first : Agrees realm Any step other)
    (rest : ∀ result, Agrees realm goal (next result) (onward result)) :
    Agrees realm goal (step >>= next) (other >>= onward) :=
  first.bind fun result _ => rest result

/-! ### Reading and writing -/

theorem Agrees.read {view : CheckView → α}
    (same : ∀ left right : CheckState, realm.Pairs left right →
      view right.toCheckView = view left.toCheckView ∧ fits (view left.toCheckView)) :
    Obeys realm fits (Check.read view) := by
  refine ⟨fun left right pairs => ?_⟩
  obtain ⟨equal, reached⟩ := same left right pairs
  show realm.Matches fits left right (.ok (.ok (view left.toCheckView), left))
    (.ok (.ok (view right.toCheckView), right))
  rw [equal]
  exact .gives reached pairs.advances

theorem Agrees.write {change : CheckState → CheckState}
    (advances : ∀ left right, realm.Pairs left right →
      realm.Advances left right (change left) (change right)) :
    Obeys realm Any (Check.write change) :=
  ⟨fun left right pairs => .gives trivial (advances left right pairs)⟩

theorem Agrees.stop {fault : Fault} (allowed : realm.Allows fault) :
    Obeys realm fits (Check.stop fault) :=
  ⟨fun _ _ _ => .stops allowed⟩

theorem Agrees.build {change : Tree → α × Tree}
    (gives : ∀ left right, realm.Joins left right →
      realm.Gives fits left right (change left) (change right)) :
    Obeys realm fits (Check.build change) := by
  refine ⟨fun left right pairs => ?_⟩
  obtain ⟨same, reached, shifts⟩ := gives left.tree right.tree pairs.trees
  show realm.Matches fits left right (.ok (.ok (change left.tree).1, _))
    (.ok (.ok (change right.tree).1, _))
  rw [same]
  exact .gives reached (pairs.ofTrees shifts)

theorem Agrees.modifyTree {change : Tree → Tree}
    (shifts : ∀ left right, realm.Joins left right →
      realm.Shifts left right (change left) (change right)) :
    Obeys realm Any (Check.modifyTree change) :=
  .write fun left right pairs => pairs.ofTrees (shifts left.tree right.tree pairs.trees)

theorem Agrees.modifyScopes {change : ScopeStack → ScopeStack}
    (widens : ∀ scopes, ScopeStack.Widens scopes (change scopes)) :
    Obeys realm Any (Check.modifyScopes change) := by
  refine .write fun left right pairs => ?_
  refine ⟨.refl pairs.trees, pairs.environment, .refl, ?_, widens left.scopes, .refl _ _,
    .refl _ _, .refl _ _⟩
  exact congrArg change pairs.scopes

theorem Agrees.recordError (error : CheckError) :
    Obeys realm Any (Check.recordError error) :=
  .write fun _ _ pairs =>
    ⟨.refl pairs.trees, pairs.environment, .refl, pairs.scopes, .refl _, ⟨[error], rfl, rfl⟩,
      .refl _ _, .refl _ _⟩

theorem Agrees.note (event : Event) : Obeys realm Any (Check.note event) :=
  .write fun _ _ pairs =>
    ⟨.refl pairs.trees, pairs.environment, .refl, pairs.scopes, .refl _, .refl _ _, .refl _ _,
      ⟨[event], rfl, rfl⟩⟩

theorem Agrees.report (error : CheckError) : Obeys realm Any (Check.report error) :=
  .bindAny (.note _) fun _ => .recordError error

theorem Agrees.warn (warning : CheckWarning) : Obeys realm Any (Check.warn warning) := by
  refine .bindAny (.note _) fun _ => .write fun _ _ pairs => ?_
  exact ⟨.refl pairs.trees, pairs.environment, .refl, pairs.scopes, .refl _, .refl _ _,
    ⟨[warning], rfl, rfl⟩, .refl _ _⟩

theorem Agrees.environment : Obeys realm Any Check.environment :=
  .read fun _ _ pairs => ⟨pairs.environment, trivial⟩

theorem Agrees.noteTyped (id : NodeId) : Obeys realm Any (Check.noteTyped id) :=
  .bindAny .environment fun _ => .note _

theorem Agrees.scopes : Obeys realm Any Check.scopes :=
  .read fun _ _ pairs => ⟨pairs.scopes, trivial⟩

/-- What follows a look at the whole tree has to make the same of both trees. -/
theorem Agrees.bindTree {next onward : Tree → Check β}
    (rest : ∀ left right, realm.Joins left right → Agrees realm goal (next left) (onward right)) :
    Agrees realm goal (Check.tree >>= next) (Check.tree >>= onward) :=
  ⟨fun left right pairs => (rest left.tree right.tree pairs.trees).ends left right pairs⟩

/-! ### Changing the environment -/

/-- What follows a look at the environment may change it to one that it leads to. -/
theorem Agrees.bindEnvironment {next onward : Environment → Check β}
    (rest : ∀ environment, AgreesIn realm environment goal (next environment) (onward environment)) :
    Agrees realm goal (Check.environment >>= next) (Check.environment >>= onward) := by
  refine ⟨fun left right pairs => ?_⟩
  have runs := (rest left.environment).ends left right pairs rfl
  show realm.Matches goal left right ((next left.environment).run.run left)
    ((onward right.environment).run.run right)
  rw [pairs.environment]
  exact runs

theorem AgreesIn.bindRead {view : CheckView → α}
    (same : ∀ left right : CheckState, realm.Pairs left right →
      view right.toCheckView = view left.toCheckView)
    (rest : ∀ result, AgreesIn realm current goal (next result) (onward result)) :
    AgreesIn realm current goal (Check.read view >>= next) (Check.read view >>= onward) := by
  refine ⟨fun left right pairs isIn => ?_⟩
  have runs := (rest (view left.toCheckView)).ends left right pairs isIn
  show realm.Matches goal left right ((next (view left.toCheckView)).run.run left)
    ((onward (view right.toCheckView)).run.run right)
  rw [same left right pairs]
  exact runs

theorem AgreesIn.setEnvironment (leads : current.Leads changed) :
    AgreesIn realm current Any (Check.setEnvironment changed) (Check.setEnvironment changed) :=
  ⟨fun _ _ pairs isIn => .gives trivial (pairs.setEnvironment (isIn ▸ leads))⟩

/-! ### Failing and going on -/

def Fits (realm : Realm) (fits : α → Prop) : Except Failure α → Prop
  | .ok result => fits result
  | .error failure => realm.inside failure.replacement

theorem Agrees.attempt (agrees : Agrees realm fits step other) :
    Agrees realm (Fits realm fits) (Check.attempt step) (Check.attempt other) := by
  refine ⟨fun left right pairs => ?_⟩
  rw [run_attempt, run_attempt]
  have runs := agrees.ends left right pairs
  generalize step.run.run left = ends at runs
  generalize other.run.run right = otherEnds at runs
  cases runs with
  | gives reached advances => exact .gives reached advances
  | fails inside advances => exact .gives inside advances
  | stops allowed => exact .stops allowed
  | deeper => exact .deeper

theorem Agrees.settle {result : Except Failure α} (reached : Fits realm fits result) :
    Obeys realm fits (Check.settle result) := by
  refine ⟨fun left right pairs => ?_⟩
  cases result with
  | ok result => exact .gives reached pairs.advances
  | error failure => exact .fails reached pairs.advances

theorem Agrees.raise {failure : Failure} (inside : realm.inside failure.replacement) :
    Obeys realm fits (Check.raise failure) :=
  .bindAny (.note _) fun _ => .settle (by exact inside)

theorem Agrees.orRaise {result : Except Failure α} (reached : Fits realm fits result) :
    Obeys realm fits (Check.orRaise result) := by
  cases result with
  | ok value => exact .pure reached
  | error failure => exact .raise reached

theorem Agrees.fail {error : CheckError} (starts : realm.starts error.span.start) :
    Obeys realm fits (Check.fail error) :=
  .bind (.build fun _ _ joins => joins.failure starts) fun _ inside => .raise inside

/-! ### Reading nodes -/

theorem Agrees.spanOf (inside : realm.inside id) :
    Obeys realm (realm.starts ·.start) (Check.spanOf id) :=
  .read fun _ _ pairs => ⟨pairs.trees.span inside, (pairs.trees.closed.admits inside).start⟩

theorem Agrees.tagOf (inside : realm.inside id) :
    Obeys realm Any (Check.tagOf id) :=
  .read fun _ _ pairs => ⟨pairs.trees.tag inside, trivial⟩

theorem Agrees.textOf (inside : realm.inside id) :
    Obeys realm Any (Check.textOf id) :=
  .read fun _ _ pairs => ⟨pairs.trees.text inside, trivial⟩

theorem Agrees.bindingOf (inside : realm.inside id) :
    Obeys realm Any (Check.bindingOf id) :=
  .read fun left right pairs => by
    rw [Tree.binding, pairs.trees.get inside]
    exact ⟨rfl, trivial⟩

theorem Agrees.has (inside : realm.inside id) (label : Label) :
    Obeys realm Any (Check.has id label) :=
  .read fun left right pairs => by
    rw [Tree.has, pairs.trees.get inside]
    exact ⟨rfl, trivial⟩

theorem Agrees.childIds (inside : realm.inside id) :
    Obeys realm (∀ kid ∈ ·, realm.inside kid) (Check.childIds id) :=
  .read fun _ _ pairs =>
    ⟨pairs.trees.childIds inside, pairs.trees.closed.childIds inside⟩

theorem Agrees.child? (inside : realm.inside id) (label : Label) :
    Obeys realm (∀ kid ∈ ·, realm.inside kid) (Check.child? id label) :=
  .read fun _ _ pairs =>
    ⟨congrFun (pairs.trees.child? inside) label, fun _ found =>
      pairs.trees.closed.child? inside found⟩

end Check

end ScriptTyping
