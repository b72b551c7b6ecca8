import ScriptTyping.Proofs.Scope.Frames

/-!
Sequences of steps on scopes. What opens a block or a function and closes it again leaves no trace,
whatever is declared, opened and closed in between. Inside a function only what is declared there
is seen, the innermost declaration of a name first.
-/

namespace ScriptTyping

inductive ScopeStep where
  | enter (name : String)
  | exit
  | beginBlock
  | endBlock
  | setParams (params : List (String × Ty))
  | declare (name : String) (ty : Ty)
  | setReturnType (ty : Ty)

/-- Whether steps close what they open, and nothing else. They set parameters and a return type only
for a function that they enter, or for the one around them where that is allowed. -/
inductive Balanced : Bool → List ScopeStep → Prop where
  | nil {entered : Bool} : Balanced entered []
  | declare {entered : Bool} {name : String} {ty : Ty} {rest : List ScopeStep} :
      Balanced entered rest → Balanced entered (.declare name ty :: rest)
  | setParams {params : List (String × Ty)} {rest : List ScopeStep} :
      Balanced true rest → Balanced true (.setParams params :: rest)
  | setReturnType {ty : Ty} {rest : List ScopeStep} :
      Balanced true rest → Balanced true (.setReturnType ty :: rest)
  | block {entered : Bool} {inner rest : List ScopeStep} :
      Balanced entered inner → Balanced entered rest →
        Balanced entered (.beginBlock :: inner ++ .endBlock :: rest)
  | function {entered : Bool} {name : String} {inner rest : List ScopeStep} :
      Balanced true inner → Balanced entered rest →
        Balanced entered (.enter name :: inner ++ .exit :: rest)

inductive Bracketed : List ScopeStep → Prop where
  | block {inner : List ScopeStep} :
      Balanced false inner → Bracketed (.beginBlock :: inner ++ [.endBlock])
  | function {name : String} {inner : List ScopeStep} :
      Balanced true inner → Bracketed (.enter name :: inner ++ [.exit])

def ScopeStep.depth? : Nat → ScopeStep → Option Nat
  | depth, enter _ => some (depth + 1)
  | 0, exit => none
  | depth + 1, exit => some depth
  | depth, _ => some depth

def stays (steps : List ScopeStep) : Bool := (steps.foldlM ScopeStep.depth? 0).isSome

def ScopeStack.perform (scopes : ScopeStack) : ScopeStep → Except ScopeFault ScopeStack
  | .enter name => .ok (scopes.enterFunction name)
  | .exit => scopes.exitFunction.map Prod.snd
  | .beginBlock => .ok scopes.beginBlock
  | .endBlock => scopes.endBlock
  | .setParams params => .ok (scopes.setParams params)
  | .declare name ty => .ok (scopes.declare name ty)
  | .setReturnType ty => .ok (scopes.setReturnType ty)

def ScopeStack.performAll (scopes : ScopeStack) (steps : List ScopeStep) :
    Except ScopeFault ScopeStack :=
  steps.foldlM ScopeStack.perform scopes

def FrameStack.perform (stack : FrameStack) : ScopeStep → Option FrameStack
  | .enter name => some (stack.enterFunction name)
  | .exit => stack.exitFunction.map Prod.snd
  | .beginBlock => some stack.beginBlock
  | .endBlock => stack.endBlock
  | .setParams params => stack.setParams params
  | .declare name ty => some (stack.declare name ty)
  | .setReturnType ty => stack.setReturnType ty

def FrameStack.performAll (stack : FrameStack) (steps : List ScopeStep) : Option FrameStack :=
  steps.foldlM FrameStack.perform stack

structure FrameStack.Sound (stack : FrameStack) : Prop where
  params : ∀ frame ∈ stack.frames, frame.blocks ≠ []
  parent : ∀ index frame, stack.frames[index]? = some frame → frame.parent = outer? index

namespace ScopeStack

variable {scopes old middle new : ScopeStack} {steps inner rest : List ScopeStep} {step : ScopeStep}
  {entered : Bool}

/-! ### Frames -/

theorem framed_perform (scopes : ScopeStack) (step : ScopeStep) :
    scopes.framed.perform step = (scopes.perform step).toOption.map framed := by
  cases step with
  | enter name => exact congrArg some (scopes.framed_enterFunction name)
  | exit =>
      rw [FrameStack.perform, framed_exitFunction, perform]
      cases scopes.exitFunction <;> rfl
  | beginBlock => exact congrArg some scopes.framed_beginBlock
  | endBlock => exact scopes.framed_endBlock
  | setParams params => exact scopes.framed_setParams params
  | declare name ty => exact congrArg some (scopes.framed_declare name ty)
  | setReturnType ty => exact scopes.framed_setReturnType ty

theorem framed_performAll (scopes : ScopeStack) (steps : List ScopeStep) :
    scopes.framed.performAll steps = (scopes.performAll steps).toOption.map framed := by
  induction steps generalizing scopes with
  | nil => rfl
  | cons step steps ih =>
      rw [FrameStack.performAll, List.foldlM_cons, framed_perform, performAll, List.foldlM_cons]
      cases scopes.perform step with
      | ok next => exact ih next
      | error fault => rfl

def Linked : List FunctionScope → Prop
  | [] => True
  | scope :: rest => scope.parent = outer? rest.length ∧ Linked rest

theorem forall_getElem?_concat {α : Type} {front : List α} {last : α} {holds : Nat → α → Prop} :
    (∀ index value, (front ++ [last])[index]? = some value → holds index value) ↔
      holds front.length last ∧ ∀ index value, front[index]? = some value → holds index value := by
  constructor
  · intro all
    refine ⟨all _ _ List.getElem?_concat_length, fun index value found => all index value ?_⟩
    rw [List.getElem?_append_left (List.getElem?_eq_some_iff.mp found).1, found]
  · rintro ⟨isLast, inFront⟩ index value found
    rcases Nat.lt_or_ge index front.length with less | beyond
    · rw [List.getElem?_append_left less] at found
      exact inFront index value found
    · rw [List.getElem?_append_right beyond, List.getElem?_singleton] at found
      split at found
      · rename_i same
        rw [← Option.some.inj found, Nat.le_antisymm (Nat.sub_eq_zero_iff_le.mp same) beyond]
        exact isLast
      · simp at found

theorem linked_iff (functions : List FunctionScope) (toplevel : List Block) : Linked functions ↔
    ∀ index frame, (framed ⟨functions, toplevel⟩).frames[index]? = some frame →
      frame.parent = outer? index := by
  induction functions with
  | nil => simp [Linked, framed]
  | cons scope rest ih =>
      rw [frames_cons, forall_getElem?_concat, List.length_reverse, List.length_map, Linked, ih]
      rfl

theorem framed_sound_iff : scopes.framed.Sound ↔ Linked scopes.functions := by
  rw [linked_iff scopes.functions scopes.toplevel]
  refine ⟨fun sound => sound.parent, fun parent => ⟨fun frame member => ?_, parent⟩⟩
  obtain ⟨scope, _, rfl⟩ := List.mem_map.mp (List.mem_reverse.mp member)
  exact List.cons_ne_nil _ _

theorem Linked.perform (linked : Linked old.functions) (runs : old.perform step = .ok new) :
    Linked new.functions := by
  obtain ⟨functions, toplevel⟩ := old
  -- all but entering and leaving change the innermost function at most, and not its parent
  cases step with
  | enter name =>
      obtain rfl := Except.ok.inj runs
      refine ⟨?_, linked⟩
      cases functions <;> rfl
  | exit =>
      cases functions with
      | nil => cases runs
      | cons scope rest =>
          obtain rfl := Except.ok.inj runs
          exact linked.2
  | beginBlock =>
      obtain rfl := Except.ok.inj runs
      cases functions <;> exact linked
  | endBlock =>
      cases functions with
      | nil =>
          cases toplevel with
          | nil => cases runs
          | cons block blocks =>
              obtain rfl := Except.ok.inj runs
              exact linked
      | cons scope rest =>
          obtain ⟨name, parent, paramTypes, params, blocks, returnType⟩ := scope
          cases blocks with
          | nil => cases runs
          | cons block blocks =>
              obtain rfl := Except.ok.inj runs
              exact linked
  | setParams params =>
      obtain rfl := Except.ok.inj runs
      cases functions <;> exact linked
  | declare name ty =>
      obtain rfl := Except.ok.inj runs
      cases functions with
      | nil => cases toplevel <;> exact linked
      | cons scope rest =>
          obtain ⟨scopeName, parent, paramTypes, params, blocks, returnType⟩ := scope
          cases blocks <;> exact linked
  | setReturnType ty =>
      obtain rfl := Except.ok.inj runs
      cases functions <;> exact linked

theorem ok_of_toOption {α : Type} {result : Except ScopeFault α} {value : α}
    (isOk : result.toOption = some value) : result = .ok value := by
  cases result with
  | error fault => cases isOk
  | ok found => exact congrArg Except.ok (Option.some.inj isOk)

theorem Linked.performAll (linked : Linked old.functions) (runs : old.performAll steps = .ok new) :
    Linked new.functions := by
  induction steps generalizing old with
  | nil => exact Except.ok.inj runs ▸ linked
  | cons step steps ih =>
      rw [ScopeStack.performAll, List.foldlM_cons] at runs
      cases first : old.perform step with
      | error fault =>
          rw [first] at runs
          exact absurd runs nofun
      | ok middle =>
          rw [first] at runs
          exact ih (linked.perform first) runs

/-! ### What comes in brackets -/

/-- Whether steps may lead from one state to the other that open and close alike: in a function that
they have entered nothing else has to stay than how many blocks are open. Elsewhere only an open
block changes, so that to close it gives the same. -/
inductive Keeps : Bool → ScopeStack → ScopeStack → Prop where
  | function {scope other : FunctionScope} {rest : List FunctionScope} {toplevel : List Block} :
      other.blocks.length = scope.blocks.length →
        Keeps true ⟨scope :: rest, toplevel⟩ ⟨other :: rest, toplevel⟩
  | block {old new closed : ScopeStack} :
      old.endBlock = .ok closed → new.endBlock = .ok closed → Keeps false old new

theorem Keeps.right (keeps : Keeps entered old new) : Keeps entered new new := by
  cases keeps with
  | function => exact .function rfl
  | block _ ended => exact .block ended ended

theorem Keeps.trans (first : Keeps entered old middle) (second : Keeps entered middle new) :
    Keeps entered old new := by
  cases first with
  | function count =>
      cases second with
      | function countLater => exact .function (countLater.trans count)
  | block ended endedMiddle =>
      cases second with
      | block endedAgain endedLater =>
          obtain rfl := Except.ok.inj (endedMiddle.symm.trans endedAgain)
          exact .block ended endedLater

theorem endBlock_beginBlock (scopes : ScopeStack) : scopes.beginBlock.endBlock = .ok scopes := by
  obtain ⟨functions, toplevel⟩ := scopes
  cases functions <;> rfl

theorem Keeps.beginBlock (keeps : Keeps entered scopes scopes) :
    Keeps entered scopes.beginBlock scopes.beginBlock := by
  cases keeps with
  | function => exact .function rfl
  | block => exact .block scopes.endBlock_beginBlock scopes.endBlock_beginBlock

theorem Keeps.endBlock (ready : Keeps entered scopes scopes)
    (keeps : Keeps entered scopes.beginBlock new) :
    ∃ closed, new.endBlock = .ok closed ∧ Keeps entered scopes closed := by
  cases ready with
  | @function scope _ rest toplevel _ =>
      cases keeps with
      | @function _ other _ _ count =>
          obtain ⟨name, parent, paramTypes, params, blocks, returnType⟩ := other
          cases blocks with
          | nil => simp at count
          | cons block blocks => exact ⟨_, rfl, .function (Nat.succ.inj count)⟩
  | block ended _ =>
      cases keeps with
      | block endedOnce endedLater =>
          obtain rfl := Except.ok.inj (scopes.endBlock_beginBlock.symm.trans endedOnce)
          exact ⟨scopes, endedLater, .block ended ended⟩

theorem endBlock_declare {closed : ScopeStack} (ended : scopes.endBlock = .ok closed)
    (name : String) (ty : Ty) : (scopes.declare name ty).endBlock = .ok closed := by
  obtain ⟨functions, toplevel⟩ := scopes
  cases functions with
  | nil =>
      cases toplevel with
      | nil => cases ended
      | cons block blocks => exact ended
  | cons scope rest =>
      obtain ⟨scopeName, parent, paramTypes, params, blocks, returnType⟩ := scope
      cases blocks with
      | nil => cases ended
      | cons block blocks => exact ended

theorem Keeps.declare (keeps : Keeps entered scopes scopes) (name : String) (ty : Ty) :
    Keeps entered scopes (scopes.declare name ty) := by
  cases keeps with
  | @function scope _ rest toplevel _ =>
      refine .function ?_
      cases scope.blocks <;> rfl
  | block ended _ => exact .block ended (endBlock_declare ended name ty)

theorem Keeps.setParams (keeps : Keeps true scopes scopes) (params : List (String × Ty)) :
    Keeps true scopes (scopes.setParams params) := by
  cases keeps with
  | function => exact .function rfl

theorem Keeps.setReturnType (keeps : Keeps true scopes scopes) (ty : Ty) :
    Keeps true scopes (scopes.setReturnType ty) := by
  cases keeps with
  | function => exact .function rfl

theorem keeps_enterFunction (scopes : ScopeStack) (name : String) :
    Keeps true (scopes.enterFunction name) (scopes.enterFunction name) :=
  .function rfl

theorem Keeps.exitFunction {name : String} (keeps : Keeps true (scopes.enterFunction name) new) :
    ScopeStack.perform new .exit = .ok scopes := by
  cases keeps with
  | function => rfl

theorem performAll_between {first last : ScopeStep} (opens : scopes.perform first = .ok old)
    (runs : old.performAll inner = .ok middle) (closes : middle.perform last = .ok new) :
    scopes.performAll (first :: inner ++ last :: rest) = new.performAll rest := by
  rw [performAll, List.cons_append, List.foldlM_cons, opens]
  show (inner ++ last :: rest).foldlM perform old = _
  rw [List.foldlM_append]
  show (old.performAll inner).bind _ = _
  rw [runs]
  show (last :: rest).foldlM perform middle = _
  rw [List.foldlM_cons, closes]
  rfl

/-- What is balanced runs to its end. -/
theorem performAll_balanced (balanced : Balanced entered steps)
    (ready : Keeps entered scopes scopes) :
    ∃ later, scopes.performAll steps = .ok later ∧ Keeps entered scopes later := by
  induction balanced generalizing scopes with
  | nil => exact ⟨scopes, rfl, ready⟩
  | @declare _ name ty rest _ ih =>
      have keeps := ready.declare name ty
      obtain ⟨later, runs, keepsLater⟩ := ih keeps.right
      exact ⟨later, runs, keeps.trans keepsLater⟩
  | @setParams params rest _ ih =>
      have keeps := ready.setParams params
      obtain ⟨later, runs, keepsLater⟩ := ih keeps.right
      exact ⟨later, runs, keeps.trans keepsLater⟩
  | @setReturnType ty rest _ ih =>
      have keeps := ready.setReturnType ty
      obtain ⟨later, runs, keepsLater⟩ := ih keeps.right
      exact ⟨later, runs, keeps.trans keepsLater⟩
  | @block _ inner rest _ _ ih ihRest =>
      obtain ⟨middle, runs, keeps⟩ := ih ready.beginBlock
      obtain ⟨closed, ended, keepsClosed⟩ := ready.endBlock keeps
      obtain ⟨later, runsLater, keepsLater⟩ := ihRest keepsClosed.right
      have whole : scopes.performAll (.beginBlock :: inner ++ .endBlock :: rest) =
          closed.performAll rest := performAll_between rfl runs ended
      exact ⟨later, whole.trans runsLater, keepsClosed.trans keepsLater⟩
  | @function _ name inner rest _ _ ih ihRest =>
      obtain ⟨middle, runs, keeps⟩ := ih (scopes.keeps_enterFunction name)
      obtain ⟨later, runsLater, keepsLater⟩ := ihRest ready
      have whole : scopes.performAll (.enter name :: inner ++ .exit :: rest) =
          scopes.performAll rest := performAll_between rfl runs keeps.exitFunction
      exact ⟨later, whole.trans runsLater, keepsLater⟩

theorem performAll_bracketed (bracketed : Bracketed steps) (scopes : ScopeStack) :
    scopes.performAll steps = .ok scopes := by
  cases bracketed with
  | @block inner balanced =>
      have opens := scopes.endBlock_beginBlock
      obtain ⟨middle, runs, keeps⟩ := performAll_balanced balanced (.block opens opens)
      cases keeps with
      | block endedOnce endedLater =>
          obtain rfl := Except.ok.inj (opens.symm.trans endedOnce)
          exact performAll_between rfl runs endedLater
  | @function name inner balanced =>
      obtain ⟨middle, runs, keeps⟩ :=
        performAll_balanced balanced (scopes.keeps_enterFunction name)
      exact performAll_between rfl runs keeps.exitFunction

/-! ### Inside a function -/

inductive Alike : Nat → List FunctionScope → List FunctionScope → Prop where
  | last {left right : FunctionScope} {outer other : List FunctionScope} :
      left.params = right.params → left.blocks = right.blocks →
        Alike 0 (left :: outer) (right :: other)
  | more {depth : Nat} {left right : FunctionScope} {outer other : List FunctionScope} :
      left.params = right.params → left.blocks = right.blocks → Alike depth outer other →
        Alike (depth + 1) (left :: outer) (right :: other)

variable {left right : ScopeStack} {depth next : Nat}

/-- The innermost functions may change together. -/
theorem Alike.innermost {first second : List FunctionScope} (alike : Alike depth first second) :
    ∃ left right outer other, first = left :: outer ∧ second = right :: other ∧
      left.params = right.params ∧ left.blocks = right.blocks ∧
      ∀ {newLeft newRight : FunctionScope}, newLeft.params = newRight.params →
        newLeft.blocks = newRight.blocks → Alike depth (newLeft :: outer) (newRight :: other) := by
  cases alike with
  | last params blocks => exact ⟨_, _, _, _, rfl, rfl, params, blocks, .last⟩
  | more params blocks outer =>
      exact ⟨_, _, _, _, rfl, rfl, params, blocks, fun params blocks => .more params blocks outer⟩

theorem Alike.varType? (alike : Alike depth left.functions right.functions) :
    left.varType? = right.varType? := by
  obtain ⟨scope, twin, outer, other, isLeft, isRight, params, blocks, _⟩ := alike.innermost
  funext name
  rw [ScopeStack.varType?, ScopeStack.varType?, visible, visible, isLeft, isRight]
  simp only [params, blocks]

theorem Alike.perform (alike : Alike depth left.functions right.functions)
    (deeper : step.depth? depth = some next) :
    (∃ newLeft newRight, left.perform step = .ok newLeft ∧ right.perform step = .ok newRight ∧
      Alike next newLeft.functions newRight.functions) ∨
    ∃ fault, left.perform step = .error fault ∧ right.perform step = .error fault := by
  obtain ⟨functions, toplevel⟩ := left
  obtain ⟨functionsRight, toplevelRight⟩ := right
  have whole := alike
  obtain ⟨⟨name, parent, paramTypes, params, blocks, returnType⟩,
    ⟨nameTwin, parentTwin, paramTypesTwin, paramsTwin, blocksTwin, returnTypeTwin⟩,
    outer, other, rfl, rfl, rfl, rfl, change⟩ := alike.innermost
  cases step with
  | enter name =>
      obtain rfl := Option.some.inj deeper
      exact .inl ⟨_, _, rfl, rfl, .more rfl rfl whole⟩
  | exit =>
      cases whole with
      | last => cases deeper
      | more _ _ outer =>
          obtain rfl := Option.some.inj deeper
          exact .inl ⟨_, _, rfl, rfl, outer⟩
  | beginBlock =>
      obtain rfl : depth = next := by simpa [ScopeStep.depth?] using deeper
      exact .inl ⟨_, _, rfl, rfl, change rfl rfl⟩
  | endBlock =>
      obtain rfl : depth = next := by simpa [ScopeStep.depth?] using deeper
      cases blocks with
      | nil => exact .inr ⟨_, rfl, rfl⟩
      | cons block blocks => exact .inl ⟨_, _, rfl, rfl, change rfl rfl⟩
  | setParams params =>
      obtain rfl : depth = next := by simpa [ScopeStep.depth?] using deeper
      exact .inl ⟨_, _, rfl, rfl, change rfl rfl⟩
  | declare name ty =>
      obtain rfl : depth = next := by simpa [ScopeStep.depth?] using deeper
      cases blocks with
      | nil => exact .inl ⟨_, _, rfl, rfl, change rfl rfl⟩
      | cons block blocks => exact .inl ⟨_, _, rfl, rfl, change rfl rfl⟩
  | setReturnType ty =>
      obtain rfl : depth = next := by simpa [ScopeStep.depth?] using deeper
      exact .inl ⟨_, _, rfl, rfl, change rfl rfl⟩

theorem Alike.performAll (alike : Alike depth left.functions right.functions)
    (inside : (steps.foldlM ScopeStep.depth? depth).isSome) :
    (left.performAll steps).map ScopeStack.varType? =
      (right.performAll steps).map ScopeStack.varType? := by
  induction steps generalizing left right depth with
  | nil => exact congrArg Except.ok alike.varType?
  | cons step steps ih =>
      rw [List.foldlM_cons] at inside
      cases deeper : step.depth? depth with
      | none =>
          rw [deeper] at inside
          cases inside
      | some next =>
          rw [deeper] at inside
          rw [ScopeStack.performAll, ScopeStack.performAll, List.foldlM_cons, List.foldlM_cons]
          rcases alike.perform deeper with
            ⟨newLeft, newRight, runs, runsRight, later⟩ | ⟨fault, stops, stopsRight⟩
          · rw [runs, runsRight]
            exact ih later inside
          · rw [stops, stopsRight]

/-! ### Lookups -/

theorem framed_varType? (scopes : ScopeStack) (name : String) :
    scopes.framed.varType? name = scopes.varType? name := by
  rw [FrameStack.varType?, framed_blocks, List.reverse_reverse, varType?]

/-- The innermost block with the name counts. -/
theorem varType?_eq_some_iff {name : String} {ty : Ty} : scopes.varType? name = some ty ↔
    ∃ outer block inner, scopes.framed.blocks = outer ++ block :: inner ∧
      block.get? name = some ty ∧ ∀ other ∈ inner, other.get? name = none := by
  have visible : scopes.visible = scopes.framed.blocks.reverse := by
    rw [framed_blocks, List.reverse_reverse]
  rw [varType?, List.findSome?_eq_some_iff, visible]
  constructor
  · rintro ⟨inner, block, outer, parts, found, others⟩
    refine ⟨outer.reverse, block, inner.reverse, ?_, found, by simpa using others⟩
    rw [← List.reverse_reverse scopes.framed.blocks, parts]
    simp
  · rintro ⟨outer, block, inner, parts, found, others⟩
    exact ⟨inner.reverse, block, outer.reverse, by simp [parts], found, by simpa using others⟩

theorem visible_declare (scopes : ScopeStack) (name : String) (ty : Ty) :
    (scopes.declare name ty).visible = scopes.visible.modifyHead (·.insert name ty) := by
  obtain ⟨functions, toplevel⟩ := scopes
  cases functions with
  | nil => cases toplevel <;> rfl
  | cons scope rest =>
      obtain ⟨scopeName, parent, paramTypes, params, blocks, returnType⟩ := scope
      cases blocks <;> rfl

theorem varType?_declare (isLocal : scopes.hasLocalScope = true) (name other : String) (ty : Ty) :
    (scopes.declare name ty).varType? other =
      if name = other then some ty else scopes.varType? other := by
  rw [varType?, visible_declare, varType?]
  cases opened : scopes.visible with
  | nil => simp [hasLocalScope, opened] at isLocal
  | cons block blocks =>
      rw [List.modifyHead_cons, List.findSome?_cons, List.findSome?_cons, Table.get?_insert]
      by_cases same : name = other <;> simp [same]

/-! ### Nesting -/

/-- Steps from the opening of a block or a function to its end leave everything as it was. Steps
inside a function see what they would see if it were the only one, the innermost declaration first.
Frames keep the block of their parameters and have the frame before them as parent. To close a block
only fails where there is no other than that of the parameters. -/
theorem performAll_nests (scopes : ScopeStack) (steps : List ScopeStep) :
    scopes.framed.performAll steps = (scopes.performAll steps).toOption.map framed ∧
    (Bracketed steps → scopes.performAll steps = .ok scopes) ∧
    (stays steps = true → ∀ name,
      ((scopes.enterFunction name).performAll steps).map varType? =
        ((({} : ScopeStack).enterFunction name).performAll steps).map varType?) ∧
    (∀ name, (scopes.enterFunction name).varType? = fun _ => none) ∧
    (∀ name, scopes.framed.varType? name = scopes.varType? name) ∧
    (∀ name ty, scopes.varType? name = some ty ↔
      ∃ outer block inner, scopes.framed.blocks = outer ++ block :: inner ∧
        block.get? name = some ty ∧ ∀ other ∈ inner, other.get? name = none) ∧
    (scopes.hasLocalScope = true → ∀ name other ty, (scopes.declare name ty).varType? other =
      if name = other then some ty else scopes.varType? other) ∧
    (∀ later, ({} : FrameStack).performAll steps = some later → later.Sound) ∧
    match scopes.endBlock with
    | .ok _ => (if scopes.inFunction then 1 else 0) < scopes.framed.blocks.length
    | .error fault => fault = .noBlock ∧
        scopes.framed.blocks.length = if scopes.inFunction then 1 else 0 := by
  refine ⟨scopes.framed_performAll steps, fun bracketed => performAll_bracketed bracketed scopes,
    fun inside name => Alike.performAll (.last rfl rfl) inside, fun name => rfl,
    scopes.framed_varType?, fun name ty => varType?_eq_some_iff, varType?_declare, ?_, ?_⟩
  · intro later runs
    have start : ({} : FrameStack) = ({} : ScopeStack).framed := rfl
    rw [start, framed_performAll, Option.map_eq_some_iff] at runs
    obtain ⟨last, ends, rfl⟩ := runs
    have linked : Linked ({} : ScopeStack).functions := trivial
    exact framed_sound_iff.mpr (linked.performAll (ok_of_toOption ends))
  · rw [← framed_inFunction]
    rcases scopes.endBlock_cases with ⟨_, ended, isOpen, _⟩ | ⟨shut, kept⟩
    · rw [ended]
      exact isOpen
    · rw [shut]
      exact ⟨rfl, kept⟩

def looping : ScopeStack := { toplevel := [⟨[("i", .int)]⟩] }

def shadowing : List ScopeStep :=
  .enter "f" :: [
    .setParams [("i", .int)],
    .beginBlock,
    .declare "i" .string,
    .endBlock,
    .setReturnType .int] ++ [.exit]

/-- The loop keeps its variable, which is not seen in a function that is entered inside it. -/
theorem performAll_nests_shadowing : Bracketed shadowing ∧ stays shadowing = true ∧
    looping.hasLocalScope = true ∧ looping.performAll shadowing = .ok looping ∧
    looping.framed.performAll shadowing = some looping.framed ∧
    ((looping.enterFunction "g").performAll shadowing).map varType? = .ok (fun _ => none) ∧
    (looping.declare "i" .string).varType? "i" = some .string ∧
    1 < (looping.enterFunction "g").beginBlock.framed.blocks.length := by
  have bracketed : Bracketed shadowing :=
    .function (.setParams (.block (.declare .nil) (.setReturnType .nil)))
  have inside : stays shadowing = true := by decide
  have isLocal : looping.hasLocalScope = true := by decide
  obtain ⟨same, restored, apart, _, _, _, declared, _, _⟩ := performAll_nests looping shadowing
  obtain ⟨_, _, _, _, _, _, _, _, ends⟩ :=
    performAll_nests (looping.enterFunction "g").beginBlock []
  refine ⟨bracketed, inside, isLocal, restored bracketed, ?_, apart inside "g", ?_, ends⟩
  · rw [same, restored bracketed]
    rfl
  · rw [declared isLocal]
    rfl

end ScopeStack

end ScriptTyping
