import ScriptTyping.Proofs.Outcome.Declarations

/-!
The globals after a check. Where no function is open, only loops over elements have variables of
their own: what blocks, branches and other loops declare becomes global, and nothing else does but
functions and, where unknown names are declared, the targets of assignments.
-/

namespace ScriptTyping

/-! ### Declarations outside scopes -/

def Tag.openLabels : Tag → List Label
  | .ifStmt => [.thenBranch, .elseBranch]
  | .whileLoop => [.body]
  | .forLoop => [.init, .iter, .body]
  | _ => []

/-- Whether a statement outside functions declares a name, by itself or in a statement inside it
that has no scope of its own. -/
inductive StoredNode.Spills (name : String) : StoredNode → Prop where
  | declaration {node nameNode : StoredNode} : node.tag = .varDecl ∨ node.tag = .funcDecl →
      node.first? .name = some nameNode → nameNode.text.getD "" = name → Spills name node
  | statement {node child : StoredNode} : node.tag.isSequence = true → child ∈ node.children →
      Spills name child → Spills name node
  | part {node child : StoredNode} {label : Label} : label ∈ node.tag.openLabels →
      node.first? label = some child → Spills name child → Spills name node

namespace Check

variable {α β : Type} {calm : Calm} {step : Check α} {next : α → Check β} {old later : CheckState}
  {branch before : Branch} {name : String} {result : α}
  {between : α → CheckState → Branch → Prop}

def Adds (step : Check α) (old : CheckState) (name : String) : Prop :=
  ∀ result new, step.run.run old = .ok (.ok result, new) →
    new.errors.length ≤ old.errors.length → new.environment.hasGlobal name = true

theorem Adds.bindRun (run : step.run.run old = .ok (.ok result, later))
    (same : later.errors = old.errors) (rest : (next result).Adds later name) :
    (step >>= next).Adds old name := by
  intro last new ran silent
  rw [run_bind, run] at ran
  exact rest last new ran (same ▸ silent)

theorem Adds.bindPure (adds : step.Adds old name) (last : β) :
    (step >>= fun _ => pure last).Adds old name := by
  intro result new ran silent
  obtain ⟨_, _, run, given⟩ := exists_of_run_bind ran
  cases given
  exact adds _ _ run silent

theorem Adds.bindRead {view : CheckView → α}
    (rest : (next (view old.toCheckView)).Adds old name) :
    (read view >>= next).Adds old name :=
  .bindRun rfl rfl rest

theorem Adds.bindLater (first : step.Yields calm old before between)
    (rest : ∀ result new after, Becomes calm old before new after → between result new after →
      (next result).Adds new name) : (step >>= next).Adds old name := by
  intro last new ran silent
  obtain ⟨result, later, run, onward⟩ := exists_of_run_bind ran
  obtain ⟨after, becomes, reached⟩ := first.ok run
  exact rest result later after becomes reached last new onward
    (silent.trans becomes.evolves.errors.length_le)

theorem Adds.bindFirst (adds : step.Adds old name) (first : step.Yields calm old before between)
    (rest : ∀ result new after, Becomes calm old before new after → between result new after →
      (next result).Yields calm new after fun _ _ _ => True) : (step >>= next).Adds old name := by
  intro last new ran silent
  obtain ⟨result, later, run, onward⟩ := exists_of_run_bind ran
  obtain ⟨after, becomes, reached⟩ := first.ok run
  obtain ⟨_, ends, _⟩ := (rest result later after becomes reached).ok onward
  -- Errors are only added, so that a silent end had a silent beginning.
  have known := adds result later run (ends.evolves.errors.length_le.trans silent)
  exact ends.evolves.environment.grows.hasGlobal known

def Returns (step : Check α) (goal : α → Prop) : Prop :=
  ∀ old result new, step.run.run old = .ok (.ok result, new) → goal result

theorem Returns.bind {goal : β → Prop} (rest : ∀ result, (next result).Returns goal) :
    (step >>= next).Returns goal := by
  intro old last new ran
  obtain ⟨result, later, _, onward⟩ := exists_of_run_bind ran
  exact rest result later last new onward

theorem Returns.pure {goal : α → Prop} (reached : goal result) :
    (Pure.pure result : Check α).Returns goal := by
  intro old last new ran
  cases ran
  exact reached

def Spread (visit : Visit) (name : String) : Prop :=
  ∀ old branch, old.Awaits branch → branch.stored.Spills name → (visit branch.id).Adds old name

end Check

theorem Branch.exists_kid_of_stored {branch : Branch} {label : Label} {child : StoredNode}
    (found : branch.stored.first? label = some child) :
    ∃ index kid, branch.Kid label index kid ∧ kid.stored = child := by
  rw [Branch.first?_stored, Option.map_eq_some_iff] at found
  obtain ⟨kid, found, isChild⟩ := found
  obtain ⟨index, isKid⟩ := Branch.first?_eq_some_iff.mp found
  exact ⟨index, kid, isKid, isChild⟩

/-- A child that is still unseen is as it was read. -/
theorem Open.awaits {calm : Calm} {first : Environment} {seen : List Label} {old : CheckState}
    {branch kid : Branch} {label : Label} {index : Nat}
    (isOpen : Open .nothing calm first (Unseen seen) old branch) (bare : old.scopes.Bare)
    (isKid : branch.Kid label index kid) (isNew : label ∉ seen) : old.Awaits kid :=
  ⟨isOpen.stands.kid isKid.mem, isOpen.later,
    isOpen.raw index kid isKid.found (Check.unseen_kid isKid isNew), bare⟩

namespace Rule

open Check

variable {calm : Calm} {first : Environment} {visit : Visit} {old : CheckState}
  {branch kid : Branch} {name : String} {label : Label} {index : Nat}

/-! ### Parts of statements -/

theorem optional_adds (stands : old.tree.Stands branch) (isKid : branch.Kid label index kid)
    (adds : (visit kid.id).Adds old name) : (optional visit branch.id label).Adds old name := by
  refine .bindRead ?_
  simp only [stands.holds.child?_eq, isKid.first?]
  exact adds.bindPure ()

theorem body_adds (stands : old.tree.Stands branch) (isKid : branch.Kid .body index kid)
    (adds : (visit kid.id).Adds old name) : (body visit branch.id).Adds old name :=
  .bindRun (run_required stands isKid) rfl (adds.bindPure Ty.void)

section Parts

variable (visits : Visits .nothing visit) (spread : Spread visit name)
include visits spread

theorem ifStmt_adds (isOpen : Open .nothing calm first (Unseen []) old branch)
    (bare : old.scopes.Bare) (isPart : label ∈ [Label.thenBranch, .elseBranch])
    (isKid : branch.Kid label index kid) (spills : kid.stored.Spills name) :
    (ifStmt visit branch.id).Adds old name := by
  refine .bindLater (enforce_yields visits isOpen (by decide) .bool) ?_
  rintro _ new _ becomes ⟨place, _, condition, _, ⟨isCondition, labels, _, rfl, opens⟩⟩
  have bareNew := becomes.evolves.scopes.bare bare
  have others : ∀ {wanted position other}, Label.cond ≠ wanted → branch.Kid wanted position other →
      (branch.setKid place condition).Kid wanted position other := fun different isOther =>
    isOther.setKid_other isCondition.found labels (isCondition.ne isOther different)
  rcases List.mem_pair.mp isPart with rfl | rfl
  · have isThen := others (by decide) isKid
    have run := run_required opens.stands isThen
    refine .bindRun run rfl ?_
    refine .bindFirst (spread new kid (opens.awaits bareNew isThen (by decide)) spills)
      (child_yields visits opens isThen.found (unseen_kid isThen (by decide))
        (fun _ _ => unseen_cons) (not_unseen_cons isThen)) ?_
    rintro _ later _ _ ⟨_, _, _, _, rfl, opensLater⟩
    refine (optional_yields visits opensLater (by decide)).bind ?_
    rintro _ last after _ ⟨_, opensLast, _⟩
    exact .pure opensLast.stands trivial
  · have isElse := others (by decide) isKid
    have required := @required_yields calm _ _ .thenBranch _ opens.stands opens.stands.holds
    refine .bindLater required ?_
    rintro _ _ _ _ ⟨rfl, rfl, _, thenKid, isThen, rfl⟩
    refine .bindLater (child_yields visits opens isThen.found (unseen_kid isThen (by decide))
      (fun _ _ => unseen_cons) (not_unseen_cons isThen)) ?_
    rintro _ later _ becomesLater ⟨_, becomesKid, _, _, rfl, opensLater⟩
    have isElseLater := isElse.setKid_other isThen.found becomesKid.turns.label
      (isThen.ne isElse (by decide))
    exact (optional_adds opensLater.stands isElseLater (spread later kid
      (opensLater.awaits (becomesLater.evolves.scopes.bare bareNew) isElseLater (by decide))
      spills)).bindPure Ty.void

theorem whileLoop_adds (isOpen : Open .nothing calm first (Unseen []) old branch)
    (bare : old.scopes.Bare) (isKid : branch.Kid .body index kid)
    (spills : kid.stored.Spills name) : (whileLoop visit branch.id).Adds old name := by
  refine .bindLater (enforce_yields visits isOpen (by decide) .bool) ?_
  rintro _ new _ becomes ⟨place, _, condition, _, ⟨isCondition, labels, _, rfl, opens⟩⟩
  have isBody := isKid.setKid_other isCondition.found labels (isCondition.ne isKid (by decide))
  have awaits := opens.awaits (becomes.evolves.scopes.bare bare) isBody (by decide)
  have adds := body_adds opens.stands isBody (spread new kid awaits spills)
  exact adds

theorem loopSteps_adds {seen : List Label}
    (isOpen : Open .nothing calm first (Unseen seen) old branch) (bare : old.scopes.Bare)
    (noIter : Label.iter ∉ seen) (noBody : Label.body ∉ seen)
    (isPart : label = .iter ∨ label = .body) (isKid : branch.Kid label index kid)
    (spills : kid.stored.Spills name) : (loopSteps visit branch.id).Adds old name := by
  have stepped := optional_yields visits isOpen noIter
  rcases isPart with rfl | rfl
  · refine .bindFirst (optional_adds isOpen.stands isKid
      (spread old kid (isOpen.awaits bare isKid noIter) spills)) stepped ?_
    rintro _ new after _ ⟨alike, opens, _⟩
    rw [← alike.id]
    exact (body_yields visits opens (by simp [noBody])).mono
      fun _ _ _ _ _ => trivial
  · refine .bindLater stepped ?_
    rintro _ new after becomes ⟨alike, opens, others⟩
    have isBody := others (by decide) isKid
    have awaits := opens.awaits (becomes.evolves.scopes.bare bare) isBody (by simp [noBody])
    rw [← alike.id]
    exact body_adds opens.stands isBody (spread new kid awaits spills)

theorem loopOnward_adds (isOpen : Open .nothing calm first (Unseen [.init]) old branch)
    (bare : old.scopes.Bare) (isPart : label = .iter ∨ label = .body)
    (isKid : branch.Kid label index kid) (spills : kid.stored.Spills name) :
    (loopOnward visit branch.id).Adds old name := by
  refine .bindRead ?_
  split
  · refine .bindLater (enforce_yields visits isOpen (by decide) .bool) ?_
    rintro _ new _ becomes ⟨place, _, condition, _, ⟨isCondition, labels, _, rfl, opens⟩⟩
    have different : Label.cond ≠ label := by rcases isPart with rfl | rfl <;> decide
    have isKidNew := isKid.setKid_other isCondition.found labels (isCondition.ne isKid different)
    have adds := loopSteps_adds visits spread opens (becomes.evolves.scopes.bare bare)
      (by decide) (by decide) isPart isKidNew spills
    exact adds
  · exact loopSteps_adds visits spread isOpen bare (by decide) (by decide) isPart isKid spills

theorem forLoop_adds (isOpen : Open .nothing calm first (Unseen []) old branch)
    (bare : old.scopes.Bare) (isTag : branch.node.tag = .forLoop)
    (isPart : label = .init ∨ label = .iter ∨ label = .body) (isKid : branch.Kid label index kid)
    (spills : kid.stored.Spills name) : (forLoop visit branch.id).Adds old name := by
  rw [forLoop_eq]
  refine .bindRead ?_
  rw [bare.inFunction, inBlockIf, if_neg (by decide)]
  have begun := @optional_yields _ _ _ _ _ _ _ visits isOpen .init (by decide)
  rcases isPart with rfl | isPart
  · refine .bindFirst (optional_adds isOpen.stands isKid
      (spread old kid (isOpen.awaits bare isKid (by decide)) spills)) begun ?_
    rintro _ new after _ ⟨alike, opens, _⟩
    rw [← alike.id]
    exact (loopOnward_yields visits opens (alike.tag.trans isTag)).mono
      fun _ _ _ _ _ => trivial
  · refine .bindLater begun ?_
    rintro _ new after becomes ⟨alike, opens, others⟩
    have different : Label.init ≠ label := by rcases isPart with rfl | rfl <;> decide
    rw [← alike.id]
    exact loopOnward_adds visits spread opens (becomes.evolves.scopes.bare bare) isPart
      (others different isKid) spills

theorem statementsFrom_adds
    (isOpen : Open .nothing calm first (fun position _ => index ≤ position) old branch)
    (bare : old.scopes.Bare) (found : branch.kids[index]? = some kid)
    (spills : kid.stored.Spills name) (last : Ty) (count : Nat) :
    (statementsFrom visit branch.id last index (count + 1)).Adds old name := by
  have raw := isOpen.raw index kid found (Nat.le_refl index)
  have stands := isOpen.stands.kid (List.mem_of_getElem? found)
  have adds := spread old kid ⟨stands, isOpen.later, raw, bare⟩ spills
  have yields := (visits old kid stands isOpen.later raw).calmer
    (isOpen.quiet index kid found (Nat.le_refl index))
  have fewer : ∀ position (_ : Option Label), index + 1 ≤ position → index ≤ position :=
    fun _ _ => Nat.le_of_succ_le
  have isChild : old.tree.childAt? branch.id index = some kid.id := by
    rw [isOpen.stands.holds.childAt?_eq, found, Option.map_some]
  intro result new run silent
  rw [run_statementsFrom_some last count isChild] at run
  cases visited : (visit kid.id).run.run old with
  | error fault => simp [visited] at run
  | ok answer =>
      obtain ⟨given, later⟩ := answer
      rw [visited] at run
      cases given with
      | ok ty =>
          obtain ⟨newKid, becomes, _, _, settled⟩ := yields.ok visited
          have opens := isOpen.step found becomes (settled.earlier isOpen.leads) fewer
            (Nat.not_succ_le_self index)
          obtain ⟨_, onward, _⟩ := (statementsFrom_yields visits opens ty count).ok run
          exact onward.evolves.environment.grows.hasGlobal
            (adds ty later visited (onward.evolves.errors.length_le.trans silent))
      | error failure =>
          -- The failure is reported, against the assumption.
          have breaks := yields.error visited
          have opens := (isOpen.failed found breaks fewer (Nat.not_succ_le_self index)).2
          have isHere := (breaks.replaced isOpen.stands found).1
          have replaced := @run_replace later ⟨branch.id, index⟩ kid.id failure.replacement isHere
          simp only [run_bind, replaced] at run
          obtain ⟨_, onward, _⟩ := (statementsFrom_yields visits opens .never count).ok run
          have reported := onward.evolves.errors.length_le
          have before := breaks.evolves.errors.length_le
          rw [List.length_append, List.length_singleton] at reported
          omega

theorem statements_adds (awaits : old.Awaits branch)
    (isSequence : branch.node.tag.isSequence = true) (member : kid ∈ branch.kids)
    (spills : kid.stored.Spills name) : (statements visit branch.id).Adds old name := by
  obtain ⟨index, found⟩ := List.mem_iff_getElem?.mp member
  have isOpen := awaits.opensSequence isSequence
  refine .bindRead ?_
  rw [awaits.stands.holds.childIds_eq, List.length_map]
  obtain ⟨more, isCount⟩ := Nat.exists_eq_add_of_lt (List.getElem?_eq_some_iff.mp found).1
  rw [isCount, Nat.add_assoc]
  intro result new run
  rw [run_statementsFrom_add] at run
  refine Adds.bindLater (statementsFrom_yields visits isOpen .void index) ?_ result new run
  rintro ty later after becomes ⟨opens, _, same, _⟩
  rw [← becomes.turns.id]
  refine statementsFrom_adds visits spread opens (becomes.evolves.scopes.bare awaits.bare) ?_ spills
    ty more
  rw [same _ (.inr (Nat.le_refl _)), Nat.zero_add, found]

end Parts

/-! ### Declarations -/

theorem workOut?_name {tag : Tag} {step : Check Declaration} {declared : Declaration}
    {new : CheckState} (stands : old.tree.Stands branch) (isName : branch.Kid .name index kid)
    (isDeclaration : workOut? visit branch.id tag = some step)
    (worksOut : step.run.run old = .ok (.ok declared, new)) :
    declared.name = kid.node.text.getD "" := by
  have reads : (textOf kid.id).run.run old = .ok (.ok (kid.node.text.getD ""), old) := by
    show Except.ok (Except.ok (old.tree.text kid.id), old) = _
    rw [(stands.kid isName.mem).holds.text_eq]
  let named (result : Declaration) : Prop := result.name = kid.node.text.getD ""
  have given : ∀ form nameNode ty,
      Returns (pure ⟨form, nameNode, kid.node.text.getD "", ty⟩) named := fun _ _ _ => .pure rfl
  show named declared
  cases tag with
  | varDecl =>
      cases isDeclaration
      rw [workOutVariable, run_bind, run_required stands isName] at worksOut
      simp only at worksOut
      rw [run_bind, reads] at worksOut
      simp only at worksOut
      refine Returns.bind (fun written => ?_) _ _ _ worksOut
      exact .bind fun isInitialized => .bind fun ty => .bind fun _ => given _ _ _
  | funcDecl =>
      cases isDeclaration
      rw [workOutFunction, run_bind, run_required stands isName] at worksOut
      simp only at worksOut
      rw [run_bind, reads] at worksOut
      simp only at worksOut
      refine Returns.bind (fun written => .bind fun params => .bind fun body => ?_) _ _ _ worksOut
      cases body with
      | none => exact given _ _ _
      | some body => exact .bind fun result => .bind fun _ => .bind fun _ => given _ _ _
  | _ => cases isDeclaration

theorem declaration_adds {depth : Nat} (awaits : old.Awaits branch)
    (isTag : branch.node.tag = .varDecl ∨ branch.node.tag = .funcDecl)
    (isName : branch.Kid .name index kid) :
    (ofTag (ScriptTyping.visit depth) branch.id branch.node.tag).Adds old
      (kid.node.text.getD "") := by
  obtain ⟨step, isDeclaration⟩ :
      ∃ step, workOut? (ScriptTyping.visit depth) branch.id branch.node.tag = some step := by
    rcases isTag with isTag | isTag
    · exact ⟨_, by rw [isTag]; rfl⟩
    · exact ⟨_, by rw [isTag]; rfl⟩
  rw [ofTag_eq_workOut isDeclaration]
  intro ty new run _
  obtain ⟨declared, reached, worksOut, run⟩ := exists_of_run_bind run
  have outside := ((workOut?_widens isDeclaration worksOut).evolves.bare awaits.bare).hasLocalScope
  rw [← workOut?_name awaits.stands isName isDeclaration worksOut]
  by_cases clashes : declared.Clashes reached.environment
  · obtain ⟨_, _, _, _, _, fails, _⟩ :=
      @run_makeDeclaration_of_clashes branch.id _ _ outside clashes
    rw [fails] at run
    cases run
  · obtain ⟨_, _, _, _, makes, known, _⟩ := @run_makeDeclaration branch.id _ _ outside clashes
    rw [makes] at run
    cases run
    exact Option.isSome_of_mem known

/-! ### Statements -/

theorem ofTag_adds {depth : Nat} (spread : Spread (ScriptTyping.visit depth) name)
    (awaits : old.Awaits branch) (spills : branch.stored.Spills name) :
    (ofTag (ScriptTyping.visit depth) branch.id branch.node.tag).Adds old name := by
  have visits := @Check.visit_yields .nothing depth
  generalize isStored : branch.stored = stored at spills
  cases spills with
  | declaration isTag found isText =>
      subst isStored
      rw [Branch.tag_stored] at isTag
      obtain ⟨index, kid, isName, rfl⟩ := Branch.exists_kid_of_stored found
      rw [← isText, Branch.text_stored]
      exact declaration_adds awaits isTag isName
  | statement isSequence member spills =>
      subst isStored
      rw [Branch.tag_stored] at isSequence
      rw [Branch.children_stored, List.mem_map] at member
      obtain ⟨kid, member, rfl⟩ := member
      have adds := statements_adds visits spread awaits isSequence member spills
      cases isTag : branch.node.tag with
      | source => exact adds
      | statementList => exact adds.bindPure Ty.void
      | block =>
          -- A block outside functions opens no scope.
          refine .bindRead ?_
          rw [awaits.bare.inFunction, inBlockIf, if_neg (by decide)]
          exact adds.bindPure Ty.void
      | _ => simp [isTag, Tag.isSequence] at isSequence
  | @part _ child label isPart found spills =>
      subst isStored
      rw [Branch.tag_stored] at isPart
      obtain ⟨index, kid, isKid, rfl⟩ := Branch.exists_kid_of_stored found
      have isOpen := awaits.opens
      cases isTag : branch.node.tag with
      | ifStmt =>
          rw [isTag] at isPart
          exact ifStmt_adds visits spread (isOpen (by simp [isTag]) (by simp [isTag])
            (by simp [isTag])) awaits.bare isPart isKid spills
      | whileLoop =>
          rw [isTag, Tag.openLabels, List.mem_singleton] at isPart
          subst isPart
          exact whileLoop_adds visits spread (isOpen (by simp [isTag]) (by simp [isTag])
            (by simp [isTag])) awaits.bare isKid spills
      | forLoop =>
          rw [isTag] at isPart
          exact forLoop_adds visits spread (isOpen (by simp [isTag]) (by simp [isTag])
            (by simp [isTag])) awaits.bare isTag (by simpa [Tag.openLabels] using isPart) isKid
            spills
      | _ => simp [isTag, Tag.openLabels] at isPart

end Rule

theorem Check.visit_spreads (name : String) (depth : Nat) : Spread (visit depth) name := by
  -- on the visits that may be open, for all states and branches: a rule visits the children only
  induction depth with
  | zero => exact fun _ _ _ _ _ _ run => by cases run
  | succ depth ih =>
      intro old branch awaits spills ty new run silent
      have undone : (old.tree.get branch.id).done = false := by
        rw [awaits.stands.holds.get_eq]
        exact awaits.raw.blank.done_eq
      rw [Rule.run_visit undone, awaits.stands.holds.tag_eq] at run
      have adds := Rule.ofTag_adds ih awaits spills
      split at run
      · cases run
      · rename_i ruled
        cases run
        have known := adds _ _ ruled silent
        exact known
      · cases run

namespace Tree

/-- After a check the globals are those from before and names that the unit exposes. If no error is
reported, all that is declared outside functions is among them, also in blocks, branches and loops.
Only loops over elements keep what their bodies declare. -/
theorem check_exposes {source : Option String} {stored : StoredNode} {environment : Environment}
    {outcome : Outcome} (checked : (ofStored source stored).check environment = .ok outcome)
    (name : String) :
    (environment.hasGlobal name = true → outcome.environment.hasGlobal name = true) ∧
      (outcome.environment.hasGlobal name = true → environment.hasGlobal name = true ∨
        stored.exposes (.top environment.options.shellMode) name = true) ∧
      (outcome.errors = [] → stored.Spills name →
        outcome.environment.hasGlobal name = true) := by
  obtain ⟨later, branch, root, stands, rfl, raw⟩ := @ofStored_raw .nothing stored source
    (fun node _ => Premise.allows_nothing node) (.inl rfl)
  let start : CheckState := { tree := ofStored source branch.stored, environment }
  have visited := Check.visit_yields (ofStored source branch.stored).visitDepth start branch stands
    later raw
  have exposed : ∀ {new : CheckState}, branch.stored.calm.Keeps start new →
      new.environment.hasGlobal name = true → environment.hasGlobal name = true ∨
        branch.stored.exposes (.top environment.options.shellMode) name = true := by
    intro new keeps known
    by_cases isExposed : branch.stored.exposes (.top environment.options.shellMode) name = true
    · exact .inr isExposed
    · exact .inl (keeps.spares name (Bool.eq_false_iff.mpr isExposed) known)
  rw [check_eq root] at checked
  split at checked
  · cases checked
  · rename_i ty new ran
    obtain ⟨after, becomes, _⟩ := visited.ok ran
    cases checked
    refine ⟨becomes.evolves.environment.grows.hasGlobal, exposed becomes.keeps, ?_⟩
    intro silent spills
    have awaits : start.Awaits branch := ⟨stands, later, raw, rfl, rfl⟩
    exact Check.visit_spreads name _ start branch awaits spills ty new ran
      (Nat.le_of_eq (congrArg List.length silent))
  · rename_i failure new ran
    have breaks := visited.error ran
    cases checked
    refine ⟨breaks.evolves.environment.grows.hasGlobal, exposed breaks.keeps, ?_⟩
    intro silent
    simp at silent

end Tree

def StoredNode.braced : StoredNode :=
  let number := mk (some .expr) .integer (some "1") .nowhere []
  let name (text : String) := mk (some .name) .name (some text) .nowhere []
  let declared (label : Option Label) (text : String) :=
    mk label .varDecl none .nowhere [name text, number]
  let body := mk (some .body) .block none .nowhere []
  let loop := mk none .forLoop none .nowhere [declared (some .init) "index", body]
  let items := mk (some .iter) .array none .nowhere [number]
  let inner := mk (some .body) .block none .nowhere [declared none "inner"]
  let each := mk none .forEach none .nowhere [name "item", items, inner]
  mk none .source none .nowhere [mk none .block none .nowhere [declared none "local"], loop, each]

/-- Only loops over elements keep their variables. -/
theorem Tree.check_exposes_braced : ∃ outcome,
    (ofStored none .braced).check (.ofOptions {}) = .ok outcome ∧ outcome.errors = [] ∧
      outcome.environment.hasGlobal "local" = true ∧
      outcome.environment.hasGlobal "index" = true ∧
      outcome.environment.hasGlobal "item" = false ∧
      outcome.environment.hasGlobal "inner" = false := by
  have run : ((ofStored none .braced).check (.ofOptions {})).toOption.any
      (fun outcome => decide (outcome.errors = [])) = true := by decide +kernel
  obtain ⟨outcome, checked, silent⟩ := exists_outcome run
  rw [decide_eq_true_eq] at silent
  have declared : ∀ {name : String} {node : StoredNode}, node.tag = .varDecl →
      node.first? .name = some (.mk (some .name) .name (some name) .nowhere []) →
      node.Spills name := fun isTag found => .declaration (.inl isTag) found rfl
  have block : StoredNode.braced.Spills "local" :=
    .statement rfl (.head _) (.statement rfl (.head _) (declared rfl rfl))
  have loop : StoredNode.braced.Spills "index" :=
    .statement rfl (.tail _ (.head _)) (@StoredNode.Spills.part _ _ _ .init (by decide) rfl
      (declared rfl rfl))
  have hidden : ∀ name, StoredNode.braced.exposes (.top false) name = false →
      outcome.environment.hasGlobal name = false := by
    intro name unexposed
    have unknown : (Environment.ofOptions {}).hasGlobal name = false := by
      simp [Environment.hasGlobal, Environment.globalId?, Environment.ofOptions]
    rw [← Bool.not_eq_true] at unknown unexposed ⊢
    intro known
    exact ((check_exposes checked name).2.1 known).elim unknown unexposed
  refine ⟨outcome, checked, silent, (check_exposes checked _).2.2 silent block,
    (check_exposes checked _).2.2 silent loop, hidden _ (by decide), hidden _ (by decide)⟩

end ScriptTyping
