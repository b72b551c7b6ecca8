import ScriptTyping.Proofs.Findings.Places
import ScriptTyping.Proofs.Findings.Log

/-!
Steps of checking that account for what they raise: each finding stands at a place of the tree, and
of the errors exactly the one that the step fails with is not recorded yet.
-/

namespace ScriptTyping

namespace Check

variable {α β : Type} {places : Places}

def owedBy : Except Failure α → Option CheckError
  | .ok _ => none
  | .error failure => some failure.error

/-- Whether a step logs what it raises, at these places, and owes the error that it fails with, when
`owed` is owed before it. -/
def TellsOwing (places : Places) (owed : Option CheckError) (step : Check α) : Prop :=
  ∀ old, places.Cover old.tree → Stops step old ∨ ∃ result new events, places.Cover new.tree ∧
    (∀ finding ∈ raisedIn events, places.holds finding.span) ∧
      Logs step old owed events result new (owedBy result)

abbrev Tells (places : Places) (step : Check α) : Prop := TellsOwing places none step

def Quiet (places : Places) (step : Check α) : Prop :=
  ∀ old, places.Cover old.tree → Stops step old ∨ ∃ result new events, places.Cover new.tree ∧
    raisedIn events = [] ∧ ∀ owed, Logs step old owed events (.ok result) new owed

variable {step : Check α} {next : α → Check β} {owed : Option CheckError}

theorem TellsOwing.stop (fault : Fault) :
    TellsOwing places owed (Check.stop fault : Check α) :=
  fun _ _ => .inl ⟨fault, fun _ => rfl⟩

theorem TellsOwing.covers (tells : TellsOwing places owed step) {old new : CheckState}
    (cover : places.Cover old.tree) {result : Except Failure α}
    (run : step.run.run old = .ok (result, new)) : places.Cover new.tree := by
  obtain ⟨fault, stops⟩ | ⟨_, last, _, covers, _, logs⟩ := tells old cover
  · cases run.symm.trans (stops old.log)
  · cases run.symm.trans (logs.runs old.log)
    exact covers

/-! ### Steps one after another -/

theorem TellsOwing.bind (first : TellsOwing places owed step)
    (rest : ∀ result, Tells places (next result)) : TellsOwing places owed (step >>= next) := by
  intro old cover
  obtain stops | ⟨result, between, events, covered, placed, logs⟩ := first old cover
  · exact .inl stops.bind
  cases result with
  | error failure => exact .inr ⟨_, between, events, covered, placed, logs.bindFailed⟩
  | ok value =>
      obtain stops | ⟨result, new, later, covers, placedLater, logsLater⟩ :=
        rest value between covered
      · exact .inl (logs.bindStops stops)
      refine .inr ⟨result, new, events ++ later, covers, ?_, logs.bind logsLater⟩
      intro finding member
      rw [raisedIn_append] at member
      exact (List.mem_append.mp member).elim (placed finding) (placedLater finding)

theorem Quiet.andThen (quiet : Quiet places step)
    (rest : ∀ result, TellsOwing places owed (next result)) :
    TellsOwing places owed (step >>= next) := by
  intro old cover
  obtain stops | ⟨value, between, events, covered, nothing, logs⟩ := quiet old cover
  · exact .inl stops.bind
  obtain stops | ⟨result, new, later, covers, placed, logsLater⟩ := rest value between covered
  · exact .inl ((logs owed).bindStops stops)
  refine .inr ⟨result, new, events ++ later, covers, ?_, (logs owed).bind logsLater⟩
  rwa [raisedIn_append, nothing]

theorem Quiet.bind (first : Quiet places step) (rest : ∀ result, Quiet places (next result)) :
    Quiet places (step >>= next) := by
  intro old cover
  obtain stops | ⟨value, between, events, covered, nothing, logs⟩ := first old cover
  · exact .inl stops.bind
  obtain stops | ⟨result, new, later, covers, nothingLater, logsLater⟩ := rest value between covered
  · exact .inl ((logs none).bindStops stops)
  refine .inr ⟨result, new, events ++ later, covers, ?_, fun owed => (logs owed).bind (logsLater owed)⟩
  rw [raisedIn_append, nothing, nothingLater, List.append_nil]

theorem Quiet.tells (quiet : Quiet places step) : Tells places step := by
  intro old cover
  obtain stops | ⟨value, new, events, covers, nothing, logs⟩ := quiet old cover
  · exact .inl stops
  · exact .inr ⟨.ok value, new, events, covers, by simp [nothing], logs none⟩

/-- A run that adds nothing to the log and finds nothing. -/
theorem Quiet.ofRun (result : CheckState → α) (change : CheckState → CheckState)
    (runs : ∀ old log, step.run.run { old with log } =
      .ok (.ok (result old), { change old with log }))
    (covers : ∀ old, places.Cover old.tree → places.Cover (change old).tree)
    (errors : ∀ old, (change old).errors = old.errors)
    (warnings : ∀ old, (change old).warnings = old.warnings) : Quiet places step :=
  fun old cover => .inr ⟨result old, change old, [], covers old cover, rfl,
    fun _ => .silent (runs old) (by rw [errors]) (warnings old)⟩

/-! ### Reading and writing -/

theorem Quiet.pure (result : α) : Quiet places (Pure.pure result) :=
  .ofRun (fun _ => result) id (fun _ _ => rfl) (fun _ => id) (fun _ => rfl) fun _ => rfl

theorem Quiet.read (view : CheckView → α) : Quiet places (Check.read view) :=
  .ofRun (fun old => view old.toCheckView) id (fun _ _ => rfl) (fun _ => id) (fun _ => rfl)
    fun _ => rfl

theorem Quiet.stop (fault : Fault) : Quiet places (Check.stop fault : Check α) :=
  fun _ _ => .inl ⟨fault, fun _ => rfl⟩

theorem Quiet.modifyTree {change : Tree → Tree}
    (keeps : ∀ (tree : Tree) (id : NodeId), (change tree).span id = tree.span id) :
    Quiet places (Check.modifyTree change) :=
  .ofRun (fun _ => ()) (fun old => { old with tree := change old.tree }) (fun _ _ => rfl)
    (fun old cover => cover.same (keeps old.tree)) (fun _ => rfl) fun _ => rfl

theorem Quiet.build {change : Tree → α × Tree}
    (covers : ∀ tree, places.Cover tree → places.Cover (change tree).2) :
    Quiet places (Check.build change) :=
  .ofRun (fun old => (change old.tree).1) (fun old => { old with tree := (change old.tree).2 })
    (fun _ _ => rfl) (fun old => covers old.tree) (fun _ => rfl) fun _ => rfl

theorem Quiet.modifyScopes (change : ScopeStack → ScopeStack) :
    Quiet places (Check.modifyScopes change) :=
  .ofRun (fun _ => ()) (fun old => { old with scopes := change old.scopes }) (fun _ _ => rfl)
    (fun _ => id) (fun _ => rfl) fun _ => rfl

theorem Quiet.setEnvironment (environment : Environment) :
    Quiet places (Check.setEnvironment environment) :=
  .ofRun (fun _ => ()) (fun old => { old with environment := environment }) (fun _ _ => rfl)
    (fun _ => id) (fun _ => rfl) fun _ => rfl

theorem Quiet.settle (result : α) : Quiet places (Check.settle (.ok result)) :=
  .ofRun (fun _ => result) id (fun _ _ => rfl) (fun _ => id) (fun _ => rfl) fun _ => rfl

theorem noteTyped_quiet (id : NodeId) : Quiet places (noteTyped id) := by
  intro old cover
  refine .inr ⟨(), old, [.typed id old.environment], cover, rfl, fun owed => ?_⟩
  exact ⟨fun _ => rfl, by simp, by simp⟩

theorem TellsOwing.pure (result : α) : Tells places (Pure.pure result) := (Quiet.pure result).tells

theorem TellsOwing.bindRead {view : CheckView → α}
    (rest : ∀ result, TellsOwing places owed (next result)) :
    TellsOwing places owed (Check.read view >>= next) :=
  (Quiet.read view).andThen rest

theorem TellsOwing.bindModify {change : Tree → Tree} {next : Unit → Check β}
    (keeps : ∀ (tree : Tree) (id : NodeId), (change tree).span id = tree.span id)
    (rest : TellsOwing places owed (next ())) :
    TellsOwing places owed (Check.modifyTree change >>= next) :=
  (Quiet.modifyTree keeps).andThen fun _ => rest

theorem TellsOwing.bindSpanOf {id : NodeId} {next : Span → Check β}
    (rest : ∀ span, places.holds span → Tells places (next span)) :
    Tells places (spanOf id >>= next) := by
  intro old cover
  have reads : Logs (spanOf id) old none [] (.ok (old.tree.span id)) old none :=
    .silent (fun _ => rfl) rfl rfl
  obtain stops | ⟨result, new, events, covers, placed, logs⟩ := rest _ (cover id) old cover
  · exact .inl (reads.bindStops stops)
  · exact .inr ⟨result, new, [] ++ events, covers, placed, reads.bind logs⟩

/-! ### Raising and recording -/

/-- A step that raises one finding and does nothing else. -/
theorem TellsOwing.raises (finding : Finding) (holds : places.holds finding.span)
    (logs : ∀ old, places.Cover old.tree → ∃ result new, places.Cover new.tree ∧
      Logs step old none [.raised finding] result new (owedBy result)) : Tells places step := by
  intro old cover
  obtain ⟨result, new, covers, logs⟩ := logs old cover
  refine .inr ⟨result, new, _, covers, fun other member => ?_, logs⟩
  rw [List.mem_singleton.mp member]
  exact holds

theorem TellsOwing.fail {error : CheckError} (holds : places.holds error.span) :
    Tells places (Check.fail error : Check α) :=
  .raises (.error error) holds fun old cover =>
    ⟨_, _, cover.ofError holds, .fail error old⟩

theorem TellsOwing.raise {failure : Failure} (holds : places.holds failure.error.span) :
    Tells places (Check.raise failure : Check α) :=
  .raises (.error failure.error) holds fun old cover =>
    ⟨_, _, cover, .raise failure old⟩

theorem TellsOwing.report {error : CheckError} (holds : places.holds error.span) :
    Tells places (Check.report error) :=
  .raises (.error error) holds fun old cover =>
    ⟨.ok (), { old with errors := old.errors ++ [error] }, cover, .report error old⟩

theorem TellsOwing.warn {warning : CheckWarning} (holds : places.holds warning.span) :
    Tells places (Check.warn warning) :=
  .raises (.warning warning) holds fun old cover =>
    ⟨.ok (), { old with warnings := old.warnings ++ [warning] }, cover, .warn warning old⟩

theorem failAt_tells (id : NodeId) (cause : ErrorCause) :
    Tells places (failAt id cause : Check α) :=
  .bindSpanOf fun _ holds => .fail holds

theorem warnAt_tells (id : NodeId) (cause : WarningCause) : Tells places (warnAt id cause) :=
  .bindSpanOf fun _ holds => .warn holds

theorem TellsOwing.record (error : CheckError) :
    TellsOwing places (some error) (recordError error) :=
  fun old cover => .inr ⟨.ok (), { old with errors := old.errors ++ [error] }, [], cover,
    fun _ absent => absurd absent List.not_mem_nil, .record error old⟩

/-- A failure that was held back goes on. -/
theorem TellsOwing.resume (failure : Failure) :
    TellsOwing places (some failure.error) (settle (.error failure) : Check α) :=
  fun old cover => .inr ⟨.error failure, old, [], cover,
    fun _ absent => absurd absent List.not_mem_nil, .silent (fun _ => rfl) rfl rfl⟩

/-- A step that is run to its end hands the error that it owes to what comes next. -/
theorem TellsOwing.recover {step : Check α} {next : Except Failure α → Check β}
    (first : Tells places step) (succeeds : ∀ value, Tells places (next (.ok value)))
    (fails : ∀ failure : Failure,
      TellsOwing places (some failure.error) (next (.error failure))) :
    Tells places (attempt step >>= next) := by
  intro old cover
  obtain stops | ⟨result, between, events, covered, placed, logs⟩ := first old cover
  · exact .inl stops.attempt.bind
  have rest : TellsOwing places (owedBy result) (next result) := by
    cases result with
    | ok value => exact succeeds value
    | error failure => exact fails failure
  obtain stops | ⟨result, new, later, covers, placedLater, logsLater⟩ := rest between covered
  · exact .inl (logs.attempt.bindStops stops)
  refine .inr ⟨result, new, events ++ later, covers, ?_, logs.attempt.bind logsLater⟩
  intro finding member
  rw [raisedIn_append] at member
  exact (List.mem_append.mp member).elim (placed finding) (placedLater finding)

/-! ### Scopes -/

theorem endBlock_quiet : Quiet places endBlock := by
  refine .bind (.read _) fun scopes => ?_
  split
  · exact .modifyScopes _
  · exact .stop _

theorem exitFunction_quiet : Quiet places exitFunction := by
  refine .bind (.read _) fun scopes => ?_
  split
  · exact .bind (.modifyScopes _) fun _ => .pure _
  · exact .stop _

theorem inBlock_tells (tells : Tells places step) : Tells places (inBlock step) := by
  refine (Quiet.modifyScopes _).andThen fun _ => .recover tells (fun value => ?_) fun failure => ?_
  · exact endBlock_quiet.andThen fun _ => (Quiet.settle value).tells
  · exact endBlock_quiet.andThen fun _ => .resume failure

theorem inBlockIf_tells (wanted : Bool) (tells : Tells places step) :
    Tells places (inBlockIf wanted step) := by
  cases wanted with
  | true => exact inBlock_tells tells
  | false => exact tells

/-! ### Changes of one node -/

theorem setType_quiet (id : NodeId) (ty : Ty) : Quiet places (setType id ty) :=
  .modifyTree fun _ _ => Tree.span_setType ty

theorem setBinding_quiet (id : NodeId) (binding : Binding) :
    Quiet places (setBinding id binding) :=
  .modifyTree fun _ _ => Tree.span_setBinding binding

theorem bindStatic_quiet (id : NodeId) (member : MemberId) :
    Quiet places (bindStatic id member) :=
  setBinding_quiet id _

theorem bindInvoke_quiet (id : NodeId) (hint : Hint) (target : InvokeTarget) :
    Quiet places (bindInvoke id hint target) :=
  setBinding_quiet id _

theorem setConst_quiet (id : NodeId) (ty : Ty) (value : Const) :
    Quiet places (setConst id ty value) :=
  .bind (.modifyTree fun _ _ => Tree.span_setConst ty value) fun _ => .pure ty

theorem markDone_quiet (id : NodeId) : Quiet places (markDone id) :=
  .modifyTree fun _ _ => Tree.span_markDone

theorem make_quiet (id : NodeId) (children : List (Label × NodeId)) :
    Quiet places (modifyTree (·.make id children)) :=
  .modifyTree fun _ _ => Tree.span_make children

theorem flatten_quiet (id : NodeId) (items : List NodeId) :
    Quiet places (modifyTree (·.flatten id items)) :=
  .modifyTree fun _ _ => Tree.span_flatten items

/-! ### Children -/

theorem required_tells (id : NodeId) (label : Label) : Tells places (required id label) := by
  refine .bindRead fun found => ?_
  cases found with
  | some child => exact .pure child
  | none => exact .bindRead fun _ => failAt_tells id _

theorem requiredOrFirst_tells (id : NodeId) (label : Label) :
    Tells places (requiredOrFirst id label) := by
  refine .bindRead fun found => .bindRead fun kids => ?_
  split
  · exact .pure _
  · exact required_tells id label

theorem occupant_quiet (slot : Slot) : Quiet places (occupant slot) := by
  refine .bind (.read _) fun tree => ?_
  split
  · exact .pure _
  · exact .stop _

theorem replace_quiet (slot : Slot) (node : NodeId) : Quiet places (replace slot node) :=
  .bind (occupant_quiet slot) fun _ => .modifyTree fun _ _ => Tree.span_replaceAt _ _

theorem requiredSlot_tells (id : NodeId) (label : Label) :
    Tells places (requiredSlot id label) := by
  refine .bindRead fun tree => ?_
  split
  · exact .pure _
  · exact .bind (required_tells id label) fun _ => .pure _

/-! ### Conversions -/

/-- A value that does not flow into a type is the only thing that a coercion raises. -/
theorem enforced_tells (environment : Environment) (node : NodeId) (ty : Ty) :
    Tells places (build (environment.enforce · node ty) >>= orRaise) := by
  intro old cover
  have covers := cover.enforce environment node ty
  let result := (environment.enforce old.tree node ty).1
  let built : CheckState := { old with tree := (environment.enforce old.tree node ty).2 }
  have builds : Logs (build (environment.enforce · node ty)) old none [] (.ok result) built none :=
    .silent (fun _ => rfl) rfl rfl
  have rest : Tells places (orRaise result) := by
    cases answer : result with
    | ok wrapper => exact .pure wrapper
    | error failure =>
        have isAnswer : environment.enforce old.tree node ty = (.error failure, built.tree) :=
          Prod.ext answer rfl
        exact .raise (cover.mismatch isAnswer)
  obtain stops | ⟨last, new, events, coversNew, placed, logs⟩ := rest built covers
  · exact .inl (builds.bindStops stops)
  · exact .inr ⟨last, new, [] ++ events, coversNew, placed, builds.bind logs⟩

theorem noteConversion_quiet (node coerced : NodeId) : Quiet places (noteConversion node coerced) := by
  unfold noteConversion
  split
  · exact .pure ()
  · exact noteTyped_quiet coerced

theorem coerce_tells (slot : Slot) (ty : Ty) : Tells places (coerce slot ty) := by
  refine (occupant_quiet slot).andThen fun node => .bindRead fun environment => ?_
  rw [← bind_assoc]
  refine .bind (enforced_tells environment node ty) fun coerced => ?_
  refine (noteConversion_quiet node coerced).andThen fun _ => ?_
  exact (replace_quiet slot coerced).andThen fun _ => .pure coerced

theorem coerceAll_tells (ty : Ty) (slots : List Slot) : Tells places (coerceAll ty slots) := by
  induction slots with
  | nil => exact .pure ()
  | cons slot rest ih => exact .bind (coerce_tells slot ty) fun _ => ih

theorem coerceEach_tells (pairs : List (Slot × Ty)) : Tells places (coerceEach pairs) := by
  induction pairs with
  | nil => exact .pure ()
  | cons pair rest ih => exact .bind (coerce_tells pair.1 pair.2) fun _ => ih

theorem denotation_tells (node : NodeId) : Tells places ( denotation node) := by
  refine .bindRead fun text => .bindRead fun environment => ?_
  split
  · exact .pure _
  · exact failAt_tells node _

theorem annotation_tells (node : NodeId) : Tells places ( annotation node) :=
  .bind (denotation_tells node) fun ty => (setType_quiet node ty).andThen fun _ => .pure ty

theorem annotation?_tells (id : NodeId) (label : Label) : Tells places (annotation? id label) := by
  refine .bindRead fun found => ?_
  cases found with
  | none => exact .pure none
  | some node => exact .bind (annotation_tells node) fun _ => .pure _

/-! ### Arguments and lookups -/

theorem argumentList_quiet (id : NodeId) : Quiet places (argumentList id) :=
  .build fun _ cover => cover.argumentList id .param

theorem convertArguments_tells (slots : List Slot) (resolution : Resolution)
    (indices : List Nat) : Tells places (convertArguments slots resolution indices) := by
  induction indices with
  | nil => exact .pure ()
  | cons index rest ih =>
      rw [convertArguments]
      split
      · exact .bind (coerce_tells _ _) fun _ => ih
      · exact .stop _

theorem accept_tells (id : NodeId) (hint : Hint) (resolution : Resolution) (slots : List Slot) :
    Tells places (accept id hint resolution slots) := by
  refine .bind (convertArguments_tells slots resolution _) fun _ => ?_
  exact (setBinding_quiet id _).andThen fun _ => .pure _

theorem reject_tells (id : NodeId) (what : String) (rejected : List Rejection) :
    Tells places (reject id what rejected : Check α) :=
  .bindRead fun _ => failAt_tells id _

/-! ### Checking children -/

def VisitsTell (places : Places) (visit : Visit) : Prop := ∀ id, Tells places (visit id)

section Visits

variable {visit : Visit}

/-- Checks the node in a slot. -/
theorem visitSlot_tells (visits : VisitsTell places visit) (slot : Slot) {next : Ty → Check β}
    (rest : ∀ ty, Tells places (next ty)) :
    Tells places (occupant slot >>= fun node => visit node >>= next) :=
  (occupant_quiet slot).andThen fun node => .bind (visits node) rest

theorem enforce_tells (visits : VisitsTell places visit) (id : NodeId) (label : Label) (ty : Ty) :
    Tells places (enforce visit id label ty) := by
  refine .bind (requiredSlot_tells id label) fun slot => ?_
  exact visitSlot_tells visits slot fun _ => coerce_tells slot ty

theorem visitAll_tells (visits : VisitsTell places visit) (slots : List Slot) :
    Tells places (visitAll visit slots) := by
  induction slots with
  | nil => exact .pure []
  | cons slot rest ih =>
      exact visitSlot_tells visits slot fun _ => .bind ih fun _ => .pure _

end Visits

end Check

end ScriptTyping
