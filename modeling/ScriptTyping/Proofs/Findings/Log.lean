import ScriptTyping.Check.Conversion
import ScriptTyping.Proofs.Check.Step

/-!
What a log of checking tells. A log that is kept makes no difference to a run. An error comes into
it where a rule fails, where a value does not flow into the type that is asked for, and where a
construct has no rule. A failure carries its error until somebody records it, and nothing else is
raised meanwhile.
-/

namespace ScriptTyping

namespace Finding

def span : Finding → Span
  | error found => found.span
  | warning found => found.span

def error? : Finding → Option CheckError
  | error found => some found
  | warning _ => none

def warning? : Finding → Option CheckWarning
  | error _ => none
  | warning found => some found

end Finding

def Event.finding? : Event → Option Finding
  | raised finding => some finding
  | typed _ _ => none

def raisedIn (events : List Event) : List Finding := events.filterMap (·.finding?)

def errorsOf (raised : List Finding) : List CheckError := raised.filterMap (·.error?)

def warningsOf (raised : List Finding) : List CheckWarning := raised.filterMap (·.warning?)

@[simp]
theorem raisedIn_nil : raisedIn [] = [] := rfl

@[simp]
theorem raisedIn_raised (finding : Finding) : raisedIn [.raised finding] = [finding] := rfl

@[simp]
theorem raisedIn_typed (node : NodeId) (environment : Environment) :
    raisedIn [.typed node environment] = [] :=
  rfl

@[simp]
theorem raisedIn_append (first rest : List Event) :
    raisedIn (first ++ rest) = raisedIn first ++ raisedIn rest :=
  List.filterMap_append

@[simp]
theorem errorsOf_nil : errorsOf [] = [] := rfl

@[simp]
theorem errorsOf_error (error : CheckError) : errorsOf [.error error] = [error] := rfl

@[simp]
theorem errorsOf_warning (warning : CheckWarning) : errorsOf [.warning warning] = [] := rfl

@[simp]
theorem errorsOf_append (first rest : List Finding) :
    errorsOf (first ++ rest) = errorsOf first ++ errorsOf rest :=
  List.filterMap_append

@[simp]
theorem warningsOf_nil : warningsOf [] = [] := rfl

@[simp]
theorem warningsOf_error (error : CheckError) : warningsOf [.error error] = [] := rfl

@[simp]
theorem warningsOf_warning (warning : CheckWarning) : warningsOf [.warning warning] = [warning] :=
  rfl

@[simp]
theorem warningsOf_append (first rest : List Finding) :
    warningsOf (first ++ rest) = warningsOf first ++ warningsOf rest :=
  List.filterMap_append

namespace Check

variable {α β : Type}

/-- Whether a run adds these events to whatever log is kept, and is the same for every log. The
error that is owed before the run, and after it, is one that was raised and is not recorded yet: the
errors that are recorded or owed are those from before and those in the events, and the warnings
likewise. -/
structure Logs (step : Check α) (old : CheckState) (owed : Option CheckError) (events : List Event)
    (result : Except Failure α) (new : CheckState) (left : Option CheckError) : Prop where
  runs : ∀ log, step.run.run { old with log } =
    .ok (result, { new with log := log.map (· ++ events) })
  errors : new.errors ++ left.toList = old.errors ++ owed.toList ++ errorsOf (raisedIn events)
  warnings : new.warnings = old.warnings ++ warningsOf (raisedIn events)

def Stops (step : Check α) (old : CheckState) : Prop :=
  ∃ fault, ∀ log, step.run.run { old with log } = .error fault

variable {step : Check α} {next : α → Check β} {old between new : CheckState}
  {owed kept left : Option CheckError} {events first rest : List Event} {failure : Failure}

/-- A run that adds nothing to the log and finds nothing. -/
theorem Logs.silent {result : Except Failure α}
    (runs : ∀ log, step.run.run { old with log } = .ok (result, { new with log }))
    (errors : new.errors ++ left.toList = old.errors ++ owed.toList)
    (warnings : new.warnings = old.warnings) : Logs step old owed [] result new left := by
  refine ⟨fun log => ?_, by simpa using errors, by simpa using warnings⟩
  rw [runs log]
  simp

/-! ### Raising and recording -/

theorem Logs.fail (error : CheckError) (old : CheckState) :
    Logs (Check.fail error : Check α) old none [.raised (.error error)]
      (.error (Failure.ofError old.tree error).1)
      { old with tree := (Failure.ofError old.tree error).2 } (some error) :=
  ⟨fun _ => rfl, by simp, by simp⟩

theorem Logs.raise (failure : Failure) (old : CheckState) :
    Logs (Check.raise failure : Check α) old none [.raised (.error failure.error)]
      (.error failure) old (some failure.error) :=
  ⟨fun _ => rfl, by simp, by simp⟩

theorem Logs.warn (warning : CheckWarning) (old : CheckState) :
    Logs (Check.warn warning) old none [.raised (.warning warning)] (.ok ())
      { old with warnings := old.warnings ++ [warning] } none :=
  ⟨fun _ => rfl, by simp, by simp⟩

theorem Logs.report (error : CheckError) (old : CheckState) :
    Logs (Check.report error) old none [.raised (.error error)] (.ok ())
      { old with errors := old.errors ++ [error] } none :=
  ⟨fun _ => rfl, by simp, by simp⟩

theorem Logs.record (error : CheckError) (old : CheckState) :
    Logs (recordError error) old (some error) [] (.ok ())
      { old with errors := old.errors ++ [error] } none :=
  .silent (fun _ => rfl) (by simp) rfl

/-! ### Steps one after another -/

theorem Logs.bind {value : α} {result : Except Failure β}
    (early : Logs step old owed first (.ok value) between kept)
    (late : Logs (next value) between kept rest result new left) :
    Logs (step >>= next) old owed (first ++ rest) result new left := by
  refine ⟨fun log => ?_, ?_, ?_⟩
  · rw [run_bind, early.runs log]
    simpa [Function.comp_def] using late.runs (log.map (· ++ first))
  · rw [late.errors, early.errors, raisedIn_append, errorsOf_append, List.append_assoc]
  · rw [late.warnings, early.warnings, raisedIn_append, warningsOf_append, List.append_assoc]

theorem Logs.bindFailed (failed : Logs step old owed events (.error failure) new left) :
    Logs (step >>= next) old owed events (.error failure) new left :=
  ⟨fun log => by rw [run_bind, failed.runs log], failed.errors, failed.warnings⟩

theorem Logs.attempt {result : Except Failure α} (logs : Logs step old owed events result new left) :
    Logs (Check.attempt step) old owed events (.ok result) new left :=
  ⟨fun log => by rw [run_attempt, logs.runs log], logs.errors, logs.warnings⟩

theorem Stops.bind (stops : Stops step old) : Stops (step >>= next) old := by
  obtain ⟨fault, runs⟩ := stops
  exact ⟨fault, fun log => by rw [run_bind, runs log]⟩

theorem Stops.attempt (stops : Stops step old) : Stops (Check.attempt step) old := by
  obtain ⟨fault, runs⟩ := stops
  exact ⟨fault, fun log => by rw [run_attempt, runs log]⟩

theorem Logs.bindStops {value : α} (early : Logs step old owed first (.ok value) between kept)
    (late : Stops (next value) between) : Stops (step >>= next) old := by
  obtain ⟨fault, runs⟩ := late
  exact ⟨fault, fun log => by rw [run_bind, early.runs log]; exact runs _⟩

end Check

end ScriptTyping
