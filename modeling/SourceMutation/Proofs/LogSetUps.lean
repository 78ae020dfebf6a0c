import SourceMutation.Log.Sinks

/-!
# Setting the log up again and again

A set-up of the log is passed over, or it removes all sinks and adds the ones that are asked for,
as far as it gets (`LogSetUp.Outcome`).  So whatever set-ups were tried, in whatever environments
and on whatever file trees, there is at most one console, and after it at most one file; and nothing
but a forced set-up changes anything once one has succeeded (`LogState.afterAll_settled`).

A set-up that fails keeps nothing of what was there.  The log counts as set up from then on, though
no set-up need have succeeded, and only a forced one makes up for that
(`LogState.afterAll_interrupted`).
-/

namespace SourceMutation

/-- A set-up of the log, with the environment and the file tree that it meets. -/
structure LogSetUp where
  environment : Environment
  request : LogRequest
  tree : FileTree

namespace LogSetUp

variable {attempt later : LogSetUp} {before : LogState} {failure : Failure}

/-- Tries to set the log up. -/
def perform (attempt : LogSetUp) (before : LogState) : Except Failure Unit × LogState × FileTree :=
  LogState.setUp attempt.environment attempt.request before attempt.tree

/-- The state of the log after a set-up, whether or not it succeeds. -/
def after (attempt : LogSetUp) (before : LogState) : LogState := (attempt.perform before).2.1

/-! ## What is asked for -/

/-- Whether a set-up is not passed over. -/
def GoesAhead (attempt : LogSetUp) (before : LogState) : Prop :=
  before.configured = false ∨ attempt.request.force = true

/-- The console that is asked for, unless it is suppressed. -/
def console (attempt : LogSetUp) : Except Failure (List Sink) :=
  if attempt.request.suppressConsole.getD (attempt.environment.flag "SPANMUT_MACHINE_MODE") then
    .ok []
  else
    match LogState.levelNumber attempt.request.level with
    | .ok level => .ok [.console level]
    | .error failure => .error failure

/-- The console that is asked for, if there can be one. -/
def consoleSinks (attempt : LogSetUp) : List Sink := attempt.console.toOption.getD []

/-- The file that is asked for, if any, and the file tree with it. -/
def file (attempt : LogSetUp) : Except Failure (List Sink) × FileTree :=
  if attempt.request.enableFile.getD (attempt.environment.flag "SPANMUT_FILE_LOGGING") then
    let directory := attempt.environment.get "SPANMUT_LOG_DIR" ".spanmut/logs"
    match LogState.addFile (Path.ofText directory) attempt.request.time .initial attempt.tree with
    | (.ok (), state, tree) => (.ok state.sinks, tree)
    | (.error failure, _, tree) => (.error failure, tree)
  else (.ok [], attempt.tree)

/-- What can come of a set-up: a result, and the log and the file tree after it. -/
inductive Outcome (attempt : LogSetUp) (before : LogState) :
    Except Failure Unit × LogState × FileTree → Prop
  /-- The log counts as set up already. -/
  | passedOver (hconfigured : before.configured = true) (hforce : attempt.request.force = false) :
      Outcome attempt before (.ok (), before, attempt.tree)
  /-- The console cannot be added, and there is no sink. -/
  | withoutConsole {failure : Failure} (hahead : attempt.GoesAhead before)
      (hconsole : attempt.console = .error failure) :
      Outcome attempt before (.error failure, ⟨true, []⟩, attempt.tree)
  /-- The file cannot be added; what was made on the way to it stays. -/
  | withoutFile {failure : Failure} {consoles : List Sink} {tree : FileTree}
      (hahead : attempt.GoesAhead before) (hconsole : attempt.console = .ok consoles)
      (hfile : attempt.file = (.error failure, tree)) :
      Outcome attempt before (.error failure, ⟨true, consoles⟩, tree)
  /-- All that is asked for is there, and nothing else. -/
  | done {consoles files : List Sink} {tree : FileTree} (hahead : attempt.GoesAhead before)
      (hconsole : attempt.console = .ok consoles) (hfile : attempt.file = (.ok files, tree)) :
      Outcome attempt before (.ok (), ⟨true, consoles ++ files⟩, tree)

/-- Which sinks are there already makes no difference to the file. -/
theorem addFile_eq (directory : Path) (time : String) (state : LogState) (tree : FileTree) :
    LogState.addFile directory time state tree
      = match LogState.addFile directory time .initial tree with
        | (.ok (), added, tree) =>
          (.ok (), { state with sinks := state.sinks ++ added.sinks }, tree)
        | (.error failure, _, tree) => (.error failure, state, tree) := by
  unfold LogState.addFile
  rcases tree.ensureDirectories directory with ⟨_ | _, made⟩
  · rfl
  · dsimp only
    rcases LogState.filePath directory time made with _ | path
    · rfl
    · dsimp only
      rcases LogState.openFile path made with ⟨_ | _, opened⟩ <;> rfl

theorem addConsole_eq (attempt : LogSetUp) (state : LogState) :
    LogState.addConsole
        (attempt.request.suppressConsole.getD (attempt.environment.flag "SPANMUT_MACHINE_MODE"))
        attempt.request.level state
      = match attempt.console with
        | .ok consoles => (.ok (), { state with sinks := state.sinks ++ consoles })
        | .error failure => (.error failure, state) := by
  unfold LogState.addConsole console
  split
  · simp
  · cases LogState.levelNumber attempt.request.level <;> rfl

/-- A set-up has no other outcomes. -/
theorem perform_outcome (attempt : LogSetUp) (before : LogState) :
    attempt.Outcome before (attempt.perform before) := by
  unfold perform LogState.setUp
  split
  case isTrue hpassed =>
    rw [Bool.and_eq_true, Bool.not_eq_true'] at hpassed
    exact .passedOver hpassed.1 hpassed.2
  case isFalse hahead =>
    have hahead : attempt.GoesAhead before := by
      cases hconfigured : before.configured with
      | false => exact .inl hconfigured
      | true => exact .inr (by simpa [hconfigured] using hahead)
    dsimp only
    rw [addConsole_eq]
    -- The console comes first, and then the file if one is wanted; each of them may fail.
    cases hconsole : attempt.console with
    | error failure => exact .withoutConsole hahead hconsole
    | ok consoles =>
      dsimp only
      split
      case isTrue hwanted =>
        rw [addFile_eq]
        rcases hadd : LogState.addFile (Path.ofText (attempt.environment.get "SPANMUT_LOG_DIR"
          ".spanmut/logs")) attempt.request.time .initial attempt.tree with ⟨_ | _, added, tree⟩
        · exact .withoutFile hahead hconsole (by simp [file, hwanted, hadd])
        · exact .done hahead hconsole (by simp [file, hwanted, hadd])
      case isFalse hwanted =>
        have hnone : attempt.file = (.ok [], attempt.tree) := by simp [file, hwanted]
        simpa using Outcome.done hahead hconsole hnone

/-- A set-up that goes ahead does not depend on what was there. -/
theorem perform_of_goesAhead (hahead : attempt.GoesAhead before) :
    attempt.perform before = attempt.perform .initial := by
  have hnot : (before.configured && !attempt.request.force) = false := by
    rcases hahead with hconfigured | hforce <;> simp [*]
  have hinitial : (LogState.initial.configured && !attempt.request.force) = false := rfl
  rw [perform, perform, LogState.setUp, LogState.setUp, hnot, hinitial]
  rfl

theorem perform_of_configured (hconfigured : before.configured = true)
    (hforce : attempt.request.force = false) :
    attempt.perform before = (.ok (), before, attempt.tree) := by
  rw [perform, LogState.setUp, hconfigured, hforce]
  rfl

/-- Whatever comes of a set-up, the log counts as set up. -/
theorem Outcome.configured {result : Except Failure Unit × LogState × FileTree}
    (h : attempt.Outcome before result) : result.2.1.configured = true := by
  cases h with
  | passedOver hconfigured => exact hconfigured
  | withoutConsole | withoutFile | done => rfl

/-- Of two set-ups the second one counts if it is forced, and else the first. -/
theorem after_after (first attempt : LogSetUp) :
    attempt.after (first.after .initial)
      = (if attempt.request.force then attempt else first).after .initial := by
  have hconfigured : (first.after .initial).configured = true :=
    (first.perform_outcome .initial).configured
  cases hforce : attempt.request.force with
  | true =>
    rw [after, perform_of_goesAhead (.inr hforce)]
    rfl
  | false =>
    rw [after, perform_of_configured hconfigured hforce]
    rfl

end LogSetUp

/-! ## The sinks -/

/-- Whether there is at most one console, and after it at most one file. -/
def Sink.InOrder (sinks : List Sink) : Prop :=
  ∃ consoleLevel fileLevel : Option Int,
    sinks = (consoleLevel.map Sink.console).toList ++ (fileLevel.map Sink.file).toList

namespace LogSetUp

variable {attempt : LogSetUp} {before : LogState} {consoles files : List Sink} {tree : FileTree}

theorem console_eq_ok (h : attempt.console = .ok consoles) :
    ∃ level : Option Int, consoles = (level.map Sink.console).toList := by
  unfold console at h
  split at h
  · cases h
    exact ⟨none, rfl⟩
  · split at h
    case h_1 level _ =>
      cases h
      exact ⟨some level, rfl⟩
    case h_2 => cases h

theorem sinks_of_addFile {directory : Path} {time : String} {state added : LogState}
    {tree made : FileTree}
    (h : LogState.addFile directory time state tree = (.ok (), added, made)) :
    added.sinks = state.sinks ++ [.file LogState.fileLevel] := by
  unfold LogState.addFile at h
  split at h
  -- Only here the file was opened, and a sink is added for it.
  case h_1 => cases h
  case h_2 =>
    split at h
    case h_1 => cases h
    case h_2 =>
      split at h
      case h_1 => cases h
      case h_2 =>
        cases h
        rfl

theorem file_eq_ok (h : attempt.file = (.ok files, tree)) :
    ∃ level : Option Int, files = (level.map Sink.file).toList := by
  unfold file at h
  split at h
  · dsimp only at h
    split at h
    case h_1 added _ hadd =>
      cases h
      exact ⟨some LogState.fileLevel, sinks_of_addFile hadd⟩
    case h_2 => cases h
  · cases h
    exact ⟨none, rfl⟩

theorem Outcome.inOrder {result : Except Failure Unit × LogState × FileTree}
    (h : attempt.Outcome before result) (hbefore : Sink.InOrder before.sinks) :
    Sink.InOrder result.2.1.sinks := by
  cases h with
  | passedOver => exact hbefore
  | withoutConsole => exact ⟨none, none, rfl⟩
  | withoutFile hahead hconsole =>
    obtain ⟨level, rfl⟩ := console_eq_ok hconsole
    exact ⟨level, none, (List.append_nil _).symm⟩
  | done hahead hconsole hfile =>
    obtain ⟨level, rfl⟩ := console_eq_ok hconsole
    obtain ⟨other, rfl⟩ := file_eq_ok hfile
    exact ⟨level, other, rfl⟩

end LogSetUp

/-! ## Many set-ups

Of all set-ups one decides: the last one that was forced, or else the first.
-/

namespace LogState

/-- The state of the log after some set-ups, one after the other, whether or not they succeed. -/
def afterAll (state : LogState) (attempts : List LogSetUp) : LogState :=
  attempts.foldl (fun state attempt => attempt.after state) state

/-- The set-up that counts after a first one and others: the last one that is forced, if any is. -/
def decisive (first : LogSetUp) (rest : List LogSetUp) : LogSetUp :=
  rest.foldl (fun decided attempt => if attempt.request.force then attempt else decided) first

/-- The log is as the set-up that counts would have left it at first. -/
theorem afterAll_cons (first : LogSetUp) (rest : List LogSetUp) :
    initial.afterAll (first :: rest) = (decisive first rest).after .initial := by
  induction rest generalizing first with
  | nil => rfl
  | cons attempt others ih =>
    calc initial.afterAll (first :: attempt :: others)
        = (attempt.after (first.after .initial)).afterAll others := rfl
      _ = ((if attempt.request.force then attempt else first).after .initial).afterAll others := by
          rw [LogSetUp.after_after]
      _ = (decisive first (attempt :: others)).after .initial := ih _

theorem inOrder_afterAll (attempts : List LogSetUp) :
    Sink.InOrder (initial.afterAll attempts).sinks := by
  have hnone : Sink.InOrder initial.sinks := ⟨none, none, rfl⟩
  cases attempts with
  | nil => exact hnone
  | cons first rest =>
    rw [afterAll_cons]
    exact ((decisive first rest).perform_outcome .initial).inOrder hnone

/-- Once a set-up was tried, whatever came of it, the log counts as set up. -/
theorem configured_of_tried {attempts : List LogSetUp} (htried : attempts ≠ []) :
    (initial.afterAll attempts).configured = true := by
  obtain ⟨first, rest, rfl⟩ := List.exists_cons_of_ne_nil htried
  rw [afterAll_cons]
  exact ((decisive first rest).perform_outcome .initial).configured

/--
Whatever set-ups were tried, no sink is there twice.  Once one of them has succeeded, no set-up
changes anything unless it is forced, whatever was tried in between.
-/
theorem afterAll_settled (attempts : List LogSetUp) :
    Sink.InOrder (initial.afterAll attempts).sinks ∧
      ∀ earlier attempt between, attempts = earlier ++ attempt :: between →
        (attempt.perform (initial.afterAll earlier)).1 = .ok () →
        ∀ later : LogSetUp, later.request.force = false →
          later.perform (initial.afterAll attempts)
            = (.ok (), initial.afterAll attempts, later.tree) := by
  refine ⟨inOrder_afterAll attempts, ?_⟩
  rintro earlier attempt between rfl - later hforce
  -- It is enough that one was tried: also one that fails makes the log count as set up.
  have htried : earlier ++ attempt :: between ≠ [] := by simp
  exact LogSetUp.perform_of_configured (configured_of_tried htried) hforce

/-! ### A file where the log directory should be -/

/-- The file `d`, in the working directory. -/
def blockedTree : FileTree where
  workDirectory := ["w"]
  entries := ⟨[(["w"], .directory), (["w", "d"], .file [])]⟩

/-- A set-up that asks for a level, in an environment where nothing is said. -/
def levelled (level : String) (force : Bool) : LogSetUp :=
  ⟨.empty, { level := .text level, force }, blockedTree⟩

/-- A forced set-up of a console and a log file, in an environment where logs go to `d`. -/
def blocked : LogSetUp where
  environment := .ofList [("SPANMUT_LOG_DIR", "d")]
  request := { level := .text "DEBUG", enableFile := some true, force := true }
  tree := blockedTree

/-- The second set-up and the third one fail, and take the console of the first one away. -/
theorem levelled_settled :
    let attempts := [levelled "WARNING" false, levelled "LOUD" true, blocked]
    initial.afterAll attempts = ⟨true, [.console 10]⟩ ∧
      ((levelled "WARNING" false).perform (initial.afterAll [])).1 = .ok () ∧
      (levelled "INFO" false).request.force = false ∧
      (levelled "INFO" false).perform (initial.afterAll attempts)
        = (.ok (), initial.afterAll attempts, blockedTree) := by
  intro attempts
  have hreturned : ((levelled "WARNING" false).perform (initial.afterAll [])).1 = .ok () := rfl
  exact ⟨rfl, hreturned, rfl,
    (afterAll_settled attempts).2 [] (levelled "WARNING" false) _ rfl hreturned _ rfl⟩

/-! ## Set-ups that fail -/

/-- What a set-up that fails leaves behind. -/
structure Interrupted (attempt : LogSetUp) (before : LogState) (failure : Failure) : Prop where
  /-- It was not passed over, for it was forced or nothing was tried before. -/
  ahead : attempt.GoesAhead before
  /-- Either the console could not be added, or it could and the file could not. -/
  cause : attempt.console = .error failure ∨
    (∃ consoles, attempt.console = .ok consoles) ∧ attempt.file.1 = .error failure
  /-- The log counts as set up, with the console that was asked for, if there can be one. -/
  after_eq : attempt.after before = ⟨true, attempt.consoleSinks⟩
  /-- So it is as it was only if it counted as set up, with that console and without a file. -/
  unchanged_iff : attempt.after before = before ↔
    before.configured = true ∧ before.sinks = attempt.consoleSinks
  /-- Only a set-up that is forced makes up for it. -/
  passedOver : ∀ later : LogSetUp, later.request.force = false →
    later.perform (attempt.after before) = (.ok (), attempt.after before, later.tree)
  /-- One that is forced does what it would have done at first. -/
  madeUp : ∀ later : LogSetUp, later.request.force = true →
    later.perform (attempt.after before) = later.perform .initial

end LogState

/-- A set-up that fails has gone ahead, and stopped at the console or at the file. -/
theorem LogSetUp.Outcome.of_error {attempt : LogSetUp} {before : LogState} {failure : Failure}
    {result : Except Failure Unit × LogState × FileTree} (h : attempt.Outcome before result)
    (hfailed : result.1 = .error failure) :
    attempt.GoesAhead before ∧
      (attempt.console = .error failure ∨
        (∃ consoles, attempt.console = .ok consoles) ∧ attempt.file.1 = .error failure) ∧
      result.2.1 = ⟨true, attempt.consoleSinks⟩ := by
  cases h with
  | passedOver | done => cases hfailed
  | withoutConsole hahead hconsole =>
    cases hfailed
    exact ⟨hahead, .inl hconsole, by simp [LogSetUp.consoleSinks, hconsole, Except.toOption]⟩
  -- The console was added before the file failed.
  | withoutFile hahead hconsole hfile =>
    cases hfailed
    refine ⟨hahead, .inr ⟨⟨_, hconsole⟩, by rw [hfile]⟩, ?_⟩
    simp [LogSetUp.consoleSinks, hconsole, Except.toOption]

namespace LogState

/--
A set-up that fails removes the sinks that were there, and the log counts as set up from then on,
whatever it was before and whether or not any set-up has succeeded.
-/
theorem afterAll_interrupted (attempts : List LogSetUp) (attempt : LogSetUp) {failure : Failure}
    (hfailed : (attempt.perform (initial.afterAll attempts)).1 = .error failure) :
    Interrupted attempt (initial.afterAll attempts) failure := by
  obtain ⟨hahead, hcause, hafter⟩ := (attempt.perform_outcome _).of_error hfailed
  have hafter : attempt.after (initial.afterAll attempts) = ⟨true, attempt.consoleSinks⟩ := hafter
  exact {
    ahead := hahead
    cause := hcause
    after_eq := hafter
    -- The set-up has changed nothing just where things were like that before.
    unchanged_iff := by
      rw [hafter]
      rcases initial.afterAll attempts with ⟨configured, sinks⟩
      rw [LogState.mk.injEq]
      exact and_congr eq_comm eq_comm
    passedOver := fun later hforce => by
      rw [hafter]
      exact LogSetUp.perform_of_configured rfl hforce
    madeUp := fun later hforce => LogSetUp.perform_of_goesAhead (.inr hforce) }

/-- The second set-up removes the console of the first one, and leaves its own. -/
theorem blocked_interrupted :
    initial.afterAll [levelled "WARNING" false] = ⟨true, [.console 30]⟩ ∧
      (blocked.perform (initial.afterAll [levelled "WARNING" false])).1
        = .error (.file ⟨.exists, "d", none⟩) ∧
      blocked.after ⟨true, [.console 30]⟩ = ⟨true, [.console 10]⟩ ∧
      Interrupted blocked (initial.afterAll [levelled "WARNING" false])
        (.file ⟨.exists, "d", none⟩) := by
  have hfailed : (blocked.perform (initial.afterAll [levelled "WARNING" false])).1
      = .error (.file ⟨.exists, "d", none⟩) := by rfl
  exact ⟨rfl, hfailed, rfl, afterAll_interrupted _ blocked hfailed⟩

/-- A name that no level has makes the log count as set up at first, so that the next set-up is
passed over; and in a forced set-up, it removes the console of an earlier one. -/
theorem loudLevel_undoes :
    ((levelled "LOUD" false).perform .initial).1 = .error (.unknownLevel "LOUD") ∧
      (levelled "LOUD" false).after .initial = ⟨true, []⟩ ∧
      (levelled "INFO" false).after .initial = ⟨true, [.console 20]⟩ ∧
      (levelled "INFO" false).after ⟨true, []⟩ = ⟨true, []⟩ ∧
      ((levelled "LOUD" true).perform ⟨true, [.console 20]⟩).1 = .error (.unknownLevel "LOUD") ∧
      (levelled "LOUD" true).after ⟨true, [.console 20]⟩ = ⟨true, []⟩ :=
  ⟨rfl, rfl, rfl, rfl, rfl, rfl⟩

end LogState

end SourceMutation
