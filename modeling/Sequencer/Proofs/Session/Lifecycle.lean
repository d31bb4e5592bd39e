import Sequencer.Device.Recorder
import Sequencer.Proofs.Run.Interference
import Sequencer.Proofs.Session.Execution

/-! # The phases of a session

Whatever is asked of a session, and in whatever order, its phase is that of the last report since a
program was loaded, and idle without one. Reports tell whether the flag has been lowered in the run
they are about, by the device or by anybody else who holds it; stops at any other time leave them, and
the phase, as they are. Without a device, which depends on what has been attached and detached, an
execution fails and changes nothing: `lifecycle`.
-/

namespace Sequencer.Session

variable {α β : Type}

/-! ## Executions while others hold the flag -/

section Amid

variable [Arithmetic α] [Device α β]

/-- An execution while others may lower the flag. The list tells before which steps of the run they
do. -/
def executeAmid (session : Session α β) (meanwhile : List Bool) :
    Except (Failure α β) (Report α × Session α β) :=
  session.executeBy fun run =>
    Machine.performAmid session.program session.settings meanwhile
      (Machine.start session.program run)

/-- What an execution takes while others may lower the flag, and the run it leaves. -/
def performedAmid (session : Session α β) (device : β) (meanwhile : List Bool) : α × Run α β :=
  Machine.performAmid session.program session.settings meanwhile
    (Machine.start session.program (session.opened device))

/-- A moment of an execution while others may lower the flag. -/
def Passes (session : Session α β) (device : β) (meanwhile : List Bool) : Machine α β → Prop :=
  Machine.Passes session.program session.settings meanwhile
    (Machine.start session.program (session.opened device))

/-- Others lower the flag before an execution is over. -/
def Interferes (session : Session α β) (device : β) (meanwhile : List Bool) : Prop :=
  Machine.Interferes session.program session.settings meanwhile
    (Machine.start session.program (session.opened device))

theorem executeAmid_eq_ok {session : Session α β} {device : β}
    (attached : session.device = some device) (meanwhile : List Bool) :
    session.executeAmid meanwhile = .ok (session.closed (session.performedAmid device meanwhile)) :=
  executeBy_eq_ok _ attached

theorem declared_opened (session : Session α β) (device : β) :
    (Machine.start session.program (session.opened device)).Declared session.program :=
  Machine.declared_start session.program _

variable [Arithmetic.LawfulZero α]

/-- With nobody else there it is the execution as such. -/
theorem executeAmid_nil (session : Session α β) : session.executeAmid [] = session.execute := by
  have alone : Machine.performAmid (β := β) session.program session.settings [] ∘
      Machine.start session.program =
        Run.performProgram session.program session.settings :=
    funext (Machine.rest_start session.program session.settings)
  rw [executeAmid, execute, ← alone]
  rfl

theorem performedAmid_of_not_interferes {session : Session α β} {device : β} {meanwhile : List Bool}
    (undisturbed : ¬ session.Interferes device meanwhile) :
    session.performedAmid device meanwhile = session.performed device :=
  ((session.declared_opened device).performAmid_of_not_interferes undisturbed).trans
    (Machine.rest_start session.program session.settings _)

/-- The ways in which others may lower the flag bring about what comes of all interleavings of the
steps of the run and of stops, and nothing else. -/
theorem executeAmid_eq_ok_iff {session : Session α β} {device : β}
    (attached : session.device = some device) (outcome : Report α × Session α β) :
    (∃ meanwhile, session.executeAmid meanwhile = .ok outcome) ↔
      ∃ result, session.closed result = outcome ∧
        Machine.Interleaving session.program session.settings
          (Machine.start session.program (session.opened device)) (Machine.finish [] result) := by
  have declared := session.declared_opened device
  constructor
  · rintro ⟨meanwhile, executed⟩
    rw [executeAmid_eq_ok attached] at executed
    exact ⟨_, Except.ok.inj executed, declared.interleaving_iff.mpr ⟨meanwhile, rfl⟩⟩
  · rintro ⟨result, rfl, interleaving⟩
    obtain ⟨meanwhile, performs⟩ := declared.interleaving_iff.mp interleaving
    exact ⟨meanwhile, performs ▸ executeAmid_eq_ok attached meanwhile⟩

/-- The flag is down at the end if others have lowered it, or the device has asked for a stop. -/
theorem stopped_performedAmid_iff (session : Session α β) (device : β) (meanwhile : List Bool) :
    (session.performedAmid device meanwhile).2.running = false ↔
      session.Interferes device meanwhile ∨
        ¬ Device.Quiet device (session.performedAmid device meanwhile).2.calls := by
  by_cases interferes : session.Interferes device meanwhile
  · exact iff_of_true ((session.declared_opened device).stopped_of_interferes interferes)
      (.inl interferes)
  · rw [performedAmid_of_not_interferes interferes, ← (session.heeds_performed device).running,
      Bool.not_eq_true, or_iff_right interferes]

end Amid

/-! ## Histories -/

/-- What can be asked of a session. -/
inductive Operation (β : Type) where
  | read (source : String)
  | load (program : Program)
  /-- An execution, and before which of its steps other holders of the flag lower it. -/
  | execute (meanwhile : List Bool)
  | stop
  /-- A stop by another holder of the flag. -/
  | lowerFlag
  | play
  | pause
  | attach (device : β)
  | detach
  /-- Anything that is done to the device in its own right. -/
  | overDevice (change : β → β)

/-- Whether the latest of all that has been attached and detached is there still. -/
def attached : List (Operation β) → Bool
  | [] => false
  | .attach _ :: _ => true
  | .detach :: _ => false
  | _ :: earlier => attached earlier

variable [Arithmetic α] [Device α β]

/-- The session after an operation. -/
def apply (session : Session α β) : Operation β → Session α β
  | .read source => session.read source
  | .load program => session.load program
  | .execute meanwhile =>
    match session.executeAmid meanwhile with
    | .ok (_, after) => after
    | .error failure => failure.session
  | .stop => session.stop
  | .lowerFlag => session.lowerFlag
  | .play => session.play
  | .pause => session.pause
  | .attach device => session.attach device
  | .detach => session.detach.2
  | .overDevice change => session.overDevice change

/-- The session that a history leads to. The latest operation comes first in it. -/
def ofHistory (settings : Settings) (history : List (Operation β)) : Session α β :=
  history.foldr (fun operation session => session.apply operation) (start settings)

/-- The report of the last execution that has not failed, unless a program has been loaded since. -/
def lastReport? (settings : Settings) : List (Operation β) → Option (Report α)
  | [] => none
  | .read _ :: _ | .load _ :: _ => none
  | .execute meanwhile :: earlier =>
    match (ofHistory settings earlier : Session α β).executeAmid meanwhile with
    | .ok (report, _) => some report
    | .error _ => lastReport? settings earlier
  | _ :: earlier => lastReport? settings earlier

omit [Arithmetic α] in
/-- A stop lowers the flag, stops the device and forgets the handles. With no run in progress it does
nothing else. -/
theorem stop_eq {session : Session α β} (resting : session.phase ≠ .running) :
    session.stop =
      { session with
        state := { session.state with running := false, active := #[] }
        device := session.device.map Device.stop } := by
  rw [stop, if_neg resting]
  rfl

/-- There is a device exactly if the last to come of attaching and detaching is attaching. -/
theorem isSome_device_ofHistory (settings : Settings) (history : List (Operation β)) :
    (ofHistory settings history : Session α β).device.isSome = attached history := by
  induction history with
  | nil => rfl
  | cons operation earlier inductionHypothesis =>
    cases operation with
    | execute meanwhile =>
      change ((ofHistory settings earlier : Session α β).apply (.execute meanwhile)).device.isSome = _
      rw [apply]
      cases there : (ofHistory settings earlier : Session α β).device with
      | none =>
        rw [executeAmid, executeBy_eq_error _ there]
        exact inductionHypothesis
      | some device =>
        rw [executeAmid_eq_ok there]
        exact (congrArg Option.isSome there).symm.trans inductionHypothesis
    | stop | play | pause | overDevice => exact Option.isSome_map.trans inductionHypothesis
    | attach | detach => rfl
    | read | load | lowerFlag => exact inductionHypothesis

/-! ## Reports -/

/-- Whether a report says of an execution what has happened: it tells of a stop exactly if the flag
was lowered at some moment, which is the case exactly if others have lowered it or the device has
asked for that. -/
structure Reports (session : Session α β) (device : β) (meanwhile : List Bool) (report : Report α) :
    Prop where
  executes : ∃ after, session.executeAmid meanwhile = .ok (report, after)
  finished : report.phase = .stopped ∨ report.phase = .completed
  stopped_iff : report.phase = .stopped ↔
    ∃ moment, session.Passes device meanwhile moment ∧ moment.run.running = false
  asked_iff : report.phase = .stopped ↔
    session.Interferes device meanwhile ∨
      ¬ Device.Quiet device (Entry.calls report.journal.toList)

theorem Reports.phase_ne {session : Session α β} {device : β} {meanwhile : List Bool}
    {report : Report α} (reports : session.Reports device meanwhile report) {phase : Phase}
    (unfinished : phase.isFinished = false) : report.phase ≠ phase := by
  rintro rfl
  rcases reports.finished with stopped | completed
  · simp [stopped, Phase.isFinished] at unfinished
  · simp [completed, Phase.isFinished] at unfinished

variable [Arithmetic.LawfulZero α]

theorem reports_closed {session : Session α β} {device : β}
    (attached : session.device = some device) (meanwhile : List Bool) :
    session.Reports device meanwhile (session.closed (session.performedAmid device meanwhile)).1 := by
  let result := session.performedAmid device meanwhile
  have phase : (session.closed result).1.phase =
      if result.2.running then .completed else .stopped := rfl
  have stopped : (session.closed result).1.phase = .stopped ↔ result.2.running = false := by
    rw [phase]
    cases result.2.running <;> simp
  have calls : Entry.calls (session.closed result).1.journal.toList = result.2.calls :=
    (Entry.calls_push _ _).trans (List.append_nil _)
  refine ⟨⟨_, executeAmid_eq_ok attached meanwhile⟩, ?_, ?_, ?_⟩
  · rw [phase]
    cases result.2.running <;> simp
  · exact stopped.trans ((session.declared_opened device).stopped_iff meanwhile)
  · rw [calls]
    exact stopped.trans (session.stopped_performedAmid_iff device meanwhile)

/-! ## Phases -/

theorem exists_of_lastReport? {settings : Settings} {history : List (Operation β)} {report : Report α}
    (last : lastReport? settings history = some report) :
    ∃ earlier device meanwhile, .execute meanwhile :: earlier <:+ history ∧
      (ofHistory settings earlier : Session α β).Reports device meanwhile report := by
  induction history with
  | nil => cases last
  | cons operation earlier inductionHypothesis =>
    have goesOn : lastReport? settings earlier = some report →
        ∃ before device meanwhile, .execute meanwhile :: before <:+ operation :: earlier ∧
          (ofHistory settings before : Session α β).Reports device meanwhile report := by
      intro last
      obtain ⟨before, device, meanwhile, suffix, reports⟩ := inductionHypothesis last
      exact ⟨before, device, meanwhile, suffix.trans (List.suffix_cons _ _), reports⟩
    cases operation with
    | read source => cases last
    | load program => cases last
    | execute meanwhile =>
      rw [lastReport?] at last
      cases attached : (ofHistory settings earlier : Session α β).device with
      | none =>
        rw [executeAmid, executeBy_eq_error _ attached] at last
        exact goesOn last
      | some device =>
        rw [executeAmid_eq_ok attached] at last
        obtain rfl := Option.some.inj last
        exact ⟨earlier, device, meanwhile, List.suffix_rfl, reports_closed attached meanwhile⟩
    | stop | lowerFlag | play | pause | attach | detach | overDevice => exact goesOn last

/-- The phase that a report tells of, or idle without a report. -/
def phaseOf (report : Option (Report α)) : Phase := (report.map Report.phase).getD .idle

theorem phaseOf_lastReport?_ne_running (settings : Settings) (history : List (Operation β)) :
    phaseOf (lastReport? (α := α) settings history) ≠ .running := by
  cases last : lastReport? (α := α) settings history with
  | none => exact nofun
  | some report =>
    obtain ⟨_, _, _, _, reports⟩ := exists_of_lastReport? last
    exact reports.phase_ne rfl

/-- Only loading a program and executions that do not fail change the phase. -/
theorem phase_ofHistory (settings : Settings) (history : List (Operation β)) :
    (ofHistory settings history : Session α β).phase =
      phaseOf (lastReport? (α := α) settings history) := by
  induction history with
  | nil => rfl
  | cons operation earlier inductionHypothesis =>
    cases operation with
    | execute meanwhile =>
      change ((ofHistory settings earlier : Session α β).apply (.execute meanwhile)).phase = _
      rw [apply, lastReport?]
      cases attached : (ofHistory settings earlier : Session α β).device with
      | none =>
        rw [executeAmid, executeBy_eq_error _ attached]
        exact inductionHypothesis
      | some device =>
        rw [executeAmid_eq_ok attached]
        rfl
    | stop =>
      have resting : (ofHistory settings earlier : Session α β).phase ≠ .running :=
        inductionHypothesis ▸ phaseOf_lastReport?_ne_running settings earlier
      exact (congrArg Session.phase (stop_eq resting)).trans inductionHypothesis
    | read | load => rfl
    | lowerFlag | play | pause | attach | detach | overDevice => exact inductionHypothesis

/-! ## All there is to a history -/

/-- What holds of the session that a history leads to. -/
structure Lifecycle (settings : Settings) (history : List (Operation β)) (session : Session α β) :
    Prop where
  resting : session.phase ≠ .running
  idle_iff : session.phase = .idle ↔ lastReport? (α := α) settings history = none
  reported : ∀ report, lastReport? settings history = some report →
    session.phase = report.phase ∧
      ∃ earlier device meanwhile, .execute meanwhile :: earlier <:+ history ∧
        (ofHistory settings earlier : Session α β).Reports device meanwhile report
  /-- Executions that nobody interferes with are executions as such. -/
  alone : session.executeAmid [] = session.execute
  /-- What can come of an execution is what can come of its steps with stops between any of them. -/
  amid : ∀ device, session.device = some device → ∀ outcome,
    (∃ meanwhile, session.executeAmid meanwhile = .ok outcome) ↔
      ∃ result, session.closed result = outcome ∧
        Machine.Interleaving session.program session.settings
          (Machine.start session.program (session.opened device)) (Machine.finish [] result)
  fails_iff : ∀ meanwhile,
    (∃ failure, session.executeAmid meanwhile = .error failure) ↔ attached history = false
  failing : ∀ meanwhile failure, session.executeAmid meanwhile = .error failure →
    failure.error = .missingDevice ∧ failure.session = session
  succeeds : attached history = true → ∀ meanwhile, ∃ device report,
    session.device = some device ∧ session.Reports device meanwhile report
  stop : session.stop =
    { session with
      state := { session.state with running := false, active := #[] }
      device := session.device.map Device.stop }

theorem lifecycle_ofHistory (settings : Settings) (history : List (Operation β)) :
    Lifecycle settings history (ofHistory settings history : Session α β) := by
  have phase := phase_ofHistory (α := α) settings history
  have resting := phase ▸ phaseOf_lastReport?_ne_running settings history
  have there := isSome_device_ofHistory (α := α) settings history
  refine ⟨resting, ?_, fun report last => ?_, executeAmid_nil _,
    fun _ => executeAmid_eq_ok_iff, fun meanwhile => ?_, fun meanwhile failure fails => ?_,
    fun attached meanwhile => ?_, stop_eq resting⟩
  · rw [phase]
    cases last : lastReport? (α := α) settings history with
    | none => exact iff_of_true rfl rfl
    | some report =>
      obtain ⟨_, _, _, _, reports⟩ := exists_of_lastReport? last
      exact iff_of_false (reports.phase_ne rfl) nofun
  · refine ⟨?_, exists_of_lastReport? last⟩
    rw [phase, last]
    rfl
  · rw [← there]
    cases attached : (ofHistory settings history : Session α β).device with
    | none => exact iff_of_true ⟨_, executeBy_eq_error _ attached⟩ rfl
    | some device =>
      rw [executeAmid_eq_ok attached]
      exact iff_of_false nofun nofun
  · cases attached : (ofHistory settings history : Session α β).device with
    | none =>
      rw [executeAmid, executeBy_eq_error _ attached] at fails
      obtain rfl := Except.error.inj fails
      exact ⟨rfl, rfl⟩
    | some device =>
      rw [executeAmid_eq_ok attached] at fails
      cases fails
  · obtain ⟨device, attached⟩ := Option.isSome_iff_exists.mp (there.trans attached)
    exact ⟨device, _, attached, reports_closed attached meanwhile⟩

/-- After any history a session is not running. It is idle exactly if no execution has succeeded since
a program was loaded, and otherwise in the phase of the last report, which tells of a stop exactly if
the flag was lowered in the run it is about, by the device or at any moment by others. An execution
fails exactly if no device is attached, or it has been detached again, and changes nothing then. A
stop forgets the handles and cancels of a timeline what has not been consumed. -/
theorem lifecycle {β : Type} [Device Float β] (settings : Settings) (history : List (Operation β)) :
    Lifecycle settings history (ofHistory settings history : Session Float β) ∧
      ∀ timeline : Timeline Float,
        (Device.stop timeline).events = timeline.consumed ∧ (Device.stop timeline).remaining = 0 :=
  ⟨lifecycle_ofHistory settings history, fun _ => ⟨Array.append_empty, rfl⟩⟩

/-- A device asks for a stop with the first of two requests, and is stopped when it is done. -/
example :
    (ofHistory .standard
      [.stop, .execute [], .read "sample kick\nsample snare\n",
        .attach (.empty (some 1) Note.frequency)] :
          Session Float (Recorder Float)).phase = .stopped := by
  decide +kernel

/-- Somebody else lowers the flag when the first request has been made. -/
example :
    ((lastReport? .standard
      [.execute [false, false, false, true], .read "sample kick\nsample snare\n",
        .attach (Timeline.empty : Timeline Float)] : Option (Report Float)).map
          fun report => (report.phase, report.dispatched)) = some (.stopped, 1) := by
  decide +kernel

end Sequencer.Session
