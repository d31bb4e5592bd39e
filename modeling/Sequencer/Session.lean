import Sequencer.Program.Reading
import Sequencer.Run.Performance

/-!
# Sessions

A session holds a program, the settings, and a device if one is attached. Each execution starts from
a fresh state with the flag raised, and ends in a report. Without a device it fails before anything
has changed. A stop lowers the flag, stops the device and forgets the active handles.
-/

namespace Sequencer

structure Report (α : Type) where
  phase : Phase
  duration : α
  dispatched : Nat
  journal : Journal α

namespace Report

variable {α : Type}

def completed (report : Report α) : Bool := report.phase == .completed

def warnings (report : Report α) : Array (Warning α) := report.journal.warnings

end Report

def Report.logLines (report : Report Float) : List LogLine :=
  report.journal.toList.map Entry.logLine

inductive SessionError where
  | missingDevice
  deriving DecidableEq, Repr

def SessionError.message : SessionError → String
  | .missingDevice => "no audio backend attached; cannot schedule events"

structure Session (α β : Type) where
  settings : Settings
  program : Program
  device : Option β
  /-- What the last execution left behind. Its flag is the one that a stop lowers. -/
  state : State α
  phase : Phase

/-- Why an execution has failed, and the session that it leaves. -/
structure Failure (α β : Type) where
  error : SessionError
  session : Session α β

def Failure.message {α β : Type} (failure : Failure α β) : String := failure.error.message

namespace Session

variable {α β : Type} [Arithmetic α]

open Arithmetic

def start (settings : Settings) : Session α β :=
  { settings
    program := .empty
    device := none
    state := .start (ofDouble settings.defaultBpm) true
    phase := .idle }

def attach (session : Session α β) (device : β) : Session α β :=
  { session with device := some device }

def detach (session : Session α β) : Option β × Session α β :=
  (session.device, { session with device := none })

def load (session : Session α β) (program : Program) : Session α β :=
  { session with program, phase := .idle }

def read (session : Session α β) (source : String) : Session α β :=
  session.load (.read source)

/-- Lowers the flag, as any holder of it may. -/
def lowerFlag (session : Session α β) : Session α β :=
  { session with state := { session.state with running := false } }

def overDevice (session : Session α β) (change : β → β) : Session α β :=
  { session with device := session.device.map change }

/-! ## Executions -/

/-- The session once an execution has begun: the flag is raised, and the state is a fresh one. -/
def begun (session : Session α β) : Session α β :=
  { session with
    state := .start (ofDouble session.settings.defaultBpm) true
    phase := .running }

def opening (program : Program) : Entry α :=
  .started program.globals.length program.blocks.length program.customSamples.length

/-- The run with which a session that has begun an execution goes on. -/
def run (session : Session α β) (device : β) : Run α β :=
  .start session.state device #[opening session.program]

/-- The report on the result of a run, and the session after it. -/
def closed (session : Session α β) (result : α × Run α β) : Report α × Session α β :=
  let (duration, run) := result
  let phase := if run.running then .completed else .stopped
  let closing := Entry.finished phase run.dispatched duration run.journal.warnings.size
  ({ phase, duration, dispatched := run.dispatched, journal := run.journal.push closing },
    { session with device := some run.device, state := run.state, phase })

/-- An execution on a device, with a way to perform the run. -/
def performBy (perform : Run α β → α × Run α β) (session : Session α β) (device : β) :
    Report α × Session α β :=
  let begun := session.begun
  begun.closed (perform (begun.run device))

/-- An execution on the attached device, with a way to perform the run. -/
def executeBy (perform : Run α β → α × Run α β) (session : Session α β) :
    Except (Failure α β) (Report α × Session α β) :=
  match session.device with
  | none => .error { error := .missingDevice, session }
  | some device => .ok (session.performBy perform device)

variable [Device α β]

def perform (session : Session α β) (device : β) : Report α × Session α β :=
  session.performBy (Run.performProgram session.program session.settings) device

def execute (session : Session α β) : Except (Failure α β) (Report α × Session α β) :=
  session.executeBy (Run.performProgram session.program session.settings)

/-! ## Transport -/

def play (session : Session α β) : Session α β := session.overDevice Device.play

def pause (session : Session α β) : Session α β := session.overDevice Device.pause

def stop (session : Session α β) : Session α β :=
  let stopped := session.lowerFlag.overDevice Device.stop
  { stopped with
    state := { stopped.state with active := #[] }
    phase := if session.phase = .running then .stopped else session.phase }

end Session

end Sequencer
