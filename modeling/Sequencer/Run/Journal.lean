import Sequencer.Program.Basic
import Sequencer.Device.Basic

/-!
# Journals

A run keeps a journal of what it does: the warnings it raises, the requests it makes, the effects it
records and the turns it takes. The report of a run is read off its journal.
-/

namespace Sequencer

inductive Phase where
  | idle
  | running
  | stopped
  | completed
  deriving DecidableEq, Repr

namespace Phase

def name : Phase → String
  | .idle => "idle"
  | .running => "running"
  | .stopped => "stopped"
  | .completed => "completed"

def title : Phase → String
  | .idle => "Idle"
  | .running => "Running"
  | .stopped => "Stopped"
  | .completed => "Completed"

def isFinished : Phase → Bool
  | .stopped | .completed => true
  | .idle | .running => false

end Phase

/-- What a run passes over or puts right. -/
inductive Warning (α : Type) where
  | ignoredParameter (line : Nat) (verb key : String)
  | invalidBpm (line : Nat) (bpm : α)
  | faultyCommand (line : Nat) (text : String) (fault : Fault)
  | unknownCommand (line : Nat) (verb : String)
  | unknownWaveform (name : String) (fallback : Waveform)
  | blockNotFound (name : String)
  | loopBlocksNotFound (names : List String)
  | invocationLimit (limit : Nat)
  | reentry (kind : Kind) (name : String)
  | depthLimit (kind : Kind) (name : String) (limit : Nat)

inductive Entry (α : Type) where
  | warned (warning : Warning α)
  | started (globals blocks customSamples : Nat)
  | finished (phase : Phase) (dispatched : Nat) (duration : α) (warnings : Nat)
  | nothingToPlay
  | sequenceLeft (time : α)
  | loopLeft (iterations : Nat)
  | tempoChanged (bpm offset : α)
  | blockEntered (name : String) (offset : α)
  | customSampleEntered (name : String) (size : Nat) (offset : α)
  | dispatched (request : Request α) (duration : α) (handle : Handle)
  | effectRecorded (block : String) (effect : Effect α)

abbrev Journal (α : Type) := Array (Entry α)

namespace Entry

variable {α : Type}

def warning? : Entry α → Option (Warning α)
  | .warned warning => some warning
  | _ => none

def request? : Entry α → Option (Request α × Handle)
  | .dispatched request _ handle => some (request, handle)
  | _ => none

end Entry

namespace Journal

variable {α : Type}

def warnings (journal : Journal α) : Array (Warning α) := journal.filterMap Entry.warning?

def requests (journal : Journal α) : Array (Request α × Handle) := journal.filterMap Entry.request?

end Journal

/-! ## Wording -/

def Warning.message : Warning Float → String
  | .ignoredParameter line verb key => s!"line {line}: '{verb}' ignores parameter '{key}'"
  | .invalidBpm line bpm => s!"line {line}: ignoring invalid bpm {Number.text bpm}"
  | .faultyCommand line text fault => s!"line {line}: skipping '{text}': {fault.message}"
  | .unknownCommand line verb => s!"line {line}: skipping unknown command '{verb}'"
  | .unknownWaveform name fallback => s!"unknown waveform '{name}', using {fallback.name}"
  | .blockNotFound name => s!"block '{name}' not found"
  | .loopBlocksNotFound names =>
    "loop skipped: block(s) not found: " ++ ", ".intercalate names
  | .invocationLimit limit =>
    s!"more than {limit} block invocations; the rest of the run is skipped"
  | .reentry kind name => s!"{kind.text} '{name}' invokes itself; skipped"
  | .depthLimit kind name limit => s!"{kind.text} '{name}' exceeds nesting depth {limit}; skipped"

/-- How loud an entry of a log is. -/
inductive Level where
  | warn
  | info
  | debug
  deriving DecidableEq, Repr

def Level.name : Level → String
  | .warn => "WARN"
  | .info => "INFO"
  | .debug => "DEBUG"

structure LogLine where
  level : Level
  message : String
  deriving DecidableEq, Repr

def LogLine.text (line : LogLine) : String := s!"{line.level.name} {line.message}"

def secondsText (time : Float) : String := Number.fixed 3 time ++ "s"

def Request.message (request : Request Float) (duration : Float) : String :=
  match request.trigger with
  | .sample name _ _ => s!"sample '{name}' at {secondsText request.start}"
  | .tone frequency _ =>
    s!"tone {Number.fixed 2 frequency}Hz for {secondsText duration} at {secondsText request.start}"
  | .slide source target _ =>
    let pitches := s!"{Number.fixed 2 source}Hz -> {Number.fixed 2 target}Hz"
    s!"slide {pitches} over {secondsText duration} at {secondsText request.start}"

namespace Entry

def level {α : Type} : Entry α → Level
  | .warned _ => .warn
  | .started _ _ _ | .finished _ _ _ _ | .nothingToPlay => .info
  | _ => .debug

def message : Entry Float → String
  | .warned warning => warning.message
  | .started globals blocks customSamples =>
    s!"run started: {globals} global command(s), {blocks} block(s), " ++
      s!"{customSamples} custom sample(s)"
  | .finished phase events duration warnings =>
    s!"run {phase.title}: {events} event(s) over {secondsText duration}, {warnings} warning(s)"
  | .nothingToPlay => "nothing to play: no global commands and no 'main' block"
  | .sequenceLeft time => s!"stop requested; leaving sequence at {secondsText time}"
  | .loopLeft iterations => s!"stop requested; loop left after {iterations} iteration(s)"
  | .tempoChanged bpm offset => s!"tempo {Number.text bpm} BPM at {secondsText offset}"
  | .blockEntered name offset => s!"block '{name}' at {secondsText offset}"
  | .customSampleEntered name size offset =>
    s!"custom sample '{name}' ({size} commands) at {secondsText offset}"
  | .dispatched request duration _ => request.message duration
  | .effectRecorded block effect => s!"effect {effect.text} on '{block}'"

def logLine (entry : Entry Float) : LogLine := { level := entry.level, message := entry.message }

end Entry

/-- The log lines of the irregularities found in reading. -/
def Program.logLines (program : Program) : List LogLine :=
  program.irregularities.map fun irregularity =>
    { level := .warn, message := irregularity.message }

end Sequencer
