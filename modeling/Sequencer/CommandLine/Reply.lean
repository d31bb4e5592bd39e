import Sequencer.CommandLine.Help
import Sequencer.Playback
import Sequencer.Program.Printing
import Sequencer.Program.Validation
import Sequencer.Schedule
import Sequencer.Settings.Document

/-!
# Replies

What the command line answers, as a function of its arguments and of the files it may read: the text
of both outputs, the exit code, a file to write and a timeline to play.
-/

namespace Sequencer.CommandLine

/-- Why a file cannot be read or written. -/
inductive FileError where
  | notFound
  | isDirectory
  | notDirectory
  | permissionDenied
  | nameTooLong
  | notText
  | other (message : String)
  deriving DecidableEq, Repr

def FileError.message : FileError → String
  | .notFound => "No such file or directory (os error 2)"
  | .isDirectory => "Is a directory (os error 21)"
  | .notDirectory => "Not a directory (os error 20)"
  | .permissionDenied => "Permission denied (os error 13)"
  | .nameTooLong => "File name too long (os error 36)"
  | .notText => "stream did not contain valid UTF-8"
  | .other message => message

/-- The files at hand, the settings file of the user, and how much of the log is asked for. -/
structure Surroundings where
  read : String → Except FileError String
  userSettings : Except FileError String
  logFilter : Option String

/-- Why a settings file gives no settings. -/
inductive SettingsError where
  | unreadable (path : String) (error : FileError)
  | malformed (path : String)
  deriving DecidableEq, Repr

/-- What is wrong with a document is not told in detail. -/
def malformedDetail : String := "malformed document"

def SettingsError.message : SettingsError → String
  | .unreadable path error => s!"failed to read config {path}: {error.message}"
  | .malformed path => s!"invalid config {path}: {malformedDetail}"

/-- The error behind an error. -/
def SettingsError.cause : SettingsError → String
  | .unreadable _ error => error.message
  | .malformed _ => malformedDetail

/-- Where the settings file of a user stands, below the home directory. -/
def userSettingsPath : String := ".blockbeat/config.yaml"

/-- The settings in a file that has been read, or the reason why there are none. -/
def settingsIn (path : String) : Except FileError String → Except SettingsError Settings
  | .error error => .error (.unreadable path error)
  | .ok text =>
    match Settings.read? text with
    | some settings => .ok settings
    | none => .error (.malformed path)

/-- The settings of the user, if their file can be read and is well formed. -/
def userSettings? (surroundings : Surroundings) : Option Settings :=
  match settingsIn userSettingsPath surroundings.userSettings with
  | .ok settings => some settings
  | .error _ => none

/-- The settings of an order: those of the file it names, else those of the user, else the standard
ones. -/
def settingsFor (surroundings : Surroundings) (order : Order) : Except SettingsError Settings :=
  let settings := match order.config with
    | some path => settingsIn path (surroundings.read path)
    | none => .ok ((userSettings? surroundings).getD .standard)
  match order.bpm with
  | some bpm => settings.map fun settings => { settings with defaultBpm := bpm }
  | none => settings

/-- The files that an order reads. -/
def Order.paths (order : Order) : List String := order.file :: order.config.toList

/-! ## Replies -/

structure Reply where
  log : List LogLine
  output : String
  errors : String
  exit : Nat
  /-- A file to write, with its new content. -/
  written : Option (String × String)
  /-- What to play once the output is out. -/
  playing : Option (Timeline Float)

namespace Reply

def printing (output : String) : Reply :=
  { log := [], output, errors := "", exit := 0, written := none, playing := none }

def failing (errors : String) (exit : Nat) : Reply :=
  { log := [], output := "", errors, exit, written := none, playing := none }

/-- An error with the error behind it. -/
def failure (message cause : String) : Reply :=
  failing s!"Error: {message}\n\nCaused by:\n    {cause}\n" 1

def unreadable (file : String) (error : FileError) : Reply :=
  failure s!"failed to read {file}" error.message

def unwritable (file : String) (error : FileError) : Reply :=
  failure s!"failed to write {file}" error.message

end Reply

/-! ## Tasks -/

def check (file : String) (program : Program) : Reply :=
  let warnings := program.irregularities.map fun irregularity =>
    "warning: " ++ irregularity.message
  let errors := program.diagnosticMessages
  let output := Text.unlines (warnings ++ errors.map ("error: " ++ ·))
  let blocks := program.blocks.length
  let customSamples := program.customSamples.length
  if errors.isEmpty then
    .printing (output ++ s!"{file}: ok ({blocks} block(s), {customSamples} custom sample(s))\n")
  else { Reply.failing s!"{file}: {errors.length} error(s)\n" 1 with output }

/-- Performs a program on an empty timeline. -/
def recorded (settings : Settings) (program : Program) : Report Float × Timeline Float :=
  let session : Session Float (Timeline Float) := (Session.start settings).load program
  let (report, after) := session.perform Timeline.empty
  (report, after.device.getD .empty)

def schedule (settings : Settings) (layout : Layout) (program : Program) : Reply :=
  let (report, timeline) := recorded settings program
  let output := match layout with
    | .table => Schedule.table report timeline
    | .yaml => Schedule.document report timeline
  { Reply.printing output with log := report.logLines }

def play (settings : Settings) (program : Program) : Reply :=
  let (report, timeline) := recorded settings program
  let length := Number.fixed 1 timeline.span
  let announcement := s!"playing {report.dispatched} event(s) over {length}s (Ctrl-C to stop)...\n"
  { Reply.printing announcement with log := report.logLines, playing := some timeline }

def format (file : String) (write : Bool) (program : Program) : Reply :=
  if write then { Reply.printing "" with written := some (file, program.print) }
  else .printing program.print

def perform (settings : Settings) (order : Order) (program : Program) : Reply :=
  match order.task with
  | .check => check order.file program
  | .schedule => schedule settings order.layout program
  | .play => play settings program
  | .format => format order.file order.write program

/-! ## Logs -/

/-- Whether a filter lets a level through. A filter is the name of the least level that it shows;
one that names no level shows nothing. -/
def isShown (filter : String) (level : Level) : Bool :=
  match String.ofList (Number.lowercase filter.toList), level with
  | "warn", .warn | "info", .warn | "info", .info => true
  | "debug", _ | "trace", _ => true
  | _, _ => false

/-- Keeps the lines of the log that are asked for, those of reading before those of the run. -/
def withLog (surroundings : Surroundings) (settings : Settings) (program : Program)
    (reply : Reply) : Reply :=
  let filter := surroundings.logFilter.getD settings.logLevel
  let lines := program.logLines ++ reply.log
  { reply with log := lines.filter fun line => isShown filter line.level }

/-! ## Orders -/

def fulfil (surroundings : Surroundings) (order : Order) : Reply :=
  match settingsFor surroundings order with
  | .error error => .failure error.message error.cause
  | .ok settings =>
    match surroundings.read order.file with
    | .error error => .unreadable order.file error
    | .ok source =>
      let program := Program.read source
      withLog surroundings settings program (perform settings order program)

/-- The exit code for arguments that make no sense. -/
def misuseExit : Nat := 2

def reply (surroundings : Surroundings) (arguments : List String) : Reply :=
  match Order.read arguments with
  | .ok order => fulfil surroundings order
  | .error .misuse => .failing (help .program) misuseExit
  | .error (.help topic) => .printing (help topic)
  | .error .version => .printing version

/-- The last word of a performance. -/
def closing : Outcome → String
  | .finished => "done.\n"
  | .stopped => "stopped.\n"

/-- All of the output, when what is to be played is played with these readings of the clock. -/
def transcript (reply : Reply) (readings : List Float) : String :=
  match reply.playing with
  | none => reply.output
  | some timeline =>
    let (events, playback) := (Playback.start timeline).advanceAll readings
    reply.output ++ Text.unlines (events.toList.map Event.text) ++
      (playback.outcome.map closing).getD ""

end Sequencer.CommandLine
