import Sequencer.Mix
import Sequencer.Run.Journal
import Sequencer.Settings.Basic

/-!
# The state of a run

Tempo, variables, recorded effects, active handles and the flag that a stop lowers make up what a
run leaves behind. Beside it a run keeps the definitions in progress, the refusals there have been,
and counts of invocations and of requests, which start afresh with every run.
-/

namespace Sequencer

structure State (α : Type) where
  tempo : Tempo α
  bindings : Variables α
  /-- The effects of each block that has any, in the order of their recording. -/
  effects : List (String × List (Effect α))
  active : Array Handle
  running : Bool

namespace State

variable {α : Type}

def start [Arithmetic α] (bpm : α) (running : Bool) : State α :=
  { tempo := .start bpm, bindings := .empty, effects := [], active := #[], running }

def effectsOf (state : State α) (block : String) : List (Effect α) :=
  (state.effects.lookup block).getD []

/-- Appends to the effects of a block. -/
def addEffect (state : State α) (block : String) (effect : Effect α) : State α :=
  let effects :=
    if state.effects.any fun entry => entry.1 == block then
      state.effects.map fun entry =>
        if entry.1 == block then (entry.1, entry.2 ++ [effect]) else entry
    else state.effects ++ [(block, [effect])]
  { state with effects }

end State

/-- Why an invocation does not take place. -/
inductive Refusal where
  | invocationLimit
  | reentry
  | depthLimit
  deriving DecidableEq, Repr

/-- A definition that was refused, and why. -/
structure Refused where
  kind : Kind
  name : String
  refusal : Refusal
  deriving DecidableEq, Repr

/-- Whether two refusals share one warning. The invocation limit is warned about once in a run, any
other reason once for each definition. -/
def Refused.sharesWarning (refused earlier : Refused) : Bool :=
  match refused.refusal, earlier.refusal with
  | .invocationLimit, .invocationLimit => true
  | .invocationLimit, _ | _, .invocationLimit => false
  | _, _ => refused.kind == earlier.kind && refused.name == earlier.name

structure Run (α β : Type) where
  state : State α
  device : β
  /-- The definitions in progress, the innermost first. -/
  stack : List (Kind × String)
  invocations : Nat
  /-- Every refusal there has been, each once. -/
  refusals : List Refused
  /-- How many requests the device has taken. -/
  dispatched : Nat
  journal : Journal α

namespace Run

variable {α β : Type}

def start (state : State α) (device : β) (journal : Journal α) : Run α β :=
  { state, device, stack := [], invocations := 0, refusals := [], dispatched := 0, journal }

def running (run : Run α β) : Bool := run.state.running

def record (run : Run α β) (entry : Entry α) : Run α β :=
  { run with journal := run.journal.push entry }

def warn (run : Run α β) (warning : Warning α) : Run α β := run.record (.warned warning)

/-! ## Invocations -/

/-- The reason to refuse an invocation, if there is one. The limit on their number comes first, then
a definition that is in progress already, then the depth. -/
def refusal? (settings : Settings) (run : Run α β) (kind : Kind) (name : String) :
    Option Refusal :=
  if settings.maxInvocations ≤ run.invocations then some .invocationLimit
  else if run.stack.contains (kind, name) then some .reentry
  else if settings.maxDepth ≤ run.stack.length then some .depthLimit
  else none

/-- What is said about a refusal. -/
def refusalWarning (settings : Settings) (refused : Refused) : Warning α :=
  match refused.refusal with
  | .invocationLimit => .invocationLimit settings.maxInvocations
  | .reentry => .reentry refused.kind refused.name
  | .depthLimit => .depthLimit refused.kind refused.name settings.maxDepth

def noteRefusal (run : Run α β) (refused : Refused) : Run α β :=
  if run.refusals.contains refused then run
  else { run with refusals := refused :: run.refusals }

/-- Notes a refusal, and warns about it unless an earlier warning covers it. -/
def refuse (settings : Settings) (run : Run α β) (refused : Refused) : Run α β :=
  let noted := run.noteRefusal refused
  if run.refusals.any refused.sharesWarning then noted
  else noted.warn (refusalWarning settings refused)

def enter (run : Run α β) (kind : Kind) (name : String) : Run α β :=
  { run with stack := (kind, name) :: run.stack, invocations := run.invocations + 1 }

def leave (run : Run α β) : Run α β := { run with stack := run.stack.tail }

/-! ## Values -/

variable [Arithmetic α]

def resolve (run : Run α β) (value : Value) : α := run.state.bindings.resolve value

/-- A pitch is a variable, a frequency, or the name of a note that the device is tuned to. -/
def pitch [Device α β] (run : Run α β) : Value → α
  | .number value token => run.resolve (.number value token)
  | .named name => (run.state.bindings.get? name).getD (Device.frequency run.device name)

/-- Seconds that a number of beats takes, none for a negative one. -/
def seconds (run : Run α β) (beats : Value) : α :=
  run.state.tempo.seconds (Arithmetic.larger (run.resolve beats) 0)

/-- The waveform of a name, and the default one in place of a name that is none. -/
def waveform (settings : Settings) (run : Run α β) : Option String → Waveform × Run α β
  | none => (settings.defaultWaveform, run)
  | some name =>
    match Waveform.ofName? name with
    | some waveform => (waveform, run)
    | none =>
      (settings.defaultWaveform, run.warn (.unknownWaveform name settings.defaultWaveform))

/-! ## Changes -/

def setTempo (run : Run α β) (tempo : Tempo α) : Run α β :=
  { run with state := { run.state with tempo } }

def setVariable (run : Run α β) (name : String) (value : α) : Run α β :=
  { run with state := { run.state with bindings := run.state.bindings.set name value } }

variable [Device α β]

/-- Hands a request to the device, whose handle joins the active ones, and counts it. -/
def dispatch (run : Run α β) (request : Request α) (duration : α) : Run α β :=
  let receipt := Device.schedule run.device request
  let state :=
    { run.state with
      active := run.state.active.push receipt.handle
      running := run.state.running && !receipt.stop }
  { run with state, device := receipt.device, dispatched := run.dispatched + 1 }.record
    (.dispatched request duration receipt.handle)

def recordEffect (run : Run α β) (block : String) (effect : Effect α) : Run α β :=
  { run with
    state := run.state.addEffect block effect
    device := Device.addEffect run.device block effect }.record (.effectRecorded block effect)

end Run

end Sequencer
