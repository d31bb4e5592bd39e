import Sequencer.Run.State

/-!
# Performing a program

Commands in a sequence start where the one before them ends; blocks played together share a start
and last as long as the longest; a loop plays its blocks again and again; a custom sample gives all
its commands one start and takes no time. Everything is told its start and its mix, and says how
long it takes.

Each construct is written over a way to perform what is below it. Only `invoke` ties them together:
every definition that is entered uses up some `room`, and since a definition in progress is refused,
as much room as there are definitions is enough.
-/

namespace Sequencer.Run

variable {α β : Type} [Arithmetic α]

open Arithmetic

/-! ## Sequences, fan-outs and loops -/

/-- Performs commands one after another, as long as no stop is asked for. -/
def inSequence (perform : Command → α → Run α β → α × Run α β) (start : α) :
    List Command → α → Run α β → α × Run α β
  | [], elapsed, run => (elapsed, run)
  | command :: rest, elapsed, run =>
    if run.running then
      let (duration, after) := perform command (start + elapsed) run
      inSequence perform start rest (elapsed + duration) after
    else (elapsed, run.record (.sequenceLeft (start + elapsed)))

/-- Performs commands without regard to the time they take, or to a stop. -/
def atOnce (perform : Command → Run α β → α × Run α β) :
    List Command → Run α β → Run α β
  | [], run => run
  | command :: rest, run => atOnce perform rest (perform command run).2

/-- Plays blocks side by side. The longest one counts. -/
def together (play : String → Run α β → α × Run α β) :
    List String → α → Run α β → α × Run α β
  | [], longest, run => (longest, run)
  | name :: rest, longest, run =>
    let (duration, after) := play name run
    together play rest (larger longest duration) after

/-- Plays something again from where it ended, as long as no stop is asked for. A turn that enters
no definition changes nothing that the next turn could find different, so it is the last one. -/
def repeatedly (play : α → Run α β → α × Run α β) (start : α) :
    (left done : Nat) → α → Run α β → α × Run α β
  | 0, _, total, run => (total, run)
  | left + 1, done, total, run =>
    if run.running then
      let entered := run.invocations
      let (duration, after) := play (start + total) run
      if after.invocations = entered then (total + duration, after)
      else repeatedly play start left (done + 1) (total + duration) after
    else (total, run.record (.loopLeft done))

/-! ## Leaves -/

variable [Device α β]

/-- How often a loop is to play. -/
def iterations (run : Run α β) (count : Value) : Nat :=
  let number := run.resolve count
  if isFinite number && 0 < number then wholePart number else 0

def heard (settings : Settings) (run : Run α β) (mix : Mix α) (volume pan : Option Value) :
    α × α :=
  let bindings := run.state.bindings
  (mix.heardVolume (Mix.resolveOr bindings (ofDouble settings.defaultVolume) volume),
    mix.heardPan (Mix.resolveOr bindings 0 pan))

def performSample (settings : Settings) (arguments : SampleArguments) (offset : α) (mix : Mix α)
    (run : Run α β) : α × Run α β :=
  let (volume, pan) := run.heard settings mix arguments.volume arguments.pan
  let pitch := run.resolve arguments.pitch
  let timescale := run.resolve arguments.timescale
  let trigger := Trigger.sample arguments.name pitch timescale
  (0, run.dispatch { trigger, start := offset, extent := .instant, volume, pan } 0)

def performTone (settings : Settings) (arguments : ToneArguments) (offset : α) (mix : Mix α)
    (run : Run α β) : α × Run α β :=
  let duration := run.seconds arguments.beats
  let frequency := run.pitch arguments.pitch
  let (waveform, run) := run.waveform settings arguments.waveform
  let (volume, pan) := run.heard settings mix arguments.volume arguments.pan
  let trigger := Trigger.tone frequency waveform
  let extent := Extent.lasting duration
  (duration, run.dispatch { trigger, start := offset, extent, volume, pan } duration)

def performSlide (settings : Settings) (arguments : SlideArguments) (offset : α) (mix : Mix α)
    (run : Run α β) : α × Run α β :=
  let duration := run.seconds arguments.beats
  let source := run.pitch arguments.source
  let target := run.pitch arguments.target
  let (waveform, run) := run.waveform settings arguments.waveform
  let (volume, pan) := run.heard settings mix arguments.volume arguments.pan
  let trigger := Trigger.slide source target waveform
  let extent := Extent.upTo (offset + duration)
  (duration, run.dispatch { trigger, start := offset, extent, volume, pan } duration)

/-! ## Commands -/

/-- A way to invoke a definition at an offset, within a mix. -/
abbrev Invocation (α β : Type) := Kind → Definition → α → Mix α → Run α β → α × Run α β

def playBlock (program : Program) (invoke : Invocation α β) (offset : α) (mix : Mix α)
    (name : String) (run : Run α β) : α × Run α β :=
  match program.block? name with
  | some block => invoke .block block offset mix run
  | none => (0, run.warn (.blockNotFound name))

def playTogether (program : Program) (invoke : Invocation α β) (names : List String) (offset : α)
    (mix : Mix α) (run : Run α β) : α × Run α β :=
  together (playBlock program invoke offset mix) names 0 run

/-- A loop with a block that does not exist plays none at all. -/
def playLoop (program : Program) (invoke : Invocation α β) (count : Value) (names : List String)
    (offset : α) (mix : Mix α) (run : Run α β) : α × Run α β :=
  match names.filter fun name => (program.block? name).isNone with
  | [] =>
    let play := fun start run => playTogether program invoke names start mix run
    repeatedly play offset (run.iterations count) 0 0 run
  | missing => (0, run.warn (.loopBlocksNotFound missing))

def changeTempo (line : Nat) (bpm offset : α) (run : Run α β) : Run α β :=
  match Tempo.change? bpm with
  | some tempo => (run.setTempo tempo).record (.tempoChanged bpm offset)
  | none => run.warn (.invalidBpm line bpm)

def ignoreKeys (command : Command) (run : Run α β) : Run α β :=
  command.ignoredKeys.foldl
    (fun run key => run.warn (.ignoredParameter command.line command.verb key)) run

def performAction (program : Program) (settings : Settings) (invoke : Invocation α β)
    (command : Command) (offset : α) (mix : Mix α) (run : Run α β) : α × Run α β :=
  match command.action with
  | .sample arguments =>
    match program.customSample? arguments.name with
    | some customSample => invoke .customSample customSample offset mix run
    | none => performSample settings arguments offset mix run
  | .tone arguments => performTone settings arguments offset mix run
  | .slide arguments => performSlide settings arguments offset mix run
  | .wait beats => (run.seconds beats, run)
  | .bpm value => (0, changeTempo command.line (run.resolve value) offset run)
  | .play names arguments =>
    playTogether program invoke names offset (mix.nest run.state.bindings arguments) run
  | .loop count names arguments =>
    playLoop program invoke count names offset (mix.nest run.state.bindings arguments) run
  | .set name value => (0, run.setVariable name (run.resolve value))
  | .effect effect block => (0, run.recordEffect block (effect.map run.resolve))
  | .invalid fault => (0, run.warn (.faultyCommand command.line command.text fault))
  | .unknown => (0, run.warn (.unknownCommand command.line command.verb))

def performCommand (program : Program) (settings : Settings) (invoke : Invocation α β)
    (command : Command) (offset : α) (mix : Mix α) (run : Run α β) : α × Run α β :=
  performAction program settings invoke command offset mix (ignoreKeys command run)

/-! ## Definitions -/

/-- Performs the commands of a definition that has been entered. -/
def performBody (program : Program) (settings : Settings) (invoke : Invocation α β) (kind : Kind)
    (definition : Definition) (offset : α) (mix : Mix α) (run : Run α β) : α × Run α β :=
  let perform := fun command start run =>
    performCommand program settings invoke command start mix run
  match kind with
  | .block =>
    inSequence perform offset definition.commands 0
      (run.record (.blockEntered definition.name offset))
  | .customSample =>
    let size := definition.commands.length
    (0, atOnce (perform · offset ·) definition.commands
      (run.record (.customSampleEntered definition.name size offset)))

def invoke (program : Program) (settings : Settings) (room : Nat) : Invocation α β :=
  fun kind definition offset mix run =>
    match run.refusal? settings kind definition.name with
    | some refusal => (0, run.refuse settings { kind, name := definition.name, refusal })
    | none =>
      match room with
      | 0 => (0, run)
      | room + 1 =>
        let (duration, after) :=
          performBody program settings (invoke program settings room) kind definition offset mix
            (run.enter kind definition.name)
        (duration, after.leave)

/-! ## Programs -/

/-- How many definitions can be in progress at once. -/
def room (program : Program) : Nat := program.blocks.length + program.customSamples.length

def entryBlock : String := "main"

/-- Records the effects of the blocks' headers. -/
def recordHeaders (program : Program) (run : Run α β) : Run α β :=
  program.blocks.foldl
    (fun run block => block.effects.foldl
      (fun run effect => run.recordEffect block.name (effect.map ofDouble)) run)
    run

/-- Performs the global commands, or the entry block where there are none. -/
def performEntry (program : Program) (settings : Settings) (run : Run α β) : α × Run α β :=
  let invoke := invoke program settings (room program)
  if !program.globals.isEmpty then
    inSequence (fun command start run =>
      performCommand program settings invoke command start .neutral run) 0 program.globals 0 run
  else if (program.block? entryBlock).isSome then
    playTogether program invoke [entryBlock] 0 .neutral run
  else (0, run.record .nothingToPlay)

def performProgram (program : Program) (settings : Settings) (run : Run α β) : α × Run α β :=
  performEntry program settings (recordHeaders program run)

end Sequencer.Run
