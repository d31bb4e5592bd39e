import Sequencer.Proofs.Device.Indifferent
import Sequencer.Proofs.Program.Alike
import Sequencer.Run.Performance

/-! # Two runs side by side

Two runs of programs that hold the same words, on devices of any two kinds. A pairing says which
commands, times and runs correspond, and whether mixes are the same. Where each pair of single
changes keeps the runs paired, commands and definitions keep them paired, whatever they nest, and
take the same time in both. What holds of one run alone is the case in which both runs are the same.
-/

namespace Sequencer

variable {α β γ : Type}

/-! ## Programs with corresponding commands -/

structure Definition.Paired (command : Command → Command → Prop) (left right : Definition) :
    Prop where
  name : left.name = right.name
  commands : List.Forall₂ command left.commands right.commands

/-- Corresponding global commands, and corresponding definitions under every name. -/
structure Program.Paired (command : Command → Command → Prop) (left right : Program) : Prop where
  globals : List.Forall₂ command left.globals right.globals
  room : Run.room left = Run.room right
  block? : ∀ name, Option.Rel (Definition.Paired command) (left.block? name) (right.block? name)
  customSample? : ∀ name,
    Option.Rel (Definition.Paired command) (left.customSample? name) (right.customSample? name)

/-- A program corresponds to itself where its commands do. -/
theorem Program.Paired.refl (program : Program) {command : Command → Command → Prop}
    (each : ∀ own ∈ program.commands, command own own) : program.Paired command program := by
  rw [Program.commands] at each
  refine ⟨List.forall₂_same.mpr fun own member => each own (by simp [member]), rfl, ?_, ?_⟩
  · intro name
    cases found : program.block? name with
    | none => exact .none
    | some block =>
      have inBlock : block ∈ program.blocks := List.mem_of_find?_eq_some found
      refine .some ⟨rfl, List.forall₂_same.mpr fun own member => each own ?_⟩
      exact List.mem_append_right _ (List.mem_flatMap_of_mem inBlock member)
  · intro name
    cases found : program.customSample? name with
    | none => exact .none
    | some customSample =>
      have inSample : customSample ∈ program.customSamples := List.mem_of_find?_eq_some found
      refine .some ⟨rfl, List.forall₂_same.mpr fun own member => each own ?_⟩
      exact List.mem_append_left _
        (List.mem_append_right _ (List.mem_flatMap_of_mem inSample member))

/-- Both lookups find something, or neither does. -/
theorem isNone_eq_of_rel {γ δ : Type} {related : γ → δ → Prop} {one : Option γ} {other : Option δ}
    (found : Option.Rel related one other) : one.isNone = other.isNone := by
  cases found with
  | none => rfl
  | some => rfl

theorem isSome_eq_of_rel {γ δ : Type} {related : γ → δ → Prop} {one : Option γ} {other : Option δ}
    (found : Option.Rel related one other) : one.isSome = other.isSome := by
  rw [← Option.not_isNone, ← Option.not_isNone, isNone_eq_of_rel found]

namespace Command.Alike

variable {left right : Command} (alike : left.Alike right)

include alike

theorem action : left.action = right.action := by
  rw [left.action_eq, right.action_eq]
  exact congrArg Action.ofWords alike

theorem ignoredKeys : left.ignoredKeys = right.ignoredKeys := by
  rw [left.ignoredKeys_eq, right.ignoredKeys_eq]
  exact congrArg Action.ignoredKeys alike

theorem verb : left.verb = right.verb := congrArg Action.verbOfWords alike

end Command.Alike

/-! ## Pairings -/

/-- What corresponds to what in two runs side by side. -/
structure Pairing (α β γ : Type) where
  command : Command → Command → Prop
  time : α → α → Prop
  /-- Whether both runs play within one mix. -/
  sharesMix : Prop
  run : Run α β → Run α γ → Prop

namespace Pairing

/-- The same duration, and runs that are paired. -/
structure Agree (pairing : Pairing α β γ) (result : α × Run α β) (result' : α × Run α γ) : Prop where
  duration : result.1 = result'.1
  run : pairing.run result.2 result'.2

/-- Entries that ask nothing of a device, in view of the commands that they are about. -/
inductive Note (pairing : Pairing α β γ) : Entry α → Entry α → Prop
  | ignoredParameter {command command'} (key) : pairing.command command command' →
      Note pairing (.warned (.ignoredParameter command.line command.verb key))
        (.warned (.ignoredParameter command'.line command'.verb key))
  | invalidBpm {command command'} (bpm) : pairing.command command command' →
      Note pairing (.warned (.invalidBpm command.line bpm))
        (.warned (.invalidBpm command'.line bpm))
  | faultyCommand {command command' fault} : pairing.command command command' →
      command.action = .invalid fault →
      Note pairing (.warned (.faultyCommand command.line command.text fault))
        (.warned (.faultyCommand command'.line command'.text fault))
  | unknownCommand {command command'} : pairing.command command command' →
      command.action = .unknown →
      Note pairing (.warned (.unknownCommand command.line command.verb))
        (.warned (.unknownCommand command'.line command'.verb))
  | unknownWaveform (name fallback) :
      Note pairing (.warned (.unknownWaveform name fallback))
        (.warned (.unknownWaveform name fallback))
  | blockNotFound (name) :
      Note pairing (.warned (.blockNotFound name)) (.warned (.blockNotFound name))
  | loopBlocksNotFound (names) :
      Note pairing (.warned (.loopBlocksNotFound names)) (.warned (.loopBlocksNotFound names))
  | sequenceLeft {time time'} : pairing.time time time' →
      Note pairing (.sequenceLeft time) (.sequenceLeft time')
  | loopLeft (iterations) : Note pairing (.loopLeft iterations) (.loopLeft iterations)
  | tempoChanged {offset offset'} (bpm) : pairing.time offset offset' →
      Note pairing (.tempoChanged bpm offset) (.tempoChanged bpm offset')
  | blockEntered {offset offset'} (name) : pairing.time offset offset' →
      Note pairing (.blockEntered name offset) (.blockEntered name offset')
  | customSampleEntered {offset offset'} (name size) : pairing.time offset offset' →
      Note pairing (.customSampleEntered name size offset) (.customSampleEntered name size offset')

/-- Requests for the same sound at corresponding times, as loud and from the same side if the mix is
shared. -/
structure Sound (pairing : Pairing α β γ) (request request' : Request α) : Prop where
  echo : Request.Echo pairing.time request request'
  volume : pairing.sharesMix → request.volume = request'.volume
  pan : pairing.sharesMix → request.pan = request'.pan

theorem Sound.of_heard {pairing : Pairing α β γ} {request request' : Request α}
    (echo : Request.Echo pairing.time request request')
    (heard : pairing.sharesMix → (request.volume, request.pan) = (request'.volume, request'.pan)) :
    pairing.Sound request request' :=
  ⟨echo, fun shared => congrArg Prod.fst (heard shared),
    fun shared => congrArg Prod.snd (heard shared)⟩

/-- At the same time and in the same mix it is the same request. -/
theorem Sound.eq {pairing : Pairing α β γ} {request request' : Request α}
    (sound : pairing.Sound request request')
    (sameTime : ∀ {time time'}, pairing.time time time' → time = time')
    (sharesMix : pairing.sharesMix) : request = request' := by
  obtain ⟨trigger, start, extent, volume, pan⟩ := request
  obtain ⟨trigger', start', extent', volume', pan'⟩ := request'
  obtain ⟨⟨rfl, starts, extents⟩, sameVolume, samePan⟩ := sound
  obtain rfl := sameTime starts
  obtain rfl := sameVolume sharesMix
  obtain rfl := samePan sharesMix
  cases extents with
  | instant | lasting => rfl
  | upTo times =>
    obtain rfl := sameTime times
    rfl

variable [Arithmetic α] [Device α β] [Device α γ]

/-- The pairs of single changes that two runs side by side consist of. -/
structure Lawful (settings : Settings) (pairing : Pairing α β γ) : Prop where
  alike : ∀ {command command'}, pairing.command command command' → command.Alike command'
  delay : ∀ {time time'}, pairing.time time time' → ∀ duration,
    pairing.time (time + duration) (time' + duration)
  tempo : ∀ {left right}, pairing.run left right → left.state.tempo = right.state.tempo
  bindings : ∀ {left right}, pairing.run left right → left.state.bindings = right.state.bindings
  running : ∀ {left right}, pairing.run left right → left.running = right.running
  frequency : ∀ {left right}, pairing.run left right → ∀ name,
    Device.frequency left.device name = Device.frequency right.device name
  refusal? : ∀ {left right}, pairing.run left right → ∀ kind name,
    left.refusal? settings kind name = right.refusal? settings kind name
  invocations : ∀ {before before' after after'}, pairing.run before before' →
    pairing.run after after' →
    (after.invocations = before.invocations ↔ after'.invocations = before'.invocations)
  record : ∀ {left right entry entry'}, pairing.run left right → pairing.Note entry entry' →
    pairing.run (left.record entry) (right.record entry')
  dispatch : ∀ {left right request request'}, pairing.run left right →
    pairing.Sound request request' → ∀ duration,
    pairing.run (left.dispatch request duration) (right.dispatch request' duration)
  setTempo : ∀ {left right}, pairing.run left right → ∀ tempo,
    pairing.run (left.setTempo tempo) (right.setTempo tempo)
  setVariable : ∀ {left right}, pairing.run left right → ∀ name value,
    pairing.run (left.setVariable name value) (right.setVariable name value)
  recordEffect : ∀ {left right}, pairing.run left right → ∀ block effect,
    pairing.run (left.recordEffect block effect) (right.recordEffect block effect)
  refuse : ∀ {left right}, pairing.run left right → ∀ refused,
    pairing.run (left.refuse settings refused) (right.refuse settings refused)
  enter : ∀ {left right}, pairing.run left right → ∀ kind name,
    pairing.run (left.enter kind name) (right.enter kind name)
  leave : ∀ {left right}, pairing.run left right → pairing.run left.leave right.leave

namespace Lawful

variable {settings : Settings} {pairing : Pairing α β γ} (lawful : pairing.Lawful settings)

include lawful

/-! ## Values -/

section Values

variable {left : Run α β} {right : Run α γ} (runs : pairing.run left right)

include runs

theorem resolve : left.resolve = right.resolve := by
  funext value
  rw [Run.resolve, Run.resolve, lawful.bindings runs]

theorem seconds (beats : Value) : left.seconds beats = right.seconds beats := by
  rw [Run.seconds, Run.seconds, lawful.resolve runs, lawful.tempo runs]

theorem pitch (value : Value) : left.pitch value = right.pitch value := by
  cases value with
  | number value token => exact congrFun (lawful.resolve runs) _
  | named name => rw [Run.pitch, Run.pitch, lawful.bindings runs, lawful.frequency runs]

theorem iterations (count : Value) : left.iterations count = right.iterations count := by
  rw [Run.iterations, Run.iterations, lawful.resolve runs]

theorem waveform (name : Option String) :
    (left.waveform settings name).1 = (right.waveform settings name).1 ∧
      pairing.run (left.waveform settings name).2 (right.waveform settings name).2 := by
  cases name with
  | none => exact ⟨rfl, runs⟩
  | some name =>
    rw [Run.waveform, Run.waveform]
    split
    · exact ⟨rfl, runs⟩
    · exact ⟨rfl, lawful.record runs (.unknownWaveform name _)⟩

theorem heard {mix mix' : Mix α} (mixes : mix = mix') (volume pan : Option Value) :
    left.heard settings mix volume pan = right.heard settings mix' volume pan := by
  rw [Run.heard, Run.heard, lawful.bindings runs, mixes]

theorem nest {mix mix' : Mix α} (mixes : pairing.sharesMix → mix = mix') (arguments : MixArguments)
    (shared : pairing.sharesMix) :
    mix.nest left.state.bindings arguments = mix'.nest right.state.bindings arguments := by
  rw [mixes shared, lawful.bindings runs]

end Values

/-! ## Sequences, fan-outs and loops -/

theorem inSequence {perform : Command → α → Run α β → α × Run α β}
    {perform' : Command → α → Run α γ → α × Run α γ}
    (each : ∀ {command command' start start' run run'}, pairing.command command command' →
      pairing.time start start' → pairing.run run run' →
      pairing.Agree (perform command start run) (perform' command' start' run'))
    {start start' : α} (times : pairing.time start start') {commands commands' : List Command}
    (words : List.Forall₂ pairing.command commands commands') (elapsed : α)
    {left : Run α β} {right : Run α γ} (runs : pairing.run left right) :
    pairing.Agree (Run.inSequence perform start commands elapsed left)
      (Run.inSequence perform' start' commands' elapsed right) := by
  induction words generalizing elapsed left right with
  | nil => exact ⟨rfl, runs⟩
  | cons command _ inductionHypothesis =>
    have now := lawful.delay times elapsed
    rw [Run.inSequence, Run.inSequence, ← lawful.running runs]
    split
    · have first := each command now runs
      dsimp only
      rw [← first.duration]
      exact inductionHypothesis _ first.run
    · exact ⟨rfl, lawful.record runs (.sequenceLeft now)⟩

omit lawful in
omit [Arithmetic α] [Device α β] [Device α γ] in
theorem atOnce {perform : Command → Run α β → α × Run α β}
    {perform' : Command → Run α γ → α × Run α γ}
    (each : ∀ {command command' run run'}, pairing.command command command' →
      pairing.run run run' → pairing.Agree (perform command run) (perform' command' run'))
    {commands commands' : List Command}
    (words : List.Forall₂ pairing.command commands commands')
    {left : Run α β} {right : Run α γ} (runs : pairing.run left right) :
    pairing.run (Run.atOnce perform commands left) (Run.atOnce perform' commands' right) := by
  induction words generalizing left right with
  | nil => exact runs
  | cons command _ inductionHypothesis => exact inductionHypothesis (each command runs).run

omit lawful in
omit [Device α β] [Device α γ] in
theorem together {play : String → Run α β → α × Run α β} {play' : String → Run α γ → α × Run α γ}
    (each : ∀ name {run run'}, pairing.run run run' → pairing.Agree (play name run) (play' name run'))
    (names : List String) (longest : α) {left : Run α β} {right : Run α γ}
    (runs : pairing.run left right) :
    pairing.Agree (Run.together play names longest left) (Run.together play' names longest right) := by
  induction names generalizing longest left right with
  | nil => exact ⟨rfl, runs⟩
  | cons name rest inductionHypothesis =>
    have first := each name runs
    rw [Run.together, Run.together]
    dsimp only
    rw [← first.duration]
    exact inductionHypothesis _ first.run

theorem repeatedly {play : α → Run α β → α × Run α β} {play' : α → Run α γ → α × Run α γ}
    (each : ∀ {start start' run run'}, pairing.time start start' → pairing.run run run' →
      pairing.Agree (play start run) (play' start' run'))
    {start start' : α} (times : pairing.time start start') (left done : Nat) (total : α)
    {run : Run α β} {run' : Run α γ} (runs : pairing.run run run') :
    pairing.Agree (Run.repeatedly play start left done total run)
      (Run.repeatedly play' start' left done total run') := by
  induction left generalizing done total run run' with
  | zero => exact ⟨rfl, runs⟩
  | succ left inductionHypothesis =>
    rw [Run.repeatedly, Run.repeatedly, ← lawful.running runs]
    split
    · have turn := each (lawful.delay times total) runs
      dsimp only
      rw [← turn.duration]
      -- the turn is the last one for both, or for neither
      by_cases idle : (play (start + total) run).2.invocations = run.invocations
      · rw [if_pos idle, if_pos ((lawful.invocations runs turn.run).mp idle)]
        exact ⟨rfl, turn.run⟩
      · have busy := mt (lawful.invocations runs turn.run).mpr idle
        rw [if_neg idle, if_neg busy]
        exact inductionHypothesis _ _ turn.run
    · exact ⟨rfl, lawful.record runs (.loopLeft done)⟩

/-! ## Leaves -/

section Leaves

variable {offset offset' : α} (times : pairing.time offset offset') {mix mix' : Mix α}
  (mixes : pairing.sharesMix → mix = mix') {left : Run α β} {right : Run α γ}
  (runs : pairing.run left right)

include times runs

section Sounds

include mixes

theorem performSample (arguments : SampleArguments) :
    pairing.Agree (left.performSample settings arguments offset mix)
      (right.performSample settings arguments offset' mix') := by
  have heard := fun shared =>
    lawful.heard runs (mixes shared) arguments.volume arguments.pan
  refine ⟨rfl, lawful.dispatch runs (.of_heard ⟨?_, times, .instant⟩ heard) 0⟩
  dsimp only
  rw [lawful.resolve runs]

theorem performTone (arguments : ToneArguments) :
    pairing.Agree (left.performTone settings arguments offset mix)
      (right.performTone settings arguments offset' mix') := by
  obtain ⟨waveform, after⟩ := lawful.waveform runs arguments.waveform
  have duration := lawful.seconds runs arguments.beats
  have heard := fun shared =>
    lawful.heard after (mixes shared) arguments.volume arguments.pan
  rw [Run.performTone, Run.performTone]
  dsimp only
  rw [duration]
  refine ⟨rfl, lawful.dispatch after (.of_heard ⟨?_, times, .lasting _⟩ heard) _⟩
  dsimp only
  rw [lawful.pitch runs, waveform]

theorem performSlide (arguments : SlideArguments) :
    pairing.Agree (left.performSlide settings arguments offset mix)
      (right.performSlide settings arguments offset' mix') := by
  obtain ⟨waveform, after⟩ := lawful.waveform runs arguments.waveform
  have duration := lawful.seconds runs arguments.beats
  have heard := fun shared =>
    lawful.heard after (mixes shared) arguments.volume arguments.pan
  rw [Run.performSlide, Run.performSlide]
  dsimp only
  rw [duration]
  refine ⟨rfl, lawful.dispatch after
    (.of_heard ⟨?_, times, .upTo (lawful.delay times _)⟩ heard) _⟩
  dsimp only
  rw [lawful.pitch runs, lawful.pitch runs, waveform]

end Sounds

theorem changeTempo {command command' : Command} (same : pairing.command command command')
    (bpm : α) :
    pairing.run (left.changeTempo command.line bpm offset)
      (right.changeTempo command'.line bpm offset') := by
  rw [Run.changeTempo, Run.changeTempo]
  split
  · exact lawful.record (lawful.setTempo runs _) (.tempoChanged bpm times)
  · exact lawful.record runs (.invalidBpm bpm same)

end Leaves

theorem ignoreKeys {command command' : Command} (same : pairing.command command command')
    {left : Run α β} {right : Run α γ} (runs : pairing.run left right) :
    pairing.run (left.ignoreKeys command) (right.ignoreKeys command') := by
  rw [Run.ignoreKeys, Run.ignoreKeys, ← (lawful.alike same).ignoredKeys]
  induction command.ignoredKeys generalizing left right with
  | nil => exact runs
  | cons key rest inductionHypothesis =>
    exact inductionHypothesis (lawful.record runs (.ignoredParameter key same))

/-! ## Commands -/

section Invocation

variable {program program' : Program} (programs : program.Paired pairing.command program')
  {invocation : Run.Invocation α β} {invocation' : Run.Invocation α γ}
  (each : ∀ kind {definition definition' offset offset' mix mix' left right},
    definition.Paired pairing.command definition' → pairing.time offset offset' →
    (pairing.sharesMix → mix = mix') → pairing.run left right →
    pairing.Agree (invocation kind definition offset mix left)
      (invocation' kind definition' offset' mix' right))
  {offset offset' : α} (times : pairing.time offset offset') {mix mix' : Mix α}
  (mixes : pairing.sharesMix → mix = mix') {left : Run α β} {right : Run α γ}
  (runs : pairing.run left right)

include each times mixes runs programs

theorem playBlock (name : String) :
    pairing.Agree (Run.playBlock program invocation offset mix name left)
      (Run.playBlock program' invocation' offset' mix' name right) := by
  have found := programs.block? name
  rw [Run.playBlock, Run.playBlock]
  generalize program.block? name = one at found
  generalize program'.block? name = other at found
  cases found with
  | none => exact ⟨rfl, lawful.record runs (.blockNotFound name)⟩
  | some same => exact each .block same times mixes runs

theorem playTogether (names : List String) :
    pairing.Agree (Run.playTogether program invocation names offset mix left)
      (Run.playTogether program' invocation' names offset' mix' right) :=
  together (fun name _ _ runs => lawful.playBlock programs each times mixes runs name) names 0 runs

theorem playLoop (count : Value) (names : List String) :
    pairing.Agree (Run.playLoop program invocation count names offset mix left)
      (Run.playLoop program' invocation' count names offset' mix' right) := by
  have missing : ∀ name, (program.block? name).isNone = (program'.block? name).isNone :=
    fun name => isNone_eq_of_rel (programs.block? name)
  simp only [Run.playLoop, missing, lawful.iterations runs]
  split
  · exact lawful.repeatedly
      (fun times runs => lawful.playTogether programs each times mixes runs names) times _ 0 0 runs
  · exact ⟨rfl, lawful.record runs (.loopBlocksNotFound _)⟩

variable {command command' : Command} (same : pairing.command command command')

include same

theorem performAction :
    pairing.Agree (Run.performAction program settings invocation command offset mix left)
      (Run.performAction program' settings invocation' command' offset' mix' right) := by
  have resolve := lawful.resolve runs
  have nested := lawful.nest runs mixes
  rw [Run.performAction, Run.performAction, ← (lawful.alike same).action]
  cases action : command.action with
  | sample arguments =>
    -- the name is a custom sample in both programs, or a recorded sound in both
    have found := programs.customSample? arguments.name
    dsimp only
    generalize program.customSample? arguments.name = one at found
    generalize program'.customSample? arguments.name = other at found
    cases found with
    | none => exact lawful.performSample times mixes runs arguments
    | some same => exact each .customSample same times mixes runs
  | tone arguments => exact lawful.performTone times mixes runs arguments
  | slide arguments => exact lawful.performSlide times mixes runs arguments
  | wait beats => exact ⟨lawful.seconds runs beats, runs⟩
  | bpm value =>
    dsimp only
    rw [resolve]
    exact ⟨rfl, lawful.changeTempo times runs same _⟩
  | play names arguments =>
    exact lawful.playTogether programs each times (nested arguments) runs names
  | loop count names arguments =>
    exact lawful.playLoop programs each times (nested arguments) runs count names
  | set name value =>
    dsimp only
    rw [resolve]
    exact ⟨rfl, lawful.setVariable runs name _⟩
  | effect effect block =>
    dsimp only
    rw [resolve]
    exact ⟨rfl, lawful.recordEffect runs block _⟩
  | invalid fault => exact ⟨rfl, lawful.record runs (.faultyCommand same action)⟩
  | unknown => exact ⟨rfl, lawful.record runs (.unknownCommand same action)⟩

theorem performCommand :
    pairing.Agree (Run.performCommand program settings invocation command offset mix left)
      (Run.performCommand program' settings invocation' command' offset' mix' right) :=
  lawful.performAction programs each times mixes (lawful.ignoreKeys same runs) same

omit same in
theorem performBody (kind : Kind) {definition definition' : Definition}
    (same : definition.Paired pairing.command definition') :
    pairing.Agree (Run.performBody program settings invocation kind definition offset mix left)
      (Run.performBody program' settings invocation' kind definition' offset' mix' right) := by
  cases kind with
  | block =>
    rw [Run.performBody, Run.performBody, ← same.name]
    exact lawful.inSequence
      (fun same times runs => lawful.performCommand programs each times mixes runs same) times
      same.commands 0 (lawful.record runs (.blockEntered definition.name times))
  | customSample =>
    rw [Run.performBody, Run.performBody, ← same.name, ← same.commands.length_eq]
    exact ⟨rfl, atOnce
      (fun same runs => lawful.performCommand programs each times mixes runs same) same.commands
      (lawful.record runs (.customSampleEntered definition.name definition.commands.length times))⟩

end Invocation

section Programs

variable {program program' : Program} (programs : program.Paired pairing.command program')

include programs

theorem invoke (room : Nat) (kind : Kind) {definition definition' : Definition} {offset offset' : α}
    {mix mix' : Mix α} {left : Run α β} {right : Run α γ}
    (same : definition.Paired pairing.command definition') (times : pairing.time offset offset')
    (mixes : pairing.sharesMix → mix = mix') (runs : pairing.run left right) :
    pairing.Agree (Run.invoke program settings room kind definition offset mix left)
      (Run.invoke program' settings room kind definition' offset' mix' right) := by
  -- what a definition invokes has less room than itself
  induction room generalizing kind definition definition' offset offset' mix mix' left right with
  | zero =>
    rw [Run.invoke, Run.invoke, ← same.name, lawful.refusal? runs]
    split
    · exact ⟨rfl, lawful.refuse runs _⟩
    · exact ⟨rfl, runs⟩
  | succ room inductionHypothesis =>
    rw [Run.invoke, Run.invoke, ← same.name, lawful.refusal? runs]
    split
    · exact ⟨rfl, lawful.refuse runs _⟩
    · have entered := lawful.enter runs kind definition.name
      have body := lawful.performBody programs inductionHypothesis times mixes entered kind same
      exact ⟨body.duration, lawful.leave body.run⟩

/-- Two runs that are paired once the headers are recorded are paired in the end. -/
theorem performEntry (start : pairing.time 0 0)
    (idle : ∀ {left right}, pairing.run left right →
      pairing.run (left.record .nothingToPlay) (right.record .nothingToPlay))
    {left : Run α β} {right : Run α γ} (runs : pairing.run left right) :
    pairing.Agree (Run.performEntry program settings left)
      (Run.performEntry program' settings right) := by
  have each := lawful.invoke programs (Run.room program)
  have empty : program.globals.isEmpty = program'.globals.isEmpty := by
    rw [Bool.eq_iff_iff, List.isEmpty_iff_length_eq_zero, List.isEmpty_iff_length_eq_zero,
      programs.globals.length_eq]
  have entry :
      (program.block? Run.entryBlock).isSome = (program'.block? Run.entryBlock).isSome :=
    isSome_eq_of_rel (programs.block? Run.entryBlock)
  rw [Run.performEntry, Run.performEntry, ← programs.room, ← empty, ← entry]
  split
  · exact lawful.inSequence
      (fun same times runs => lawful.performCommand programs each times (fun _ => rfl) runs same)
      start programs.globals 0 runs
  · split
    · exact lawful.playTogether programs each start (fun _ => rfl) runs [Run.entryBlock]
    · exact ⟨rfl, idle runs⟩

end Programs

end Lawful

end Pairing

end Sequencer
