import Sequencer.Proofs.Program.Reachable
import Sequencer.Proofs.Run.Coupled
import Sequencer.Proofs.Run.Refusals

/-! # Two machines side by side

Two machines perform two programs step by step, on devices of any two kinds and under any two
settings. A correspondence says which commands, times, durations and runs go together, and how far
the two are followed. Where it is lawful, machines that match go on to machines that match, and come
to ends that agree: `Lawful.reaches`. Nothing is asked about room or about turns that enter nothing,
which a machine knows nothing of.
-/

namespace Sequencer

variable {α β γ : Type}

/-! ## Requests -/

/-- Extents that last for corresponding durations, or up to corresponding times. -/
inductive Extent.Matches (time duration : α → α → Prop) : Extent α → Extent α → Prop
  | instant : Matches time duration .instant .instant
  | lasting {length length'} : duration length length' →
      Matches time duration (.lasting length) (.lasting length')
  | upTo {finish finish'} : time finish finish' →
      Matches time duration (.upTo finish) (.upTo finish')

/-- The same sound, as loud and from the same side, at corresponding times. -/
structure Request.Matches (time duration : α → α → Prop) (request request' : Request α) : Prop where
  trigger : request.trigger = request'.trigger
  start : time request.start request'.start
  extent : Extent.Matches time duration request.extent request'.extent
  volume : request.volume = request'.volume
  pan : request.pan = request'.pan

/-- At the same times it is the same request. -/
theorem Request.Matches.eq {request request' : Request α}
    (matching : Request.Matches Eq Eq request request') : request = request' := by
  obtain ⟨trigger, start, extent, volume, pan⟩ := request
  obtain ⟨trigger', start', extent', volume', pan'⟩ := request'
  obtain ⟨rfl, rfl, extents, rfl, rfl⟩ := matching
  cases extents with
  | instant => rfl
  | lasting same | upTo same =>
    obtain rfl := same
    rfl

theorem Entry.Echo.call?_eq_none {later : α → α → Prop} {entry entry' : Entry α}
    (echo : Entry.Echo later entry entry') (plain : entry.call? = none) : entry'.call? = none := by
  cases echo <;> first | rfl | cases plain

theorem Entry.Echo.eq_of_plain {entry entry' : Entry α} (echo : Entry.Echo Eq entry entry')
    (plain : entry.call? = none) : entry = entry' := by
  cases echo with
  | dispatched => cases plain
  | warned | loopLeft | effectRecorded => rfl
  | sequenceLeft same | tempoChanged _ same | blockEntered _ same | customSampleEntered _ _ same =>
    obtain rfl := same
    rfl

/-! ## Commands -/

/-- What goes by a name corresponds to itself where its commands do. -/
theorem Definition.paired_find?_self {command : Command → Command → Prop}
    {definitions : List Definition} {name : String}
    (each : ∀ definition, Definitions.find? definitions name = some definition →
      ∀ own ∈ definition.commands, command own own) :
    Option.Rel (Definition.Paired command) (Definitions.find? definitions name)
      (Definitions.find? definitions name) := by
  cases found : Definitions.find? definitions name with
  | none => exact .none
  | some definition => exact .some ⟨rfl, List.forall₂_same.mpr (each definition found)⟩

/-- The same command, or two effects on the same line. -/
inductive Command.Retouched : Command → Command → Prop
  | same (command) : Retouched command command
  | effect {left right effect effect' block block'} : left.line = right.line →
      left.action = .effect effect block → right.action = .effect effect' block' →
      Retouched left right

/-- No other verb makes an effect. -/
theorem Action.verb_of_effect {arguments : Arguments} {verb : Verb} {effect : Effect Value}
    {block : String} (made : Action.ofArguments arguments verb = .effect effect block) :
    verb = .effect := by
  cases verb with
  | effect => rfl
  | sample | tone | slide | play | loop | set =>
    simp only [ofArguments, ofSample, ofTone, ofSlide, ofPlay, ofLoop, ofSet] at made
    split at made <;> cases made
  | wait | bpm =>
    rw [ofArguments] at made
    cases first : arguments.value? [] 0 <;> simp [first] at made

/-- An effect takes every key as a parameter. -/
theorem Command.ignoredKeys_of_effect {command : Command} {effect : Effect Value} {block : String}
    (action : command.action = .effect effect block) : command.ignoredKeys = [] := by
  rw [command.action_eq, Action.ofWords] at action
  rw [command.ignoredKeys_eq, Action.ignoredKeys]
  split at action
  · next verb found =>
    obtain rfl := Action.verb_of_effect action
    exact List.filter_eq_nil_iff.mpr fun key _ => by simp [Verb.understands]
  · cases action

/-! ## Correspondences -/

/-- What corresponds to what in two machines side by side. -/
structure Correspondence (α β γ : Type) where
  command : Command → Command → Prop
  /-- The definitions that can be come to, by kind and name. -/
  within : Kind × String → Prop
  time : α → α → Prop
  duration : α → α → Prop
  run : Run α β → Run α γ → Prop
  /-- How far the one machine is followed, and how far the other. -/
  live : Run α β → Prop
  live' : Run α γ → Prop
  /-- The reasons for which the one machine may refuse a definition. -/
  meets : Refusal → Prop

namespace Correspondence

/-- Corresponding durations, and runs that correspond. -/
structure Agree (own : Correspondence α β γ) (result : α × Run α β) (result' : α × Run α γ) :
    Prop where
  duration : own.duration result.1 result'.1
  run : own.run result.2 result'.2

inductive MatchesTask (own : Correspondence α β γ) : Task α → Task α → Prop
  | command {command command' offset offset'} (mix) : own.command command command' →
      own.time offset offset' →
      MatchesTask own (.command command offset mix) (.command command' offset' mix)
  | sequence {commands commands' start start' elapsed elapsed'} (mix) :
      List.Forall₂ own.command commands commands' → own.time start start' →
      own.duration elapsed elapsed' →
      MatchesTask own (.sequence commands start mix elapsed) (.sequence commands' start' mix elapsed')
  | atOnce {commands commands' offset offset'} (mix) :
      List.Forall₂ own.command commands commands' → own.time offset offset' →
      MatchesTask own (.atOnce commands offset mix) (.atOnce commands' offset' mix)
  | block {name offset offset'} (mix) : own.within (.block, name) → own.time offset offset' →
      MatchesTask own (.block name offset mix) (.block name offset' mix)
  | together {names offset offset' longest longest'} (mix) :
      (∀ name ∈ names, own.within (.block, name)) → own.time offset offset' →
      own.duration longest longest' →
      MatchesTask own (.together names offset mix longest) (.together names offset' mix longest')
  | loop {names start start' total total'} (mix left done) :
      (∀ name ∈ names, own.within (.block, name)) → own.time start start' →
      own.duration total total' →
      MatchesTask own (.loop names start mix left done total) (.loop names start' mix left done total')
  | invoke {definition definition' offset offset'} (kind mix) :
      Definition.Paired own.command definition definition' → own.time offset offset' →
      MatchesTask own (.invoke kind definition offset mix) (.invoke kind definition' offset' mix)
  | done {duration duration'} : own.duration duration duration' →
      MatchesTask own (.done duration) (.done duration')

inductive MatchesFrame (own : Correspondence α β γ) : Frame α → Frame α → Prop
  | sequence {rest rest' start start' elapsed elapsed'} (mix) :
      List.Forall₂ own.command rest rest' → own.time start start' → own.duration elapsed elapsed' →
      MatchesFrame own (.sequence rest start mix elapsed) (.sequence rest' start' mix elapsed')
  | atOnce {rest rest' offset offset'} (mix) :
      List.Forall₂ own.command rest rest' → own.time offset offset' →
      MatchesFrame own (.atOnce rest offset mix) (.atOnce rest' offset' mix)
  | together {rest offset offset' longest longest'} (mix) :
      (∀ name ∈ rest, own.within (.block, name)) → own.time offset offset' →
      own.duration longest longest' →
      MatchesFrame own (.together rest offset mix longest) (.together rest offset' mix longest')
  | loop {names start start' total total'} (mix left done) :
      (∀ name ∈ names, own.within (.block, name)) → own.time start start' →
      own.duration total total' →
      MatchesFrame own (.loop names start mix left done total)
        (.loop names start' mix left done total')
  | leave : MatchesFrame own .leave .leave

/-- Machines with matching tasks and frames, on runs that correspond. -/
structure Matches (own : Correspondence α β γ) (machine : Machine α β) (machine' : Machine α γ) :
    Prop where
  task : own.MatchesTask machine.task machine'.task
  frames : List.Forall₂ own.MatchesFrame machine.frames machine'.frames
  run : own.run machine.run machine'.run

theorem Matches.finish {own : Correspondence α β γ} {result : α × Run α β} {result' : α × Run α γ}
    (agree : own.Agree result result') {frames frames' : List (Frame α)}
    (waits : List.Forall₂ own.MatchesFrame frames frames') :
    own.Matches (Machine.finish frames result) (Machine.finish frames' result') :=
  ⟨.done agree.duration, waits, agree.run⟩

theorem echo_entered {own : Correspondence α β γ} {definition definition' : Definition}
    (paired : Definition.Paired own.command definition definition') {offset offset' : α}
    (times : own.time offset offset') (kind : Kind) :
    Entry.Echo own.time (Machine.entered kind definition offset)
      (Machine.entered kind definition' offset') := by
  cases kind with
  | block =>
    rw [Machine.entered, Machine.entered, paired.name]
    exact .blockEntered _ times
  | customSample =>
    rw [Machine.entered, Machine.entered, paired.name, paired.commands.length_eq]
    exact .customSampleEntered _ _ times

/-- A moment up to which the one machine is followed. -/
structure Admits (own : Correspondence α β γ) (settings : Settings) (moment : Machine α β) :
    Prop where
  live : own.live moment.run
  meets : ∀ refusal, moment.Refuses settings refusal → own.meets refusal

variable [Arithmetic α] [Device α β] [Device α γ]

/-- The pairs of single changes that two machines side by side make. -/
structure Lawful (program program' : Program) (settings settings' : Settings)
    (own : Correspondence α β γ) : Prop where
  retouched : ∀ {command command'}, own.command command command' → command.Retouched command'
  names : ∀ {command command'}, own.command command command' →
    ∀ key ∈ command.action.names, own.within key
  definition : ∀ {kind name}, own.within (kind, name) →
    Option.Rel (Definition.Paired own.command) (Definitions.find? (program.definitions kind) name)
      (Definitions.find? (program'.definitions kind) name)
  defaultVolume : settings.defaultVolume = settings'.defaultVolume
  defaultWaveform : settings.defaultWaveform = settings'.defaultWaveform
  zero : own.duration 0 0
  add : ∀ {first first' second second'}, own.duration first first' →
    own.duration second second' → own.duration (first + second) (first' + second')
  larger : ∀ {first first' second second'}, own.duration first first' →
    own.duration second second' →
    own.duration (Arithmetic.larger first second) (Arithmetic.larger first' second')
  later : ∀ {time time' duration duration'}, own.time time time' → own.duration duration duration' →
    own.time (time + duration) (time' + duration')
  running : ∀ {left right}, own.run left right → left.running = right.running
  bindings : ∀ {left right}, own.run left right → left.state.bindings = right.state.bindings
  seconds : ∀ {left right}, own.run left right → ∀ beats,
    own.duration (left.seconds beats) (right.seconds beats)
  frequency : ∀ {left right}, own.run left right → ∀ name,
    Device.frequency left.device name = Device.frequency right.device name
  record : ∀ {left right entry entry'}, own.run left right → Entry.Echo own.time entry entry' →
    entry.call? = none → own.run (left.record entry) (right.record entry')
  dispatch : ∀ {left right request request' duration duration'}, own.run left right →
    Request.Matches own.time own.duration request request' → own.duration duration duration' →
    own.live (left.dispatch request duration) → own.live' (right.dispatch request' duration') →
    own.run (left.dispatch request duration) (right.dispatch request' duration')
  setTempo : ∀ {left right command command' value}, own.run left right →
    own.command command command' → command.action = .bpm value → ∀ tempo,
    own.run (left.setTempo tempo) (right.setTempo tempo)
  setVariable : ∀ {left right command command' name value}, own.run left right →
    own.command command command' → command.action = .set name value → ∀ number,
    own.run (left.setVariable name number) (right.setVariable name number)
  recordEffect : ∀ {left right command command' effect effect' block block'}, own.run left right →
    own.command command command' → command.action = .effect effect block →
    command'.action = .effect effect' block' →
    own.run (left.recordEffect block (effect.map left.resolve))
      (right.recordEffect block' (effect'.map right.resolve))
  refuse : ∀ {left right kind name refusal}, own.run left right →
    left.refusal? settings kind name = some refusal → own.meets refusal →
    ∃ refusal', right.refusal? settings' kind name = some refusal' ∧
      own.run (left.refuse settings { kind, name, refusal })
        (right.refuse settings' { kind, name, refusal := refusal' })
  enter : ∀ {left right kind name entry}, own.run left right →
    left.refusal? settings kind name = none → own.live ((left.enter kind name).record entry) →
    right.refusal? settings' kind name = none ∧ own.run (left.enter kind name) (right.enter kind name)
  leave : ∀ {left right}, own.run left right → own.run left.leave right.leave

namespace Lawful

variable {program program' : Program} {settings settings' : Settings} {own : Correspondence α β γ}
  (lawful : own.Lawful program program' settings settings')

include lawful

/-! ## Values -/

section Values

variable {left : Run α β} {right : Run α γ} (runs : own.run left right)

include runs

theorem warn (warning : Warning α) : own.run (left.warn warning) (right.warn warning) :=
  lawful.record runs (.warned warning) rfl

theorem resolve : left.resolve = right.resolve := by
  funext value
  rw [Run.resolve, Run.resolve, lawful.bindings runs]

theorem pitch (value : Value) : left.pitch value = right.pitch value := by
  cases value with
  | number value token => exact congrFun (lawful.resolve runs) _
  | named name => rw [Run.pitch, Run.pitch, lawful.bindings runs, lawful.frequency runs]

theorem iterations (count : Value) : left.iterations count = right.iterations count := by
  rw [Run.iterations, Run.iterations, lawful.resolve runs]

theorem waveform (name : Option String) :
    (left.waveform settings name).1 = (right.waveform settings' name).1 ∧
      own.run (left.waveform settings name).2 (right.waveform settings' name).2 := by
  have same := lawful.defaultWaveform
  cases name with
  | none => exact ⟨same, runs⟩
  | some name =>
    rw [Run.waveform, Run.waveform, ← same]
    split
    · exact ⟨rfl, runs⟩
    · exact ⟨rfl, lawful.warn runs _⟩

theorem heard (mix : Mix α) (volume pan : Option Value) :
    left.heard settings mix volume pan = right.heard settings' mix volume pan := by
  rw [Run.heard, Run.heard, lawful.bindings runs, lawful.defaultVolume]

theorem ignoreKeys {command command' : Command} (words : own.command command command') :
    own.run (left.ignoreKeys command) (right.ignoreKeys command') := by
  rw [Run.ignoreKeys, Run.ignoreKeys]
  cases lawful.retouched words with
  | same => exact List.foldl_rel runs fun key _ _ _ before => lawful.warn before _
  | effect _ action action' =>
    rw [Command.ignoredKeys_of_effect action, Command.ignoredKeys_of_effect action']
    exact runs

end Values

/-! ## Leaves -/

section Leaves

variable {left : Run α β} {right : Run α γ} (runs : own.run left right) {offset offset' : α}
  (times : own.time offset offset') (mix : Mix α)

include runs times

theorem performSample (arguments : SampleArguments)
    (live : own.live (left.performSample settings arguments offset mix).2)
    (live' : own.live' (right.performSample settings' arguments offset' mix).2) :
    own.Agree (left.performSample settings arguments offset mix)
      (right.performSample settings' arguments offset' mix) := by
  have resolve := lawful.resolve runs
  have heard := lawful.heard runs mix arguments.volume arguments.pan
  refine ⟨lawful.zero, lawful.dispatch runs ?_ lawful.zero live live'⟩
  exact
    { trigger := congrArg₂ (Trigger.sample arguments.name) (congrFun resolve _) (congrFun resolve _)
      start := times
      extent := .instant
      volume := congrArg Prod.fst heard
      pan := congrArg Prod.snd heard }

theorem performTone (arguments : ToneArguments)
    (live : own.live (left.performTone settings arguments offset mix).2)
    (live' : own.live' (right.performTone settings' arguments offset' mix).2) :
    own.Agree (left.performTone settings arguments offset mix)
      (right.performTone settings' arguments offset' mix) := by
  obtain ⟨waveform, after⟩ := lawful.waveform runs arguments.waveform
  have heard := lawful.heard after mix arguments.volume arguments.pan
  have duration := lawful.seconds runs arguments.beats
  refine ⟨duration, lawful.dispatch after ?_ duration live live'⟩
  exact
    { trigger := congrArg₂ Trigger.tone (lawful.pitch runs arguments.pitch) waveform
      start := times
      extent := .lasting duration
      volume := congrArg Prod.fst heard
      pan := congrArg Prod.snd heard }

theorem performSlide (arguments : SlideArguments)
    (live : own.live (left.performSlide settings arguments offset mix).2)
    (live' : own.live' (right.performSlide settings' arguments offset' mix).2) :
    own.Agree (left.performSlide settings arguments offset mix)
      (right.performSlide settings' arguments offset' mix) := by
  obtain ⟨waveform, after⟩ := lawful.waveform runs arguments.waveform
  have heard := lawful.heard after mix arguments.volume arguments.pan
  have duration := lawful.seconds runs arguments.beats
  have trigger : Trigger.slide (left.pitch arguments.source) (left.pitch arguments.target)
      (left.waveform settings arguments.waveform).1 =
      Trigger.slide (right.pitch arguments.source) (right.pitch arguments.target)
        (right.waveform settings' arguments.waveform).1 := by
    rw [lawful.pitch runs, lawful.pitch runs, waveform]
  refine ⟨duration, lawful.dispatch after ?_ duration live live'⟩
  exact
    { trigger
      start := times
      extent := .upTo (lawful.later times duration)
      volume := congrArg Prod.fst heard
      pan := congrArg Prod.snd heard }

omit times in
theorem changeTempo {command command' : Command} {value : Value}
    (words : own.command command command') (action : command.action = .bpm value) (line : Nat)
    (bpm : α) (times : own.time offset offset') :
    own.run (left.changeTempo line bpm offset) (right.changeTempo line bpm offset') := by
  rw [Run.changeTempo, Run.changeTempo]
  split
  · exact lawful.record (lawful.setTempo runs words action _) (.tempoChanged bpm times) rfl
  · exact lawful.warn runs _

end Leaves

/-! ## Steps -/

/-- Both lookups find something, or neither does. -/
theorem isNone_block? {name : String} (within : own.within (.block, name)) :
    (program.block? name).isNone = (program'.block? name).isNone :=
  isNone_eq_of_rel (lawful.definition within)

/-- Each first step of an action. -/
theorem act {left : Run α β} {right : Run α γ} (runs : own.run left right)
    {command command' : Command} (words : own.command command command') {offset offset' : α}
    (times : own.time offset offset') (mix : Mix α) {frames frames' : List (Frame α)}
    (waits : List.Forall₂ own.MatchesFrame frames frames')
    (live : own.live (Machine.act program settings command offset mix frames left).run)
    (live' : own.live' (Machine.act program' settings' command' offset' mix frames' right).run) :
    own.Matches (Machine.act program settings command offset mix frames left)
      (Machine.act program' settings' command' offset' mix frames' right) := by
  have within := lawful.names words
  rw [Machine.act] at live live'
  rw [Machine.act, Machine.act]
  cases lawful.retouched words with
  | effect _ action action' =>
    rw [action, action']
    exact .finish ⟨lawful.zero, lawful.recordEffect runs words action action'⟩ waits
  | same =>
    cases action : command.action with
    | sample arguments =>
      rw [action] at live live' within
      have found : Option.Rel (Definition.Paired own.command) (program.customSample? arguments.name)
          (program'.customSample? arguments.name) :=
        lawful.definition (within _ List.mem_cons_self)
      dsimp only at live live' ⊢
      generalize program.customSample? arguments.name = sample? at found live ⊢
      generalize program'.customSample? arguments.name = sample?' at found live' ⊢
      cases found with
      | none => exact .finish (lawful.performSample runs times mix arguments live live') waits
      | some paired => exact ⟨.invoke _ _ paired times, waits, runs⟩
    | tone arguments =>
      rw [action] at live live'
      exact .finish (lawful.performTone runs times mix arguments live live') waits
    | slide arguments =>
      rw [action] at live live'
      exact .finish (lawful.performSlide runs times mix arguments live live') waits
    | wait beats => exact .finish ⟨lawful.seconds runs beats, runs⟩ waits
    | bpm value =>
      dsimp only
      rw [lawful.resolve runs]
      exact .finish ⟨lawful.zero, lawful.changeTempo runs words action _ _ times⟩ waits
    | play names arguments =>
      rw [action] at within
      dsimp only
      rw [lawful.bindings runs]
      refine ⟨.together _ (fun name member => within _ ?_) times lawful.zero, waits, runs⟩
      exact List.mem_map_of_mem member
    | loop count names arguments =>
      rw [action] at within
      have within : ∀ name ∈ names, own.within (.block, name) :=
        fun name member => within _ (List.mem_map_of_mem member)
      have missing : (names.filter fun name => (program.block? name).isNone) =
          names.filter fun name => (program'.block? name).isNone :=
        List.filter_congr fun name member => lawful.isNone_block? (within name member)
      dsimp only
      rw [missing, lawful.bindings runs, lawful.iterations runs]
      split
      · exact ⟨.loop _ _ _ within times lawful.zero, waits, runs⟩
      · exact .finish ⟨lawful.zero, lawful.warn runs _⟩ waits
    | set name value =>
      dsimp only
      rw [lawful.resolve runs]
      exact .finish ⟨lawful.zero, lawful.setVariable runs words action _⟩ waits
    | effect effect block =>
      exact .finish ⟨lawful.zero, lawful.recordEffect runs words action action⟩ waits
    | invalid | unknown => exact .finish ⟨lawful.zero, lawful.warn runs _⟩ waits

theorem matchesTask_body {definition definition' : Definition}
    (paired : Definition.Paired own.command definition definition') {offset offset' : α}
    (times : own.time offset offset') (kind : Kind) (mix : Mix α) :
    own.MatchesTask (Machine.body kind definition offset mix)
      (Machine.body kind definition' offset' mix) := by
  cases kind with
  | block => exact .sequence mix paired.commands times lawful.zero
  | customSample => exact .atOnce mix paired.commands times

/-- Whatever step the one machine makes, the other makes one that it matches. -/
theorem step {before after : Machine α β} {before' : Machine α γ}
    (matching : own.Matches before before') (steps : Machine.Steps program settings before after)
    (admits : own.Admits settings before) (live : own.live after.run) :
    ∃ after', Machine.Steps program' settings' before' after' ∧
      (own.live' after'.run → own.Matches after after') := by
  obtain ⟨task', frames', run'⟩ := before'
  obtain ⟨tasks, waits, runs⟩ := matching
  cases steps.move with
  | command command offset mix frames run =>
    cases tasks with
    | command mix words times =>
      exact ⟨_, (Machine.Move.command _ _ mix frames' run').steps,
        lawful.act (lawful.ignoreKeys runs words) words times mix waits live⟩
  | sequenceEnd start mix elapsed frames run =>
    cases tasks with
    | sequence mix commands times elapsed =>
      cases commands with
      | nil =>
        exact ⟨_, (Machine.Move.sequenceEnd _ mix _ frames' run').steps,
          fun _ => .finish ⟨elapsed, runs⟩ waits⟩
  | sequenceNext command rest start mix elapsed frames running =>
    rw [lawful.running runs] at running
    cases tasks with
    | sequence mix commands times elapsed =>
      cases commands with
      | cons words rest =>
        exact ⟨_, (Machine.Move.sequenceNext _ _ _ mix _ frames' running).steps,
          fun _ => ⟨.command mix words (lawful.later times elapsed),
            .cons (.sequence mix rest times elapsed) waits, runs⟩⟩
  | sequenceLeft command rest start mix elapsed frames stopped =>
    rw [lawful.running runs] at stopped
    cases tasks with
    | sequence mix commands times elapsed =>
      cases commands with
      | cons words rest =>
        have left := Entry.Echo.sequenceLeft (lawful.later times elapsed)
        exact ⟨_, (Machine.Move.sequenceLeft _ _ _ mix _ frames' stopped).steps,
          fun _ => .finish ⟨elapsed, lawful.record runs left rfl⟩ waits⟩
  | atOnceEnd offset mix frames run =>
    cases tasks with
    | atOnce mix commands times =>
      cases commands with
      | nil =>
        exact ⟨_, (Machine.Move.atOnceEnd _ mix frames' run').steps,
          fun _ => .finish ⟨lawful.zero, runs⟩ waits⟩
  | atOnceNext command rest offset mix frames run =>
    cases tasks with
    | atOnce mix commands times =>
      cases commands with
      | cons words rest =>
        exact ⟨_, (Machine.Move.atOnceNext _ _ _ mix frames' run').steps,
          fun _ => ⟨.command mix words times, .cons (.atOnce mix rest times) waits, runs⟩⟩
  | @blockFound name block offset mix frames run found =>
    cases tasks with
    | block mix within times =>
      have paired : Option.Rel (Definition.Paired own.command) (program.block? name)
          (program'.block? name) := lawful.definition within
      rw [found] at paired
      generalize found' : program'.block? name = block?' at paired
      cases paired with
      | some paired =>
        exact ⟨_, (Machine.Move.blockFound _ mix frames' run' found').steps,
          fun _ => ⟨.invoke .block mix paired times, waits, runs⟩⟩
  | @blockMissing name offset mix frames run missing =>
    cases tasks with
    | block mix within times =>
      have missing' : program'.block? name = none := by
        rw [← Option.isNone_iff_eq_none, ← lawful.isNone_block? within, missing]
        rfl
      exact ⟨_, (Machine.Move.blockMissing _ mix frames' run' missing').steps,
        fun _ => .finish ⟨lawful.zero, lawful.warn runs _⟩ waits⟩
  | togetherEnd offset mix longest frames run =>
    cases tasks with
    | together mix within times longest =>
      exact ⟨_, (Machine.Move.togetherEnd _ mix _ frames' run').steps,
        fun _ => .finish ⟨longest, runs⟩ waits⟩
  | togetherNext name rest offset mix longest frames run =>
    cases tasks with
    | together mix within times longest =>
      obtain ⟨first, rest⟩ := List.forall_mem_cons.mp within
      exact ⟨_, (Machine.Move.togetherNext name _ _ mix _ frames' run').steps,
        fun _ => ⟨.block mix first times, .cons (.together mix rest times longest) waits, runs⟩⟩
  | loopEnd names start mix done total frames run =>
    cases tasks with
    | loop mix left done within times total =>
      exact ⟨_, (Machine.Move.loopEnd names _ mix done _ frames' run').steps,
        fun _ => .finish ⟨total, runs⟩ waits⟩
  | loopNext names start mix left done total frames running =>
    rw [lawful.running runs] at running
    cases tasks with
    | loop mix left done within times total =>
      exact ⟨_, (Machine.Move.loopNext names _ mix _ done _ frames' running).steps,
        fun _ => ⟨.together mix within (lawful.later times total) lawful.zero,
          .cons (.loop mix _ done within times total) waits, runs⟩⟩
  | loopLeft names start mix left done total frames stopped =>
    rw [lawful.running runs] at stopped
    cases tasks with
    | loop mix left done within times total =>
      exact ⟨_, (Machine.Move.loopLeft names _ mix _ done _ frames' stopped).steps,
        fun _ => .finish ⟨total, lawful.record runs (.loopLeft done) rfl⟩ waits⟩
  | @refused kind definition refusal offset mix frames run given =>
    cases tasks with
    | invoke kind mix paired times =>
      have met := admits.meets refusal ⟨kind, definition, offset, mix, rfl, given⟩
      obtain ⟨refusal', given', after⟩ := lawful.refuse runs given met
      rw [paired.name] at given' after
      exact ⟨_, (Machine.Move.refused _ mix frames' given').steps,
        fun _ => .finish ⟨lawful.zero, by rwa [paired.name]⟩ waits⟩
  | @entered kind definition offset mix frames run enters =>
    cases tasks with
    | @invoke _ definition' _ offset' _ _ paired times =>
      obtain ⟨enters', after⟩ := lawful.enter runs enters live
      rw [paired.name] at enters' after
      have plain : (Machine.entered kind definition offset).call? = none := by cases kind <;> rfl
      exact ⟨_, (Machine.Move.entered offset' mix frames' enters').steps,
        fun _ => ⟨lawful.matchesTask_body paired times kind mix, .cons .leave waits,
          lawful.record (paired.name ▸ after) (echo_entered paired times kind) plain⟩⟩
  | resumed duration frame frames run =>
    cases tasks with
    | done durations =>
      cases waits with
      | @cons _ frame' _ frames' waiting waits =>
        refine ⟨_, (Machine.Move.resumed _ frame' frames' run').steps, fun _ => ?_⟩
        cases waiting with
        | sequence mix rest times elapsed =>
          exact ⟨.sequence mix rest times (lawful.add elapsed durations), waits, runs⟩
        | atOnce mix rest times => exact ⟨.atOnce mix rest times, waits, runs⟩
        | together mix within times longest =>
          exact ⟨.together mix within times (lawful.larger longest durations), waits, runs⟩
        | loop mix left done within times total =>
          exact ⟨.loop mix left _ within times (lawful.add total durations), waits, runs⟩
        | leave => exact ⟨.done durations, waits, lawful.leave runs⟩

/-- Machines that match come to ends that agree, if both come to an end and are followed up to it. -/
theorem reaches {first : Machine α β} {first' : Machine α γ} (matching : own.Matches first first')
    {result : α × Run α β} {result' : α × Run α γ}
    (ends : Machine.Reaches program settings first (Machine.finish [] result))
    (ends' : Machine.Reaches program' settings' first' (Machine.finish [] result'))
    (admits : ∀ moment, Machine.Reaches program settings first moment → own.Admits settings moment)
    (live' : ∀ moment, Machine.Reaches program' settings' first' moment → own.live' moment.run) :
    own.Agree result result' := by
  induction ends using Relation.ReflTransGen.head_induction_on generalizing first' with
  | refl =>
    obtain ⟨task', frames', run'⟩ := first'
    obtain ⟨tasks, waits, runs⟩ := matching
    cases tasks with
    | done durations =>
      cases waits with
      | nil =>
        -- the other machine has come to its end as well
        rcases Relation.ReflTransGen.cases_head ends' with same | ⟨next, steps, -⟩
        · injection same with sameTask _ sameRun
          obtain rfl := Task.done.inj sameTask
          exact ⟨durations, sameRun ▸ runs⟩
        · cases steps
  | head steps rest inductionHypothesis =>
    have next := steps.reaches
    obtain ⟨next', steps', matches'⟩ := lawful.step matching steps (admits _ .refl)
      (admits _ next).live
    have alongside := matches' (live' _ steps'.reaches)
    exact inductionHypothesis alongside (ends'.of_last rfl steps'.reaches)
      (fun moment later => admits moment (next.trans later))
      (fun moment later => live' moment (steps'.reaches.trans later))

/-- Machines that start with corresponding runs match. -/
theorem start {left : Run α β} {right : Run α γ}
    (globals : List.Forall₂ own.command program.globals program'.globals)
    (entry : program.globals = [] → own.within (.block, Run.entryBlock)) (atZero : own.time 0 0)
    (runs : own.run (left.recordHeaders program) (right.recordHeaders program'))
    (idle : own.run ((left.recordHeaders program).record .nothingToPlay)
      ((right.recordHeaders program').record .nothingToPlay)) :
    own.Matches (Machine.start program left) (Machine.start program' right) := by
  have empty : program.globals.isEmpty = program'.globals.isEmpty := by
    rw [Bool.eq_iff_iff, List.isEmpty_iff_length_eq_zero, List.isEmpty_iff_length_eq_zero,
      globals.length_eq]
  rw [Machine.start, Machine.start, ← empty]
  split
  · exact ⟨.sequence _ globals atZero lawful.zero, .nil, runs⟩
  · next none =>
    have within : own.within (.block, Run.entryBlock) := entry (by simpa using none)
    have found : (program.block? Run.entryBlock).isSome = (program'.block? Run.entryBlock).isSome :=
      isSome_eq_of_rel (lawful.definition within)
    rw [← found]
    split
    · refine ⟨.together _ (fun name member => ?_) atZero lawful.zero, .nil, runs⟩
      obtain rfl := List.mem_singleton.mp member
      exact within
    · exact .finish ⟨lawful.zero, idle⟩ .nil

end Lawful

end Correspondence

end Sequencer
