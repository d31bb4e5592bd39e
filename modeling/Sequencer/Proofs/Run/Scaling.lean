import Sequencer.Proofs.Device.Steady
import Sequencer.Proofs.Run.Correspondence

/-! # Runs in another tempo

A program that never changes the tempo, in two tempos. Only the lengths of beats tell the two runs
apart, so that whatever times correspond to each other by what they are made of, beats, sums and the
larger of two, correspond to each other in the two runs.
-/

namespace Sequencer

variable {α β : Type}

/-- Whether an action asks for another tempo. -/
def Action.retimes : Action → Bool
  | .bpm _ => true
  | _ => false

def Program.KeepsTempo (program : Program) : Prop :=
  ∀ command ∈ program.commands, command.action.retimes = false

/-- A way for times in two tempos to correspond. -/
structure Tempo.Scales [Arithmetic α] (time : α → α → Prop) (tempo tempo' : Tempo α) : Prop where
  zero : time 0 0
  add : ∀ {first first' second second'}, time first first' → time second second' →
    time (first + second) (first' + second')
  larger : ∀ {first first' second second'}, time first first' → time second second' →
    time (Arithmetic.larger first second) (Arithmetic.larger first' second')
  seconds : ∀ beats, time (tempo.seconds beats) (tempo'.seconds beats)

/-- What need not correspond in any way does so in any two tempos. -/
theorem Tempo.scales_anyTime [Arithmetic α] (tempo tempo' : Tempo α) :
    Tempo.Scales anyTime tempo tempo' :=
  ⟨trivial, fun _ _ => trivial, fun _ _ => trivial, fun _ => trivial⟩

/-! ## Entries -/

/-- Entries about the same things, at corresponding times and for corresponding durations. -/
inductive Entry.Matches (time : α → α → Prop) : Entry α → Entry α → Prop
  | started (globals blocks customSamples) :
      Matches time (.started globals blocks customSamples) (.started globals blocks customSamples)
  | nothingToPlay : Matches time .nothingToPlay .nothingToPlay
  | plain {entry entry'} : Entry.Echo time entry entry' → entry.call? = none →
      Matches time entry entry'
  | dispatched {request request' duration duration'} (handle handle') :
      Request.Matches time time request request' → time duration duration' →
      Matches time (.dispatched request duration handle) (.dispatched request' duration' handle')
  | effectRecorded (block effect) :
      Matches time (.effectRecorded block effect) (.effectRecorded block effect)

inductive Call.Matches (time : α → α → Prop) : Call α → Call α → Prop
  | schedule {request request'} : Request.Matches time time request request' →
      Matches time (.schedule request) (.schedule request')
  | addEffect (block effect) : Matches time (.addEffect block effect) (.addEffect block effect)

namespace Entry.Matches

variable {time : α → α → Prop} {entry entry' : Entry α} (matching : Entry.Matches time entry entry')

include matching

theorem warning? : entry.warning? = entry'.warning? := by
  cases matching with
  | plain echo _ => cases echo <;> rfl
  | started | nothingToPlay | dispatched | effectRecorded => rfl

theorem request? :
    Option.Rel (fun made made' => Request.Matches time time made.1 made'.1) entry.request?
      entry'.request? := by
  cases matching with
  | plain echo plain =>
    cases echo with
    | dispatched => cases plain
    | warned | sequenceLeft | loopLeft | tempoChanged | blockEntered | customSampleEntered
    | effectRecorded => exact .none
  | dispatched _ _ requests => exact .some requests
  | started | nothingToPlay | effectRecorded => exact .none

theorem call? : Option.Rel (Call.Matches time) entry.call? entry'.call? := by
  cases matching with
  | plain echo plain =>
    rw [plain, echo.call?_eq_none plain]
    exact .none
  | dispatched _ _ requests => exact .some (.schedule requests)
  | effectRecorded block effect => exact .some (.addEffect block effect)
  | started | nothingToPlay => exact .none

end Entry.Matches

theorem Entry.Matches.filterMap_warning? {time : α → α → Prop} {entries entries' : List (Entry α)}
    (all : List.Forall₂ (Entry.Matches time) entries entries') :
    entries.filterMap Entry.warning? = entries'.filterMap Entry.warning? := by
  induction all with
  | nil => rfl
  | cons first _ inductionHypothesis =>
    rw [List.filterMap_cons, List.filterMap_cons, first.warning?, inductionHypothesis]

namespace Run

variable [Device α β]

/-! ## Runs -/

/-- Two runs of a program, each in a tempo of its own from start to end. -/
structure Scaled (time : α → α → Prop) (origin : β) (tempo tempo' : Tempo α)
    (left right : Run α β) : Prop where
  tempo : left.state.tempo = tempo
  tempo' : right.state.tempo = tempo'
  bindings : left.state.bindings = right.state.bindings
  effects : left.state.effects = right.state.effects
  running : left.running = true
  running' : right.running = true
  stack : left.stack = right.stack
  invocations : left.invocations = right.invocations
  refusals : left.refusals = right.refusals
  device : Device.Becomes origin left.device
  device' : Device.Becomes origin right.device
  journal : List.Forall₂ (Entry.Matches time) left.journal.toList right.journal.toList

namespace Scaled

variable {time : α → α → Prop} {origin : β} {tempo tempo' : Tempo α} {left right : Run α β}

omit [Device α β] in
theorem journal_push {left right : Journal α}
    (all : List.Forall₂ (Entry.Matches time) left.toList right.toList) {entry entry' : Entry α}
    (matching : Entry.Matches time entry entry') :
    List.Forall₂ (Entry.Matches time) (left.push entry).toList (right.push entry').toList := by
  rw [Array.toList_push, Array.toList_push]
  exact List.rel_append all (.cons matching .nil)

theorem record (scaled : Scaled time origin tempo tempo' left right) {entry entry' : Entry α}
    (matching : Entry.Matches time entry entry') :
    Scaled time origin tempo tempo' (left.record entry) (right.record entry') :=
  { scaled with journal := journal_push scaled.journal matching }

theorem dispatch (scaled : Scaled time origin tempo tempo' left right)
    {request request' : Request α} (requests : Request.Matches time time request request')
    {duration duration' : α} (durations : time duration duration')
    (running : (left.dispatch request duration).running = true)
    (running' : (right.dispatch request' duration').running = true) :
    Scaled time origin tempo tempo' (left.dispatch request duration)
      (right.dispatch request' duration') :=
  { scaled with
    running
    running'
    device := scaled.device.apply (.schedule request)
    device' := scaled.device'.apply (.schedule request')
    journal := journal_push scaled.journal (.dispatched _ _ requests durations) }

theorem recordEffect (scaled : Scaled time origin tempo tempo' left right) (block : String)
    (effect : Effect α) :
    Scaled time origin tempo tempo' (left.recordEffect block effect)
      (right.recordEffect block effect) :=
  { scaled with
    effects := by
      simp only [Run.recordEffect, Run.record, State.addEffect]
      rw [scaled.effects]
    device := scaled.device.apply (.addEffect block effect)
    device' := scaled.device'.apply (.addEffect block effect)
    journal := journal_push scaled.journal (.effectRecorded block effect) }

theorem recordHeaders [Arithmetic α] (scaled : Scaled time origin tempo tempo' left right)
    (program : Program) :
    Scaled time origin tempo tempo' (left.recordHeaders program) (right.recordHeaders program) :=
  List.foldl_rel scaled fun block _ _ _ before =>
    List.foldl_rel before fun _ _ _ _ before => before.recordEffect block.name _

theorem refuse (scaled : Scaled time origin tempo tempo' left right) (settings : Settings)
    (refused : Refused) :
    Scaled time origin tempo tempo' (left.refuse settings refused)
      (right.refuse settings refused) := by
  have noted : Scaled time origin tempo tempo' (left.noteRefusal refused)
      (right.noteRefusal refused) := by
    rw [noteRefusal, noteRefusal, ← scaled.refusals]
    split
    · exact scaled
    · exact { scaled with refusals := rfl }
  rw [Run.refuse, Run.refuse, ← scaled.refusals]
  split
  · exact noted
  · exact noted.record (.plain (.warned _) rfl)

theorem refusal? (scaled : Scaled time origin tempo tempo' left right) (settings : Settings)
    (kind : Kind) (name : String) :
    left.refusal? settings kind name = right.refusal? settings kind name :=
  refusal?_congr scaled.stack scaled.invocations kind name

end Scaled

end Run

/-! ## Machines side by side -/

namespace Correspondence

open Run

variable [Device α β]

/-- The same commands, except for those that change the tempo, as long as neither run is stopped. -/
def scaled (time : α → α → Prop) (origin : β) (tempo tempo' : Tempo α) : Correspondence α β β where
  command := fun command command' => command = command' ∧ command.action.retimes = false
  within := fun _ => True
  time
  duration := time
  run := Scaled time origin tempo tempo'
  live := fun run => run.running = true
  live' := fun run => run.running = true
  meets := fun _ => True

variable [Arithmetic α]

theorem lawful_scaled {time : α → α → Prop} {origin : β} (steady : Device.Steady origin)
    {tempo tempo' : Tempo α} (scales : Tempo.Scales time tempo tempo') {program : Program}
    (keeps : program.KeepsTempo) (settings : Settings) (defaultBpm : Float) :
    (scaled time origin tempo tempo').Lawful program program settings
      { settings with defaultBpm } where
  retouched := by
    rintro command _ ⟨rfl, -⟩
    exact .same command
  names := fun _ _ _ => trivial
  definition := fun _ => Definition.paired_find?_self fun _ found _ member =>
    ⟨rfl, keeps _ (Program.mem_commands_of_find? found member)⟩
  defaultVolume := rfl
  defaultWaveform := rfl
  zero := scales.zero
  add := scales.add
  larger := scales.larger
  later := scales.add
  running := fun scaled => scaled.running.trans scaled.running'.symm
  bindings := Scaled.bindings
  seconds := fun scaled beats => by
    rw [Run.seconds, Run.seconds, Run.resolve, Run.resolve, scaled.bindings, scaled.tempo,
      scaled.tempo']
    exact scales.seconds _
  frequency := fun scaled => steady.frequency scaled.device scaled.device'
  record := fun scaled echo plain => scaled.record (.plain echo plain)
  dispatch := fun scaled requests durations running running' =>
    scaled.dispatch requests durations running running'
  setTempo := fun _ words action => by
    have retimes := words.2
    rw [action] at retimes
    cases retimes
  setVariable := fun {_ _ _ _ name _} scaled _ _ number =>
    { scaled with bindings := congrArg (Variables.set · name number) scaled.bindings }
  recordEffect := fun {left right _ _ _ _ _ _} scaled words action action' => by
    obtain ⟨rfl, -⟩ := words
    rw [action] at action'
    obtain ⟨rfl, rfl⟩ := Action.effect.inj action'
    have resolve : left.resolve = right.resolve := by
      funext value
      rw [Run.resolve, Run.resolve, scaled.bindings]
    rw [resolve]
    exact scaled.recordEffect _ _
  refuse := fun {left right kind name refusal} scaled given _ =>
    ⟨refusal, scaled.refusal? settings kind name ▸ given, scaled.refuse settings _⟩
  enter := fun {left right kind name _} scaled enters _ =>
    ⟨scaled.refusal? settings kind name ▸ enters,
      { scaled with
        stack := congrArg (List.cons _) scaled.stack
        invocations := congrArg (· + 1) scaled.invocations }⟩
  leave := fun scaled => { scaled with stack := congrArg List.tail scaled.stack }

end Correspondence

end Sequencer
