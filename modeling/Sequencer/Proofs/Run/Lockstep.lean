import Sequencer.Proofs.Run.Heeding
import Sequencer.Proofs.Run.Interruption

/-! # Two runs on two devices

Runs of one program on two devices that are tuned alike go step by step the same way, as long as
neither device asks for a stop: the handles that the devices give out make no difference.
-/

namespace Sequencer

variable {α β γ : Type}

/-- An entry without the handle that a device has given. -/
def Entry.unnumbered : Entry α → Entry α
  | .dispatched request duration _ => .dispatched request duration 0
  | entry => entry

theorem Entry.call?_unnumbered (entry : Entry α) : entry.unnumbered.call? = entry.call? := by
  cases entry <;> rfl

theorem Entry.warning?_unnumbered (entry : Entry α) :
    entry.unnumbered.warning? = entry.warning? := by
  cases entry <;> rfl

/-- The two devices know the same frequencies, whatever both have been asked. -/
def Device.TunedAlike [Device α β] [Device α γ] (one : β) (other : γ) : Prop :=
  ∀ calls name, Device.frequency (Call.replay one calls) name =
    Device.frequency (Call.replay other calls) name

namespace Run

/-- Two runs, both with the flag raised, that differ in devices and handles only. -/
structure Alike (run : Run α β) (run' : Run α γ) : Prop where
  running : run.running = true
  running' : run'.running = true
  tempo : run.state.tempo = run'.state.tempo
  bindings : run.state.bindings = run'.state.bindings
  effects : run.state.effects = run'.state.effects
  stack : run.stack = run'.stack
  invocations : run.invocations = run'.invocations
  refusals : run.refusals = run'.refusals
  journal : run.journal.toList.map Entry.unnumbered = run'.journal.toList.map Entry.unnumbered

namespace Alike

variable {run : Run α β} {run' : Run α γ}

theorem calls (alike : run.Alike run') : run.calls = run'.calls := by
  have same := congrArg (List.filterMap Entry.call?) alike.journal
  simp only [List.filterMap_map, Function.comp_def, Entry.call?_unnumbered] at same
  exact same

theorem frequency [Device α β] [Device α γ] {one : β} {other : γ}
    (tuned : Device.TunedAlike one other) (alike : run.Alike run') (heeds : run.Heeds one)
    (heeds' : run'.Heeds other) :
    Device.frequency run.device = Device.frequency run'.device := by
  funext name
  rw [heeds.device, heeds'.device, ← alike.calls]
  exact tuned run.calls name

theorem record (alike : run.Alike run') {entry entry' : Entry α}
    (same : entry.unnumbered = entry'.unnumbered) :
    (run.record entry).Alike (run'.record entry') where
  running := alike.running
  running' := alike.running'
  tempo := alike.tempo
  bindings := alike.bindings
  effects := alike.effects
  stack := alike.stack
  invocations := alike.invocations
  refusals := alike.refusals
  journal := by
    rw [Run.record, Run.record, Array.toList_push, Array.toList_push, List.map_append,
      List.map_append, alike.journal, List.map_singleton, List.map_singleton, same]

theorem refuse (alike : run.Alike run') (settings : Settings) (refused : Refused) :
    (run.refuse settings refused).Alike (run'.refuse settings refused) := by
  have noted : (run.noteRefusal refused).Alike (run'.noteRefusal refused) := by
    rw [noteRefusal, noteRefusal, ← alike.refusals]
    split
    · exact alike
    · exact { alike with refusals := rfl }
  rw [Run.refuse, Run.refuse, ← alike.refusals]
  split
  · exact noted
  · exact noted.record rfl

theorem refusal? (alike : run.Alike run') (settings : Settings) (kind : Kind) (name : String) :
    run.refusal? settings kind name = run'.refusal? settings kind name := by
  rw [Run.refusal?, Run.refusal?, alike.invocations, alike.stack]

theorem enter (alike : run.Alike run') (kind : Kind) (name : String) :
    (run.enter kind name).Alike (run'.enter kind name) :=
  { alike with
    stack := congrArg _ alike.stack
    invocations := congrArg (· + 1) alike.invocations }

theorem leave (alike : run.Alike run') : run.leave.Alike run'.leave :=
  { alike with stack := congrArg List.tail alike.stack }

theorem setTempo (alike : run.Alike run') (tempo : Tempo α) :
    (run.setTempo tempo).Alike (run'.setTempo tempo) :=
  { alike with tempo := rfl }

theorem setVariable (alike : run.Alike run') (name : String) (value : α) :
    (run.setVariable name value).Alike (run'.setVariable name value) :=
  { alike with bindings := congrArg (Variables.set · name value) alike.bindings }

theorem waveform (alike : run.Alike run') (settings : Settings) (name : Option String) :
    (run.waveform settings name).1 = (run'.waveform settings name).1 ∧
      (run.waveform settings name).2.Alike (run'.waveform settings name).2 := by
  cases name with
  | none => exact ⟨rfl, alike⟩
  | some name =>
    rw [Run.waveform, Run.waveform]
    split
    · exact ⟨rfl, alike⟩
    · exact ⟨rfl, alike.record rfl⟩

theorem ignoreKeys (alike : run.Alike run') (command : Command) :
    (run.ignoreKeys command).Alike (run'.ignoreKeys command) := by
  rw [Run.ignoreKeys, Run.ignoreKeys]
  induction command.ignoredKeys generalizing run run' with
  | nil => exact alike
  | cons key rest inductionHypothesis => exact inductionHypothesis (alike.record rfl)

/-! ## Calls -/

section Calls

variable [Device α β] [Device α γ]

/-- Unless one of the devices asks for a stop. -/
theorem dispatch (alike : run.Alike run') {request request' : Request α} {duration duration' : α}
    (same : request = request') (lasting : duration = duration')
    (running : (run.dispatch request duration).running = true)
    (running' : (run'.dispatch request' duration').running = true) :
    (run.dispatch request duration).Alike (run'.dispatch request' duration') := by
  subst same lasting
  have same : ∀ handle handle' : Handle, (Entry.dispatched request duration handle).unnumbered =
      (Entry.dispatched request duration handle').unnumbered := fun _ _ => rfl
  have recorded := alike.record (same (Device.schedule run.device request).handle
    (Device.schedule run'.device request).handle)
  exact { recorded with running := running, running' := running' }

theorem recordEffect (alike : run.Alike run') (block : String) {effect effect' : Effect α}
    (same : effect = effect') :
    (run.recordEffect block effect).Alike (run'.recordEffect block effect') := by
  subst same
  have recorded := alike.record (Eq.refl (Entry.effectRecorded block effect).unnumbered)
  have effects : (run.state.addEffect block effect).effects =
      (run'.state.addEffect block effect).effects := by
    rw [State.addEffect, State.addEffect, alike.effects]
  exact { recorded with effects := effects }

end Calls

variable [Arithmetic α]

theorem changeTempo (alike : run.Alike run') (line : Nat) (bpm offset : α) :
    (run.changeTempo line bpm offset).Alike (run'.changeTempo line bpm offset) := by
  rw [Run.changeTempo, Run.changeTempo]
  split
  · exact (alike.setTempo _).record rfl
  · exact alike.record rfl

theorem recordHeaders [Device α β] [Device α γ] (alike : run.Alike run') (program : Program) :
    (run.recordHeaders program).Alike (run'.recordHeaders program) :=
  List.foldl_rel alike fun block _ _ _ before =>
    List.foldl_rel before fun _ _ _ _ before => before.recordEffect block.name rfl

/-! ## Values -/

theorem resolve (alike : run.Alike run') : run.resolve = run'.resolve := by
  funext value
  rw [Run.resolve, Run.resolve, alike.bindings]

theorem seconds (alike : run.Alike run') (beats : Value) :
    run.seconds beats = run'.seconds beats := by
  rw [Run.seconds, Run.seconds, alike.resolve, alike.tempo]

theorem iterations (alike : run.Alike run') (count : Value) :
    run.iterations count = run'.iterations count := by
  rw [Run.iterations, Run.iterations, alike.resolve]

theorem heard (alike : run.Alike run') (settings : Settings) (mix : Mix α)
    (volume pan : Option Value) :
    run.heard settings mix volume pan = run'.heard settings mix volume pan := by
  rw [Run.heard, Run.heard, alike.bindings]

theorem pitch [Device α β] [Device α γ] (alike : run.Alike run')
    (tuned : Device.frequency run.device = Device.frequency run'.device) (value : Value) :
    run.pitch value = run'.pitch value := by
  cases value with
  | number value token => exact congrFun alike.resolve _
  | named name => rw [Run.pitch, Run.pitch, alike.bindings, tuned]

end Alike

end Run

/-! ## Machines -/

namespace Machine

/-- Two machines with the same things to do, on two runs that are alike. -/
structure Alike (machine : Machine α β) (machine' : Machine α γ) : Prop where
  task : machine.task = machine'.task
  frames : machine.frames = machine'.frames
  run : machine.run.Alike machine'.run

theorem Alike.finish {run : Run α β} {run' : Run α γ} (alike : run.Alike run')
    {frames : List (Frame α)} {duration duration' : α} (same : duration = duration') :
    (finish frames (duration, run)).Alike (finish frames (duration', run')) :=
  ⟨congrArg Task.done same, rfl, alike⟩

variable [Arithmetic α] [Device α β] [Device α γ] {program : Program} {settings : Settings}

/-- Each first step of an action, unless one of the devices asks for a stop. -/
theorem Alike.act {run : Run α β} {run' : Run α γ} (alike : run.Alike run')
    (tuned : Device.frequency run.device = Device.frequency run'.device) (command : Command)
    (offset : α) (mix : Mix α) (frames : List (Frame α))
    (running : (act program settings command offset mix frames run).run.running = true)
    (running' : (act program settings command offset mix frames run').run.running = true) :
    (act program settings command offset mix frames run).Alike
      (act program settings command offset mix frames run') := by
  rw [Machine.act] at running running'
  rw [Machine.act, Machine.act]
  cases action : command.action with
  | sample arguments =>
    rw [action] at running running'
    dsimp only at running running' ⊢
    cases found : program.customSample? arguments.name with
    | some customSample => exact ⟨rfl, rfl, alike⟩
    | none =>
      rw [found] at running running'
      refine .finish (alike.dispatch ?_ rfl running running') rfl
      rw [alike.resolve, alike.bindings]
  | tone arguments =>
    rw [action] at running running'
    obtain ⟨waveform, after⟩ := alike.waveform settings arguments.waveform
    have duration := alike.seconds arguments.beats
    dsimp only at running running' ⊢
    rw [Run.performTone] at running running' ⊢
    rw [Run.performTone]
    refine .finish (after.dispatch ?_ duration running running') duration
    rw [alike.pitch tuned, duration, waveform, after.heard]
  | slide arguments =>
    rw [action] at running running'
    obtain ⟨waveform, after⟩ := alike.waveform settings arguments.waveform
    have duration := alike.seconds arguments.beats
    dsimp only at running running' ⊢
    rw [Run.performSlide] at running running' ⊢
    rw [Run.performSlide]
    refine .finish (after.dispatch ?_ duration running running') duration
    rw [alike.pitch tuned, alike.pitch tuned, duration, waveform, after.heard]
  | wait beats => exact .finish alike (alike.seconds beats)
  | bpm value =>
    dsimp only
    rw [alike.resolve]
    exact .finish (alike.changeTempo _ _ _) rfl
  | play names arguments =>
    refine ⟨?_, rfl, alike⟩
    dsimp only
    rw [alike.bindings]
  | loop count names arguments =>
    dsimp only
    split
    · refine ⟨?_, rfl, alike⟩
      dsimp only
      rw [alike.bindings, alike.iterations]
    · exact .finish (alike.record rfl) rfl
  | set name value =>
    dsimp only
    rw [alike.resolve]
    exact .finish (alike.setVariable name _) rfl
  | effect effect block =>
    dsimp only
    exact .finish (alike.recordEffect block (by rw [alike.resolve])) rfl
  | invalid | unknown => exact .finish (alike.record rfl) rfl

/-- Whatever step the one machine makes, the other makes it too. -/
theorem Alike.step {before after : Machine α β} {before' : Machine α γ}
    (alike : before.Alike before')
    (tuned : Device.frequency before.run.device = Device.frequency before'.run.device)
    (steps : Steps program settings before after) (running : after.run.running = true) :
    ∃ after', Steps program settings before' after' ∧
      (after'.run.running = true → after.Alike after') := by
  obtain ⟨task, frames, run'⟩ := before'
  obtain ⟨rfl, rfl, runs⟩ := alike
  cases steps.move with
  | command command offset mix frames run =>
    refine ⟨_, (Move.command command offset mix frames run').steps, fun running' => ?_⟩
    have tunedStill : Device.frequency (run.ignoreKeys command).device =
        Device.frequency (run'.ignoreKeys command).device := by
      rw [Run.device_ignoreKeys, Run.device_ignoreKeys]
      exact tuned
    exact .act (runs.ignoreKeys command) tunedStill command offset mix frames running running'
  | sequenceEnd start mix elapsed frames run =>
    exact ⟨_, (Move.sequenceEnd start mix elapsed frames run').steps, fun _ => .finish runs rfl⟩
  | sequenceNext command rest start mix elapsed frames =>
    exact ⟨_, (Move.sequenceNext command rest start mix elapsed frames runs.running').steps,
      fun _ => ⟨rfl, rfl, runs⟩⟩
  | sequenceLeft _ _ _ _ _ _ stopped | loopLeft _ _ _ _ _ _ _ stopped =>
    exact absurd runs.running (by simp [stopped])
  | atOnceEnd offset mix frames run =>
    exact ⟨_, (Move.atOnceEnd offset mix frames run').steps, fun _ => .finish runs rfl⟩
  | atOnceNext command rest offset mix frames run =>
    exact ⟨_, (Move.atOnceNext command rest offset mix frames run').steps,
      fun _ => ⟨rfl, rfl, runs⟩⟩
  | blockFound offset mix frames run found =>
    exact ⟨_, (Move.blockFound offset mix frames run' found).steps, fun _ => ⟨rfl, rfl, runs⟩⟩
  | blockMissing offset mix frames run missing =>
    exact ⟨_, (Move.blockMissing offset mix frames run' missing).steps,
      fun _ => .finish (runs.record rfl) rfl⟩
  | togetherEnd offset mix longest frames run =>
    exact ⟨_, (Move.togetherEnd offset mix longest frames run').steps, fun _ => .finish runs rfl⟩
  | togetherNext name rest offset mix longest frames run =>
    exact ⟨_, (Move.togetherNext name rest offset mix longest frames run').steps,
      fun _ => ⟨rfl, rfl, runs⟩⟩
  | loopEnd names start mix done total frames run =>
    exact ⟨_, (Move.loopEnd names start mix done total frames run').steps,
      fun _ => .finish runs rfl⟩
  | loopNext names start mix left done total frames =>
    exact ⟨_, (Move.loopNext names start mix left done total frames runs.running').steps,
      fun _ => ⟨rfl, rfl, runs⟩⟩
  | refused offset mix frames given =>
    rw [runs.refusal?] at given
    exact ⟨_, (Move.refused offset mix frames given).steps,
      fun _ => .finish (runs.refuse settings _) rfl⟩
  | entered offset mix frames enters =>
    rw [runs.refusal?] at enters
    exact ⟨_, (Move.entered offset mix frames enters).steps,
      fun _ => ⟨rfl, rfl, (runs.enter _ _).record rfl⟩⟩
  | resumed duration frame frames run =>
    refine ⟨_, (Move.resumed duration frame frames run').steps, fun _ => ?_⟩
    cases frame with
    | leave => exact ⟨rfl, rfl, runs.leave⟩
    | sequence | atOnce | together | loop => exact ⟨rfl, rfl, runs⟩

/-- Machines that are alike come to ends that are alike, if both come to an end with the flag
raised. -/
theorem Alike.reaches {one : β} {other : γ} (tuned : Device.TunedAlike one other)
    {first : Machine α β} {first' : Machine α γ} (alike : first.Alike first')
    (heeds : first.run.Heeds one) (heeds' : first'.run.Heeds other)
    {result : α × Run α β} {result' : α × Run α γ}
    (reaches : Reaches program settings first (Machine.finish [] result))
    (reaches' : Reaches program settings first' (Machine.finish [] result'))
    (running : result.2.running = true) (running' : result'.2.running = true) :
    result.1 = result'.1 ∧ result.2.Alike result'.2 := by
  induction reaches using Relation.ReflTransGen.head_induction_on generalizing first' with
  | refl =>
    obtain ⟨task, frames, run'⟩ := first'
    obtain ⟨rfl, rfl, runs⟩ := alike
    -- the other machine has come to its end as well
    rcases Relation.ReflTransGen.cases_head reaches' with same | ⟨next, steps, -⟩
    · injection same with sameTask _ sameRun
      exact ⟨Task.done.inj sameTask, sameRun ▸ runs⟩
    · cases steps
  | head steps rest inductionHypothesis =>
    obtain ⟨next', steps', alikeNext⟩ := alike.step (alike.run.frequency tuned heeds heeds') steps
      (running_of_reaches rest running)
    have rest' := reaches'.of_last rfl steps'.reaches
    exact inductionHypothesis (alikeNext (running_of_reaches rest' running')) (heeds_step steps heeds)
      (heeds_step steps' heeds') rest'

theorem alike_start {run : Run α β} {run' : Run α γ} (alike : run.Alike run') (program : Program) :
    (start program run).Alike (start program run') := by
  have recorded := alike.recordHeaders program
  rw [Machine.start, Machine.start]
  split
  · exact ⟨rfl, rfl, recorded⟩
  · split
    · exact ⟨rfl, rfl, recorded⟩
    · exact .finish (recorded.record rfl) rfl

end Machine

end Sequencer
