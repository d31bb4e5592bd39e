import Sequencer.Proofs.Device.Interruptible
import Sequencer.Proofs.Run.Nesting

/-! # A run that is interrupted

A run that is stopped after a number of requests goes the same way as one that is not, with the flag
lowered from then on, up to the first poll of the flag.
-/

namespace Sequencer

namespace Run

variable {α β : Type}

/-- The run as it would be with a stop after some requests. -/
def interruptAt (count : Nat) (run : Run α (Interruptible α β)) : Run α (Interruptible α β) :=
  { run with
    state := { run.state with running := run.running && run.device.taken.length < count }
    device := { run.device with stopAt := some count } }

variable {count : Nat} {run : Run α (Interruptible α β)}

theorem running_interruptAt (early : run.device.taken.length < count) :
    (run.interruptAt count).running = run.running := by
  simp [interruptAt, running, early]

theorem waveform_interruptAt (settings : Settings) (name : Option String) :
    (run.interruptAt count).waveform settings name =
      ((run.waveform settings name).1, (run.waveform settings name).2.interruptAt count) := by
  cases name with
  | none => rfl
  | some name =>
    rw [waveform, waveform]
    split <;> rfl

theorem refuse_interruptAt (settings : Settings) (refused : Refused) :
    (run.interruptAt count).refuse settings refused =
      (run.refuse settings refused).interruptAt count := by
  have noted : (run.interruptAt count).noteRefusal refused =
      (run.noteRefusal refused).interruptAt count := by
    rw [noteRefusal, noteRefusal]
    by_cases known : run.refusals.contains refused = true
    · rw [if_pos known]
      exact if_pos known
    · rw [if_neg known]
      exact if_neg known
  rw [refuse, refuse, noted]
  by_cases covered : run.refusals.any refused.sharesWarning = true
  · rw [if_pos covered]
    exact if_pos covered
  · rw [if_neg covered]
    exact if_neg covered

theorem device_waveform (settings : Settings) (name : Option String) :
    (run.waveform settings name).2.device = run.device := by
  cases name with
  | none => rfl
  | some name =>
    rw [waveform]
    split <;> rfl

theorem ignoreKeys_interruptAt (command : Command) :
    (run.interruptAt count).ignoreKeys command = (run.ignoreKeys command).interruptAt count := by
  rw [ignoreKeys, ignoreKeys]
  induction command.ignoredKeys generalizing run with
  | nil => rfl
  | cons key rest inductionHypothesis => exact @inductionHypothesis (run.warn _)

theorem device_ignoreKeys (command : Command) (run : Run α β) :
    (run.ignoreKeys command).device = run.device :=
  ignoreKeys_invariant (fun after => after.device = run.device) (fun _ _ _ _ before => before)
    command rfl

/-- The duration stays, and the run is interrupted. -/
def interruptResult (count : Nat) (result : α × Run α (Interruptible α β)) :
    α × Run α (Interruptible α β) :=
  (result.1, result.2.interruptAt count)

section Arithmetic

variable [Arithmetic α]

theorem device_changeTempo (line : Nat) (bpm offset : α) (run : Run α β) :
    (run.changeTempo line bpm offset).device = run.device := by
  rw [changeTempo]
  split <;> rfl

theorem changeTempo_interruptAt (line : Nat) (bpm offset : α) :
    (run.interruptAt count).changeTempo line bpm offset =
      (run.changeTempo line bpm offset).interruptAt count := by
  rw [changeTempo, changeTempo]
  split <;> rfl

end Arithmetic

/-! ## Requests of a run -/

variable [Device α β]

/-- A request lowers the flag just when it is the last one before the stop. -/
theorem dispatch_interruptAt (free : run.device.stopAt = none) (request : Request α) (duration : α) :
    (run.interruptAt count).dispatch request duration =
      (run.dispatch request duration).interruptAt count := by
  obtain ⟨⟨tempo, bindings, effects, active, running⟩, ⟨inner, taken, stopAt⟩, stack, invocations,
    refusals, dispatched, journal⟩ := run
  obtain rfl : stopAt = none := free
  -- with one more request taken the stop has come, comes now or is still to come
  have flag : (running && decide (taken.length < count) &&
      !(some count == some (taken ++ [request]).length)) =
      (running && !(none == some (taken ++ [request]).length) &&
        decide ((taken ++ [request]).length < count)) := by
    rw [List.length_append, List.length_singleton]
    by_cases before : taken.length + 1 < count
    · have earlier : taken.length < count := by omega
      have other : count ≠ taken.length + 1 := by omega
      simp [before, earlier, other]
    · by_cases last : count = taken.length + 1
      · simp [last]
      · have late : ¬ taken.length < count := by omega
        simp [before, late]
  simp only [dispatch, interruptAt, record, Run.running, Device.schedule, Interruptible.schedule]
  rw [flag]
  rfl

variable [Arithmetic α]

theorem performSample_interruptAt (free : run.device.stopAt = none) (settings : Settings)
    (arguments : SampleArguments) (offset : α) (mix : Mix α) :
    (run.interruptAt count).performSample settings arguments offset mix =
      interruptResult count (run.performSample settings arguments offset mix) :=
  congrArg (Prod.mk _) (dispatch_interruptAt free _ _)

theorem performTone_interruptAt (free : run.device.stopAt = none) (settings : Settings)
    (arguments : ToneArguments) (offset : α) (mix : Mix α) :
    (run.interruptAt count).performTone settings arguments offset mix =
      interruptResult count (run.performTone settings arguments offset mix) := by
  have freeAfter : (run.waveform settings arguments.waveform).2.device.stopAt = none := by
    rw [device_waveform]
    exact free
  rw [performTone, performTone, waveform_interruptAt]
  exact congrArg (Prod.mk _) (dispatch_interruptAt freeAfter _ _)

theorem performSlide_interruptAt (free : run.device.stopAt = none) (settings : Settings)
    (arguments : SlideArguments) (offset : α) (mix : Mix α) :
    (run.interruptAt count).performSlide settings arguments offset mix =
      interruptResult count (run.performSlide settings arguments offset mix) := by
  have freeAfter : (run.waveform settings arguments.waveform).2.device.stopAt = none := by
    rw [device_waveform]
    exact free
  rw [performSlide, performSlide, waveform_interruptAt]
  exact congrArg (Prod.mk _) (dispatch_interruptAt freeAfter _ _)

end Run

namespace Machine

variable {α β : Type}

def interruptAt (count : Nat) (machine : Machine α (Interruptible α β)) :
    Machine α (Interruptible α β) :=
  { machine with run := machine.run.interruptAt count }

/-- What a step does to the device: nothing that counts, or one more request with which a task is
done. -/
structure OneMore (before after : Machine α (Interruptible α β)) : Prop where
  stopAt : after.run.device.stopAt = before.run.device.stopAt
  taken : after.run.device.taken = before.run.device.taken ∨
    ∃ request, after.run.device.taken = before.run.device.taken ++ [request] ∧
      ∃ duration, after.task = .done duration

theorem OneMore.of_device {before after : Machine α (Interruptible α β)}
    (same : after.run.device = before.run.device) : OneMore before after :=
  ⟨congrArg Interruptible.stopAt same, Or.inl (congrArg Interruptible.taken same)⟩

variable [Device α β]

theorem oneMore_dispatch {before : Machine α (Interruptible α β)} {run : Run α (Interruptible α β)}
    (same : run.device = before.run.device) (frames : List (Frame α)) (request : Request α)
    (time duration : α) : OneMore before (finish frames (time, run.dispatch request duration)) := by
  have stopAt := congrArg Interruptible.stopAt same
  have taken := congrArg (fun device => device.taken ++ [request]) same
  exact ⟨stopAt, Or.inr ⟨request, taken, time, rfl⟩⟩

/-! ## Steps -/

variable [Arithmetic α] {program : Program} {settings : Settings} {count : Nat}

theorem act_interruptAt {run : Run α (Interruptible α β)} (free : run.device.stopAt = none)
    (command : Command) (offset : α) (mix : Mix α) (frames : List (Frame α)) :
    act program settings command offset mix frames (run.interruptAt count) =
      (act program settings command offset mix frames run).interruptAt count := by
  rw [act, act]
  cases command.action with
  | sample arguments =>
    dsimp only
    cases program.customSample? arguments.name with
    | some customSample => rfl
    | none =>
      dsimp only
      rw [Run.performSample_interruptAt free]
      rfl
  | tone arguments =>
    dsimp only
    rw [Run.performTone_interruptAt free]
    rfl
  | slide arguments =>
    dsimp only
    rw [Run.performSlide_interruptAt free]
    rfl
  | bpm value =>
    dsimp only
    rw [Run.changeTempo_interruptAt]
    rfl
  | loop count names arguments =>
    dsimp only
    cases names.filter fun name => (program.block? name).isNone <;> rfl
  | wait | play | set | effect | invalid | unknown => rfl

/-- As long as the flag is not asked for too late, each step is the same. -/
theorem step_interruptAt {machine : Machine α (Interruptible α β)}
    (free : machine.run.device.stopAt = none)
    (inTime : machine.task.polls = true → machine.run.device.taken.length < count) :
    (machine.interruptAt count).step? program settings =
      (machine.step? program settings).map (interruptAt count) := by
  obtain ⟨task, frames, run⟩ := machine
  rw [step?.eq_def, step?.eq_def]
  cases task with
  | command command offset mix =>
    dsimp only [interruptAt]
    rw [Run.ignoreKeys_interruptAt, act_interruptAt ((Run.device_ignoreKeys command run).symm ▸ free)]
    rfl
  | sequence commands start mix elapsed =>
    cases commands with
    | nil => rfl
    | cons command rest =>
      dsimp only [interruptAt]
      rw [Run.running_interruptAt (inTime rfl)]
      split <;> rfl
  | atOnce commands offset mix => cases commands <;> rfl
  | block name offset mix =>
    dsimp only [interruptAt]
    cases program.block? name <;> rfl
  | together names offset mix longest => cases names <;> rfl
  | loop names start mix left done total =>
    cases left with
    | zero => rfl
    | succ left =>
      dsimp only [interruptAt]
      rw [Run.running_interruptAt (inTime rfl)]
      split <;> rfl
  | invoke kind definition offset mix =>
    have given : (run.interruptAt count).refusal? settings kind definition.name =
        run.refusal? settings kind definition.name := rfl
    dsimp only [interruptAt]
    rw [given]
    cases run.refusal? settings kind definition.name with
    | none => rfl
    | some refusal =>
      dsimp only
      rw [Run.refuse_interruptAt]
      rfl
  | done duration =>
    cases frames with
    | nil => rfl
    | cons frame frames => cases frame <;> rfl

/-! ## Requests one by one -/

theorem oneMore_act (command : Command) (offset : α) (mix : Mix α) (frames : List (Frame α))
    {before : Machine α (Interruptible α β)} {run : Run α (Interruptible α β)}
    (same : run.device = before.run.device) :
    OneMore before (act program settings command offset mix frames run) := by
  rw [act]
  cases command.action with
  | sample arguments =>
    dsimp only
    cases program.customSample? arguments.name with
    | some customSample => exact .of_device same
    | none => exact oneMore_dispatch same frames _ _ _
  | tone arguments => exact oneMore_dispatch ((Run.device_waveform _ _).trans same) frames _ _ _
  | slide arguments => exact oneMore_dispatch ((Run.device_waveform _ _).trans same) frames _ _ _
  | bpm value => exact .of_device ((Run.device_changeTempo _ _ _ run).trans same)
  | loop count names arguments =>
    dsimp only
    split <;> exact .of_device same
  | effect effect block =>
    have stopAt := congrArg Interruptible.stopAt same
    have taken := congrArg Interruptible.taken same
    exact ⟨stopAt, Or.inl taken⟩
  | wait | play | set | invalid | unknown => exact .of_device same

theorem oneMore_of_step {before after : Machine α (Interruptible α β)}
    (steps : Steps program settings before after) : OneMore before after := by
  obtain ⟨task, frames, run⟩ := before
  cases task with
  | command command offset mix =>
    obtain rfl := Option.some.inj steps
    exact oneMore_act command offset mix frames (Run.device_ignoreKeys command run)
  | sequence | atOnce | block | together | loop | invoke | done =>
    exact .of_device (unchanged_of_step steps (by simp)).2

/-! ## Lockstep -/

/-- Up to a poll that comes too late the interrupted machine follows. -/
theorem ReachesWhile.interruptAt {holds : Machine α (Interruptible α β) → Prop}
    {first last : Machine α (Interruptible α β)}
    (path : ReachesWhile program settings holds first last)
    (inTime : ∀ machine, holds machine → machine.task.polls = true →
      machine.run.device.taken.length < count)
    (free : first.run.device.stopAt = none) :
    Reaches program settings (first.interruptAt count) (last.interruptAt count) ∧
      last.run.device.stopAt = none := by
  induction path with
  | refl => exact ⟨.refl, free⟩
  | @tail before after _ steps inductionHypothesis =>
    obtain ⟨reaches, stillFree⟩ := inductionHypothesis
    have interrupted : Steps program settings (before.interruptAt count) (after.interruptAt count) :=
      (step_interruptAt stillFree (inTime before steps.2)).trans
        (congrArg (Option.map (Machine.interruptAt count)) steps.1)
    exact ⟨reaches.trans interrupted.reaches, (oneMore_of_step steps.1).stopAt.trans stillFree⟩

theorem recordHeaders_interruptAt (run : Run α (Interruptible α β)) :
    (run.interruptAt count).recordHeaders program = (run.recordHeaders program).interruptAt count :=
  List.foldl_hom (Run.interruptAt count) fun _ _ =>
    List.foldl_hom (Run.interruptAt count) fun _ _ => rfl

/-- The machine of a run that asks for a stop with one of its requests, or with none. -/
def opening (program : Program) (state : State α) (device : β) (journal : Journal α)
    (stopAt : Option Nat) : Machine α (Interruptible α β) :=
  start program (.start state (.around device stopAt) journal)

/-- Before any request the flag is as it was. -/
theorem opening_interruptAt (positive : 0 < count) (program : Program) (state : State α)
    (device : β) (journal : Journal α) :
    opening program state device journal (some count) =
      (opening program state device journal none).interruptAt count := by
  have run : Run.start state (Interruptible.around device (some count)) journal =
      (Run.start state (Interruptible.around device none) journal).interruptAt count := by
    simp [Run.start, Run.interruptAt, Interruptible.around, Run.running, positive]
  rw [opening, opening, start, start, run, recordHeaders_interruptAt]
  split
  · rfl
  · split <;> rfl

theorem opening_device (program : Program) (state : State α) (device : β) (journal : Journal α)
    (stopAt : Option Nat) :
    (opening program state device journal stopAt).run.device.taken = [] ∧
      (opening program state device journal stopAt).run.device.stopAt = stopAt :=
  start_invariant
    (fun run : Run α (Interruptible α β) => run.device.taken = [] ∧ run.device.stopAt = stopAt)
    (fun _ _ _ before => before) (fun _ before => before) program ⟨rfl, rfl⟩

end Machine

end Sequencer
