import Sequencer.Proofs.Run.Bounds

/-! # Every request is within its bounds

Variables stay finite and the duration of a beat is never negative, so that each step of a machine
computes times, volumes and pans within their bounds from those within theirs.
-/

namespace Sequencer

open Number

variable {β : Type} {times volumes : Prop} {program : Program} {settings : Settings}

/-! ## Tempos -/

namespace Tempo

theorem beat_nonneg_of_change? {bpm : Float} {tempo : Tempo Float}
    (changed : change? bpm = some tempo) : 0 ≤ tempo.beat := by
  rw [change?] at changed
  split at changed
  · next isTempo =>
    obtain rfl := Option.some.inj changed
    -- a beat may become infinite here, and is still not negative
    rw [Tempo.isTempo, Bool.and_eq_true, decide_eq_true_iff] at isTempo
    exact div_nonneg (by decide +kernel) (by decide +kernel) isTempo.2
  · cases changed

theorem beat_start_nonneg (bpm : Float) : 0 ≤ (start bpm).beat := by
  rw [start]
  cases changed : change? bpm with
  | some tempo => exact beat_nonneg_of_change? changed
  | none => decide +kernel

end Tempo

/-! ## Runs -/

namespace Run

/-- What a run has at hand and has asked for, within bounds. -/
structure Within (times volumes : Prop) (run : Run Float β) : Prop where
  bindings : run.state.bindings.Finite
  beat : 0 ≤ run.state.tempo.beat
  requests : ∀ request ∈ run.journal.requests, request.1.Within times volumes

variable {run : Run Float β}

theorem within_start (bpm : Float) (running : Bool) (device : β) {journal : Journal Float}
    (fresh : journal.requests = #[]) :
    (Run.start (.start bpm running) device journal).Within times volumes where
  bindings := Variables.finite_empty
  beat := Tempo.beat_start_nonneg bpm
  requests := by simp [Run.start, fresh]

/-- What a leaf takes and does, within bounds. -/
def Outcome (times volumes : Prop) (result : Float × Run Float β) : Prop :=
  IsTime times result.1 ∧ result.2.Within times volumes

namespace Within

theorem of_unmoved (within : run.Within times volumes) {after : Run Float β}
    (unmoved : Unmoved run after) : after.Within times volumes := by
  obtain ⟨state, -, requests⟩ := unmoved
  exact ⟨state ▸ within.bindings, state ▸ within.beat, requests ▸ within.requests⟩

theorem record (within : run.Within times volumes) {entry : Entry Float}
    (quiet : entry.request? = none) : (run.record entry).Within times volumes :=
  within.of_unmoved (.record run quiet)

theorem setVariable (within : run.Within times volumes) (name : String) {value : Float}
    (finite : value.isFinite = true) : (run.setVariable name value).Within times volumes :=
  ⟨within.bindings.set name finite, within.beat, within.requests⟩

theorem changeTempo (within : run.Within times volumes) (line : Nat) (bpm offset : Float) :
    (run.changeTempo line bpm offset).Within times volumes := by
  rw [Run.changeTempo]
  split
  · next tempo changed =>
    have set : (run.setTempo tempo).Within times volumes :=
      ⟨within.bindings, Tempo.beat_nonneg_of_change? changed, within.requests⟩
    exact set.record rfl
  · exact within.record rfl

theorem seconds (within : run.Within times volumes) {action : Action} {beats : Value}
    (lasts : action.beats? = some beats)
    (clash : Clashing (run.lengthFactors? action) → times) : IsTime times (run.seconds beats) := by
  have nonneg : 0 ≤ Arithmetic.larger (run.resolve beats) 0 :=
    Arithmetic.LawfulOrder.le_larger_right _ zero_nonneg
  rw [lengthFactors?, lasts, Option.map_some, clashing_some] at clash
  rw [Run.seconds, Tempo.seconds]
  exact .mul nonneg within.beat clash

theorem heard (within : run.Within times volumes) {mix : Mix Float} (mixed : mix.Within volumes)
    (finiteDefault : settings.defaultVolume.isFinite = true) {volume pan : Option Value}
    (finite : ∀ value ∈ Action.mixValues volume pan, value.Finite)
    (clash : Clash (volumeFactors?.own settings run volume) mix.volume → volumes) :
    NumberUnless volumes (fun volume => 0 ≤ volume ∧ volume ≤ 1)
        (run.heard settings mix volume pan).1 ∧
      -1 ≤ (run.heard settings mix volume pan).2 ∧ (run.heard settings mix volume pan).2 ≤ 1 := by
  obtain ⟨finiteVolume, finitePan⟩ := Action.finite_mixValues.mp finite
  exact ⟨mixed.heardVolume (within.bindings.resolveOr finiteDefault finiteVolume) clash,
    mixed.heardPan (within.bindings.resolveOr isFinite_zero finitePan)⟩

variable [Device Float β]

theorem recordEffect (within : run.Within times volumes) (block : String) (effect : Effect Float) :
    (run.recordEffect block effect).Within times volumes :=
  have added : Run.Within times volumes
      { run with
        state := run.state.addEffect block effect
        device := Device.addEffect run.device block effect } :=
    ⟨within.bindings, within.beat, within.requests⟩
  added.record rfl

theorem dispatch (within : run.Within times volumes) {request : Request Float}
    (own : request.Within times volumes) (duration : Float) :
    (run.dispatch request duration).Within times volumes where
  bindings := within.bindings
  beat := within.beat
  requests := by
    intro made member
    have pushed : (run.dispatch request duration).journal.requests =
        run.journal.requests.push (request, (Device.schedule run.device request).handle) := by
      simp [Run.dispatch, Run.record, Journal.requests, Entry.request?]
    rw [pushed, Array.mem_push] at member
    rcases member with earlier | rfl
    · exact within.requests made earlier
    · exact own

/-! ## Leaves -/

section Sounds

variable {offset : Float} {mix : Mix Float} (within : run.Within times volumes)
  (atTime : IsTime times offset) (mixed : mix.Within volumes)
  (finiteDefault : settings.defaultVolume.isFinite = true)

include within atTime mixed finiteDefault

/-- What is heard may be computed after a warning, which changes nothing of it. -/
theorem sound {after : Run Float β} (unmoved : Unmoved run after) (trigger : Trigger Float)
    {extent : Extent Float} (forward : extent.Within times offset) {volume pan : Option Value}
    (finite : ∀ value ∈ Action.mixValues volume pan, value.Finite)
    (clash : Clash (volumeFactors?.own settings run volume) mix.volume → volumes)
    (duration : Float) :
    (after.dispatch
      { trigger
        start := offset
        extent
        volume := (after.heard settings mix volume pan).1
        pan := (after.heard settings mix volume pan).2 }
      duration).Within times volumes := by
  have moved := within.of_unmoved unmoved
  rw [volumeFactors?.own, ← unmoved.state] at clash
  obtain ⟨loud, aside⟩ := moved.heard mixed finiteDefault finite clash
  have bounds : Request.Within times volumes
      { trigger
        start := offset
        extent
        volume := (after.heard settings mix volume pan).1
        pan := (after.heard settings mix volume pan).2 } :=
    ⟨atTime, forward, loud, aside⟩
  exact moved.dispatch bounds duration

theorem performSample {arguments : SampleArguments}
    (finite : ∀ value ∈ Action.mixValues arguments.volume arguments.pan, value.Finite)
    (clash : Clash (volumeFactors?.own settings run arguments.volume) mix.volume → volumes) :
    Outcome times volumes (run.performSample settings arguments offset mix) := by
  have instant : Extent.Within times offset .instant := trivial
  have sounds := within.sound atTime mixed finiteDefault (.refl run)
    (.sample arguments.name (run.resolve arguments.pitch) (run.resolve arguments.timescale))
    instant finite clash 0
  exact ⟨IsTime.zero, sounds⟩

theorem performTone {arguments : ToneArguments}
    (finite : ∀ value ∈ Action.mixValues arguments.volume arguments.pan, value.Finite)
    (duration : IsTime times (run.seconds arguments.beats))
    (clash : Clash (volumeFactors?.own settings run arguments.volume) mix.volume → volumes) :
    Outcome times volumes (run.performTone settings arguments offset mix) := by
  have unmoved := Unmoved.waveform settings run arguments.waveform
  have lasting : Extent.Within times offset (.lasting (run.seconds arguments.beats)) := duration
  have sounds := within.sound atTime mixed finiteDefault unmoved
    (.tone (run.pitch arguments.pitch) (run.waveform settings arguments.waveform).1) lasting finite
    clash (run.seconds arguments.beats)
  exact ⟨duration, sounds⟩

theorem performSlide {arguments : SlideArguments}
    (finite : ∀ value ∈ Action.mixValues arguments.volume arguments.pan, value.Finite)
    (duration : IsTime times (run.seconds arguments.beats))
    (clash : Clash (volumeFactors?.own settings run arguments.volume) mix.volume → volumes) :
    Outcome times volumes (run.performSlide settings arguments offset mix) := by
  have unmoved := Unmoved.waveform settings run arguments.waveform
  have upTo : Extent.Within times offset (.upTo (offset + run.seconds arguments.beats)) :=
    atTime.le_add duration
  have sounds := within.sound atTime mixed finiteDefault unmoved
    (.slide (run.pitch arguments.source) (run.pitch arguments.target)
      (run.waveform settings arguments.waveform).1) upTo finite clash (run.seconds arguments.beats)
  exact ⟨duration, sounds⟩

end Sounds

end Within

end Run

/-! ## Machines -/

def Task.Within (times volumes : Prop) : Task Float → Prop
  | .command _ offset mix | .atOnce _ offset mix | .block _ offset mix | .invoke _ _ offset mix =>
    IsTime times offset ∧ mix.Within volumes
  | .sequence _ start mix elapsed | .loop _ start mix _ _ elapsed =>
    IsTime times start ∧ mix.Within volumes ∧ IsTime times elapsed
  | .together _ offset mix longest => IsTime times offset ∧ mix.Within volumes ∧ 0 ≤ longest
  | .done duration => IsTime times duration

def Frame.Within (times volumes : Prop) : Frame Float → Prop
  | .atOnce _ offset mix => IsTime times offset ∧ mix.Within volumes
  | .sequence _ start mix elapsed | .loop _ start mix _ _ elapsed =>
    IsTime times start ∧ mix.Within volumes ∧ IsTime times elapsed
  | .together _ offset mix longest => IsTime times offset ∧ mix.Within volumes ∧ 0 ≤ longest
  | .leave => True

namespace Machine

structure Within (times volumes : Prop) (machine : Machine Float β) : Prop where
  task : machine.task.Within times volumes
  frames : ∀ frame ∈ machine.frames, frame.Within times volumes
  run : machine.run.Within times volumes

theorem within_finish {frames : List (Frame Float)}
    (waiting : ∀ frame ∈ frames, frame.Within times volumes) {result : Float × Run Float β}
    (outcome : Run.Outcome times volumes result) :
    (finish frames result).Within times volumes :=
  ⟨outcome.1, waiting, outcome.2⟩

variable [Device Float β]

/-- The first step of an action computes from times, volumes and pans within their bounds. -/
theorem within_act (finiteDefault : settings.defaultVolume.isFinite = true) (command : Command)
    {offset : Float} {mix : Mix Float} {frames : List (Frame Float)} {run : Run Float β}
    (atTime : IsTime times offset) (mixed : mix.Within volumes)
    (waiting : ∀ frame ∈ frames, frame.Within times volumes) (within : run.Within times volumes)
    (lengths : Clashing (run.lengthFactors? command.action) → times)
    (factors : Clashing (run.volumeFactors? program settings mix command.action) → volumes) :
    (act program settings command offset mix frames run).Within times volumes := by
  have finite := command.finite_values
  have none : IsTime times 0 := .zero
  rw [act]
  cases action : command.action with
  | sample arguments =>
    rw [action] at factors finite
    dsimp only
    cases found : program.customSample? arguments.name with
    | some customSample => exact ⟨⟨atTime, mixed⟩, waiting, within⟩
    | none =>
      -- pitch and timescale come before volume and pan
      have own := List.forall_mem_of_forall_mem_cons (List.forall_mem_of_forall_mem_cons finite)
      rw [Run.volumeFactors?, found, if_neg (by simp), clashing_some] at factors
      exact within_finish waiting (within.performSample atTime mixed finiteDefault own factors)
  | tone arguments =>
    rw [action] at lengths factors finite
    have own := List.forall_mem_of_forall_mem_cons (List.forall_mem_of_forall_mem_cons finite)
    rw [Run.volumeFactors?, clashing_some] at factors
    exact within_finish waiting
      (within.performTone atTime mixed finiteDefault own (within.seconds rfl lengths) factors)
  | slide arguments =>
    rw [action] at lengths factors finite
    have own := List.forall_mem_of_forall_mem_cons (List.forall_mem_of_forall_mem_cons
      (List.forall_mem_of_forall_mem_cons finite))
    rw [Run.volumeFactors?, clashing_some] at factors
    exact within_finish waiting
      (within.performSlide atTime mixed finiteDefault own (within.seconds rfl lengths) factors)
  | wait beats =>
    rw [action] at lengths
    exact within_finish waiting ⟨within.seconds rfl lengths, within⟩
  | bpm value => exact within_finish waiting ⟨none, within.changeTempo _ _ _⟩
  | play names arguments =>
    rw [action] at factors finite
    obtain ⟨finiteVolume, finitePan⟩ := Action.finite_mixValues.mp finite
    rw [Run.volumeFactors?, clashing_some] at factors
    have nested := mixed.nest within.bindings finiteVolume finitePan factors
    exact ⟨⟨atTime, nested, zero_nonneg⟩, waiting, within⟩
  | loop count names arguments =>
    rw [action] at factors finite
    obtain ⟨finiteVolume, finitePan⟩ :=
      Action.finite_mixValues.mp (List.forall_mem_of_forall_mem_cons finite)
    dsimp only
    split
    · next declared =>
      have none' : (names.any fun name => (program.block? name).isNone) = false := by
        simpa using List.filter_eq_nil_iff.mp declared
      rw [Run.volumeFactors?, none', if_neg (by simp), clashing_some] at factors
      have nested := mixed.nest within.bindings finiteVolume finitePan factors
      exact ⟨⟨atTime, nested, none⟩, waiting, within⟩
    · exact within_finish waiting ⟨none, within.record rfl⟩
  | set name value =>
    rw [action] at finite
    have set := within.setVariable name (within.bindings.resolve (finite value (.head _)))
    exact within_finish waiting ⟨none, set⟩
  | effect effect block => exact within_finish waiting ⟨none, within.recordEffect block _⟩
  | invalid | unknown => exact within_finish waiting ⟨none, within.record rfl⟩

/-- Each step keeps within the bounds, given reasons for the products that clash in it. -/
theorem Within.step (finiteDefault : settings.defaultVolume.isFinite = true)
    {before after : Machine Float β} (within : before.Within times volumes)
    (lengths : before.LengthsClash → times)
    (factors : before.VolumesClash program settings → volumes)
    (steps : Steps program settings before after) : after.Within times volumes := by
  obtain ⟨task, waiting, run⟩ := within
  have none : IsTime times 0 := .zero
  cases steps.move with
  | command command offset mix frames run' =>
    have unmoved := Run.Unmoved.ignoreKeys run' command
    refine within_act finiteDefault command task.1 task.2 waiting (run.of_unmoved unmoved) ?_ ?_
    · rw [Run.lengthFactors?_eq unmoved.state]
      exact fun clash => lengths ⟨command, offset, mix, rfl, clash⟩
    · rw [Run.volumeFactors?_eq unmoved.state]
      exact fun clash => factors ⟨command, offset, mix, rfl, clash⟩
  | sequenceEnd start mix elapsed frames run' => exact within_finish waiting ⟨task.2.2, run⟩
  | sequenceNext command rest start mix elapsed frames =>
    exact ⟨⟨task.1.add task.2.2, task.2.1⟩, List.forall_mem_cons.mpr ⟨task, waiting⟩, run⟩
  | sequenceLeft command rest start mix elapsed frames =>
    exact within_finish waiting ⟨task.2.2, run.record rfl⟩
  | atOnceEnd => exact within_finish waiting ⟨none, run⟩
  | atOnceNext => exact ⟨task, List.forall_mem_cons.mpr ⟨task, waiting⟩, run⟩
  | blockFound => exact ⟨task, waiting, run⟩
  | blockMissing => exact within_finish waiting ⟨none, run.record rfl⟩
  | togetherEnd => exact within_finish waiting ⟨.inl task.2.2, run⟩
  | togetherNext => exact ⟨⟨task.1, task.2.1⟩, List.forall_mem_cons.mpr ⟨task, waiting⟩, run⟩
  | loopEnd => exact within_finish waiting ⟨task.2.2, run⟩
  | loopNext names start mix left done total frames =>
    exact ⟨⟨task.1.add task.2.2, task.2.1, zero_nonneg⟩,
      List.forall_mem_cons.mpr ⟨task, waiting⟩, run⟩
  | loopLeft => exact within_finish waiting ⟨task.2.2, run.record rfl⟩
  | refused => exact within_finish waiting ⟨none, run.of_unmoved (.refuse settings _ _)⟩
  | @entered kind definition offset mix frames run' =>
    -- a block starts its commands at its offset, a custom sample performs them all at once
    have inside := run.of_unmoved (.enter run' kind definition.name)
    have leaving : Frame.Within times volumes .leave := trivial
    have waiting' := List.forall_mem_cons.mpr ⟨leaving, waiting⟩
    cases kind with
    | block => exact ⟨⟨task.1, task.2, none⟩, waiting', inside.record rfl⟩
    | customSample => exact ⟨task, waiting', inside.record rfl⟩
  | resumed duration frame frames run' =>
    obtain ⟨next, others⟩ := List.forall_mem_cons.mp waiting
    cases frame with
    | sequence => exact ⟨⟨next.1, next.2.1, next.2.2.add task⟩, others, run⟩
    | loop => exact ⟨⟨next.1, next.2.1, next.2.2.add task⟩, others, run⟩
    | atOnce => exact ⟨next, others, run⟩
    | together =>
      have longest := Arithmetic.LawfulOrder.le_larger_left next.2.2 duration
      exact ⟨⟨next.1, next.2.1, longest⟩, others, run⟩
    | leave => exact ⟨task, others, run.of_unmoved (.leave run')⟩

/-! ## Whole runs -/

theorem within_start (program : Program) {run : Run Float β} (within : run.Within times volumes) :
    (start program run).Within times volumes := by
  have frames := start_frames program run
  have zero : IsTime times 0 := .zero
  refine ⟨?_, by simp [frames], ?_⟩
  · rcases start_task_cases program run with task | task | task <;> rw [task]
    · exact ⟨zero, Mix.within_neutral, zero⟩
    · exact ⟨zero, Mix.within_neutral, zero_nonneg⟩
    · exact zero
  · exact start_invariant (Run.Within times volumes)
      (fun _ block effect before => before.recordEffect block effect)
      (fun _ before => before.record rfl) program within

end Machine

end Sequencer
