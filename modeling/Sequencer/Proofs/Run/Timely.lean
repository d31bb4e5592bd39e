import Sequencer.Proofs.Number.Exact
import Sequencer.Proofs.Number.Order
import Sequencer.Proofs.Run.Heeding
import Sequencer.Proofs.Run.Nesting

/-! # Durations in exact arithmetic

With exact arithmetic a beat lasts for some time, no duration is negative, and none gets lost in a
rounding.
-/

namespace Sequencer

variable {β : Type}

/-! ## Fractions -/

namespace Arithmetic

instance lawfulOrderRat : LawfulOrder ℚ where
  left_number := fun _ => le_rfl
  right_number := fun _ => le_rfl
  trans := fun first second => le_trans first second
  total := fun _ _ => le_total _ _
  lt_iff := lt_iff_le_not_ge

instance lawfulZeroRat : LawfulZero ℚ where
  larger_zero := rfl
  add_zero_add_zero := fun _ => add_zero _

theorem larger_of_nonneg {duration : ℚ} (nonneg : 0 ≤ duration) : larger 0 duration = duration := by
  rw [larger]
  split
  · rfl
  · next notLess =>
    have least : duration = 0 := le_antisymm (not_lt.mp notLess) nonneg
    split
    · exact least.symm
    · rfl

end Arithmetic

namespace Tempo

theorem exact_beat_nonneg {bpm : ℚ} {tempo : Tempo ℚ} (changed : change? bpm = some tempo) :
    0 ≤ tempo.beat := by
  rw [change?] at changed
  split at changed
  · next isTempo =>
    obtain rfl := Option.some.inj changed
    rw [Tempo.isTempo, Bool.and_eq_true, decide_eq_true_iff] at isTempo
    have minute : (0 : ℚ) ≤ Number.exact secondsPerMinute := by decide +kernel
    exact div_nonneg minute (le_of_lt isTempo.2)
  · cases changed

theorem exact_beat_start_nonneg (bpm : ℚ) : 0 ≤ (start bpm).beat := by
  rw [start]
  cases changed : change? bpm with
  | some tempo => exact exact_beat_nonneg changed
  | none =>
    change (0 : ℚ) ≤ Number.exact secondsPerMinute / Number.exact standardBpm
    exact div_nonneg (by decide +kernel) (by decide +kernel)

end Tempo

namespace Run

theorem seconds_nonneg {run : Run ℚ β} (beat : 0 ≤ run.state.tempo.beat) (beats : Value) :
    0 ≤ run.seconds beats :=
  mul_nonneg (Arithmetic.LawfulOrder.le_larger_right _ le_rfl) beat

/-- The duration of a beat stays as it should be. -/
theorem kept_beat [Device ℚ β] (settings : Settings) :
    Kept settings fun (before after : Run ℚ β) =>
      0 ≤ before.state.tempo.beat → 0 ≤ after.state.tempo.beat where
  refl := fun _ => id
  trans := fun first second beat => second (first beat)
  record := fun _ _ _ => id
  dispatch := fun _ _ _ => id
  setTempo := fun _ _ _ changed _ => Tempo.exact_beat_nonneg changed
  setVariable := fun _ _ _ => id
  recordEffect := fun _ _ _ => id
  refuse := by
    intro run refused beat
    rw [(refuse_fields settings run refused).1]
    exact beat
  enclose := fun _ _ _ _ _ within => within

end Run

/-! ## Machines -/

/-- No time has been counted back. -/
def Task.Timely : Task ℚ → Prop
  | .sequence _ _ _ time | .together _ _ _ time | .loop _ _ _ _ _ time | .done time => 0 ≤ time
  | .command _ _ _ | .atOnce _ _ _ | .block _ _ _ | .invoke _ _ _ _ => True

def Frame.Timely : Frame ℚ → Prop
  | .sequence _ _ _ time | .together _ _ _ time | .loop _ _ _ _ _ time => 0 ≤ time
  | .atOnce _ _ _ | .leave => True

namespace Machine

open Run

structure Timely (machine : Machine ℚ β) : Prop where
  task : machine.task.Timely
  frames : ∀ frame ∈ machine.frames, frame.Timely
  beat : 0 ≤ machine.run.state.tempo.beat

variable [Device ℚ β] {program : Program} {settings : Settings}

theorem timely_act {run : Run ℚ β} (beat : 0 ≤ run.state.tempo.beat) (command : Command) (offset : ℚ)
    (mix : Mix ℚ) (frames : List (Frame ℚ)) :
    (act program settings command offset mix frames run).task.Timely := by
  rw [act]
  cases command.action with
  | sample arguments =>
    dsimp only
    cases program.customSample? arguments.name with
    | some => trivial
    | none => exact le_rfl
  | tone arguments => exact seconds_nonneg beat _
  | slide arguments => exact seconds_nonneg beat _
  | wait beats => exact seconds_nonneg beat _
  | loop count names arguments =>
    dsimp only
    split <;> exact le_rfl
  | bpm | play | set | effect | invalid | unknown => exact le_rfl

theorem Timely.step {before after : Machine ℚ β} (timely : before.Timely)
    (steps : Steps program settings before after) : after.Timely := by
  have beat := kept_step (kept_beat settings) (fun _ _ _ => id) (fun _ => id) steps timely.beat
  obtain ⟨task, frames, beatBefore⟩ := timely
  suffices both : after.task.Timely ∧ ∀ frame ∈ after.frames, frame.Timely from
    ⟨both.1, both.2, beat⟩
  cases steps.move with
  | command command offset mix frames' run =>
    rw [frames_act]
    have beatStill := (kept_beat settings).ignoreKeys command run beatBefore
    exact ⟨timely_act beatStill command offset mix frames', frames⟩
  | sequenceNext => exact ⟨trivial, List.forall_mem_cons.mpr ⟨task, frames⟩⟩
  | atOnceNext => exact ⟨trivial, List.forall_mem_cons.mpr ⟨trivial, frames⟩⟩
  | togetherNext => exact ⟨trivial, List.forall_mem_cons.mpr ⟨task, frames⟩⟩
  | loopNext => exact ⟨le_rfl, List.forall_mem_cons.mpr ⟨task, frames⟩⟩
  | @entered kind =>
    refine ⟨?_, List.forall_mem_cons.mpr ⟨trivial, frames⟩⟩
    cases kind with
    | block => exact le_rfl
    | customSample => trivial
  | resumed duration frame =>
    obtain ⟨next, others⟩ := List.forall_mem_cons.mp frames
    cases frame with
    | sequence => exact ⟨add_nonneg next task, others⟩
    | loop => exact ⟨add_nonneg next task, others⟩
    | together => exact ⟨Arithmetic.LawfulOrder.le_larger_left next duration, others⟩
    | atOnce => exact ⟨trivial, others⟩
    | leave => exact ⟨task, others⟩
  | sequenceEnd | sequenceLeft | togetherEnd | loopEnd | loopLeft => exact ⟨task, frames⟩
  | atOnceEnd | blockMissing | refused => exact ⟨le_rfl, frames⟩
  | blockFound => exact ⟨trivial, frames⟩

theorem timely_start {run : Run ℚ β} (beat : 0 ≤ run.state.tempo.beat) (program : Program) :
    (start program run).Timely := by
  have frames := start_frames program run
  refine ⟨?_, by simp [frames], ?_⟩
  · rcases start_task_cases program run with task | task | task <;> rw [task] <;> exact le_rfl
  · exact start_invariant (fun run : Run ℚ β => 0 ≤ run.state.tempo.beat)
      (fun _ _ _ before => before) (fun _ before => before) program beat

end Machine

end Sequencer
