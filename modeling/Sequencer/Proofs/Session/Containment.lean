import Sequencer.Proofs.Run.Containment
import Sequencer.Proofs.Session.Limits
import Sequencer.Proofs.Timeline.Span

/-! # Executions and the time they take

In exact arithmetic, what a block requests while it is played lies between its start and its end, and
a timeline that was empty before an execution spans no more time than the execution takes.
-/

namespace Sequencer.Session

variable {β : Type}

theorem beat_opened (session : Session ℚ β) (device : β) :
    0 ≤ (session.opened device).state.tempo.beat :=
  Tempo.exact_beat_start_nonneg _

variable [Device ℚ β] {session : Session ℚ β} {device : β}

theorem timely_of_reaches {moment : Machine ℚ β} (reaches : session.Reaches device moment) :
    moment.Timely :=
  reaches.invariant Machine.Timely (Machine.timely_start (session.beat_opened device) _)
    fun before steps => before.step steps

/-- A definition that is about to be invoked comes to the result that `invoke` gives, whatever waits
for it. -/
theorem reaches_invoked {moment : Machine ℚ β} (reaches : session.Reaches device moment)
    {kind : Kind} {definition : Definition} {offset : ℚ} {mix : Mix ℚ}
    (invokes : moment.task = .invoke kind definition offset mix) :
    Machine.Reaches session.program session.settings moment
      (Machine.finish moment.frames
        (moment.run.invoke session.program session.settings (Run.room session.program) kind definition
          offset mix)) := by
  have declared := (bounded_of_reaches reaches).next kind definition offset mix invokes
  obtain ⟨task, frames, run⟩ := moment
  obtain rfl : task = .invoke kind definition offset mix := invokes
  have fits := Run.unentered_le_room session.program run.stack
  exact Machine.invokes_within session.program session.settings fits kind definition offset mix run
    declared rfl frames

/-- All sounds that an execution requests are over when it is. -/
theorem between_of_called (still : session.program.StillCustomSamples) {request : Request ℚ}
    (called : .schedule request ∈ Entry.calls (session.perform device).1.journal.toList) :
    request.Between 0 (session.perform device).1.duration := by
  have contained := Run.contained_performProgram still session.settings (session.beat_opened device)
  obtain ⟨made, calls, within⟩ := contained.adds.calls
  have none : (session.opened device).calls = [] := rfl
  rw [none, List.nil_append] at calls
  rw [calls_perform, performed, calls] at called
  have whole := within request called
  rwa [zero_add] at whole

/-- What a timeline is told in an execution spans no more time than the execution takes. -/
theorem span_replay_le (still : session.program.StillCustomSamples) :
    (Call.replay (.empty : Timeline ℚ)
        (Entry.calls (session.perform device).1.journal.toList)).span ≤
      (session.perform device).1.duration := by
  have contained := Run.contained_performProgram still session.settings (session.beat_opened device)
  refine Timeline.span_le contained.least fun event member => ?_
  rcases Timeline.mem_events_replay member with held | ⟨request, handle, called, rfl⟩
  · cases held
  · exact (between_of_called still called).ends

/-- In exact arithmetic, and as long as custom samples hold nothing that lasts, everything happens
within the time that it is said to take. What a block requests while it is played, in whatever way it
goes on and whether it is stopped or not, starts no earlier than the block and ends no later. Hence
the requests of a whole execution, put on a timeline, span no more time than the report says. -/
theorem performs_within_its_duration {program : Program} (still : program.StillCustomSamples)
    (settings : Settings) :
    (∀ {β : Type} [Device ℚ β] (device : β) (moment : Machine ℚ β) (block : Definition) (offset : ℚ)
        (mix : Mix ℚ), (prepared program settings device).Reaches device moment →
      moment.task = .invoke .block block offset mix →
      let result := moment.run.invoke program settings (Run.room program) .block block offset mix
      Machine.Reaches program settings moment (Machine.finish moment.frames result) ∧
        Run.AddsBetween offset (offset + result.1) moment.run result.2) ∧
    (∀ {β : Type} [Device ℚ β] (device : β),
      let report := ((prepared program settings device).perform device).1
      (Call.replay (.empty : Timeline ℚ) (Entry.calls report.journal.toList)).span ≤
        report.duration) ∧
    ∃ timeline,
      ((prepared program settings (.empty : Timeline ℚ)).perform .empty).2.device = some timeline ∧
        timeline.span ≤ ((prepared program settings (.empty : Timeline ℚ)).perform .empty).1.duration := by
  refine ⟨?_, fun device => span_replay_le still, ?_⟩
  · intro β _ device moment block offset mix reaches invokes
    refine ⟨reaches_invoked reaches invokes, ?_⟩
    have containing := Run.containing_invoke (β := β) still settings (Run.room program)
    exact (containing.contained block.still_block offset mix moment.run
      (timely_of_reaches reaches).beat).adds
  · refine ⟨_, device_perform _ _, ?_⟩
    rw [← calls_perform]
    exact span_replay_le still

def reel : Definition where
  name := "reel"
  commands := [.ofWords 3 ["sample", "drum"], .ofWords 4 ["tone", "440", "3"]]
  effects := []

/-- A reel beside a fiddle that plays it twice over, and a drum that waits without taking time. -/
def dance : Program where
  globals := [.ofWords 1 ["wait", "1"], .ofWords 2 ["play", "reel", "fiddle"]]
  blocks :=
    [reel, { name := "fiddle", commands := [.ofWords 5 ["loop", "2", "reel"]], effects := [] }]
  customSamples :=
    [{ name := "drum", commands := [.ofWords 6 ["wait", "9"], .ofWords 7 ["sample", "kick"]]
       effects := [] }]
  irregularities := []

def hall : Session ℚ (Timeline ℚ) := prepared dance .standard .empty

/-- After one beat the reel begins, and takes three. -/
theorem reaches_reel :
    ∃ moment, hall.Reaches .empty moment ∧
      ∃ offset mix, moment.task = .invoke .block reel offset mix ∧ offset = 1 / 2 ∧
        (moment.run.invoke dance .standard (Run.room dance) .block reel offset mix).1 = 3 / 2 := by
  refine ⟨_, .tail (.tail (.tail (.tail (.tail (.tail (.tail .refl rfl) rfl) rfl) rfl) rfl) rfl) rfl,
    _, _, rfl, ?_, ?_⟩
  · decide +kernel
  · decide +kernel

/-- What the reel requests is over after two seconds, and everything after three and a half. -/
theorem performs_within_its_duration_dance :
    dance.StillCustomSamples ∧
      (∃ moment, hall.Reaches .empty moment ∧
        ∃ offset mix, moment.task = .invoke .block reel offset mix ∧
          Run.AddsBetween (1 / 2) 2 moment.run
            (moment.run.invoke dance .standard (Run.room dance) .block reel offset mix).2) ∧
      (hall.perform .empty).1.dispatched = 6 ∧
      ∃ timeline, (hall.perform .empty).2.device = some timeline ∧ timeline.span ≤ 7 / 2 := by
  have still : dance.StillCustomSamples := by
    have all : ∀ customSample ∈ dance.customSamples, ∀ command ∈ customSample.commands,
        command.action.lingers = false := by decide +kernel
    exact all
  obtain ⟨within, -, timeline, taken, span⟩ := performs_within_its_duration still .standard
  refine ⟨still, ?_, by decide +kernel, timeline, taken, ?_⟩
  · obtain ⟨moment, reaches, offset, mix, invokes, starts, duration⟩ := reaches_reel
    obtain ⟨-, adds⟩ := within _ moment reel offset mix reaches invokes
    refine ⟨moment, reaches, offset, mix, invokes, adds.mono starts.ge ?_⟩
    rw [duration, starts]
    norm_num
  · have duration : (hall.perform .empty).1.duration = 7 / 2 := by decide +kernel
    exact span.trans duration.le

end Sequencer.Session
