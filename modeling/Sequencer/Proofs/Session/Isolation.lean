import Sequencer.Device.Recorder
import Sequencer.Proofs.Run.Lockstep
import Sequencer.Proofs.Session.Execution

/-! # Executions have no past

What an execution does depends on the program, the settings and the tuning of the device. What has
been executed, stopped, consumed or cancelled before shows in the handles alone.
-/

namespace Sequencer

variable {α β γ : Type}

/-! ## Devices that record -/

/-- Recording asks for no stop, and no frequency is changed by it. -/
theorem Timeline.quiet [Arithmetic α] (timeline : Timeline α) (calls : List (Call α)) :
    Device.Quiet timeline calls :=
  fun _ _ _ _ => rfl

theorem Timeline.tunedAlike [Arithmetic α] (one other : Timeline α) :
    Device.TunedAlike one other :=
  fun _ _ => rfl

/-! ## Journals -/

namespace Journal

theorem warnings_eq_of_unnumbered {first second : Journal α}
    (same : first.toList.map Entry.unnumbered = second.toList.map Entry.unnumbered) :
    first.warnings = second.warnings := by
  have warnings := congrArg (List.filterMap Entry.warning?) same
  simp only [List.filterMap_map, Function.comp_def, Entry.warning?_unnumbered] at warnings
  refine Array.toList_inj.mp ?_
  rw [Journal.warnings, Journal.warnings, Array.toList_filterMap, Array.toList_filterMap]
  exact warnings

/-- The requests but for the handles that were given for them. -/
theorem map_requests (journal : Journal α) :
    journal.requests.toList.map Prod.fst =
      (journal.toList.map Entry.unnumbered).filterMap fun entry => entry.request?.map Prod.fst := by
  rw [Journal.requests, Array.toList_filterMap, List.map_filterMap, List.filterMap_map]
  refine List.filterMap_congr fun entry _ => ?_
  cases entry <;> rfl

theorem size_requests_eq_of_unnumbered {first second : Journal α}
    (same : first.toList.map Entry.unnumbered = second.toList.map Entry.unnumbered) :
    first.requests.size = second.requests.size := by
  have requests := first.map_requests.trans ((congrArg _ same).trans second.map_requests.symm)
  simpa using congrArg List.length requests

end Journal

namespace Session

/-- The same report but for the handles in it, and the same tempo, variables and effects left. -/
structure SameOutcome (result : Report α × Session α β) (result' : Report α × Session α γ) : Prop where
  phase : result.1.phase = result'.1.phase
  duration : result.1.duration = result'.1.duration
  dispatched : result.1.dispatched = result'.1.dispatched
  warnings : result.1.warnings = result'.1.warnings
  calls : Entry.calls result.1.journal.toList = Entry.calls result'.1.journal.toList
  journal : result.1.journal.toList.map Entry.unnumbered =
    result'.1.journal.toList.map Entry.unnumbered
  tempo : result.2.state.tempo = result'.2.state.tempo
  bindings : result.2.state.bindings = result'.2.state.bindings
  effects : result.2.state.effects = result'.2.state.effects

variable [Arithmetic α]

theorem alike_opened {session : Session α β} {session' : Session α γ} (one : β) (other : γ)
    (program : session.program = session'.program)
    (settings : session.settings = session'.settings) :
    (session.opened one).Alike (session'.opened other) := by
  rw [opened_eq, opened_eq, program, settings]
  exact ⟨rfl, rfl, rfl, rfl, rfl, rfl, rfl, rfl, rfl⟩

variable [Device α β] [Device α γ]

theorem sameOutcome_of_alike {session : Session α β} {session' : Session α γ} {one : β} {other : γ}
    (duration : (session.performed one).1 = (session'.performed other).1)
    (runs : (session.performed one).2.Alike (session'.performed other).2) :
    SameOutcome (session.perform one) (session'.perform other) := by
  have phase : (session.perform one).1.phase = (session'.perform other).1.phase := by
    change (if (session.performed one).2.running then Phase.completed else Phase.stopped) =
      if (session'.performed other).2.running then Phase.completed else Phase.stopped
    rw [runs.running, runs.running']
  have dispatched : (session.performed one).2.dispatched = (session'.performed other).2.dispatched := by
    rw [session.counted_performed one, session'.counted_performed other,
      Journal.size_requests_eq_of_unnumbered runs.journal]
  have warnings := Journal.warnings_eq_of_unnumbered runs.journal
  -- the last entry repeats what the report says
  have journal : (session.perform one).1.journal.toList.map Entry.unnumbered =
      (session'.perform other).1.journal.toList.map Entry.unnumbered := by
    change ((session.performed one).2.journal.push (.finished (session.perform one).1.phase
        (session.performed one).2.dispatched (session.performed one).1
        (session.performed one).2.journal.warnings.size)).toList.map Entry.unnumbered =
      ((session'.performed other).2.journal.push (.finished (session'.perform other).1.phase
        (session'.performed other).2.dispatched (session'.performed other).1
        (session'.performed other).2.journal.warnings.size)).toList.map Entry.unnumbered
    rw [Array.toList_push, Array.toList_push, List.map_append, List.map_append, runs.journal, phase,
      dispatched, duration, warnings]
  exact
    { phase
      duration
      dispatched
      warnings := Journal.warnings_eq_of_unnumbered journal
      calls := by rw [calls_perform, calls_perform, runs.calls]
      journal
      tempo := runs.tempo
      bindings := runs.bindings
      effects := runs.effects }

variable [Arithmetic.LawfulZero α]

theorem running_performed {session : Session α β} {device : β}
    (quiet : Device.Quiet device (Entry.calls (session.perform device).1.journal.toList)) :
    (session.performed device).2.running = true := by
  rw [calls_perform] at quiet
  exact (session.heeds_performed device).running.mpr quiet

/-- Two sessions with one program and the same settings report the same of an execution and leave
the same behind, whatever has been done to either of them and on whatever devices, if these are
tuned alike and ask for no stop. -/
theorem executes_in_isolation {session : Session α β} {session' : Session α γ} {one : β} {other : γ}
    (attached : session.device = some one) (attached' : session'.device = some other)
    (program : session.program = session'.program)
    (settings : session.settings = session'.settings) (tuned : Device.TunedAlike one other)
    (quiet : Device.Quiet one (Entry.calls (session.perform one).1.journal.toList))
    (quiet' : Device.Quiet other (Entry.calls (session'.perform other).1.journal.toList)) :
    ∃ result result', session.execute = .ok result ∧ session'.execute = .ok result' ∧
      result.1.completed = true ∧ SameOutcome result result' := by
  have running := running_performed quiet
  have alike := Machine.alike_start (alike_opened one other program settings) session.program
  have heeds := Machine.heeds_start (session.heeds_opened one) session.program
  have heeds' := Machine.heeds_start (session'.heeds_opened other) session.program
  have ends := Machine.reaches_end session.program session.settings (session.opened one)
  have ends' := Machine.reaches_end session.program session.settings (session'.opened other)
  have performed' : Run.performProgram session.program session.settings (session'.opened other) =
      session'.performed other := by rw [performed, program, settings]
  rw [performed'] at ends'
  obtain ⟨duration, runs⟩ :=
    alike.reaches tuned heeds heeds' ends ends' running (running_performed quiet')
  refine ⟨session.perform one, session'.perform other, ?_, ?_, ?_, sameOutcome_of_alike duration runs⟩
  · exact execute_eq_ok attached
  · exact execute_eq_ok attached'
  · change ((if (session.performed one).2.running then Phase.completed else Phase.stopped) ==
      Phase.completed) = true
    rw [running]
    rfl

/-- The tempo is doubled for the rest of the run. -/
def march : Program :=
  { globals := [.ofWords 1 ["play", "step"], .ofWords 2 ["bpm", "240"], .ofWords 3 ["play", "step"]]
    blocks :=
      [{ name := "step", commands := [.ofWords 5 ["sample", "kick"], .ofWords 6 ["wait", "1"]]
         effects := [] }]
    customSamples := []
    irregularities := [] }

def rested : Session Float (Timeline Float) := ((start .standard).attach .empty).load march

/-- Performed once, played half through and stopped. -/
def marched : Session Float (Timeline Float) :=
  (((rested.perform .empty).2.play.overDevice fun timeline => (timeline.drain 0.25).2).stop)

theorem executes_in_isolation_march :
    marched.device.map Timeline.nextHandle = some 3 ∧
      ∃ result result', marched.execute = .ok result ∧ rested.execute = .ok result' ∧
        result.1.completed = true ∧ SameOutcome result result' :=
  ⟨by decide +kernel, executes_in_isolation rfl rfl rfl rfl (Timeline.tunedAlike _ _)
    (Timeline.quiet _ _) (Timeline.quiet _ _)⟩

end Session

end Sequencer
