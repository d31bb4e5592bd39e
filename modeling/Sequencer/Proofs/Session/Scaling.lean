import Sequencer.Proofs.Number.Positive
import Sequencer.Proofs.Run.Timely
import Sequencer.Proofs.Session.Exhaustion
import Sequencer.Proofs.Session.Isolation
import Sequencer.Proofs.Timeline.Scaling

/-! # Executions in another tempo

Where a program never changes the tempo, the tempo that an execution starts with has a say in times
and durations, and in nothing else. In exact arithmetic all of these are multiplied by one factor.
-/

namespace Sequencer.Session

variable {α β : Type}

/-- The same sounds at corresponding times, and the same warnings, variables and effects. -/
structure InStep (time : α → α → Prop) (result result' : Report α × Session α β) : Prop where
  duration : time result.1.duration result'.1.duration
  requests : List.Forall₂ (fun made made' => Request.Matches time time made.1 made'.1)
    result.1.journal.requests.toList result'.1.journal.requests.toList
  warnings : result.1.warnings = result'.1.warnings
  bindings : result.2.state.bindings = result'.2.state.bindings
  effects : result.2.state.effects = result'.2.state.effects

variable {time : α → α → Prop} {device : β} {tempo tempo' : Tempo α}

theorem inStep_closed [Device α β] {session session' : Session α β} {result result' : α × Run α β}
    (duration : time result.1 result'.1)
    (scaled : Run.Scaled time device tempo tempo' result.2 result'.2) :
    InStep time (session.closed result) (session'.closed result') := by
  refine ⟨duration, ?_, ?_, scaled.bindings, scaled.effects⟩
  · rw [requests_closed, requests_closed, Journal.requests, Journal.requests,
      Array.toList_filterMap, Array.toList_filterMap]
    exact List.rel_filterMap (fun _ _ matching => matching.request?) scaled.journal
  · rw [warnings_closed, warnings_closed, ← Array.toList_inj, Journal.warnings, Journal.warnings,
      Array.toList_filterMap, Array.toList_filterMap]
    exact Entry.Matches.filterMap_warning? scaled.journal

variable [Arithmetic α] [Arithmetic.LawfulZero α] [Device α β] {program : Program}
  {settings : Settings} {defaultBpm : Float}

/-- The two executions as runs side by side. -/
theorem scaled_performed (keeps : program.KeepsTempo) (steady : Device.Steady device)
    (scales : Tempo.Scales time (.start (Arithmetic.ofDouble settings.defaultBpm))
      (.start (Arithmetic.ofDouble defaultBpm)))
    {result result' : α × Run α β}
    (performs : (prepared program settings device).performed device = result)
    (performs' : (prepared program { settings with defaultBpm } device).performed device = result')
    (running : result.2.running = true) (running' : result'.2.running = true) :
    time result.1 result'.1 ∧
      Run.Scaled time device (.start (Arithmetic.ofDouble settings.defaultBpm))
        (.start (Arithmetic.ofDouble defaultBpm)) result.2 result'.2 := by
  have ends := (prepared program settings device).reaches_performed device
  have ends' := (prepared program { settings with defaultBpm } device).reaches_performed device
  rw [performs] at ends
  rw [performs'] at ends'
  have opened : Run.Scaled time device (.start (Arithmetic.ofDouble settings.defaultBpm))
      (.start (Arithmetic.ofDouble defaultBpm)) ((prepared program settings device).opened device)
      ((prepared program { settings with defaultBpm } device).opened device) :=
    ⟨rfl, rfl, rfl, rfl, rfl, rfl, rfl, rfl, rfl, .refl device, .refl device,
      .cons (.started _ _ _) .nil⟩
  have recorded := opened.recordHeaders program
  have lawful := Correspondence.lawful_scaled steady scales keeps settings defaultBpm
  have globals : List.Forall₂ (fun command command' => command = command' ∧
      command.action.retimes = false) program.globals program.globals :=
    List.forall₂_same.mpr fun command member => ⟨rfl, keeps command (by simp [Program.commands, member])⟩
  have agree := lawful.reaches
    (lawful.start globals (fun _ => trivial) scales.zero recorded (recorded.record .nothingToPlay))
    ends ends' ?_ ?_
  · exact ⟨agree.duration, agree.run⟩
  · intro moment reaches
    exact ⟨Machine.running_of_reaches (ends.of_last rfl reaches) running, fun _ _ => trivial⟩
  · intro moment reaches
    exact Machine.running_of_reaches (ends'.of_last rfl reaches) running'

theorem inStep_perform (keeps : program.KeepsTempo) (steady : Device.Steady device)
    (scales : Tempo.Scales time (.start (Arithmetic.ofDouble settings.defaultBpm))
      (.start (Arithmetic.ofDouble defaultBpm)))
    (completed : ((prepared program settings device).perform device).1.completed = true)
    (completed' :
      ((prepared program { settings with defaultBpm } device).perform device).1.completed = true) :
    InStep time ((prepared program settings device).perform device)
      ((prepared program { settings with defaultBpm } device).perform device) := by
  obtain ⟨duration, scaled⟩ := scaled_performed keeps steady scales rfl rfl
    (running_of_completed completed) (running_of_completed completed')
  exact inStep_closed duration scaled

/-! ## Exact arithmetic -/

/-- What is a tempo as a double is one as the number that it stands for. -/
theorem exact_pos_of_isTempo {bpm : Float} (valid : Tempo.isTempo bpm = true) :
    0 < Number.exact bpm := by
  rw [Tempo.isTempo, Bool.and_eq_true, decide_eq_true_iff] at valid
  exact Number.exact_pos valid.1 valid.2

theorem scales_start {bpm bpm' : Float} (valid : Tempo.isTempo bpm = true)
    (valid' : Tempo.isTempo bpm' = true) :
    Tempo.Scales (scaledBy (Number.exact bpm / Number.exact bpm'))
      (.start (Arithmetic.ofDouble bpm)) (.start (Arithmetic.ofDouble bpm')) := by
  have positive := exact_pos_of_isTempo valid
  have positive' := exact_pos_of_isTempo valid'
  change Tempo.Scales _ (.start (Number.exact bpm)) (.start (Number.exact bpm'))
  rw [Tempo.start_of_pos positive, Tempo.start_of_pos positive']
  exact Tempo.scales_ofBpm positive positive'

theorem completed_timeline (session : Session α (Timeline α)) (timeline : Timeline α) :
    (session.perform timeline).1.completed = true := by
  have running := running_performed (Timeline.quiet timeline
    (Entry.calls (session.perform timeline).1.journal.toList))
  simp [perform_eq_closed, closed, running, Report.completed]

/-- A timeline that was empty before lists the same events, at multiplied times. -/
theorem timeline_scaled (keeps : program.KeepsTempo) {bpm' : Float}
    (valid : Tempo.isTempo settings.defaultBpm = true) (valid' : Tempo.isTempo bpm' = true) :
    ((prepared program { settings with defaultBpm := bpm' } (.empty : Timeline ℚ)).perform
        .empty).2.device =
      ((prepared program settings (.empty : Timeline ℚ)).perform .empty).2.device.map
        (Timeline.scaled (Number.exact settings.defaultBpm / Number.exact bpm')) := by
  obtain ⟨-, scaled⟩ := scaled_performed keeps (Timeline.steady (.empty : Timeline ℚ))
    (scales_start valid valid') rfl rfl (running_of_completed (completed_timeline _ _))
    (running_of_completed (completed_timeline _ _))
  have positive := div_pos (exact_pos_of_isTempo valid) (exact_pos_of_isTempo valid')
  have calls := List.rel_filterMap (fun _ _ matching => Entry.Matches.call? matching) scaled.journal
  have replayed := Timeline.replay_scaled positive calls .empty
  rw [Timeline.scaled_empty] at replayed
  rw [device_perform, device_perform]
  exact congrArg some replayed

/-- The tempo reaches what is scheduled by the lengths of beats alone. A program that never changes
the tempo, executed under settings that differ in the tempo to start with, makes the same requests
with the same warnings, variables and effects, but for times, as long as no stop is asked for. In
exact arithmetic every time is multiplied by the quotient of the tempos, and a timeline lists the
same events in the same order. -/
theorem performs_in_another_tempo {program : Program} (keeps : program.KeepsTempo)
    {settings : Settings} {bpm' : Float} (valid : Tempo.isTempo settings.defaultBpm = true)
    (valid' : Tempo.isTempo bpm' = true) :
    (∀ {α β : Type} [Arithmetic α] [Arithmetic.LawfulZero α] [Device α β] (device : β),
      Device.Steady device →
      ((prepared program settings device).perform device).1.completed = true →
      ((prepared program { settings with defaultBpm := bpm' } device).perform
        device).1.completed = true →
      InStep anyTime ((prepared program settings device).perform device)
        ((prepared program { settings with defaultBpm := bpm' } device).perform device)) ∧
    (∀ {β : Type} [Device ℚ β] (device : β), Device.Steady device →
      ((prepared program settings device).perform device).1.completed = true →
      ((prepared program { settings with defaultBpm := bpm' } device).perform
        device).1.completed = true →
      InStep (scaledBy (Number.exact settings.defaultBpm / Number.exact bpm'))
        ((prepared program settings device).perform device)
        ((prepared program { settings with defaultBpm := bpm' } device).perform device)) ∧
    ((prepared program { settings with defaultBpm := bpm' } (.empty : Timeline ℚ)).perform
        .empty).2.device =
      ((prepared program settings (.empty : Timeline ℚ)).perform .empty).2.device.map
        (Timeline.scaled (Number.exact settings.defaultBpm / Number.exact bpm')) := by
  refine ⟨?_, ?_, timeline_scaled keeps valid valid'⟩
  · intro α β _ _ _ device steady completed completed'
    exact inStep_perform keeps steady (Tempo.scales_anyTime _ _) completed completed'
  · intro β _ device steady completed completed'
    exact inStep_perform keeps steady (scales_start valid valid') completed completed'

/-- A tone beside a slide that a loop plays twice. -/
def canon : Program where
  globals := [.ofWords 1 ["play", "voice", "bass"], .ofWords 2 ["wait", "0.5"],
    .ofWords 3 ["sample", "kick"]]
  blocks :=
    [{ name := "voice", commands := [.ofWords 4 ["loop", "2", "line"]], effects := [] },
     { name := "line", commands := [.ofWords 5 ["slide", "440", "330", "1.5"]], effects := [] },
     { name := "bass", commands := [.ofWords 6 ["tone", "110", "4"]], effects := [] }]
  customSamples := []
  irregularities := []

/-- Half the tempo takes twice the time. -/
theorem performs_in_another_tempo_canon :
    canon.KeepsTempo ∧ Tempo.isTempo Settings.standard.defaultBpm = true ∧
      Tempo.isTempo (60 : Float) = true ∧
      ((prepared canon .standard (.empty : Timeline ℚ)).perform .empty).1.dispatched = 4 ∧
      InStep (scaledBy 2) ((prepared canon .standard (.empty : Timeline ℚ)).perform .empty)
        ((prepared canon { Settings.standard with defaultBpm := 60 } (.empty : Timeline ℚ)).perform
          .empty) := by
  have keeps : canon.KeepsTempo := by
    have all : ∀ command ∈ canon.commands, command.action.retimes = false := by decide +kernel
    exact all
  have valid : Tempo.isTempo Settings.standard.defaultBpm = true := by decide +kernel
  have valid' : Tempo.isTempo (60 : Float) = true := by decide +kernel
  have factor : Number.exact Settings.standard.defaultBpm / Number.exact 60 = 2 := by decide +kernel
  obtain ⟨-, exact, -⟩ := performs_in_another_tempo keeps valid valid'
  refine ⟨keeps, valid, valid', by decide +kernel, ?_⟩
  rw [← factor]
  exact exact _ (Timeline.steady _) (completed_timeline _ _) (completed_timeline _ _)

end Sequencer.Session
