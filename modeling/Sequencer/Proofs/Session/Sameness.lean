import Sequencer.Proofs.Run.Sameness
import Sequencer.Proofs.Session.Execution

/-! # Programs that are the same behave the same

Equality of programs looks at words, at definitions by name and at the effects of headers. Nothing
else in a source has a part in what an execution does, but for the line numbers in warnings and the
order between blocks in which headers are told to the device.
-/

namespace Sequencer

variable {α β γ : Type} [Arithmetic α]

namespace Session

/-- The same report but for the lines that warnings quote, and the same left behind. What has been
recorded and what the devices have been told agrees block by block. -/
structure SameBehaviour [Device α β] [Device α γ] (one : β) (other : γ)
    (result : Report α × Session α β) (result' : Report α × Session α γ) : Prop where
  phase : result.1.phase = result'.1.phase
  duration : result.1.duration = result'.1.duration
  dispatched : result.1.dispatched = result'.1.dispatched
  requests : result.1.journal.requests = result'.1.journal.requests
  warnings : List.Forall₂ Warning.Reworded result.1.warnings.toList result'.1.warnings.toList
  tempo : result.2.state.tempo = result'.2.state.tempo
  bindings : result.2.state.bindings = result'.2.state.bindings
  active : result.2.state.active = result'.2.state.active
  effects : ∀ block, List.Forall₂ Effect.Agrees (result.2.state.effectsOf block)
    (result'.2.state.effectsOf block)
  told : ∀ block, List.Forall₂ Effect.Agrees
    (effectsOn block (Call.effects (Entry.calls result.1.journal.toList)))
    (effectsOn block (Call.effects (Entry.calls result'.1.journal.toList)))
  device : result.2.device = some (Call.replay one (Entry.calls result.1.journal.toList))
  device' : result'.2.device = some (Call.replay other (Entry.calls result'.1.journal.toList))

section Recorded

variable [Device α β] {δ : Type}

/-- What the journal of a report holds besides headers, if it is not looked for in an opening, a
closing or a recorded effect. -/
theorem filterMap_journal (session : Session α β) (device : β) (entries : List (Entry α))
    {image? : Entry α → Option δ}
    (journal : (session.performed device).2.journal =
      ((session.opened device).recordHeaders session.program).journal ++ entries)
    (started : ∀ globals blocks customSamples,
      image? (.started globals blocks customSamples) = none)
    (recorded : ∀ block effect, image? (.effectRecorded block effect) = none)
    (finished : ∀ phase dispatched duration warnings,
      image? (.finished phase dispatched duration warnings) = none) :
    (session.perform device).1.journal.toList.filterMap image? = entries.filterMap image? := by
  have headers : (((session.opened device).recordHeaders session.program).journal.toList).filterMap
      image? = [] := by
    rw [Run.recordHeaders_eq_recordEach, Run.journal_recordEach, List.filterMap_append,
      List.filterMap_map]
    have opening : (session.opened device).journal.toList.filterMap image? = [] := by
      simp [opened_eq, Run.start, Session.opening, started]
    rw [opening, List.nil_append, List.filterMap_eq_nil_iff]
    exact fun header _ => recorded _ _
  -- opening and headers, what the commands did, and the closing
  have all : (session.perform device).1.journal.toList =
      (session.performed device).2.journal.toList ++
        [.finished (session.perform device).1.phase (session.performed device).2.dispatched
          (session.performed device).1 (session.performed device).2.journal.warnings.size] :=
    Array.toList_push
  rw [all, journal, List.filterMap_append, Array.toList_appendList, List.filterMap_append, headers]
  simp [finished]

variable {session : Session α β} {device : β} {entries : List (Entry α)}

theorem requests_perform
    (journal : (session.performed device).2.journal =
      ((session.opened device).recordHeaders session.program).journal ++ entries) :
    (session.perform device).1.journal.requests.toList = entries.filterMap Entry.request? := by
  rw [Journal.requests, Array.toList_filterMap]
  exact filterMap_journal session device entries journal (fun _ _ _ => rfl) (fun _ _ => rfl)
    fun _ _ _ _ => rfl

theorem warnings_perform
    (journal : (session.performed device).2.journal =
      ((session.opened device).recordHeaders session.program).journal ++ entries) :
    (session.perform device).1.warnings.toList = entries.filterMap Entry.warning? := by
  rw [Report.warnings, Journal.warnings, Array.toList_filterMap]
  exact filterMap_journal session device entries journal (fun _ _ _ => rfl) (fun _ _ => rfl)
    fun _ _ _ _ => rfl

end Recorded

variable [Device α β] [Device α γ]

omit [Device α γ] in
/-- What an execution tells its device before the first command. -/
theorem calls_recordHeaders (session : Session α β) (device : β) :
    Entry.calls ((session.opened device).recordHeaders session.program).journal.toList =
      Call.ofHeaders (Definitions.headers session.program.blocks) := by
  have calls := Run.calls_recordEach (Definitions.headers session.program.blocks)
    (session.opened device)
  rw [← Run.recordHeaders_eq_recordEach] at calls
  exact calls

/-- What two executions have come to when the headers are recorded. -/
def retelling (session : Session α β) (session' : Session α γ) (one : β) (other : γ) :
    Pairing α β γ :=
  Run.retelling one other ((session.opened one).recordHeaders session.program).journal
    ((session'.opened other).recordHeaders session'.program).journal

section Same

variable {session : Session α β} {session' : Session α γ} {one : β} {other : γ}
  (same : session.program.same session'.program = true)
  (legible : session.program.Legible) (legible' : session'.program.Legible)

include same legible legible'

omit [Arithmetic α] [Device α β] [Device α γ] in
theorem sameHeaders_of_same : SameHeaders (Definitions.headers session.program.blocks)
    (Definitions.headers session'.program.blocks) :=
  Definitions.effectsOn_headers_of_same (Program.same_iff.mp same).2.1 (legible.distinct .block)
    (legible'.distinct .block)

/-- The runs of two programs that are the same, each on its own device, retell each other. -/
theorem agree_performed (settings : session.settings = session'.settings)
    (interchangeable : Device.Interchangeable one other) :
    (retelling session session' one other).Agree (session.performed one)
      (session'.performed other) := by
  have headers := sameHeaders_of_same same legible legible'
  have state : (session.opened one).state = (session'.opened other).state := by
    rw [opened_eq, opened_eq, settings]
    rfl
  have retells := Run.retells_recordEach (session.heeds_opened one) (session'.heeds_opened other)
    state rfl rfl rfl headers
  rw [← Run.recordHeaders_eq_recordEach, ← Run.recordHeaders_eq_recordEach] at retells
  -- the devices may have been told headers in different orders, and answer alike all the same
  have answers : Run.Retells.Answers one other
      ((session.opened one).recordHeaders session.program).journal
      ((session'.opened other).recordHeaders session'.program).journal := by
    intro calls
    rw [calls_recordHeaders, calls_recordHeaders]
    exact interchangeable _ _ headers calls
  have lawful := Run.lawful_retelling session.settings answers
  rw [performed, performed, Run.performProgram, Run.performProgram, ← settings]
  exact lawful.performEntry (Program.paired_of_same same legible.distinct) rfl
    (fun retells => retells.record (.same _) rfl) retells

omit [Device α β] [Device α γ] in
/-- What is told after headers that agree block by block agrees block by block. -/
theorem told_agrees (calls : List (Call α)) (block : String) :
    List.Forall₂ Effect.Agrees
      (effectsOn block (Call.effects
        (Call.ofHeaders (Definitions.headers session.program.blocks) ++ calls)))
      (effectsOn block (Call.effects
        (Call.ofHeaders (Definitions.headers session'.program.blocks) ++ calls))) := by
  rw [Call.effects_append, Call.effects_append, effectsOn_append, effectsOn_append,
    Call.effects_ofHeaders, Call.effects_ofHeaders, effectsOn_map_convert, effectsOn_map_convert]
  refine List.rel_append ?_ (Effect.Agrees.refl_all _)
  rw [List.forall₂_map_left_iff, List.forall₂_map_right_iff]
  exact (sameHeaders_of_same same legible legible' block).imp fun _ _ => .header

omit legible' in
omit [Device α β] [Device α γ] in
/-- With the blocks in one order it agrees as a whole. -/
theorem told_agrees_in_order (calls : List (Call α))
    (order : session.program.blocks.map Definition.name =
      session'.program.blocks.map Definition.name) :
    List.Forall₂ (fun told told' => told.1 = told'.1 ∧ Effect.Agrees told.2 told'.2)
      (Call.effects (Call.ofHeaders (Definitions.headers session.program.blocks) ++ calls))
      (Call.effects (Call.ofHeaders (Definitions.headers session'.program.blocks) ++ calls)) := by
  have headers := Definitions.headers_of_same (Program.same_iff.mp same).2.1
    (legible.distinct .block) order
  rw [Call.effects_append, Call.effects_append, Call.effects_ofHeaders, Call.effects_ofHeaders]
  refine List.rel_append ?_ (List.forall₂_same.mpr fun _ _ => ⟨rfl, .same _⟩)
  rw [List.forall₂_map_left_iff, List.forall₂_map_right_iff]
  exact headers.imp fun _ _ agrees => ⟨agrees.1, .header agrees.2⟩

theorem sameBehaviour_of_same (settings : session.settings = session'.settings)
    (interchangeable : Device.Interchangeable one other) :
    SameBehaviour one other (session.perform one) (session'.perform other) ∧
      (session.program.blocks.map Definition.name = session'.program.blocks.map Definition.name →
        List.Forall₂ (fun told told' => told.1 = told'.1 ∧ Effect.Agrees told.2 told'.2)
          (Call.effects (Entry.calls (session.perform one).1.journal.toList))
          (Call.effects (Entry.calls (session'.perform other).1.journal.toList))) := by
  have agree := agree_performed same legible legible' settings interchangeable
  have retells : Run.Retells one other _ _ (session.performed one).2 (session'.performed other).2 :=
    agree.run
  obtain ⟨calls, asked, asked'⟩ := retells.calls
  obtain ⟨entries, entries', reworded, journal, journal'⟩ := retells.journals
  rw [calls_recordHeaders] at asked asked'
  have phase : (session.perform one).1.phase = (session'.perform other).1.phase := by
    change (if (session.performed one).2.running then Phase.completed else Phase.stopped) =
      if (session'.performed other).2.running then Phase.completed else Phase.stopped
    rw [retells.running]
  have requests : (session.perform one).1.journal.requests =
      (session'.perform other).1.journal.requests := by
    refine Array.toList_inj.mp ?_
    rw [requests_perform journal, requests_perform journal']
    exact Entry.Reworded.filterMap_eq reworded fun same => same.request?
  have warnings : List.Forall₂ Warning.Reworded (session.perform one).1.warnings.toList
      (session'.perform other).1.warnings.toList := by
    rw [warnings_perform journal, warnings_perform journal']
    exact List.rel_filterMap (fun _ _ same => same.warning?) reworded
  refine ⟨?_, ?_⟩
  · exact
      { phase
        duration := agree.duration
        dispatched := dispatched_eq_of_requests_eq requests
        requests
        warnings
        tempo := retells.tempo
        bindings := retells.bindings
        active := retells.active
        effects := retells.effects
        told := by
          rw [calls_perform, calls_perform, asked, asked']
          exact told_agrees same legible legible' calls
        device := by
          rw [calls_perform]
          exact congrArg some retells.heeds.device
        device' := by
          rw [calls_perform]
          exact congrArg some retells.heeds'.device }
  · rw [calls_perform, calls_perform, asked, asked']
    exact told_agrees_in_order same legible calls

end Same

/-- Two sources that are read as the same program behave the same: on devices that are
interchangeable and with the same settings, executions of both make the same requests, take the same
time and leave the same behind. -/
theorem executes_same {session : Session α β} {session' : Session α γ} {one : β} {other : γ}
    (source source' : String) (same : (Program.read source).same (Program.read source') = true)
    (settings : session.settings = session'.settings)
    (attached : session.device = some one) (attached' : session'.device = some other)
    (interchangeable : Device.Interchangeable one other) :
    ∃ result result', (session.read source).execute = .ok result ∧
      (session'.read source').execute = .ok result' ∧ SameBehaviour one other result result' ∧
      ((Program.read source).blocks.map Definition.name =
          (Program.read source').blocks.map Definition.name →
        List.Forall₂ (fun told told' => told.1 = told'.1 ∧ Effect.Agrees told.2 told'.2)
          (Call.effects (Entry.calls result.1.journal.toList))
          (Call.effects (Entry.calls result'.1.journal.toList))) := by
  have sameRead : (session.read source).program.same (session'.read source').program = true := same
  obtain ⟨behaviour, inOrder⟩ := sameBehaviour_of_same sameRead (Program.read_legible source)
    (Program.read_legible source') settings interchangeable
  refine ⟨(session.read source).perform one, (session'.read source').perform other, ?_, ?_,
    behaviour, inOrder⟩
  · exact execute_eq_ok attached
  · exact execute_eq_ok attached'

def song : String :=
  "play verse\nplay chorus\n[verse] (gain -0)\ntone a4\n[end]\n[chorus]\ntone c5 2\n[end]\n"

/-- The chorus comes first, zero has no sign, and commands are on other lines. -/
def rearranged : String :=
  "play verse // and\nplay chorus\n\n[chorus]\n  tone c5 2\n[end]\n" ++
    "[verse] (gain 0)\n  tone a4\n[end]\n"

/-- A device that asks for a stop with the second request. -/
def stopping : Recorder Float := .empty (some 2) fun _ => 440

def stage : Session Float (Recorder Float) := (start .standard).attach stopping

theorem executes_same_rearranged :
    (Program.read song).same (Program.read rearranged) = true ∧
      Device.Interchangeable stopping stopping ∧
      ∃ result result', (stage.read song).execute = .ok result ∧
        (stage.read rearranged).execute = .ok result' ∧
        SameBehaviour stopping stopping result result' := by
  have same : (Program.read song).same (Program.read rearranged) = true := by decide +kernel
  have attached : stage.device = some stopping := rfl
  have interchangeable : Device.Interchangeable stopping stopping :=
    Recorder.interchangeable rfl rfl rfl rfl
  obtain ⟨result, result', executed, executed', behaviour, -⟩ :=
    executes_same song rearranged same (Eq.refl stage.settings) attached attached interchangeable
  exact ⟨same, interchangeable, result, result', executed, executed', behaviour⟩

end Session

end Sequencer
