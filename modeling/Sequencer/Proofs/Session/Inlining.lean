import Sequencer.Proofs.Run.Inlining
import Sequencer.Proofs.Session.Exhaustion

/-! # Executions of programs with a block inlined

With exact arithmetic a command that plays a block can be replaced by the commands of the block, as
long as nothing stops the execution and nothing is refused: `executes_the_same_inlined`.
-/

namespace Sequencer.Session

variable {β : Type} [Device ℚ β] {session : Session ℚ β} {device : β} {program : Program}

theorem undisturbed_of_completed (completed : (session.perform device).1.completed = true)
    (admitted : ∀ refusal, ¬ session.Refuses device refusal) :
    (Machine.start session.program (session.opened device)).Undisturbed session.program
      session.settings := by
  intro moment reaches
  refine ⟨?_, fun refusal refuses => admitted refusal ⟨moment, reaches, refuses⟩⟩
  rw [perform_eq_closed] at completed
  have toEnd := Machine.Reaches.of_last (session.reaches_performed device) rfl reaches
  exact Machine.running_of_reaches toEnd (running_of_completed completed)

/-- The results with both programs are the same but for the outline. -/
theorem performed_inlined (inlined : session.program.Inlined program)
    (completed : (session.perform device).1.completed = true)
    (admitted : ∀ refusal, ¬ session.Refuses device refusal) :
    ((session.load program).performed device).1 = (session.performed device).1 ∧
      ((session.load program).performed device).2.bare = (session.performed device).2.bare := by
  -- only the entry that tells how long the programs are is different at the start
  have bare : (session.opened device).bare = ((session.load program).opened device).bare := rfl
  have beat : 0 ≤ (session.opened device).state.tempo.beat := Tempo.exact_beat_start_nonneg _
  obtain ⟨result, reaches, same⟩ := (Machine.inlines_start inlined bare).ends inlined
    (undisturbed_of_completed completed admitted) (Machine.timely_start beat session.program)
    (session.reaches_performed device)
  obtain rfl := ((session.load program).reaches_performed device).end_unique reaches
  exact same

/-- If one command that plays a block is replaced by the commands of the block, an execution that is
not stopped and refuses nothing makes the same requests in the same order and takes the same time,
with the same warnings. It leaves the same state, which is to say tempo, variables and effects, and
the same device. -/
theorem executes_the_same_inlined (attached : session.device = some device)
    (once : session.program.InlinedOnce program)
    (completed : (session.perform device).1.completed = true)
    (admitted : ∀ refusal, ¬ session.Refuses device refusal) :
    ∃ report after report', session.execute = .ok (report, after) ∧
      (session.load program).execute = .ok (report', { after with program }) ∧
      report'.journal.requests = report.journal.requests ∧ report'.duration = report.duration ∧
      report'.warnings = report.warnings ∧ report'.phase = report.phase := by
  obtain ⟨duration, bare⟩ := performed_inlined once.inlined completed admitted
  obtain ⟨state, device', requests, warnings⟩ := Run.fields_of_bare bare
  have phase : ((session.load program).perform device).1.phase =
      (session.perform device).1.phase := by
    rw [perform_eq_closed, perform_eq_closed, closed, closed, Run.running, Run.running, state]
  have after : ((session.load program).perform device).2 =
      { (session.perform device).2 with program } := by
    rw [perform_eq_closed, perform_eq_closed, closed, closed, Run.running, Run.running, state, device']
    rfl
  have attached' : (session.load program).device = some device := attached
  refine ⟨(session.perform device).1, (session.perform device).2,
    ((session.load program).perform device).1, execute_eq_ok attached, ?_, ?_, duration, ?_, phase⟩
  · rw [execute_eq_ok attached', ← after]
  · rw [perform_eq_closed, perform_eq_closed, requests_closed, requests_closed, requests]
  · rw [perform_eq_closed, perform_eq_closed, warnings_closed, warnings_closed, warnings]

/-- It ends in another tempo than it starts with. -/
def riff : Definition :=
  { name := "riff"
    commands := [.ofWords 5 ["slide", "a4", "c5", "2"], .ofWords 6 ["bpm", "90"]]
    effects := [] }

/-- A loop of a verse, for which there is a riff to play. -/
def verses (verse : List Command) : Program :=
  { globals := [.ofWords 1 ["loop", "2", "verse"]]
    blocks := [{ name := "verse", commands := verse, effects := [] }, riff]
    customSamples := []
    irregularities := [] }

def playing : List Command := [.ofWords 2 ["play", "riff"], .ofWords 3 ["wait", "1"]]

def inlining : List Command := riff.commands ++ [.ofWords 3 ["wait", "1"]]

def ofVerses : Session ℚ (Timeline ℚ) :=
  ((start .standard).attach .empty).load (verses playing)

/-- The slide comes twice, and the second time in the other tempo. -/
theorem executes_the_same_inlined_riff :
    ofVerses.program.InlinedOnce (verses inlining) ∧
      (ofVerses.perform .empty).1.completed = true ∧
      (∀ refusal, ¬ ofVerses.Refuses .empty refusal) ∧
      ∃ report after report', ofVerses.execute = .ok (report, after) ∧ report.dispatched = 2 ∧
        (ofVerses.load (verses inlining)).execute =
          .ok (report', { after with program := verses inlining }) ∧
        report'.journal.requests = report.journal.requests ∧ report'.duration = report.duration ∧
        report'.warnings = report.warnings ∧ report'.phase = report.phase := by
  have once : ofVerses.program.InlinedOnce (verses inlining) := by
    have blocks : (verses playing).blocks =
        [] ++ { name := "verse", commands := playing, effects := [] } :: [riff] := rfl
    have host : playing = [] ++ .ofWords 2 ["play", "riff"] :: [.ofWords 3 ["wait", "1"]] := rfl
    exact .block blocks host ⟨rfl, by decide +kernel⟩ rfl (List.cons_ne_nil _ _)
  have completed : (ofVerses.perform .empty).1.completed = true := by decide +kernel
  have admitted : ∀ refusal, ¬ ofVerses.Refuses .empty refusal := by
    intro refusal
    cases refusal <;> decide +kernel
  obtain ⟨report, after, report', executes, same⟩ :=
    executes_the_same_inlined rfl once completed admitted
  obtain rfl := congrArg Prod.fst (eq_perform_of_execute rfl executes)
  exact ⟨once, completed, admitted, _, after, report', executes, by decide +kernel, same⟩

end Sequencer.Session
