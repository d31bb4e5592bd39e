import Sequencer.Proofs.Run.Effects
import Sequencer.Proofs.Session.Execution

/-! # Effects are inert

Executions of programs that differ in effects differ in the recorded effects, and in nothing else.
-/

namespace Sequencer.Session

variable {α β : Type}

/-- What is reported of the same sounds, and what is left behind but for effects. -/
structure SameButForEffects (result result' : Report α × Session α β) : Prop where
  phase : result.1.phase = result'.1.phase
  duration : result.1.duration = result'.1.duration
  dispatched : result.1.dispatched = result'.1.dispatched
  requests : result.1.journal.requests = result'.1.journal.requests
  warnings : result.1.warnings = result'.1.warnings
  journal : result.1.journal.withoutEffects = result'.1.journal.withoutEffects
  state : result'.2.state = { result.2.state with effects := result'.2.state.effects }

theorem sameButForEffects_closed [Device α β] {device : β} {session session' : Session α β}
    {result result' : α × Run α β} (duration : result.1 = result'.1)
    (counted : result.2.Counted) (counted' : result'.2.Counted)
    (equal : Run.EqualButForEffects device result.2 result'.2) :
    SameButForEffects (session.closed result) (session'.closed result') := by
  have requests : result.2.journal.requests = result'.2.journal.requests := by
    rw [← Array.toList_inj, ← Journal.requests_withoutEffects, ← Journal.requests_withoutEffects,
      equal.journal]
  have dispatched : result.2.dispatched = result'.2.dispatched :=
    counted.trans ((congrArg Array.size requests).trans counted'.symm)
  have warnings : result.2.journal.warnings = result'.2.journal.warnings := by
    rw [← Array.toList_inj, ← Journal.warnings_withoutEffects, ← Journal.warnings_withoutEffects,
      equal.journal]
  refine
    { phase := congrArg (fun running : Bool => if running then Phase.completed else .stopped)
        equal.abreast.running
      duration
      dispatched
      requests := ?_
      warnings := ?_
      journal := ?_
      state := State.eq_with_effects equal.state }
  · rw [requests_closed, requests_closed, requests]
  · rw [warnings_closed, warnings_closed, warnings]
  · rw [closed, closed, Journal.withoutEffects_push, Journal.withoutEffects_push, equal.journal,
      equal.abreast.running, dispatched, warnings, duration]

variable [Arithmetic α] [Device α β] {session : Session α β} {device : β} {program : Program}

theorem abreast_opened (session : Session α β) (device : β) (program : Program) :
    Run.Abreast device (session.opened device) ((session.load program).opened device) where
  heeds := session.heeds_opened device
  heeds' := (session.load program).heeds_opened device
  state := rfl
  stack := rfl
  invocations := rfl
  refusals := rfl

theorem equal_opened (retouched : session.program.Retouched program) :
    Run.EqualButForEffects device (session.opened device) ((session.load program).opened device) :=
  { session.abreast_opened device program with
    journal := by
      have globals := retouched.globals.length_eq
      have blocks := (retouched.definitions .block).length_eq
      have customSamples := (retouched.definitions .customSample).length_eq
      have opening : opening session.program = (opening program : Entry α) := by
        rw [Session.opening, Session.opening, globals]
        exact congrArg₂ (Entry.started _) blocks customSamples
      rw [opened_eq, opened_eq, Session.load, opening] }

/-- Changing the effects of a program, those in the headers of blocks and those of its commands,
leaves an execution as it was: the same requests with the same handles, the same duration, the same
warnings, and the same tempo, variables and active handles at the end. Only the recorded effects are
others. -/
theorem executes_the_same_retouched [Arithmetic.LawfulZero α] (attached : session.device = some device)
    (deaf : Device.Deaf device) (retouched : session.program.Retouched program) :
    ∃ result result', session.execute = .ok result ∧ (session.load program).execute = .ok result' ∧
      SameButForEffects result result' := by
  have fresh : Run.EqualButForEffects device (session.opened device)
      ((session.load program).opened device) := equal_opened retouched
  have opened := fresh.recordHeaders session.program program
  have lawful := Correspondence.lawful_butForEffects deaf retouched session.settings
  have start := lawful.start retouched.globals (fun _ => trivial) rfl opened (opened.record rfl)
  have agree := lawful.reaches start (session.reaches_performed device)
    ((session.load program).reaches_performed device) (fun _ _ => ⟨trivial, fun _ _ => trivial⟩)
    (fun _ _ => trivial)
  have attached' : (session.load program).device = some device := attached
  exact ⟨session.perform device, (session.load program).perform device, execute_eq_ok attached,
    execute_eq_ok attached', sameButForEffects_closed agree.duration (session.counted_performed device)
      ((session.load program).counted_performed device) agree.run⟩

/-- A verse with effects in its header, after a command that records another one. -/
def hymn (command : List String) (effects : List (Effect Float)) : Program where
  globals := [.ofWords 1 ["set", "wet", "0.5"], .ofWords 2 command, .ofWords 3 ["play", "verse"]]
  blocks := [{ name := "verse", commands := [.ofWords 5 ["tone", "440", "2"]], effects }]
  customSamples := []
  irregularities := []

def dry : Program := hymn ["effect", "none", "nowhere"] []

def wet : Program :=
  hymn ["effect", "reverb", "verse", "wet", "size=2"] [{ kind := "echo", parameters := [] }]

theorem retouched_hymn : dry.Retouched wet where
  globals := .cons (.same _) (.cons (.effect rfl rfl rfl) (.cons (.same _) .nil))
  definitions := by
    intro kind
    cases kind with
    | block => exact .cons ⟨rfl, .cons (.same _) .nil⟩ .nil
    | customSample => exact .nil

def chapel : Session Float (Timeline Float) := ((start .standard).attach .empty).load dry

theorem executes_the_same_retouched_hymn :
    Device.Deaf (Timeline.empty : Timeline Float) ∧ chapel.program.Retouched wet ∧
      ∃ result result', chapel.execute = .ok result ∧ (chapel.load wet).execute = .ok result' ∧
        SameButForEffects result result' ∧ result.2.state.effects.length = 1 ∧
        (result'.2.state.effectsOf "verse").length = 2 := by
  have attached : chapel.device = some .empty := rfl
  have deaf : Device.Deaf (Timeline.empty : Timeline Float) := Timeline.deaf _
  obtain ⟨result, result', executes, executes', same⟩ :=
    executes_the_same_retouched attached deaf retouched_hymn
  obtain rfl := eq_perform_of_execute rfl executes
  obtain rfl := eq_perform_of_execute rfl executes'
  exact ⟨deaf, retouched_hymn, _, _, executes, executes', same, by decide +kernel, by decide +kernel⟩

end Sequencer.Session
