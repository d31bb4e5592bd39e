import Sequencer.Proofs.Run.Nesting
import Sequencer.Proofs.Run.Sameness

/-! # Runs without their outline

Which blocks have been entered, which definitions are in progress and how many there have been makes
no difference to a command that is performed at once, nor to the first step of any other.
-/

namespace Sequencer

variable {α β : Type}

/-- Whether an entry is about the outline of a program, and not about what is performed. -/
def Entry.outlines : Entry α → Bool
  | .started _ _ _ | .blockEntered _ _ => true
  | _ => false

namespace Run

/-- A run with no outline. -/
def bare (run : Run α β) : Run α β :=
  { run with
    stack := []
    invocations := 0
    refusals := []
    journal := run.journal.filter (!·.outlines) }

theorem requests_bare (run : Run α β) : run.bare.journal.requests = run.journal.requests := by
  rw [bare, Journal.requests, Array.filterMap_filter]
  refine congrArg (Array.filterMap · run.journal) (funext fun entry => ?_)
  cases entry <;> rfl

theorem warnings_bare (run : Run α β) : run.bare.journal.warnings = run.journal.warnings := by
  rw [bare, Journal.warnings, Array.filterMap_filter]
  refine congrArg (Array.filterMap · run.journal) (funext fun entry => ?_)
  cases entry <;> rfl

/-- What a run has done does not depend on the outline. -/
theorem fields_of_bare {run run' : Run α β} (same : run.bare = run'.bare) :
    run.state = run'.state ∧ run.device = run'.device ∧
      run.journal.requests = run'.journal.requests ∧
      run.journal.warnings = run'.journal.warnings := by
  refine ⟨?_, ?_, ?_, ?_⟩
  · have state := congrArg Run.state same
    exact state
  · have device := congrArg Run.device same
    exact device
  · rw [← requests_bare, same, requests_bare]
  · rw [← warnings_bare, same, warnings_bare]

theorem bare_record {run : Run α β} {entry : Entry α} (performed : entry.outlines = false) :
    (run.record entry).bare = run.bare.record entry := by
  rw [bare, record, Array.filter_push_of_pos (by simp [performed]) (by simp)]
  rfl

theorem bare_outline {run : Run α β} {entry : Entry α} (outlines : entry.outlines = true) :
    (run.record entry).bare = run.bare := by
  rw [bare, record, Array.filter_push_of_neg (by simp [outlines]) (by simp)]
  rfl

theorem bare_enter (run : Run α β) (kind : Kind) (name : String) :
    (run.enter kind name).bare = run.bare :=
  rfl

theorem bare_ignoreKeys (run : Run α β) (command : Command) :
    (run.ignoreKeys command).bare = run.bare.ignoreKeys command := by
  rw [ignoreKeys, ignoreKeys]
  induction command.ignoredKeys generalizing run with
  | nil => rfl
  | cons key rest inductionHypothesis =>
    rw [List.foldl_cons, List.foldl_cons, inductionHypothesis, warn, bare_record rfl]
    rfl

theorem waveform_bare (settings : Settings) (run : Run α β) (name : Option String) :
    run.bare.waveform settings name =
      ((run.waveform settings name).1, (run.waveform settings name).2.bare) := by
  cases name with
  | none => rfl
  | some name =>
    rw [waveform, waveform]
    split
    · rfl
    · dsimp only
      rw [warn, warn, bare_record rfl]

section Device

variable [Device α β]

theorem bare_dispatch (run : Run α β) (request : Request α) (duration : α) :
    (run.dispatch request duration).bare = run.bare.dispatch request duration := by
  rw [dispatch, bare_record rfl]
  rfl

theorem bare_recordEffect (run : Run α β) (block : String) (effect : Effect α) :
    (run.recordEffect block effect).bare = run.bare.recordEffect block effect := by
  rw [recordEffect, bare_record rfl]
  rfl

end Device

variable [Arithmetic α]

theorem bare_recordHeaders [Device α β] (program : Program) (run : Run α β) :
    (run.recordHeaders program).bare = run.bare.recordHeaders program := by
  rw [recordHeaders_eq_recordEach, recordHeaders_eq_recordEach]
  exact (List.foldl_hom bare fun run header => (bare_recordEffect run _ _).symm).symm

theorem bare_changeTempo (line : Nat) (bpm offset : α) (run : Run α β) :
    (run.changeTempo line bpm offset).bare = run.bare.changeTempo line bpm offset := by
  rw [changeTempo, changeTempo]
  split
  · rw [bare_record rfl]
    rfl
  · rw [warn, bare_record rfl]
    rfl

end Run

namespace Machine

open Run

variable [Arithmetic α] [Device α β] {program : Program} {settings : Settings}

/-- What waits for an action makes no difference to it. -/
theorem act_of_frames (command : Command) (offset : α) (mix : Mix α) (frames : List (Frame α))
    (run : Run α β) :
    act program settings command offset mix frames run =
      { act program settings command offset mix [] run with frames } := by
  rw [act, act]
  cases command.action with
  | sample arguments =>
    dsimp only
    cases program.customSample? arguments.name <;> rfl
  | loop count names arguments =>
    dsimp only
    split <;> rfl
  | tone | slide | wait | bpm | play | set | effect | invalid | unknown => rfl

/-- The first step of an action, apart from the outline. -/
theorem act_bare (command : Command) (offset : α) (mix : Mix α) (frames : List (Frame α))
    (run : Run α β) :
    act program settings command offset mix frames run.bare =
      { act program settings command offset mix frames run with
        run := (act program settings command offset mix frames run).run.bare } := by
  rw [act, act]
  cases command.action with
  | sample arguments =>
    dsimp only
    cases program.customSample? arguments.name with
    | some customSample => rfl
    | none => exact congrArg (Machine.mk _ _) (bare_dispatch ..).symm
  | tone arguments =>
    dsimp only
    rw [performTone, waveform_bare]
    exact congrArg (Machine.mk _ _) (bare_dispatch ..).symm
  | slide arguments =>
    dsimp only
    rw [performSlide, waveform_bare]
    exact congrArg (Machine.mk _ _) (bare_dispatch ..).symm
  | bpm value => exact congrArg (Machine.mk _ _) (bare_changeTempo ..).symm
  | loop count names arguments =>
    dsimp only
    split
    · rfl
    · exact congrArg (Machine.mk _ _) (bare_record rfl).symm
  | effect effect block => exact congrArg (Machine.mk _ _) (bare_recordEffect ..).symm
  | invalid | unknown => exact congrArg (Machine.mk _ _) (bare_record rfl).symm
  | wait | play | set => rfl

theorem act_of_bare (program : Program) (settings : Settings) {run run' : Run α β}
    (same : run.bare = run'.bare) (command : Command)
    (offset : α) (mix : Mix α) (frames frames' : List (Frame α)) :
    (act program settings command offset mix frames run).task =
        (act program settings command offset mix frames' run').task ∧
      (act program settings command offset mix frames run).run.bare =
        (act program settings command offset mix frames' run').run.bare := by
  have acts : act program settings command offset mix [] run.bare = _ :=
    act_bare command offset mix [] run
  rw [same, act_bare] at acts
  rw [act_of_frames _ _ _ frames, act_of_frames _ _ _ frames']
  injection acts with task _ run
  exact ⟨task.symm, run.symm⟩

end Machine

end Sequencer
