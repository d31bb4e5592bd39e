import Sequencer.Proofs.Run.Call
import Sequencer.Run.Performance

/-! # What every construct keeps

A relation between a run before and after that each primitive change keeps is kept by commands,
definitions and whole programs, whatever they nest. The rest of a proof about one is a structure of
facts about single changes.
-/

namespace Sequencer.Run

variable {α β : Type}

/-- A property that warnings keep holds once ignored keys have been warned of. -/
theorem ignoreKeys_invariant (holds : Run α β → Prop)
    (keeps : ∀ run line verb key, holds run → holds (run.warn (.ignoredParameter line verb key)))
    (command : Command) {run : Run α β} (base : holds run) : holds (run.ignoreKeys command) :=
  List.foldlRecOn command.ignoredKeys _ base fun run before key _ =>
    keeps run command.line command.verb key before

/-- A property that refusals do not touch, and their warnings keep, holds once one has been noted. -/
theorem refuse_invariant (holds : Run α β → Prop) (settings : Settings) (refused : Refused)
    (notes : ∀ run refusals, holds run → holds { run with refusals })
    (warns : ∀ run, holds run → holds (run.warn (refusalWarning settings refused)))
    {run : Run α β} (base : holds run) : holds (run.refuse settings refused) := by
  have noted : holds (run.noteRefusal refused) := by
    rw [noteRefusal]
    split
    · exact base
    · exact notes run _ base
  rw [refuse]
  split
  · exact noted
  · exact warns _ noted

variable [Arithmetic α] [Device α β]

/-- A property that each effect keeps holds once the headers are recorded. -/
theorem recordHeaders_invariant (holds : Run α β → Prop)
    (keeps : ∀ run block effect, holds run → holds (run.recordEffect block effect))
    (program : Program) {run : Run α β} (base : holds run) : holds (run.recordHeaders program) :=
  List.foldlRecOn program.blocks _ base fun _ before block _ =>
    List.foldlRecOn block.effects _ before fun run before effect _ =>
      keeps run block.name (effect.map Arithmetic.ofDouble) before

/-- The single changes that a run consists of. A definition that is entered counts as one of them,
given that what happens within it keeps the relation. -/
structure Kept (settings : Settings) (kept : Run α β → Run α β → Prop) : Prop where
  refl : ∀ run, kept run run
  trans : ∀ {first second third}, kept first second → kept second third → kept first third
  record : ∀ run entry, entry.call? = none → kept run (run.record entry)
  dispatch : ∀ run request duration, kept run (run.dispatch request duration)
  setTempo : ∀ run bpm tempo, Tempo.change? bpm = some tempo → kept run (run.setTempo tempo)
  setVariable : ∀ run name value, kept run (run.setVariable name value)
  recordEffect : ∀ run block effect, kept run (run.recordEffect block effect)
  refuse : ∀ run refused, kept run (run.refuse settings refused)
  enclose : ∀ run kind name after, run.refusal? settings kind name = none →
    kept (run.enter kind name) after → kept run after.leave

namespace Kept

variable {settings : Settings} {kept : Run α β → Run α β → Prop} (keeps : Kept settings kept)

include keeps

theorem warn (run : Run α β) (warning : Warning α) : kept run (run.warn warning) :=
  keeps.record run _ rfl

/-! ## Sequences, fan-outs and loops -/

theorem inSequence {perform : Command → α → Run α β → α × Run α β}
    (each : ∀ command start run, kept run (perform command start run).2) (start : α)
    (commands : List Command) (elapsed : α) (run : Run α β) :
    kept run (inSequence perform start commands elapsed run).2 := by
  induction commands generalizing elapsed run with
  | nil => exact keeps.refl run
  | cons command rest inductionHypothesis =>
    rw [Run.inSequence]
    split
    · exact keeps.trans (each command _ run) (inductionHypothesis _ _)
    · exact keeps.record run _ rfl

theorem atOnce {perform : Command → Run α β → α × Run α β}
    (each : ∀ command run, kept run (perform command run).2) (commands : List Command)
    (run : Run α β) : kept run (atOnce perform commands run) := by
  induction commands generalizing run with
  | nil => exact keeps.refl run
  | cons command rest inductionHypothesis =>
    exact keeps.trans (each command run) (inductionHypothesis _)

theorem together {play : String → Run α β → α × Run α β}
    (each : ∀ name run, kept run (play name run).2) (names : List String) (longest : α)
    (run : Run α β) : kept run (together play names longest run).2 := by
  induction names generalizing longest run with
  | nil => exact keeps.refl run
  | cons name rest inductionHypothesis =>
    exact keeps.trans (each name run) (inductionHypothesis _ _)

theorem repeatedly {play : α → Run α β → α × Run α β}
    (each : ∀ start run, kept run (play start run).2) (start : α) (left done : Nat) (total : α)
    (run : Run α β) : kept run (repeatedly play start left done total run).2 := by
  induction left generalizing done total run with
  | zero => exact keeps.refl run
  | succ left inductionHypothesis =>
    rw [Run.repeatedly]
    dsimp only
    split
    · split
      · exact each _ run
      · exact keeps.trans (each _ run) (inductionHypothesis _ _ _)
    · exact keeps.record run _ rfl

/-! ## Leaves -/

theorem waveform (run : Run α β) (name : Option String) :
    kept run (run.waveform settings name).2 := by
  cases name with
  | none => exact keeps.refl run
  | some name =>
    rw [Run.waveform]
    split
    · exact keeps.refl run
    · exact keeps.warn run _

theorem changeTempo (line : Nat) (bpm offset : α) (run : Run α β) :
    kept run (changeTempo line bpm offset run) := by
  rw [Run.changeTempo]
  split
  · next tempo change => exact keeps.trans (keeps.setTempo run bpm tempo change) (keeps.record _ _ rfl)
  · exact keeps.warn run _

theorem ignoreKeys (command : Command) (run : Run α β) : kept run (ignoreKeys command run) :=
  ignoreKeys_invariant (kept run) (fun after _ _ _ before => keeps.trans before (keeps.warn after _))
    command (keeps.refl run)

/-! ## Commands and definitions -/

variable {program : Program} {invocation : Invocation α β}

theorem playBlock
    (each : ∀ kind definition offset mix run,
      kept run (invocation kind definition offset mix run).2)
    (offset : α) (mix : Mix α) (name : String) (run : Run α β) :
    kept run (playBlock program invocation offset mix name run).2 := by
  rw [Run.playBlock]
  split
  · exact each _ _ _ _ run
  · exact keeps.warn run _

theorem playTogether
    (each : ∀ kind definition offset mix run,
      kept run (invocation kind definition offset mix run).2)
    (names : List String) (offset : α) (mix : Mix α) (run : Run α β) :
    kept run (playTogether program invocation names offset mix run).2 :=
  keeps.together (keeps.playBlock each offset mix) names 0 run

theorem performAction
    (each : ∀ kind definition offset mix run,
      kept run (invocation kind definition offset mix run).2)
    (command : Command) (offset : α) (mix : Mix α) (run : Run α β) :
    kept run (performAction program settings invocation command offset mix run).2 := by
  rw [Run.performAction]
  split
  · split
    · exact each _ _ _ _ run
    · exact keeps.dispatch run _ _
  · exact keeps.trans (keeps.waveform run _) (keeps.dispatch _ _ _)
  · exact keeps.trans (keeps.waveform run _) (keeps.dispatch _ _ _)
  · exact keeps.refl run
  · exact keeps.changeTempo _ _ _ run
  · exact keeps.playTogether each _ _ _ run
  · rw [playLoop]
    split
    · exact keeps.repeatedly (fun start run => keeps.playTogether each _ start _ run) _ _ _ _ run
    · exact keeps.warn run _
  · exact keeps.setVariable run _ _
  · exact keeps.recordEffect run _ _
  · exact keeps.warn run _
  · exact keeps.warn run _

theorem performCommand
    (each : ∀ kind definition offset mix run,
      kept run (invocation kind definition offset mix run).2)
    (command : Command) (offset : α) (mix : Mix α) (run : Run α β) :
    kept run (performCommand program settings invocation command offset mix run).2 :=
  keeps.trans (keeps.ignoreKeys command run) (keeps.performAction each command offset mix _)

theorem performBody
    (each : ∀ kind definition offset mix run,
      kept run (invocation kind definition offset mix run).2)
    (kind : Kind) (definition : Definition) (offset : α) (mix : Mix α) (run : Run α β) :
    kept run (performBody program settings invocation kind definition offset mix run).2 := by
  cases kind with
  | block =>
    exact keeps.trans (keeps.record run _ rfl)
      (keeps.inSequence (fun command start run => keeps.performCommand each command start mix run)
        offset _ 0 _)
  | customSample =>
    exact keeps.trans (keeps.record run _ rfl)
      (keeps.atOnce (fun command run => keeps.performCommand each command offset mix run) _ _)

theorem invoke (program : Program) (room : Nat) (kind : Kind) (definition : Definition)
    (offset : α) (mix : Mix α) (run : Run α β) :
    kept run (invoke program settings room kind definition offset mix run).2 := by
  induction room generalizing kind definition offset mix run with
  | zero =>
    rw [Run.invoke]
    split
    · exact keeps.refuse run _
    · exact keeps.refl run
  | succ room inductionHypothesis =>
    rw [Run.invoke]
    split
    · exact keeps.refuse run _
    · next entered =>
      exact keeps.enclose run kind definition.name _ entered
        (keeps.performBody inductionHypothesis kind definition offset mix _)

/-! ## Whole programs -/

theorem recordHeaders (program : Program) (run : Run α β) : kept run (run.recordHeaders program) :=
  recordHeaders_invariant (kept run)
    (fun after block effect before => keeps.trans before (keeps.recordEffect after block effect))
    program (keeps.refl run)

theorem performEntry (program : Program) (run : Run α β) :
    kept run (performEntry program settings run).2 := by
  have each := keeps.invoke program (room program)
  rw [Run.performEntry]
  split
  · exact keeps.inSequence (fun command start run => keeps.performCommand each command start _ run)
      0 _ 0 run
  · split
    · exact keeps.playTogether each _ 0 _ run
    · exact keeps.record run _ rfl

theorem performProgram (program : Program) (run : Run α β) :
    kept run (performProgram program settings run).2 :=
  keeps.trans (keeps.recordHeaders program run) (keeps.performEntry program _)

end Kept

/-! ## Stack and invocations -/

theorem kept_stack (settings : Settings) :
    Kept settings fun (before after : Run α β) => after.stack = before.stack where
  refl := fun _ => rfl
  trans := fun first second => second.trans first
  record := fun _ _ _ => rfl
  dispatch := fun _ _ _ => rfl
  setTempo := fun _ _ _ _ => rfl
  setVariable := fun _ _ _ => rfl
  recordEffect := fun _ _ _ => rfl
  refuse := fun run refused =>
    refuse_invariant (·.stack = run.stack) settings refused (fun _ _ => id) (fun _ => id) rfl
  enclose := by
    intro run kind name after _ same
    rw [leave, same]
    rfl

theorem kept_invocations (settings : Settings) :
    Kept settings fun (before after : Run α β) => before.invocations ≤ after.invocations where
  refl := fun _ => Nat.le_refl _
  trans := Nat.le_trans
  record := fun _ _ _ => Nat.le_refl _
  dispatch := fun _ _ _ => Nat.le_refl _
  setTempo := fun _ _ _ _ => Nat.le_refl _
  setVariable := fun _ _ _ => Nat.le_refl _
  recordEffect := fun _ _ _ => Nat.le_refl _
  refuse := fun run refused =>
    refuse_invariant (run.invocations ≤ ·.invocations) settings refused (fun _ _ => id) (fun _ => id)
      (Nat.le_refl _)
  enclose := fun _ _ _ _ _ more => Nat.le_of_succ_le more

section Stack

variable (program : Program) (settings : Settings) (room : Nat)

theorem stack_playBlock (offset : α) (mix : Mix α) (name : String) (run : Run α β) :
    (playBlock program (invoke program settings room) offset mix name run).2.stack = run.stack :=
  (kept_stack settings).playBlock ((kept_stack settings).invoke program room) offset mix name run

theorem stack_playTogether (names : List String) (offset : α) (mix : Mix α) (run : Run α β) :
    (playTogether program (invoke program settings room) names offset mix run).2.stack = run.stack :=
  (kept_stack settings).playTogether ((kept_stack settings).invoke program room) names offset mix run

/-- A command leaves the definitions in progress as they were, however much room there is. -/
theorem stack_performCommand (command : Command) (offset : α) (mix : Mix α) (run : Run α β) :
    (performCommand program settings (invoke program settings room) command offset mix run).2.stack =
      run.stack :=
  (kept_stack settings).performCommand ((kept_stack settings).invoke program room) command offset mix
    run

end Stack

end Sequencer.Run
