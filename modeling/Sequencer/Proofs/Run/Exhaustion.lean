import Sequencer.Proofs.Run.Charges
import Sequencer.Proofs.Run.Heeding
import Sequencer.Proofs.Run.Unmoved

/-! # With all invocations used up

Once the limit on invocations is reached, commands that would have definitions performed pass by in
silence and take no time. The others that still wait go on as ever, so that the requests to come can
be counted beforehand.
-/

namespace Sequencer

open Run

variable {α β : Type}

namespace Machine

variable [Arithmetic α] [Device α β] {program : Program} {settings : Settings}

theorem Reaches.invocations_le {first last : Machine α β}
    (reaches : Reaches program settings first last) :
    first.run.invocations ≤ last.run.invocations :=
  reaches.invariant (fun machine => first.run.invocations ≤ machine.run.invocations) (Nat.le_refl _)
    fun before steps => Nat.le_trans before
      (kept_step (kept_invocations settings) (fun _ _ _ => Nat.le_succ _) (fun _ => Nat.le_refl _) steps)

/-- Requests that have been made, and commands that wait and will make one each. -/
def owed (program : Program) (machine : Machine α β) : Nat :=
  machine.run.tally.countP Entry.isRequest + machine.waiting.countP program.requests

/-- Nothing is added to what is owed where nothing can be entered, and nothing is left out unless the
flag is lowered. -/
theorem owed_of_step {before after : Machine α β} (steps : Steps program settings before after)
    (spent : settings.maxInvocations ≤ before.run.invocations)
    (running : before.run.running = true) : after.owed program = before.owed program := by
  rw [owed, owed]
  cases counts_of_step steps with
  | still uncounted waiting => rw [uncounted.tally, waiting]
  | left _ _ stopped => exact absurd running (by simp [stopped])
  | performed quiet uncounted waiting =>
    rw [uncounted.tally, waiting, List.countP_cons_of_neg (by simp [quiet])]
  | requested requests counts waiting =>
    obtain ⟨request, duration, handle, tally⟩ := counts.tally
    have one : [Entry.dispatched request duration handle].countP Entry.isRequest = 1 := rfl
    rw [tally, List.countP_append, one, waiting, List.countP_cons_of_pos requests]
    omega
  | entered _ enters => exact absurd (refusal?_eq_none_iff.mp enters).1 (Nat.not_lt.mpr spent)
  | @refused kind definition _ _ refusal _ given run waiting =>
    have limit : refusal = .invocationLimit :=
      Option.some.inj (given.symm.trans (refusal?_eq_invocationLimit_iff.mpr spent))
    rw [run, tally_refuse_limit settings _ limit, waiting]
    split
    · rfl
    · rw [List.countP_append]
      rfl

theorem Reaches.owed {first last : Machine α β} (reaches : Reaches program settings first last)
    (spent : settings.maxInvocations ≤ first.run.invocations)
    (running : last.run.running = true) : last.owed program = first.owed program := by
  induction reaches with
  | refl => rfl
  | tail path steps inductionHypothesis =>
    have before := running_step steps running
    rw [owed_of_step steps (Nat.le_trans spent (Reaches.invocations_le path)) before]
    exact inductionHypothesis before

end Machine

/-! ## Commands -/

namespace Run

/-- Something passes by: it takes no time, and nothing is moved or entered. -/
structure Passes (run : Run Float β) (result : Float × Run Float β) : Prop where
  duration : result.1 = 0
  unmoved : Unmoved run result.2
  invocations : result.2.invocations = run.invocations

theorem Passes.trans {run middle : Run Float β} {result : Float × Run Float β} {duration : Float}
    (first : run.Passes (duration, middle)) (second : middle.Passes result) : run.Passes result :=
  ⟨second.duration, first.unmoved.trans second.unmoved, second.invocations.trans first.invocations⟩

theorem Passes.record (run : Run Float β) {entry : Entry Float} (quiet : entry.request? = none) :
    run.Passes (0, run.record entry) :=
  ⟨rfl, .record run quiet, rfl⟩

variable [Device Float β] (program : Program) {settings : Settings} (room : Nat) {run : Run Float β}

theorem passes_invoke (spent : settings.maxInvocations ≤ run.invocations) (kind : Kind)
    (definition : Definition) (offset : Float) (mix : Mix Float) :
    run.Passes (invoke program settings room kind definition offset mix run) := by
  rw [invoke_refused (refusal?_eq_invocationLimit_iff.mpr spent)]
  exact ⟨rfl, .refuse settings run _, (refuse_fields settings run _).2.2.2⟩

theorem passes_playBlock (spent : settings.maxInvocations ≤ run.invocations) (offset : Float)
    (mix : Mix Float) (name : String) :
    run.Passes (playBlock program (invoke program settings room) offset mix name run) := by
  rw [playBlock]
  split
  · exact passes_invoke program room spent ..
  · exact .record run rfl

theorem passes_playTogether (spent : settings.maxInvocations ≤ run.invocations)
    (names : List String) (offset : Float) (mix : Mix Float) :
    run.Passes (playTogether program (invoke program settings room) names offset mix run) := by
  rw [playTogether]
  induction names generalizing run with
  | nil => exact ⟨rfl, .refl run, rfl⟩
  | cons name rest inductionHypothesis =>
    have first := passes_playBlock program room spent offset mix name
    rw [together]
    dsimp only
    rw [first.duration, Arithmetic.LawfulZero.larger_zero]
    exact first.trans (inductionHypothesis (first.invocations ▸ spent))

omit [Device Float β] in
/-- A loop has turns that pass by, and the first one is the last. -/
theorem passes_repeatedly {play : Float → Run Float β → Float × Run Float β}
    (passes : ∀ start, run.Passes (play start run)) (start : Float) (left done : Nat) :
    run.Passes (repeatedly play start left done 0 run) := by
  cases left with
  | zero => exact ⟨rfl, .refl run, rfl⟩
  | succ left =>
    rw [repeatedly]
    split
    · have turn := passes (start + 0)
      dsimp only
      rw [if_pos turn.invocations, turn.duration]
      exact ⟨(Number.add_zero_eq 0).elim id id, turn.unmoved, turn.invocations⟩
    · exact .record run rfl

variable {program} in
theorem passes_performCommand (spent : settings.maxInvocations ≤ run.invocations) {command : Command}
    (invokes : program.invokes command = true) (offset : Float) (mix : Mix Float) :
    run.Passes
      (performCommand program settings (invoke program settings room) command offset mix run) := by
  have keys : run.Passes (0, run.ignoreKeys command) :=
    ⟨rfl, .ignoreKeys run command, (Uncounted.ignoreKeys command run).invocations⟩
  have spentStill : settings.maxInvocations ≤ (run.ignoreKeys command).invocations :=
    keys.invocations ▸ spent
  rw [performCommand]
  refine keys.trans ?_
  rw [Program.invokes] at invokes
  rw [performAction]
  cases action : command.action with
  | sample arguments =>
    rw [action] at invokes
    obtain ⟨customSample, found⟩ := Option.isSome_iff_exists.mp invokes
    dsimp only
    rw [found]
    exact passes_invoke program room spentStill ..
  | play names arguments => exact passes_playTogether program room spentStill ..
  | loop count names arguments =>
    dsimp only
    rw [playLoop]
    split
    · exact passes_repeatedly (fun start => passes_playTogether program room spentStill ..) ..
    · exact .record _ rfl
  | tone | slide | wait | bpm | set | effect | invalid | unknown => simp [action] at invokes

end Run

end Sequencer
