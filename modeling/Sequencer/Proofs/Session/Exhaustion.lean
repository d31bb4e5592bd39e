import Sequencer.Proofs.Run.Exhaustion
import Sequencer.Proofs.Session.Limits

/-! # What the limit on invocations means for an execution

The limit bounds how many definitions are entered and how many requests are made. Once it has acted,
what is still to come is known: nothing more is entered, commands that play definitions pass by, and
the others go on: `executes_within_limit`.
-/

namespace Sequencer

variable {α β : Type}

namespace Report

def entered (report : Report α) : Nat := report.journal.entered

def limitWarnings (report : Report α) : Nat := report.journal.limitWarnings

end Report

namespace Session

/-- What a report says if an invocation is refused for the limit at a moment, and what the commands
do that are performed from then on. -/
structure ExhaustedAt [Arithmetic α] [Device α β] (session : Session α β) (report : Report α)
    (moment : Machine α β) : Prop where
  entered : report.entered = moment.run.journal.entered
  warned : report.limitWarnings = 1
  /-- Unless there is a stop, all the leaves that wait at the moment make their requests. -/
  dispatched : report.completed = true → report.dispatched =
    moment.run.journal.requests.size + moment.waiting.countP session.program.requests
  commands : ∀ later command offset mix,
    Machine.Reaches session.program session.settings moment later →
    later.task = .command command offset mix →
    let result := Run.performCommand session.program session.settings
      (Run.invoke session.program session.settings (Run.room session.program)) command offset mix
      later.run
    Machine.Reaches session.program session.settings later (Machine.finish later.frames result) ∧
      (session.program.invokes command = true → result.1 = 0 ∧ Run.Unmoved later.run result.2) ∧
      (session.program.requests command = true →
        result.2.journal.requests.size = later.run.journal.requests.size + 1)

section Closing

variable (session : Session α β) (result : α × Run α β)

theorem entered_closed :
    (session.closed result).1.entered = result.2.journal.entered := by
  rw [Report.entered, Journal.entered, closed, Array.countP_push]
  rfl

theorem limitWarnings_closed :
    (session.closed result).1.limitWarnings = result.2.journal.limitWarnings :=
  congrArg (Array.countP Warning.isInvocationLimit) (session.warnings_closed result)

variable {session result} in
theorem running_of_completed (completed : (session.closed result).1.completed = true) :
    result.2.running = true := by
  cases running : result.2.running with
  | true => rfl
  | false => simp [Report.completed, closed, running] at completed

end Closing

theorem charged_of_reaches [Arithmetic α] [Device α β] {session : Session α β} {device : β}
    {moment : Machine α β} (reaches : session.Reaches device moment) :
    moment.Charged session.program session.settings :=
  Machine.Reaches.invariant reaches (Machine.Charged session.program session.settings)
    (Machine.charged_start session.program session.settings rfl rfl rfl)
    fun before steps => before.step steps

theorem exhaustedAt {β : Type} [Device Float β] {session : Session Float β} {device : β}
    {moment : Machine Float β} (reaches : session.Reaches device moment)
    (refuses : moment.Refuses session.settings .invocationLimit) :
    session.ExhaustedAt (session.perform device).1 moment := by
  have toEnd := session.reaches_performed device
  have charged := charged_of_reaches reaches
  have chargedEnd := charged_of_reaches toEnd
  have rest := Machine.Reaches.of_last toEnd rfl reaches
  obtain ⟨kind, definition, offset, mix, task, given⟩ := id refuses
  have spent := Run.refusal?_eq_invocationLimit_iff.mp given
  rw [perform_eq_closed]
  refine ⟨?_, ?_, fun completed => ?_, ?_⟩
  · -- as much is entered as the limit allows already
    have more := rest.invocations_le
    rw [entered_closed, Run.entered_eq_tally, Run.entered_eq_tally, charged.entered]
    exact chargedEnd.entered.trans
      (Nat.le_antisymm (Nat.le_trans chargedEnd.limited spent) more)
  · have noted := (session.refuses_iff device .invocationLimit).mp ⟨moment, reaches, refuses⟩
    rw [limitWarnings_closed, Run.limitWarnings_eq_tally]
    exact chargedEnd.warned.trans (if_pos noted)
  · have owed := rest.owed spent (running_of_completed completed)
    change (session.performed device).2.dispatched = _
    rw [session.counted_performed device, Run.requests_eq_tally, Run.requests_eq_tally]
    exact owed
  · rintro ⟨_, frames, run⟩ command offset mix later rfl
    have spentLater := Nat.le_trans spent later.invocations_le
    refine ⟨Machine.completes_anywhere _ _ command offset mix run frames, fun invokes => ?_,
      fun requests => ?_⟩
    · have passes := Run.passes_performCommand (Run.room session.program) spentLater invokes offset mix
      exact ⟨passes.duration, passes.unmoved⟩
    · obtain ⟨request, duration, handle, tally⟩ :=
        (Run.CountsRequest.performCommand requests session.settings _ offset mix run).tally
      rw [Run.requests_eq_tally, tally, Run.requests_eq_tally, List.countP_append]
      rfl

/-- No execution enters more definitions than the limit allows, or makes more requests than there are
global commands and commands in as many definitions as the limit allows, all as long as the longest.
From the moment at which the limit refuses an invocation nothing more is entered; commands that play,
loop or invoke custom samples take no time and ask for nothing; leaves make their requests as ever;
and one warning tells of it. -/
theorem executes_within_limit {β : Type} [Device Float β] {session : Session Float β} {device : β}
    (attached : session.device = some device) :
    ∃ report after, session.execute = .ok (report, after) ∧
      report.entered ≤ session.settings.maxInvocations ∧
      report.dispatched ≤ session.program.globals.length +
        session.settings.maxInvocations * session.program.longestBody ∧
      ∀ moment, session.Reaches device moment →
        moment.Refuses session.settings .invocationLimit → session.ExhaustedAt report moment := by
  have charged := charged_of_reaches (session.reaches_performed device)
  refine ⟨(session.perform device).1, (session.perform device).2, execute_eq_ok attached, ?_, ?_,
    fun moment reaches refuses => exhaustedAt reaches refuses⟩
  · rw [perform_eq_closed, entered_closed, Run.entered_eq_tally]
    exact Nat.le_trans charged.entered.le charged.limited
  · have most : (session.performed device).2.invocations * session.program.longestBody ≤
        session.settings.maxInvocations * session.program.longestBody :=
      Nat.mul_le_mul_right _ charged.limited
    change (session.performed device).2.dispatched ≤ _
    rw [session.counted_performed device, Run.requests_eq_tally]
    exact Nat.le_trans (Nat.le_trans (Nat.le_add_right _ _) charged.charged)
      (Nat.add_le_add_left most _)

/-- A block is looped more often than it may be invoked, and a sample comes after it. -/
def looped : Session Float (Timeline Float) :=
  ((start { Settings.standard with maxInvocations := 2 }).attach .empty).read
    "loop 3 hit\nsample kick\n[hit]\nsample hat\n[end]\n"

/-- The third turn is refused when the sample still waits. -/
theorem executes_within_limit_looped :
    looped.device = some .empty ∧ looped.Refuses .empty .invocationLimit ∧
      ∃ report after, looped.execute = .ok (report, after) ∧ report.entered = 2 ∧
        report.dispatched = 3 ∧
        report.dispatched ≤ looped.program.globals.length + 2 * looped.program.longestBody ∧
        ∃ moment, looped.Reaches .empty moment ∧ looped.ExhaustedAt report moment := by
  have refuses : looped.Refuses .empty .invocationLimit := by decide +kernel
  have attached : looped.device = some .empty := rfl
  obtain ⟨report, after, executes, -, bounded, exhausted⟩ := executes_within_limit attached
  obtain rfl := congrArg Prod.fst (eq_perform_of_execute attached executes)
  obtain ⟨moment, reaches, refused⟩ := id refuses
  exact ⟨attached, refuses, _, after, executes, by decide +kernel, by decide +kernel, bounded, moment,
    reaches, exhausted moment reaches refused⟩

end Session

end Sequencer
