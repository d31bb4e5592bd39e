import Sequencer.Proofs.Run.Limits
import Sequencer.Proofs.Session.Execution

/-! # Executions under wider limits

An execution that refuses definitions for no other reason than that they are in progress is the same
under wider limits, and a depth that all definitions of a program fit in is never a reason:
`executes_the_same_under_wider_limits`.
-/

namespace Sequencer.Session

variable {α β : Type} [Arithmetic α] [Device α β]

/-- At some moment of an execution a definition is refused for this reason. -/
def Refuses (session : Session α β) (device : β) (refusal : Refusal) : Prop :=
  ∃ moment, session.Reaches device moment ∧ moment.Refuses session.settings refusal

theorem refuses_iff [Arithmetic.LawfulZero α] (session : Session α β) (device : β)
    (refusal : Refusal) :
    session.Refuses device refusal ↔ (session.performed device).2.Notes refusal :=
  (Machine.notes_iff (session.reaches_performed device) rfl
    (Machine.uncounted_start session.program (session.opened device)).refusals).symm

instance instDecidableRefuses [Arithmetic.LawfulZero α] (session : Session α β) (device : β)
    (refusal : Refusal) : Decidable (session.Refuses device refusal) :=
  decidable_of_iff _ (session.refuses_iff device refusal).symm

theorem bounded_of_reaches {session : Session α β} {device : β} {moment : Machine α β}
    (reaches : session.Reaches device moment) :
    moment.Bounded session.program session.settings :=
  Machine.Reaches.invariant reaches (Machine.Bounded session.program session.settings)
    (Machine.bounded_start _ _ _ device _) fun before steps => before.step steps

/-- A session with other settings. -/
def withSettings (session : Session α β) (settings : Settings) : Session α β :=
  { session with settings }

/-- An execution whose refusals are all of definitions in progress gives the same report under wider
limits, and leaves the same device, state and phase. Where the depth leaves room for all definitions
of the program, no execution refuses anything for the depth. -/
theorem executes_the_same_under_wider_limits {β : Type} [Device Float β] (session : Session Float β) :
    (∀ wider device, session.device = some device → session.settings.Widens wider →
      (∀ refusal, session.Refuses device refusal → refusal = .reentry) →
      ∃ report after, session.execute = .ok (report, after) ∧
        (session.withSettings wider).execute = .ok (report, after.withSettings wider)) ∧
    (Run.room session.program ≤ session.settings.maxDepth →
      ∀ device, ¬ session.Refuses device .depthLimit) := by
  refine ⟨fun wider device attached widens unlimited => ?_, fun deep device refuses => ?_⟩
  · have fresh : (session.withSettings wider).opened device = session.opened device := by
      rw [withSettings, widens.same]
      rfl
    have same : (session.withSettings wider).performed device = session.performed device := by
      rw [performed, fresh]
      exact Machine.performProgram_widens widens fun moment reaches refusal refuses =>
        unlimited refusal ⟨moment, reaches, refuses⟩
    have performs : (session.withSettings wider).perform device =
        ((session.perform device).1, (session.perform device).2.withSettings wider) := by
      rw [perform_eq_closed, same]
      rfl
    refine ⟨(session.perform device).1, (session.perform device).2, execute_eq_ok attached, ?_⟩
    have attached' : (session.withSettings wider).device = some device := attached
    rw [execute_eq_ok attached', performs]
  · obtain ⟨moment, reaches, refused⟩ := refuses
    exact (bounded_of_reaches reaches).not_refuses deep refused

/-- A block that plays itself, within limits that leave no room to spare. -/
def tight : Session Float (Timeline Float) :=
  ((start { Settings.standard with maxDepth := 1, maxInvocations := 2 }).attach .empty).read
    "play a\n[a]\nsample kick\nplay a\n[end]\n"

theorem executes_the_same_under_wider_limits_tight :
    tight.settings.Widens .standard ∧ tight.Refuses .empty .reentry ∧
      (∃ report after, tight.execute = .ok (report, after) ∧ report.dispatched = 1 ∧
        (tight.withSettings .standard).execute = .ok (report, after.withSettings .standard)) ∧
      Run.room tight.program ≤ tight.settings.maxDepth ∧ ¬ tight.Refuses .empty .depthLimit := by
  have widens : tight.settings.Widens .standard := ⟨rfl, by decide, by decide⟩
  have unlimited : ∀ refusal, tight.Refuses .empty refusal → refusal = .reentry := by
    intro refusal refuses
    cases refusal with
    | reentry => rfl
    | invocationLimit => exact absurd refuses (by decide +kernel)
    | depthLimit => exact absurd refuses (by decide +kernel)
  have fits : Run.room tight.program ≤ tight.settings.maxDepth := by decide +kernel
  obtain ⟨transparent, deep⟩ := executes_the_same_under_wider_limits tight
  obtain ⟨report, after, executes, executesWider⟩ :=
    transparent .standard .empty rfl widens unlimited
  obtain rfl := congrArg Prod.fst (eq_perform_of_execute rfl executes)
  exact ⟨widens, by decide +kernel, ⟨_, after, executes, by decide +kernel, executesWider⟩, fits,
    deep fits .empty⟩

end Sequencer.Session
