import Sequencer.Proofs.Run.Nesting
import Sequencer.Proofs.Run.Refusals

/-! # Limits that do not act

As long as a run refuses definitions for no other reason than that they are in progress already,
wider limits would have changed nothing. The depth is no limit where it leaves room for all
definitions of a program at once, since those in progress are different ones.
-/

namespace Sequencer

/-- Settings that differ in the limits only, and allow no less. -/
structure Settings.Widens (settings wider : Settings) : Prop where
  same : wider =
    { settings with maxDepth := wider.maxDepth, maxInvocations := wider.maxInvocations }
  maxDepth : settings.maxDepth ≤ wider.maxDepth
  maxInvocations : settings.maxInvocations ≤ wider.maxInvocations

variable {α β : Type}

namespace Run

variable {settings wider : Settings}

/-- The limit on invocations comes first and the depth last, so that what is in between does not
depend on them. -/
theorem refusal?_widens (widens : settings.Widens wider) {run : Run α β} {kind : Kind} {name : String}
    (unlimited : ∀ refusal, run.refusal? settings kind name = some refusal → refusal = .reentry) :
    run.refusal? wider kind name = run.refusal? settings kind name := by
  obtain ⟨-, deeper, more⟩ := widens
  cases given : run.refusal? settings kind name with
  | none =>
    obtain ⟨below, fresh, shallow⟩ := refusal?_eq_none_iff.mp given
    exact refusal?_eq_none_iff.mpr
      ⟨Nat.lt_of_lt_of_le below more, fresh, Nat.lt_of_lt_of_le shallow deeper⟩
  | some refusal =>
    obtain rfl := unlimited refusal given
    obtain ⟨below, inProgress⟩ := refusal?_eq_reentry_iff.mp given
    exact refusal?_eq_reentry_iff.mpr ⟨Nat.lt_of_lt_of_le below more, inProgress⟩

/-- What is said about a definition in progress does not mention the limits. -/
theorem refuse_reentry (settings wider : Settings) (run : Run α β) {refused : Refused}
    (reentry : refused.refusal = .reentry) :
    run.refuse wider refused = run.refuse settings refused := by
  simp only [refuse, refusalWarning, reentry]

end Run

namespace Machine

open Run

variable {program : Program} {settings wider : Settings}

/-- With room for all definitions the depth is never reached: it would take all of them to be in
progress, and the next one besides. -/
theorem Bounded.not_refuses {machine : Machine α β} (bounded : machine.Bounded program settings)
    (deep : room program ≤ settings.maxDepth) : ¬ machine.Refuses settings .depthLimit := by
  rintro ⟨kind, definition, offset, mix, task, given⟩
  obtain ⟨-, fresh, reached⟩ := refusal?_eq_depthLimit_iff.mp given
  have declared := bounded.next kind definition offset mix task
  have all : ((kind, definition.name) :: machine.run.stack).length ≤ program.keys.length :=
    (List.subperm_of_subset (List.nodup_cons.mpr ⟨fresh, bounded.distinct⟩)
      (List.cons_subset.mpr ⟨declared, bounded.declared⟩)).length_le
  rw [program.length_keys, List.length_cons] at all
  omega

variable [Arithmetic α] [Device α β]

theorem act_widens (widens : settings.Widens wider) (command : Command) (offset : α) (mix : Mix α)
    (frames : List (Frame α)) (run : Run α β) :
    act program wider command offset mix frames run =
      act program settings command offset mix frames run := by
  rw [widens.same]
  rfl

theorem Steps.widens (widens : settings.Widens wider) {before after : Machine α β}
    (unlimited : ∀ refusal, before.Refuses settings refusal → refusal = .reentry)
    (steps : Steps program settings before after) : Steps program wider before after := by
  cases steps.move with
  | command command offset mix frames run =>
    rw [← act_widens widens]
    exact (Move.command command offset mix frames run).steps
  | refused offset mix frames given =>
    have reentry := unlimited _ ⟨_, _, _, _, rfl, given⟩
    have same := refusal?_widens widens fun refusal other =>
      unlimited refusal ⟨_, _, _, _, rfl, other⟩
    rw [← refuse_reentry settings wider _ reentry]
    exact (Move.refused offset mix frames (same.trans given)).steps
  | entered offset mix frames enters =>
    have same := refusal?_widens widens fun refusal other =>
      unlimited refusal ⟨_, _, _, _, rfl, other⟩
    exact (Move.entered offset mix frames (same.trans enters)).steps
  | sequenceEnd | sequenceNext | sequenceLeft | atOnceEnd | atOnceNext | blockFound | blockMissing
  | togetherEnd | togetherNext | loopEnd | loopNext | loopLeft | resumed => exact steps

theorem Reaches.widens (widens : settings.Widens wider) {first last : Machine α β}
    (reaches : Reaches program settings first last)
    (unlimited : ∀ moment, Reaches program settings first moment →
      ∀ refusal, moment.Refuses settings refusal → refusal = .reentry) :
    Reaches program wider first last := by
  induction reaches with
  | refl => exact .refl
  | tail before steps inductionHypothesis =>
    exact inductionHypothesis.tail (steps.widens widens (unlimited _ before))

theorem performProgram_widens [Arithmetic.LawfulZero α] (widens : settings.Widens wider)
    {run : Run α β}
    (unlimited : ∀ moment, Reaches program settings (start program run) moment →
      ∀ refusal, moment.Refuses settings refusal → refusal = .reentry) :
    performProgram program wider run = performProgram program settings run :=
  (reaches_end program wider run).end_unique
    ((reaches_end program settings run).widens widens unlimited)

end Machine

end Sequencer
