import Sequencer.Proofs.Run.Tally

/-! # Refusals and the moments they go back to

A run notes a refusal exactly if there is a moment at which a definition is refused for that reason,
so that what has happened in a run can be read off its end: `notes_iff`.
-/

namespace Sequencer

variable {α β : Type}

namespace Run

section Reasons

variable {settings : Settings} {run : Run α β} {kind : Kind} {name : String}

theorem refusal?_eq_invocationLimit_iff :
    run.refusal? settings kind name = some .invocationLimit ↔
      settings.maxInvocations ≤ run.invocations := by
  rw [refusal?]
  split
  · simp_all
  · split
    · simp_all
    · split <;> simp_all

theorem refusal?_eq_reentry_iff :
    run.refusal? settings kind name = some .reentry ↔
      run.invocations < settings.maxInvocations ∧ (kind, name) ∈ run.stack := by
  rw [refusal?]
  split
  · simp_all
  · split
    · simp_all
    · split <;> simp_all

theorem refusal?_eq_depthLimit_iff :
    run.refusal? settings kind name = some .depthLimit ↔
      run.invocations < settings.maxInvocations ∧ (kind, name) ∉ run.stack ∧
        settings.maxDepth ≤ run.stack.length := by
  rw [refusal?]
  split
  · simp_all
  · split
    · simp_all
    · split <;> simp_all

end Reasons

/-- Some definition has been refused for this reason. -/
def Notes (run : Run α β) (refusal : Refusal) : Prop :=
  ∃ refused ∈ run.refusals, refused.refusal = refusal

instance instDecidableNotes (run : Run α β) (refusal : Refusal) : Decidable (run.Notes refusal) :=
  inferInstanceAs (Decidable (∃ refused ∈ run.refusals, refused.refusal = refusal))

theorem Uncounted.notes {before after : Run α β} (uncounted : Uncounted before after)
    (refusal : Refusal) : after.Notes refusal ↔ before.Notes refusal := by
  rw [Notes, Notes, uncounted.refusals]

theorem mem_refuse_iff {settings : Settings} {run : Run α β} {refused earlier : Refused} :
    earlier ∈ (run.refuse settings refused).refusals ↔ earlier = refused ∨ earlier ∈ run.refusals := by
  rw [refusals_refuse, noteRefusal]
  split
  · next known =>
    have member : refused ∈ run.refusals := List.contains_iff_mem.mp known
    exact ⟨Or.inr, fun either => either.elim (fun same => same ▸ member) id⟩
  · exact List.mem_cons

theorem notes_refuse {settings : Settings} {run : Run α β} {refused : Refused} {refusal : Refusal} :
    (run.refuse settings refused).Notes refusal ↔ refused.refusal = refusal ∨ run.Notes refusal := by
  simp only [Notes, mem_refuse_iff]
  constructor
  · rintro ⟨earlier, rfl | member, reason⟩
    · exact .inl reason
    · exact .inr ⟨earlier, member, reason⟩
  · rintro (reason | ⟨earlier, member, reason⟩)
    · exact ⟨refused, .inl rfl, reason⟩
    · exact ⟨earlier, .inr member, reason⟩

end Run

namespace Machine

open Run

/-- The next step refuses a definition for this reason. -/
def Refuses (settings : Settings) (refusal : Refusal) (machine : Machine α β) : Prop :=
  ∃ kind definition offset mix, machine.task = .invoke kind definition offset mix ∧
    machine.run.refusal? settings kind definition.name = some refusal

variable [Arithmetic α] [Device α β] {program : Program} {settings : Settings} {refusal : Refusal}

theorem Refuses.steps (program : Program) {machine : Machine α β}
    (refuses : machine.Refuses settings refusal) :
    ∃ refused : Refused, refused.refusal = refusal ∧
      Steps program settings machine
        (finish machine.frames (0, machine.run.refuse settings refused)) := by
  obtain ⟨task, frames, run⟩ := machine
  obtain ⟨kind, definition, offset, mix, rfl, given⟩ := refuses
  exact ⟨_, rfl, (Move.refused offset mix frames given).steps⟩

/-- New reasons are noted by steps that refuse something, and by no others. -/
theorem notes_of_step {before after : Machine α β} (steps : Steps program settings before after) :
    after.run.Notes refusal ↔ before.run.Notes refusal ∨ before.Refuses settings refusal := by
  constructor
  · intro noted
    cases counts_of_step steps with
    | still uncounted | left _ uncounted | performed _ uncounted =>
      exact .inl ((uncounted.notes refusal).mp noted)
    | requested _ counts =>
      rw [Notes, counts.refusals] at noted
      exact .inl noted
    | entered _ _ run =>
      rw [run] at noted
      exact .inl noted
    | refused task given run =>
      rw [run, notes_refuse] at noted
      rcases noted with rfl | earlier
      · exact .inr ⟨_, _, _, _, task, given⟩
      · exact .inl earlier
  · rintro (noted | refuses)
    · cases counts_of_step steps with
      | still uncounted | left _ uncounted | performed _ uncounted =>
        exact (uncounted.notes refusal).mpr noted
      | requested _ counts =>
        rw [Notes, counts.refusals]
        exact noted
      | entered _ _ run =>
        rw [run]
        exact noted
      | refused _ _ run =>
        rw [run, notes_refuse]
        exact .inr noted
    · obtain ⟨refused, reason, refusing⟩ := refuses.steps program
      obtain rfl := steps.unique refusing
      exact notes_refuse.mpr (.inl reason)

theorem Reaches.notes {first last : Machine α β} (reaches : Reaches program settings first last)
    (noted : first.run.Notes refusal) : last.run.Notes refusal :=
  reaches.invariant (fun machine => machine.run.Notes refusal) noted
    fun before steps => (notes_of_step steps).mpr (.inl before)

/-- What is noted at the end of a run that has started with no refusals. -/
theorem notes_iff {first last : Machine α β} (reaches : Reaches program settings first last)
    (final : last.step? program settings = none) (fresh : first.run.refusals = []) :
    last.run.Notes refusal ↔
      ∃ moment, Reaches program settings first moment ∧ moment.Refuses settings refusal := by
  constructor
  · intro noted
    have unnoted : ¬ first.run.Notes refusal := by simp [Notes, fresh]
    obtain ⟨before, after, path, silent, steps, loud, -⟩ :=
      reaches.exit (fun machine => ¬ machine.run.Notes refusal) unnoted (not_not_intro noted)
    have refuses := ((notes_of_step steps).mp (not_not.mp loud)).resolve_left silent
    exact ⟨before, path.reaches, refuses⟩
  · rintro ⟨moment, toMoment, refuses⟩
    obtain ⟨refused, reason, steps⟩ := refuses.steps program
    have later := reaches.of_last final (toMoment.tail steps)
    exact later.notes (notes_refuse.mpr (.inl reason))

/-! ## Starting -/

theorem uncounted_start (program : Program) (run : Run α β) :
    Uncounted run (start program run).run :=
  start_invariant (Uncounted run)
    (fun after block effect before => before.trans (.recordEffect after block effect))
    (fun _ before => before.trans (.record _ rfl)) program (.refl run)

end Machine

end Sequencer
