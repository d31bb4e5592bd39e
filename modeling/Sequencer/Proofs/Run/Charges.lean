import Sequencer.Proofs.Run.Refusals

/-! # What the limit on invocations limits

Each command that is performed is charged to the global commands, or to the invocation that has
entered the definition it is part of. As invocations are limited, so is all that a run does, whatever
it loops and nests.
-/

namespace Sequencer

variable {α β : Type}

namespace Program

/-- How many commands the longest definition has. -/
def longestBody (program : Program) : Nat :=
  ((program.blocks ++ program.customSamples).map (·.commands.length)).max?.getD 0

theorem length_le_longestBody {program : Program} {kind : Kind} {definition : Definition}
    (declared : definition ∈ program.definitions kind) :
    definition.commands.length ≤ program.longestBody := by
  refine List.le_max?_getD_of_mem (List.mem_map_of_mem (List.mem_append.mpr ?_))
  cases kind with
  | block => exact .inl declared
  | customSample => exact .inr declared

end Program

/-! ## Numbers in a journal -/

namespace Journal

/-- How many blocks and custom samples have been entered. -/
def entered (journal : Journal α) : Nat := journal.countP Entry.enters

/-- How many warnings there are that the limit on invocations is reached. -/
def limitWarnings (journal : Journal α) : Nat := journal.warnings.countP Warning.isInvocationLimit

end Journal

namespace Run

theorem countP_tally (run : Run α β) {counted : Entry α → Bool}
    (some : ∀ entry, counted entry = true → entry.isCounted = true) :
    run.tally.countP counted = run.journal.countP counted := by
  rw [tally, List.countP_filter, ← Array.countP_toList]
  refine List.countP_congr fun entry _ => ?_
  rw [Bool.and_eq_true]
  exact ⟨And.left, fun counts => ⟨counts, some entry counts⟩⟩

theorem entered_eq_tally (run : Run α β) :
    run.journal.entered = run.tally.countP Entry.enters :=
  (run.countP_tally fun entry enters => by simp [Entry.isCounted, enters]).symm

theorem requests_eq_tally (run : Run α β) :
    run.journal.requests.size = run.tally.countP Entry.isRequest := by
  rw [run.countP_tally fun entry requests => by simp [Entry.isCounted, requests]]
  rw [Journal.requests, ← Array.length_toList, Array.toList_filterMap,
    List.length_filterMap_eq_countP, Array.countP_toList]
  rfl

theorem limitWarnings_eq_tally (run : Run α β) :
    run.journal.limitWarnings = run.tally.countP Entry.warnsOfLimit := by
  rw [run.countP_tally fun entry warns => by simp [Entry.isCounted, warns]]
  rw [Journal.limitWarnings, Journal.warnings, ← Array.countP_toList, ← Array.countP_toList,
    Array.toList_filterMap, List.countP_filterMap]
  refine List.countP_congr fun entry _ => ?_
  rw [Entry.warnsOfLimit]
  cases entry.warning? <;> simp

/-! ## Refusals among the warnings -/

theorem any_sharesWarning_iff {run : Run α β} {refused : Refused}
    (limit : refused.refusal = .invocationLimit) :
    run.refusals.any refused.sharesWarning = true ↔ run.Notes .invocationLimit := by
  rw [List.any_eq_true]
  refine exists_congr fun earlier => and_congr_right fun _ => ?_
  rw [Refused.sharesWarning, limit]
  cases earlier.refusal <;> simp

theorem tally_noteRefusal (run : Run α β) (refused : Refused) :
    (run.noteRefusal refused).tally = run.tally := by
  rw [noteRefusal]
  split <;> rfl

theorem tally_refuse_limit (settings : Settings) (run : Run α β) {refused : Refused}
    (limit : refused.refusal = .invocationLimit) :
    (run.refuse settings refused).tally =
      if run.Notes .invocationLimit then run.tally
      else run.tally ++ [.warned (.invocationLimit settings.maxInvocations)] := by
  have warning : (refusalWarning settings refused : Warning α) =
      .invocationLimit settings.maxInvocations := by rw [refusalWarning, limit]
  rw [refuse]
  by_cases known : run.Notes .invocationLimit
  · rw [if_pos ((any_sharesWarning_iff limit).mpr known), if_pos known, tally_noteRefusal]
  · rw [if_neg (mt (any_sharesWarning_iff limit).mp known), if_neg known, warning, warn,
      tally_record, tally_noteRefusal]
    rfl

theorem tally_refuse_other (settings : Settings) (run : Run α β) {refused : Refused}
    (other : refused.refusal ≠ .invocationLimit) :
    (run.refuse settings refused).tally = run.tally := by
  rw [refuse]
  split
  · exact tally_noteRefusal run refused
  · rw [warn, tally_record, tally_noteRefusal, refusalWarning]
    cases reason : refused.refusal with
    | invocationLimit => exact absurd reason other
    | reentry | depthLimit => exact List.append_nil _

end Run

/-! ## Charges -/

namespace Machine

open Run

/-- What has been entered, asked for and warned about so far, against the limit. Commands that wait
are charged for like requests, as each of them may turn into one. -/
structure Charged (program : Program) (settings : Settings) (machine : Machine α β) : Prop where
  entered : machine.run.tally.countP Entry.enters = machine.run.invocations
  limited : machine.run.invocations ≤ settings.maxInvocations
  charged : machine.run.tally.countP Entry.isRequest + machine.waiting.length ≤
    program.globals.length + machine.run.invocations * program.longestBody
  warned : machine.run.tally.countP Entry.warnsOfLimit =
    if machine.run.Notes .invocationLimit then 1 else 0
  spent : machine.run.Notes .invocationLimit → settings.maxInvocations ≤ machine.run.invocations
  declared : ∀ kind definition offset mix, machine.task = .invoke kind definition offset mix →
    definition ∈ program.definitions kind

variable {program : Program} {settings : Settings}

/-- Where nothing is entered and nothing is noted, what has been asked for and what waits must not
become more together. -/
theorem Charged.of_counts {before after : Machine α β} (charged : before.Charged program settings)
    (invocations : after.run.invocations = before.run.invocations)
    (notes : after.run.Notes .invocationLimit ↔ before.run.Notes .invocationLimit)
    (entered : after.run.tally.countP Entry.enters = before.run.tally.countP Entry.enters)
    (warned : after.run.tally.countP Entry.warnsOfLimit =
      before.run.tally.countP Entry.warnsOfLimit)
    (fewer : after.run.tally.countP Entry.isRequest + after.waiting.length ≤
      before.run.tally.countP Entry.isRequest + before.waiting.length)
    (declared : ∀ kind definition offset mix, after.task = .invoke kind definition offset mix →
      definition ∈ program.definitions kind) : after.Charged program settings where
  entered := by rw [entered, invocations, charged.entered]
  limited := invocations ▸ charged.limited
  charged := by
    rw [invocations]
    exact Nat.le_trans fewer charged.charged
  warned := by
    simp only [notes]
    rw [warned, charged.warned]
  spent := by
    rw [notes, invocations]
    exact charged.spent
  declared := declared

theorem Charged.of_uncounted {before after : Machine α β} (charged : before.Charged program settings)
    (uncounted : Uncounted before.run after.run)
    (fewer : after.waiting.length ≤ before.waiting.length)
    (declared : ∀ kind definition offset mix, after.task = .invoke kind definition offset mix →
      definition ∈ program.definitions kind) : after.Charged program settings := by
  refine charged.of_counts uncounted.invocations (uncounted.notes _) ?_ ?_ ?_ declared
  · rw [uncounted.tally]
  · rw [uncounted.tally]
  · rw [uncounted.tally]
    exact Nat.add_le_add_left fewer _

/-- A request takes the place of the command that has waited. -/
theorem Charged.request {before after : Machine α β} (charged : before.Charged program settings)
    (counts : CountsRequest before.run after.run) {command : Command}
    (waiting : before.waiting = command :: after.waiting)
    (declared : ∀ kind definition offset mix, after.task = .invoke kind definition offset mix →
      definition ∈ program.definitions kind) : after.Charged program settings := by
  obtain ⟨request, duration, handle, tally⟩ := counts.tally
  refine charged.of_counts counts.invocations (by rw [Notes, Notes, counts.refusals]) ?_ ?_ ?_ declared
  · rw [tally, List.countP_append]
    rfl
  · rw [tally, List.countP_append]
    rfl
  · have one : [Entry.dispatched request duration handle].countP Entry.isRequest = 1 := rfl
    rw [tally, List.countP_append, one, waiting, List.length_cons]
    omega

/-- The commands of a definition are charged to the invocation that enters it. -/
theorem Charged.enter {before after : Machine α β} (charged : before.Charged program settings)
    {kind : Kind} {definition : Definition} {offset : α} {mix : Mix α}
    (task : before.task = .invoke kind definition offset mix)
    (enters : before.run.refusal? settings kind definition.name = none)
    (run : after.run = (before.run.enter kind definition.name).record
      (Machine.entered kind definition offset))
    (waiting : after.waiting = definition.commands ++ before.waiting)
    (declared : ∀ kind definition offset mix, after.task = .invoke kind definition offset mix →
      definition ∈ program.definitions kind) : after.Charged program settings := by
  have tally : after.run.tally = before.run.tally ++ [Machine.entered kind definition offset] := by
    rw [run, tally_record]
    cases kind <;> rfl
  have invocations : after.run.invocations = before.run.invocations + 1 := by
    rw [run]
    rfl
  have notes : after.run.Notes .invocationLimit ↔ before.run.Notes .invocationLimit := by
    rw [run]
    rfl
  refine ⟨?_, ?_, ?_, ?_, ?_, declared⟩
  · rw [tally, List.countP_append, charged.entered, invocations]
    cases kind <;> rfl
  · rw [invocations]
    exact (refusal?_eq_none_iff.mp enters).1
  · have fits := Program.length_le_longestBody (charged.declared kind definition offset mix task)
    have charges := charged.charged
    have quiet : [Machine.entered kind definition offset].countP Entry.isRequest = 0 := by
      cases kind <;> rfl
    rw [tally, List.countP_append, quiet, waiting, List.length_append, invocations, Nat.succ_mul]
    omega
  · simp only [notes]
    rw [tally, List.countP_append, charged.warned]
    cases kind <;> rfl
  · rw [notes, invocations]
    exact fun noted => Nat.le_succ_of_le (charged.spent noted)

theorem Charged.refuse {before after : Machine α β} (charged : before.Charged program settings)
    {refused : Refused}
    (given : before.run.refusal? settings refused.kind refused.name = some refused.refusal)
    (run : after.run = before.run.refuse settings refused) (waiting : after.waiting = before.waiting)
    (declared : ∀ kind definition offset mix, after.task = .invoke kind definition offset mix →
      definition ∈ program.definitions kind) : after.Charged program settings := by
  have invocations : after.run.invocations = before.run.invocations := by
    rw [run]
    exact (refuse_fields settings before.run _).2.2.2
  by_cases limit : refused.refusal = .invocationLimit
  · have noted : after.run.Notes .invocationLimit := by
      rw [run]
      exact notes_refuse.mpr (.inl limit)
    have tally := tally_refuse_limit settings before.run limit
    rw [← run] at tally
    by_cases known : before.run.Notes .invocationLimit
    · rw [if_pos known] at tally
      refine charged.of_counts invocations (iff_of_true noted known) ?_ ?_ ?_ declared
      · rw [tally]
      · rw [tally]
      · rw [tally, waiting]
    · rw [if_neg known] at tally
      refine ⟨?_, invocations ▸ charged.limited, ?_, ?_, fun _ => ?_, declared⟩
      · rw [tally, List.countP_append, charged.entered, invocations]
        rfl
      · have charges := charged.charged
        rw [tally, List.countP_append, waiting, invocations]
        exact charges
      · rw [tally, List.countP_append, charged.warned, if_neg known, if_pos noted]
        rfl
      · rw [invocations]
        exact refusal?_eq_invocationLimit_iff.mp (limit ▸ given)
  · have tally := tally_refuse_other settings before.run limit
    rw [← run] at tally
    refine charged.of_counts invocations ?_ ?_ ?_ ?_ declared
    · rw [run, notes_refuse]
      exact or_iff_right limit
    · rw [tally]
    · rw [tally]
    · rw [tally, waiting]

variable [Arithmetic α] [Device α β]

/-- What a step is about to invoke has been found in the program. -/
theorem declared_of_step {before after : Machine α β} (steps : Steps program settings before after)
    {kind : Kind} {definition : Definition} {offset : α} {mix : Mix α}
    (task : after.task = .invoke kind definition offset mix) :
    definition ∈ program.definitions kind := by
  cases steps.move with
  | command =>
    obtain ⟨rfl, _, found⟩ := customSample_of_act task
    exact List.mem_of_find?_eq_some found
  | blockFound _ _ _ _ found =>
    cases task
    exact List.mem_of_find?_eq_some found
  | @entered kind => cases kind <;> cases task
  | resumed _ frame => cases frame <;> cases task
  | sequenceEnd | sequenceNext | sequenceLeft | atOnceEnd | atOnceNext | blockMissing | togetherEnd
  | togetherNext | loopEnd | loopNext | loopLeft | refused => cases task

theorem Charged.step {before after : Machine α β} (charged : before.Charged program settings)
    (steps : Steps program settings before after) : after.Charged program settings := by
  have declared : ∀ kind definition offset mix, after.task = .invoke kind definition offset mix →
      definition ∈ program.definitions kind := fun _ _ _ _ => declared_of_step steps
  cases counts_of_step steps with
  | still uncounted waiting => exact charged.of_uncounted uncounted (by rw [waiting]) declared
  | left commands uncounted _ waiting =>
    exact charged.of_uncounted uncounted (by simp [waiting]) declared
  | performed _ uncounted waiting =>
    exact charged.of_uncounted uncounted (by simp [waiting]) declared
  | requested _ counts waiting => exact charged.request counts waiting declared
  | entered task enters run waiting => exact charged.enter task enters run waiting declared
  | refused task given run waiting => exact charged.refuse given run waiting declared

/-! ## Whole runs -/

theorem waiting_start_le (program : Program) (run : Run α β) :
    (start program run).waiting.length ≤ program.globals.length := by
  rw [waiting, start_frames]
  rcases start_task_cases program run with task | task | task <;> simp [task, Task.commands]

/-- A run that starts with nothing counted is charged to the global commands. -/
theorem charged_start (program : Program) (settings : Settings) {run : Run α β}
    (nothing : run.tally = []) (first : run.invocations = 0) (fresh : run.refusals = []) :
    (start program run).Charged program settings := by
  have uncounted := uncounted_start program run
  have tally := uncounted.tally.trans nothing
  have invocations := uncounted.invocations.trans first
  have unnoted : ¬ (start program run).run.Notes .invocationLimit := by
    simp [Notes, uncounted.refusals, fresh]
  refine ⟨?_, ?_, ?_, ?_, fun noted => absurd noted unnoted, ?_⟩
  · rw [tally, invocations]
    rfl
  · rw [invocations]
    exact Nat.zero_le _
  · have waits := waiting_start_le program run
    rw [tally, invocations, List.countP_nil]
    omega
  · rw [tally, if_neg unnoted]
    rfl
  · rcases start_task_cases program run with task | task | task <;> simp [task]

end Machine

end Sequencer
