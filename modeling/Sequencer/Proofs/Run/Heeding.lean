import Sequencer.Proofs.Run.Stack

/-! # What a run asks of its device

A device is at every moment what the calls in the journal have made of it, and the flag is lowered
only by a request with which the device has asked for a stop. The count of requests is that of the
requests in the journal.
-/

namespace Sequencer

variable {α β : Type}

theorem Entry.calls_append (first second : List (Entry α)) :
    calls (first ++ second) = calls first ++ calls second :=
  List.filterMap_append

theorem Entry.calls_push (journal : Journal α) (entry : Entry α) :
    calls (journal.push entry).toList = calls journal.toList ++ (call? entry).toList := by
  rw [Array.toList_push, calls_append]
  refine congrArg _ ?_
  cases noted : call? entry <;> simp [calls, noted]

/-- An entry that asks nothing of a device is no request. -/
theorem Entry.request?_of_plain {entry : Entry α} (plain : entry.call? = none) :
    entry.request? = none := by
  cases entry <;> first | rfl | cases plain

theorem Journal.requests_push (journal : Journal α) (entry : Entry α) :
    (requests (journal.push entry)).toList = journal.requests.toList ++ entry.request?.toList := by
  rw [requests, requests, Array.toList_filterMap, Array.toList_push, List.filterMap_append,
    Array.toList_filterMap]
  cases made : entry.request? <;> simp [made]

theorem Journal.warnings_push (journal : Journal α) (entry : Entry α) :
    (warnings (journal.push entry)).toList = journal.warnings.toList ++ entry.warning?.toList := by
  rw [warnings, warnings, Array.toList_filterMap, Array.toList_push, List.filterMap_append,
    Array.toList_filterMap]
  cases told : entry.warning? <;> simp [told]

section Device

variable [Device α β]

theorem Call.replay_append (device : β) (first second : List (Call α)) :
    replay device (first ++ second) = replay (replay device first) second :=
  List.foldl_append

/-- The device asks for a stop with none of these calls. -/
def Device.Quiet (device : β) (calls : List (Call α)) : Prop :=
  ∀ front request rest, calls = front ++ .schedule request :: rest →
    (Device.schedule (Call.replay device front) request).stop = false

theorem Device.quiet_nil (device : β) : Device.Quiet device [] :=
  fun _ _ _ same => by simp at same

/-- No stop among the calls is none among the earlier ones, and none with the last. -/
theorem Device.quiet_append_schedule_iff {device : β} {calls : List (Call α)} {request : Request α} :
    Device.Quiet device (calls ++ [.schedule request]) ↔
      Device.Quiet device calls ∧ (Device.schedule (Call.replay device calls) request).stop = false := by
  constructor
  · intro quiet
    exact ⟨fun front earlier rest same => quiet front earlier (rest ++ [.schedule request]) (by simp [same]),
      quiet calls request [] rfl⟩
  · rintro ⟨quiet, now⟩ front earlier rest same
    rcases List.eq_nil_or_concat rest with rfl | ⟨rest, last, rfl⟩
    · obtain ⟨rfl, one⟩ := List.append_inj' same rfl
      obtain rfl := Call.schedule.inj (List.singleton_inj.mp one)
      exact now
    · rw [List.concat_eq_append, ← List.cons_append, ← List.append_assoc] at same
      exact quiet front earlier rest (List.append_inj' same rfl).1

/-- A device that is told of an effect cannot ask for a stop. -/
theorem Device.quiet_append_addEffect_iff {device : β} {calls : List (Call α)} {block : String}
    {effect : Effect α} :
    Device.Quiet device (calls ++ [.addEffect block effect]) ↔ Device.Quiet device calls := by
  constructor
  · intro quiet front earlier rest same
    exact quiet front earlier (rest ++ [.addEffect block effect]) (by simp [same])
  · intro quiet front earlier rest same
    rcases List.eq_nil_or_concat rest with rfl | ⟨rest, last, rfl⟩
    · obtain ⟨-, one⟩ := List.append_inj' same rfl
      cases one
    · rw [List.concat_eq_append, ← List.cons_append, ← List.append_assoc] at same
      exact quiet front earlier rest (List.append_inj' same rfl).1

end Device

namespace Run

/-- The calls that a run has made. -/
def calls (run : Run α β) : List (Call α) := Entry.calls run.journal.toList

theorem calls_record (run : Run α β) (entry : Entry α) :
    (run.record entry).calls = run.calls ++ entry.call?.toList :=
  Entry.calls_push run.journal entry

theorem calls_record_of_plain (run : Run α β) {entry : Entry α} (plain : entry.call? = none) :
    (run.record entry).calls = run.calls := by
  rw [calls_record, plain, Option.toList_none, List.append_nil]

variable [Device α β]

theorem calls_dispatch (run : Run α β) (request : Request α) (duration : α) :
    (run.dispatch request duration).calls = run.calls ++ [.schedule request] :=
  calls_record _ _

theorem calls_recordEffect (run : Run α β) (block : String) (effect : Effect α) :
    (run.recordEffect block effect).calls = run.calls ++ [.addEffect block effect] :=
  calls_record _ _

/-- A run whose device has become what it is by the calls, with the flag raised as long as the device
has not asked for a stop. -/
structure Heeds (origin : β) (run : Run α β) : Prop where
  device : run.device = Call.replay origin run.calls
  running : run.running = true ↔ Device.Quiet origin run.calls

theorem Heeds.record {origin : β} {run : Run α β} (heeds : run.Heeds origin) {entry : Entry α}
    (plain : entry.call? = none) : (run.record entry).Heeds origin := by
  refine ⟨?_, ?_⟩
  · rw [calls_record_of_plain run plain]
    exact heeds.device
  · rw [calls_record_of_plain run plain]
    exact heeds.running

theorem Heeds.dispatch {origin : β} {run : Run α β} (heeds : run.Heeds origin)
    (request : Request α) (duration : α) : (run.dispatch request duration).Heeds origin := by
  refine ⟨?_, ?_⟩
  · rw [calls_dispatch, Call.replay_append, ← heeds.device]
    rfl
  · rw [calls_dispatch, Device.quiet_append_schedule_iff, ← heeds.running, ← heeds.device]
    change (run.state.running && !(Device.schedule run.device request).stop) = true ↔ _
    rw [Bool.and_eq_true, Bool.not_eq_true']
    rfl

theorem Heeds.recordEffect {origin : β} {run : Run α β} (heeds : run.Heeds origin)
    (block : String) (effect : Effect α) : (run.recordEffect block effect).Heeds origin := by
  refine ⟨?_, ?_⟩
  · rw [calls_recordEffect, Call.replay_append, ← heeds.device]
    rfl
  · rw [calls_recordEffect, Device.quiet_append_addEffect_iff]
    exact heeds.running

variable [Arithmetic α]

theorem kept_heeds (settings : Settings) (origin : β) :
    Kept settings fun (before after : Run α β) => before.Heeds origin → after.Heeds origin where
  refl := fun _ => id
  trans := fun first second heeds => second (first heeds)
  record := fun _ _ plain heeds => heeds.record plain
  dispatch := fun _ request duration heeds => heeds.dispatch request duration
  setTempo := fun _ _ _ _ heeds => ⟨heeds.device, heeds.running⟩
  setVariable := fun _ _ _ heeds => ⟨heeds.device, heeds.running⟩
  recordEffect := fun _ block effect heeds => heeds.recordEffect block effect
  refuse := fun _ refused heeds =>
    refuse_invariant (Heeds origin) settings refused
      (fun _ _ before => ⟨before.device, before.running⟩) (fun _ before => before.record rfl) heeds
  enclose := by
    intro run kind name after _ within heeds
    have after := within ⟨heeds.device, heeds.running⟩
    exact ⟨after.device, after.running⟩

/-- The requests that have been counted are those in the journal. -/
def Counted (run : Run α β) : Prop := run.dispatched = run.journal.requests.size

omit [Device α β] [Arithmetic α] in
theorem Counted.record {run : Run α β} (counted : run.Counted) {entry : Entry α}
    (quiet : entry.request? = none) : (run.record entry).Counted :=
  counted.trans (congrArg Array.size (Array.filterMap_push_none quiet (Array.size_push _))).symm

omit [Arithmetic α] in
theorem Counted.dispatch {run : Run α β} (counted : run.Counted) (request : Request α)
    (duration : α) : (run.dispatch request duration).Counted := by
  have pushed := Journal.requests_push run.journal
    (.dispatched request duration (Device.schedule run.device request).handle)
  have size := congrArg List.length pushed
  rw [Array.length_toList, List.length_append, Array.length_toList, ← counted] at size
  exact size.symm

omit [Arithmetic α] in
theorem Counted.recordEffect {run : Run α β} (counted : run.Counted) (block : String)
    (effect : Effect α) : (run.recordEffect block effect).Counted := by
  rw [Run.recordEffect]
  exact Counted.record counted rfl

theorem kept_counted (settings : Settings) :
    Kept settings fun (before after : Run α β) => before.Counted → after.Counted where
  refl := fun _ => id
  trans := fun first second counted => second (first counted)
  record := fun _ _ plain counted => counted.record (Entry.request?_of_plain plain)
  dispatch := fun _ request duration counted => counted.dispatch request duration
  setTempo := fun _ _ _ _ => id
  setVariable := fun _ _ _ => id
  recordEffect := fun _ block effect counted => counted.recordEffect block effect
  refuse := fun _ refused counted =>
    refuse_invariant Counted settings refused (fun _ _ => id) (fun _ before => before.record rfl)
      counted
  enclose := fun _ _ _ _ _ within => within

/-- A flag that is raised has been raised all along. -/
theorem kept_running (settings : Settings) :
    Kept settings fun (before after : Run α β) => after.running = true → before.running = true where
  refl := fun _ => id
  trans := fun first second running => first (second running)
  record := fun _ _ _ => id
  dispatch := fun _ _ _ running => (Bool.and_eq_true_iff.mp running).1
  setTempo := fun _ _ _ _ => id
  setVariable := fun _ _ _ => id
  recordEffect := fun _ _ _ => id
  refuse := fun run refused =>
    refuse_invariant (fun after => after.running = true → run.running = true) settings refused
      (fun _ _ => id) (fun _ => id) id
  enclose := fun _ _ _ _ _ within => within

end Run

namespace Machine

variable [Arithmetic α] [Device α β] {program : Program} {settings : Settings}

/-- A step keeps what single changes keep, given that entering and leaving keep it. -/
theorem kept_step {kept : Run α β → Run α β → Prop} (keeps : Run.Kept settings kept)
    (entering : ∀ run kind name, kept run (run.enter kind name))
    (leaving : ∀ run, kept run run.leave) {before after : Machine α β}
    (steps : Steps program settings before after) : kept before.run after.run := by
  cases steps.move with
  | command command offset mix frames run =>
    exact keeps.trans (keeps.ignoreKeys command run) (kept_act keeps command offset mix frames _)
  | sequenceLeft | blockMissing | loopLeft => exact keeps.record _ _ rfl
  | refused => exact keeps.refuse _ _
  | entered offset mix frames =>
    exact keeps.trans (entering _ _ _) (keeps.record _ _ (by cases ‹Kind› <;> rfl))
  | resumed duration frame frames run =>
    cases frame with
    | leave => exact leaving run
    | sequence | atOnce | together | loop => exact keeps.refl run
  | sequenceEnd | sequenceNext | atOnceEnd | atOnceNext | blockFound | togetherEnd | togetherNext
  | loopEnd | loopNext => exact keeps.refl _

theorem heeds_step {origin : β} {before after : Machine α β}
    (steps : Steps program settings before after) (heeds : before.run.Heeds origin) :
    after.run.Heeds origin :=
  kept_step (Run.kept_heeds settings origin) (fun _ _ _ heeds => ⟨heeds.device, heeds.running⟩)
    (fun _ heeds => ⟨heeds.device, heeds.running⟩) steps heeds

theorem heeds_start {origin : β} {run : Run α β} (heeds : run.Heeds origin) (program : Program) :
    (start program run).run.Heeds origin :=
  start_invariant (Run.Heeds origin) (fun _ block effect before => before.recordEffect block effect)
    (fun _ before => before.record rfl) program heeds

theorem running_step {before after : Machine α β} (steps : Steps program settings before after)
    (running : after.run.running = true) : before.run.running = true :=
  kept_step (Run.kept_running settings) (fun _ _ _ => id) (fun _ => id) steps running

theorem running_of_reaches {first last : Machine α β} (reaches : Reaches program settings first last)
    (running : last.run.running = true) : first.run.running = true := by
  induction reaches with
  | refl => exact running
  | tail _ steps inductionHypothesis => exact inductionHypothesis (running_step steps running)

end Machine

end Sequencer
