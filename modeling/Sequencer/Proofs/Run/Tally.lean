import Sequencer.Proofs.Run.Nesting

/-! # What is counted in a run

Three kinds of entries in a journal are counted: definitions that are entered, requests, and the
warning that there have been too many invocations. `counts_of_step` says what a step does to them,
to the commands that wait, and to the refusals; whatever is counted over a run is counted by it.
-/

namespace Sequencer

variable {α β : Type}

/-! ## Entries -/

/-- Whether a block or a custom sample is entered. -/
def Entry.enters : Entry α → Bool
  | .blockEntered _ _ | .customSampleEntered _ _ _ => true
  | _ => false

def Warning.isInvocationLimit : Warning α → Bool
  | .invocationLimit _ => true
  | _ => false

def Entry.warnsOfLimit (entry : Entry α) : Bool := entry.warning?.any Warning.isInvocationLimit

def Entry.isRequest (entry : Entry α) : Bool := entry.request?.isSome

def Entry.isCounted (entry : Entry α) : Bool :=
  entry.enters || entry.isRequest || entry.warnsOfLimit

namespace Run

/-- The entries of a run that are counted. -/
def tally (run : Run α β) : List (Entry α) := run.journal.toList.filter Entry.isCounted

theorem tally_record (run : Run α β) (entry : Entry α) :
    (run.record entry).tally = run.tally ++ [entry].filter Entry.isCounted := by
  rw [tally, record, Array.toList_push, List.filter_append]
  rfl

/-- Nothing happens that is counted, and nothing is entered or refused. -/
structure Uncounted (before after : Run α β) : Prop where
  tally : after.tally = before.tally
  invocations : after.invocations = before.invocations
  refusals : after.refusals = before.refusals

namespace Uncounted

theorem refl (run : Run α β) : Uncounted run run := ⟨rfl, rfl, rfl⟩

theorem trans {first second third : Run α β} (left : Uncounted first second)
    (right : Uncounted second third) : Uncounted first third :=
  ⟨right.tally.trans left.tally, right.invocations.trans left.invocations,
    right.refusals.trans left.refusals⟩

theorem record (run : Run α β) {entry : Entry α} (plain : entry.isCounted = false) :
    Uncounted run (run.record entry) := by
  refine ⟨?_, rfl, rfl⟩
  rw [tally_record, List.filter_singleton, plain]
  exact List.append_nil _

theorem ignoreKeys (command : Command) (run : Run α β) :
    Uncounted run (run.ignoreKeys command) :=
  ignoreKeys_invariant (Uncounted run) (fun after _ _ _ before => before.trans (.record after rfl))
    command (.refl run)

theorem waveform (settings : Settings) (run : Run α β) (name : Option String) :
    Uncounted run (run.waveform settings name).2 := by
  cases name with
  | none => exact .refl run
  | some name =>
    rw [Run.waveform]
    split
    · exact .refl run
    · exact .record run rfl

theorem changeTempo [Arithmetic α] (line : Nat) (bpm offset : α) (run : Run α β) :
    Uncounted run (run.changeTempo line bpm offset) := by
  rw [Run.changeTempo]
  split
  · exact ⟨(record (run.setTempo _) rfl).tally, rfl, rfl⟩
  · exact record run rfl

theorem recordEffect [Device α β] (run : Run α β) (block : String) (effect : Effect α) :
    Uncounted run (run.recordEffect block effect) := by
  refine ⟨?_, rfl, rfl⟩
  rw [Run.recordEffect, tally_record]
  exact List.append_nil _

end Uncounted

/-- One request is made, and nothing is entered or refused. -/
structure CountsRequest (before after : Run α β) : Prop where
  tally : ∃ request duration handle,
    after.tally = before.tally ++ [.dispatched request duration handle]
  invocations : after.invocations = before.invocations
  refusals : after.refusals = before.refusals

theorem Uncounted.request {first second third : Run α β} (left : Uncounted first second)
    (right : CountsRequest second third) : CountsRequest first third := by
  obtain ⟨request, duration, handle, tally⟩ := right.tally
  exact ⟨⟨request, duration, handle, left.tally ▸ tally⟩, right.invocations.trans left.invocations,
    right.refusals.trans left.refusals⟩

theorem CountsRequest.dispatch [Device α β] (run : Run α β) (request : Request α) (duration : α) :
    CountsRequest run (run.dispatch request duration) :=
  ⟨⟨request, duration, _, tally_record _ _⟩, rfl, rfl⟩

end Run

/-! ## Commands -/

/-- Whether a command makes a request by itself. -/
def Program.requests (program : Program) (command : Command) : Bool :=
  match command.action with
  | .sample arguments => (program.customSample? arguments.name).isNone
  | .tone _ | .slide _ => true
  | _ => false

/-- Whether a command is there to have definitions performed. -/
def Program.invokes (program : Program) (command : Command) : Bool :=
  match command.action with
  | .sample arguments => (program.customSample? arguments.name).isSome
  | .play _ _ | .loop _ _ _ => true
  | _ => false

namespace Run

variable [Arithmetic α] [Device α β] {program : Program} {command : Command}

theorem CountsRequest.performAction (requests : program.requests command = true)
    (settings : Settings) (invocation : Invocation α β) (offset : α) (mix : Mix α) (run : Run α β) :
    CountsRequest run (performAction program settings invocation command offset mix run).2 := by
  rw [Program.requests] at requests
  rw [Run.performAction]
  cases action : command.action with
  | sample arguments =>
    rw [action] at requests
    dsimp only at requests ⊢
    rw [Option.isNone_iff_eq_none.mp requests]
    exact .dispatch run _ _
  | tone arguments => exact (Uncounted.waveform settings run _).request (.dispatch _ _ _)
  | slide arguments => exact (Uncounted.waveform settings run _).request (.dispatch _ _ _)
  | wait | bpm | play | loop | set | effect | invalid | unknown => simp [action] at requests

theorem CountsRequest.performCommand (requests : program.requests command = true)
    (settings : Settings) (invocation : Invocation α β) (offset : α) (mix : Mix α) (run : Run α β) :
    CountsRequest run (performCommand program settings invocation command offset mix run).2 :=
  (Uncounted.ignoreKeys command run).request (.performAction requests ..)

end Run

def Task.commands : Task α → List Command
  | .command own _ _ => [own]
  | .sequence commands _ _ _ | .atOnce commands _ _ => commands
  | _ => []

def Frame.commands : Frame α → List Command
  | .sequence rest _ _ _ | .atOnce rest _ _ => rest
  | _ => []

namespace Machine

open Run

/-- The commands that wait in all that is in progress. -/
def waiting (machine : Machine α β) : List Command :=
  machine.task.commands ++ machine.frames.flatMap Frame.commands

variable [Arithmetic α] [Device α β] {program : Program} {settings : Settings}

theorem commands_act (command : Command) (offset : α) (mix : Mix α) (frames : List (Frame α))
    (run : Run α β) : (act program settings command offset mix frames run).task.commands = [] := by
  rw [act]
  cases command.action with
  | sample arguments =>
    dsimp only
    cases program.customSample? arguments.name <;> rfl
  | loop count names arguments =>
    dsimp only
    split <;> rfl
  | tone | slide | wait | bpm | play | set | effect | invalid | unknown => rfl

theorem waiting_act (command : Command) (offset : α) (mix : Mix α) (frames : List (Frame α))
    (run : Run α β) :
    (act program settings command offset mix frames run).waiting =
      frames.flatMap Frame.commands := by
  rw [waiting, commands_act, frames_act, List.nil_append]

theorem uncounted_act {command : Command} (quiet : program.requests command = false) (offset : α)
    (mix : Mix α) (frames : List (Frame α)) (run : Run α β) :
    Uncounted run (act program settings command offset mix frames run).run := by
  rw [Program.requests] at quiet
  rw [act]
  cases action : command.action with
  | sample arguments =>
    rw [action] at quiet
    dsimp only at quiet ⊢
    cases found : program.customSample? arguments.name with
    | some customSample => exact .refl run
    | none => simp [found] at quiet
  | tone | slide => simp [action] at quiet
  | bpm value => exact .changeTempo _ _ _ run
  | loop count names arguments =>
    dsimp only
    split
    · exact .refl run
    · exact .record run rfl
  | effect effect block => exact .recordEffect run block _
  | wait | play | set => exact ⟨rfl, rfl, rfl⟩
  | invalid | unknown => exact .record run rfl

theorem act_of_requests {command : Command} (requests : program.requests command = true)
    (invocation : Invocation α β) (offset : α) (mix : Mix α) (frames : List (Frame α))
    (run : Run α β) :
    act program settings command offset mix frames run =
      finish frames (performAction program settings invocation command offset mix run) := by
  rw [Program.requests] at requests
  rw [act, performAction]
  cases action : command.action with
  | sample arguments =>
    rw [action] at requests
    dsimp only at requests ⊢
    rw [Option.isNone_iff_eq_none.mp requests]
  | tone | slide => rfl
  | wait | bpm | play | loop | set | effect | invalid | unknown => simp [action] at requests

theorem invocations_act (command : Command) (offset : α) (mix : Mix α) (frames : List (Frame α))
    (run : Run α β) :
    (act program settings command offset mix frames run).run.invocations = run.invocations := by
  cases requests : program.requests command with
  | false => exact (uncounted_act requests ..).invocations
  | true =>
    rw [act_of_requests requests fun _ _ _ _ run => (0, run)]
    exact (CountsRequest.performAction requests ..).invocations

/-! ## Steps -/

/-- What a step counts. Commands that wait are performed one by one, left when the flag is lowered,
and added when a definition is entered. -/
inductive Counts (program : Program) (settings : Settings) (before after : Machine α β) : Prop
  | still : Uncounted before.run after.run → after.waiting = before.waiting →
      Counts program settings before after
  | left (commands) : Uncounted before.run after.run → before.run.running = false →
      before.waiting = commands ++ after.waiting → Counts program settings before after
  | performed {command} : program.requests command = false → Uncounted before.run after.run →
      before.waiting = command :: after.waiting → Counts program settings before after
  | requested {command} : program.requests command = true → CountsRequest before.run after.run →
      before.waiting = command :: after.waiting → Counts program settings before after
  | entered {kind definition offset mix} : before.task = .invoke kind definition offset mix →
      before.run.refusal? settings kind definition.name = none →
      after.run = (before.run.enter kind definition.name).record
        (Machine.entered kind definition offset) →
      after.waiting = definition.commands ++ before.waiting → Counts program settings before after
  | refused {kind definition offset mix refusal} :
      before.task = .invoke kind definition offset mix →
      before.run.refusal? settings kind definition.name = some refusal →
      after.run = before.run.refuse settings { kind, name := definition.name, refusal } →
      after.waiting = before.waiting → Counts program settings before after

theorem counts_of_step {before after : Machine α β} (steps : Steps program settings before after) :
    Counts program settings before after := by
  cases steps.move with
  | command command offset mix frames run =>
    have ignores := Uncounted.ignoreKeys command run
    have waiting : [command] ++ frames.flatMap Frame.commands =
        command :: (act program settings command offset mix frames
          (run.ignoreKeys command)).waiting := by
      rw [waiting_act]
      rfl
    cases requests : program.requests command with
    | false => exact .performed requests (ignores.trans (uncounted_act requests ..)) waiting
    | true =>
      rw [act_of_requests requests fun _ _ _ _ run => (0, run)] at waiting ⊢
      exact .requested requests (.performCommand requests ..) waiting
  | sequenceLeft command rest _ _ _ _ stopped =>
    exact .left (command :: rest) (.record _ rfl) stopped rfl
  | entered offset mix frames enters =>
    refine .entered rfl enters rfl ?_
    cases ‹Kind› <;> rfl
  | refused offset mix frames given => exact .refused rfl given rfl rfl
  | blockMissing | loopLeft => exact .still (.record _ rfl) rfl
  | resumed duration frame => cases frame <;> exact .still ⟨rfl, rfl, rfl⟩ rfl
  | sequenceEnd | sequenceNext | atOnceEnd | atOnceNext | blockFound | togetherEnd | togetherNext
  | loopEnd | loopNext => exact .still (.refl _) rfl

end Machine

end Sequencer
