import Sequencer.Proofs.Run.Stack

/-! # Stopped before the start

With the flag lowered from the start a program records the effects of its headers and nothing else.
The entry block may still be entered, or refused, but its sequence is left at once.
-/

namespace Sequencer.Run

variable {α β : Type}

/-- Nothing that a run leaves behind is changed, and nothing is asked of the device. -/
structure Unmoved (before after : Run α β) : Prop where
  state : after.state = before.state
  device : after.device = before.device
  requests : after.journal.requests = before.journal.requests
  dispatched : after.dispatched = before.dispatched

theorem Unmoved.refl (run : Run α β) : Unmoved run run := ⟨rfl, rfl, rfl, rfl⟩

theorem Unmoved.trans {first second third : Run α β} (left : Unmoved first second)
    (right : Unmoved second third) : Unmoved first third :=
  ⟨right.state.trans left.state, right.device.trans left.device,
    right.requests.trans left.requests, right.dispatched.trans left.dispatched⟩

theorem Unmoved.record (run : Run α β) {entry : Entry α} (quiet : entry.request? = none) :
    Unmoved run (run.record entry) :=
  ⟨rfl, rfl, by simp [Run.record, Journal.requests, quiet], rfl⟩

theorem Unmoved.enter (run : Run α β) (kind : Kind) (name : String) :
    Unmoved run (run.enter kind name) :=
  ⟨rfl, rfl, rfl, rfl⟩

theorem Unmoved.leave (run : Run α β) : Unmoved run run.leave := ⟨rfl, rfl, rfl, rfl⟩

theorem Unmoved.refuse (settings : Settings) (run : Run α β) (refused : Refused) :
    Unmoved run (run.refuse settings refused) :=
  refuse_invariant (Unmoved run) settings refused
    (fun _ _ before => ⟨before.state, before.device, before.requests, before.dispatched⟩)
    (fun after before => before.trans (.record after rfl)) (.refl run)

theorem Unmoved.ignoreKeys (run : Run α β) (command : Command) :
    Unmoved run (run.ignoreKeys command) :=
  ignoreKeys_invariant (Unmoved run) (fun after _ _ _ before => before.trans (.record after rfl))
    command (.refl run)

theorem Unmoved.waveform (settings : Settings) (run : Run α β) (name : Option String) :
    Unmoved run (run.waveform settings name).2 := by
  cases name with
  | none => exact .refl run
  | some name =>
    rw [Run.waveform]
    split
    · exact .refl run
    · exact .record run rfl

/-! ## With the flag lowered -/

variable [Arithmetic α]

theorem inSequence_stopped (perform : Command → α → Run α β → α × Run α β) (start : α)
    (commands : List Command) {run : Run α β} (stopped : run.running = false) :
    (inSequence perform start commands 0 run).1 = 0 ∧
      Unmoved run (inSequence perform start commands 0 run).2 := by
  cases commands with
  | nil => exact ⟨rfl, .refl run⟩
  | cons command rest =>
    rw [inSequence, stopped]
    exact ⟨rfl, .record run rfl⟩

variable [Device α β]

theorem invoke_stopped (program : Program) (settings : Settings) (room : Nat) (block : Definition)
    (offset : α) (mix : Mix α) {run : Run α β} (stopped : run.running = false) :
    (invoke program settings room .block block offset mix run).1 = 0 ∧
      Unmoved run (invoke program settings room .block block offset mix run).2 := by
  cases given : run.refusal? settings .block block.name with
  | some refusal =>
    rw [invoke_refused given]
    exact ⟨rfl, .refuse settings run _⟩
  | none =>
    cases room with
    | zero =>
      rw [invoke, given]
      exact ⟨rfl, .refl run⟩
    | succ room =>
      rw [invoke, given]
      -- the block is entered all the same, and its sequence is left before its first command
      have enters : Unmoved run
          ((run.enter .block block.name).record (.blockEntered block.name offset)) :=
        (Unmoved.enter run .block block.name).trans (.record _ rfl)
      obtain ⟨duration, unmoved⟩ := inSequence_stopped
        (fun command start run => performCommand program settings (invoke program settings room)
          command start mix run) offset block.commands
        (show ((run.enter .block block.name).record (.blockEntered block.name offset)).running = false
          from stopped)
      have body := enters.trans unmoved
      exact ⟨duration, body.state, body.device, body.requests, body.dispatched⟩

/-- Of the state, headers add to the effects only. -/
theorem recordHeaders_kept (program : Program) (run : Run α β) :
    (recordHeaders program run).state =
        { run.state with effects := (recordHeaders program run).state.effects } ∧
      (recordHeaders program run).journal.requests = run.journal.requests := by
  suffices kept : (∃ effects, (recordHeaders program run).state = { run.state with effects }) ∧
      (recordHeaders program run).journal.requests = run.journal.requests by
    obtain ⟨⟨effects, state⟩, requests⟩ := kept
    refine ⟨?_, requests⟩
    rw [state]
  refine recordHeaders_invariant
    (fun after => (∃ effects, after.state = { run.state with effects }) ∧
      after.journal.requests = run.journal.requests)
    ?_ program ⟨⟨run.state.effects, rfl⟩, rfl⟩
  rintro after block effect ⟨⟨effects, state⟩, requests⟩
  have added := congrArg (fun state => state.addEffect block effect) state
  exact ⟨⟨_, added⟩, (Unmoved.record _ rfl).requests.trans requests⟩

/-- Whatever the program says, nothing comes after the headers. -/
theorem performEntry_stopped [Arithmetic.LawfulZero α] (program : Program) (settings : Settings)
    {run : Run α β} (stopped : run.running = false) :
    (performEntry program settings run).1 = 0 ∧ Unmoved run (performEntry program settings run).2 := by
  rw [performEntry]
  split
  · exact inSequence_stopped _ 0 program.globals stopped
  · split
    · simp only [playTogether, together, playBlock]
      cases program.block? entryBlock with
      | none =>
        exact ⟨Arithmetic.LawfulZero.larger_zero, .record run rfl⟩
      | some block =>
        obtain ⟨duration, unmoved⟩ :=
          invoke_stopped program settings (room program) block 0 .neutral stopped
        refine ⟨?_, unmoved⟩
        dsimp only
        rw [duration]
        exact Arithmetic.LawfulZero.larger_zero
    · exact ⟨rfl, .record run rfl⟩

end Sequencer.Run
