import Sequencer.Proofs.Run.Idle
import Sequencer.Proofs.Run.Machine

/-! # The machine computes what is performed

Every task is completed in finitely many steps, with the duration and the run that performing gives.
The induction is on the room for definitions: there is always as much left as there are definitions
not in progress, so that it never runs out.
-/

namespace Sequencer.Machine

open Run

variable {α β : Type} [Arithmetic α] [Device α β] {program : Program} {settings : Settings}

/-- A task leads to a result, whatever waits for it. -/
def Completes (program : Program) (settings : Settings) (task : Task α) (run : Run α β)
    (result : α × Run α β) : Prop :=
  ∀ frames, Reaches program settings { task, frames, run } (finish frames result)

theorem Completes.done (duration : α) (run : Run α β) :
    Completes program settings (.done duration) run (duration, run) :=
  fun _ => .refl

theorem Completes.of_step {task next : Task α} {run after : Run α β} {result : α × Run α β}
    (steps : ∀ frames,
      Steps program settings { task, frames, run } { task := next, frames, run := after })
    (completes : Completes program settings next after result) :
    Completes program settings task run result :=
  fun frames => (steps frames).reaches.trans (completes frames)

/-- A task that waits for another one in a frame, and then goes on. -/
theorem Completes.of_call {task inner next : Task α} {run after later : Run α β}
    {middle result : α × Run α β} (frame : Frame α)
    (calls : ∀ frames, Steps program settings { task, frames, run }
      { task := inner, frames := frame :: frames, run := after })
    (completesInner : Completes program settings inner after middle)
    (resumes : ∀ frames,
      resume middle.1 frame frames middle.2 = { task := next, frames, run := later })
    (completes : Completes program settings next later result) :
    Completes program settings task run result := by
  intro frames
  have resumed : Steps program settings (finish (frame :: frames) middle)
      { task := next, frames, run := later } := by
    rw [Steps, ← resumes frames]
    rfl
  exact (calls frames).reaches.trans
    ((completesInner (frame :: frames)).trans (resumed.reaches.trans (completes frames)))

/-! ## Sequences and fan-outs -/

section Constructs

variable {stack : List (Kind × String)} {mix : Mix α}

theorem completes_sequence {perform : Command → α → Run α β → α × Run α β} {start : α}
    (each : ∀ command offset run, run.stack = stack →
      Completes program settings (.command command offset mix) run (perform command offset run))
    (keeps : ∀ command offset run, (perform command offset run).2.stack = run.stack)
    (commands : List Command) (elapsed : α) {run : Run α β} (same : run.stack = stack) :
    Completes program settings (.sequence commands start mix elapsed) run
      (inSequence perform start commands elapsed run) := by
  induction commands generalizing elapsed run with
  | nil => exact .of_step (fun _ => rfl) (.done elapsed run)
  | cons command rest inductionHypothesis =>
    rw [inSequence]
    split
    · next running =>
      exact .of_call (.sequence rest start mix elapsed)
        (fun frames => (Move.sequenceNext command rest start mix elapsed frames running).steps)
        (each command (start + elapsed) run same) (fun _ => rfl)
        (inductionHypothesis _ ((keeps _ _ _).trans same))
    · next running =>
      have stopped := Bool.eq_false_of_not_eq_true running
      exact .of_step
        (fun frames => (Move.sequenceLeft command rest start mix elapsed frames stopped).steps)
        (.done elapsed _)

theorem completes_atOnce {perform : Command → Run α β → α × Run α β} {offset : α}
    (each : ∀ command run, run.stack = stack →
      Completes program settings (.command command offset mix) run (perform command run))
    (keeps : ∀ command run, (perform command run).2.stack = run.stack)
    (commands : List Command) {run : Run α β} (same : run.stack = stack) :
    Completes program settings (.atOnce commands offset mix) run
      (0, atOnce perform commands run) := by
  induction commands generalizing run with
  | nil => exact .of_step (fun _ => rfl) (.done 0 run)
  | cons command rest inductionHypothesis =>
    exact .of_call (.atOnce rest offset mix) (fun _ => rfl) (each command run same)
      (fun _ => rfl) (inductionHypothesis ((keeps command run).trans same))

theorem completes_together {play : String → Run α β → α × Run α β} {offset : α}
    (each : ∀ name run, run.stack = stack →
      Completes program settings (.block name offset mix) run (play name run))
    (keeps : ∀ name run, (play name run).2.stack = run.stack)
    (names : List String) (longest : α) {run : Run α β} (same : run.stack = stack) :
    Completes program settings (.together names offset mix longest) run
      (together play names longest run) := by
  induction names generalizing longest run with
  | nil => exact .of_step (fun _ => rfl) (.done longest run)
  | cons name rest inductionHypothesis =>
    exact .of_call (.together rest offset mix longest) (fun _ => rfl) (each name run same)
      (fun _ => rfl) (inductionHypothesis _ ((keeps name run).trans same))

/-! ## Loops -/

variable {room : Nat} (names : List String)
  (each : ∀ (name : String) (offset : α) (run : Run α β), run.stack = stack →
    Completes program settings (.block name offset mix) run
      (playBlock program (invoke program settings room) offset mix name run))

include each

theorem completes_turn (offset : α) {run : Run α β} (same : run.stack = stack) :
    Completes program settings (.together names offset mix 0) run
      (playTogether program (invoke program settings room) names offset mix run) :=
  completes_together (fun name run => each name offset run)
    (stack_playBlock program settings room offset mix) names 0 same

/-- The turns after an idle one add nothing but zeros. -/
theorem completes_idle [Arithmetic.LawfulZero α]
    (declared : ∀ name ∈ names, (program.block? name).isSome = true)
    {run : Run α β} (same : run.stack = stack) (running : run.running = true)
    (noted : ∀ name ∈ names, run.Noted settings name) (start : α) (left done : Nat) {total : α}
    (settled : total + 0 = total) :
    Completes program settings (.loop names start mix left done total) run (total, run) := by
  induction left generalizing done with
  | zero => exact .of_step (fun _ => rfl) (.done total run)
  | succ left inductionHypothesis =>
    have turn := completes_turn names each (start + total) same
    rw [together_noted declared noted (start + total) mix] at turn
    refine .of_call (.loop names start mix left done total)
      (fun frames => (Move.loopNext names start mix left done total frames running).steps) turn
      (fun _ => rfl) ?_
    dsimp only
    rw [settled]
    exact inductionHypothesis (done + 1)

theorem completes_loop [Arithmetic.LawfulZero α]
    (declared : ∀ name ∈ names, (program.block? name).isSome = true)
    (fits : unentered program stack ≤ room) (start : α) (left done : Nat) (total : α)
    {run : Run α β} (same : run.stack = stack) :
    Completes program settings (.loop names start mix left done total) run
      (repeatedly (fun start run => playTogether program (invoke program settings room) names start
        mix run) start left done total run) := by
  induction left generalizing done total run with
  | zero => exact .of_step (fun _ => rfl) (.done total run)
  | succ left inductionHypothesis =>
    rw [repeatedly]
    dsimp only
    split
    · next running =>
      have turn := completes_turn names each (start + total) same
      refine .of_call (.loop names start mix left done total)
        (fun frames => (Move.loopNext names start mix left done total frames running).steps) turn
        (fun _ => rfl) ?_
      split
      · next idle =>
        -- the machine takes the turns that are left, and none of them does anything
        obtain ⟨after, result, state, -, noted⟩ := together_idle declared (same ▸ fits) idle
        have sameAfter := stack_playTogether program settings room names (start + total) mix run
        rw [result] at sameAfter ⊢
        refine completes_idle names each declared (sameAfter.trans same) ?_ noted start left
          (done + 1) (Arithmetic.LawfulZero.add_zero_add_zero total)
        rw [Run.running, state]
        exact running
      · exact inductionHypothesis _ _
          ((stack_playTogether program settings room names (start + total) mix run).trans same)
    · next running =>
      have stopped := Bool.eq_false_of_not_eq_true running
      exact .of_step
        (fun frames => (Move.loopLeft names start mix left done total frames stopped).steps)
        (.done total _)

end Constructs

/-! ## Commands and definitions -/

/-- Definitions of the program are completed, from runs with a given stack. -/
def InvokesWithin (program : Program) (settings : Settings) (room : Nat)
    (stack : List (Kind × String)) (β : Type) [Device α β] : Prop :=
  ∀ (kind : Kind) (definition : Definition) (offset : α) (mix : Mix α) (run : Run α β),
    (kind, definition.name) ∈ program.keys → run.stack = stack →
      Completes program settings (.invoke kind definition offset mix) run
        (invoke program settings room kind definition offset mix run)

section Within

variable {room : Nat} {stack : List (Kind × String)}
  (invokes : InvokesWithin program settings room stack β)

include invokes

theorem completes_block (name : String) (offset : α) (mix : Mix α) (run : Run α β)
    (same : run.stack = stack) :
    Completes program settings (.block name offset mix) run
      (playBlock program (invoke program settings room) offset mix name run) := by
  rw [playBlock]
  cases found : program.block? name with
  | some block =>
    exact .of_step (fun frames => (Move.blockFound offset mix frames run found).steps)
      (invokes .block block offset mix run (Program.mem_keys_of_block? found) same)
  | none =>
    exact .of_step (fun frames => (Move.blockMissing offset mix frames run found).steps)
      (.done 0 (run.warn (.blockNotFound name)))

theorem completes_act [Arithmetic.LawfulZero α] (fits : unentered program stack ≤ room)
    (command : Command) (offset : α) (mix : Mix α) {run : Run α β} (same : run.stack = stack)
    (frames : List (Frame α)) :
    Reaches program settings (act program settings command offset mix frames run)
      (finish frames
        (performAction program settings (invoke program settings room) command offset mix run)) := by
  rw [act, performAction]
  cases command.action with
  | sample arguments =>
    dsimp only
    cases found : program.customSample? arguments.name with
    | some customSample =>
      exact invokes .customSample customSample offset mix run
        (Program.mem_keys_of_customSample? found) same frames
    | none => exact .refl
  | play names arguments =>
    exact completes_turn names (fun name offset run => completes_block invokes name offset _ run)
      offset same frames
  | loop count names arguments =>
    dsimp only
    rw [playLoop]
    cases missing : names.filter fun name => (program.block? name).isNone with
    | nil =>
      -- the filter has found no block that is missing
      have declared : ∀ name ∈ names, (program.block? name).isSome = true := by
        intro name member
        have kept := List.filter_eq_nil_iff.mp missing name member
        rwa [Bool.not_eq_true, Option.isNone_eq_false_iff] at kept
      exact completes_loop names (fun name offset run => completes_block invokes name offset _ run)
        declared fits offset _ 0 0 same frames
    | cons first rest => exact .refl
  | tone | slide | wait | bpm | set | effect | invalid | unknown => exact .refl

theorem completes_command [Arithmetic.LawfulZero α] (fits : unentered program stack ≤ room)
    (command : Command) (offset : α) (mix : Mix α) {run : Run α β} (same : run.stack = stack) :
    Completes program settings (.command command offset mix) run
      (performCommand program settings (invoke program settings room) command offset mix run) := by
  intro frames
  have first : Steps program settings { task := .command command offset mix, frames, run }
      (act program settings command offset mix frames (run.ignoreKeys command)) := rfl
  have sameAfter := (kept_stack settings).ignoreKeys command run
  exact first.reaches.trans
    (completes_act invokes fits command offset mix (sameAfter.trans same) frames)

end Within

theorem completes_body [Arithmetic.LawfulZero α] {room : Nat} {stack : List (Kind × String)}
    (invokes : InvokesWithin (α := α) program settings room stack β)
    (fits : unentered program stack ≤ room) (kind : Kind) (definition : Definition) (offset : α)
    (mix : Mix α) {run : Run α β} (same : run.stack = stack) :
    Completes program settings (body kind definition offset mix)
      (run.record (entered kind definition offset))
      (performBody program settings (invoke program settings room) kind definition offset mix run) := by
  have keeps := stack_performCommand (α := α) (β := β) program settings room
  cases kind with
  | block =>
    exact completes_sequence
      (fun command start run same => completes_command invokes fits command start mix same)
      (fun command start run => keeps command start mix run) definition.commands 0 same
  | customSample =>
    exact completes_atOnce
      (fun command run same => completes_command invokes fits command offset mix same)
      (fun command run => keeps command offset mix run) definition.commands same

theorem completes_refused {kind : Kind} {definition : Definition} {run : Run α β} {refusal : Refusal}
    (given : run.refusal? settings kind definition.name = some refusal) (room : Nat) (offset : α)
    (mix : Mix α) :
    Completes program settings (.invoke kind definition offset mix) run
      (invoke program settings room kind definition offset mix run) := by
  rw [invoke_refused given]
  exact .of_step (fun frames => (Move.refused offset mix frames given).steps)
    (.done 0 (run.refuse settings _))

/-- The room that is left is enough, whatever is in progress already. -/
theorem invokes_within [Arithmetic.LawfulZero α] (program : Program) (settings : Settings)
    {room : Nat} {stack : List (Kind × String)} (fits : unentered program stack ≤ room) :
    InvokesWithin (α := α) program settings room stack β := by
  induction room generalizing stack with
  | zero =>
    intro kind definition offset mix run member same
    cases given : run.refusal? settings kind definition.name with
    | some refusal => exact completes_refused given 0 offset mix
    | none =>
      -- nothing is left to enter
      have fresh := (refusal?_eq_none_iff.mp given).2.1
      have fewer := unentered_cons_lt member (same ▸ fresh)
      exact absurd (Nat.lt_of_lt_of_le fewer fits) (Nat.not_lt_zero _)
  | succ room inductionHypothesis =>
    intro kind definition offset mix run member same
    cases given : run.refusal? settings kind definition.name with
    | some refusal => exact completes_refused given (room + 1) offset mix
    | none =>
      have fresh := (refusal?_eq_none_iff.mp given).2.1
      have fewer := unentered_cons_lt member (same ▸ fresh)
      have fitsWithin : unentered program ((kind, definition.name) :: stack) ≤ room := by omega
      have within : (run.enter kind definition.name).stack = (kind, definition.name) :: stack := by
        rw [← same]
        rfl
      rw [invoke, given]
      exact .of_call .leave (fun frames => (Move.entered offset mix frames given).steps)
        (completes_body (inductionHypothesis fitsWithin) fitsWithin kind definition offset mix within)
        (fun _ => rfl) (.done _ _)

/-! ## Whole programs -/

/-- A command is completed wherever it stands, with all the room that a program has. -/
theorem completes_anywhere [Arithmetic.LawfulZero α] (program : Program) (settings : Settings)
    (command : Command) (offset : α) (mix : Mix α) (run : Run α β) :
    Completes program settings (.command command offset mix) run
      (performCommand program settings (invoke program settings (room program)) command offset mix
        run) :=
  have fits := unentered_le_room program run.stack
  completes_command (invokes_within program settings fits) fits command offset mix rfl

theorem reaches_end [Arithmetic.LawfulZero α] (program : Program) (settings : Settings)
    (run : Run α β) :
    Reaches program settings (start program run) (finish [] (performProgram program settings run)) := by
  rw [start, performProgram, performEntry]
  have keeps := stack_performCommand (α := α) (β := β) program settings (room program)
  split
  · exact completes_sequence
      (fun command start run _ => completes_anywhere program settings command start .neutral run)
      (fun command start run => keeps command start .neutral run) program.globals 0 rfl []
  · split
    · have fits := unentered_le_room program (run.recordHeaders program).stack
      exact completes_turn [entryBlock] (fun name offset run same =>
        completes_block (invokes_within program settings fits) name offset .neutral run same) 0 rfl []
    · exact .refl

end Sequencer.Machine
