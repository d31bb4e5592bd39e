import Sequencer.Device.Recorder
import Sequencer.Proofs.Number.Truncation
import Sequencer.Proofs.Program.Playing
import Sequencer.Proofs.Run.Turns

/-! # Loops as sequences

A loop of blocks takes its turns just as commands that play the blocks follow each other in a
sequence. Only what is said when a stop makes either be left is different.
-/

namespace Sequencer.Run

variable {α β : Type} [Arithmetic α]

/-- What a loop and a sequence come to that do the same from an offset on. If a stop makes them be
left, the loop tells after how many turns, and the sequence at what time. -/
inductive EndsAlike (offset : α) : α × Run α β → α × Run α β → Prop
  | completed (duration : α) (run : Run α β) : EndsAlike offset (duration, run) (duration, run)
  | left (turns : Nat) (duration : α) (run : Run α β) : run.running = false →
      EndsAlike offset (duration, run.record (.loopLeft turns))
        (duration, run.record (.sequenceLeft (offset + duration)))

theorem everyTurn_replicate (perform : Command → α → Run α β → α × Run α β) (command : Command)
    (offset : α) (left done : Nat) (total : α) (run : Run α β) :
    EndsAlike offset (everyTurn (perform command) offset left done total run)
      (inSequence perform offset (List.replicate left command) total run) := by
  induction left generalizing done total run with
  | zero => exact .completed total run
  | succ left inductionHypothesis =>
    rw [List.replicate_succ, everyTurn, inSequence]
    split
    · exact inductionHypothesis _ _ _
    · next stopped => exact .left done total run (Bool.eq_false_iff.mpr stopped)

/-! ## Counts -/

/-- How many turns a number stands for. Its whole part is taken as far as sixty-four bits go, and a
number that is not positive or not finite stands for none. -/
def turnsOf (value : Float) : Nat :=
  if value.isFinite = true ∧ 0 < value then min ⌊Number.exact value⌋₊ (2 ^ 64 - 1) else 0

theorem iterations_eq_turnsOf [Device Float β] (run : Run Float β) (count : Value) :
    run.iterations count = turnsOf (run.resolve count) := by
  rw [iterations, turnsOf]
  by_cases counts : (run.resolve count).isFinite = true ∧ 0 < run.resolve count
  · rw [if_pos counts, if_pos (by simpa [Arithmetic.isFinite] using counts),
      Number.wholePart_eq counts.1 counts.2]
  · rw [if_neg counts, if_neg (by simpa [Arithmetic.isFinite] using counts)]

/-! ## Commands -/

section Commands

variable {program : Program} {settings : Settings} {invoke : Invocation α β} {command : Command}
  {count : String} {names : List String}

theorem playLoop_of_missing (missing : ∃ name ∈ names, (program.block? name).isNone = true)
    (count : Value) (offset : α) (mix : Mix α) (run : Run α β) :
    playLoop program invoke count names offset mix run =
      (0, run.warn
        (.loopBlocksNotFound (names.filter fun name => (program.block? name).isNone))) := by
  obtain ⟨name, member, absent⟩ := missing
  rw [playLoop]
  split
  · next none => exact absurd absent (List.filter_eq_nil_iff.mp none name member)
  · rfl

variable [Device α β]

theorem performCommand_playsAll (plays : command.PlaysAll names) (offset : α) (mix : Mix α)
    (run : Run α β) :
    performCommand program settings invoke command offset mix run =
      playTogether program invoke names offset
        (mix.nest run.state.bindings { volume := none, pan := none }) run := by
  rw [performCommand, ignoreKeys, plays.ignoredKeys, List.foldl_nil, performAction, plays.action]

theorem performCommand_loops (loops : command.Loops count names) (offset : α) (mix : Mix α)
    (run : Run α β) :
    performCommand program settings invoke command offset mix run =
      playLoop program invoke (.ofToken count) names offset
        (mix.nest run.state.bindings { volume := none, pan := none }) run := by
  rw [performCommand, ignoreKeys, loops.ignoredKeys, List.foldl_nil, performAction, loops.action]

end Commands

/-- Performs a command within a mix, with room for all that the program defines. -/
def performWithin [Device α β] (program : Program) (settings : Settings) (mix : Mix α)
    (command : Command) (offset : α) (run : Run α β) : α × Run α β :=
  performCommand program settings (invoke program settings (room program)) command offset mix run

variable [Device Float β]

/-- A command that loops over blocks does what as many commands to play them do one after the other,
from the same offset and within the same mix, whatever the blocks do to variables and tempo and
whether or not a stop comes: both take the same time and leave the same run. If one of the blocks
does not exist, a warning that names all that do not is all there is. -/
theorem loop_repeats_play (program : Program) (settings : Settings) {loop play : Command}
    {count : String} {names : List String} (loops : loop.Loops count names)
    (plays : play.PlaysAll names) (offset : Float) (mix : Mix Float) (run : Run Float β) :
    ((∀ name ∈ names, (program.block? name).isSome = true) →
        EndsAlike offset (performWithin program settings mix loop offset run)
          (inSequence (performWithin program settings mix) offset
            (List.replicate (turnsOf (run.resolve (.ofToken count))) play) 0 run)) ∧
      ((∃ name ∈ names, (program.block? name).isNone = true) →
        performWithin program settings mix loop offset run =
          (0, run.warn
            (.loopBlocksNotFound (names.filter fun name => (program.block? name).isNone)))) := by
  refine ⟨fun declared => ?_, fun missing => ?_⟩
  · -- without arguments the mix is passed on the same way whatever the variables are
    have turn : (fun start (after : Run Float β) =>
        playTogether program (invoke program settings (room program)) names start
          (mix.nest run.state.bindings { volume := none, pan := none }) after) =
        performWithin program settings mix play := by
      funext start after
      exact (performCommand_playsAll plays start mix after).symm
    rw [performWithin, performCommand_loops loops, playLoop_eq_takeTurns declared,
      iterations_eq_turnsOf, takeTurns, turn]
    exact everyTurn_replicate _ play offset _ 0 0 run
  · rw [performWithin, performCommand_loops loops, playLoop_of_missing missing]

/-- A bar that sets the number of turns that it is played for. -/
def bars : Program :=
  { globals := []
    blocks :=
      [{ name := "bar"
         commands :=
          [.ofWords 2 ["tone", "a4"], .ofWords 3 ["bpm", "90"], .ofWords 4 ["set", "turns", "1"]]
         effects := [] }]
    customSamples := []
    irregularities := [] }

/-- Four turns are to be played, and the third request makes it stop. -/
def withTurns : Run Float (Recorder Float) :=
  (Run.start (.start 120 true) (.empty (some 3) Note.frequency) #[]).setVariable "turns" 4

/-- Three turns are played, for the number of them is read only once. -/
theorem loop_repeats_play_bars :
    (Command.ofWords 1 ["loop", "turns", "bar"]).Loops "turns" ["bar"] ∧
      (Command.ofWords 1 ["play", "bar"]).PlaysAll ["bar"] ∧
      (∀ name ∈ ["bar"], (bars.block? name).isSome = true) ∧
      EndsAlike 0
        (performWithin bars .standard .neutral (.ofWords 1 ["loop", "turns", "bar"]) 0 withTurns)
        (inSequence (performWithin bars .standard .neutral) 0
          (List.replicate 4 (.ofWords 1 ["play", "bar"])) 0 withTurns) ∧
      (performWithin bars .standard .neutral (.ofWords 1 ["loop", "turns", "bar"]) 0
        withTurns).2.journal.requests.size = 3 := by
  have loops : (Command.ofWords 1 ["loop", "turns", "bar"]).Loops "turns" ["bar"] :=
    ⟨rfl, List.cons_ne_nil _ _, by decide +kernel⟩
  have plays : (Command.ofWords 1 ["play", "bar"]).PlaysAll ["bar"] :=
    ⟨rfl, List.cons_ne_nil _ _, by decide +kernel⟩
  have declared : ∀ name ∈ ["bar"], (bars.block? name).isSome = true := by decide
  have four : turnsOf (withTurns.resolve (.ofToken "turns")) = 4 := by decide +kernel
  have alike := (loop_repeats_play bars .standard loops plays 0 .neutral withTurns).1 declared
  rw [four] at alike
  exact ⟨loops, plays, declared, alike, by decide +kernel⟩

end Sequencer.Run
