import Sequencer.Proofs.Run.Idle

/-! # Every turn of a loop

A loop is performed up to the first turn that enters nothing. A loop that takes every turn comes to
the same, since such a turn leaves nothing for the later ones to do: `repeatedly_eq_everyTurn`. The
turns that do enter something are no more than the invocations that are left, so that it makes no
difference how many turns there are beyond that: `everyTurn_eq_of_lt`.
-/

namespace Sequencer.Run

variable {α β : Type} [Arithmetic α]

/-- Plays something again from where it ended, turn by turn, as long as no stop is asked for. -/
def everyTurn (play : α → Run α β → α × Run α β) (start : α) :
    (left done : Nat) → α → Run α β → α × Run α β
  | 0, _, total, run => (total, run)
  | left + 1, done, total, run =>
    if run.running then
      let (duration, after) := play (start + total) run
      everyTurn play start left (done + 1) (total + duration) after
    else (total, run.record (.loopLeft done))

section Turns

variable [Arithmetic.LawfulZero α] [Device α β] {program : Program} {settings : Settings}
  {room : Nat} {names : List String}
  (declared : ∀ name ∈ names, (program.block? name).isSome = true) (mix : Mix α) (start : α)

include declared

/-- With all refusals noted the turns add nothing but zeros. -/
theorem everyTurn_noted {run : Run α β} (running : run.running = true)
    (noted : ∀ name ∈ names, run.Noted settings name) (left done : Nat) {total : α}
    (settled : total + 0 = total) :
    everyTurn (fun start run => playTogether program (invoke program settings room) names start mix
      run) start left done total run = (total, run) := by
  induction left generalizing done with
  | zero => rfl
  | succ left inductionHypothesis =>
    rw [everyTurn, if_pos running, together_noted declared noted]
    dsimp only
    rw [settled]
    exact inductionHypothesis (done + 1)

/-- A turn that enters nothing leaves nothing to do for the turns after it. -/
theorem everyTurn_after_idle {run : Run α β} (running : run.running = true)
    (fits : unentered program run.stack ≤ room) {total : α} {turn : α × Run α β}
    (plays : playTogether program (invoke program settings room) names (start + total) mix run =
      turn)
    (idle : turn.2.invocations = run.invocations) (left done : Nat) :
    everyTurn (fun start run => playTogether program (invoke program settings room) names start mix
      run) start left done (total + turn.1) turn.2 = (total + turn.1, turn.2) := by
  subst plays
  obtain ⟨after, result, state, -, noted⟩ := together_idle declared fits idle
  rw [result]
  have runningAfter : after.running = true := by
    rw [Run.running, state]
    exact running
  exact everyTurn_noted declared mix start runningAfter noted left done
    (Arithmetic.LawfulZero.add_zero_add_zero total)

theorem repeatedly_eq_everyTurn (left done : Nat) (total : α) {run : Run α β}
    (fits : unentered program run.stack ≤ room) :
    repeatedly (fun start run => playTogether program (invoke program settings room) names start mix
        run) start left done total run =
      everyTurn (fun start run => playTogether program (invoke program settings room) names start
        mix run) start left done total run := by
  induction left generalizing done total run with
  | zero => rfl
  | succ left inductionHypothesis =>
    rw [repeatedly, everyTurn]
    dsimp only
    split
    · next running =>
      split
      · next idle =>
        exact (everyTurn_after_idle declared mix start running fits rfl idle left (done + 1)).symm
      · exact inductionHypothesis _ _
          ((stack_playTogether program settings room names (start + total) mix run).symm ▸ fits)
    · rfl

/-- Each turn uses up an invocation, or is the last one that counts. With more turns than there are
invocations to spare, it makes no difference how many more. -/
theorem everyTurn_eq_of_lt {left left' : Nat} (done : Nat) (total : α) {run : Run α β}
    (fits : unentered program run.stack ≤ room)
    (beyond : settings.maxInvocations - run.invocations < left)
    (beyond' : settings.maxInvocations - run.invocations < left') :
    everyTurn (fun start run => playTogether program (invoke program settings room) names start mix
        run) start left done total run =
      everyTurn (fun start run => playTogether program (invoke program settings room) names start
        mix run) start left' done total run := by
  induction left generalizing left' done total run with
  | zero => exact absurd beyond (Nat.not_lt_zero _)
  | succ left inductionHypothesis =>
    obtain ⟨left', rfl⟩ : ∃ fewer, left' = fewer + 1 :=
      Nat.exists_eq_add_one.mpr (Nat.zero_lt_of_lt beyond')
    rw [everyTurn, everyTurn]
    split
    · next running =>
      dsimp only
      generalize plays : playTogether program (invoke program settings room) names (start + total)
        mix run = turn
      by_cases idle : turn.2.invocations = run.invocations
      · rw [everyTurn_after_idle declared mix start running fits plays idle,
          everyTurn_after_idle declared mix start running fits plays idle]
      · have stack : turn.2.stack = run.stack :=
          plays ▸ stack_playTogether program settings room names (start + total) mix run
        have more : run.invocations ≤ turn.2.invocations :=
          plays ▸ invocations_le_together (start + total) mix names 0 run
        have within : turn.2.invocations - run.invocations ≤
            settings.maxInvocations - run.invocations :=
          plays ▸ (kept_limit settings).playTogether ((kept_limit settings).invoke program room)
            names (start + total) mix run
        exact inductionHypothesis _ _ (stack ▸ fits) (by omega) (by omega)
    · rfl

end Turns

/-! ## Loops -/

variable [Device α β]

/-- Plays blocks so many times, one turn after the other. -/
def takeTurns (program : Program) (settings : Settings) (names : List String) (offset : α)
    (mix : Mix α) (turns : Nat) (run : Run α β) : α × Run α β :=
  everyTurn (fun start run =>
      playTogether program (invoke program settings (room program)) names start mix run)
    offset turns 0 0 run

theorem playLoop_eq_takeTurns [Arithmetic.LawfulZero α] {program : Program} {names : List String}
    (declared : ∀ name ∈ names, (program.block? name).isSome = true) (settings : Settings)
    (count : Value) (offset : α) (mix : Mix α) (run : Run α β) :
    playLoop program (invoke program settings (room program)) count names offset mix run =
      takeTurns program settings names offset mix (run.iterations count) run := by
  have missing : (names.filter fun name => (program.block? name).isNone) = [] := by
    rw [List.filter_eq_nil_iff]
    intro name member
    simp [Option.isSome_iff_ne_none.mp (declared name member)]
  rw [playLoop, missing]
  exact repeatedly_eq_everyTurn declared mix offset _ 0 0 (unentered_le_room program run.stack)

/-- A loop takes as many turns as it counts, and those past the limit on invocations come to
nothing: with no more than one turn above the limit it has the same duration and leaves the same run,
with all requests, warnings and refusals, whichever of its blocks are refused and why. -/
theorem loops_up_to_limit [Arithmetic.LawfulZero α] (program : Program) (settings : Settings)
    {names : List String} (declared : ∀ name ∈ names, (program.block? name).isSome = true)
    (count : Value) (offset : α) (mix : Mix α) (run : Run α β) :
    playLoop program (invoke program settings (room program)) count names offset mix run =
        takeTurns program settings names offset mix (run.iterations count) run ∧
      takeTurns program settings names offset mix (run.iterations count) run =
        takeTurns program settings names offset mix
          (min (run.iterations count) (settings.maxInvocations + 1)) run := by
  refine ⟨playLoop_eq_takeTurns declared settings count offset mix run, ?_⟩
  have fits := unentered_le_room program run.stack
  rcases Nat.le_total (run.iterations count) (settings.maxInvocations + 1) with few | many
  · rw [Nat.min_eq_left few]
  · rw [Nat.min_eq_right many]
    exact everyTurn_eq_of_lt declared mix offset 0 0 fits (by omega) (by omega)

/-- A verse, and a round that is in progress already. -/
def rehearsed : Program :=
  { globals := []
    blocks :=
      [{ name := "verse", commands := [.ofWords 1 ["tone", "a4"]], effects := [] },
        { name := "round", commands := [.ofWords 2 ["play", "round"]], effects := [] }]
    customSamples := []
    irregularities := [] }

def withinRound : Run Float (Timeline Float) :=
  { Run.start (.start 120 true) .empty #[] with stack := [(.block, "round")] }

def twoInvocations : Settings := { Settings.standard with maxInvocations := 2 }

/-- The first two turns play the verse, the third one is refused both blocks, and the fourth and the
fifth have nothing to add. -/
theorem loops_up_to_limit_rehearsed :
    (∀ name ∈ ["verse", "round"], (rehearsed.block? name).isSome = true) ∧
      withinRound.iterations (Value.literal 5) = 5 ∧
      takeTurns rehearsed twoInvocations ["verse", "round"] 0 .neutral 5 withinRound =
        takeTurns rehearsed twoInvocations ["verse", "round"] 0 .neutral 3 withinRound ∧
      (takeTurns rehearsed twoInvocations ["verse", "round"] 0 .neutral 5
        withinRound).2.journal.requests.size = 2 := by
  have declared : ∀ name ∈ ["verse", "round"], (rehearsed.block? name).isSome = true := by decide
  have five : withinRound.iterations (Value.literal 5) = 5 := by decide +kernel
  have turns := (loops_up_to_limit rehearsed twoInvocations declared (Value.literal 5) 0 .neutral
    withinRound).2
  rw [five] at turns
  exact ⟨declared, five, turns, by decide +kernel⟩

end Sequencer.Run
