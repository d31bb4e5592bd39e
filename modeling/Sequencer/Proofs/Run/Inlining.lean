import Sequencer.Proofs.Program.Inlining
import Sequencer.Proofs.Run.Bare
import Sequencer.Proofs.Run.Refusals
import Sequencer.Proofs.Run.Timely

/-! # Performing inlined blocks

With exact arithmetic a machine that plays a block by itself does the same as one that finds the
commands of the block in its place, as long as there is no stop and no refusal. The first machine
takes steps to enter and to leave the block, during which the second one waits.
-/

namespace Sequencer.Machine

open Run

variable {β : Type}

/-! ## Frames -/

/-- Frames and definitions in progress of a machine, and of one that performs the program with
commands inlined. Where the first machine has entered a block that is inlined in the second one, a
sequence of the second machine continues with the commands of the block and goes on with the
sequence that the block is played from. -/
inductive Framed (program : Program) :
    List (Frame ℚ) → List (Kind × String) → List (Frame ℚ) → List (Kind × String) → Prop
  | nil : Framed program [] [] [] []
  | sequence {rest rest' frames stack frames' stack'} (start mix elapsed) :
      program.Inlines rest rest' → Framed program frames stack frames' stack' →
      Framed program (.sequence rest start mix elapsed :: frames) stack
        (.sequence rest' start mix elapsed :: frames') stack'
  | inlined {rest rest' after after' outer start' mix elapsed elapsed' frames stack frames' stack'}
      (key offset mixWithin start within) :
      program.Inlines rest rest' → start = start' + elapsed' →
      Framed program (.sequence after outer mix elapsed :: frames) stack
        (.sequence after' start' mix elapsed' :: frames') stack' →
      Framed program
        (.sequence rest start mix within :: .leave :: .together [] offset mixWithin 0 ::
          .sequence after outer mix elapsed :: frames) (key :: stack)
        (.sequence (rest' ++ after') start' mix (elapsed' + within) :: frames') stack'
  | atOnce {frames stack frames' stack'} (rest offset mix) :
      Framed program frames stack frames' stack' →
      Framed program (.atOnce rest offset mix :: frames) stack (.atOnce rest offset mix :: frames')
        stack'
  | together {frames stack frames' stack'} (rest offset mix longest) :
      Framed program frames stack frames' stack' →
      Framed program (.together rest offset mix longest :: frames) stack
        (.together rest offset mix longest :: frames') stack'
  | loop {frames stack frames' stack'} (names start mix left done total) :
      Framed program frames stack frames' stack' →
      Framed program (.loop names start mix left done total :: frames) stack
        (.loop names start mix left done total :: frames') stack'
  | leave {frames stack frames' stack'} (key) : Framed program frames stack frames' stack' →
      Framed program (.leave :: frames) (key :: stack) (.leave :: frames') (key :: stack')

namespace Framed

variable {program : Program} {frames frames' : List (Frame ℚ)} {stack stack' : List (Kind × String)}

theorem sublist (framed : Framed program frames stack frames' stack') : stack'.Sublist stack := by
  induction framed with
  | nil => exact List.Sublist.slnil
  | inlined _ _ _ _ _ _ _ _ inductionHypothesis => exact inductionHypothesis.cons _
  | leave _ _ inductionHypothesis => exact inductionHypothesis.cons_cons _
  | sequence _ _ _ _ _ inductionHypothesis | atOnce _ _ _ _ inductionHypothesis
  | together _ _ _ _ _ inductionHypothesis | loop _ _ _ _ _ _ _ inductionHypothesis =>
    exact inductionHypothesis

section Sequence

variable {rest commands' : List Command} {start start' elapsed elapsed' : ℚ} {mix mix' : Mix ℚ}

/-- Both sequences have come to the same time, in the same mix. -/
theorem now (framed : Framed program (.sequence rest start mix elapsed :: frames) stack
      (.sequence commands' start' mix' elapsed' :: frames') stack') :
    start + elapsed = start' + elapsed' ∧ mix = mix' := by
  cases framed with
  | sequence => exact ⟨rfl, rfl⟩
  | inlined _ _ _ _ _ _ times => exact ⟨by rw [times, add_assoc], rfl⟩

theorem advance (framed : Framed program (.sequence rest start mix elapsed :: frames) stack
      (.sequence commands' start' mix' elapsed' :: frames') stack') (duration : ℚ) :
    Framed program (.sequence rest start mix (elapsed + duration) :: frames) stack
      (.sequence commands' start' mix' (elapsed' + duration) :: frames') stack' := by
  cases framed with
  | sequence _ _ _ inlines outer => exact .sequence _ _ _ inlines outer
  | inlined key offset mixWithin _ _ inlines times outer =>
    rw [add_assoc]
    exact .inlined key offset mixWithin _ _ inlines times outer

/-- The next command is the same in both sequences, or it is inlined in the second one. -/
theorem next {command : Command}
    (framed : Framed program (.sequence (command :: rest) start mix elapsed :: frames) stack
      (.sequence commands' start' mix' elapsed' :: frames') stack') :
    (∃ rest', commands' = command :: rest' ∧
        Framed program (.sequence rest start mix elapsed :: frames) stack
          (.sequence rest' start' mix' elapsed' :: frames') stack') ∨
      ∃ name block rest', command.Plays name ∧ program.block? name = some block ∧
        commands' = block.commands ++ rest' ∧
        Framed program (.sequence rest start mix elapsed :: frames) stack
          (.sequence rest' start' mix' elapsed' :: frames') stack' := by
  cases framed with
  | sequence _ _ _ inlines outer =>
    cases inlines with
    | keep _ inlines => exact .inl ⟨_, rfl, .sequence _ _ _ inlines outer⟩
    | inline plays found inlines =>
      exact .inr ⟨_, _, _, plays, found, rfl, .sequence _ _ _ inlines outer⟩
  | inlined key offset mixWithin _ _ inlines times outer =>
    cases inlines with
    | keep _ inlines => exact .inl ⟨_, rfl, .inlined key offset mixWithin _ _ inlines times outer⟩
    | inline plays found inlines =>
      exact .inr ⟨_, _, _, plays, found, List.append_assoc _ _ _,
        .inlined key offset mixWithin _ _ inlines times outer⟩

/-- A sequence is beside a sequence. -/
theorem sequence_left (framed : Framed program (.sequence rest start mix elapsed :: frames) stack
      frames' stack') :
    ∃ rest' start' mix' elapsed' below', frames' = .sequence rest' start' mix' elapsed' :: below' := by
  cases framed with
  | sequence | inlined => exact ⟨_, _, _, _, _, rfl⟩

/-- At the end of a sequence the other one ends as well, or goes on after an inlined block. -/
theorem ended (framed : Framed program (.sequence [] start mix elapsed :: frames) stack
      (.sequence commands' start' mix' elapsed' :: frames') stack') :
    (commands' = [] ∧ elapsed' = elapsed ∧ Framed program frames stack frames' stack') ∨
      ∃ key offset mixWithin after outer before before' below stackBelow,
        frames = .leave :: .together [] offset mixWithin 0 ::
          .sequence after outer mix before :: below ∧
        stack = key :: stackBelow ∧ elapsed' = before' + elapsed ∧
        Framed program (.sequence after outer mix before :: below) stackBelow
          (.sequence commands' start' mix' before' :: frames') stack' := by
  cases framed with
  | sequence _ _ _ inlines outer =>
    cases inlines
    exact .inl ⟨rfl, rfl, outer⟩
  | inlined key offset mixWithin _ _ inlines times outer =>
    cases inlines
    exact .inr ⟨key, offset, mixWithin, _, _, _, _, _, _, rfl, rfl, rfl, outer⟩

end Sequence

end Framed

/-! ## Machines -/

/-- Tasks of the two machines, with what waits for them and what is in progress. -/
inductive Aligned (program : Program) : Task ℚ → List (Frame ℚ) → List (Kind × String) →
    Task ℚ → List (Frame ℚ) → List (Kind × String) → Prop
  | same {frames stack frames' stack'} (task) : Framed program frames stack frames' stack' →
      Aligned program task frames stack task frames' stack'
  | sequence {commands commands' start start' mix mix' elapsed elapsed' frames stack frames' stack'} :
      Framed program (.sequence commands start mix elapsed :: frames) stack
        (.sequence commands' start' mix' elapsed' :: frames') stack' →
      Aligned program (.sequence commands start mix elapsed) frames stack
        (.sequence commands' start' mix' elapsed') frames' stack'
  | block {block block' frames stack frames' stack'} (offset mix) :
      block.Inlined program block' → Framed program frames stack frames' stack' →
      Aligned program (.invoke .block block offset mix) frames stack
        (.invoke .block block' offset mix) frames' stack'

/-- A machine that plays blocks by itself, and one that finds them inlined. -/
structure Inlines (program : Program) (machine machine' : Machine ℚ β) : Prop where
  aligned : Aligned program machine.task machine.frames machine.run.stack machine'.task
    machine'.frames machine'.run.stack
  bare : machine.run.bare = machine'.run.bare
  invocations : machine'.run.invocations ≤ machine.run.invocations

/-- A sequence is beside a sequence. -/
theorem Aligned.of_sequence {program : Program} {commands : List Command} {start : ℚ} {mix : Mix ℚ}
    {elapsed : ℚ} {frames frames' : List (Frame ℚ)} {stack stack' : List (Kind × String)}
    {task' : Task ℚ}
    (aligned : Aligned program (.sequence commands start mix elapsed) frames stack task' frames'
      stack') :
    ∃ commands' start' mix' elapsed', task' = .sequence commands' start' mix' elapsed' ∧
      Framed program (.sequence commands start mix elapsed :: frames) stack
        (.sequence commands' start' mix' elapsed' :: frames') stack' := by
  cases aligned with
  | same _ framed => exact ⟨_, _, _, _, rfl, .sequence _ _ _ (.refl program commands) framed⟩
  | sequence framed => exact ⟨_, _, _, _, rfl, framed⟩

theorem Aligned.sublist {program : Program} {task task' : Task ℚ} {frames frames' : List (Frame ℚ)}
    {stack stack' : List (Kind × String)}
    (aligned : Aligned program task frames stack task' frames' stack') : stack'.Sublist stack := by
  cases aligned with
  | same _ framed | sequence framed | block _ _ _ framed => exact framed.sublist

/-- What is not refused is not refused where it is inlined: less is in progress there, and less has
been entered. -/
theorem Inlines.enters {program : Program} {settings : Settings} {machine machine' : Machine ℚ β}
    (inlines : machine.Inlines program machine') {kind : Kind} {name : String}
    (enters : machine.run.refusal? settings kind name = none) :
    machine'.run.refusal? settings kind name = none := by
  obtain ⟨below, fresh, shallow⟩ := refusal?_eq_none_iff.mp enters
  have sublist := inlines.aligned.sublist
  exact refusal?_eq_none_iff.mpr
    ⟨Nat.lt_of_le_of_lt inlines.invocations below, fun member => fresh (sublist.subset member),
      Nat.lt_of_le_of_lt sublist.length_le shallow⟩

theorem Inlines.running {program : Program} {machine machine' : Machine ℚ β}
    (inlines : machine.Inlines program machine') : machine.run.running = machine'.run.running :=
  congrArg State.running (fields_of_bare inlines.bare).1

section Steps

variable [Device ℚ β] {program program' : Program} {settings : Settings}

/-! ## Entering and leaving an inlined block -/

/-- There is no stop from now on, and no refusal. -/
def Undisturbed (program : Program) (settings : Settings) (machine : Machine ℚ β) : Prop :=
  ∀ moment, Reaches program settings machine moment →
    moment.run.running = true ∧ ∀ refusal, ¬ moment.Refuses settings refusal

theorem Undisturbed.later {machine later : Machine ℚ β}
    (undisturbed : machine.Undisturbed program settings)
    (reaches : Reaches program settings machine later) : later.Undisturbed program settings :=
  fun moment more => undisturbed moment (reaches.trans more)

theorem Undisturbed.running {machine : Machine ℚ β}
    (undisturbed : machine.Undisturbed program settings) : machine.run.running = true :=
  (undisturbed machine .refl).1

theorem Undisturbed.enters {machine : Machine ℚ β}
    (undisturbed : machine.Undisturbed program settings) {kind : Kind} {definition : Definition}
    {offset : ℚ} {mix : Mix ℚ} (task : machine.task = .invoke kind definition offset mix) :
    machine.run.refusal? settings kind definition.name = none := by
  cases given : machine.run.refusal? settings kind definition.name with
  | none => rfl
  | some refusal =>
    exact absurd ⟨kind, definition, offset, mix, task, given⟩ ((undisturbed machine .refl).2 refusal)

theorem nest_neutral (mix : Mix ℚ) (bindings : Variables ℚ) :
    mix.nest bindings { volume := none, pan := none } = mix := by
  have volume : mix.volume * 1 = mix.volume := mul_one _
  have pan : mix.pan + 0 = mix.pan := add_zero _
  exact congr (congrArg Mix.mk volume) pan

/-- The steps up to the first command of a block that is played. -/
theorem enters_block {command : Command} {name : String} {block : Definition}
    (plays : command.Plays name) (found : program.block? name = some block) {rest : List Command}
    {start : ℚ} {mix : Mix ℚ} {elapsed : ℚ} {frames : List (Frame ℚ)} {run : Run ℚ β}
    (undisturbed : Undisturbed program settings
      { task := .sequence (command :: rest) start mix elapsed, frames, run }) :
    Relation.TransGen (Steps program settings)
      { task := .sequence (command :: rest) start mix elapsed, frames, run }
      { task := .sequence block.commands (start + elapsed) mix 0
        frames := .leave :: .together [] (start + elapsed) mix 0 ::
          .sequence rest start mix elapsed :: frames
        run := (run.enter .block block.name).record (.blockEntered block.name (start + elapsed)) } := by
  have keys : run.ignoreKeys command = run := by rw [ignoreKeys, plays.ignoredKeys]; rfl
  let waiting : List (Frame ℚ) := .sequence rest start mix elapsed :: frames
  have starts : Steps program settings _
      { task := .command command (start + elapsed) mix, frames := waiting, run } :=
    (Move.sequenceNext command rest start mix elapsed frames undisturbed.running).steps
  have acts : Steps program settings
      { task := .command command (start + elapsed) mix, frames := waiting, run }
      { task := .together [name] (start + elapsed) mix 0, frames := waiting, run } := by
    have acting : act program settings command (start + elapsed) mix waiting run =
        { task := .together [name] (start + elapsed) mix 0, frames := waiting, run } := by
      rw [act, plays.action]
      dsimp only
      rw [nest_neutral]
    rw [Steps, step?, keys, acting]
  have names : Steps program settings _ _ :=
    (Move.togetherNext name [] (start + elapsed) mix 0 waiting run).steps
  have finds : Steps program settings _ _ :=
    (Move.blockFound (start + elapsed) mix (.together [] (start + elapsed) mix 0 :: waiting) run
      found).steps
  have invoking := ((starts.reaches.tail acts).tail names).tail finds
  have enters := (undisturbed.later invoking).enters rfl
  exact .tail' invoking (Move.entered (start + elapsed) mix _ enters).steps

/-- The steps from the end of a block that is played back to where it is played from. -/
theorem leaves_block {begins : ℚ} {mix : Mix ℚ} {within : ℚ} (nonneg : 0 ≤ within) (offset : ℚ)
    (mixWithin : Mix ℚ) (after : List Command) (outer before : ℚ) (frames : List (Frame ℚ))
    (run : Run ℚ β) :
    Relation.TransGen (Steps program settings)
      { task := .sequence [] begins mix within
        frames := .leave :: .together [] offset mixWithin 0 ::
          .sequence after outer mix before :: frames
        run }
      { task := .sequence after outer mix (before + within), frames, run := run.leave } := by
  let waiting : List (Frame ℚ) := .sequence after outer mix before :: frames
  have ends : Steps program settings _ _ :=
    (Move.sequenceEnd begins mix within (.leave :: .together [] offset mixWithin 0 :: waiting)
      run).steps
  have leaves : Steps program settings _ _ :=
    (Move.resumed within .leave (.together [] offset mixWithin 0 :: waiting) run).steps
  have returns : Steps program settings
      { task := .done within, frames := .together [] offset mixWithin 0 :: waiting, run := run.leave }
      { task := .together [] offset mixWithin within, frames := waiting, run := run.leave } := by
    rw [Steps, step?, resume, Arithmetic.larger_of_nonneg nonneg]
  have together : Steps program settings _ _ :=
    (Move.togetherEnd offset mixWithin within waiting run.leave).steps
  have goesOn : Steps program settings _ _ :=
    (Move.resumed within (.sequence after outer mix before) frames run.leave).steps
  exact .tail' ((((ends.reaches.tail leaves).tail returns).tail together)) goesOn

/-! ## Steps side by side -/

/-- The first machine goes on, the second one possibly does, and again one is beside the other. -/
def GoesOn (program program' : Program) (settings : Settings) (machine machine' : Machine ℚ β) :
    Prop :=
  ∃ later later', Relation.TransGen (Steps program settings) machine later ∧
    Reaches program' settings machine' later' ∧ later.Inlines program later'

theorem GoesOn.step {machine machine' next next' : Machine ℚ β}
    (steps : Steps program settings machine next) (steps' : Steps program' settings machine' next')
    (inlines : next.Inlines program next') : GoesOn program program' settings machine machine' :=
  ⟨next, next', .single steps, steps'.reaches, inlines⟩

theorem act_inlined (inlined : program.Inlined program') (command : Command) (offset : ℚ)
    (mix : Mix ℚ) (frames : List (Frame ℚ)) (run : Run ℚ β) :
    act program' settings command offset mix frames run =
      act program settings command offset mix frames run := by
  rw [act, act]
  cases command.action with
  | sample arguments =>
    dsimp only
    rw [inlined.customSample?]
  | loop count names arguments =>
    dsimp only
    simp only [fun name => isNone_eq_of_rel (inlined.block? name)]
  | tone | slide | wait | bpm | play | set | effect | invalid | unknown => rfl

theorem inlines_act (inlined : program.Inlined program') {run run' : Run ℚ β}
    {frames frames' : List (Frame ℚ)} (framed : Framed program frames run.stack frames' run'.stack)
    (bare : run.bare = run'.bare) (fewer : run'.invocations ≤ run.invocations) (command : Command)
    (offset : ℚ) (mix : Mix ℚ) :
    (act program settings command offset mix frames (run.ignoreKeys command)).Inlines program
      (act program' settings command offset mix frames' (run'.ignoreKeys command)) := by
  have keys : (run.ignoreKeys command).bare = (run'.ignoreKeys command).bare := by
    rw [bare_ignoreKeys, bare_ignoreKeys, bare]
  obtain ⟨task, result⟩ := act_of_bare program settings keys command offset mix frames frames'
  rw [act_inlined inlined]
  refine ⟨?_, result, ?_⟩
  · rw [← task, frames_act, frames_act, stack_act, stack_act]
    exact .same _ framed
  · rw [invocations_act, invocations_act, (Uncounted.ignoreKeys command run).invocations,
      (Uncounted.ignoreKeys command run').invocations]
    exact fewer

omit [Device ℚ β] in
theorem inlines_body {block block' : Definition} (blocks : block.Inlined program block')
    {run run' : Run ℚ β} {frames frames' : List (Frame ℚ)}
    (framed : Framed program frames run.stack frames' run'.stack) (bare : run.bare = run'.bare)
    (fewer : run'.invocations ≤ run.invocations) (offset : ℚ) (mix : Mix ℚ) :
    Machine.Inlines program
      { task := body .block block offset mix, frames := .leave :: frames
        run := (run.enter .block block.name).record (entered .block block offset) }
      { task := body .block block' offset mix, frames := .leave :: frames'
        run := (run'.enter .block block'.name).record (entered .block block' offset) } := by
  rw [← blocks.name]
  have inside := Framed.sequence offset mix 0 blocks.commands
    (.leave (.block, block.name) framed)
  refine ⟨.sequence inside, ?_, Nat.succ_le_succ fewer⟩
  rw [bare_outline rfl, bare_outline rfl, bare_enter, bare_enter, bare]

omit [Device ℚ β] in
/-- The same duration goes on with frames that are side by side. -/
theorem inlines_resume {run run' : Run ℚ β} {frame : Frame ℚ} {frames frames' : List (Frame ℚ)}
    (framed : Framed program (frame :: frames) run.stack frames' run'.stack)
    (bare : run.bare = run'.bare) (fewer : run'.invocations ≤ run.invocations) (duration : ℚ) :
    ∃ frame' below', frames' = frame' :: below' ∧
      (resume duration frame frames run).Inlines program (resume duration frame' below' run') := by
  cases frame with
  | sequence rest start mix elapsed =>
    obtain ⟨rest', start', mix', elapsed', below', rfl⟩ := framed.sequence_left
    exact ⟨_, _, rfl, .sequence (framed.advance duration), bare, fewer⟩
  | atOnce rest offset mix =>
    cases framed with
    | atOnce _ _ _ outer => exact ⟨_, _, rfl, .same _ outer, bare, fewer⟩
  | together rest offset mix longest =>
    cases framed with
    | together _ _ _ _ outer => exact ⟨_, _, rfl, .same _ outer, bare, fewer⟩
  | loop names start mix left done total =>
    cases framed with
    | loop _ _ _ _ _ _ outer => exact ⟨_, _, rfl, .same _ outer, bare, fewer⟩
  | leave =>
    generalize stack : run.stack = entered at framed
    generalize stack' : run'.stack = entered' at framed
    cases framed with
    | leave key outer =>
      have left : run.leave.stack = _ := congrArg List.tail stack
      have left' : run'.leave.stack = _ := congrArg List.tail stack'
      refine ⟨_, _, rfl, ?_, bare, fewer⟩
      rw [resume, resume, left, left']
      exact .same _ outer

/-- Each step of the first machine, along with those that enter or leave an inlined block. -/
theorem Inlines.step (inlined : program.Inlined program') {machine machine' next : Machine ℚ β}
    (inlines : machine.Inlines program machine')
    (undisturbed : machine.Undisturbed program settings) (timely : machine.Timely)
    (steps : Steps program settings machine next) :
    GoesOn program program' settings machine machine' := by
  have running' : machine'.run.running = true := inlines.running ▸ undisturbed.running
  have enters' : ∀ {kind name}, machine.run.refusal? settings kind name = none →
      machine'.run.refusal? settings kind name = none := inlines.enters
  obtain ⟨task', frames', run'⟩ := machine'
  obtain ⟨aligned, bare, fewer⟩ := inlines
  cases steps.move with
  | command command offset mix frames run =>
    cases aligned with
    | same _ framed =>
      exact .step steps (Move.command command offset mix frames' run').steps
        (inlines_act inlined framed bare fewer command offset mix)
  | sequenceEnd start mix elapsed frames run =>
    obtain ⟨commands', start', mix', elapsed', rfl, framed⟩ := aligned.of_sequence
    rcases framed.ended with ⟨rfl, rfl, outside⟩ |
      ⟨key, offset, mixWithin, after, outer, before, before', below, stackBelow, rfl, stack, rfl,
        outside⟩
    · exact .step steps (Move.sequenceEnd start' mix' _ frames' run').steps
        ⟨.same _ outside, bare, fewer⟩
    · -- the block is left, and the other machine has come there already
      have left : run.leave.stack = stackBelow := congrArg List.tail stack
      refine ⟨_, _, leaves_block timely.task offset mixWithin after outer before below run, .refl,
        .sequence ?_, bare, fewer⟩
      rw [left]
      exact outside.advance elapsed
  | sequenceNext command rest start mix elapsed frames running =>
    obtain ⟨commands', start', mix', elapsed', rfl, framed⟩ := aligned.of_sequence
    obtain ⟨now, rfl⟩ := framed.now
    rcases framed.next with ⟨rest', rfl, framed⟩ | ⟨name, block, rest', plays, found, rfl, framed⟩
    · refine .step steps (Move.sequenceNext command rest' start' mix elapsed' frames' running').steps
        ⟨?_, bare, fewer⟩
      rw [now]
      exact .same _ framed
    · -- the block is entered, and the other machine has its first command at hand already
      have entering := enters_block plays found undisturbed
      have within := Framed.inlined (.block, block.name) (start + elapsed) mix (start + elapsed) 0
        (.refl program block.commands) now framed
      rw [add_zero] at within
      refine ⟨_, _, entering, .refl, .sequence within, ?_, Nat.le_succ_of_le fewer⟩
      rw [bare_outline rfl]
      exact bare
  | sequenceLeft _ _ _ _ _ _ stopped | loopLeft _ _ _ _ _ _ _ stopped =>
    exact absurd undisturbed.running (by simp [stopped])
  | atOnceEnd offset mix frames run =>
    cases aligned with
    | same _ framed =>
      exact .step steps (Move.atOnceEnd offset mix frames' run').steps ⟨.same _ framed, bare, fewer⟩
  | atOnceNext command rest offset mix frames run =>
    cases aligned with
    | same _ framed =>
      exact .step steps (Move.atOnceNext command rest offset mix frames' run').steps
        ⟨.same _ (.atOnce rest offset mix framed), bare, fewer⟩
  | @blockFound name block offset mix frames run found =>
    cases aligned with
    | same _ framed =>
      have blocks := inlined.block? name
      rw [found] at blocks
      generalize found' : program'.block? name = block' at blocks
      cases blocks with
      | some blocks =>
        exact .step steps (Move.blockFound offset mix frames' run' found').steps
          ⟨.block _ _ blocks framed, bare, fewer⟩
  | @blockMissing name offset mix frames run missing =>
    cases aligned with
    | same _ framed =>
      have missing' : program'.block? name = none := by
        rw [← Option.isNone_iff_eq_none, ← isNone_eq_of_rel (inlined.block? name), missing]
        rfl
      refine .step steps (Move.blockMissing offset mix frames' run' missing').steps
        ⟨.same _ framed, ?_, fewer⟩
      exact (bare_record rfl).trans ((congrArg (Run.record · _) bare).trans (bare_record rfl).symm)
  | togetherEnd offset mix longest frames run =>
    cases aligned with
    | same _ framed =>
      exact .step steps (Move.togetherEnd offset mix longest frames' run').steps
        ⟨.same _ framed, bare, fewer⟩
  | togetherNext name rest offset mix longest frames run =>
    cases aligned with
    | same _ framed =>
      exact .step steps (Move.togetherNext name rest offset mix longest frames' run').steps
        ⟨.same _ (.together rest offset mix longest framed), bare, fewer⟩
  | loopEnd names start mix done total frames run =>
    cases aligned with
    | same _ framed =>
      exact .step steps (Move.loopEnd names start mix done total frames' run').steps
        ⟨.same _ framed, bare, fewer⟩
  | loopNext names start mix left done total frames running =>
    cases aligned with
    | same _ framed =>
      exact .step steps (Move.loopNext names start mix left done total frames' running').steps
        ⟨.same _ (.loop names start mix left done total framed), bare, fewer⟩
  | refused offset mix frames given =>
    have enters := undisturbed.enters rfl
    rw [given] at enters
    cases enters
  | @entered kind definition offset mix frames run enters =>
    cases aligned with
    | block _ _ blocks framed =>
      refine .step steps (Move.entered offset mix frames' ?_).steps
        (inlines_body blocks framed bare fewer offset mix)
      rw [← blocks.name]
      exact enters' enters
    | same _ framed =>
      cases kind with
      | block =>
        exact .step steps (Move.entered offset mix frames' (enters' enters)).steps
          (inlines_body (.refl program definition) framed bare fewer offset mix)
      | customSample =>
        refine .step steps (Move.entered offset mix frames' (enters' enters)).steps
          ⟨.same _ (.leave _ framed), ?_, Nat.succ_le_succ fewer⟩
        exact (bare_record rfl).trans ((congrArg (Run.record · _) bare).trans (bare_record rfl).symm)
  | resumed duration frame frames run =>
    cases aligned with
    | same _ framed =>
      obtain ⟨frame', below', rfl, resumes⟩ := inlines_resume framed bare fewer duration
      exact .step steps (Move.resumed duration frame' below' run').steps resumes

/-! ## Whole runs -/

omit [Device ℚ β] in
/-- What one machine has come to the end with, the other one beside it has come to as well. -/
theorem Inlines.ended {machine' : Machine ℚ β} {result : ℚ × Run ℚ β}
    (inlines : (finish [] result).Inlines program machine') :
    ∃ result', machine' = finish [] result' ∧ result'.1 = result.1 ∧
      result'.2.bare = result.2.bare := by
  obtain ⟨task', frames', run'⟩ := machine'
  obtain ⟨aligned, bare, -⟩ := inlines
  dsimp only at aligned
  generalize (finish [] result).run.stack = entered at aligned
  generalize run'.stack = entered' at aligned
  cases aligned with
  | same _ framed =>
    cases framed
    exact ⟨(result.1, run'), rfl, rfl, bare.symm⟩

/-- Where the first machine comes to an end, so does the second one, with the same result. -/
theorem Inlines.ends (inlined : program.Inlined program') {machine machine' : Machine ℚ β}
    (inlines : machine.Inlines program machine')
    (undisturbed : machine.Undisturbed program settings) (timely : machine.Timely)
    {result : ℚ × Run ℚ β} (reaches : Reaches program settings machine (finish [] result)) :
    ∃ result', Reaches program' settings machine' (finish [] result') ∧ result'.1 = result.1 ∧
      result'.2.bare = result.2.bare := by
  -- on the steps that are left, of which `Inlines.step` may take several at once
  induction (reaches.acc rfl).transGen generalizing machine' with
  | intro machine _ inductionHypothesis =>
    rcases Relation.ReflTransGen.cases_head reaches with rfl | ⟨next, steps, -⟩
    · obtain ⟨result', rfl, duration, bare⟩ := inlines.ended
      exact ⟨result', .refl, duration, bare⟩
    · obtain ⟨later, later', path, path', inlinesLater⟩ :=
        inlines.step inlined undisturbed timely steps
      have toLater : Reaches program settings machine later := path.to_reflTransGen
      have timelyLater : later.Timely :=
        toLater.invariant Timely timely fun before steps => before.step steps
      obtain ⟨result', reaches', same⟩ :=
        inductionHypothesis later path.swap inlinesLater (undisturbed.later toLater) timelyLater
          (reaches.of_last rfl toLater)
      exact ⟨result', path'.trans reaches', same⟩

theorem inlines_start (inlined : program.Inlined program') {state : State ℚ} {device : β}
    {journal journal' : Journal ℚ}
    (bare : (Run.start state device journal).bare = (Run.start state device journal').bare) :
    (start program (.start state device journal)).Inlines program
      (start program' (.start state device journal')) := by
  have stack := start_stack program state device journal
  have stack' := start_stack program' state device journal'
  have invocations := (uncounted_start program (.start state device journal)).invocations
  have invocations' := (uncounted_start program' (.start state device journal')).invocations
  have recorded : ((Run.start state device journal).recordHeaders program).bare =
      ((Run.start state device journal').recordHeaders program').bare := by
    rw [bare_recordHeaders, bare_recordHeaders, bare, recordHeaders_eq_recordEach,
      recordHeaders_eq_recordEach, inlined.headers]
  suffices first : Aligned program (start program (.start state device journal)).task [] []
      (start program' (.start state device journal')).task [] [] ∧
      (start program (.start state device journal)).run.bare =
        (start program' (.start state device journal')).run.bare by
    refine ⟨?_, first.2, (invocations'.trans invocations.symm).le⟩
    rw [start_frames, start_frames, stack, stack']
    exact first.1
  -- globals, the entry block or nothing at all: both programs agree on which it is
  rw [start, start, ← inlined.entry, ← isSome_eq_of_rel (inlined.block? entryBlock)]
  cases program.globals.isEmpty with
  | false => exact ⟨.sequence (.sequence _ _ _ inlined.globals .nil), recorded⟩
  | true =>
    cases (program.block? entryBlock).isSome with
    | true => exact ⟨.same _ .nil, recorded⟩
    | false =>
      refine ⟨.same _ .nil, ?_⟩
      exact (bare_record rfl).trans
        ((congrArg (Run.record · _) recorded).trans (bare_record rfl).symm)

end Steps

end Sequencer.Machine
