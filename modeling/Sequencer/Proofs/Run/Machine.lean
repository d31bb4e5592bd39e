import Mathlib.Logic.Relation
import Sequencer.Run.Performance

/-! # Performing step by step

A machine performs a program one step at a time. It has a task at hand, and frames for what waits
until the task is done. Nothing bounds its steps: there is no room that could run out, and a loop
takes all of its turns.
-/

namespace Sequencer

/-- What is done next. -/
inductive Task (α : Type) where
  | command (command : Command) (offset : α) (mix : Mix α)
  | sequence (commands : List Command) (start : α) (mix : Mix α) (elapsed : α)
  | atOnce (commands : List Command) (offset : α) (mix : Mix α)
  | block (name : String) (offset : α) (mix : Mix α)
  | together (names : List String) (offset : α) (mix : Mix α) (longest : α)
  | loop (names : List String) (start : α) (mix : Mix α) (left done : Nat) (total : α)
  | invoke (kind : Kind) (definition : Definition) (offset : α) (mix : Mix α)
  | done (duration : α)

/-- What goes on with the duration of a task. -/
inductive Frame (α : Type) where
  | sequence (rest : List Command) (start : α) (mix : Mix α) (elapsed : α)
  | atOnce (rest : List Command) (offset : α) (mix : Mix α)
  | together (rest : List String) (offset : α) (mix : Mix α) (longest : α)
  | loop (names : List String) (start : α) (mix : Mix α) (left done : Nat) (total : α)
  | leave

structure Machine (α β : Type) where
  task : Task α
  frames : List (Frame α)
  run : Run α β

namespace Machine

variable {α β : Type} [Arithmetic α]

/-- Goes on with a frame, after a task that took a while. -/
def resume (duration : α) (frame : Frame α) (frames : List (Frame α)) (run : Run α β) :
    Machine α β :=
  match frame with
  | .sequence rest start mix elapsed =>
    { task := .sequence rest start mix (elapsed + duration), frames, run }
  | .atOnce rest offset mix => { task := .atOnce rest offset mix, frames, run }
  | .together rest offset mix longest =>
    { task := .together rest offset mix (Arithmetic.larger longest duration), frames, run }
  | .loop names start mix left done total =>
    { task := .loop names start mix left (done + 1) (total + duration), frames, run }
  | .leave => { task := .done duration, frames, run := run.leave }

/-- The task that the commands of a definition are. -/
def body (kind : Kind) (definition : Definition) (offset : α) (mix : Mix α) : Task α :=
  match kind with
  | .block => .sequence definition.commands offset mix 0
  | .customSample => .atOnce definition.commands offset mix

def entered (kind : Kind) (definition : Definition) (offset : α) : Entry α :=
  match kind with
  | .block => .blockEntered definition.name offset
  | .customSample => .customSampleEntered definition.name definition.commands.length offset

variable [Device α β]

/-- Something that is done at once, with its duration. -/
def finish (frames : List (Frame α)) (result : α × Run α β) : Machine α β :=
  { task := .done result.1, frames, run := result.2 }

/-- The first step of an action. Custom samples, fan-outs and loops become tasks. -/
def act (program : Program) (settings : Settings) (command : Command) (offset : α) (mix : Mix α)
    (frames : List (Frame α)) (run : Run α β) : Machine α β :=
  match command.action with
  | .sample arguments =>
    match program.customSample? arguments.name with
    | some customSample => { task := .invoke .customSample customSample offset mix, frames, run }
    | none => finish frames (run.performSample settings arguments offset mix)
  | .tone arguments => finish frames (run.performTone settings arguments offset mix)
  | .slide arguments => finish frames (run.performSlide settings arguments offset mix)
  | .wait beats => finish frames (run.seconds beats, run)
  | .bpm value => finish frames (0, run.changeTempo command.line (run.resolve value) offset)
  | .play names arguments =>
    { task := .together names offset (mix.nest run.state.bindings arguments) 0, frames, run }
  | .loop count names arguments =>
    match names.filter fun name => (program.block? name).isNone with
    | [] =>
      let mix := mix.nest run.state.bindings arguments
      { task := .loop names offset mix (run.iterations count) 0 0, frames, run }
    | missing => finish frames (0, run.warn (.loopBlocksNotFound missing))
  | .set name value => finish frames (0, run.setVariable name (run.resolve value))
  | .effect effect block => finish frames (0, run.recordEffect block (effect.map run.resolve))
  | .invalid fault => finish frames (0, run.warn (.faultyCommand command.line command.text fault))
  | .unknown => finish frames (0, run.warn (.unknownCommand command.line command.verb))

/-- One step, unless everything is done. -/
def step? (program : Program) (settings : Settings) (machine : Machine α β) :
    Option (Machine α β) :=
  let { task, frames, run } := machine
  match task with
  | .command command offset mix =>
    some (act program settings command offset mix frames (run.ignoreKeys command))
  | .sequence [] _ _ elapsed => some (finish frames (elapsed, run))
  | .sequence (command :: rest) start mix elapsed =>
    if run.running then
      some
        { task := .command command (start + elapsed) mix
          frames := .sequence rest start mix elapsed :: frames
          run }
    else some (finish frames (elapsed, run.record (.sequenceLeft (start + elapsed))))
  | .atOnce [] _ _ => some (finish frames (0, run))
  | .atOnce (command :: rest) offset mix =>
    some { task := .command command offset mix, frames := .atOnce rest offset mix :: frames, run }
  | .block name offset mix =>
    match program.block? name with
    | some block => some { task := .invoke .block block offset mix, frames, run }
    | none => some (finish frames (0, run.warn (.blockNotFound name)))
  | .together [] _ _ longest => some (finish frames (longest, run))
  | .together (name :: rest) offset mix longest =>
    some
      { task := .block name offset mix, frames := .together rest offset mix longest :: frames, run }
  | .loop _ _ _ 0 _ total => some (finish frames (total, run))
  | .loop names start mix (left + 1) done total =>
    if run.running then
      some
        { task := .together names (start + total) mix 0
          frames := .loop names start mix left done total :: frames
          run }
    else some (finish frames (total, run.record (.loopLeft done)))
  | .invoke kind definition offset mix =>
    match run.refusal? settings kind definition.name with
    | some refusal =>
      some (finish frames (0, run.refuse settings { kind, name := definition.name, refusal }))
    | none =>
      some
        { task := body kind definition offset mix
          frames := .leave :: frames
          run := (run.enter kind definition.name).record (entered kind definition offset) }
  | .done duration =>
    match frames with
    | [] => none
    | frame :: frames => some (resume duration frame frames run)

/-- The machine that performs a program, once the effects of the headers are recorded. -/
def start (program : Program) (run : Run α β) : Machine α β :=
  let run := run.recordHeaders program
  if !program.globals.isEmpty then
    { task := .sequence program.globals 0 .neutral 0, frames := [], run }
  else if (program.block? Run.entryBlock).isSome then
    { task := .together [Run.entryBlock] 0 .neutral 0, frames := [], run }
  else finish [] (0, run.record .nothingToPlay)

/-! ## What a step does -/

def Steps (program : Program) (settings : Settings) (first second : Machine α β) : Prop :=
  first.step? program settings = some second

/-- Each way to make a step, with the condition under which it is made. -/
inductive Move (program : Program) (settings : Settings) : Machine α β → Machine α β → Prop
  | command (command offset mix frames run) :
      Move program settings { task := .command command offset mix, frames, run }
        (act program settings command offset mix frames (run.ignoreKeys command))
  | sequenceEnd (start mix elapsed frames run) :
      Move program settings { task := .sequence [] start mix elapsed, frames, run }
        (finish frames (elapsed, run))
  | sequenceNext (command rest start mix elapsed frames) {run} : run.running = true →
      Move program settings { task := .sequence (command :: rest) start mix elapsed, frames, run }
        { task := .command command (start + elapsed) mix
          frames := .sequence rest start mix elapsed :: frames
          run }
  | sequenceLeft (command rest start mix elapsed frames) {run} : run.running = false →
      Move program settings { task := .sequence (command :: rest) start mix elapsed, frames, run }
        (finish frames (elapsed, run.record (.sequenceLeft (start + elapsed))))
  | atOnceEnd (offset mix frames run) :
      Move program settings { task := .atOnce [] offset mix, frames, run } (finish frames (0, run))
  | atOnceNext (command rest offset mix frames run) :
      Move program settings { task := .atOnce (command :: rest) offset mix, frames, run }
        { task := .command command offset mix, frames := .atOnce rest offset mix :: frames, run }
  | blockFound {name block} (offset mix frames run) : program.block? name = some block →
      Move program settings { task := .block name offset mix, frames, run }
        { task := .invoke .block block offset mix, frames, run }
  | blockMissing {name} (offset mix frames run) : program.block? name = none →
      Move program settings { task := .block name offset mix, frames, run }
        (finish frames (0, run.warn (.blockNotFound name)))
  | togetherEnd (offset mix longest frames run) :
      Move program settings { task := .together [] offset mix longest, frames, run }
        (finish frames (longest, run))
  | togetherNext (name rest offset mix longest frames run) :
      Move program settings { task := .together (name :: rest) offset mix longest, frames, run }
        { task := .block name offset mix
          frames := .together rest offset mix longest :: frames
          run }
  | loopEnd (names start mix done total frames run) :
      Move program settings { task := .loop names start mix 0 done total, frames, run }
        (finish frames (total, run))
  | loopNext (names start mix left done total frames) {run} : run.running = true →
      Move program settings { task := .loop names start mix (left + 1) done total, frames, run }
        { task := .together names (start + total) mix 0
          frames := .loop names start mix left done total :: frames
          run }
  | loopLeft (names start mix left done total frames) {run} : run.running = false →
      Move program settings { task := .loop names start mix (left + 1) done total, frames, run }
        (finish frames (total, run.record (.loopLeft done)))
  | refused {kind definition refusal} (offset mix frames) {run} :
      run.refusal? settings kind definition.name = some refusal →
      Move program settings { task := .invoke kind definition offset mix, frames, run }
        (finish frames (0, run.refuse settings { kind, name := definition.name, refusal }))
  | entered {kind definition} (offset mix frames) {run} :
      run.refusal? settings kind definition.name = none →
      Move program settings { task := .invoke kind definition offset mix, frames, run }
        { task := body kind definition offset mix
          frames := .leave :: frames
          run := (run.enter kind definition.name).record (Machine.entered kind definition offset) }
  | resumed (duration frame frames run) :
      Move program settings { task := .done duration, frames := frame :: frames, run }
        (resume duration frame frames run)

/-- There are no other ways. -/
theorem Steps.move {program : Program} {settings : Settings} {before after : Machine α β}
    (steps : Steps program settings before after) : Move program settings before after := by
  obtain ⟨task, frames, run⟩ := before
  rw [Steps, step?.eq_def] at steps
  cases task with
  | command command offset mix =>
    obtain rfl := Option.some.inj steps
    exact .command command offset mix frames run
  | sequence commands start mix elapsed =>
    cases commands with
    | nil =>
      obtain rfl := Option.some.inj steps
      exact .sequenceEnd start mix elapsed frames run
    | cons command rest =>
      cases running : run.running with
      | true =>
        simp only [running, if_true] at steps
        obtain rfl := Option.some.inj steps
        exact .sequenceNext command rest start mix elapsed frames running
      | false =>
        simp only [running] at steps
        obtain rfl := Option.some.inj steps
        exact .sequenceLeft command rest start mix elapsed frames running
  | atOnce commands offset mix =>
    cases commands with
    | nil =>
      obtain rfl := Option.some.inj steps
      exact .atOnceEnd offset mix frames run
    | cons command rest =>
      obtain rfl := Option.some.inj steps
      exact .atOnceNext command rest offset mix frames run
  | block name offset mix =>
    dsimp only at steps
    split at steps <;> obtain rfl := Option.some.inj steps
    · next found => exact .blockFound offset mix frames run found
    · next missing => exact .blockMissing offset mix frames run missing
  | together names offset mix longest =>
    cases names with
    | nil =>
      obtain rfl := Option.some.inj steps
      exact .togetherEnd offset mix longest frames run
    | cons name rest =>
      obtain rfl := Option.some.inj steps
      exact .togetherNext name rest offset mix longest frames run
  | loop names start mix left done total =>
    cases left with
    | zero =>
      obtain rfl := Option.some.inj steps
      exact .loopEnd names start mix done total frames run
    | succ left =>
      cases running : run.running with
      | true =>
        simp only [running, if_true] at steps
        obtain rfl := Option.some.inj steps
        exact .loopNext names start mix left done total frames running
      | false =>
        simp only [running] at steps
        obtain rfl := Option.some.inj steps
        exact .loopLeft names start mix left done total frames running
  | invoke kind definition offset mix =>
    dsimp only at steps
    split at steps <;> obtain rfl := Option.some.inj steps
    · next given => exact .refused offset mix frames given
    · next enters => exact .entered offset mix frames enters
  | done duration =>
    cases frames with
    | nil => cases steps
    | cons frame frames =>
      obtain rfl := Option.some.inj steps
      exact .resumed duration frame frames run

theorem Move.steps {program : Program} {settings : Settings} {before after : Machine α β}
    (move : Move program settings before after) : Steps program settings before after := by
  rw [Steps]
  cases move with
  | sequenceNext _ _ _ _ _ _ running | loopNext _ _ _ _ _ _ _ running =>
    rw [step?]
    simp only [running, if_true]
  | sequenceLeft _ _ _ _ _ _ stopped | loopLeft _ _ _ _ _ _ _ stopped =>
    rw [step?]
    simp only [stopped]
    rfl
  | blockFound _ _ _ _ found =>
    rw [step?]
    simp only [found]
  | blockMissing _ _ _ _ missing =>
    rw [step?]
    simp only [missing]
  | refused _ _ _ given =>
    rw [step?]
    simp only [given]
  | entered _ _ _ enters =>
    rw [step?]
    simp only [enters]
  | command | sequenceEnd | atOnceEnd | atOnceNext | togetherEnd | togetherNext | loopEnd | resumed =>
    rfl

/-! ## Reachable machines -/

/-- Any number of steps, none included. -/
def Reaches (program : Program) (settings : Settings) : Machine α β → Machine α β → Prop :=
  Relation.ReflTransGen (Steps program settings)

section Reaches

variable {program : Program} {settings : Settings} {first second third : Machine α β}

/-- Steps leave no choice. -/
theorem Steps.unique (steps : Steps program settings first second)
    (other : Steps program settings first third) : second = third :=
  Option.some.inj (steps.symm.trans other)

theorem Steps.reaches (steps : Steps program settings first second) :
    Reaches program settings first second :=
  Relation.ReflTransGen.single steps

theorem Reaches.trans (left : Reaches program settings first second)
    (right : Reaches program settings second third) : Reaches program settings first third :=
  Relation.ReflTransGen.trans left right

/-- Of two machines that are reached, the one comes from the other. -/
theorem Reaches.total (left : Reaches program settings first second)
    (right : Reaches program settings first third) :
    Reaches program settings second third ∨ Reaches program settings third second :=
  Relation.ReflTransGen.total_of_right_unique (fun _ _ _ => Steps.unique) left right

/-- What is reached before the end goes on to the end. -/
theorem Reaches.of_last (toLast : Reaches program settings first third)
    (last : third.step? program settings = none) (toSecond : Reaches program settings first second) :
    Reaches program settings second third := by
  rcases toSecond.total toLast with forward | backward
  · exact forward
  · cases Relation.ReflTransGen.cases_head backward with
    | inl same => exact same ▸ .refl
    | inr later =>
      obtain ⟨next, steps, _⟩ := later
      rw [Steps, last] at steps
      cases steps

/-- A run comes to one end. -/
theorem Reaches.end_unique {result result' : α × Run α β}
    (reaches : Reaches program settings first (finish [] result))
    (reaches' : Reaches program settings first (finish [] result')) : result = result' := by
  rcases Relation.ReflTransGen.cases_head (reaches.of_last rfl reaches') with same | ⟨next, steps, -⟩
  · injection same with task _ run
    exact Prod.ext (Task.done.inj task).symm run.symm
  · cases steps

/-- From a machine that comes to an end there is no way to go on forever. -/
theorem Reaches.acc (reaches : Reaches program settings first second)
    (atEnd : second.step? program settings = none) :
    Acc (Function.swap (Steps program settings)) first := by
  induction reaches using Relation.ReflTransGen.head_induction_on with
  | refl =>
    refine ⟨_, fun next (steps : Steps program settings second next) => ?_⟩
    rw [Steps, atEnd] at steps
    cases steps
  | head steps _ inductionHypothesis =>
    refine ⟨_, fun next other => ?_⟩
    obtain rfl := steps.unique other
    exact inductionHypothesis

/-- A property of the first machine that each step keeps. -/
theorem Reaches.invariant (reaches : Reaches program settings first second)
    (holds : Machine α β → Prop) (base : holds first)
    (keeps : ∀ {before after}, holds before → Steps program settings before after → holds after) :
    holds second := by
  induction reaches with
  | refl => exact base
  | tail _ steps inductionHypothesis => exact keeps inductionHypothesis steps

/-- Steps from machines that all have a property. -/
def ReachesWhile (program : Program) (settings : Settings) (holds : Machine α β → Prop) :
    Machine α β → Machine α β → Prop :=
  Relation.ReflTransGen fun before after => Steps program settings before after ∧ holds before

theorem ReachesWhile.reaches {holds : Machine α β → Prop}
    (path : ReachesWhile program settings holds first second) :
    Reaches program settings first second :=
  path.lift id fun _ _ steps => steps.1

theorem ReachesWhile.mono {holds weaker : Machine α β → Prop}
    (path : ReachesWhile program settings holds first second)
    (implies : ∀ machine, holds machine → weaker machine) :
    ReachesWhile program settings weaker first second :=
  path.lift id fun before _ steps => ⟨steps.1, implies before steps.2⟩

/-- A property that is lost on the way is lost with one step. -/
theorem Reaches.exit (reaches : Reaches program settings first third) (holds : Machine α β → Prop)
    (base : holds first) (lost : ¬ holds third) :
    ∃ before after, ReachesWhile program settings holds first before ∧ holds before ∧
      Steps program settings before after ∧ ¬ holds after ∧ Reaches program settings after third := by
  induction reaches using Relation.ReflTransGen.head_induction_on with
  | refl => exact absurd base lost
  | head steps rest inductionHypothesis =>
    rename_i current next
    by_cases still : holds next
    · obtain ⟨before, after, path, holdsBefore, exits, gone, later⟩ := inductionHypothesis still
      exact ⟨before, after, .head ⟨steps, base⟩ path, holdsBefore, exits, gone, later⟩
    · exact ⟨current, next, .refl, base, steps, still, rest⟩

end Reaches

end Machine

end Sequencer
