import Sequencer.Proofs.Run.Bookkeeping
import Sequencer.Proofs.Run.Nesting

/-! # Stops from outside

Whoever holds the flag of a run can lower it, at any moment: another thread, or the device while it
is told of an effect. `Interleaves` puts such stops between steps. Every interleaving is performed by
`performAmid`, which is told before which steps the flag is lowered, and each of them comes to an end.
-/

namespace Sequencer

variable {α β : Type}

/-! ## What is left of a run -/

/-- A loop plays blocks of the program, and what is invoked is a definition of it. -/
def Task.Declared (program : Program) : Task α → Prop
  | .loop names _ _ _ _ _ => ∀ name ∈ names, (program.block? name).isSome = true
  | .invoke kind definition _ _ => (kind, definition.name) ∈ program.keys
  | _ => True

def Frame.Declared (program : Program) : Frame α → Prop
  | .loop names _ _ _ _ _ => ∀ name ∈ names, (program.block? name).isSome = true
  | _ => True

namespace Run

/-- The flag is lowered by somebody who holds it. -/
def lowerFlag (run : Run α β) : Run α β := { run with state := { run.state with running := false } }

end Run

/-- A task, performed as a whole. -/
def Task.perform [Arithmetic α] [Device α β] (program : Program) (settings : Settings)
    (task : Task α) (run : Run α β) : α × Run α β :=
  let invoke := Run.invoke program settings (Run.room program)
  let perform := Run.performCommand program settings invoke
  match task with
  | .command own offset mix => perform own offset mix run
  | .sequence commands start mix elapsed =>
    Run.inSequence (fun own start run => perform own start mix run) start commands elapsed run
  | .atOnce commands offset mix =>
    (0, Run.atOnce (fun own run => perform own offset mix run) commands run)
  | .block name offset mix => Run.playBlock program invoke offset mix name run
  | .together names offset mix longest =>
    Run.together (Run.playBlock program invoke offset mix) names longest run
  | .loop names start mix left turns total =>
    Run.repeatedly (fun start run => Run.playTogether program invoke names start mix run) start left
      turns total run
  | .invoke kind definition offset mix => invoke kind definition offset mix run
  | .done duration => (duration, run)

namespace Machine

open Run

structure Declared (program : Program) (machine : Machine α β) : Prop where
  task : machine.task.Declared program
  frames : ∀ frame ∈ machine.frames, frame.Declared program

def lowerFlag (machine : Machine α β) : Machine α β := { machine with run := machine.run.lowerFlag }

theorem Declared.lowerFlag {program : Program} {machine : Machine α β}
    (declared : machine.Declared program) : machine.lowerFlag.Declared program :=
  ⟨declared.task, declared.frames⟩

variable [Arithmetic α] [Device α β] {program : Program} {settings : Settings}

theorem declared_start (program : Program) (run : Run α β) : (start program run).Declared program := by
  refine ⟨?_, by simp [start_frames]⟩
  rcases start_task_cases program run with task | task | task <;>
    · rw [task]
      trivial

theorem Declared.act {frames : List (Frame α)} (declared : ∀ frame ∈ frames, frame.Declared program)
    (command : Command) (offset : α) (mix : Mix α) (run : Run α β) :
    (act program settings command offset mix frames run).Declared program := by
  refine ⟨?_, by rwa [frames_act]⟩
  rw [Machine.act]
  cases command.action with
  | sample arguments =>
    dsimp only
    cases found : program.customSample? arguments.name with
    | some customSample => exact Program.mem_keys_of_customSample? found
    | none => trivial
  | loop count names arguments =>
    dsimp only
    cases missing : names.filter fun name => (program.block? name).isNone with
    | nil =>
      -- the filter has found no block that is missing
      intro name member
      have kept := List.filter_eq_nil_iff.mp missing name member
      rwa [Bool.not_eq_true, Option.isNone_eq_false_iff] at kept
    | cons first rest => trivial
  | tone | slide | wait | bpm | play | set | effect | invalid | unknown => trivial

theorem Declared.step {before after : Machine α β} (declared : before.Declared program)
    (steps : Steps program settings before after) : after.Declared program := by
  obtain ⟨task, waiting⟩ := declared
  cases steps.move with
  | command command offset mix frames run => exact .act waiting command offset mix _
  | blockFound offset mix frames run found => exact ⟨Program.mem_keys_of_block? found, waiting⟩
  | loopNext => exact ⟨trivial, List.forall_mem_cons.mpr ⟨task, waiting⟩⟩
  | sequenceNext | atOnceNext | togetherNext =>
    exact ⟨trivial, List.forall_mem_cons.mpr ⟨trivial, waiting⟩⟩
  | @entered kind => cases kind <;> exact ⟨trivial, List.forall_mem_cons.mpr ⟨trivial, waiting⟩⟩
  | resumed duration frame =>
    obtain ⟨next, others⟩ := List.forall_mem_cons.mp waiting
    cases frame with
    | loop => exact ⟨next, others⟩
    | sequence | atOnce | together | leave => exact ⟨trivial, others⟩
  | sequenceEnd | sequenceLeft | atOnceEnd | blockMissing | togetherEnd | loopEnd | loopLeft
  | refused => exact ⟨trivial, waiting⟩

/-- Goes on with what waits, once a task has come to a result. -/
def goOn (program : Program) (settings : Settings) : List (Frame α) → α × Run α β → α × Run α β
  | [], result => result
  | frame :: frames, (duration, run) =>
    let next := resume duration frame frames run
    goOn program settings frames (next.task.perform program settings next.run)

/-- What is left of a run, performed as a whole. -/
def rest (program : Program) (settings : Settings) (machine : Machine α β) : α × Run α β :=
  goOn program settings machine.frames (machine.task.perform program settings machine.run)

section Rest

variable [Arithmetic.LawfulZero α]

theorem completes_task {task : Task α} (declared : task.Declared program) (run : Run α β) :
    Completes program settings task run (task.perform program settings run) := by
  have keeps := stack_performCommand (α := α) (β := β) program settings (room program)
  have fits := unentered_le_room program run.stack
  have invokes : InvokesWithin (α := α) program settings (room program) run.stack β :=
    invokes_within program settings fits
  cases task with
  | command command offset mix => exact completes_anywhere program settings command offset mix run
  | sequence commands start mix elapsed =>
    exact completes_sequence
      (fun command offset run _ => completes_anywhere program settings command offset mix run)
      (fun command offset run => keeps command offset mix run) commands elapsed rfl
  | atOnce commands offset mix =>
    exact completes_atOnce
      (fun command run _ => completes_anywhere program settings command offset mix run)
      (fun command run => keeps command offset mix run) commands rfl
  | block name offset mix => exact completes_block invokes name offset mix run rfl
  | together names offset mix longest =>
    exact completes_together (fun name run same => completes_block invokes name offset mix run same)
      (stack_playBlock program settings (room program) offset mix) names longest rfl
  | loop names start mix left done total =>
    exact completes_loop names
      (fun name offset run same => completes_block invokes name offset mix run same) declared fits
      start left done total rfl
  | invoke kind definition offset mix => exact invokes kind definition offset mix run declared rfl
  | done duration => exact .done duration run

theorem reaches_goOn {frames : List (Frame α)} (declared : ∀ frame ∈ frames, frame.Declared program)
    (result : α × Run α β) :
    Reaches program settings (finish frames result) (finish [] (goOn program settings frames result)) := by
  induction frames generalizing result with
  | nil => exact .refl
  | cons frame frames inductionHypothesis =>
    obtain ⟨duration, run⟩ := result
    obtain ⟨own, others⟩ := List.forall_mem_cons.mp declared
    have next : (resume duration frame frames run).task.Declared program := by
      cases frame with
      | loop => exact own
      | sequence | atOnce | together | leave => trivial
    have waiting : resume duration frame frames run =
        { task := (resume duration frame frames run).task, frames
          run := (resume duration frame frames run).run } := by
      cases frame <;> rfl
    have steps : Steps program settings (finish (frame :: frames) (duration, run))
        (resume duration frame frames run) := (Move.resumed duration frame frames run).steps
    rw [waiting] at steps
    exact steps.reaches.trans
      ((completes_task next _ frames).trans (inductionHypothesis others _))

/-- From any moment of a run the end is reached. -/
theorem Declared.reaches_rest {machine : Machine α β} (declared : machine.Declared program) :
    Reaches program settings machine (finish [] (machine.rest program settings)) :=
  (completes_task declared.task machine.run machine.frames).trans (reaches_goOn declared.frames _)

theorem rest_start (program : Program) (settings : Settings) (run : Run α β) :
    (start program run).rest program settings = performProgram program settings run :=
  (declared_start program run).reaches_rest.end_unique (reaches_end program settings run)

end Rest

/-! ## Interleavings -/

/-- A step, or a stop by another holder of the flag. -/
inductive Interleaves (program : Program) (settings : Settings) : Machine α β → Machine α β → Prop
  | step {before after} : Steps program settings before after →
      Interleaves program settings before after
  | lowered (machine) : Interleaves program settings machine machine.lowerFlag

/-- Any number of steps and of stops between them. -/
def Interleaving (program : Program) (settings : Settings) : Machine α β → Machine α β → Prop :=
  Relation.ReflTransGen (Interleaves program settings)

theorem Reaches.interleaving {first second : Machine α β}
    (reaches : Reaches program settings first second) :
    Interleaving program settings first second :=
  reaches.lift id fun _ _ => .step

/-- A property that steps keep, and stops from outside. -/
theorem Interleaving.invariant {first second : Machine α β}
    (interleaving : Interleaving program settings first second) (holds : Machine α β → Prop)
    (base : holds first) (lowered : ∀ {machine}, holds machine → holds machine.lowerFlag)
    (keeps : ∀ {before after}, holds before → Steps program settings before after → holds after) :
    holds second := by
  induction interleaving with
  | refl => exact base
  | tail _ next inductionHypothesis =>
    cases next with
    | step steps => exact keeps inductionHypothesis steps
    | lowered => exact lowered inductionHypothesis

/-- Nobody raises a flag again. -/
theorem Interleaving.running {first last : Machine α β}
    (interleaving : Interleaving program settings first last) (running : last.run.running = true) :
    first.run.running = true := by
  induction interleaving with
  | refl => exact running
  | tail _ next inductionHypothesis =>
    cases next with
    | step steps => exact inductionHypothesis (running_step steps running)
    | lowered => cases running

/-- The machine once others have lowered its flag, or have not. -/
def hear (machine : Machine α β) : Bool → Machine α β
  | true => machine.lowerFlag
  | false => machine

omit [Arithmetic α] [Device α β] in
theorem Declared.hear {machine : Machine α β} (declared : machine.Declared program)
    (lowers : Bool) : (machine.hear lowers).Declared program := by
  cases lowers with
  | true => exact declared.lowerFlag
  | false => exact declared

/-- Performs what is left of a run while others may lower its flag. The list tells before which of
the next steps they do. -/
def performAmid (program : Program) (settings : Settings) :
    List Bool → Machine α β → α × Run α β
  | [], machine => machine.rest program settings
  | lowers :: later, machine =>
    match (machine.hear lowers).step? program settings with
    | some next => performAmid program settings later next
    | none => (machine.hear lowers).rest program settings

/-- The moments of a run while others may lower its flag. -/
inductive Passes (program : Program) (settings : Settings) :
    List Bool → Machine α β → Machine α β → Prop
  | now (meanwhile machine) :
      Passes program settings meanwhile machine (machine.hear (meanwhile.headD false))
  | later {meanwhile machine next moment} :
      Steps program settings (machine.hear (meanwhile.headD false)) next →
      Passes program settings meanwhile.tail next moment →
      Passes program settings meanwhile machine moment

/-- Others lower the flag before the run is over. -/
def Interferes (program : Program) (settings : Settings) : List Bool → Machine α β → Prop
  | [], _ => False
  | true :: _, _ => True
  | false :: later, machine =>
    ∃ next, Steps program settings machine next ∧ Interferes program settings later next

theorem Passes.interleaving {meanwhile : List Bool} {machine moment : Machine α β}
    (passes : Passes program settings meanwhile machine moment) :
    Interleaving program settings machine moment := by
  have heard (machine : Machine α β) (lowers : Bool) :
      Interleaving program settings machine (machine.hear lowers) := by
    cases lowers with
    | true => exact .single (.lowered machine)
    | false => exact .refl
  induction passes with
  | now meanwhile machine => exact heard machine _
  | later steps _ inductionHypothesis =>
    exact ((heard _ _).tail (.step steps)).trans inductionHypothesis

theorem Reaches.passes {first second : Machine α β}
    (reaches : Reaches program settings first second) :
    Passes program settings [] first second := by
  induction reaches using Relation.ReflTransGen.head_induction_on with
  | refl => exact .now [] second
  | head steps _ inductionHypothesis => exact .later steps inductionHypothesis

section Ends

variable [Arithmetic.LawfulZero α] {machine : Machine α β}

/-- What is left of a run that has ended is its result. -/
theorem Declared.eq_finish (declared : machine.Declared program)
    (ended : machine.step? program settings = none) :
    finish [] (machine.rest program settings) = machine := by
  rcases Relation.ReflTransGen.cases_head declared.reaches_rest with
    same | ⟨next, steps, -⟩
  · exact same.symm
  · rw [Steps, ended] at steps
    cases steps

theorem Declared.performAmid_of_steps (declared : machine.Declared program) (meanwhile : List Bool)
    {next : Machine α β}
    (steps : Steps program settings (machine.hear (meanwhile.headD false)) next) :
    performAmid program settings meanwhile machine =
      performAmid program settings meanwhile.tail next := by
  cases meanwhile with
  | nil =>
    have steps : Steps program settings machine next := steps
    exact declared.reaches_rest.end_unique (steps.reaches.trans (declared.step steps).reaches_rest)
  | cons lowers later =>
    have steps : (machine.hear lowers).step? program settings = some next := steps
    rw [performAmid, steps]
    rfl

omit [Arithmetic.LawfulZero α] in
theorem performAmid_of_ended (meanwhile : List Bool)
    (ended : (machine.hear (meanwhile.headD false)).step? program settings = none) :
    performAmid program settings meanwhile machine =
      (machine.hear (meanwhile.headD false)).rest program settings := by
  cases meanwhile with
  | nil => rfl
  | cons lowers later =>
    have ended : (machine.hear lowers).step? program settings = none := ended
    rw [performAmid, ended]
    rfl

/-- The end is one of the moments. -/
theorem Declared.passes_performAmid (declared : machine.Declared program) (meanwhile : List Bool) :
    Passes program settings meanwhile machine
      (finish [] (performAmid program settings meanwhile machine)) := by
  induction meanwhile generalizing machine with
  | nil => exact declared.reaches_rest.passes
  | cons lowers later inductionHypothesis =>
    have heard := declared.hear lowers
    cases next : (machine.hear lowers).step? program settings with
    | none =>
      rw [performAmid_of_ended (lowers :: later) next, List.headD_cons, heard.eq_finish next]
      exact .now (lowers :: later) machine
    | some after =>
      rw [declared.performAmid_of_steps (lowers :: later) next]
      exact .later next (inductionHypothesis (heard.step next))

/-- From each moment the run goes on to its end. -/
theorem Passes.toEnd {meanwhile : List Bool} {moment : Machine α β}
    (passes : Passes program settings meanwhile machine moment)
    (declared : machine.Declared program) :
    Interleaving program settings moment
      (finish [] (performAmid program settings meanwhile machine)) := by
  induction passes with
  | now meanwhile machine =>
    have heard := declared.hear (meanwhile.headD false)
    cases next : (machine.hear (meanwhile.headD false)).step? program settings with
    | none =>
      rw [performAmid_of_ended meanwhile next, heard.eq_finish next]
      exact .refl
    | some after =>
      rw [declared.performAmid_of_steps meanwhile next]
      exact .head (.step next) ((heard.step next).passes_performAmid _).interleaving
  | later steps _ inductionHypothesis =>
    rw [declared.performAmid_of_steps _ steps]
    exact inductionHypothesis ((declared.hear _).step steps)

/-- A flag that is lowered at the end has been lowered at some moment, and the other way round. -/
theorem Declared.stopped_iff (declared : machine.Declared program) (meanwhile : List Bool) :
    (performAmid program settings meanwhile machine).2.running = false ↔
      ∃ moment, Passes program settings meanwhile machine moment ∧ moment.run.running = false := by
  constructor
  · intro stopped
    exact ⟨_, declared.passes_performAmid meanwhile, stopped⟩
  · rintro ⟨moment, passes, stopped⟩
    cases running : (performAmid program settings meanwhile machine).2.running with
    | false => rfl
    | true => exact absurd ((passes.toEnd declared).running running) (by simp [stopped])

theorem Declared.stopped_of_interferes (declared : machine.Declared program) {meanwhile : List Bool}
    (interferes : Interferes program settings meanwhile machine) :
    (performAmid program settings meanwhile machine).2.running = false := by
  induction meanwhile generalizing machine with
  | nil => exact interferes.elim
  | cons lowers later inductionHypothesis =>
    cases lowers with
    | true => exact (declared.stopped_iff _).mpr ⟨_, .now (true :: later) machine, rfl⟩
    | false =>
      obtain ⟨next, steps, interferes⟩ := interferes
      rw [declared.performAmid_of_steps (false :: later) steps]
      exact inductionHypothesis (declared.step steps) interferes

/-- With nobody interfering a run goes the way it goes by itself. -/
theorem Declared.performAmid_of_not_interferes (declared : machine.Declared program)
    {meanwhile : List Bool} (undisturbed : ¬ Interferes program settings meanwhile machine) :
    performAmid program settings meanwhile machine = machine.rest program settings := by
  induction meanwhile generalizing machine with
  | nil => rfl
  | cons lowers later inductionHypothesis =>
    cases lowers with
    | true => exact absurd trivial undisturbed
    | false =>
      cases next : machine.step? program settings with
      | none => exact performAmid_of_ended (false :: later) next
      | some after =>
        have still : ¬ Interferes program settings later after :=
          fun interferes => undisturbed ⟨after, next, interferes⟩
        rw [declared.performAmid_of_steps (false :: later) next, List.tail_cons,
          inductionHypothesis (declared.step next) still]
        exact (declared.performAmid_of_steps [] next).symm

/-- A flag that is down is not lowered any further. -/
theorem Declared.performAmid_lowerFlag (declared : machine.Declared program)
    (meanwhile : List Bool) :
    performAmid program settings (true :: meanwhile.tail) machine =
      performAmid program settings meanwhile machine.lowerFlag := by
  have heard : machine.lowerFlag.hear (meanwhile.headD false) = machine.lowerFlag := by
    cases meanwhile.headD false <;> rfl
  cases next : machine.lowerFlag.step? program settings with
  | none =>
    rw [performAmid_of_ended (true :: meanwhile.tail) next,
      performAmid_of_ended meanwhile (heard.symm ▸ next), heard]
    rfl
  | some after =>
    rw [declared.performAmid_of_steps (true :: meanwhile.tail) next,
      declared.lowerFlag.performAmid_of_steps meanwhile (heard.symm ▸ next)]
    rfl

/-- Every interleaving is performed, with the right list of stops, and nothing else is. -/
theorem Declared.interleaving_iff (declared : machine.Declared program) {result : α × Run α β} :
    Interleaving program settings machine (finish [] result) ↔
      ∃ meanwhile, performAmid program settings meanwhile machine = result := by
  constructor
  · intro interleaving
    induction interleaving using Relation.ReflTransGen.head_induction_on with
    | refl => exact ⟨[], rfl⟩
    | head next _ inductionHypothesis =>
      cases next with
      | step steps =>
        obtain ⟨meanwhile, performs⟩ := inductionHypothesis (declared.step steps)
        exact ⟨false :: meanwhile, (declared.performAmid_of_steps _ steps).trans performs⟩
      | lowered =>
        obtain ⟨meanwhile, performs⟩ := inductionHypothesis declared.lowerFlag
        exact ⟨_, (declared.performAmid_lowerFlag meanwhile).trans performs⟩
  · rintro ⟨meanwhile, rfl⟩
    exact (declared.passes_performAmid meanwhile).interleaving

end Ends

/-! ## What stops from outside leave as it is -/

/-- Whenever others lower the flag, the definitions in progress are different ones, all of the
program, and no more than the depth allows. -/
theorem bounded_of_interleaving {state : State α} {device : β} {journal : Journal α}
    {moment : Machine α β}
    (interleaving : Interleaving program settings (start program (.start state device journal))
      moment) : moment.Bounded program settings :=
  interleaving.invariant (Bounded program settings)
    (bounded_start program settings state device journal)
    (fun bounded => { bounded with })
    fun bounded steps => bounded.step steps

/-- Whenever others lower the flag, the books agree with what the device has been asked and has
answered. -/
theorem mirrors_of_interleaving {state : State α} {device : β} {moment : Machine α β}
    (interleaving : Interleaving program settings (start program (.start state device #[])) moment) :
    moment.run.Mirrors state device :=
  interleaving.invariant (fun machine => machine.run.Mirrors state device)
    (mirrors_start program (.start state device))
    (fun mirrors => { mirrors with })
    fun mirrors steps => mirrors_step steps mirrors

end Machine

end Sequencer
