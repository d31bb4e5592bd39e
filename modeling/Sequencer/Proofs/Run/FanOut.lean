import Sequencer.Proofs.Number.Largest
import Sequencer.Proofs.Run.Beside
import Sequencer.Proofs.Run.Completion
import Sequencer.Proofs.Run.Exhaustion

/-! # Fan-outs in any order

Blocks that change neither tempo nor variables nor effects have no say in what the other blocks of a
fan-out do. Each block has its own cost, which is the same wherever in the fan-out it is played, as
long as there are invocations to spare; and costs add up to the same in any order.
-/

namespace Sequencer

variable {α β : Type} [Arithmetic α]

namespace Machine

variable [Device α β] {program : Program} {settings : Settings}

/-! ## What waits below -/

/-- The machine with further frames below its own. -/
def above (below : List (Frame α)) (machine : Machine α β) : Machine α β :=
  { machine with frames := machine.frames ++ below }

theorem act_above (command : Command) (offset : α) (mix : Mix α) (frames below : List (Frame α))
    (run : Run α β) :
    act program settings command offset mix (frames ++ below) run =
      (act program settings command offset mix frames run).above below := by
  rw [act, act]
  cases command.action with
  | sample arguments =>
    dsimp only
    cases program.customSample? arguments.name <;> rfl
  | loop count names arguments =>
    dsimp only
    split <;> rfl
  | tone | slide | wait | bpm | play | set | effect | invalid | unknown => rfl

/-- A step does not look at the frames below. -/
theorem Steps.above {before after : Machine α β} (steps : Steps program settings before after)
    (below : List (Frame α)) : Steps program settings (before.above below) (after.above below) := by
  cases steps.move with
  | command command offset mix frames run =>
    rw [← act_above]
    exact (Move.command command offset mix (frames ++ below) run).steps
  | sequenceNext command rest start mix elapsed frames running =>
    exact (Move.sequenceNext command rest start mix elapsed (frames ++ below) running).steps
  | sequenceLeft command rest start mix elapsed frames stopped =>
    exact (Move.sequenceLeft command rest start mix elapsed (frames ++ below) stopped).steps
  | blockFound offset mix frames run found =>
    exact (Move.blockFound offset mix (frames ++ below) run found).steps
  | blockMissing offset mix frames run missing =>
    exact (Move.blockMissing offset mix (frames ++ below) run missing).steps
  | loopNext names start mix left done total frames running =>
    exact (Move.loopNext names start mix left done total (frames ++ below) running).steps
  | loopLeft names start mix left done total frames stopped =>
    exact (Move.loopLeft names start mix left done total (frames ++ below) stopped).steps
  | refused offset mix frames given =>
    exact (Move.refused offset mix (frames ++ below) given).steps
  | entered offset mix frames enters =>
    exact (Move.entered offset mix (frames ++ below) enters).steps
  | resumed duration frame frames run => cases frame <;> rfl
  | sequenceEnd | atOnceEnd | atOnceNext | togetherEnd | togetherNext | loopEnd => rfl

theorem Reaches.above {first second : Machine α β} (reaches : Reaches program settings first second)
    (below : List (Frame α)) :
    Reaches program settings (first.above below) (second.above below) :=
  reaches.lift (Machine.above below) fun _ _ steps => steps.above below

/-! ## Without a limit -/

/-- No invocation of a task is refused because there have been too many. -/
def Unlimited (program : Program) (settings : Settings) (task : Task α) (run : Run α β) : Prop :=
  ∀ moment, Reaches program settings { task, frames := [], run } moment →
    ¬ moment.Refuses settings .invocationLimit

/-- The first block of a fan-out is next, with the fan-out waiting below. -/
theorem reaches_first_block (program : Program) (settings : Settings) (name : String)
    (rest : List String) (offset : α) (mix : Mix α) (longest : α) (run : Run α β) :
    Reaches program settings
      { task := .together (name :: rest) offset mix longest, frames := [], run }
      { task := .block name offset mix, frames := [.together rest offset mix longest], run } :=
  (Move.togetherNext name rest offset mix longest [] run).steps.reaches

theorem Unlimited.first {name : String} {rest : List String} {offset longest : α} {mix : Mix α}
    {run : Run α β}
    (unlimited : Unlimited program settings (.together (name :: rest) offset mix longest) run) :
    Unlimited program settings (.block name offset mix) run := by
  intro moment reaches refuses
  have next := reaches_first_block program settings name rest offset mix longest run
  exact unlimited _ (next.trans (reaches.above [.together rest offset mix longest])) refuses

theorem Unlimited.rest {name : String} {rest : List String} {offset longest : α} {mix : Mix α}
    {run : Run α β} {result : α × Run α β}
    (unlimited : Unlimited program settings (.together (name :: rest) offset mix longest) run)
    (completes : Completes program settings (.block name offset mix) run result) :
    Unlimited program settings (.together rest offset mix (Arithmetic.larger longest result.1))
      result.2 := by
  intro moment reaches
  have next := reaches_first_block program settings name rest offset mix longest run
  refine unlimited _ (next.trans ((completes _).trans (.trans ?_ reaches)))
  exact (Move.resumed result.1 (.together rest offset mix longest) [] result.2).steps.reaches

/-- What is not noted at the end has never been refused. -/
theorem Completes.unlimited {task : Task α} {run : Run α β} {result : α × Run α β}
    (completes : Completes program settings task run result)
    (unnoted : ¬ result.2.Notes .invocationLimit) : Unlimited program settings task run := by
  intro moment reaches refuses
  obtain ⟨refused, reason, steps⟩ := refuses.steps program
  have later := (completes []).of_last rfl (reaches.tail steps)
  exact unnoted (later.notes (Run.notes_refuse.mpr (.inl reason)))

end Machine

namespace Run

/-! ## Costs -/

/-- What playing a block comes to, in any run that resembles another. -/
structure Cost (α : Type) where
  duration : α
  requests : List (Request α)
  entered : Nat

/-- The cost of a fan-out, given those of its blocks. -/
def Cost.together (longest : α) (costs : List (Cost α)) : Cost α where
  duration := (costs.map Cost.duration).foldl Arithmetic.larger longest
  requests := costs.flatMap Cost.requests
  entered := (costs.map Cost.entered).sum

variable [Device α β]

/-- A run that resembles another one, with the same definitions in progress. -/
structure Like (origin run : Run α β) : Prop where
  resembles : origin.Resembles run
  stack : run.stack = origin.stack

/-- What has been performed has come to a cost. -/
structure Takes (origin run : Run α β) (cost : Cost α) (result : α × Run α β) : Prop where
  duration : result.1 = cost.duration
  like : origin.Like result.2
  requests : result.2.requests = run.requests ++ cost.requests
  invocations : result.2.invocations = run.invocations + cost.entered

/-- Something comes to a cost in every run that is like another one, has invocations to spare and
goes on to the end. -/
def Costs (settings : Settings) (origin : Run α β) (play : Run α β → α × Run α β) (cost : Cost α) :
    Prop :=
  ∀ run, origin.Like run → cost.entered ≤ settings.maxInvocations - run.invocations →
    (play run).2.running = true → origin.Takes run cost (play run)

section Blocks

variable [Arithmetic.LawfulZero α] {program : Program} {settings : Settings}
  {keys : List (Kind × String)} {origin : Run α β} (steady : Device.Steady origin.device)
  (plain : ∀ command, program.ComesTo keys command → command.action.changes = false)
  {offset : α} {mix : Mix α}

theorem completes_playBlock (name : String) (run : Run α β) :
    Machine.Completes program settings (.block name offset mix) run
      (playBlock program (invoke program settings (room program)) offset mix name run) :=
  Machine.completes_block
    (Machine.invokes_within program settings (unentered_le_room program run.stack)) name offset mix
    run rfl

include steady plain

/-- The same block in two runs that are like another one. -/
theorem agree_playBlock {name : String} (leads : program.Leads keys (.block, name))
    {left right : Run α β} (like : origin.Like left) (like' : origin.Like right)
    (unlimited : Machine.Unlimited program settings (.block name offset mix) left)
    {result result' : α × Run α β}
    (plays : playBlock program (invoke program settings (room program)) offset mix name left = result)
    (plays' : playBlock program (invoke program settings (room program)) offset mix name right =
      result')
    (running : result.2.running = true) (running' : result'.2.running = true)
    (spare : result.2.invocations - left.invocations ≤
      settings.maxInvocations - right.invocations) :
    result.1 = result'.1 ∧ Beside origin left right result.2 result'.2 := by
  have completes : Machine.Completes program settings (.block name offset mix) left result :=
    plays ▸ completes_playBlock name left
  have completes' : Machine.Completes program settings (.block name offset mix) right result' :=
    plays' ▸ completes_playBlock name right
  have ends := completes []
  have ends' := completes' []
  have base : Beside origin left right left right :=
    { resembles := like.resembles
      resembles' := like'.resembles
      stack := like.stack.trans like'.stack.symm
      more := Nat.le_refl _
      invocations := Nat.add_comm _ _
      requests := ⟨[], by simp, by simp⟩ }
  have matching : (Correspondence.beside program keys origin left right result.2.invocations).Matches
      { task := .block name offset mix, frames := [], run := left }
      { task := .block name offset mix, frames := [], run := right } :=
    ⟨.block mix leads rfl, .nil, base⟩
  have agree := (Correspondence.lawful_beside steady plain spare).reaches matching ends ends' ?_ ?_
  · exact ⟨agree.duration, agree.run⟩
  · intro moment reaches
    have later := ends.of_last rfl reaches
    refine ⟨⟨Machine.running_of_reaches later running, later.invocations_le⟩, ?_⟩
    rintro refusal refuses rfl
    exact unlimited moment reaches refuses
  · intro moment reaches
    exact Machine.running_of_reaches (ends'.of_last rfl reaches) running'

/-- A block comes to a cost, given a run in which it does without a limit. -/
theorem exists_cost {name : String} (leads : program.Leads keys (.block, name)) {run : Run α β}
    (like : origin.Like run)
    (unlimited : Machine.Unlimited program settings (.block name offset mix) run)
    {result : α × Run α β}
    (plays : playBlock program (invoke program settings (room program)) offset mix name run = result)
    (running : result.2.running = true) :
    ∃ cost, Costs settings origin
        (playBlock program (invoke program settings (room program)) offset mix name) cost ∧
      origin.Takes run cost result := by
  have within : (playBlock program (invoke program settings (room program)) offset mix name
      run).2.invocations - run.invocations ≤ settings.maxInvocations - run.invocations :=
    (kept_limit settings).playBlock ((kept_limit settings).invoke program (room program)) offset mix
      name run
  rw [plays] at within
  obtain ⟨-, own⟩ := agree_playBlock steady plain leads like like unlimited plays plays running running
    within
  obtain ⟨made, requests, -⟩ := own.requests
  have stack := fun run : Run α β =>
    stack_playBlock program settings (room program) offset mix name run
  refine ⟨⟨result.1, made, result.2.invocations - run.invocations⟩, ?_, ?_⟩
  · intro other like' spare running'
    obtain ⟨duration, beside⟩ :=
      agree_playBlock steady plain leads like like' unlimited plays rfl running running' spare
    obtain ⟨made', requests', requestsOther⟩ := beside.requests
    obtain rfl := List.append_cancel_left (requests.symm.trans requests')
    refine ⟨duration.symm, ⟨beside.resembles', (stack other).trans like'.stack⟩, requestsOther, ?_⟩
    have same := beside.invocations
    have more := beside.more
    dsimp only
    omega
  · refine ⟨rfl, ⟨own.resembles, plays ▸ (stack run).trans like.stack⟩, requests, ?_⟩
    have more := own.more
    dsimp only
    omega

end Blocks

/-! ## Fan-outs -/

section Together

variable {settings : Settings} {origin : Run α β} {play : String → Run α β → α × Run α β}

theorem Takes.cons {run : Run α β} {cost : Cost α} {first result : α × Run α β} {longest : α}
    {costs : List (Cost α)} (takes : origin.Takes run cost first)
    (rest : origin.Takes first.2 (.together (Arithmetic.larger longest first.1) costs) result) :
    origin.Takes run (.together longest (cost :: costs)) result := by
  refine ⟨?_, rest.like, ?_, ?_⟩
  · rw [rest.duration, takes.duration]
    rfl
  · rw [rest.requests, takes.requests, List.append_assoc]
    rfl
  · rw [rest.invocations, takes.invocations, Nat.add_assoc]
    rfl

/-- Blocks with costs come to the cost of all of them. -/
theorem takes_together {names : List String} {costs : List (Cost α)}
    (each : List.Forall₂ (fun name cost => Costs settings origin (play name) cost) names costs)
    (keeps : ∀ names longest run, (together play names longest run).2.running = true →
      run.running = true) (longest : α)
    {run : Run α β} (like : origin.Like run)
    (spare : (costs.map Cost.entered).sum ≤ settings.maxInvocations - run.invocations)
    (running : (together play names longest run).2.running = true) :
    origin.Takes run (.together longest costs) (together play names longest run) := by
  induction each generalizing longest run with
  | nil => exact ⟨rfl, like, (List.append_nil _).symm, rfl⟩
  | @cons name cost rest costs first _ inductionHypothesis =>
    rw [List.map_cons, List.sum_cons] at spare
    rw [together] at running ⊢
    have runningFirst : (play name run).2.running = true := keeps _ _ _ running
    have takes := first run like (by omega) runningFirst
    have invocations := takes.invocations
    exact takes.cons (inductionHypothesis _ takes.like (by omega) running)

end Together

/-- A fan-out, with all the room that a program has. -/
def fanOut (program : Program) (settings : Settings) (names : List String) (offset : α) (mix : Mix α)
    (run : Run α β) : α × Run α β :=
  playTogether program (invoke program settings (room program)) names offset mix run

section FanOut

variable {program : Program} {settings : Settings} {names : List String} {offset : α} {mix : Mix α}

theorem kept_running_together (offset : α) (mix : Mix α) (names : List String) (longest : α)
    (run : Run α β)
    (running : (together (playBlock program (invoke program settings (room program)) offset mix) names
      longest run).2.running = true) : run.running = true :=
  (kept_running settings).together
    ((kept_running settings).playBlock ((kept_running settings).invoke program (room program)) offset
      mix) names longest run running

variable [Arithmetic.LawfulZero α]

theorem completes_fanOut (run : Run α β) :
    Machine.Completes program settings (.together names offset mix 0) run
      (fanOut program settings names offset mix run) :=
  Machine.completes_turn names (fun _ _ _ _ => completes_playBlock _ _) offset rfl

/-- Every block of a fan-out that does without a limit comes to a cost. -/
theorem exists_costs {keys : List (Kind × String)} {origin : Run α β}
    (steady : Device.Steady origin.device)
    (plain : ∀ command, program.ComesTo keys command → command.action.changes = false)
    (leads : ∀ name ∈ names, program.Leads keys (.block, name)) (longest : α) {run : Run α β}
    (like : origin.Like run)
    (unlimited : Machine.Unlimited program settings (.together names offset mix longest) run)
    (running : (together (playBlock program (invoke program settings (room program)) offset mix) names
      longest run).2.running = true) :
    ∃ costs, List.Forall₂ (fun name cost => Costs settings origin
        (playBlock program (invoke program settings (room program)) offset mix name) cost) names costs ∧
      origin.Takes run (.together longest costs)
        (together (playBlock program (invoke program settings (room program)) offset mix) names longest
          run) := by
  induction names generalizing longest run with
  | nil => exact ⟨[], .nil, rfl, like, (List.append_nil _).symm, rfl⟩
  | cons name rest inductionHypothesis =>
    obtain ⟨leadsFirst, leadsRest⟩ := List.forall_mem_cons.mp leads
    rw [together] at running ⊢
    obtain ⟨cost, costs, takes⟩ := exists_cost steady plain leadsFirst like unlimited.first rfl
      (kept_running_together _ _ _ _ _ running)
    obtain ⟨others, each, takesRest⟩ := inductionHypothesis leadsRest _ takes.like
      (unlimited.rest (completes_playBlock name run)) running
    exact ⟨cost :: others, .cons costs each, takes.cons takesRest⟩

/-- Blocks that change neither tempo nor variables nor effects may be played side by side in any
order. As long as no stop is asked for and no block is refused because there have been too many, the
requests are the same but for their order, the fan-out takes the same time, and tempo and variables
are left as they were. -/
theorem fanOut_perm [Arithmetic.LawfulLargest α] {names' : List String} (perm : names.Perm names')
    (run : Run α β) (steady : Device.Steady run.device)
    (plain : ∀ command, program.ComesTo (names.map (Kind.block, ·)) command →
      command.action.changes = false)
    (unlimited : Machine.Unlimited program settings (.together names offset mix 0) run)
    (running : (fanOut program settings names offset mix run).2.running = true)
    (running' : (fanOut program settings names' offset mix run).2.running = true) :
    let result := fanOut program settings names offset mix run
    let result' := fanOut program settings names' offset mix run
    result.1 = result'.1 ∧
      (∃ made made', made.Perm made' ∧ result.2.requests = run.requests ++ made ∧
        result'.2.requests = run.requests ++ made') ∧
      result.2.state.tempo = run.state.tempo ∧ result'.2.state.tempo = run.state.tempo ∧
      result.2.state.bindings = run.state.bindings ∧
      result'.2.state.bindings = run.state.bindings := by
  intro result result'
  have like : run.Like run :=
    ⟨⟨rfl, rfl, kept_running_together _ _ _ _ _ running, .refl _⟩, rfl⟩
  have leads : ∀ name ∈ names, program.Leads (names.map (Kind.block, ·)) (.block, name) :=
    fun name member => Program.leads_of_mem (List.mem_map_of_mem member)
  obtain ⟨costs, each, takes⟩ := exists_costs steady plain leads 0 like unlimited running
  obtain ⟨costs', each', permCosts⟩ := List.perm_comp_forall₂ perm.symm each
  have within : result.2.invocations - run.invocations ≤
      settings.maxInvocations - run.invocations :=
    (kept_limit settings).playTogether ((kept_limit settings).invoke program (room program)) names
      offset mix run
  have invocations : result.2.invocations = run.invocations + (costs.map Cost.entered).sum :=
    takes.invocations
  have entered : (costs'.map Cost.entered).sum = (costs.map Cost.entered).sum :=
    (permCosts.map _).sum_eq
  have spare : (costs'.map Cost.entered).sum ≤ settings.maxInvocations - run.invocations := by
    omega
  have takes' : run.Takes run (.together 0 costs') result' :=
    takes_together each' (kept_running_together offset mix) 0 like spare running'
  refine ⟨?_, ⟨_, _, (permCosts.flatMap_right _).symm, takes.requests, takes'.requests⟩,
    takes.like.resembles.tempo, takes'.like.resembles.tempo, takes.like.resembles.bindings,
    takes'.like.resembles.bindings⟩
  have durations : (costs'.map Cost.duration).foldl Arithmetic.larger 0 =
      (costs.map Cost.duration).foldl Arithmetic.larger 0 :=
    Arithmetic.foldl_larger_perm (permCosts.map _) Arithmetic.LawfulLargest.zero_le_zero
  exact takes.duration.trans (durations.symm.trans takes'.duration.symm)

end FanOut

/-- The verse plays the chorus, and the chorus loops a riff that tries to play itself. -/
def medley : Program where
  globals := []
  blocks :=
    [{ name := "verse", commands := [.ofWords 1 ["tone", "440", "3"], .ofWords 2 ["play", "chorus"]]
       effects := [] },
     { name := "chorus", commands := [.ofWords 3 ["sample", "kick"], .ofWords 4 ["loop", "2", "riff"]]
       effects := [] },
     { name := "riff"
       commands := [.ofWords 5 ["slide", "330", "440", "0.5"], .ofWords 6 ["play", "riff"]]
       effects := [] }]
  customSamples := []
  irregularities := []

def silence : Run Float (Timeline Float) := .start (.start 120 true) .empty #[]

/-- The chorus comes first instead of last, and there is no bridge in either order. -/
theorem fanOut_perm_medley :
    let result := fanOut medley .standard ["bridge", "verse", "chorus"] 0 .neutral silence
    let result' := fanOut medley .standard ["chorus", "bridge", "verse"] 0 .neutral silence
    result.1 = result'.1 ∧ result.2.requests.length = 7 ∧ result.2.requests.Perm result'.2.requests := by
  have perm : ["bridge", "verse", "chorus"].Perm ["chorus", "bridge", "verse"] := by decide
  have plain : ∀ command, medley.ComesTo (["bridge", "verse", "chorus"].map (Kind.block, ·)) command →
      command.action.changes = false := by
    have all : ∀ command ∈ medley.commands, command.action.changes = false := by decide +kernel
    exact fun command comes => all command comes.mem_commands
  have unnoted : ¬ (fanOut medley .standard ["bridge", "verse", "chorus"] 0 .neutral
      silence).2.Notes .invocationLimit := by decide +kernel
  obtain ⟨duration, ⟨made, made', permMade, requests, requests'⟩, -⟩ :=
    fanOut_perm perm silence (Timeline.steady _) plain ((completes_fanOut silence).unlimited unnoted)
      (by decide +kernel) (by decide +kernel)
  refine ⟨duration, by decide +kernel, ?_⟩
  rw [requests, requests']
  exact permMade.append_left _

end Run

end Sequencer
