import Sequencer.Proofs.Run.FanOut
import Sequencer.Proofs.Run.Repetition
import Sequencer.Proofs.Run.Sounding
import Sequencer.Proofs.Run.Timely

/-! # Loops that repeat themselves

A loop from which neither the tempo nor a variable can be changed does the same in every turn. A turn
leaves more invocations and more of a device behind, and nothing else that the next one could find
different. With exact arithmetic it starts later by so many times what the first turn takes, and so
do its requests: `loop_is_periodic`.
-/

namespace Sequencer

/-- Whether an action changes the tempo or a variable. -/
def Action.alters : Action → Bool
  | .bpm _ | .set _ _ => true
  | _ => false

/-! ## Requests at a later time -/

def Extent.later (delay : ℚ) : Extent ℚ → Extent ℚ
  | .instant => .instant
  | .lasting duration => .lasting duration
  | .upTo finish => .upTo (finish + delay)

def Request.later (delay : ℚ) (request : Request ℚ) : Request ℚ :=
  { request with start := request.start + delay, extent := request.extent.later delay }

theorem Request.Matches.eq_later {delay : ℚ} {request request' : Request ℚ}
    (matching : Request.Matches (fun time time' => time = time' + delay) Eq request request') :
    request = request'.later delay := by
  obtain ⟨trigger, start, extent, volume, pan⟩ := request
  obtain ⟨trigger', start', extent', volume', pan'⟩ := request'
  obtain ⟨rfl, starts, extents, rfl, rfl⟩ := matching
  obtain rfl : start = start' + delay := starts
  cases extents with
  | instant => rfl
  | lasting same | upTo same =>
    obtain rfl := same
    rfl

variable {β : Type}

namespace Run

theorem Resembles.recordEffect {α : Type} [Device α β] {origin run : Run α β}
    (resembles : origin.Resembles run) (block : String) (effect : Effect α) :
    origin.Resembles (run.recordEffect block effect) :=
  ⟨resembles.tempo, resembles.bindings, resembles.running,
    resembles.device.apply (.addEffect block effect)⟩

/-! ## A turn and a later one -/

variable [Device ℚ β]

/-- Two runs that have gone on from two others, the one in the same way as the other but later. It
may have entered more definitions before. -/
structure Recurs (delay : ℚ) (origin base base' left right : Run ℚ β) : Prop where
  resembles : origin.Resembles left
  resembles' : origin.Resembles right
  stack : left.stack = right.stack
  fewer : right.invocations ≤ left.invocations
  requests : ∃ made, left.requests = base.requests ++ made.map (Request.later delay) ∧
    right.requests = base'.requests ++ made

namespace Recurs

variable {delay : ℚ} {origin base base' left right : Run ℚ β}

theorem record (recurs : Recurs delay origin base base' left right) {entry entry' : Entry ℚ}
    (plain : entry.call? = none) (plain' : entry'.call? = none) :
    Recurs delay origin base base' (left.record entry) (right.record entry') :=
  { recurs with
    resembles := { recurs.resembles with }
    resembles' := { recurs.resembles' with }
    requests := by
      rw [requests_record_of_plain left plain, requests_record_of_plain right plain']
      exact recurs.requests }

theorem dispatch (recurs : Recurs delay origin base base' left right) {request request' : Request ℚ}
    (later : request = request'.later delay) {duration duration' : ℚ}
    (running : (left.dispatch request duration).running = true)
    (running' : (right.dispatch request' duration').running = true) :
    Recurs delay origin base base' (left.dispatch request duration)
      (right.dispatch request' duration') :=
  { recurs with
    resembles := recurs.resembles.dispatch running
    resembles' := recurs.resembles'.dispatch running'
    requests := by
      obtain ⟨made, first, second⟩ := recurs.requests
      refine ⟨made ++ [request'], ?_, ?_⟩
      · rw [requests_dispatch, first, later, List.append_assoc, List.map_append]
        rfl
      · rw [requests_dispatch, second, List.append_assoc] }

theorem recordEffect (recurs : Recurs delay origin base base' left right) (block block' : String)
    (effect effect' : Effect ℚ) :
    Recurs delay origin base base' (left.recordEffect block effect)
      (right.recordEffect block' effect') :=
  { recurs with
    resembles := recurs.resembles.recordEffect block effect
    resembles' := recurs.resembles'.recordEffect block' effect'
    requests := by
      obtain ⟨made, first, second⟩ := recurs.requests
      exact ⟨made, ((requests_record _ _).trans (List.append_nil _)).trans first,
        ((requests_record _ _).trans (List.append_nil _)).trans second⟩ }

theorem refuse (recurs : Recurs delay origin base base' left right) (settings : Settings)
    (refused refused' : Refused) :
    Recurs delay origin base base' (left.refuse settings refused)
      (right.refuse settings refused') := by
  obtain ⟨-, -, stack, invocations⟩ := refuse_fields settings left refused
  obtain ⟨-, -, stack', invocations'⟩ := refuse_fields settings right refused'
  refine ⟨recurs.resembles.refuse settings refused, recurs.resembles'.refuse settings refused',
    ?_, ?_, ?_⟩
  · rw [stack, stack', recurs.stack]
  · rw [invocations, invocations']
    exact recurs.fewer
  · rw [requests_refuse, requests_refuse]
    exact recurs.requests

theorem enter (recurs : Recurs delay origin base base' left right) (kind : Kind) (name : String) :
    Recurs delay origin base base' (left.enter kind name) (right.enter kind name) :=
  { recurs with
    resembles := { recurs.resembles with }
    resembles' := { recurs.resembles' with }
    stack := congrArg (List.cons _) recurs.stack
    fewer := Nat.succ_le_succ recurs.fewer }

theorem leave (recurs : Recurs delay origin base base' left right) :
    Recurs delay origin base base' left.leave right.leave :=
  { recurs with
    resembles := { recurs.resembles with }
    resembles' := { recurs.resembles' with }
    stack := congrArg List.tail recurs.stack }

/-- What the later run enters the first one enters as well. -/
theorem enters (recurs : Recurs delay origin base base' left right) {settings : Settings}
    {kind : Kind} {name : String} (enters : left.refusal? settings kind name = none) :
    right.refusal? settings kind name = none := by
  rw [refusal?_eq_none_iff, recurs.stack] at enters
  exact refusal?_eq_none_iff.mpr ⟨recurs.fewer.trans_lt enters.1, enters.2⟩

/-- A definition that is in progress already, or too deep, is so in both runs. -/
theorem refuses (recurs : Recurs delay origin base base' left right) {settings : Settings}
    {kind : Kind} {name : String} {refusal : Refusal}
    (given : left.refusal? settings kind name = some refusal)
    (notLimit : refusal ≠ .invocationLimit) :
    ∃ refusal', right.refusal? settings kind name = some refusal' := by
  rw [← Option.ne_none_iff_exists']
  intro enters
  obtain ⟨-, fresh, shallow⟩ := refusal?_eq_none_iff.mp enters
  rw [← recurs.stack] at fresh shallow
  cases refusal with
  | invocationLimit => exact notLimit rfl
  | reentry => exact fresh (refusal?_eq_reentry_iff.mp given).2
  | depthLimit => exact absurd (refusal?_eq_depthLimit_iff.mp given).2.2 (Nat.not_le.mpr shallow)

end Recurs

end Run

namespace Correspondence

open Run

variable [Device ℚ β]

/-- The same commands, in a turn and so much later in another one. -/
def recurs (program : Program) (keys : List (Kind × String)) (delay : ℚ)
    (origin base base' : Run ℚ β) : Correspondence ℚ β β where
  command := fun command command' => command = command' ∧ program.ComesTo keys command
  within := program.Leads keys
  time := fun time time' => time = time' + delay
  duration := Eq
  run := Recurs delay origin base base'
  live := fun run => run.running = true
  live' := fun run => run.running = true
  meets := fun refusal => refusal ≠ .invocationLimit

theorem lawful_recurs {program : Program} {settings : Settings} {keys : List (Kind × String)}
    {delay : ℚ} {origin : Run ℚ β} (steady : Device.Steady origin.device)
    (plain : ∀ command, program.ComesTo keys command → command.action.alters = false)
    (base base' : Run ℚ β) :
    (recurs program keys delay origin base base').Lawful program program settings settings where
  retouched := by
    rintro command _ ⟨rfl, -⟩
    exact .same command
  names := fun words _ named => words.2.leads named
  definition := fun leads => Definition.paired_find?_self fun _ found _ member =>
    ⟨rfl, leads.comesTo found member⟩
  defaultVolume := rfl
  defaultWaveform := rfl
  zero := rfl
  add := fun first second => congrArg₂ _ first second
  larger := fun first second => congrArg₂ _ first second
  later := by
    rintro time time' duration _ rfl rfl
    exact add_right_comm time' delay duration
  running := fun recurs => recurs.resembles.running.trans recurs.resembles'.running.symm
  bindings := fun recurs => recurs.resembles.bindings.trans recurs.resembles'.bindings.symm
  seconds := fun recurs beats => by
    rw [Run.seconds, Run.seconds, Run.resolve, Run.resolve, recurs.resembles.bindings,
      recurs.resembles.tempo, recurs.resembles'.bindings, recurs.resembles'.tempo]
    rfl
  frequency := fun recurs => steady.frequency recurs.resembles.device recurs.resembles'.device
  record := fun recurs echo plain => recurs.record plain (echo.call?_eq_none plain)
  dispatch := fun recurs matching _ live live' => recurs.dispatch matching.eq_later live live'
  setTempo := fun _ words action => by
    have alters := plain _ words.2
    rw [action] at alters
    cases alters
  setVariable := fun _ words action => by
    have alters := plain _ words.2
    rw [action] at alters
    cases alters
  recordEffect := fun recurs _ _ _ => recurs.recordEffect _ _ _ _
  refuse := fun recurs given met => by
    obtain ⟨refusal', given'⟩ := recurs.refuses given met
    exact ⟨refusal', given', recurs.refuse settings _ _⟩
  enter := fun recurs enters _ => ⟨recurs.enters enters, recurs.enter _ _⟩
  leave := Recurs.leave

end Correspondence

/-! ## One turn after the other -/

namespace Run

section Turns

variable {α : Type} [Arithmetic α]

theorem everyTurn_of_running (play : α → Run α β → α × Run α β) (start : α) (left done : Nat)
    (total : α) {run : Run α β} (running : run.running = true) :
    everyTurn play start (left + 1) done total run =
      everyTurn play start left (done + 1) (total + (play (start + total) run).1)
        (play (start + total) run).2 := by
  rw [everyTurn, if_pos running]

theorem running_of_everyTurn {play : α → Run α β → α × Run α β} {start : α} {left done : Nat}
    {total : α} {run : Run α β}
    (running : (everyTurn play start (left + 1) done total run).2.running = true) :
    run.running = true := by
  rw [everyTurn] at running
  split at running
  · next still => exact still
  · next stopped => exact absurd running stopped

/-- Turns that have not been left go on to one more. -/
theorem everyTurn_succ (play : α → Run α β → α × Run α β) (start : α) (turns done : Nat) (total : α)
    {run : Run α β}
    (running : (everyTurn play start (turns + 1) done total run).2.running = true) :
    let before := everyTurn play start turns done total run
    before.2.running = true ∧
      everyTurn play start (turns + 1) done total run =
        (before.1 + (play (start + before.1) before.2).1, (play (start + before.1) before.2).2) := by
  have still := running_of_everyTurn running
  induction turns generalizing done total run with
  | zero => exact ⟨still, everyTurn_of_running play start 0 done total still⟩
  | succ turns inductionHypothesis =>
    rw [everyTurn_of_running play start (turns + 1) done total still] at running ⊢
    rw [everyTurn_of_running play start turns done total still]
    exact inductionHypothesis _ _ running (running_of_everyTurn running)

variable [Device α β] {program : Program} {settings : Settings} {names : List String} {offset : α}
  {mix : Mix α}

theorem takeTurns_succ {turns : Nat} {run : Run α β}
    (running : (takeTurns program settings names offset mix (turns + 1) run).2.running = true) :
    let before := takeTurns program settings names offset mix turns run
    let played := fanOut program settings names (offset + before.1) mix before.2
    before.2.running = true ∧
      takeTurns program settings names offset mix (turns + 1) run =
        (before.1 + played.1, played.2) :=
  everyTurn_succ _ offset turns 0 0 running

theorem running_takeTurns {turns fewer : Nat} (atMost : fewer ≤ turns) {run : Run α β}
    (running : (takeTurns program settings names offset mix turns run).2.running = true) :
    (takeTurns program settings names offset mix fewer run).2.running = true := by
  induction turns, atMost using Nat.le_induction with
  | base => exact running
  | succ turns atMost inductionHypothesis => exact inductionHypothesis (takeTurns_succ running).1

theorem reaches_fanOut (left turn : Nat) (total : α) {run : Run α β} (running : run.running = true) :
    Machine.Reaches program settings
      { task := .loop names offset mix (left + 1) turn total, frames := [], run }
      { task := .together names (offset + total) mix 0
        frames := [.loop names offset mix left turn total]
        run } :=
  (Machine.Move.loopNext names offset mix left turn total [] running).steps.reaches

variable [Arithmetic.LawfulZero α]

/-- A loop comes to each of its turns. -/
theorem reaches_turn {turns turn : Nat} (atMost : turn ≤ turns) {run : Run α β}
    (running : (takeTurns program settings names offset mix turn run).2.running = true) :
    let before := takeTurns program settings names offset mix turn run
    Machine.Reaches program settings
      { task := .loop names offset mix turns 0 0, frames := [], run }
      { task := .loop names offset mix (turns - turn) turn before.1, frames := [], run := before.2 } := by
  induction turn with
  | zero => exact .refl
  | succ turn inductionHypothesis =>
    obtain ⟨still, turns_eq⟩ := takeTurns_succ running
    have reached := inductionHypothesis (by omega) still
    obtain ⟨left, left_eq⟩ : ∃ left, turns - turn = left + 1 := ⟨turns - turn - 1, by omega⟩
    have left_eq' : turns - (turn + 1) = left := by omega
    rw [left_eq] at reached
    rw [turns_eq, left_eq']
    generalize takeTurns program settings names offset mix turn run = before at *
    refine reached.trans ((reaches_fanOut left turn before.1 still).trans
      ((completes_fanOut before.2 _).trans ?_))
    exact (Machine.Move.resumed _ (.loop names offset mix left turn before.1) [] _).steps.reaches

/-- The turns of a loop that does without a limit do without one as well. -/
theorem unlimited_turn {turns turn : Nat} (earlier : turn < turns) {run : Run α β}
    (unlimited : Machine.Unlimited program settings (.loop names offset mix turns 0 0) run)
    (running : (takeTurns program settings names offset mix turn run).2.running = true) :
    let before := takeTurns program settings names offset mix turn run
    Machine.Unlimited program settings (.together names (offset + before.1) mix 0) before.2 := by
  intro before moment reaches refuses
  obtain ⟨left, left_eq⟩ : ∃ left, turns - turn = left + 1 := ⟨turns - turn - 1, by omega⟩
  refine unlimited (Machine.above [.loop names offset mix left turn before.1] moment)
    ((reaches_turn earlier.le running).trans ?_) refuses
  rw [left_eq]
  exact (reaches_fanOut left turn before.1 running).trans
    (reaches.above [.loop names offset mix left turn before.1])

end Turns

/-! ## Periods -/

section Periods

variable [Device ℚ β] {program : Program} {settings : Settings} {names : List String} {offset : ℚ}
  {mix : Mix ℚ}

/-- A fan-out from which nothing is altered does the same later, in a run that has gone on. -/
theorem fanOut_recurs {origin later first : Run ℚ β} (steady : Device.Steady origin.device)
    (plain : ∀ command, program.ComesTo (names.map (Kind.block, ·)) command →
      command.action.alters = false)
    (resembles : origin.Resembles later) (resembles' : origin.Resembles first)
    (stack : later.stack = first.stack) (fewer : first.invocations ≤ later.invocations) (delay : ℚ)
    (unlimited : Machine.Unlimited program settings (.together names (offset + delay) mix 0) later)
    (running : (fanOut program settings names (offset + delay) mix later).2.running = true)
    (running' : (fanOut program settings names offset mix first).2.running = true) :
    let result := fanOut program settings names (offset + delay) mix later
    let result' := fanOut program settings names offset mix first
    result.1 = result'.1 ∧ Recurs delay origin later first result.2 result'.2 := by
  intro result result'
  have ends : Machine.Completes program settings (.together names (offset + delay) mix 0) later
      result := completes_fanOut later
  have ends' : Machine.Completes program settings (.together names offset mix 0) first result' :=
    completes_fanOut first
  -- as they begin, neither has made anything yet
  have base : Recurs delay origin later first later first :=
    ⟨resembles, resembles', stack, fewer, [], by simp, by simp⟩
  have leads : ∀ name ∈ names, program.Leads (names.map (Kind.block, ·)) (.block, name) :=
    fun name member => Program.leads_of_mem (List.mem_map_of_mem member)
  have matching : (Correspondence.recurs program (names.map (Kind.block, ·)) delay origin later
      first).Matches { task := .together names (offset + delay) mix 0, frames := [], run := later }
        { task := .together names offset mix 0, frames := [], run := first } :=
    ⟨.together mix leads rfl rfl, .nil, base⟩
  have agree := (Correspondence.lawful_recurs steady plain later first).reaches matching (ends [])
    (ends' []) ?_ ?_
  · exact ⟨agree.duration, agree.run⟩
  · -- only the later one may come to the limit, as it has entered more
    intro moment reaches
    refine ⟨Machine.running_of_reaches ((ends []).of_last rfl reaches) running, ?_⟩
    rintro refusal refuses rfl
    exact unlimited moment reaches refuses
  · intro moment reaches
    exact Machine.running_of_reaches ((ends' []).of_last rfl reaches) running'

/-- Turn by turn the same requests are made, later by so many times the period. -/
structure Periodic (program : Program) (settings : Settings) (names : List String) (offset : ℚ)
    (mix : Mix ℚ) (turns : Nat) (run : Run ℚ β) (period : ℚ) (made : List (Request ℚ)) : Prop where
  start : ∀ turn ≤ turns, (takeTurns program settings names offset mix turn run).1 = turn * period
  turn : ∀ turn < turns, fanOut program settings names (offset + turn * period) mix
    (takeTurns program settings names offset mix turn run).2 =
      (period, (takeTurns program settings names offset mix (turn + 1) run).2)
  requests : ∀ turn < turns, (takeTurns program settings names offset mix (turn + 1) run).2.requests =
    (takeTurns program settings names offset mix turn run).2.requests ++
      made.map (Request.later (turn * period))

/-- What has been played so far leaves as it was all that the next turn depends on. -/
structure Turned (origin : Run ℚ β) (time : ℚ) (before : ℚ × Run ℚ β) : Prop where
  time : before.1 = time
  resembles : origin.Resembles before.2
  stack : before.2.stack = origin.stack
  fewer : origin.invocations ≤ before.2.invocations

section Loop

variable {turns : Nat} {run : Run ℚ β} (steady : Device.Steady run.device)
  (plain : ∀ command, program.ComesTo (names.map (Kind.block, ·)) command →
    command.action.alters = false)
  (unlimited : Machine.Unlimited program settings (.loop names offset mix turns 0 0) run)
  (running : (takeTurns program settings names offset mix turns run).2.running = true)

include steady plain unlimited running

/-- A turn after some others does the same as the first one, later by all the time that those took. -/
theorem recurs_turn {turn : Nat} (earlier : turn < turns) {time : ℚ}
    (turned : run.Turned time (takeTurns program settings names offset mix turn run)) :
    let before := takeTurns program settings names offset mix turn run
    let first := fanOut program settings names offset mix run
    let after := takeTurns program settings names offset mix (turn + 1) run
    fanOut program settings names (offset + time) mix before.2 = (first.1, after.2) ∧
      after.1 = time + first.1 ∧ Recurs time run before.2 run after.2 first.2 := by
  intro before first after
  have later := running_takeTurns (Nat.succ_le_of_lt earlier) running
  obtain ⟨still, after_eq⟩ := takeTurns_succ later
  -- the first turn starts at the offset itself, after nothing at all
  have runningFirst : first.2.running = true := by
    have one := running_takeTurns (Nat.succ_le_of_lt (Nat.zero_lt_of_lt earlier)) running
    obtain ⟨-, one_eq⟩ := takeTurns_succ one
    rw [one_eq] at one
    change (fanOut program settings names (offset + 0) mix run).2.running = true at one
    rwa [add_zero] at one
  have without := unlimited_turn earlier unlimited still
  dsimp only at without
  rw [after_eq] at later
  rw [turned.time] at later without after_eq
  have origin : run.Resembles run :=
    ⟨rfl, rfl, running_takeTurns (Nat.zero_le turns) running, .refl _⟩
  obtain ⟨duration, recurs⟩ := fanOut_recurs steady plain turned.resembles origin turned.stack
    turned.fewer time without later runningFirst
  have after_eq : after = _ := after_eq
  rw [after_eq]
  exact ⟨Prod.ext duration rfl, congrArg (time + ·) duration, recurs⟩

theorem turned_takeTurns {turn : Nat} (atMost : turn ≤ turns) :
    run.Turned (turn * (fanOut program settings names offset mix run).1)
      (takeTurns program settings names offset mix turn run) := by
  induction turn with
  | zero =>
    refine ⟨?_, ⟨rfl, rfl, running_takeTurns (Nat.zero_le turns) running, .refl _⟩, rfl, le_rfl⟩
    rw [Nat.cast_zero, zero_mul]
    rfl
  | succ turn inductionHypothesis =>
    have turned := inductionHypothesis (Nat.le_of_succ_le atMost)
    obtain ⟨-, time, recurs⟩ := recurs_turn steady plain unlimited running atMost turned
    have ends : Machine.Completes program settings (.together names offset mix 0) run _ :=
      completes_fanOut run
    refine ⟨?_, recurs.resembles, recurs.stack.trans ?_, ?_⟩
    · rw [time, Nat.cast_succ, add_mul, one_mul]
    · exact stack_playTogether program settings (room program) names offset mix run
    · exact (ends []).invocations_le.trans recurs.fewer

/-- A loop that alters nothing has what its first turn takes as its period. -/
theorem periodic_takeTurns :
    let first := fanOut program settings names offset mix run
    ∃ made, first.2.requests = run.requests ++ made ∧
      Periodic program settings names offset mix turns run first.1 made := by
  intro first
  have ends : Machine.Completes program settings (.together names offset mix 0) run first :=
    completes_fanOut run
  obtain ⟨made, first_eq⟩ := (ends []).requests_extend
  have turned {turn : Nat} (atMost : turn ≤ turns) :=
    turned_takeTurns steady plain unlimited running atMost
  refine ⟨made, first_eq.symm, fun turn atMost => (turned atMost).time, fun turn earlier => ?_,
    fun turn earlier => ?_⟩
  · exact (recurs_turn steady plain unlimited running earlier (turned earlier.le)).1
  · obtain ⟨-, -, recurs⟩ := recurs_turn steady plain unlimited running earlier (turned earlier.le)
    obtain ⟨made', requests, first_eq'⟩ := recurs.requests
    -- each turn is compared with the first one, whose requests are always the same
    obtain rfl := List.append_cancel_left (first_eq.trans first_eq')
    exact requests

end Loop

end Periods

/-! ## Loops -/

section Commands

variable {α : Type} [Arithmetic α] [Device α β] {program : Program} {settings : Settings}
  {command : Command} {count : Value} {names : List String} {arguments : MixArguments}
  (action : command.action = .loop count names arguments)
  (declared : ∀ name ∈ names, (program.block? name).isSome = true)

include action declared

theorem steps_loop (offset : α) (mix : Mix α) (run : Run α β) :
    Machine.Steps program settings { task := .command command offset mix, frames := [], run }
      { task := .loop names offset (mix.nest run.state.bindings arguments) (run.iterations count) 0 0
        frames := []
        run := run.ignoreKeys command } := by
  have state := (Unmoved.ignoreKeys run command).state
  have missing : (names.filter fun name => (program.block? name).isNone) = [] := by
    rw [List.filter_eq_nil_iff]
    intro name member
    simp [Option.isSome_iff_ne_none.mp (declared name member)]
  rw [Machine.Steps, Machine.step?, Machine.act, action, iterations, Run.resolve, ← state]
  dsimp only
  rw [missing]
  rfl

theorem performWithin_loop [Arithmetic.LawfulZero α] (mix : Mix α) (offset : α) (run : Run α β) :
    performWithin program settings mix command offset run =
      takeTurns program settings names offset (mix.nest run.state.bindings arguments)
        (run.iterations count) (run.ignoreKeys command) := by
  have state := (Unmoved.ignoreKeys run command).state
  rw [performWithin, performCommand, performAction, action, iterations, Run.resolve, ← state]
  exact playLoop_eq_takeTurns declared settings count offset _ _

end Commands

/-- A loop over blocks, from which neither the tempo nor a variable can be changed, takes so many
times what its first turn takes. As long as no stop is asked for and nothing is refused because there
have been too many invocations, each turn makes the requests of the first one in their order, later
by so many times that duration. Recursion, depth and effects may be what they like. -/
theorem loop_is_periodic [Device ℚ β] (program : Program) (settings : Settings) {command : Command}
    {count : Value} {names : List String} {arguments : MixArguments}
    (action : command.action = .loop count names arguments)
    (declared : ∀ name ∈ names, (program.block? name).isSome = true)
    (plain : ∀ other, program.ComesTo (names.map (Kind.block, ·)) other →
      other.action.alters = false)
    (mix : Mix ℚ) (offset : ℚ) {run : Run ℚ β} (steady : Device.Steady run.device)
    (unlimited : Machine.Unlimited program settings (.command command offset mix) run)
    (running : (performWithin program settings mix command offset run).2.running = true) :
    let scope := mix.nest run.state.bindings arguments
    let turns := run.iterations count
    let started := run.ignoreKeys command
    let first := fanOut program settings names offset scope started
    performWithin program settings mix command offset run =
        takeTurns program settings names offset scope turns started ∧
      (performWithin program settings mix command offset run).1 = turns * first.1 ∧
      ∃ made, first.2.requests = run.requests ++ made ∧
        Periodic program settings names offset scope turns started first.1 made := by
  intro scope turns started first
  have unmoved := Unmoved.ignoreKeys run command
  have performs : performWithin program settings mix command offset run =
      takeTurns program settings names offset scope turns started :=
    performWithin_loop action declared mix offset run
  rw [performs] at running ⊢
  have steady : Device.Steady started.device := unmoved.device.symm ▸ steady
  have next : Machine.Reaches program settings _ _ :=
    (steps_loop action declared offset mix run).reaches
  have unlimited : Machine.Unlimited program settings (.loop names offset scope turns 0 0) started :=
    fun moment reaches => unlimited moment (next.trans reaches)
  obtain ⟨made, requests, periodic⟩ := periodic_takeTurns steady plain unlimited running
  rw [unmoved.requests_eq] at requests
  exact ⟨rfl, periodic.start turns le_rfl, made, requests, periodic⟩

/-- The verse plays a riff that tries to play itself, and a sample with a definition of its own. -/
def ostinato : Program where
  globals := []
  blocks :=
    [{ name := "verse"
       commands := [.ofWords 1 ["tone", "440", "3"], .ofWords 2 ["loop", "2", "riff"],
         .ofWords 3 ["effect", "gain", "verse"]]
       effects := [] },
     { name := "riff"
       commands := [.ofWords 4 ["slide", "330", "440", "0.5"], .ofWords 5 ["play", "riff"],
         .ofWords 6 ["sample", "kick"]]
       effects := [] }]
  customSamples :=
    [{ name := "kick", commands := [.ofWords 7 ["sample", "drum"], .ofWords 8 ["tone", "60"]]
       effects := [] }]
  irregularities := []

def atRest : Run ℚ (Timeline ℚ) := .start (.start 120 true) .empty #[]

/-- Three turns of two seconds each, in which seven requests are made. -/
theorem loop_is_periodic_ostinato :
    let command := Command.ofWords 9 ["loop", "3", "verse", "volume=0.5"]
    let scope := Mix.neutral.nest atRest.state.bindings
      { volume := some (.ofToken "0.5"), pan := none }
    let result := performWithin ostinato .standard .neutral command 1 atRest
    result.1 = 6 ∧ ∃ made, made.length = 7 ∧
      Periodic ostinato .standard ["verse"] 1 scope 3 atRest 2 made := by
  intro command scope result
  have action : command.action = .loop (.ofToken "3") ["verse"]
      { volume := some (.ofToken "0.5"), pan := none } := rfl
  have declared : ∀ name ∈ ["verse"], (ostinato.block? name).isSome = true := by decide
  have plain : ∀ other, ostinato.ComesTo (["verse"].map (Kind.block, ·)) other →
      other.action.alters = false := by
    have all : ∀ other ∈ ostinato.commands, other.action.alters = false := by decide +kernel
    exact fun other comes => all other comes.mem_commands
  have unnoted : ¬ result.2.Notes .invocationLimit := by decide +kernel
  have unlimited := (Machine.completes_anywhere ostinato .standard command 1 .neutral
    atRest).unlimited unnoted
  obtain ⟨-, duration, made, requests, periodic⟩ := loop_is_periodic ostinato .standard action declared
    plain .neutral 1 (Timeline.steady _) unlimited (by decide +kernel)
  have three : atRest.iterations (.ofToken "3") = 3 := by decide +kernel
  have unheeded : atRest.ignoreKeys command = atRest := rfl
  have first : (fanOut ostinato .standard ["verse"] 1 scope atRest).1 = 2 := by decide +kernel
  have count : (fanOut ostinato .standard ["verse"] 1 scope atRest).2.requests.length = 7 := by
    decide +kernel
  rw [unheeded] at duration requests periodic
  rw [three, first] at duration periodic
  refine ⟨duration.trans (by norm_num), made, ?_, periodic⟩
  rw [requests, List.length_append] at count
  exact (Nat.zero_add _).symm.trans count

end Run

end Sequencer
