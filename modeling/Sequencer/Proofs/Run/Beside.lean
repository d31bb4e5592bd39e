import Sequencer.Proofs.Device.Steady
import Sequencer.Proofs.Run.Correspondence
import Sequencer.Proofs.Run.Unmoved

/-! # One block beside itself

The same block is played twice, in two runs that may have gone on differently before. Nothing that
it comes to changes the tempo, a variable or an effect, so that all that could tell the two runs
apart is how many definitions have been entered. As long as the second run has as many invocations
to spare as the first one uses, both make the same requests.
-/

namespace Sequencer

variable {α β : Type}

/-- Whether an action changes the tempo, a variable or the effects. -/
def Action.changes : Action → Bool
  | .bpm _ | .set _ _ | .effect _ _ => true
  | _ => false

namespace Run

/-- The requests of a run in their order, without their handles. -/
def requests (run : Run α β) : List (Request α) := run.journal.requests.toList.map Prod.fst

theorem requests_record (run : Run α β) (entry : Entry α) :
    (run.record entry).requests = run.requests ++ (entry.request?.map Prod.fst).toList := by
  rw [requests, requests, record, Journal.requests_push, List.map_append, Option.toList_map]

theorem requests_record_of_plain (run : Run α β) {entry : Entry α} (plain : entry.call? = none) :
    (run.record entry).requests = run.requests := by
  rw [requests_record, Entry.request?_of_plain plain]
  exact List.append_nil _

theorem requests_refuse (settings : Settings) (run : Run α β) (refused : Refused) :
    (run.refuse settings refused).requests = run.requests := by
  rw [requests, requests, (Unmoved.refuse settings run refused).requests]

theorem requests_dispatch [Device α β] (run : Run α β) (request : Request α) (duration : α) :
    (run.dispatch request duration).requests = run.requests ++ [request] :=
  requests_record _ _

/-! ## Two runs -/

variable [Device α β]

/-- A run with the tempo and the variables of another one, with the flag raised, on what has become
of the same device. -/
structure Resembles (origin run : Run α β) : Prop where
  tempo : run.state.tempo = origin.state.tempo
  bindings : run.state.bindings = origin.state.bindings
  running : run.running = true
  device : Device.Becomes origin.device run.device

namespace Resembles

variable {origin run : Run α β}

theorem dispatch (resembles : origin.Resembles run) {request : Request α} {duration : α}
    (running : (run.dispatch request duration).running = true) :
    origin.Resembles (run.dispatch request duration) :=
  ⟨resembles.tempo, resembles.bindings, running, resembles.device.apply (.schedule request)⟩

theorem refuse (resembles : origin.Resembles run) (settings : Settings) (refused : Refused) :
    origin.Resembles (run.refuse settings refused) := by
  obtain ⟨state, device, -, -⟩ := refuse_fields settings run refused
  refine ⟨?_, ?_, ?_, ?_⟩
  · rw [state, resembles.tempo]
  · rw [state, resembles.bindings]
  · rw [Run.running, state]
    exact resembles.running
  · rw [device]
    exact resembles.device

end Resembles

/-- Two runs that have gone on in the same way from two others. -/
structure Beside (origin base base' left right : Run α β) : Prop where
  resembles : origin.Resembles left
  resembles' : origin.Resembles right
  stack : left.stack = right.stack
  more : base.invocations ≤ left.invocations
  invocations : left.invocations + base'.invocations = right.invocations + base.invocations
  requests : ∃ made, left.requests = base.requests ++ made ∧ right.requests = base'.requests ++ made

namespace Beside

variable {origin base base' left right : Run α β}

theorem record (beside : Beside origin base base' left right) {entry entry' : Entry α}
    (plain : entry.call? = none) (plain' : entry'.call? = none) :
    Beside origin base base' (left.record entry) (right.record entry') :=
  { beside with
    resembles := { beside.resembles with }
    resembles' := { beside.resembles' with }
    requests := by
      rw [requests_record_of_plain left plain, requests_record_of_plain right plain']
      exact beside.requests }

theorem dispatch (beside : Beside origin base base' left right) {request request' : Request α}
    (same : request = request') {duration duration' : α}
    (running : (left.dispatch request duration).running = true)
    (running' : (right.dispatch request' duration').running = true) :
    Beside origin base base' (left.dispatch request duration) (right.dispatch request' duration') :=
  { beside with
    resembles := beside.resembles.dispatch running
    resembles' := beside.resembles'.dispatch running'
    requests := by
      obtain ⟨made, first, second⟩ := beside.requests
      refine ⟨made ++ [request], ?_, ?_⟩
      · rw [requests_dispatch, first, List.append_assoc]
      · rw [requests_dispatch, second, List.append_assoc, same] }

theorem refuse (beside : Beside origin base base' left right) (settings : Settings)
    (refused refused' : Refused) :
    Beside origin base base' (left.refuse settings refused) (right.refuse settings refused') := by
  obtain ⟨-, -, stack, invocations⟩ := refuse_fields settings left refused
  obtain ⟨-, -, stack', invocations'⟩ := refuse_fields settings right refused'
  refine ⟨beside.resembles.refuse settings refused,
    beside.resembles'.refuse settings refused', ?_, ?_, ?_, ?_⟩
  · rw [stack, stack', beside.stack]
  · rw [invocations]
    exact beside.more
  · rw [invocations, invocations']
    exact beside.invocations
  · rw [requests_refuse, requests_refuse]
    exact beside.requests

theorem enter (beside : Beside origin base base' left right) (kind : Kind) (name : String) :
    Beside origin base base' (left.enter kind name) (right.enter kind name) :=
  { beside with
    resembles := { beside.resembles with }
    resembles' := { beside.resembles' with }
    stack := congrArg (List.cons _) beside.stack
    more := Nat.le_succ_of_le beside.more
    invocations := by
      have same := beside.invocations
      simp only [Run.enter]
      omega }

theorem leave (beside : Beside origin base base' left right) :
    Beside origin base base' left.leave right.leave :=
  { beside with
    resembles := { beside.resembles with }
    resembles' := { beside.resembles' with }
    stack := congrArg List.tail beside.stack }

/-- Where the one run refuses a definition that is in progress already, or too deep, the other
refuses it as well, if only because there have been too many. -/
theorem refuses (beside : Beside origin base base' left right) {settings : Settings} {kind : Kind}
    {name : String} {refusal : Refusal} (given : left.refusal? settings kind name = some refusal)
    (notLimit : refusal ≠ .invocationLimit) :
    ∃ refusal', right.refusal? settings kind name = some refusal' := by
  rw [← Option.ne_none_iff_exists']
  intro enters
  obtain ⟨-, fresh, shallow⟩ := refusal?_eq_none_iff.mp enters
  rw [← beside.stack] at fresh shallow
  cases refusal with
  | invocationLimit => exact notLimit rfl
  | reentry => exact fresh (refusal?_eq_reentry_iff.mp given).2
  | depthLimit => exact absurd (refusal?_eq_depthLimit_iff.mp given).2.2 (Nat.not_le.mpr shallow)

end Beside

end Run

/-! ## Two performances -/

namespace Correspondence

open Run

variable [Device α β]

/-- The same commands at the same time, up to where the one run has entered so many definitions. -/
def beside (program : Program) (keys : List (Kind × String)) (origin base base' : Run α β)
    (most : Nat) : Correspondence α β β where
  command := fun command command' => command = command' ∧ program.ComesTo keys command
  within := program.Leads keys
  time := Eq
  duration := Eq
  run := Beside origin base base'
  live := fun run => run.running = true ∧ run.invocations ≤ most
  live' := fun run => run.running = true
  meets := fun refusal => refusal ≠ .invocationLimit

variable [Arithmetic α]

theorem lawful_beside {program : Program} {settings : Settings} {keys : List (Kind × String)}
    {origin : Run α β} (steady : Device.Steady origin.device)
    (plain : ∀ command, program.ComesTo keys command → command.action.changes = false)
    {base base' : Run α β} {most : Nat}
    (spare : most - base.invocations ≤ settings.maxInvocations - base'.invocations) :
    (beside program keys origin base base' most).Lawful program program settings settings where
  retouched := by
    rintro command _ ⟨rfl, -⟩
    exact .same command
  names := fun words _ named => words.2.leads named
  definition := fun leads => Definition.paired_find?_self fun _ found _ member =>
    ⟨rfl, leads.comesTo found member⟩
  defaultVolume := rfl
  defaultWaveform := rfl
  zero := rfl
  add := fun first second => congrArg₂ _ first second
  larger := fun first second => congrArg₂ _ first second
  later := fun time duration => congrArg₂ _ time duration
  running := fun beside => beside.resembles.running.trans beside.resembles'.running.symm
  bindings := fun beside => beside.resembles.bindings.trans beside.resembles'.bindings.symm
  seconds := fun beside beats => by
    rw [Run.seconds, Run.seconds, Run.resolve, Run.resolve, beside.resembles.bindings,
      beside.resembles.tempo, beside.resembles'.bindings, beside.resembles'.tempo]
    rfl
  frequency := fun beside => steady.frequency beside.resembles.device beside.resembles'.device
  record := fun beside echo plain => beside.record plain (echo.call?_eq_none plain)
  dispatch := fun beside matching _ live live' =>
    beside.dispatch matching.eq live.1 live'
  setTempo := fun _ words action => by
    have changes := plain _ words.2
    rw [action] at changes
    cases changes
  setVariable := fun _ words action => by
    have changes := plain _ words.2
    rw [action] at changes
    cases changes
  recordEffect := fun _ words action => by
    have changes := plain _ words.2
    rw [action] at changes
    cases changes
  refuse := fun beside given met => by
    obtain ⟨refusal', given'⟩ := beside.refuses given met
    exact ⟨refusal', given', beside.refuse settings _ _⟩
  enter := fun {left right kind name _} beside enters live => by
    refine ⟨?_, beside.enter kind name⟩
    obtain ⟨-, fresh, shallow⟩ := refusal?_eq_none_iff.mp enters
    rw [beside.stack] at fresh shallow
    have most : left.invocations + 1 ≤ most := live.2
    have more := beside.more
    have same := beside.invocations
    exact refusal?_eq_none_iff.mpr ⟨by omega, fresh, shallow⟩
  leave := Beside.leave

end Correspondence

end Sequencer
