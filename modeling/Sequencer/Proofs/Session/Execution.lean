import Sequencer.Proofs.Run.Heeding
import Sequencer.Session

/-! # Executions as runs

An execution performs the program in a run of its own. The device ends up as the calls in the journal
have made it.
-/

namespace Sequencer.Session

variable {α β : Type}

theorem requests_closed (session : Session α β) (result : α × Run α β) :
    (session.closed result).1.journal.requests = result.2.journal.requests :=
  Array.filterMap_push_none rfl (Array.size_push _)

theorem warnings_closed (session : Session α β) (result : α × Run α β) :
    (session.closed result).1.warnings = result.2.journal.warnings :=
  Array.filterMap_push_none rfl (Array.size_push _)

variable [Arithmetic α]

/-- A session that is about to execute a program. -/
def prepared (program : Program) (settings : Settings) (device : β) : Session α β :=
  ((start settings).attach device).load program

/-- The run with which an execution starts. -/
def opened (session : Session α β) (device : β) : Run α β := session.begun.run device

theorem opened_eq (session : Session α β) (device : β) :
    session.opened device = .start (.start (Arithmetic.ofDouble session.settings.defaultBpm) true)
      device #[opening session.program] :=
  rfl

theorem executeBy_eq_ok (perform : Run α β → α × Run α β) {session : Session α β} {device : β}
    (attached : session.device = some device) :
    session.executeBy perform = .ok (session.performBy perform device) := by
  rw [executeBy, attached]

/-- Without a device nothing is changed. -/
theorem executeBy_eq_error (perform : Run α β → α × Run α β) {session : Session α β}
    (detached : session.device = none) :
    session.executeBy perform = .error { error := .missingDevice, session } := by
  rw [executeBy, detached]

variable [Device α β]

/-- What the program takes, and the run it leaves. -/
def performed (session : Session α β) (device : β) : α × Run α β :=
  Run.performProgram session.program session.settings (session.opened device)

theorem perform_eq_closed (session : Session α β) (device : β) :
    session.perform device = session.closed (session.performed device) :=
  rfl

theorem execute_eq_ok {session : Session α β} {device : β} (attached : session.device = some device) :
    session.execute = .ok (session.perform device) :=
  executeBy_eq_ok _ attached

theorem eq_perform_of_execute {session : Session α β} {device : β} {result : Report α × Session α β}
    (attached : session.device = some device) (executes : session.execute = .ok result) :
    result = session.perform device :=
  Except.ok.inj (executes.symm.trans (execute_eq_ok attached))

theorem heeds_opened (session : Session α β) (device : β) :
    (session.opened device).Heeds device :=
  ⟨rfl, iff_of_true rfl (Device.quiet_nil device)⟩

theorem calls_perform (session : Session α β) (device : β) :
    Entry.calls (session.perform device).1.journal.toList = (session.performed device).2.calls :=
  (Entry.calls_push _ _).trans (List.append_nil _)

theorem counted_performed (session : Session α β) (device : β) :
    (session.performed device).2.Counted :=
  (Run.kept_counted session.settings).performProgram session.program (session.opened device)
    (show (session.opened device).Counted from rfl)

/-- A report counts the requests in its journal. -/
theorem dispatched_perform (session : Session α β) (device : β) :
    (session.perform device).1.dispatched = (session.perform device).1.journal.requests.size :=
  (session.counted_performed device).trans
    (congrArg Array.size (session.requests_closed (session.performed device))).symm

theorem dispatched_eq_of_requests_eq {γ : Type} [Device α γ] {session : Session α β}
    {session' : Session α γ} {one : β} {other : γ}
    (requests : (session.perform one).1.journal.requests =
      (session'.perform other).1.journal.requests) :
    (session.perform one).1.dispatched = (session'.perform other).1.dispatched := by
  rw [dispatched_perform, dispatched_perform, requests]

/-- A moment of an execution. -/
def Reaches (session : Session α β) (device : β) : Machine α β → Prop :=
  Machine.Reaches session.program session.settings
    (Machine.start session.program (session.opened device))

variable [Arithmetic.LawfulZero α]

theorem reaches_performed (session : Session α β) (device : β) :
    session.Reaches device (Machine.finish [] (session.performed device)) :=
  Machine.reaches_end session.program session.settings (session.opened device)

theorem heeds_performed (session : Session α β) (device : β) :
    (session.performed device).2.Heeds device :=
  (session.reaches_performed device).invariant (fun machine => machine.run.Heeds device)
    (Machine.heeds_start (session.heeds_opened device) session.program)
    fun before steps => Machine.heeds_step steps before

/-- The calls in the journal have made the device what it is. -/
theorem device_perform (session : Session α β) (device : β) :
    (session.perform device).2.device =
      some (Call.replay device (session.performed device).2.calls) :=
  congrArg some (session.heeds_performed device).device

end Sequencer.Session
