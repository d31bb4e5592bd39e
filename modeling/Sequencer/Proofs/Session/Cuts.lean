import Sequencer.Proofs.Run.Cuts
import Sequencer.Proofs.Session.Execution

/-! # Refusals in reports

A report tells of each definition that has been refused for itself, once and with the first reason,
and once of the limit on invocations if it has been reached: `cuts_told_once`.
-/

namespace Sequencer.Session

variable {α β : Type} [Arithmetic α] [Device α β]

/-- All the moments of an execution, in their order. -/
def Way (session : Session α β) (device : β) (moments : List (Machine α β)) : Prop :=
  Machine.Way session.program session.settings moments
    (Machine.start session.program (session.opened device))
    (Machine.finish [] (session.performed device))

/-- What is refused at moments of an execution, in its order. -/
def refusals (session : Session α β) (moments : List (Machine α β)) : List Refused :=
  moments.filterMap (Machine.refused? session.settings)

omit [Device α β] in
theorem recounts_opened (session : Session α β) (device : β) :
    (session.opened device).Recounts session.settings [] where
  noted := fun _ => Iff.rfl
  warned := fun _ => rfl

theorem Way.recounts {session : Session α β} {device : β} {moments : List (Machine α β)}
    (way : session.Way device moments) :
    (session.performed device).2.Recounts session.settings (session.refusals moments) :=
  Machine.Way.recounts way rfl
    ((session.recounts_opened device).uncut (Machine.uncut_start session.program _))

/-- The warnings of an execution about what is refused in it: for each subject the one about the first
refusal of it, if there is any. What is refused takes no time, asks nothing of the device, and leaves
tempo, variables, effects, the number of invocations and the definitions in progress as they are. -/
theorem cuts_told_once {β : Type} [Device Float β] {session : Session Float β} {device : β}
    (attached : session.device = some device) :
    ∃ report after moments, session.execute = .ok (report, after) ∧ session.Way device moments ∧
      (∀ subject, report.journal.warningsOn subject =
        (((session.refusals moments).find? (·.subject = subject)).map
          (Run.refusalWarning session.settings)).toList) ∧
      ∀ moment ∈ moments, ∀ refused, moment.refused? session.settings = some refused →
        ∃ passed,
          Machine.Steps session.program session.settings moment
            (Machine.finish moment.frames (0, passed)) ∧
          Run.Unmoved moment.run passed ∧ passed.stack = moment.run.stack ∧
          passed.invocations = moment.run.invocations := by
  obtain ⟨moments, way⟩ := (session.reaches_performed device).exists_way
  refine ⟨(session.perform device).1, (session.perform device).2, moments, execute_eq_ok attached, way,
    fun subject => ?_, fun moment _ refused given => Machine.steps_of_refused given session.program⟩
  rw [← (Way.recounts way).warned, perform_eq_closed]
  exact congrArg (fun warnings => warnings.toList.filter (·.subject? = some subject))
    (session.warnings_closed _)

/-- A block that is refused for its depth first, then as it is in progress, and blocks that are
refused at the limit. -/
def cutShort : Session Float (Timeline Float) :=
  ((start { Settings.standard with maxDepth := 2, maxInvocations := 4 }).attach .empty).read
    "play a\nplay c\nplay a a\n[a]\nplay b\n[end]\n[b]\nplay c\n[end]\n[c]\nplay c\n[end]\n"

theorem cuts_told_once_short :
    cutShort.device = some .empty ∧
      (cutShort.performed .empty).2.refusals.map Refused.refusal =
        [.invocationLimit, .invocationLimit, .reentry, .depthLimit] ∧
      ∃ report after moments, cutShort.execute = .ok (report, after) ∧ cutShort.Way .empty moments ∧
        (report.journal.warningsOn (.definition .block "c")).map Warning.message =
          ["block 'c' exceeds nesting depth 2; skipped"] ∧
        (report.journal.warningsOn .invocations).map Warning.message =
          ["more than 4 block invocations; the rest of the run is skipped"] ∧
        ∃ refused ∈ cutShort.refusals moments, refused.subject = .definition .block "c" := by
  have attached : cutShort.device = some .empty := rfl
  obtain ⟨report, after, moments, executes, way, told, -⟩ := cuts_told_once attached
  obtain rfl := congrArg Prod.fst (eq_perform_of_execute attached executes)
  have third : ((cutShort.perform .empty).1.journal.warningsOn
      (.definition .block "c")).map Warning.message =
        ["block 'c' exceeds nesting depth 2; skipped"] := by decide +kernel
  refine ⟨attached, by decide +kernel, _, after, moments, executes, way, third, by decide +kernel, ?_⟩
  rw [told] at third
  cases first : (cutShort.refusals moments).find? (·.subject = .definition .block "c") with
  | none => simp [first] at third
  | some refused =>
    exact ⟨refused, List.mem_of_find?_eq_some first, by simpa using List.find?_some first⟩

end Sequencer.Session
