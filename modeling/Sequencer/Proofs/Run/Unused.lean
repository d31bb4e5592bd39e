import Sequencer.Proofs.Program.Unused
import Sequencer.Proofs.Run.Effects

/-! # Runs of programs that differ in a definition that is not in use

Once the headers are recorded, a run of the one program and a run of the other make the same entries
in their journals, one by one.
-/

namespace Sequencer

variable {α β : Type} [Device α β]

namespace Run

/-- Two runs on one device that have gone on from two journals and have made the same entries since.
-/
structure SameSince (device : β) (first second : Journal α) (left right : Run α β) : Prop
    extends Abreast device left right where
  journals : ∃ entries : List (Entry α), left.journal = first ++ entries ∧
    right.journal = second ++ entries

namespace SameSince

variable {device : β} {first second : Journal α} {left right : Run α β}

theorem journals_push (same : SameSince device first second left right) (entry : Entry α) :
    ∃ entries : List (Entry α), left.journal.push entry = first ++ entries ∧
      right.journal.push entry = second ++ entries := by
  obtain ⟨entries, journal, journal'⟩ := same.journals
  refine ⟨entries ++ [entry], ?_, ?_⟩
  · rw [journal, ← Array.toList_inj]
    simp
  · rw [journal', ← Array.toList_inj]
    simp

theorem calls (same : SameSince device first second left right) :
    ∃ calls, left.calls = Entry.calls first.toList ++ calls ∧
      right.calls = Entry.calls second.toList ++ calls := by
  obtain ⟨entries, journal, journal'⟩ := same.journals
  refine ⟨Entry.calls entries, ?_, ?_⟩
  · rw [Run.calls, journal, Array.toList_appendList, Entry.calls_append]
  · rw [Run.calls, journal', Array.toList_appendList, Entry.calls_append]

theorem answersSame (same : SameSince device first second left right)
    (answers : Retells.Answers device device first second) :
    Device.AnswersSame left.device right.device := by
  obtain ⟨calls, asked, asked'⟩ := same.calls
  rw [same.heeds.device, same.heeds'.device, asked, asked']
  exact answers calls

theorem record (same : SameSince device first second left right) {entry : Entry α}
    (plain : entry.call? = none) :
    SameSince device first second (left.record entry) (right.record entry) :=
  { same.toAbreast.record plain plain with journals := same.journals_push entry }

theorem dispatch (same : SameSince device first second left right)
    (answers : Retells.Answers device device first second) (request : Request α) (duration : α) :
    SameSince device first second (left.dispatch request duration)
      (right.dispatch request duration) :=
  { same.toAbreast.dispatch (same.answersSame answers) request duration with
    journals := by
      simp only [Run.dispatch, Run.record]
      rw [(same.answersSame answers).handle]
      exact same.journals_push _ }

theorem recordEffect (same : SameSince device first second left right) (block : String)
    (effect : Effect α) :
    SameSince device first second (left.recordEffect block effect)
      (right.recordEffect block effect) :=
  { (same.toAbreast.recordEffect_left block effect).recordEffect_right block effect with
    journals := same.journals_push _ }

theorem refuse (same : SameSince device first second left right) (settings : Settings)
    (refused : Refused) :
    SameSince device first second (left.refuse settings refused)
      (right.refuse settings refused) := by
  have noted : SameSince device first second (left.noteRefusal refused)
      (right.noteRefusal refused) :=
    { same.toAbreast.noteRefusal refused with
      journals := by
        rw [noteRefusal, noteRefusal, ← same.refusals]
        split <;> exact same.journals }
  rw [Run.refuse, Run.refuse, ← same.refusals]
  split
  · exact noted
  · exact noted.record rfl

end SameSince

end Run

/-! ## Programs side by side -/

namespace Correspondence

open Run

/-- The same commands at the same times, as far as the program can come to them. -/
def withinUse (program : Program) (device : β) (first second : Journal α) :
    Correspondence α β β where
  command := fun command command' =>
    command = command' ∧ ∀ key ∈ command.action.names, program.InUse key
  within := program.InUse
  time := Eq
  duration := Eq
  run := SameSince device first second
  live := fun _ => True
  live' := fun _ => True
  meets := fun _ => True

variable [Arithmetic α]

theorem lawful_withinUse {device : β} {first second : Journal α} {key : Kind × String}
    {program program' : Program} (equal : program.EqualBut key program')
    (unused : ¬ program.InUse key) (answers : Retells.Answers device device first second)
    (settings : Settings) :
    (withinUse program device first second).Lawful program program' settings settings where
  retouched := by
    rintro command _ ⟨rfl, -⟩
    exact .same command
  names := fun words => words.2
  definition := fun {kind name} used => by
    have other : (kind, name) ≠ key := fun same => unused (same ▸ used)
    rw [← equal.find? other]
    exact Definition.paired_find?_self fun definition found command member =>
      ⟨rfl, fun _ named => (used.comesTo found member).leads named⟩
  defaultVolume := rfl
  defaultWaveform := rfl
  zero := rfl
  add := fun first second => congrArg₂ _ first second
  larger := fun first second => congrArg₂ _ first second
  later := fun time duration => congrArg₂ _ time duration
  running := fun same => same.running
  bindings := fun same => same.bindings
  seconds := fun same => same.seconds
  frequency := fun same => (same.answersSame answers).frequency
  record := fun {_ _ entry _} same echo plain => by
    obtain rfl := echo.eq_of_plain plain
    exact same.record plain
  dispatch := fun {_ _ request _ duration _} same matching durations _ _ => by
    obtain rfl := matching.eq
    obtain rfl : duration = _ := durations
    exact same.dispatch answers request duration
  setTempo := fun same _ _ tempo => { same.toAbreast.setTempo tempo with journals := same.journals }
  setVariable := fun {_ _ _ _ name _} same _ _ number =>
    { same.toAbreast.setVariable name number with journals := same.journals }
  recordEffect := fun {left right command command' effect effect' block block'} same words action
      action' => by
    obtain ⟨rfl, -⟩ := words
    obtain ⟨rfl, rfl⟩ := Action.effect.inj (action.symm.trans action')
    have resolve : left.resolve = right.resolve := by
      funext value
      rw [Run.resolve, Run.resolve, same.bindings]
    rw [resolve]
    exact same.recordEffect _ _
  refuse := fun {left right kind name refusal} same given _ =>
    ⟨refusal, same.refusal? settings kind name ▸ given, same.refuse settings _⟩
  enter := fun {left right kind name _} same enters _ =>
    ⟨same.refusal? settings kind name ▸ enters,
      { same.toAbreast.enter kind name with journals := same.journals }⟩
  leave := fun same => { same.toAbreast.leave with journals := same.journals }

end Correspondence

end Sequencer
