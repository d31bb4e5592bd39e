import Sequencer.Proofs.Program.Validity
import Sequencer.Proofs.Run.Kept
import Sequencer.Proofs.Run.Pairing
import Sequencer.Proofs.Session.Execution

/-! # Which commands are skipped

A command that is at fault or unknown is skipped with a warning. Every such warning of an execution
is about a command of the program, which is at fault or unknown as the warning says. In a valid
program these are the commands that are short of positional words: `skips_short_of_valid`.
-/

namespace Sequencer

variable {α β : Type}

/-- Whether a command is skipped with this warning. -/
def Warning.skips : Warning α → Bool
  | .faultyCommand _ _ _ | .unknownCommand _ _ => true
  | _ => false

/-- A command of the program is skipped with this warning, if any is. -/
def Warning.Justified (program : Program) : Warning α → Prop
  | .faultyCommand line text fault => ∃ command ∈ program.commands,
      command.action = .invalid fault ∧ line = command.line ∧ text = command.text
  | .unknownCommand line verb => ∃ command ∈ program.commands,
      command.action = .unknown ∧ line = command.line ∧ verb = command.verb
  | _ => True

namespace Run

def Justified (program : Program) (run : Run α β) : Prop :=
  ∀ warning, .warned warning ∈ run.journal → warning.Justified program

theorem Justified.record {program : Program} {run : Run α β} (justified : run.Justified program)
    {entry : Entry α} (own : ∀ warning, entry = .warned warning → warning.Justified program) :
    (run.record entry).Justified program := by
  intro warning member
  rcases Array.mem_push.mp member with old | new
  · exact justified warning old
  · exact own warning new.symm

/-- A run beside itself, with the commands of a program. -/
def justifying (program : Program) : Pairing α β β :=
  { command := fun command command' => command = command' ∧ command ∈ program.commands
    time := Eq
    sharesMix := True
    run := fun left right => left = right ∧ left.Justified program }

theorem justified_of_note {program : Program} {entry entry' : Entry α}
    (note : (justifying program : Pairing α β β).Note entry entry') :
    entry = entry' ∧ ∀ warning, entry = .warned warning → warning.Justified program := by
  cases note with
  | ignoredParameter key same | invalidBpm bpm same =>
    obtain ⟨rfl, -⟩ := same
    refine ⟨rfl, ?_⟩
    rintro _ ⟨⟩
    trivial
  | faultyCommand same action =>
    obtain ⟨rfl, member⟩ := same
    refine ⟨rfl, ?_⟩
    rintro _ ⟨⟩
    exact ⟨_, member, action, rfl, rfl⟩
  | unknownCommand same action =>
    obtain ⟨rfl, member⟩ := same
    refine ⟨rfl, ?_⟩
    rintro _ ⟨⟩
    exact ⟨_, member, action, rfl, rfl⟩
  | unknownWaveform | blockNotFound | loopBlocksNotFound =>
    refine ⟨rfl, ?_⟩
    rintro _ ⟨⟩
    trivial
  | sequenceLeft times | tempoChanged _ times | blockEntered _ times
  | customSampleEntered _ _ times =>
    obtain rfl := times
    refine ⟨rfl, ?_⟩
    rintro _ ⟨⟩
  | loopLeft =>
    refine ⟨rfl, ?_⟩
    rintro _ ⟨⟩

theorem Justified.refuse {program : Program} {run : Run α β} (justified : run.Justified program)
    (settings : Settings) (refused : Refused) :
    (run.refuse settings refused).Justified program := by
  refine refuse_invariant (Justified program) settings refused (fun _ _ => id)
    (fun _ noted => noted.record ?_) justified
  rintro _ ⟨⟩
  rw [refusalWarning]
  split <;> trivial

variable [Arithmetic α] [Device α β]

theorem lawful_justifying (settings : Settings) (program : Program) :
    (justifying program : Pairing α β β).Lawful settings where
  alike := fun same => congrArg Command.words same.1
  delay := fun times duration => congrArg (· + duration) times
  tempo := fun runs => congrArg (·.state.tempo) runs.1
  bindings := fun runs => congrArg (·.state.bindings) runs.1
  running := fun runs => congrArg Run.running runs.1
  frequency := fun runs name => congrArg (Device.frequency ·.device name) runs.1
  refusal? := fun runs kind name => congrArg (Run.refusal? settings · kind name) runs.1
  invocations := by
    rintro before _ after _ ⟨rfl, -⟩ ⟨rfl, -⟩
    rfl
  record := by
    rintro run _ entry entry' ⟨rfl, justified⟩ note
    obtain ⟨rfl, own⟩ := justified_of_note note
    exact ⟨rfl, justified.record own⟩
  dispatch := by
    rintro run _ request request' ⟨rfl, justified⟩ sound duration
    obtain rfl := sound.eq id trivial
    refine ⟨rfl, Justified.record justified ?_⟩
    rintro _ ⟨⟩
  setTempo := by
    rintro run _ ⟨rfl, justified⟩ tempo
    exact ⟨rfl, justified⟩
  setVariable := by
    rintro run _ ⟨rfl, justified⟩ name value
    exact ⟨rfl, justified⟩
  recordEffect := by
    rintro run _ ⟨rfl, justified⟩ block effect
    refine ⟨rfl, Justified.record justified ?_⟩
    rintro _ ⟨⟩
  refuse := by
    rintro run _ ⟨rfl, justified⟩ refused
    exact ⟨rfl, justified.refuse settings refused⟩
  enter := by
    rintro run _ ⟨rfl, justified⟩ kind name
    exact ⟨rfl, justified⟩
  leave := by
    rintro run _ ⟨rfl, justified⟩
    exact ⟨rfl, justified⟩

end Run

namespace Session

variable [Arithmetic α] [Device α β]

theorem justified_performed (session : Session α β) (device : β) :
    (session.performed device).2.Justified session.program := by
  have opened : (session.opened device).Justified session.program := by
    intro warning member
    simp [opened_eq, Run.start, opening] at member
  have recorded := Run.recordHeaders_invariant (Run.Justified session.program)
    (fun _ _ _ before => before.record (by rintro _ ⟨⟩)) session.program opened
  have lawful : (Run.justifying session.program : Pairing α β β).Lawful session.settings :=
    Run.lawful_justifying session.settings session.program
  have itself : session.program.Paired
      (fun command command' => command = command' ∧ command ∈ session.program.commands)
      session.program :=
    .refl session.program fun _ member => ⟨rfl, member⟩
  refine (lawful.performEntry itself rfl ?_ ⟨rfl, recorded⟩).run.2
  rintro run _ ⟨rfl, justified⟩
  exact ⟨rfl, justified.record (by rintro _ ⟨⟩)⟩

/-- Each warning of an execution with which a command is skipped is about a command that is skipped
for it. -/
theorem justified_of_mem_warnings {session : Session α β} {result : Report α × Session α β}
    (executed : session.execute = .ok result) {warning : Warning α}
    (member : warning ∈ result.1.warnings) : warning.Justified session.program := by
  rw [execute, executeBy] at executed
  split at executed
  · cases executed
  · next device attached =>
    obtain rfl := Except.ok.inj executed
    obtain ⟨entry, inJournal, warned⟩ := Array.mem_filterMap.mp member
    have isWarning : entry = .warned warning := by
      cases entry with
      | warned other => exact congrArg Entry.warned (Option.some.inj warned)
      | _ => cases warned
    -- the closing entry is no warning
    rcases Array.mem_push.mp inJournal with before | closing
    · exact session.justified_performed device warning (isWarning ▸ before)
    · rw [isWarning] at closing
      cases closing

/-- What is skipped in a valid program. No command is unknown, and a command is at fault exactly when
it is short of positional words. No other command is skipped in any execution. -/
theorem skips_short_of_valid (source : String) (valid : (Program.read source).isValid = true) :
    (∀ command ∈ (Program.read source).commands, command.action ≠ .unknown ∧
      ((∃ fault, command.action = .invalid fault) ↔ ∃ verb, command.Short verb)) ∧
    ∀ {α β : Type} [Arithmetic α] [Device α β] (session : Session α β)
      (result : Report α × Session α β), (session.read source).execute = .ok result →
      ∀ warning ∈ result.1.warnings, warning.skips = true →
      ∃ command ∈ (Program.read source).commands, (∃ verb, command.Short verb) ∧
        ∃ fault, command.action = .invalid fault ∧
          warning = .faultyCommand command.line command.text fault := by
  refine ⟨fun command member => Program.faulty_iff_of_isValid valid member, ?_⟩
  intro α β _ _ session result executed warning member skips
  have justified := justified_of_mem_warnings executed member
  cases warning with
  | faultyCommand line text fault =>
    obtain ⟨command, inProgram, action, rfl, rfl⟩ := justified
    have short := (Program.faulty_iff_of_isValid valid inProgram).2.mp ⟨fault, action⟩
    exact ⟨command, inProgram, short, fault, action, rfl⟩
  | unknownCommand line verb =>
    obtain ⟨command, inProgram, action, -⟩ := justified
    exact absurd action (Program.faulty_iff_of_isValid valid inProgram).1
  | _ => cases skips

/-- Two arguments, as a loop needs them, but no block among them. -/
def hollowLoop : String := "wait 1\nloop 2 volume=0.5\n"

theorem skips_short_of_valid_loop :
    (Program.read hollowLoop).isValid = true ∧
      ∀ (result : Report Float × Session Float (Timeline Float)),
        (((start .standard).attach .empty).read hollowLoop).execute = .ok result →
        ∀ warning ∈ result.1.warnings, warning.skips = true →
        ∃ command ∈ (Program.read hollowLoop).commands, (∃ verb, command.Short verb) ∧
          ∃ fault, command.action = .invalid fault ∧
            warning = .faultyCommand command.line command.text fault := by
  have valid : (Program.read hollowLoop).isValid = true := by decide +kernel
  exact ⟨valid, fun result => (skips_short_of_valid hollowLoop valid).2 _ result⟩

/-- The only argument is keyed. -/
def hollowPlay : String := "play volume=0.5\n"

/-- A command that validation lets pass is skipped. -/
theorem valid_play_skipped :
    (Program.read hollowPlay).isValid = true ∧
      (∃ command ∈ (Program.read hollowPlay).commands, ∃ fault, command.action = .invalid fault) ∧
      (((start .standard).attach (Timeline.empty : Timeline Float)).read hollowPlay).execute.toOption.map
          (fun result => result.1.warnings.toList.map Warning.message) =
        some ["line 1: skipping 'play volume=0.5': play needs at least one block"] := by
  refine ⟨by decide +kernel, ?_, by decide +kernel⟩
  have found : ((Program.read hollowPlay).commands.any fun command =>
      match command.action with
      | .invalid _ => true
      | _ => false) = true := by decide +kernel
  obtain ⟨command, member, holds⟩ := List.any_eq_true.mp found
  split at holds
  · next fault action => exact ⟨command, member, fault, action⟩
  · cases holds

end Session

end Sequencer
