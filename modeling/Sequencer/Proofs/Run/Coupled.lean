import Sequencer.Proofs.Run.Pairing

/-! # Two runs of one program

Two runs of the same commands, at times that correspond to each other and within any two mixes. A
relation between the runs that each pair of single changes keeps makes a lawful pairing of the
program with itself.
-/

namespace Sequencer

/-- The same entry, but for corresponding times and any mix. -/
inductive Entry.Echo {α : Type} (later : α → α → Prop) : Entry α → Entry α → Prop
  | warned (warning) : Echo later (.warned warning) (.warned warning)
  | sequenceLeft {time time'} : later time time' →
      Echo later (.sequenceLeft time) (.sequenceLeft time')
  | loopLeft (iterations) : Echo later (.loopLeft iterations) (.loopLeft iterations)
  | tempoChanged {offset offset'} (bpm) : later offset offset' →
      Echo later (.tempoChanged bpm offset) (.tempoChanged bpm offset')
  | blockEntered {offset offset'} (name) : later offset offset' →
      Echo later (.blockEntered name offset) (.blockEntered name offset')
  | customSampleEntered {offset offset'} (name size) : later offset offset' →
      Echo later (.customSampleEntered name size offset) (.customSampleEntered name size offset')
  | dispatched {request echo} (duration handle) : Request.Echo later request echo →
      Echo later (.dispatched request duration handle) (.dispatched echo duration handle)
  | effectRecorded (block effect) :
      Echo later (.effectRecorded block effect) (.effectRecorded block effect)

namespace Run

variable {α β : Type} {coupled : Run α β → Run α β → Prop}

/-! ## Agreement -/

/-- The same duration, and runs that are coupled. -/
structure Agree (coupled : Run α β → Run α β → Prop) (result result' : α × Run α β) : Prop where
  duration : result.1 = result'.1
  run : coupled result.2 result'.2

variable [Arithmetic α]

/-! ## Coupling -/

variable [Device α β]

/-- The pairs of single changes that two runs side by side consist of. -/
structure Coupled (settings : Settings) (later : α → α → Prop)
    (coupled : Run α β → Run α β → Prop) : Prop where
  delay : ∀ {time time'}, later time time' → ∀ duration, later (time + duration) (time' + duration)
  tempo : ∀ {left right}, coupled left right → left.state.tempo = right.state.tempo
  bindings : ∀ {left right}, coupled left right → left.state.bindings = right.state.bindings
  running : ∀ {left right}, coupled left right → left.running = right.running
  frequency : ∀ {left right}, coupled left right → ∀ name,
    Device.frequency left.device name = Device.frequency right.device name
  refusal? : ∀ {left right}, coupled left right → ∀ kind name,
    left.refusal? settings kind name = right.refusal? settings kind name
  invocations : ∀ {before before' after after'}, coupled before before' → coupled after after' →
    (after.invocations = before.invocations ↔ after'.invocations = before'.invocations)
  record : ∀ {left right entry echo}, coupled left right → Entry.Echo later entry echo →
    entry.call? = none → coupled (left.record entry) (right.record echo)
  dispatch : ∀ {left right request echo}, coupled left right → Request.Echo later request echo →
    ∀ duration, coupled (left.dispatch request duration) (right.dispatch echo duration)
  setTempo : ∀ {left right}, coupled left right → ∀ tempo,
    coupled (left.setTempo tempo) (right.setTempo tempo)
  setVariable : ∀ {left right}, coupled left right → ∀ name value,
    coupled (left.setVariable name value) (right.setVariable name value)
  recordEffect : ∀ {left right}, coupled left right → ∀ block effect,
    coupled (left.recordEffect block effect) (right.recordEffect block effect)
  refuse : ∀ {left right}, coupled left right → ∀ refused,
    coupled (left.refuse settings refused) (right.refuse settings refused)
  enter : ∀ {left right}, coupled left right → ∀ kind name,
    coupled (left.enter kind name) (right.enter kind name)
  leave : ∀ {left right}, coupled left right → coupled left.leave right.leave

namespace Coupled

variable {settings : Settings} {later : α → α → Prop}

/-- The same program twice, at corresponding times and within any two mixes. -/
def pairing (later : α → α → Prop) (coupled : Run α β → Run α β → Prop) : Pairing α β β :=
  { command := Eq, time := later, sharesMix := False, run := coupled }

omit [Arithmetic α] [Device α β] in
theorem agree {result result' : α × Run α β}
    (paired : (pairing later coupled).Agree result result') : Agree coupled result result' :=
  ⟨paired.duration, paired.run⟩

omit [Arithmetic α] [Device α β] in
theorem echo_of_note {entry echo : Entry α} (note : (pairing later coupled).Note entry echo) :
    Entry.Echo later entry echo ∧ entry.call? = none := by
  cases note with
  | ignoredParameter key same | invalidBpm bpm same | faultyCommand same | unknownCommand same =>
    obtain rfl := same
    exact ⟨.warned _, rfl⟩
  | unknownWaveform | blockNotFound | loopBlocksNotFound => exact ⟨.warned _, rfl⟩
  | sequenceLeft times => exact ⟨.sequenceLeft times, rfl⟩
  | loopLeft iterations => exact ⟨.loopLeft iterations, rfl⟩
  | tempoChanged bpm times => exact ⟨.tempoChanged bpm times, rfl⟩
  | blockEntered name times => exact ⟨.blockEntered name times, rfl⟩
  | customSampleEntered name size times => exact ⟨.customSampleEntered name size times, rfl⟩

theorem lawful (couples : Coupled settings later coupled) :
    (pairing later coupled).Lawful settings where
  alike := congrArg Command.words
  delay := couples.delay
  tempo := couples.tempo
  bindings := couples.bindings
  running := couples.running
  frequency := couples.frequency
  refusal? := couples.refusal?
  invocations := couples.invocations
  record := fun runs note => couples.record runs (echo_of_note note).1 (echo_of_note note).2
  dispatch := fun runs sound => couples.dispatch runs sound.echo
  setTempo := couples.setTempo
  setVariable := couples.setVariable
  recordEffect := couples.recordEffect
  refuse := couples.refuse
  enter := couples.enter
  leave := couples.leave

end Coupled

end Run

end Sequencer
