import Sequencer.Proofs.Device.Deaf
import Sequencer.Proofs.Run.Correspondence

/-! # Runs that differ in effects

Two programs with the same commands on the same lines, but for effects: of the headers of blocks, and
of the commands that record them. On a device that takes effects as remarks a run of the one does
what a run of the other does, and no more than the recorded effects tells them apart.
-/

namespace Sequencer

variable {α β : Type}

/-! ## Programs -/

/-- The same definitions under the same names in the same order, but for effects. -/
structure Program.Retouched (left right : Program) : Prop where
  globals : List.Forall₂ Command.Retouched left.globals right.globals
  definitions : ∀ kind, List.Forall₂ (Definition.Paired Command.Retouched) (left.definitions kind)
    (right.definitions kind)

/-- Definitions in the same order are found under the same names. -/
theorem Definitions.find?_paired {command : Command → Command → Prop} {left right : List Definition}
    (paired : List.Forall₂ (Definition.Paired command) left right) (name : String) :
    Option.Rel (Definition.Paired command) (find? left name) (find? right name) := by
  rw [find?, find?]
  induction paired with
  | nil => exact .none
  | cons first _ inductionHypothesis =>
    rw [List.find?_cons, List.find?_cons, ← first.name]
    split
    · exact .some first
    · exact inductionHypothesis

/-! ## Entries -/

/-- Whether an entry is about an effect. -/
def Entry.recordsEffect : Entry α → Bool
  | .effectRecorded _ _ => true
  | _ => false

/-- The entries that are not about effects. -/
def Journal.withoutEffects (journal : Journal α) : List (Entry α) :=
  journal.toList.filter fun entry => !entry.recordsEffect

namespace Journal

theorem withoutEffects_push (journal : Journal α) (entry : Entry α) :
    withoutEffects (journal.push entry) =
      withoutEffects journal ++ if entry.recordsEffect then [] else [entry] := by
  rw [withoutEffects, Array.toList_push, List.filter_append, List.filter_singleton]
  cases entry.recordsEffect <;> rfl

/-- What is read off other entries than those of effects is read off what is left without them. -/
theorem filterMap_withoutEffects {δ : Type} (journal : Journal α) {image? : Entry α → Option δ}
    (blind : ∀ block effect, image? (.effectRecorded block effect) = none) :
    (withoutEffects journal).filterMap image? = journal.toList.filterMap image? := by
  rw [withoutEffects, List.filterMap_filter]
  refine List.filterMap_congr fun entry _ => ?_
  cases entry with
  | effectRecorded block effect => exact (blind block effect).symm
  | _ => rfl

theorem requests_withoutEffects (journal : Journal α) :
    (withoutEffects journal).filterMap Entry.request? = journal.requests.toList := by
  rw [filterMap_withoutEffects journal fun _ _ => rfl, requests, Array.toList_filterMap]

theorem warnings_withoutEffects (journal : Journal α) :
    (withoutEffects journal).filterMap Entry.warning? = journal.warnings.toList := by
  rw [filterMap_withoutEffects journal fun _ _ => rfl, warnings, Array.toList_filterMap]

end Journal

/-- A state that has recorded no effects. -/
def State.withoutEffects (state : State α) : State α := { state with effects := [] }

theorem State.eq_with_effects {left right : State α}
    (same : left.withoutEffects = right.withoutEffects) :
    right = { left with effects := right.effects } :=
  congrArg (fun state : State α => { state with effects := right.effects }) same.symm

namespace Run

theorem requests_calls (run : Run α β) :
    Call.requests run.calls =
      run.journal.withoutEffects.filterMap fun entry => entry.call?.bind Call.request? := by
  rw [Journal.filterMap_withoutEffects _ fun _ _ => rfl, calls, Call.requests, Entry.calls,
    List.filterMap_filterMap]

/-! ## Runs -/

variable [Device α β]

/-- Two runs on one device in the same state but for effects, with the same definitions in progress,
the same count and the same refusals. -/
structure Abreast (device : β) (left right : Run α β) : Prop where
  heeds : left.Heeds device
  heeds' : right.Heeds device
  state : left.state.withoutEffects = right.state.withoutEffects
  stack : left.stack = right.stack
  invocations : left.invocations = right.invocations
  refusals : left.refusals = right.refusals

namespace Abreast

variable {device : β} {left right : Run α β}

theorem bindings (abreast : Abreast device left right) :
    left.state.bindings = right.state.bindings :=
  (congrArg State.bindings abreast.state :)

theorem running (abreast : Abreast device left right) : left.running = right.running :=
  (congrArg State.running abreast.state :)

theorem tempo (abreast : Abreast device left right) : left.state.tempo = right.state.tempo :=
  (congrArg State.tempo abreast.state :)

theorem seconds [Arithmetic α] (abreast : Abreast device left right) (beats : Value) :
    left.seconds beats = right.seconds beats := by
  rw [Run.seconds, Run.seconds, Run.resolve, Run.resolve, abreast.bindings, abreast.tempo]

theorem refusal? (abreast : Abreast device left right) (settings : Settings) (kind : Kind)
    (name : String) : left.refusal? settings kind name = right.refusal? settings kind name :=
  refusal?_congr abreast.stack abreast.invocations kind name

theorem record (abreast : Abreast device left right) {entry entry' : Entry α}
    (plain : entry.call? = none) (plain' : entry'.call? = none) :
    Abreast device (left.record entry) (right.record entry') :=
  { abreast with
    heeds := abreast.heeds.record plain
    heeds' := abreast.heeds'.record plain' }

theorem dispatch (abreast : Abreast device left right)
    (answers : Device.AnswersSame left.device right.device) (request : Request α) (duration : α) :
    Abreast device (left.dispatch request duration) (right.dispatch request duration) :=
  { abreast with
    heeds := abreast.heeds.dispatch request duration
    heeds' := abreast.heeds'.dispatch request duration
    state := by
      simp only [Run.dispatch, Run.record]
      rw [State.eq_with_effects abreast.state, answers.handle, answers.stop]
      rfl }

/-- The one run records an effect, and the other does not. -/
theorem recordEffect_left (abreast : Abreast device left right) (block : String)
    (effect : Effect α) : Abreast device (left.recordEffect block effect) right :=
  { abreast with
    heeds := abreast.heeds.recordEffect block effect
    state := abreast.state }

theorem recordEffect_right (abreast : Abreast device left right) (block : String)
    (effect : Effect α) : Abreast device left (right.recordEffect block effect) :=
  { abreast with
    heeds' := abreast.heeds'.recordEffect block effect
    state := abreast.state }

theorem setTempo (abreast : Abreast device left right) (tempo : Tempo α) :
    Abreast device (left.setTempo tempo) (right.setTempo tempo) :=
  { abreast with
    heeds := ⟨abreast.heeds.device, abreast.heeds.running⟩
    heeds' := ⟨abreast.heeds'.device, abreast.heeds'.running⟩
    state := congrArg (fun state : State α => { state with tempo }) abreast.state }

theorem setVariable (abreast : Abreast device left right) (name : String) (number : α) :
    Abreast device (left.setVariable name number) (right.setVariable name number) :=
  { abreast with
    heeds := ⟨abreast.heeds.device, abreast.heeds.running⟩
    heeds' := ⟨abreast.heeds'.device, abreast.heeds'.running⟩
    state := congrArg (fun state : State α =>
      { state with bindings := state.bindings.set name number }) abreast.state }

theorem noteRefusal (abreast : Abreast device left right) (refused : Refused) :
    Abreast device (left.noteRefusal refused) (right.noteRefusal refused) := by
  rw [Run.noteRefusal, Run.noteRefusal, ← abreast.refusals]
  split
  · exact abreast
  · exact { abreast with
      heeds := ⟨abreast.heeds.device, abreast.heeds.running⟩
      heeds' := ⟨abreast.heeds'.device, abreast.heeds'.running⟩
      refusals := rfl }

theorem enter (abreast : Abreast device left right) (kind : Kind) (name : String) :
    Abreast device (left.enter kind name) (right.enter kind name) :=
  { abreast with
    heeds := ⟨abreast.heeds.device, abreast.heeds.running⟩
    heeds' := ⟨abreast.heeds'.device, abreast.heeds'.running⟩
    stack := congrArg (List.cons _) abreast.stack
    invocations := congrArg (· + 1) abreast.invocations }

theorem leave (abreast : Abreast device left right) : Abreast device left.leave right.leave :=
  { abreast with
    heeds := ⟨abreast.heeds.device, abreast.heeds.running⟩
    heeds' := ⟨abreast.heeds'.device, abreast.heeds'.running⟩
    stack := congrArg List.tail abreast.stack }

/-- The headers of two programs may tell of any effects. -/
theorem recordHeaders [Arithmetic α] (abreast : Abreast device left right)
    (program program' : Program) :
    Abreast device (left.recordHeaders program) (right.recordHeaders program') := by
  have first := recordHeaders_invariant (Abreast device · right)
    (fun _ block effect before => before.recordEffect_left block effect) program abreast
  exact recordHeaders_invariant (Abreast device (left.recordHeaders program))
    (fun _ block effect before => before.recordEffect_right block effect) program' first

end Abreast

/-- Two runs on one device that have recorded different effects, and have done the same otherwise. -/
structure EqualButForEffects (device : β) (left right : Run α β) : Prop where
  heeds : left.Heeds device
  heeds' : right.Heeds device
  state : left.state.withoutEffects = right.state.withoutEffects
  stack : left.stack = right.stack
  invocations : left.invocations = right.invocations
  refusals : left.refusals = right.refusals
  journal : left.journal.withoutEffects = right.journal.withoutEffects

namespace EqualButForEffects

variable {device : β} {left right : Run α β}

theorem abreast (equal : EqualButForEffects device left right) : Abreast device left right :=
  { equal with }

theorem answersSame (equal : EqualButForEffects device left right) (deaf : Device.Deaf device) :
    Device.AnswersSame left.device right.device := by
  rw [equal.heeds.device, equal.heeds'.device]
  refine deaf _ _ ?_
  rw [requests_calls, requests_calls, equal.journal]

theorem record (equal : EqualButForEffects device left right) {entry : Entry α}
    (plain : entry.call? = none) :
    EqualButForEffects device (left.record entry) (right.record entry) :=
  { equal.abreast.record plain plain with
    journal := by
      rw [Run.record, Run.record, Journal.withoutEffects_push, Journal.withoutEffects_push,
        equal.journal] }

theorem dispatch (equal : EqualButForEffects device left right) (deaf : Device.Deaf device)
    (request : Request α) (duration : α) :
    EqualButForEffects device (left.dispatch request duration) (right.dispatch request duration) :=
  { equal.abreast.dispatch (equal.answersSame deaf) request duration with
    journal := by
      simp only [Run.dispatch, Run.record]
      rw [Journal.withoutEffects_push, Journal.withoutEffects_push, equal.journal,
        (equal.answersSame deaf).handle] }

/-- The one run records an effect, and the other does not. -/
theorem recordEffect_left (equal : EqualButForEffects device left right) (block : String)
    (effect : Effect α) : EqualButForEffects device (left.recordEffect block effect) right :=
  { equal.abreast.recordEffect_left block effect with
    journal := by
      rw [Run.recordEffect, Run.record, Journal.withoutEffects_push, ← equal.journal]
      exact List.append_nil _ }

theorem recordEffect_right (equal : EqualButForEffects device left right) (block : String)
    (effect : Effect α) : EqualButForEffects device left (right.recordEffect block effect) :=
  { equal.abreast.recordEffect_right block effect with
    journal := by
      rw [Run.recordEffect, Run.record, Journal.withoutEffects_push, equal.journal]
      exact (List.append_nil _).symm }

theorem refuse (equal : EqualButForEffects device left right) (settings : Settings)
    (refused : Refused) :
    EqualButForEffects device (left.refuse settings refused) (right.refuse settings refused) := by
  have noted : EqualButForEffects device (left.noteRefusal refused) (right.noteRefusal refused) :=
    { equal.abreast.noteRefusal refused with
      journal := by
        rw [noteRefusal, noteRefusal, ← equal.refusals]
        split <;> exact equal.journal }
  rw [Run.refuse, Run.refuse, ← equal.refusals]
  split
  · exact noted
  · exact noted.record rfl

/-- The headers of two programs may tell of any effects. -/
theorem recordHeaders [Arithmetic α] (equal : EqualButForEffects device left right)
    (program program' : Program) :
    EqualButForEffects device (left.recordHeaders program) (right.recordHeaders program') := by
  have first := recordHeaders_invariant (EqualButForEffects device · right)
    (fun _ block effect before => before.recordEffect_left block effect) program equal
  exact recordHeaders_invariant (EqualButForEffects device (left.recordHeaders program))
    (fun _ block effect before => before.recordEffect_right block effect) program' first

end EqualButForEffects

end Run

/-! ## Programs side by side -/

namespace Correspondence

open Run

variable [Device α β]

/-- Retouched commands at the same times, up to the end. -/
def butForEffects (device : β) : Correspondence α β β where
  command := Command.Retouched
  within := fun _ => True
  time := Eq
  duration := Eq
  run := EqualButForEffects device
  live := fun _ => True
  live' := fun _ => True
  meets := fun _ => True

variable [Arithmetic α]

theorem lawful_butForEffects {device : β} (deaf : Device.Deaf device) {left right : Program}
    (retouched : left.Retouched right) (settings : Settings) :
    (butForEffects device).Lawful left right settings settings where
  retouched := id
  names := fun _ _ _ => trivial
  definition := fun {kind name} _ => Definitions.find?_paired (retouched.definitions kind) name
  defaultVolume := rfl
  defaultWaveform := rfl
  zero := rfl
  add := fun first second => congrArg₂ _ first second
  larger := fun first second => congrArg₂ _ first second
  later := fun time duration => congrArg₂ _ time duration
  running := fun equal => equal.abreast.running
  bindings := fun equal => equal.abreast.bindings
  seconds := fun equal => equal.abreast.seconds
  frequency := fun equal => (equal.answersSame deaf).frequency
  record := fun {_ _ entry _} equal echo plain => by
    obtain rfl := echo.eq_of_plain plain
    exact equal.record plain
  dispatch := fun {_ _ request _ duration _} equal matching durations _ _ => by
    obtain rfl := matching.eq
    obtain rfl : duration = _ := durations
    exact equal.dispatch deaf request duration
  setTempo := fun equal _ _ tempo =>
    { equal.abreast.setTempo tempo with journal := equal.journal }
  setVariable := fun {_ _ _ _ name _} equal _ _ number =>
    { equal.abreast.setVariable name number with journal := equal.journal }
  recordEffect := fun equal _ _ _ => (equal.recordEffect_left _ _).recordEffect_right _ _
  refuse := fun {left right kind name refusal} equal given _ =>
    ⟨refusal, equal.abreast.refusal? settings kind name ▸ given, equal.refuse settings _⟩
  enter := fun {left right kind name _} equal enters _ =>
    ⟨equal.abreast.refusal? settings kind name ▸ enters,
      { equal.abreast.enter kind name with journal := equal.journal }⟩
  leave := fun equal => { equal.abreast.leave with journal := equal.journal }

end Correspondence

end Sequencer
