import Sequencer.Proofs.Number.Exact
import Sequencer.Proofs.Run.Coupled

/-! # The same at any time

Where a command starts, and within which mix, shows in the times, volumes and pans of its requests
only. With exact arithmetic a later start makes every time later by as much: `performs_alike`.
-/

namespace Sequencer

variable {α : Type}

/-! ## Entries and their calls -/

theorem Entry.Echo.call? {later : α → α → Prop} {entry echo : Entry α}
    (echoes : Entry.Echo later entry echo) :
    Option.Rel (Call.Echo later) entry.call? echo.call? := by
  cases echoes with
  | dispatched duration handle echoes => exact .some (.schedule echoes)
  | effectRecorded block effect => exact .some (.addEffect block effect)
  | warned | sequenceLeft | loopLeft | tempoChanged | blockEntered | customSampleEntered => exact .none

theorem Call.Echo.anyTime {later : α → α → Prop} {call echo : Call α}
    (echoes : Call.Echo later call echo) : Call.Echo anyTime call echo := by
  cases echoes with
  | schedule echoes => exact .schedule echoes.anyTime
  | addEffect block effect => exact .addEffect block effect

/-- Where entries echo, so do the calls. -/
theorem Entry.Echo.calls {later : α → α → Prop} {entries echoes : List (Entry α)}
    (pairs : List.Forall₂ (Entry.Echo later) entries echoes) :
    List.Forall₂ (Call.Echo later) (Entry.calls entries) (Entry.calls echoes) :=
  List.rel_filterMap (fun _ _ pair => pair.call?) pairs

namespace Run

variable {β : Type} [Device α β]

/-- Two runs that have gone on from one, and have done the same at corresponding times. -/
structure Echo (later : α → α → Prop) (origin left right : Run α β) : Prop where
  state : left.state = right.state
  stack : left.stack = right.stack
  invocations : left.invocations = right.invocations
  refusals : left.refusals = right.refusals
  /-- What has been done since, and all that has been asked of the devices. -/
  journals : ∃ entries echoes, List.Forall₂ (Entry.Echo later) entries echoes ∧
    left.journal = origin.journal ++ entries ∧ right.journal = origin.journal ++ echoes ∧
    left.device = Call.replay origin.device (Entry.calls entries) ∧
    right.device = Call.replay origin.device (Entry.calls echoes)

namespace Echo

variable {later : α → α → Prop} {origin left right : Run α β}

theorem refl (origin : Run α β) : Echo later origin origin origin where
  state := rfl
  stack := rfl
  invocations := rfl
  refusals := rfl
  journals := ⟨[], [], .nil, by simp, by simp, rfl, rfl⟩

theorem answersAlike (echo : Echo later origin left right)
    (indifferent : Device.Indifferent origin.device) :
    Device.AnswersAlike left.device right.device := by
  obtain ⟨entries, echoes, pairs, -, -, device, device'⟩ := echo.journals
  rw [device, device']
  exact indifferent _ _ ((Entry.Echo.calls pairs).imp fun _ _ echoes => echoes.anyTime)

/-- One more entry on both sides, with the call that it stands for. -/
theorem journals_push (echo : Echo later origin left right) {entry entry' : Entry α}
    (pair : Entry.Echo later entry entry') {device device' : β}
    (called : device = Call.replay left.device (Entry.calls [entry]))
    (called' : device' = Call.replay right.device (Entry.calls [entry'])) :
    ∃ entries echoes, List.Forall₂ (Entry.Echo later) entries echoes ∧
      left.journal.push entry = origin.journal ++ entries ∧
      right.journal.push entry' = origin.journal ++ echoes ∧
      device = Call.replay origin.device (Entry.calls entries) ∧
      device' = Call.replay origin.device (Entry.calls echoes) := by
  obtain ⟨entries, echoes, pairs, journal, journal', deviceLeft, deviceRight⟩ := echo.journals
  refine ⟨entries ++ [entry], echoes ++ [entry'], ?_, ?_, ?_, ?_, ?_⟩
  · exact List.rel_append pairs (.cons pair .nil)
  · rw [journal, ← Array.toList_inj]
    simp
  · rw [journal', ← Array.toList_inj]
    simp
  · rw [called, deviceLeft, Call.replay, Call.replay, ← List.foldl_append, Entry.calls, Entry.calls,
      ← List.filterMap_append]
    rfl
  · rw [called', deviceRight, Call.replay, Call.replay, ← List.foldl_append, Entry.calls,
      Entry.calls, ← List.filterMap_append]
    rfl

theorem record (echo : Echo later origin left right) {entry entry' : Entry α}
    (pair : Entry.Echo later entry entry') (quiet : entry.call? = none) :
    Echo later origin (left.record entry) (right.record entry') := by
  have quiet' : entry'.call? = none := by
    have calls := pair.call?
    rw [quiet] at calls
    cases called : entry'.call? with
    | none => rfl
    | some call =>
      rw [called] at calls
      cases calls
  refine ⟨echo.state, echo.stack, echo.invocations, echo.refusals, echo.journals_push pair ?_ ?_⟩
  · simp [Entry.calls, quiet, Call.replay, Run.record]
  · simp [Entry.calls, quiet', Call.replay, Run.record]

theorem dispatch (echo : Echo later origin left right)
    (indifferent : Device.Indifferent origin.device) {request request' : Request α}
    (requests : Request.Echo later request request') (duration : α) :
    Echo later origin (left.dispatch request duration) (right.dispatch request' duration) := by
  -- the handle is entered and joins the active ones, and the wish to stop lowers the flag
  have answers := echo.answersAlike indifferent
  have handle := answers.handle requests.anyTime
  have pair := Entry.Echo.dispatched duration (Device.schedule left.device request).handle requests
  refine ⟨?_, echo.stack, echo.invocations, echo.refusals, ?_⟩
  · simp only [Run.dispatch, Run.record]
    rw [echo.state, handle, answers.stop requests.anyTime]
  · simp only [Run.dispatch, Run.record]
    rw [← handle]
    exact echo.journals_push pair rfl rfl

theorem recordEffect (echo : Echo later origin left right) (block : String) (effect : Effect α) :
    Echo later origin (left.recordEffect block effect) (right.recordEffect block effect) :=
  ⟨congrArg (State.addEffect · block effect) echo.state, echo.stack, echo.invocations, echo.refusals,
    echo.journals_push (.effectRecorded block effect) rfl rfl⟩

theorem refuse (echo : Echo later origin left right) (settings : Settings) (refused : Refused) :
    Echo later origin (left.refuse settings refused) (right.refuse settings refused) := by
  have noted : Echo later origin (left.noteRefusal refused) (right.noteRefusal refused) := by
    rw [noteRefusal, noteRefusal, ← echo.refusals]
    split
    · exact echo
    · exact ⟨echo.state, echo.stack, echo.invocations, rfl, echo.journals⟩
  rw [Run.refuse, Run.refuse, ← echo.refusals]
  split
  · exact noted
  · exact noted.record (.warned _) rfl

variable [Arithmetic α]

/-- Being an echo is kept by all that runs do. -/
theorem coupled (settings : Settings) (indifferent : Device.Indifferent origin.device)
    (delay : ∀ {time time'}, later time time' → ∀ duration,
      later (time + duration) (time' + duration)) :
    Coupled settings later (Echo later origin) where
  delay := delay
  tempo := fun echo => congrArg State.tempo echo.state
  bindings := fun echo => congrArg State.bindings echo.state
  running := fun echo => congrArg State.running echo.state
  frequency := fun echo => (echo.answersAlike indifferent).frequency
  refusal? := by
    intro left right echo kind name
    rw [Run.refusal?, Run.refusal?, echo.stack, echo.invocations]
  invocations := by
    intro before before' after after' first second
    rw [first.invocations, second.invocations]
  record := fun echo => echo.record
  dispatch := fun echo requests duration => echo.dispatch indifferent requests duration
  setTempo := fun echo tempo =>
    ⟨congrArg (fun state => { state with tempo }) echo.state, echo.stack, echo.invocations,
      echo.refusals, echo.journals⟩
  setVariable := fun echo name value =>
    ⟨congrArg (fun state => { state with bindings := state.bindings.set name value }) echo.state,
      echo.stack, echo.invocations, echo.refusals, echo.journals⟩
  recordEffect := fun echo => echo.recordEffect
  refuse := fun echo => echo.refuse settings
  enter := fun echo kind name =>
    ⟨echo.state, congrArg (List.cons (kind, name)) echo.stack, congrArg (· + 1) echo.invocations,
      echo.refusals, echo.journals⟩
  leave := fun echo =>
    ⟨echo.state, congrArg List.tail echo.stack, echo.invocations, echo.refusals, echo.journals⟩

end Echo

/-! ## Commands and sequences -/

variable {β : Type} [Arithmetic α] [Device α β]

/-- Whatever is performed at one time and at another, within any two mixes, takes as long and leaves
echoing runs. -/
def PerformsAlike (program : Program) (settings : Settings) (later : α → α → Prop) (run : Run α β)
    (first second : α) : Prop :=
  ∀ mix mix' : Mix α,
    (∀ command,
      Agree (Echo later run)
        (performCommand program settings (invoke program settings (room program)) command first mix
          run)
        (performCommand program settings (invoke program settings (room program)) command second
          mix' run)) ∧
    ∀ commands,
      Agree (Echo later run)
        (inSequence
          (fun command start run => performCommand program settings
            (invoke program settings (room program)) command start mix run)
          first commands 0 run)
        (inSequence
          (fun command start run => performCommand program settings
            (invoke program settings (room program)) command start mix' run)
          second commands 0 run)

theorem Coupled.performsAlike {program : Program} {settings : Settings} {later : α → α → Prop}
    {run : Run α β} (couples : Coupled settings later (Echo later run)) {first second : α}
    (times : later first second) : PerformsAlike program settings later run first second := by
  have lawful := couples.lawful
  have itself : program.Paired Eq program := .refl program fun _ _ => rfl
  have each := lawful.invoke itself (room program)
  intro mix mix'
  refine ⟨fun command => ?_, fun commands => ?_⟩
  · exact Coupled.agree (lawful.performCommand itself each times False.elim (.refl run) rfl)
  · refine Coupled.agree (lawful.inSequence (fun same times runs => ?_) times ?_ 0 (.refl run))
    · exact lawful.performCommand itself each times False.elim runs same
    · exact List.forall₂_same.mpr fun _ _ => rfl

/-- On a device that does not look at times and mixes, whatever is performed takes as long and does
the same, however numbers are computed. With fractions every start and every end that is a time is
later by what the start of the whole is later. -/
theorem performs_alike (program : Program) (settings : Settings) :
    (∀ {α β : Type} [Arithmetic α] [Device α β] (run : Run α β), Device.Indifferent run.device →
      ∀ first second, PerformsAlike program settings anyTime run first second) ∧
    ∀ {β : Type} [Device ℚ β] (run : Run ℚ β), Device.Indifferent run.device →
      ∀ first second,
        PerformsAlike program settings (fun before after => after = before + (second - first)) run
          first second := by
  refine ⟨fun run indifferent first second => ?_, fun run indifferent first second => ?_⟩
  · have couples : Coupled settings anyTime (Echo anyTime run) :=
      Echo.coupled settings indifferent fun _ _ => trivial
    exact couples.performsAlike trivial
  · have couples : Coupled settings (fun before after => after = before + (second - first))
        (Echo (fun before after => after = before + (second - first)) run) := by
      refine Echo.coupled settings indifferent fun shifted duration => ?_
      rw [shifted]
      exact add_right_comm _ _ _
    exact couples.performsAlike (add_sub_cancel first second).symm

/-- A block that is played after a beat, on an empty timeline. -/
def refrain : Program :=
  { globals := [.ofWords 1 ["wait", "1"], .ofWords 2 ["play", "chorus"]]
    blocks :=
      [{ name := "chorus", commands := [.ofWords 3 ["slide", "a4", "c5", "2"]], effects := [] }]
    customSamples := []
    irregularities := [] }

theorem performs_alike_refrain :
    (Device.Indifferent (Timeline.empty : Timeline Float) ∧
      PerformsAlike refrain .standard anyTime
        (.start (.start 120 true) (Timeline.empty : Timeline Float) #[]) 0 1) ∧
    Device.Indifferent (Timeline.empty : Timeline ℚ) ∧
      PerformsAlike refrain .standard (fun before after => after = before + (3 - 1 / 2))
        (.start (.start 120 true) (Timeline.empty : Timeline ℚ) #[]) (1 / 2) 3 :=
  ⟨⟨Timeline.indifferent _, (performs_alike refrain .standard).1 _ (Timeline.indifferent _) 0 1⟩,
    Timeline.indifferent _, (performs_alike refrain .standard).2 _ (Timeline.indifferent _) (1 / 2) 3⟩

end Run

end Sequencer
