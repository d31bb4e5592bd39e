import Sequencer.Proofs.Run.Beside

/-! # Requests and the moments they go back to

Each step makes one request at most, and the command at hand says which: `requests_step`. So every
request of a run goes back to a moment at which it is what the command at hand asks for.
-/

namespace Sequencer

variable {α β : Type}

namespace Run

theorem Unmoved.requests_eq {before after : Run α β} (unmoved : Unmoved before after) :
    after.requests = before.requests :=
  congrArg (fun journal => journal.toList.map Prod.fst) unmoved.requests

/-- Nothing has been asked for, and the tempo is the one that runs start with. -/
def untouched : Run Float (Timeline Float) := .start (.start 120 true) .empty #[]

variable [Arithmetic α] [Device α β]

/-- The request that an action makes by itself, if it makes one. -/
def request? (program : Program) (settings : Settings) (offset : α) (mix : Mix α) (run : Run α β) :
    Action → Option (Request α)
  | .sample arguments =>
    let (volume, pan) := run.heard settings mix arguments.volume arguments.pan
    let trigger := Trigger.sample arguments.name (run.resolve arguments.pitch)
      (run.resolve arguments.timescale)
    match program.customSample? arguments.name with
    | some _ => none
    | none => some { trigger, start := offset, extent := .instant, volume, pan }
  | .tone arguments =>
    let (volume, pan) := run.heard settings mix arguments.volume arguments.pan
    let trigger := Trigger.tone (run.pitch arguments.pitch)
      (run.waveform settings arguments.waveform).1
    some
      { trigger, start := offset, extent := .lasting (run.seconds arguments.beats), volume, pan }
  | .slide arguments =>
    let (volume, pan) := run.heard settings mix arguments.volume arguments.pan
    let trigger := Trigger.slide (run.pitch arguments.source) (run.pitch arguments.target)
      (run.waveform settings arguments.waveform).1
    let extent := Extent.upTo (offset + run.seconds arguments.beats)
    some { trigger, start := offset, extent, volume, pan }
  | _ => none

/-- Warnings do not change what is asked for. -/
theorem Unmoved.request? {before after : Run α β} (unmoved : Unmoved before after)
    (program : Program) (settings : Settings) (offset : α) (mix : Mix α) (action : Action) :
    after.request? program settings offset mix action =
      before.request? program settings offset mix action := by
  obtain ⟨state, device, stack, invocations, refusals, dispatched, journal⟩ := before
  obtain ⟨state', device', stack', invocations', refusals', dispatched', journal'⟩ := after
  obtain rfl : state' = state := unmoved.state
  obtain rfl : device' = device := unmoved.device
  have waveform : ∀ name, (Run.waveform (β := β) settings
      ⟨state', device', stack', invocations', refusals', dispatched', journal'⟩ name).1 =
        (Run.waveform (β := β) settings
          ⟨state', device', stack, invocations, refusals, dispatched, journal⟩ name).1 := by
    intro name
    cases name with
    | none => rfl
    | some name =>
      rw [Run.waveform, Run.waveform]
      split <;> rfl
  cases action with
  | tone | slide =>
    simp only [Run.request?, waveform]
    rfl
  | sample | wait | bpm | play | loop | set | effect | invalid | unknown => rfl

end Run

namespace Machine

open Run

variable [Arithmetic α] [Device α β] {program : Program} {settings : Settings}

/-- The request that is made with the next step, if one is made. -/
def request? (program : Program) (settings : Settings) : Machine α β → Option (Request α)
  | { task := .command command offset mix, frames := _, run } =>
    run.request? program settings offset mix command.action
  | _ => none

/-- Only commands make requests. -/
theorem request?_eq_some {moment : Machine α β} {request : Request α}
    (asked : moment.request? program settings = some request) :
    ∃ command offset mix, moment.task = .command command offset mix ∧
      moment.run.request? program settings offset mix command.action = some request := by
  obtain ⟨task, frames, run⟩ := moment
  cases task with
  | command command offset mix => exact ⟨command, offset, mix, rfl, asked⟩
  | sequence | atOnce | block | together | loop | invoke | done => cases asked

theorem requests_act (command : Command) (offset : α) (mix : Mix α) (frames : List (Frame α))
    (run : Run α β) :
    (act program settings command offset mix frames run).run.requests =
      run.requests ++ (run.request? program settings offset mix command.action).toList := by
  rw [act, Run.request?.eq_def]
  cases command.action with
  | sample arguments =>
    dsimp only
    cases program.customSample? arguments.name with
    | some customSample => exact (List.append_nil _).symm
    | none => exact requests_dispatch _ _ _
  | tone arguments | slide arguments =>
    -- a waveform that is unknown leaves a warning before the request
    have unmoved := Unmoved.waveform settings run arguments.waveform
    simp only [finish, performTone, performSlide, requests_dispatch, unmoved.requests_eq, heard,
      unmoved.state, Option.toList_some]
  | bpm value =>
    dsimp only
    rw [changeTempo]
    split <;> exact requests_record _ _
  | loop count names arguments =>
    dsimp only
    split
    · exact (List.append_nil _).symm
    · exact requests_record _ _
  | effect | invalid | unknown => exact requests_record _ _
  | wait | play | set => exact (List.append_nil _).symm

theorem requests_step {before after : Machine α β} (steps : Steps program settings before after) :
    after.run.requests = before.run.requests ++ (before.request? program settings).toList := by
  cases steps.move with
  | command command offset mix frames run =>
    have unmoved := Unmoved.ignoreKeys run command
    rw [requests_act, unmoved.requests_eq, unmoved.request?]
    rfl
  | refused => exact (requests_refuse _ _ _).trans (List.append_nil _).symm
  | entered =>
    refine (requests_record_of_plain _ ?_).trans (List.append_nil _).symm
    cases ‹Kind› <;> rfl
  | resumed duration frame frames run => cases frame <;> exact (List.append_nil _).symm
  | sequenceLeft | blockMissing | loopLeft => exact requests_record _ _
  | sequenceEnd | sequenceNext | atOnceEnd | atOnceNext | blockFound | togetherEnd | togetherNext
  | loopEnd | loopNext => exact (List.append_nil _).symm

theorem Reaches.requests_extend {first last : Machine α β}
    (reaches : Reaches program settings first last) :
    first.run.requests <+: last.run.requests := by
  induction reaches with
  | refl => exact List.prefix_rfl
  | tail _ steps inductionHypothesis =>
    rw [requests_step steps]
    exact inductionHypothesis.trans (List.prefix_append _ _)

/-! ## Whole runs -/

/-- A request that has been made on the way was made at one moment of it. -/
theorem Reaches.exists_request {first last : Machine α β}
    (reaches : Reaches program settings first last) {made : List (Request α)}
    {request : Request α} (later : made ++ [request] <+: last.run.requests)
    (notYet : ¬ made ++ [request] <+: first.run.requests) :
    ∃ moment, Reaches program settings first moment ∧ moment.run.requests = made ∧
      moment.request? program settings = some request := by
  obtain ⟨before, after, path, without, steps, made', -⟩ :=
    reaches.exit (fun machine => ¬ made ++ [request] <+: machine.run.requests) notYet
      (not_not.mpr later)
  -- the step that completes the list adds its last request, as it cannot add two
  have made' := not_not.mp made'
  rw [requests_step steps] at made'
  cases asked : before.request? program settings with
  | none =>
    rw [asked, Option.toList_none, List.append_nil] at made'
    exact absurd made' without
  | some request' =>
    rw [asked, Option.toList_some, List.prefix_concat_iff] at made'
    obtain ⟨rfl, same⟩ := List.append_inj' (made'.resolve_right without) rfl
    obtain rfl := (List.cons.inj same).1
    exact ⟨before, path.reaches, rfl, asked⟩

theorem requests_start (program : Program) (run : Run α β) :
    (start program run).run.requests = run.requests :=
  start_invariant (fun after => after.requests = run.requests)
    (fun _ _ _ before => ((requests_record _ _).trans (List.append_nil _)).trans before)
    (fun _ before => ((requests_record _ _).trans (List.append_nil _)).trans before) program rfl

/-- Every request of a run has its moment. -/
theorem exists_request [Arithmetic.LawfulZero α] (program : Program) (settings : Settings)
    {run : Run α β} {made : List (Request α)} {request : Request α}
    (asked : run.requests ++ made ++ [request] <+: (performProgram program settings run).2.requests) :
    ∃ moment, Reaches program settings (start program run) moment ∧
      moment.run.requests = run.requests ++ made ∧
      moment.request? program settings = some request := by
  refine (reaches_end program settings run).exists_request asked fun early => ?_
  have short := early.length_le
  rw [requests_start, List.length_append, List.length_append, List.length_singleton] at short
  omega

end Machine

end Sequencer
