import Sequencer.Proofs.Run.Interruption
import Sequencer.Proofs.Run.Unmoved

/-! # What still happens after a stop

A stop that is asked for with a request is noticed before the next command of a sequence and before
the next turn of a loop, and nowhere else. Custom samples whose bodies play and loop nothing contain
neither, so that the outermost one in progress is performed to its end: `stops_after`.
-/

namespace Sequencer.Machine

open Run

variable {α β : Type} {program : Program} {settings : Settings}

/-! ## Nothing is left to do -/

/-- A task that starts no command by itself. -/
def RestingTask : Task α → Prop
  | .command _ _ _ | .atOnce _ _ _ | .invoke .customSample _ _ _ => False
  | _ => True

/-- The flag is lowered, and no custom sample is in progress or about to be. -/
structure Drained (machine : Machine α β) : Prop where
  stopped : machine.run.running = false
  frames : ∀ rest offset mix, Frame.atOnce rest offset mix ∉ machine.frames
  task : RestingTask machine.task

theorem Outer.not_mem_atOnce {frames : List (Frame α)} {kinds : List Kind}
    (outer : Outer frames kinds) (rest : List Command) (offset : α) (mix : Mix α) :
    Frame.atOnce rest offset mix ∉ frames := by
  induction outer with
  | nil => simp
  | sequence _ _ _ _ _ inductionHypothesis => simpa using inductionHypothesis
  | together _ _ _ _ _ inductionHypothesis => simpa using inductionHypothesis
  | loop _ _ _ _ _ _ _ inductionHypothesis => simpa using inductionHypothesis
  | leave _ inductionHypothesis => simpa using inductionHypothesis

theorem drained_interruptAt {count : Nat} {machine : Machine α (Interruptible α β)}
    (outside : machine.Outside program) (finished : ∃ duration, machine.task = .done duration)
    (late : count ≤ machine.run.device.taken.length) : (machine.interruptAt count).Drained := by
  obtain ⟨duration, task⟩ := finished
  refine ⟨?_, outside.frames.not_mem_atOnce, ?_⟩
  · have stopped : decide (machine.run.device.taken.length < count) = false := by simpa using late
    simp [Machine.interruptAt, Run.interruptAt, Run.running, stopped]
  · rw [Machine.interruptAt, task]
    trivial

variable [Arithmetic α] [Device α β]

/-- With the flag lowered sequences and loops are left, and what fan-outs still enter does nothing. -/
theorem Drained.step {before after : Machine α β} (drained : before.Drained)
    (steps : Steps program settings before after) :
    after.Drained ∧ after.run.state = before.run.state ∧ after.run.device = before.run.device := by
  -- no command starts, and nothing else changes state or device
  have resting : ∀ command offset mix, before.task ≠ .command command offset mix := by
    intro command offset mix task
    have rests := drained.task
    rw [task] at rests
    exact rests
  have unchanged := unchanged_of_step steps resting
  refine ⟨?_, unchanged⟩
  have stopped : after.run.running = false := by
    rw [Run.running, unchanged.1]
    exact drained.stopped
  suffices ordered : (∀ rest offset mix, Frame.atOnce rest offset mix ∉ after.frames) ∧
      RestingTask after.task from ⟨stopped, ordered.1, ordered.2⟩
  obtain ⟨low, ordered, allowed⟩ := drained
  cases steps.move with
  | sequenceNext _ _ _ _ _ _ running | loopNext _ _ _ _ _ _ _ running =>
    exact absurd running (by simp [low])
  | togetherNext => exact ⟨by simpa using ordered, trivial⟩
  | @refused kind => exact ⟨ordered, trivial⟩
  | @entered kind =>
    cases kind with
    | customSample => exact absurd allowed id
    | block => exact ⟨by simpa using ordered, trivial⟩
  | resumed duration frame frames =>
    have orderedRest : ∀ rest offset mix, Frame.atOnce rest offset mix ∉ frames :=
      fun rest offset mix member => ordered rest offset mix (List.mem_cons_of_mem _ member)
    cases frame with
    | atOnce rest offset mix => exact absurd List.mem_cons_self (ordered rest offset mix)
    | sequence | together | loop | leave => exact ⟨orderedRest, trivial⟩
  | command | atOnceEnd | atOnceNext => exact absurd allowed id
  | sequenceEnd | sequenceLeft | blockFound | blockMissing | togetherEnd | loopEnd | loopLeft =>
    exact ⟨ordered, trivial⟩

/-- Nothing happens to state and device any more. -/
theorem Drained.reaches {first last : Machine α β} (drained : first.Drained)
    (reaches : Reaches program settings first last) :
    last.run.state = first.run.state ∧ last.run.device = first.run.device := by
  suffices all : last.Drained ∧ last.run.state = first.run.state ∧
      last.run.device = first.run.device from all.2
  refine reaches.invariant (fun machine => machine.Drained ∧ machine.run.state = first.run.state ∧
    machine.run.device = first.run.device) ⟨drained, rfl, rfl⟩ ?_
  intro before after ⟨still, state, device⟩ steps
  obtain ⟨drainedAfter, stateAfter, deviceAfter⟩ := still.step steps
  exact ⟨drainedAfter, stateAfter.trans state, deviceAfter.trans device⟩

/-! ## On the way -/

theorem outside_start (program : Program) (state : State α) (device : β) (journal : Journal α) :
    (start program (.start state device journal)).Outside program := by
  refine ⟨?_, ?_⟩
  · rw [start_frames, start_stack]
    exact .nil
  · rcases start_task_cases program (.start state device journal) with task | task | task <;>
      rw [task] <;> trivial

theorem Reaches.outside_or_inside (flat : program.FlatCustomSamples) {first last : Machine α β}
    (outside : first.Outside program) (reaches : Reaches program settings first last) :
    last.Outside program ∨ last.Inside program := by
  refine reaches.invariant (fun machine => machine.Outside program ∨ machine.Inside program)
    (Or.inl outside) ?_
  rintro before after (outside | inside) steps
  · exact outside.step flat steps
  · exact (inside.step flat steps).symm.imp_left And.left

theorem Reaches.taken {first last : Machine α (Interruptible α β)}
    (reaches : Reaches program settings first last) :
    first.run.device.taken <+: last.run.device.taken := by
  refine reaches.invariant (fun machine => first.run.device.taken <+: machine.run.device.taken)
    List.prefix_rfl ?_
  intro before after earlier steps
  rcases (oneMore_of_step steps).taken with same | ⟨request, more, -⟩
  · exact same ▸ earlier
  · exact more ▸ earlier.trans (List.prefix_append _ [request])

/-- The moment of some request of a run. -/
theorem Reaches.moment {count : Nat} {first last : Machine α (Interruptible α β)}
    (reaches : Reaches program settings first last) (few : first.run.device.taken.length < count)
    (enough : count ≤ last.run.device.taken.length) :
    ∃ before moment,
      ReachesWhile program settings (fun machine => machine.run.device.taken.length < count) first
        moment ∧
      Reaches program settings first before ∧ Steps program settings before moment ∧
      before.run.device.taken.length + 1 = count ∧ moment.run.device.taken.length = count ∧
      (∃ duration, moment.task = .done duration) ∧ Reaches program settings moment last := by
  obtain ⟨before, moment, path, stillFew, steps, notFew, later⟩ := reaches.exit
    (fun machine => machine.run.device.taken.length < count) few (Nat.not_lt.mpr enough)
  rcases (oneMore_of_step steps).taken with same | ⟨request, more, finished⟩
  · rw [same] at notFew
    exact absurd stillFew notFew
  · have length : moment.run.device.taken.length = before.run.device.taken.length + 1 := by
      rw [more, List.length_append, List.length_singleton]
    exact ⟨before, moment, path.tail ⟨steps, stillFew⟩, path.reaches, steps, by omega, by omega,
      finished, later⟩

/-- The end of the outermost custom sample in progress, where nothing of it is left to do. -/
theorem Expands.close (flat : program.FlatCustomSamples) {name : String}
    {below : List (Kind × String)} {moment last : Machine α β}
    (expands : moment.Expands name below) (inside : moment.Inside program)
    (reaches : Reaches program settings moment last) (outside : last.Outside program) :
    ∃ close,
      ReachesWhile program settings
        (fun machine => machine.Expands name below ∧ machine.Inside program) moment close ∧
      close.run.stack = below ∧ close.Outside program ∧ (∃ duration, close.task = .done duration) ∧
      Reaches program settings close last := by
  obtain ⟨before, close, path, ⟨expandsBefore, insideBefore⟩, steps, left, later⟩ := reaches.exit
    (fun machine => machine.Expands name below ∧ machine.Inside program) ⟨expands, inside⟩
    fun still => outside.not_expanding still.1.expanding
  have lost : ¬ close.Expands name below := fun still =>
    match insideBefore.step flat steps with
    | .inl insideAfter => left ⟨still, insideAfter⟩
    | .inr ⟨outsideAfter, _⟩ => outsideAfter.not_expanding still.expanding
  have stack := expandsBefore.left steps lost
  rcases insideBefore.step flat steps with insideAfter | ⟨outsideAfter, finished⟩
  · obtain ⟨other, member⟩ := insideAfter.expanding
    exact absurd (stack ▸ member) (expands.outermost other)
  · exact ⟨close, path.tail ⟨steps, expandsBefore, insideBefore⟩, stack, outsideAfter, finished, later⟩

/-! ## Stopped runs -/

/-- What a run leaves behind that asks for a stop with one of its requests, or with none. -/
def ending (program : Program) (settings : Settings) (state : State α) (device : β)
    (journal : Journal α) (stopAt : Option Nat) : Run α (Interruptible α β) :=
  (performProgram program settings (.start state (.around device stopAt) journal)).2

/-- A run that ends as another one was at a moment, but for the flag. -/
structure EndsAs (count : Nat) (stopped moment : Run α (Interruptible α β)) : Prop where
  state : stopped.state = { moment.state with running := false }
  device : stopped.device = { moment.device with stopAt := some count }

/-- With no custom sample in progress at a request, a run that is stopped there ends as it is. With
one in progress it ends where the outermost one does. -/
def StopsAt (program : Program) (settings : Settings) (state : State α) (device : β)
    (journal : Journal α) (count : Nat) : Prop :=
  let whole := ending program settings state device journal none
  let stopped := ending program settings state device journal (some count)
  ∃ before moment,
    Reaches program settings (opening program state device journal none) before ∧
    Steps program settings before moment ∧
    before.run.device.taken.length + 1 = count ∧ moment.run.device.taken.length = count ∧
    (¬ moment.Expanding →
      EndsAs count stopped moment.run ∧ stopped.device.taken = whole.device.taken.take count) ∧
    (moment.Expanding → ∃ name below close,
      ReachesWhile program settings (Expands name below) moment close ∧
      close.run.stack = below ∧
      EndsAs count stopped close.run ∧ stopped.device.taken <+: whole.device.taken)

section Stopping

variable [Arithmetic.LawfulZero α] {count : Nat} {state : State α} {device : β} {journal : Journal α}

theorem opening_reaches_end (program : Program) (settings : Settings) (state : State α) (device : β)
    (journal : Journal α) (stopAt : Option Nat) :
    Reaches program settings (opening program state device journal stopAt)
      (finish [] (performProgram program settings
        (.start state (Interruptible.around device stopAt) journal))) :=
  reaches_end program settings _

/-- The stopped run follows up to where it has nothing left to do. -/
theorem ending_endsAs (positive : 0 < count) {close : Machine α (Interruptible α β)}
    (follows : Reaches program settings
      ((opening program state device journal none).interruptAt count) (close.interruptAt count))
    (outside : close.Outside program) (finished : ∃ duration, close.task = .done duration)
    (late : count ≤ close.run.device.taken.length) :
    EndsAs count (ending program settings state device journal (some count)) close.run := by
  rw [← opening_interruptAt positive] at follows
  have toEnd := opening_reaches_end program settings state device journal (some count)
  have rest := Reaches.of_last toEnd rfl follows
  obtain ⟨sameState, sameDevice⟩ := (drained_interruptAt outside finished late).reaches rest
  -- by then enough requests are taken for the flag to be down
  have flag : (close.run.running && decide (close.run.device.taken.length < count)) = false := by
    simpa using fun _ => late
  refine ⟨sameState.trans ?_, sameDevice⟩
  rw [← flag]
  rfl

theorem stopsAt (flat : program.FlatCustomSamples) (positive : 0 < count)
    (enough : count ≤ (ending program settings state device journal none).device.taken.length) :
    StopsAt program settings state device journal count := by
  obtain ⟨nothing, free⟩ := opening_device program state device journal none
  have outsideStart : (opening program state device journal none).Outside program :=
    outside_start program state _ journal
  have toEnd := opening_reaches_end program settings state device journal none
  have few : (opening program state device journal none).run.device.taken.length < count := by
    rw [nothing]
    exact positive
  obtain ⟨before, moment, path, toBefore, steps, length, lengthMoment, finished, later⟩ :=
    toEnd.moment few enough
  have toMoment := toBefore.trans steps.reaches
  have lockstep := path.interruptAt (fun _ earlier _ => earlier) free
  refine ⟨before, moment, toBefore, steps, length, lengthMoment, fun apart => ?_, fun within => ?_⟩
  · have outside := (toMoment.outside_or_inside flat outsideStart).resolve_right
      fun inside => apart inside.expanding
    have ends := ending_endsAs positive lockstep.1 outside finished lengthMoment.ge
    have taken := congrArg Interruptible.taken ends.device
    refine ⟨ends, taken.trans ?_⟩
    rw [← lengthMoment]
    exact List.prefix_iff_eq_take.mp later.taken
  · have inside := (toMoment.outside_or_inside flat outsideStart).resolve_left
      fun outside => outside.not_expanding within
    have outsideEnd := (toEnd.outside_or_inside flat outsideStart).resolve_right
      fun insideEnd => nomatch insideEnd.frames
    obtain ⟨name, below, expands⟩ := within.outermost
    obtain ⟨close, pathWithin, stack, outside, finishedClose, rest⟩ :=
      expands.close flat inside later outsideEnd
    -- inside of custom samples nothing asks for the flag
    have inTime : ∀ machine : Machine α (Interruptible α β),
        machine.Expands name below ∧ machine.Inside program → machine.task.polls = true →
          machine.run.device.taken.length < count :=
      fun machine still polls => absurd polls (by simp [still.2.not_polls])
    have lockstepWithin := pathWithin.interruptAt inTime lockstep.2
    have late := lengthMoment.ge.trans pathWithin.reaches.taken.length_le
    have ends := ending_endsAs positive (lockstep.1.trans lockstepWithin.1) outside finishedClose late
    have taken := congrArg Interruptible.taken ends.device
    exact ⟨name, below, close, pathWithin.mono fun _ still => still.1, stack, ends,
      taken ▸ rest.taken⟩

end Stopping

/-- A run that is stopped with a request ends there or, with custom samples in progress, at the end
of the outermost one. A run that is stopped before it starts gets no further than the headers. -/
theorem stops_after {β : Type} [Device Float β] (program : Program) (settings : Settings)
    (state : State Float) (device : β) (journal : Journal Float) :
    (∀ count, program.FlatCustomSamples → 0 < count →
      count ≤ (ending program settings state device journal none).device.taken.length →
      StopsAt program settings state device journal count) ∧
    (state.running = false →
      let headers := recordHeaders program (.start state device journal)
      let (duration, after) := performProgram program settings (.start state device journal)
      duration = 0 ∧ after.journal.requests = journal.requests ∧ after.device = headers.device ∧
        after.state = { state with effects := headers.state.effects }) := by
  refine ⟨fun count flat positive enough => stopsAt flat positive enough, fun stopped => ?_⟩
  obtain ⟨effects, requests⟩ := recordHeaders_kept program (.start state device journal)
  have stillStopped : (recordHeaders program (.start state device journal)).running = false := by
    rw [Run.running, effects]
    exact stopped
  obtain ⟨duration, unmoved⟩ := performEntry_stopped program settings stillStopped
  exact ⟨duration, unmoved.requests.trans requests, unmoved.device, unmoved.state.trans effects⟩

/-- A custom sample of two samples, and one more sample. -/
def duet : Program :=
  { globals := [.ofWords 1 ["sample", "duet"], .ofWords 2 ["sample", "kick"]]
    blocks := []
    customSamples :=
      [{ name := "duet"
         commands := [.ofWords 3 ["sample", "snare"], .ofWords 4 ["sample", "hat"]]
         effects := [] }]
    irregularities := [] }

/-- A stop with the first sample of the duet, and one before everything. -/
theorem stops_after_duet :
    (duet.FlatCustomSamples ∧ 0 < 1 ∧
      1 ≤ (ending duet .standard (.start 120 true) (.empty : Timeline Float) #[]
        none).device.taken.length ∧
      StopsAt duet .standard (.start 120 true) (.empty : Timeline Float) #[] 1) ∧
    (State.start (120 : Float) false).running = false ∧
      (performProgram duet .standard
        (.start (.start 120 false) (.empty : Timeline Float) #[])).1 = 0 := by
  have flat : duet.FlatCustomSamples := by
    unfold Program.FlatCustomSamples
    decide
  have stops := stops_after duet .standard (.start 120 true) (.empty : Timeline Float) #[]
  have stopped := stops_after duet .standard (.start 120 false) (.empty : Timeline Float) #[]
  exact ⟨⟨flat, by decide, by decide, stops.1 1 flat (by decide) (by decide)⟩, rfl,
    (stopped.2 rfl).1⟩

example : (ending duet .standard (.start 120 true) (.empty : Timeline Float) #[]
    (some 1)).device.taken.length = 2 := by rfl

end Sequencer.Machine
