import Sequencer.Proofs.Run.Sameness

/-! # The books of a run

Beside its device a run keeps the active handles, the requests it has made, a count of them and the
effects it has recorded. They agree with what the device has been asked and has answered, call by
call, and effects are told in the order in which they are recorded: those of the headers first, and
then those of the commands that are performed.
-/

namespace Sequencer

variable {α β : Type}

namespace Call

variable [Device α β]

/-- The handle with which a device answers a call. -/
def handle? (device : β) : Call α → Option Handle
  | .schedule request => some (Device.schedule device request).handle
  | .addEffect _ _ => none

/-- The handles with which a device answers calls, one after the other. -/
def handles (device : β) : List (Call α) → List Handle
  | [] => []
  | call :: rest => (call.handle? device).toList ++ handles (call.apply device) rest

theorem handles_append (device : β) (first second : List (Call α)) :
    handles device (first ++ second) =
      handles device first ++ handles (replay device first) second := by
  induction first generalizing device with
  | nil => rfl
  | cons call rest inductionHypothesis =>
    rw [List.cons_append, handles, handles, inductionHypothesis, List.append_assoc]
    rfl

end Call

/-- The effect that a command records in a run, with its block. -/
def Command.effect? [Arithmetic α] (command : Command) (run : Run α β) :
    Option (String × Effect α) :=
  match command.action with
  | .effect effect block => some (block, effect.map run.resolve)
  | _ => none

namespace Run

theorem effect?_ignoreKeys [Arithmetic α] (command : Command) (run : Run α β) :
    command.effect? (run.ignoreKeys command) = command.effect? run :=
  ignoreKeys_invariant (fun after => command.effect? after = command.effect? run)
    (fun _ _ _ _ before => before) command rfl

/-! ## Books and calls -/

section Books

variable [Device α β]

/-- A run that was started in a state and on a device, and whose books agree with its calls. -/
structure Mirrors (state : State α) (origin : β) (run : Run α β) : Prop where
  device : run.device = Call.replay origin run.calls
  active : run.state.active.toList = state.active.toList ++ Call.handles origin run.calls
  requests : run.journal.requests.toList.map Prod.snd = Call.handles origin run.calls
  dispatched : run.dispatched = (Call.handles origin run.calls).length
  effects : ∀ block, run.state.effectsOf block =
    state.effectsOf block ++ effectsOn block (Call.effects run.calls)

namespace Mirrors

variable {state : State α} {origin : β} {run : Run α β}

theorem start (state : State α) (origin : β) :
    (Run.start state origin #[]).Mirrors state origin where
  device := rfl
  active := (List.append_nil _).symm
  requests := rfl
  dispatched := rfl
  effects := fun _ => (List.append_nil _).symm

theorem size_requests (mirrors : run.Mirrors state origin) :
    run.journal.requests.size = (Call.handles origin run.calls).length := by
  rw [← mirrors.requests, List.length_map, Array.length_toList]

theorem record (mirrors : run.Mirrors state origin) {entry : Entry α} (plain : entry.call? = none) :
    (run.record entry).Mirrors state origin := by
  have calls := calls_record_of_plain run plain
  have requests : (run.record entry).journal.requests.toList = run.journal.requests.toList := by
    rw [Run.record, Journal.requests_push, Entry.request?_of_plain plain]
    exact List.append_nil _
  refine ⟨?_, ?_, ?_, ?_, fun block => ?_⟩
  · rw [calls]
    exact mirrors.device
  · rw [calls]
    exact mirrors.active
  · rw [calls, requests]
    exact mirrors.requests
  · rw [calls]
    exact mirrors.dispatched
  · rw [calls]
    exact mirrors.effects block

theorem dispatch (mirrors : run.Mirrors state origin) (request : Request α) (duration : α) :
    (run.dispatch request duration).Mirrors state origin := by
  have calls := calls_dispatch run request duration
  have handles : Call.handles origin (run.dispatch request duration).calls =
      Call.handles origin run.calls ++ [(Device.schedule run.device request).handle] := by
    rw [calls, Call.handles_append, ← mirrors.device]
    rfl
  refine ⟨?_, ?_, ?_, ?_, fun block => ?_⟩
  · rw [calls, Call.replay_append, ← mirrors.device]
    rfl
  · rw [handles, ← List.append_assoc, ← mirrors.active]
    exact Array.toList_push
  · rw [handles, ← mirrors.requests, Run.dispatch, Run.record, Journal.requests_push,
      List.map_append]
    rfl
  · rw [handles, List.length_append, ← mirrors.dispatched]
    rfl
  · rw [calls, Call.effects_append]
    exact (mirrors.effects block).trans (congrArg _ (congrArg _ (List.append_nil _).symm))

theorem recordEffect (mirrors : run.Mirrors state origin) (block : String) (effect : Effect α) :
    (run.recordEffect block effect).Mirrors state origin := by
  have calls := calls_recordEffect run block effect
  have handles : Call.handles origin (run.recordEffect block effect).calls =
      Call.handles origin run.calls := by
    rw [calls, Call.handles_append]
    exact List.append_nil _
  refine ⟨?_, ?_, ?_, ?_, fun other => ?_⟩
  · rw [calls, Call.replay_append, ← mirrors.device]
    rfl
  · rw [handles]
    exact mirrors.active
  · rw [handles, ← mirrors.requests, Run.recordEffect, Run.record, Journal.requests_push]
    exact congrArg _ (List.append_nil _)
  · rw [handles]
    exact mirrors.dispatched
  · rw [calls, Call.effects_append, effectsOn_append, ← List.append_assoc, ← mirrors.effects other]
    exact (State.effectsOf_addEffect _ _ _ _).trans
      (congrArg _ (effectsOn_map other block [effect]).symm)

theorem refuse (mirrors : run.Mirrors state origin) (settings : Settings) (refused : Refused) :
    (run.refuse settings refused).Mirrors state origin :=
  refuse_invariant (Mirrors state origin) settings refused (fun _ _ before => { before with })
    (fun _ before => before.record rfl) mirrors

end Mirrors

theorem kept_mirrors [Arithmetic α] (settings : Settings) (state : State α) (origin : β) :
    Kept settings fun before after => before.Mirrors state origin → after.Mirrors state origin where
  refl := fun _ => id
  trans := fun first second mirrors => second (first mirrors)
  record := fun _ _ plain mirrors => mirrors.record plain
  dispatch := fun _ request duration mirrors => mirrors.dispatch request duration
  setTempo := fun _ _ _ _ mirrors =>
    { mirrors with }
  setVariable := fun _ _ _ mirrors =>
    { mirrors with }
  recordEffect := fun _ block effect mirrors => mirrors.recordEffect block effect
  refuse := fun _ refused mirrors => mirrors.refuse settings refused
  enclose := fun _ _ _ _ _ within mirrors =>
    have after := within { mirrors with }
    { after with }

end Books

/-! ## Effects as they are told -/

/-- A run that has gone on from another one, with the effects that the device has been told since.
-/
def Tells (told : List (String × Effect α)) (before after : Run α β) : Prop :=
  ∃ calls, after.calls = before.calls ++ calls ∧ Call.effects calls = told

namespace Tells

variable {told told' : List (String × Effect α)} {first second third : Run α β}

theorem of_calls_eq (same : second.calls = first.calls) : Tells [] first second :=
  ⟨[], by rw [same, List.append_nil], rfl⟩

theorem refl (run : Run α β) : Tells [] run run := of_calls_eq rfl

theorem trans (left : Tells told first second) (right : Tells told' second third) :
    Tells (told ++ told') first third := by
  obtain ⟨calls, later, rfl⟩ := left
  obtain ⟨calls', last, rfl⟩ := right
  exact ⟨calls ++ calls', by rw [last, later, List.append_assoc], Call.effects_append calls calls'⟩

theorem record (run : Run α β) {entry : Entry α} (plain : entry.call? = none) :
    Tells [] run (run.record entry) :=
  of_calls_eq (calls_record_of_plain run plain)

theorem refuse (settings : Settings) (run : Run α β) (refused : Refused) :
    Tells [] run (run.refuse settings refused) :=
  refuse_invariant (Tells [] run) settings refused (fun _ _ before => before)
    (fun after before => before.trans (.record after rfl)) (.refl run)

theorem ignoreKeys (command : Command) (run : Run α β) : Tells [] run (run.ignoreKeys command) :=
  ignoreKeys_invariant (Tells [] run) (fun after _ _ _ before => before.trans (.record after rfl))
    command (.refl run)

theorem waveform (settings : Settings) (run : Run α β) (name : Option String) :
    Tells [] run (run.waveform settings name).2 := by
  cases name with
  | none => exact .refl run
  | some name =>
    rw [Run.waveform]
    split
    · exact .refl run
    · exact .record run rfl

theorem changeTempo [Arithmetic α] (line : Nat) (bpm offset : α) (run : Run α β) :
    Tells [] run (changeTempo line bpm offset run) := by
  rw [Run.changeTempo]
  split
  · exact of_calls_eq (calls_record_of_plain _ rfl)
  · exact .record run rfl

variable [Device α β]

theorem dispatch (run : Run α β) (request : Request α) (duration : α) :
    Tells [] run (run.dispatch request duration) :=
  ⟨[.schedule request], calls_dispatch run request duration, rfl⟩

theorem recordEffect (run : Run α β) (block : String) (effect : Effect α) :
    Tells [(block, effect)] run (run.recordEffect block effect) :=
  ⟨[.addEffect block effect], calls_recordEffect run block effect, rfl⟩

end Tells

end Run

namespace Machine

open Run

variable [Arithmetic α] [Device α β] {program : Program} {settings : Settings}

/-! ## Performed commands -/

/-- The command that is performed with the next step, and the run that it finds. -/
def performing? : Machine α β → Option (Command × Run α β)
  | { task := .command command _ _, frames := _, run } => some (command, run)
  | _ => none

/-- The effect that is recorded as a command is performed. -/
def recorded? (moment : Command × Run α β) : Option (String × Effect α) :=
  moment.1.effect? moment.2

/-- The commands that are performed on the way from one machine to another, in their order. -/
inductive Performs (program : Program) (settings : Settings) :
    List (Command × Run α β) → Machine α β → Machine α β → Prop
  | refl (machine) : Performs program settings [] machine machine
  | head {performed before after last} : Steps program settings before after →
      Performs program settings performed after last →
      Performs program settings (before.performing?.toList ++ performed) before last

theorem Reaches.performs {first last : Machine α β}
    (reaches : Reaches program settings first last) :
    ∃ performed, Performs program settings performed first last := by
  induction reaches using Relation.ReflTransGen.head_induction_on with
  | refl => exact ⟨[], .refl last⟩
  | head steps _ inductionHypothesis =>
    obtain ⟨performed, performs⟩ := inductionHypothesis
    exact ⟨_, .head steps performs⟩

/-- Only the command for it tells an effect. -/
theorem tells_act (command : Command) (offset : α) (mix : Mix α) (frames : List (Frame α))
    (run : Run α β) :
    Tells (command.effect? run).toList run
      (act program settings command offset mix frames run).run := by
  rw [act, Command.effect?]
  cases action : command.action with
  | sample arguments =>
    dsimp only
    split
    · exact .refl run
    · exact .dispatch run _ _
  | tone arguments | slide arguments =>
    exact (Tells.waveform settings run _).trans (.dispatch _ _ _)
  | wait | play => exact .refl run
  | bpm value => exact .changeTempo _ _ _ run
  | loop count names arguments =>
    dsimp only
    split
    · exact .refl run
    · exact .record run rfl
  | set name value => exact .of_calls_eq rfl
  | effect effect block => exact .recordEffect run _ _
  | invalid | unknown => exact .record run rfl

theorem tells_step {before after : Machine α β} (steps : Steps program settings before after) :
    Tells (before.performing?.toList.filterMap recorded?) before.run after.run := by
  cases steps.move with
  | command command offset mix frames run =>
    have told : Tells (command.effect? run).toList (run.ignoreKeys command)
        (act program settings command offset mix frames (run.ignoreKeys command)).run :=
      effect?_ignoreKeys command run ▸ tells_act command offset mix frames _
    have single : [(command, run)].filterMap recorded? = (command.effect? run).toList := by
      rw [List.filterMap_cons, recorded?]
      cases command.effect? run <;> rfl
    change Tells ([(command, run)].filterMap recorded?) _ _
    rw [single]
    exact (Tells.ignoreKeys command run).trans told
  | sequenceLeft | blockMissing | loopLeft => exact .record _ rfl
  | refused => exact .refuse _ _ _
  | entered offset mix frames =>
    exact (Tells.of_calls_eq rfl).trans (.record _ (by cases ‹Kind› <;> rfl))
  | resumed duration frame frames run =>
    cases frame with
    | leave => exact .of_calls_eq rfl
    | sequence | atOnce | together | loop => exact .refl run
  | sequenceEnd | sequenceNext | atOnceEnd | atOnceNext | blockFound | togetherEnd | togetherNext
  | loopEnd | loopNext => exact .refl _

/-- On the way the device is told the effects of the commands for them, one by one. -/
theorem Performs.tells {performed : List (Command × Run α β)} {first last : Machine α β}
    (performs : Performs program settings performed first last) :
    Tells (performed.filterMap recorded?) first.run last.run := by
  induction performs with
  | refl machine => exact .refl machine.run
  | head steps _ inductionHypothesis =>
    rw [List.filterMap_append]
    exact (tells_step steps).trans inductionHypothesis

/-! ## Whole runs -/

theorem mirrors_step {state : State α} {device : β} {before after : Machine α β}
    (steps : Steps program settings before after) (mirrors : before.run.Mirrors state device) :
    after.run.Mirrors state device :=
  kept_step (kept_mirrors settings state device)
    (fun _ _ _ mirrors => { mirrors with })
    (fun _ mirrors => { mirrors with }) steps
    mirrors

theorem mirrors_start (program : Program) {state : State α} {device : β} {run : Run α β}
    (mirrors : run.Mirrors state device) : (start program run).run.Mirrors state device :=
  start_invariant (fun run => run.Mirrors state device)
    (fun _ block effect before => before.recordEffect block effect)
    (fun _ before => before.record rfl) program mirrors

/-- Books that agree at the start agree at the end. -/
theorem mirrors_end [Arithmetic.LawfulZero α] (program : Program) (settings : Settings)
    {state : State α} {device : β} {run : Run α β} (mirrors : run.Mirrors state device) :
    (performProgram program settings run).2.Mirrors state device :=
  (reaches_end program settings run).invariant
    (fun machine => machine.run.Mirrors state device) (mirrors_start program mirrors)
    fun mirrors steps => mirrors_step steps mirrors

/-- At the start the device has been told the effects of the headers, and nothing else. -/
theorem calls_start (program : Program) (state : State α) (device : β) :
    (start program (.start state device #[])).run.calls =
      Call.ofHeaders (Definitions.headers program.blocks) := by
  have recorded : ((Run.start state device #[]).recordHeaders program).calls =
      Call.ofHeaders (Definitions.headers program.blocks) := by
    rw [recordHeaders_eq_recordEach, calls_recordEach]
    rfl
  rw [start]
  split
  · exact recorded
  · split
    · exact recorded
    · exact (calls_record_of_plain _ rfl).trans recorded

/-- A run may start in any state, on any device, and be it one that writes down all that it is asked.
It leaves the device that its calls have made of the one at the start. The handles that the device
has given are those that have joined the active handles, in their order; they are as many as the run
has counted, and as the requests in its journal. The calls begin with the effects of the headers,
block by block; the effects that come later are those of the commands performed, as they are
performed. The effects of each block are those before the run and then those that the device has been
told for it. -/
theorem books_agree {β : Type} [Device Float β] (program : Program) (settings : Settings)
    (state : State Float) (device : β) :
    ∃ duration run performed calls,
      performProgram program settings (.start state device #[]) = (duration, run) ∧
        Performs program settings performed (start program (.start state device #[]))
          (finish [] (duration, run)) ∧
        run.calls = Call.ofHeaders (Definitions.headers program.blocks) ++ calls ∧
        Call.effects calls = performed.filterMap recorded? ∧ run.Mirrors state device ∧
        run.dispatched = (Call.handles device run.calls).length ∧
        run.journal.requests.size = (Call.handles device run.calls).length := by
  have mirrors := mirrors_end program settings (Mirrors.start state device)
  obtain ⟨performed, performs⟩ := (reaches_end program settings (.start state device #[])).performs
  obtain ⟨calls, later, told⟩ := performs.tells
  rw [calls_start] at later
  exact ⟨_, _, performed, calls, rfl, performs, later, told, mirrors, mirrors.dispatched,
    mirrors.size_requests⟩

/-- The header of the hook carries two effects, and commands add one to it and one to no block. -/
def dubbed : String :=
  "effect delay dub 0.25\nplay hook\n" ++
    "[hook] (gain 1) (echo 2)\nsample kick\neffect gain hook 0.5\ntone a4\n[end]\n"

/-- The books of a performance of it, on a timeline. -/
def dubbing : Run Float (Timeline Float) :=
  (performProgram (Program.read dubbed) .standard (.start (.start 120 true) .empty #[])).2

-- the device is asked for a sound where there is no effect
example :
    dubbing.calls.map (fun call => call.effect?.map fun (block, effect) => (block, effect.kind)) =
        [some ("hook", "gain"), some ("hook", "echo"), some ("dub", "delay"), none,
          some ("hook", "gain"), none] ∧
      Call.handles (.empty : Timeline Float) dubbing.calls = [1, 2] ∧
      dubbing.state.active = #[1, 2] ∧ dubbing.dispatched = 2 ∧
      (dubbing.state.effectsOf "hook").map Effect.kind = ["gain", "echo", "gain"] ∧
      (dubbing.state.effectsOf "dub").map Effect.kind = ["delay"] := by
  decide +kernel

end Machine

end Sequencer
