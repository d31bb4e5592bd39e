import Sequencer.Proofs.Run.Sounding

/-! # The mix of what is in progress

What a request is heard at depends on the `play` and `loop` commands that are in progress as it is
made, on each by what its arguments came to as it began. What has ended by then has no part in it,
and neither do blocks and custom samples: `requests_are_heard_in_scope`.
-/

namespace Sequencer

variable {α β : Type}

/-- What an action passes on to everything below it. -/
def Action.passed? : Action → Option MixArguments
  | .play _ arguments | .loop _ _ arguments => some arguments
  | _ => none

/-- How an action that sounds is to be heard by itself. -/
def Action.own? : Action → Option MixArguments
  | .sample arguments => some { volume := arguments.volume, pan := arguments.pan }
  | .tone arguments => some { volume := arguments.volume, pan := arguments.pan }
  | .slide arguments => some { volume := arguments.volume, pan := arguments.pan }
  | _ => none

def Task.mix? : Task α → Option (Mix α)
  | .command _ _ mix | .sequence _ _ mix _ | .atOnce _ _ mix | .block _ _ mix | .together _ _ mix _
  | .loop _ _ mix _ _ _ | .invoke _ _ _ mix => some mix
  | .done _ => none

def Frame.mix? : Frame α → Option (Mix α)
  | .sequence _ _ mix _ | .atOnce _ _ mix | .together _ _ mix _ | .loop _ _ mix _ _ _ => some mix
  | .leave => none

/-- Nothing is asked of the mix of a task or a frame that has none. -/
theorem no_mix {holds : Mix α → Prop} (mix : Mix α) (given : none = some mix) : holds mix :=
  absurd given.symm (Option.some_ne_none mix)

namespace Machine

open Run

/-! ## Moments of one run -/

section Moments

variable [Arithmetic α] [Device α β] {program : Program} {settings : Settings}
  {first one other after : Machine α β}

/-- What comes to an end does not come round to where it was. -/
theorem not_cycle (ends : Acc (Function.swap (Steps program settings)) first) :
    ¬ Relation.TransGen (Steps program settings) first first := by
  induction ends with
  | intro current _ inductionHypothesis =>
    intro cycle
    obtain ⟨next, steps, rest⟩ := Relation.TransGen.head'_iff.mp cycle
    exact inductionHypothesis next steps (Relation.TransGen.tail' rest steps)

theorem Reaches.acc_later (reaches : Reaches program settings first after)
    (ends : Acc (Function.swap (Steps program settings)) first) :
    Acc (Function.swap (Steps program settings)) after := by
  induction reaches with
  | refl => exact ends
  | tail _ steps inductionHypothesis => exact inductionHypothesis.inv steps

/-- In a run that comes to an end no two moments go on to the same one. -/
theorem Reaches.unique_before (ends : Acc (Function.swap (Steps program settings)) first)
    (reaches : Reaches program settings first one) (reaches' : Reaches program settings first other)
    (steps : Steps program settings one after) (steps' : Steps program settings other after) :
    one = other := by
  have noReturn := not_cycle (Reaches.acc_later (reaches.tail steps) ends)
  rcases reaches.total reaches' with forward | backward
  · rcases Relation.ReflTransGen.cases_head forward with same | ⟨next, next_eq, rest⟩
    · exact same
    · obtain rfl := steps.unique next_eq
      exact absurd (Relation.TransGen.tail' rest steps') noReturn
  · rcases Relation.ReflTransGen.cases_head backward with same | ⟨next, next_eq, rest⟩
    · exact same.symm
    · obtain rfl := steps'.unique next_eq
      exact absurd (Relation.TransGen.tail' rest steps) noReturn

end Moments

/-! ## Commands in progress -/

/-- What the command at hand passes on to everything below it. -/
def passed? : Machine α β → Option MixArguments
  | { task := .command command _ _, frames := _, run := _ } => command.action.passed?
  | _ => none

section Scopes

variable [Arithmetic α]

/-- What the command at hand passes on, resolved against the variables of the moment. -/
def scope (moment : Machine α β) : Mix α :=
  let bindings := moment.run.state.bindings
  { volume := Mix.resolveOr bindings 1 (moment.passed?.bind MixArguments.volume)
    pan := Mix.resolveOr bindings 0 (moment.passed?.bind MixArguments.pan) }

/-- All the volumes multiplied and all the pans added up, from the outside in. -/
def mixOf (path : List (Machine α β)) : Mix α :=
  { volume := (path.map fun outer => outer.scope.volume).foldl (· * ·) 1
    pan := (path.map fun outer => outer.scope.pan).foldl (· + ·) 0 }

theorem mixOf_concat (path : List (Machine α β)) (inner : Machine α β) :
    mixOf (path ++ [inner]) =
      { volume := (mixOf path).volume * inner.scope.volume
        pan := (mixOf path).pan + inner.scope.pan } := by
  simp only [mixOf, List.map_append, List.map_singleton, List.foldl_append, List.foldl_cons,
    List.foldl_nil]

variable [Device α β]

/-- The one moment begins a command that passes a mix on, and the other one is within it: what waited
for the command to end as it began has been waiting ever since. -/
def Encloses (program : Program) (settings : Settings) (outer inner : Machine α β) : Prop :=
  outer.passed?.isSome = true ∧
    Relation.TransGen (fun before after => Steps program settings before after ∧
      outer.frames.length ≤ after.frames.length) outer inner

variable {program : Program} {settings : Settings} {first outer before after : Machine α β}

theorem Encloses.length_le (encloses : Encloses program settings outer after) :
    outer.frames.length ≤ after.frames.length := by
  cases encloses.2 with
  | single steps => exact steps.2
  | tail _ steps => exact steps.2

theorem Encloses.transGen (encloses : Encloses program settings outer after) :
    Relation.TransGen (Steps program settings) outer after :=
  encloses.2.lift id fun _ _ steps => steps.1

/-- What is enclosed by a moment and after it is what is enclosed by the next one, down to the frames
that wait there. -/
theorem encloses_step_iff (ends : Acc (Function.swap (Steps program settings)) first)
    (reaches : Reaches program settings first before) (steps : Steps program settings before after)
    (reaches' : Reaches program settings first outer) :
    Encloses program settings outer after ↔
      (Encloses program settings outer before ∨ outer = before ∧ outer.passed?.isSome = true) ∧
        outer.frames.length ≤ after.frames.length := by
  constructor
  · intro encloses
    refine ⟨?_, encloses.length_le⟩
    obtain ⟨passes, path⟩ := encloses
    cases path with
    -- what comes last on the way is the moment before, as there is only one
    | single last => exact .inr ⟨Reaches.unique_before ends reaches' reaches last.1 steps, passes⟩
    | tail path last =>
      have later := reaches'.trans (path.lift id fun _ _ steps => steps.1).to_reflTransGen
      obtain rfl := Reaches.unique_before ends later reaches last.1 steps
      exact .inl ⟨passes, path⟩
  · rintro ⟨⟨passes, path⟩ | ⟨rfl, passes⟩, waits⟩
    · exact ⟨passes, path.tail ⟨steps, waits⟩⟩
    · exact ⟨passes, .single ⟨steps, waits⟩⟩

/-! ## How mixes are passed on -/

/-- What a step does to mixes and frames. -/
inductive PassesOn (before after : Machine α β) : Prop
  | stays : before.passed? = none → after.frames = before.frames →
      (∀ mix, after.task.mix? = some mix → before.task.mix? = some mix) → PassesOn before after
  | begins : before.passed?.isSome = true → after.frames = before.frames →
      (∀ mix, after.task.mix? = some mix → ∃ outer, before.task.mix? = some outer ∧
        mix =
          { volume := outer.volume * before.scope.volume, pan := outer.pan + before.scope.pan }) →
      PassesOn before after
  | calls (frame) : before.passed? = none → after.frames = frame :: before.frames →
      (∀ mix, frame.mix? = some mix → before.task.mix? = some mix) →
      (∀ mix, after.task.mix? = some mix → before.task.mix? = some mix) → PassesOn before after
  | returns (frame) : before.passed? = none → before.frames = frame :: after.frames →
      (∀ mix, after.task.mix? = some mix → frame.mix? = some mix) → PassesOn before after

theorem passesOn_command (command : Command) (offset : α) (mix : Mix α) (frames : List (Frame α))
    (run : Run α β) :
    PassesOn { task := .command command offset mix, frames, run }
      (act program settings command offset mix frames (run.ignoreKeys command)) := by
  have bindings := congrArg State.bindings (Run.Unmoved.ignoreKeys run command).state
  rw [act]
  cases action : command.action with
  | sample arguments =>
    dsimp only
    cases program.customSample? arguments.name with
    | some customSample => exact .stays (by rw [passed?, action]; rfl) rfl fun _ => id
    | none => exact .stays (by rw [passed?, action]; rfl) rfl no_mix
  | play names arguments =>
    refine .begins (by rw [passed?, action]; rfl) rfl fun nested given => ⟨mix, rfl, ?_⟩
    obtain rfl := Option.some.inj given
    rw [scope, passed?, action, bindings]
    rfl
  | loop count names arguments =>
    dsimp only
    split
    · refine .begins (by rw [passed?, action]; rfl) rfl fun nested given => ⟨mix, rfl, ?_⟩
      obtain rfl := Option.some.inj given
      rw [scope, passed?, action, bindings]
      rfl
    · exact .begins (by rw [passed?, action]; rfl) rfl no_mix
  | tone | slide | wait | bpm | set | effect | invalid | unknown =>
    exact .stays (by rw [passed?, action]; rfl) rfl no_mix

theorem passesOn_of_step (steps : Steps program settings before after) : PassesOn before after := by
  cases steps.move with
  | command command offset mix frames run => exact passesOn_command command offset mix frames run
  | sequenceEnd | sequenceLeft | atOnceEnd | blockMissing | togetherEnd | loopEnd | loopLeft
  | refused => exact .stays rfl rfl no_mix
  | blockFound => exact .stays rfl rfl fun _ => id
  | sequenceNext | atOnceNext | togetherNext | loopNext =>
    exact .calls _ rfl rfl (fun _ => id) fun _ => id
  | entered =>
    refine .calls .leave rfl rfl no_mix ?_
    cases ‹Kind› <;> exact fun _ => id
  | resumed duration frame frames run =>
    cases frame with
    | leave => exact .returns .leave rfl rfl no_mix
    | sequence | atOnce | together | loop => exact .returns _ rfl rfl fun _ => id

/-! ## The mix at each moment -/

/-- The moments that enclose another one, from the outside in. -/
structure Path (program : Program) (settings : Settings) (first moment : Machine α β)
    (path : List (Machine α β)) : Prop where
  mem_iff : ∀ outer, outer ∈ path ↔
    Reaches program settings first outer ∧ Encloses program settings outer moment
  ordered : path.Pairwise (Encloses program settings)

/-- The task has the mix of all that encloses it, and each frame that of what encloses it as far as
it has been waiting. -/
structure Mixed (moment : Machine α β) (path : List (Machine α β)) : Prop where
  task : ∀ mix, moment.task.mix? = some mix → mix = mixOf path
  frames : ∀ frame rest, frame :: rest <:+ moment.frames → ∀ mix, frame.mix? = some mix →
    mix = mixOf (path.filter fun outer => outer.frames.length ≤ rest.length)

theorem Path.length_le {path : List (Machine α β)} (encloses : Path program settings first before path)
    (member : outer ∈ path) : outer.frames.length ≤ before.frames.length :=
  ((encloses.mem_iff outer).mp member).2.length_le

/-- The moments that enclose the next one. -/
def nextPath (before after : Machine α β) (path : List (Machine α β)) : List (Machine α β) :=
  (path ++ if before.passed?.isSome then [before] else []).filter fun outer =>
    outer.frames.length ≤ after.frames.length

theorem Path.step {path : List (Machine α β)}
    (ends : Acc (Function.swap (Steps program settings)) first)
    (reaches : Reaches program settings first before) (steps : Steps program settings before after)
    (encloses : Path program settings first before path) :
    Path program settings first after (nextPath before after path) where
  mem_iff := fun outer => by
    rw [nextPath, List.mem_filter, List.mem_append, encloses.mem_iff, decide_eq_true_iff]
    constructor
    · rintro ⟨⟨reaches', inside⟩ | begun, waits⟩
      · exact ⟨reaches', (encloses_step_iff ends reaches steps reaches').mpr ⟨.inl inside, waits⟩⟩
      · split at begun
        · next passes =>
          obtain rfl := List.mem_singleton.mp begun
          exact ⟨reaches,
            (encloses_step_iff ends reaches steps reaches).mpr ⟨.inr ⟨rfl, passes⟩, waits⟩⟩
        · cases begun
    · rintro ⟨reaches', inside⟩
      obtain ⟨inside | ⟨rfl, passes⟩, waits⟩ :=
        (encloses_step_iff ends reaches steps reaches').mp inside
      · exact ⟨.inl ⟨reaches', inside⟩, waits⟩
      · exact ⟨.inr (by rw [if_pos passes]; exact List.mem_singleton_self _), waits⟩
  ordered := by
    refine List.Pairwise.filter _ (List.pairwise_append.mpr ⟨encloses.ordered, ?_, ?_⟩)
    · split
      · exact List.pairwise_singleton _ _
      · exact .nil
    · intro outer member begun beginning
      split at beginning
      · obtain rfl := List.mem_singleton.mp beginning
        exact ((encloses.mem_iff outer).mp member).2
      · cases beginning

theorem nextPath_of_quiet {path : List (Machine α β)} (quiet : before.passed? = none)
    (encloses : Path program settings first before path)
    (waits : before.frames.length ≤ after.frames.length) : nextPath before after path = path := by
  rw [nextPath, quiet]
  simp only [Option.isSome_none, Bool.false_eq_true, if_false, List.append_nil]
  refine List.filter_eq_self.mpr fun outer member => decide_eq_true ?_
  exact (encloses.length_le member).trans waits

theorem Mixed.step {path : List (Machine α β)} (encloses : Path program settings first before path)
    (mixed : Mixed before path) (passes : PassesOn before after) :
    Mixed after (nextPath before after path) := by
  cases passes with
  | stays quiet frames task =>
    rw [nextPath_of_quiet quiet encloses (by rw [frames])]
    exact ⟨fun mix given => mixed.task mix (task mix given), frames ▸ mixed.frames⟩
  | begins begun frames task =>
    have begun' : nextPath before after path = path ++ [before] := by
      rw [nextPath, if_pos begun, frames]
      refine List.filter_eq_self.mpr fun outer member => decide_eq_true ?_
      rcases List.mem_append.mp member with member | member
      · exact encloses.length_le member
      · rw [List.mem_singleton.mp member]
    rw [begun']
    refine ⟨fun mix given => ?_, fun frame rest suffix mix given => ?_⟩
    · obtain ⟨outer, given', rfl⟩ := task mix given
      rw [mixOf_concat, ← mixed.task outer given']
    · -- the frames have been waiting for longer than the command
      rw [frames] at suffix
      have deeper : ¬ before.frames.length ≤ rest.length := by
        have length := suffix.length_le
        rw [List.length_cons] at length
        omega
      rw [List.filter_append, List.filter_singleton, decide_eq_false deeper, cond_false,
        List.append_nil]
      exact mixed.frames frame rest suffix mix given
  | calls frame quiet frames own task =>
    rw [nextPath_of_quiet quiet encloses (by rw [frames, List.length_cons]; omega)]
    refine ⟨fun mix given => mixed.task mix (task mix given), fun frame' rest suffix mix given => ?_⟩
    rw [frames] at suffix
    -- the new frame waits within all that encloses its task
    rcases List.suffix_cons_iff.mp suffix with same | suffix
    · obtain ⟨rfl, rfl⟩ := List.cons.inj same
      rw [List.filter_eq_self.mpr fun outer member => decide_eq_true (encloses.length_le member)]
      exact mixed.task mix (own mix given)
    · exact mixed.frames frame' rest suffix mix given
  | returns frame quiet frames task =>
    -- what has begun since the frame has been waiting is over
    have left : nextPath before after path =
        path.filter fun outer => outer.frames.length ≤ after.frames.length := by
      rw [nextPath, quiet]
      simp only [Option.isSome_none, Bool.false_eq_true, if_false, List.append_nil]
    rw [left]
    refine ⟨fun mix given => ?_, fun frame' rest suffix mix given => ?_⟩
    · exact mixed.frames frame after.frames (by rw [frames]) mix (task mix given)
    · have length := suffix.length_le
      rw [List.length_cons] at length
      rw [List.filter_filter]
      have narrower : (path.filter fun outer => decide (outer.frames.length ≤ rest.length) &&
          decide (outer.frames.length ≤ after.frames.length)) =
            path.filter fun outer => outer.frames.length ≤ rest.length := by
        refine List.filter_congr fun outer _ => ?_
        rw [← Bool.decide_and, decide_eq_decide]
        omega
      rw [narrower]
      refine mixed.frames frame' rest ?_ mix given
      rw [frames]
      exact suffix.trans (List.suffix_cons _ _)

/-- Every moment of a run has its path, and the mix of it. -/
theorem exists_path
    (ends : Acc (Function.swap (Steps program settings)) first) (atFirst : Mixed first [])
    (reaches : Reaches program settings first after) :
    ∃ path, Path program settings first after path ∧ Mixed after path := by
  induction reaches with
  | refl =>
    refine ⟨[], ⟨fun outer => ?_, .nil⟩, atFirst⟩
    simp only [List.not_mem_nil, false_iff]
    rintro ⟨reaches, encloses⟩
    exact not_cycle ends (encloses.transGen.trans_right reaches)
  | tail reaches steps inductionHypothesis =>
    obtain ⟨path, encloses, mixed⟩ := inductionHypothesis
    exact ⟨_, encloses.step ends reaches steps, mixed.step encloses (passesOn_of_step steps)⟩

/-- No moment is on a path twice, since none encloses itself. -/
theorem Path.nodup {path : List (Machine α β)}
    (ends : Acc (Function.swap (Steps program settings)) first)
    (encloses : Path program settings first after path) : path.Nodup := by
  refine encloses.ordered.imp_of_mem ?_
  rintro outer _ member _ inside rfl
  have reaches := ((encloses.mem_iff outer).mp member).1
  exact not_cycle (reaches.acc_later ends) inside.transGen

end Scopes

/-! ## Whole runs -/

section Runs

variable [Arithmetic α]

/-- As long as nothing waits, the neutral mix is that of an empty path. -/
theorem Mixed.of_neutral {moment : Machine α β} (alone : moment.frames = [])
    (task : ∀ mix, moment.task.mix? = some mix → mix = .neutral) : Mixed moment [] := by
  refine ⟨task, fun frame rest suffix => ?_⟩
  rw [alone, List.suffix_nil] at suffix
  cases suffix

variable [Device α β]

theorem mixed_start (program : Program) (run : Run α β) : Mixed (start program run) [] := by
  rw [start]
  split
  · exact .of_neutral rfl fun mix given => (Option.some.inj given).symm
  · split
    · exact .of_neutral rfl fun mix given => (Option.some.inj given).symm
    · exact .of_neutral rfl no_mix

/-- A request is heard at what its action says by itself, within the mix of the moment. -/
theorem heard_of_request {program : Program} {settings : Settings} {offset : α} {mix : Mix α}
    {run : Run α β} {action : Action} {request : Request α}
    (asked : run.request? program settings offset mix action = some request) :
    ∃ own, action.own? = some own ∧
      request.volume = mix.heardVolume (Mix.resolveOr run.state.bindings
        (Arithmetic.ofDouble settings.defaultVolume) own.volume) ∧
      request.pan = mix.heardPan (Mix.resolveOr run.state.bindings 0 own.pan) := by
  cases action with
  | sample arguments =>
    rw [Run.request?] at asked
    dsimp only at asked
    split at asked
    · cases asked
    · obtain rfl := Option.some.inj asked
      exact ⟨_, rfl, rfl, rfl⟩
  | tone | slide =>
    obtain rfl := Option.some.inj asked
    exact ⟨_, rfl, rfl, rfl⟩
  | wait | bpm | play | loop | set | effect | invalid | unknown => cases asked

/-- A request goes back to a moment, and this to the commands in progress that pass a mix on, from
the outside in. Each of them counts with what its arguments came to as it began: the volumes multiply
and the pans add up, in this order, and only what is heard in the end is kept within bounds. -/
theorem requests_are_heard_in_scope [Arithmetic.LawfulZero α] (program : Program)
    (settings : Settings) {run : Run α β} {made : List (Request α)} {request : Request α}
    (asked : run.requests ++ made ++ [request] <+: (performProgram program settings run).2.requests) :
    ∃ (leaf : Machine α β) (path : List (Machine α β)) (command : Command) (offset : α) (mix : Mix α)
      (own : MixArguments), Reaches program settings (start program run) leaf ∧
      leaf.run.requests = run.requests ++ made ∧ leaf.request? program settings = some request ∧
      leaf.task = .command command offset mix ∧ command.action.own? = some own ∧
      (∀ outer, outer ∈ path ↔
        Reaches program settings (start program run) outer ∧ Encloses program settings outer leaf) ∧
      path.Pairwise (Encloses program settings) ∧ path.Nodup ∧
      request.volume = Arithmetic.clamp 0 1
        (Mix.resolveOr leaf.run.state.bindings (Arithmetic.ofDouble settings.defaultVolume)
            own.volume *
          (path.map fun outer => outer.scope.volume).foldl (· * ·) 1) ∧
      request.pan = Arithmetic.clamp (Arithmetic.ofDouble (-1)) 1
        (Mix.resolveOr leaf.run.state.bindings 0 own.pan +
          (path.map fun outer => outer.scope.pan).foldl (· + ·) 0) := by
  have ends := (reaches_end program settings run).acc rfl
  obtain ⟨leaf, reaches, before, asks⟩ := exists_request program settings asked
  obtain ⟨path, encloses, mixed⟩ := exists_path ends (mixed_start program run) reaches
  obtain ⟨command, offset, mix, task, asks'⟩ := request?_eq_some asks
  obtain ⟨own, owns, volume, pan⟩ := heard_of_request asks'
  obtain rfl : mix = mixOf path := mixed.task mix (by rw [task]; rfl)
  exact ⟨leaf, path, command, offset, mixOf path, own, reaches, before, asks, task, owns,
    encloses.mem_iff, encloses.ordered, encloses.nodup ends, volume, pan⟩

end Runs

/-- A variable that is set anew within the commands that have read it, and a sample in a loop that is
heard at what the variable has become. -/
def swelling : Program where
  globals := [.ofWords 1 ["set", "level", "0.5"],
    .ofWords 2 ["play", "verse", "volume=level", "pan=0.75"]]
  blocks :=
    [{ name := "verse"
       commands := [.ofWords 3 ["play", "beat", "volume=0"], .ofWords 4 ["set", "level", "3"],
         .ofWords 5 ["loop", "2", "beat", "volume=level", "pan=-0.5"]]
       effects := [] },
     { name := "beat"
       commands := [.ofWords 6 ["set", "level", "0.5"], .ofWords 7 ["sample", "kick"]]
       effects := [] }]
  customSamples :=
    [{ name := "kick", commands := [.ofWords 8 ["sample", "drum", "volume=level", "pan=0.5"]]
       effects := [] }]
  irregularities := []

/-- In its second turn the loop is heard with the level that it has read before the first one: half of
what is heard by itself, times three, times one half. -/
theorem requests_are_heard_in_scope_swelling :
    ∃ made request, made.length = 2 ∧ request.volume = 0.75 ∧ request.pan = 0.75 ∧
      untouched.requests ++ made ++ [request] <+:
        (performProgram swelling .standard untouched).2.requests ∧
      ∃ (leaf : Machine Float (Timeline Float)) (path : List (Machine Float (Timeline Float)))
        (own : MixArguments), leaf.request? swelling .standard = some request ∧
        (∀ outer, outer ∈ path ↔ Reaches swelling .standard (start swelling untouched) outer ∧
          Encloses swelling .standard outer leaf) ∧
        path.Pairwise (Encloses swelling .standard) ∧
        request.volume = Arithmetic.clamp 0 1
          (Mix.resolveOr leaf.run.state.bindings 1 own.volume *
            (path.map fun outer => outer.scope.volume).foldl (· * ·) 1) := by
  have three : (performProgram swelling .standard untouched).2.requests.length = 3 := by
    decide +kernel
  have heard : ((performProgram swelling .standard untouched).2.requests.map
      fun request => (request.volume, request.pan)) = [(0, 1), (0.75, 0.75), (0.75, 0.75)] := by
    decide +kernel
  obtain ⟨one, two, request, requests⟩ := List.length_eq_three.mp three
  have asked : untouched.requests ++ [one, two] ++ [request] <+:
      (performProgram swelling .standard untouched).2.requests := by
    rw [requests]
    exact List.prefix_rfl
  obtain ⟨leaf, path, _, _, _, own, -, -, asks, -, -, encloses, ordered, -, volume, -⟩ :=
    requests_are_heard_in_scope swelling .standard asked
  rw [requests] at heard
  simp only [List.map_cons, List.cons.injEq, Prod.mk.injEq] at heard
  obtain ⟨-, -, ⟨loud, right⟩, -⟩ := heard
  exact ⟨[one, two], request, rfl, loud, right, asked, leaf, path, own, asks, encloses, ordered,
    volume⟩

end Machine

end Sequencer
