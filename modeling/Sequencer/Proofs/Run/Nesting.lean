import Sequencer.Proofs.Run.Stack

/-! # Inside and outside of custom samples

Custom samples whose bodies play and loop nothing contain only commands and further custom samples.
The frames of a machine then divide in two: those of the custom samples in progress on top, and
sequences, fan-outs and loops below.
-/

namespace Sequencer

/-- Whether an action plays blocks. -/
def Action.plays : Action → Bool
  | .play _ _ | .loop _ _ _ => true
  | _ => false

/-- No body of a custom sample plays or loops anything. -/
def Program.FlatCustomSamples (program : Program) : Prop :=
  ∀ customSample ∈ program.customSamples, ∀ command ∈ customSample.commands,
    command.action.plays = false

/-- Whether a task asks for the flag. -/
def Task.polls {α : Type} : Task α → Bool
  | .sequence (_ :: _) _ _ _ => true
  | .loop _ _ _ (_ + 1) _ _ => true
  | _ => false

namespace Machine

open Run

variable {α β : Type}

/-- Frames with no custom sample among them, and the kinds of the definitions that they leave. -/
inductive Outer : List (Frame α) → List Kind → Prop
  | nil : Outer [] []
  | sequence {frames kinds} (rest start mix elapsed) : Outer frames kinds →
      Outer (.sequence rest start mix elapsed :: frames) kinds
  | together {frames kinds} (rest offset mix longest) : Outer frames kinds →
      Outer (.together rest offset mix longest :: frames) kinds
  | loop {frames kinds} (names start mix left done total) : Outer frames kinds →
      Outer (.loop names start mix left done total :: frames) kinds
  | leave {frames kinds} : Outer frames kinds → Outer (.leave :: frames) (.block :: kinds)

/-- Frames with custom samples on top. -/
inductive Inner : List (Frame α) → List Kind → Prop
  | first {frames kinds} : Outer frames kinds → Inner (.leave :: frames) (.customSample :: kinds)
  | atOnce {frames kinds rest} (offset mix) : (∀ command ∈ rest, command.action.plays = false) →
      Inner frames kinds → Inner (.atOnce rest offset mix :: frames) kinds
  | leave {frames kinds} : Inner frames kinds → Inner (.leave :: frames) (.customSample :: kinds)

def OutsideTask (program : Program) : Task α → Prop
  | .atOnce _ _ _ => False
  | .invoke .customSample definition _ _ => definition ∈ program.customSamples
  | _ => True

def InsideTask (program : Program) : Task α → Prop
  | .command command _ _ => command.action.plays = false
  | .atOnce rest _ _ => ∀ command ∈ rest, command.action.plays = false
  | .invoke .customSample definition _ _ => definition ∈ program.customSamples
  | .done _ => True
  | _ => False

structure Outside (program : Program) (machine : Machine α β) : Prop where
  frames : Outer machine.frames (machine.run.stack.map Prod.fst)
  task : OutsideTask program machine.task

structure Inside (program : Program) (machine : Machine α β) : Prop where
  frames : Inner machine.frames (machine.run.stack.map Prod.fst)
  task : InsideTask program machine.task

/-- Some custom sample is in progress. -/
def Expanding (machine : Machine α β) : Prop :=
  ∃ name, (Kind.customSample, name) ∈ machine.run.stack

theorem Outer.not_mem {frames : List (Frame α)} {kinds : List Kind} (outer : Outer frames kinds) :
    Kind.customSample ∉ kinds := by
  induction outer with
  | nil => simp
  | sequence _ _ _ _ _ inductionHypothesis => exact inductionHypothesis
  | together _ _ _ _ _ inductionHypothesis => exact inductionHypothesis
  | loop _ _ _ _ _ _ _ inductionHypothesis => exact inductionHypothesis
  | leave _ inductionHypothesis => simpa using inductionHypothesis

theorem Inner.mem {frames : List (Frame α)} {kinds : List Kind} (inner : Inner frames kinds) :
    Kind.customSample ∈ kinds := by
  induction inner with
  | first _ => exact List.mem_cons_self
  | atOnce _ _ _ _ inductionHypothesis => exact inductionHypothesis
  | leave _ _ => exact List.mem_cons_self

theorem expanding_iff (machine : Machine α β) :
    machine.Expanding ↔ Kind.customSample ∈ machine.run.stack.map Prod.fst := by
  simp [Expanding]

theorem Outside.not_expanding {program : Program} {machine : Machine α β}
    (outside : machine.Outside program) : ¬ machine.Expanding := by
  rw [expanding_iff]
  exact outside.frames.not_mem

theorem Inside.expanding {program : Program} {machine : Machine α β}
    (inside : machine.Inside program) : machine.Expanding := by
  rw [expanding_iff]
  exact inside.frames.mem

/-- Inside of custom samples the flag is never asked for. -/
theorem Inside.not_polls {program : Program} {machine : Machine α β}
    (inside : machine.Inside program) : machine.task.polls = false := by
  have task := inside.task
  cases found : machine.task <;> rw [found] at task <;> first | rfl | exact absurd task id

theorem kinds_leave {run : Run α β} {kind : Kind} {kinds : List Kind}
    (stack : run.stack.map Prod.fst = kind :: kinds) : run.leave.stack.map Prod.fst = kinds := by
  rw [Run.leave, List.map_tail, stack]
  rfl

/-! ## The outermost custom sample -/

/-- A custom sample is in progress, and is part of no other one. Below are the definitions that it
is part of. -/
structure Expands (name : String) (below : List (Kind × String)) (machine : Machine α β) : Prop where
  inProgress : (Kind.customSample, name) :: below <:+ machine.run.stack
  outermost : ∀ other, (Kind.customSample, other) ∉ below

theorem Expands.expanding {name : String} {below : List (Kind × String)} {machine : Machine α β}
    (expands : machine.Expands name below) : machine.Expanding :=
  ⟨name, expands.inProgress.subset List.mem_cons_self⟩

theorem Expanding.outermost {machine : Machine α β} (expanding : machine.Expanding) :
    ∃ name below, machine.Expands name below := by
  suffices split : ∀ stack : List (Kind × String), (∃ name, (Kind.customSample, name) ∈ stack) →
      ∃ name below, (Kind.customSample, name) :: below <:+ stack ∧
        ∀ other, (Kind.customSample, other) ∉ below by
    obtain ⟨name, below, inProgress, outermost⟩ := split machine.run.stack expanding
    exact ⟨name, below, inProgress, outermost⟩
  intro stack
  induction stack with
  | nil => simp
  | cons key rest inductionHypothesis =>
    rintro ⟨name, member⟩
    by_cases deeper : ∃ other, (Kind.customSample, other) ∈ rest
    · obtain ⟨outer, below, inProgress, outermost⟩ := inductionHypothesis deeper
      exact ⟨outer, below, inProgress.trans (List.suffix_cons key rest), outermost⟩
    -- no other custom sample is further out
    · obtain rfl : (Kind.customSample, name) = key :=
        (List.mem_cons.mp member).resolve_right fun inRest => deeper ⟨name, inRest⟩
      exact ⟨name, rest, List.suffix_rfl, fun other inRest => deeper ⟨other, inRest⟩⟩

/-! ## Steps -/

variable [Arithmetic α] [Device α β] {program : Program} {settings : Settings}

theorem frames_act (command : Command) (offset : α) (mix : Mix α) (frames : List (Frame α))
    (run : Run α β) : (act program settings command offset mix frames run).frames = frames := by
  rw [act]
  cases command.action with
  | sample arguments =>
    dsimp only
    cases program.customSample? arguments.name <;> rfl
  | loop count names arguments =>
    dsimp only
    split <;> rfl
  | tone | slide | wait | bpm | play | set | effect | invalid | unknown => rfl

theorem stack_act (command : Command) (offset : α) (mix : Mix α) (frames : List (Frame α))
    (run : Run α β) :
    (act program settings command offset mix frames (run.ignoreKeys command)).run.stack = run.stack :=
  (kept_act (kept_stack settings) command offset mix frames _).trans
    ((kept_stack settings).ignoreKeys command run)

theorem outsideTask_act (command : Command) (offset : α) (mix : Mix α) (frames : List (Frame α))
    (run : Run α β) :
    OutsideTask program (act program settings command offset mix frames run).task := by
  rw [act]
  cases command.action with
  | sample arguments =>
    dsimp only
    cases found : program.customSample? arguments.name with
    | some customSample => exact List.mem_of_find?_eq_some found
    | none => trivial
  | loop count names arguments =>
    dsimp only
    split <;> trivial
  | tone | slide | wait | bpm | play | set | effect | invalid | unknown => trivial

theorem insideTask_act {command : Command} (flat : command.action.plays = false) (offset : α)
    (mix : Mix α) (frames : List (Frame α)) (run : Run α β) :
    InsideTask program (act program settings command offset mix frames run).task := by
  rw [act]
  cases action : command.action with
  | sample arguments =>
    dsimp only
    cases found : program.customSample? arguments.name with
    | some customSample => exact List.mem_of_find?_eq_some found
    | none => trivial
  | play => simp [action, Action.plays] at flat
  | loop => simp [action, Action.plays] at flat
  | tone | slide | wait | bpm | set | effect | invalid | unknown => trivial

/-- From outside a step goes inside only by entering a custom sample. -/
theorem Outside.step (flat : program.FlatCustomSamples) {before after : Machine α β}
    (outside : before.Outside program) (steps : Steps program settings before after) :
    after.Outside program ∨ after.Inside program := by
  obtain ⟨outer, allowed⟩ := outside
  cases steps.move with
  | command command offset mix frames run =>
    refine Or.inl ⟨?_, outsideTask_act command offset mix frames _⟩
    rw [frames_act, stack_act]
    exact outer
  | sequenceNext => exact Or.inl ⟨.sequence _ _ _ _ outer, trivial⟩
  | togetherNext => exact Or.inl ⟨.together _ _ _ _ outer, trivial⟩
  | loopNext => exact Or.inl ⟨.loop _ _ _ _ _ _ outer, trivial⟩
  | atOnceEnd | atOnceNext => exact absurd allowed id
  | @refused _ _ _ offset mix frames run =>
    exact Or.inl ⟨((kept_stack settings).refuse run _).symm ▸ outer, trivial⟩
  | @entered kind definition offset mix frames run =>
    cases kind with
    | block => exact Or.inl ⟨.leave outer, trivial⟩
    | customSample => exact Or.inr ⟨.first outer, flat definition allowed⟩
  | resumed duration frame frames run =>
    dsimp only at outer
    generalize stack : run.stack.map Prod.fst = kinds at outer
    cases outer with
    | sequence _ _ _ _ outer => exact Or.inl ⟨stack.symm ▸ outer, trivial⟩
    | together _ _ _ _ outer => exact Or.inl ⟨stack.symm ▸ outer, trivial⟩
    | loop _ _ _ _ _ _ outer => exact Or.inl ⟨stack.symm ▸ outer, trivial⟩
    | leave outer => exact Or.inl ⟨(kinds_leave stack).symm ▸ outer, trivial⟩
  | sequenceEnd | sequenceLeft | blockFound | blockMissing | togetherEnd | loopEnd | loopLeft =>
    exact Or.inl ⟨outer, trivial⟩

/-- Inside only the end of the outermost custom sample leads out. -/
theorem Inside.step (flat : program.FlatCustomSamples) {before after : Machine α β}
    (inside : before.Inside program) (steps : Steps program settings before after) :
    after.Inside program ∨ after.Outside program ∧ ∃ duration, after.task = .done duration := by
  obtain ⟨inner, allowed⟩ := inside
  cases steps.move with
  | command command offset mix frames run =>
    refine Or.inl ⟨?_, insideTask_act allowed offset mix frames _⟩
    rw [frames_act, stack_act]
    exact inner
  | atOnceEnd => exact Or.inl ⟨inner, trivial⟩
  | atOnceNext command rest =>
    have flatRest : ∀ command ∈ rest, command.action.plays = false :=
      fun command member => allowed command (List.mem_cons_of_mem _ member)
    exact Or.inl ⟨.atOnce _ _ flatRest inner, allowed command List.mem_cons_self⟩
  | @refused kind _ _ offset mix frames run =>
    cases kind with
    | block => exact absurd allowed id
    | customSample => exact Or.inl ⟨((kept_stack settings).refuse run _).symm ▸ inner, trivial⟩
  | @entered kind definition =>
    cases kind with
    | block => exact absurd allowed id
    | customSample => exact Or.inl ⟨.leave inner, flat definition allowed⟩
  | resumed duration frame frames run =>
    dsimp only at inner
    generalize stack : run.stack.map Prod.fst = kinds at inner
    cases inner with
    | first outer => exact Or.inr ⟨⟨(kinds_leave stack).symm ▸ outer, trivial⟩, duration, rfl⟩
    | atOnce _ _ flatRest inner => exact Or.inl ⟨stack.symm ▸ inner, flatRest⟩
    | leave inner => exact Or.inl ⟨(kinds_leave stack).symm ▸ inner, trivial⟩
  | sequenceEnd | sequenceNext | sequenceLeft | blockFound | blockMissing | togetherEnd | togetherNext
  | loopEnd | loopNext | loopLeft => exact absurd allowed id

/-! ## Where state and device change -/

/-- Only commands change the state and the device. -/
theorem unchanged_of_step {before after : Machine α β} (steps : Steps program settings before after)
    (noCommand : ∀ command offset mix, before.task ≠ .command command offset mix) :
    after.run.state = before.run.state ∧ after.run.device = before.run.device := by
  cases steps.move with
  | command command offset mix => exact absurd rfl (noCommand command offset mix)
  | refused =>
    obtain ⟨state, device, -, -⟩ := refuse_fields settings _ _
    exact ⟨state, device⟩
  | resumed duration frame => cases frame <;> exact ⟨rfl, rfl⟩
  | sequenceEnd | sequenceNext | sequenceLeft | atOnceEnd | atOnceNext | blockFound | blockMissing
  | togetherEnd | togetherNext | loopEnd | loopNext | loopLeft | entered => exact ⟨rfl, rfl⟩

/-! ## Where the stack changes -/

/-- One definition at most is entered or left. -/
theorem stack_of_step {before after : Machine α β} (steps : Steps program settings before after) :
    before.run.stack <:+ after.run.stack ∨ after.run.stack = before.run.stack.tail := by
  cases steps.move with
  | command =>
    rw [stack_act]
    exact Or.inl List.suffix_rfl
  | @refused _ _ _ offset mix frames run =>
    exact Or.inl (((kept_stack settings).refuse run _).symm ▸ List.suffix_rfl)
  | entered => exact Or.inl (List.suffix_cons _ _)
  | resumed duration frame =>
    cases frame with
    | leave => exact Or.inr rfl
    | sequence | atOnce | together | loop => exact Or.inl List.suffix_rfl
  | sequenceEnd | sequenceNext | sequenceLeft | atOnceEnd | atOnceNext | blockFound | blockMissing
  | togetherEnd | togetherNext | loopEnd | loopNext | loopLeft => exact Or.inl List.suffix_rfl

/-- With the last step of the outermost custom sample what it is part of is on top. -/
theorem Expands.left {name : String} {below : List (Kind × String)} {before after : Machine α β}
    (expands : before.Expands name below) (steps : Steps program settings before after)
    (lost : ¬ after.Expands name below) : after.run.stack = below := by
  -- what was below stays below, so that only the custom sample itself can have gone
  have gone : ¬ (Kind.customSample, name) :: below <:+ after.run.stack :=
    fun still => lost ⟨still, expands.outermost⟩
  rcases stack_of_step steps with kept | popped
  · exact absurd (expands.inProgress.trans kept) gone
  · obtain ⟨above, stack⟩ := expands.inProgress
    cases above with
    | nil => rw [popped, ← stack]; rfl
    | cons key above =>
      have rest : after.run.stack = above ++ (Kind.customSample, name) :: below := by
        rw [popped, ← stack]
        rfl
      exact absurd ⟨above, rest.symm⟩ gone

end Machine

end Sequencer
