import Sequencer.Proofs.Run.Completion

/-! # The definitions in progress

At every moment of a run the definitions in progress are different ones, all of the program, and no
more than the depth allows. Every run ends, and each command leaves them as it found them:
`performs_within_bounds`.
-/

namespace Sequencer.Machine

open Run

variable {α β : Type} {program : Program} {settings : Settings}

/-! ## Bounds -/

/-- The definitions in progress, and the one that is to be entered next. -/
structure Bounded (program : Program) (settings : Settings) (machine : Machine α β) : Prop where
  distinct : machine.run.stack.Nodup
  declared : ∀ key ∈ machine.run.stack, key ∈ program.keys
  shallow : machine.run.stack.length ≤ settings.maxDepth
  next : ∀ kind definition offset mix, machine.task = .invoke kind definition offset mix →
    (kind, definition.name) ∈ program.keys

theorem Bounded.of_stack {before after : Machine α β} (bounded : before.Bounded program settings)
    (same : after.run.stack = before.run.stack)
    (next : ∀ kind definition offset mix, after.task = .invoke kind definition offset mix →
      (kind, definition.name) ∈ program.keys) :
    after.Bounded program settings where
  distinct := same ▸ bounded.distinct
  declared := same ▸ bounded.declared
  shallow := same ▸ bounded.shallow
  next := next

theorem Bounded.enter {before : Machine α β} (bounded : before.Bounded program settings)
    {kind : Kind} {name : String} (member : (kind, name) ∈ program.keys)
    (enters : before.run.refusal? settings kind name = none) (task : Task α)
    (frames : List (Frame α)) (entry : Entry α)
    (noInvoke : ∀ kind definition offset mix, task ≠ .invoke kind definition offset mix) :
    ({ task, frames, run := (before.run.enter kind name).record entry } : Machine α β).Bounded program
      settings := by
  obtain ⟨-, fresh, below⟩ := refusal?_eq_none_iff.mp enters
  refine ⟨List.nodup_cons.mpr ⟨fresh, bounded.distinct⟩, ?_, below, ?_⟩
  · intro key keyMember
    rcases List.mem_cons.mp keyMember with rfl | old
    · exact member
    · exact bounded.declared key old
  · exact fun kind definition offset mix invokes => absurd invokes (noInvoke kind definition offset mix)

theorem Bounded.leave {before : Machine α β} (bounded : before.Bounded program settings)
    (duration : α) (frames : List (Frame α)) :
    ({ task := .done duration, frames, run := before.run.leave } : Machine α β).Bounded program
      settings where
  distinct := bounded.distinct.tail
  declared := fun key member => bounded.declared key (List.mem_of_mem_tail member)
  shallow := Nat.le_trans (by simp [Run.leave]) bounded.shallow
  next := by simp

theorem Bounded.length_le {machine : Machine α β} (bounded : machine.Bounded program settings) :
    machine.run.stack.length ≤ min settings.maxDepth (room program) := by
  refine Nat.le_min.mpr ⟨bounded.shallow, ?_⟩
  rw [← program.length_keys]
  exact (List.subperm_of_subset bounded.distinct bounded.declared).length_le

/-! ## Steps -/

variable [Arithmetic α] [Device α β]

/-- The first step of an action keeps what single changes keep. -/
theorem kept_act {kept : Run α β → Run α β → Prop} (keeps : Kept settings kept) (command : Command)
    (offset : α) (mix : Mix α) (frames : List (Frame α)) (run : Run α β) :
    kept run (act program settings command offset mix frames run).run := by
  let nowhere : Invocation α β := fun _ _ _ _ run => (0, run)
  -- leaves do not invoke anything, so that they are the same for every way to invoke
  have leaf : kept run (performAction program settings nowhere command offset mix run).2 :=
    keeps.performAction (fun _ _ _ _ run => keeps.refl run) command offset mix run
  rw [performAction] at leaf
  rw [act]
  cases action : command.action with
  | sample arguments =>
    rw [action] at leaf
    dsimp only at leaf ⊢
    cases found : program.customSample? arguments.name with
    | some customSample => exact keeps.refl run
    | none =>
      rw [found] at leaf
      exact leaf
  | play names arguments => exact keeps.refl run
  | loop count names arguments =>
    dsimp only
    split
    · exact keeps.refl run
    · exact keeps.warn run _
  | tone | slide | wait | bpm | set | effect | invalid | unknown =>
    rw [action] at leaf
    exact leaf

/-- Of all actions only that of a custom sample invokes a definition at once. -/
theorem customSample_of_act {command : Command} {offset : α} {mix : Mix α} {frames : List (Frame α)}
    {run : Run α β} {kind : Kind} {definition : Definition} {offset' : α} {mix' : Mix α}
    (task : (act program settings command offset mix frames run).task =
      .invoke kind definition offset' mix') :
    kind = .customSample ∧ ∃ name, program.customSample? name = some definition := by
  rw [act] at task
  cases action : command.action with
  | sample arguments =>
    rw [action] at task
    dsimp only at task
    cases found : program.customSample? arguments.name with
    | some customSample =>
      rw [found] at task
      cases task
      exact ⟨rfl, _, found⟩
    | none =>
      rw [found] at task
      cases task
  | loop count names arguments =>
    rw [action] at task
    dsimp only at task
    split at task <;> cases task
  | tone | slide | wait | bpm | play | set | effect | invalid | unknown =>
    rw [action] at task
    cases task

theorem declared_of_act {command : Command} {offset : α} {mix : Mix α} {frames : List (Frame α)}
    {run : Run α β} {kind : Kind} {definition : Definition} {offset' : α} {mix' : Mix α}
    (task : (act program settings command offset mix frames run).task =
      .invoke kind definition offset' mix') :
    (kind, definition.name) ∈ program.keys := by
  obtain ⟨rfl, _, found⟩ := customSample_of_act task
  exact Program.mem_keys_of_customSample? found

/-- Each step keeps the bounds. Only entering and leaving change what is in progress. -/
theorem Bounded.step {before after : Machine α β} (bounded : before.Bounded program settings)
    (steps : Steps program settings before after) : after.Bounded program settings := by
  cases steps.move with
  | command command offset mix frames run =>
    refine bounded.of_stack ?_ fun _ _ _ _ => declared_of_act
    exact (kept_act (kept_stack settings) command offset mix frames _).trans
      ((kept_stack settings).ignoreKeys command run)
  | blockFound offset mix frames run found =>
    refine bounded.of_stack rfl fun kind definition offset mix task => ?_
    cases task
    exact Program.mem_keys_of_block? found
  | refused offset mix frames =>
    exact bounded.of_stack ((kept_stack settings).refuse _ _) (by simp [finish])
  | entered offset mix frames enters =>
    have member := bounded.next _ _ offset mix rfl
    exact bounded.enter member enters _ _ _ (by cases ‹Kind› <;> simp [body])
  | resumed duration frame frames run =>
    cases frame with
    | leave => exact bounded.leave duration frames
    | sequence | atOnce | together | loop => exact bounded.of_stack rfl (by simp [resume])
  | sequenceEnd | sequenceNext | sequenceLeft | atOnceEnd | atOnceNext | blockMissing | togetherEnd
  | togetherNext | loopEnd | loopNext | loopLeft => exact bounded.of_stack rfl (by simp [finish])

/-! ## Whole runs -/

theorem start_frames (program : Program) (run : Run α β) : (start program run).frames = [] := by
  rw [start]
  split
  · rfl
  · split <;> rfl

/-- The globals come first, or the entry block, or nothing at all. -/
theorem start_task_cases (program : Program) (run : Run α β) :
    (start program run).task = .sequence program.globals 0 .neutral 0 ∨
      (start program run).task = .together [entryBlock] 0 .neutral 0 ∨
      (start program run).task = .done 0 := by
  rw [start]
  split
  · exact .inl rfl
  · split
    · exact .inr (.inl rfl)
    · exact .inr (.inr rfl)

/-- What the effects of headers keep, and the warning that there is nothing to play. -/
theorem start_invariant (holds : Run α β → Prop)
    (keeps : ∀ run block effect, holds run → holds (run.recordEffect block effect))
    (warns : ∀ run, holds run → holds (run.record .nothingToPlay)) (program : Program)
    {run : Run α β} (base : holds run) : holds (start program run).run := by
  have recorded := recordHeaders_invariant holds keeps program base
  rw [start]
  split
  · exact recorded
  · split
    · exact recorded
    · exact warns _ recorded

theorem start_stack (program : Program) (state : State α) (device : β) (journal : Journal α) :
    (start program (.start state device journal)).run.stack = [] :=
  start_invariant (fun run => run.stack = []) (fun _ _ _ before => before)
    (fun _ before => before) program rfl

theorem bounded_start (program : Program) (settings : Settings) (state : State α) (device : β)
    (journal : Journal α) :
    (start program (.start state device journal)).Bounded program settings := by
  have stack := start_stack program state device journal
  refine ⟨stack ▸ List.nodup_nil, by simp [stack], by simp [stack], ?_⟩
  rcases start_task_cases program (.start state device journal) with task | task | task <;>
    simp [task]

/-- Every run ends with what performing gives; at every moment of it the definitions in progress are
different ones, all of the program, and no more than the depth and the program allow; and a command
leaves them exactly as they were, whatever it does. -/
theorem performs_within_bounds {β : Type} [Device Float β] (program : Program)
    (settings : Settings) (state : State Float) (device : β) (journal : Journal Float) :
    (Reaches program settings (start program (.start state device journal))
        (finish [] (performProgram program settings (.start state device journal))) ∧
      (finish [] (performProgram program settings (.start state device journal))).step? program
        settings = none) ∧
    (∀ moment, Reaches program settings (start program (.start state device journal)) moment →
      moment.run.stack.Nodup ∧ (∀ key ∈ moment.run.stack, key ∈ program.keys) ∧
        moment.run.stack.length ≤ min settings.maxDepth (room program)) ∧
    ∀ moment command offset mix,
      Reaches program settings (start program (.start state device journal)) moment →
      moment.task = .command command offset mix →
      Reaches program settings moment
          (finish moment.frames
            (performCommand program settings (invoke program settings (room program)) command offset
              mix moment.run)) ∧
        (performCommand program settings (invoke program settings (room program)) command offset mix
          moment.run).2.stack = moment.run.stack := by
  refine ⟨⟨reaches_end program settings _, rfl⟩, fun moment reaches => ?_, ?_⟩
  · have bounded := reaches.invariant (Bounded program settings)
      (bounded_start program settings state device journal) fun bounded steps => bounded.step steps
    exact ⟨bounded.distinct, bounded.declared, bounded.length_le⟩
  · rintro ⟨_, frames, run⟩ command offset mix - rfl
    exact ⟨completes_anywhere program settings command offset mix run frames,
      stack_performCommand program settings (room program) command offset mix run⟩

/-- A block that plays itself. -/
def rounds : Program :=
  { globals := [.ofWords 1 ["play", "main"]]
    blocks := [{ name := "main", commands := [.ofWords 2 ["play", "main"]], effects := [] }]
    customSamples := []
    irregularities := [] }

/-- While the block is in progress it is about to be played again. -/
theorem performs_within_bounds_rounds :
    ∃ moment : Machine Float (Timeline Float), ∃ command offset mix,
      Reaches rounds .standard (start rounds (.start (.start 120 true) .empty #[])) moment ∧
      moment.task = .command command offset mix ∧ moment.run.stack = [(.block, "main")] ∧
      moment.run.stack.length ≤ min Settings.standard.maxDepth (room rounds) ∧
      (performCommand rounds .standard (invoke rounds .standard (room rounds)) command offset mix
        moment.run).2.stack = moment.run.stack := by
  obtain ⟨-, bounds, leaves⟩ :=
    performs_within_bounds rounds .standard (.start 120 true) (.empty : Timeline Float) #[]
  have path : ∃ moment : Machine Float (Timeline Float), ∃ command offset mix,
      Reaches rounds .standard (start rounds (.start (.start 120 true) .empty #[])) moment ∧
      moment.task = .command command offset mix ∧ moment.run.stack = [(.block, "main")] := by
    exact ⟨_, _, _, _, .head rfl (.head rfl (.head rfl (.head rfl (.head rfl (.head rfl .refl))))),
      rfl, rfl⟩
  obtain ⟨moment, command, offset, mix, reaches, task, stack⟩ := path
  exact ⟨moment, command, offset, mix, reaches, task, stack, (bounds moment reaches).2.2,
    (leaves moment command offset mix reaches task).2⟩

end Sequencer.Machine
