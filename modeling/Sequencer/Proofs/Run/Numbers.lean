import Sequencer.Proofs.Program.Legible
import Sequencer.Proofs.Program.Numerals
import Sequencer.Proofs.Run.Bounds
import Sequencer.Proofs.Run.Sameness

/-! # The numbers of a run

A state has numbers in its tempo, its variables and its recorded effects. Only three commands change
them, `Machine.Steps.alters`, and each puts in what one of its arguments comes to. Since these come to
finite numbers as long as the variables are finite, a run never has any other: `numbers_stay_finite`.
-/

namespace Sequencer

variable {α β : Type}

/-! ## How numbers change -/

/-- The same tempo, variables and recorded effects. -/
structure State.SameNumbers (before after : State α) : Prop where
  tempo : after.tempo = before.tempo
  bindings : after.bindings = before.bindings
  effects : after.effects = before.effects

namespace State.SameNumbers

theorem refl (state : State α) : SameNumbers state state := ⟨rfl, rfl, rfl⟩

theorem of_eq {before after : State α} (same : after = before) : SameNumbers before after :=
  same ▸ refl after

theorem trans {first second third : State α} (left : SameNumbers first second)
    (right : SameNumbers second third) : SameNumbers first third :=
  ⟨right.tempo.trans left.tempo, right.bindings.trans left.bindings,
    right.effects.trans left.effects⟩

end State.SameNumbers

/-- The ways in which an action changes the numbers of a state. -/
inductive Action.Alters [Arithmetic α] : Action → State α → State α → Prop
  | bpm {value before} : Tempo.isTempo (before.bindings.resolve value) = true →
      Alters (.bpm value) before { before with tempo := .ofBpm (before.bindings.resolve value) }
  | set (name value before) :
      Alters (.set name value) before
        { before with bindings := before.bindings.set name (before.bindings.resolve value) }
  | effect (effect block before) :
      Alters (.effect effect block) before
        (before.addEffect block (effect.map before.bindings.resolve))

theorem Action.Alters.isTempo [Arithmetic α] {value : Value} {before after : State α}
    (alters : Alters (.bpm value) before after) :
    Tempo.isTempo (before.bindings.resolve value) = true := by
  cases alters with
  | bpm isTempo => exact isTempo

namespace Machine

variable [Arithmetic α] [Device α β] {program : Program} {settings : Settings}

open Run

/-- The first step of an action changes what the action changes, and no other numbers. -/
theorem act_alters (program : Program) (settings : Settings) (command : Command) (offset : α)
    (mix : Mix α) (frames : List (Frame α)) (run : Run α β) :
    run.state.SameNumbers (act program settings command offset mix frames run).run.state ∨
      command.action.Alters run.state
        (act program settings command offset mix frames run).run.state := by
  rw [act]
  cases action : command.action with
  | sample arguments =>
    dsimp only
    split <;> exact .inl ⟨rfl, rfl, rfl⟩
  | tone arguments | slide arguments =>
    -- a waveform that is none is warned of before the request is made
    have unmoved := Unmoved.waveform settings run arguments.waveform
    exact .inl (.trans (.of_eq unmoved.state) ⟨rfl, rfl, rfl⟩)
  | bpm value =>
    dsimp only [finish, Run.changeTempo, Tempo.change?]
    by_cases isTempo : Tempo.isTempo (run.resolve value) = true
    · rw [if_pos isTempo]
      exact .inr (.bpm isTempo)
    · rw [if_neg isTempo]
      exact .inl (.refl _)
  | loop count names arguments =>
    dsimp only
    split <;> exact .inl (.refl _)
  | set name value => exact .inr (.set name value run.state)
  | effect effect block => exact .inr (.effect effect block run.state)
  | wait | play | invalid | unknown => exact .inl (.refl _)

/-- Only commands change numbers, and only by their own actions. -/
theorem Steps.alters {before after : Machine α β} (steps : Steps program settings before after) :
    before.run.state.SameNumbers after.run.state ∨
      ∃ command offset mix, before.task = .command command offset mix ∧
        command.action.Alters before.run.state after.run.state := by
  cases steps.move with
  | command command offset mix frames run =>
    have same := (Unmoved.ignoreKeys run command).state
    have acts := act_alters program settings command offset mix frames (run.ignoreKeys command)
    rw [same] at acts
    exact acts.imp_right fun alters => ⟨command, offset, mix, rfl, alters⟩
  | refused offset mix frames => exact .inl (.of_eq (Unmoved.refuse settings _ _).state)
  | resumed duration frame frames run =>
    cases frame <;> exact .inl (.refl _)
  | sequenceEnd | sequenceNext | sequenceLeft | atOnceEnd | atOnceNext | blockFound | blockMissing
  | togetherEnd | togetherNext | loopEnd | loopNext | loopLeft | entered => exact .inl (.refl _)

end Machine

/-! ## Finite numbers -/

/-- Beats per minute that are positive and finite, and the beat that belongs to them. -/
structure Tempo.Regular (tempo : Tempo Float) : Prop where
  finite : tempo.bpm.isFinite = true
  positive : 0 < tempo.bpm
  beat : tempo.beat = 60 / tempo.bpm

theorem Tempo.regular_ofBpm {bpm : Float} (isTempo : Tempo.isTempo bpm = true) :
    (ofBpm bpm).Regular := by
  rw [Tempo.isTempo, Bool.and_eq_true, decide_eq_true_iff] at isTempo
  exact ⟨isTempo.1, isTempo.2, rfl⟩

/-- Whatever the wish is. -/
theorem Tempo.regular_start (bpm : Float) : (start bpm).Regular := by
  rw [start, change?]
  split
  · next isTempo => exact regular_ofBpm isTempo
  · exact regular_ofBpm (by decide +kernel)

def Effect.Finite (effect : Effect Float) : Prop :=
  ∀ parameter ∈ effect.parameters, parameter.value.isFinite = true

/-- A legible effect is recorded with finite numbers. -/
theorem Effect.Legible.finite_map {effect : Effect Float} (legible : effect.Legible) :
    (effect.map (Arithmetic.ofDouble (α := Float))).Finite := by
  intro parameter member
  obtain ⟨given, givenMember, rfl⟩ := List.mem_map.mp member
  exact (legible.parameters given givenMember).finite

/-- No number of a state is infinite or not a number. -/
structure State.Finite (state : State Float) : Prop where
  tempo : state.tempo.Regular
  bindings : state.bindings.Finite
  effects : ∀ block, ∀ effect ∈ state.effectsOf block, effect.Finite

/-- What the arguments of a command come to, wherever it is performed. -/
structure Command.ComesOut (command : Command) (bindings : Variables Float) : Prop where
  values : ∀ value ∈ command.action.values, (bindings.resolve value).isFinite = true
  beats : ∀ beats ∈ command.action.beats?,
    (Arithmetic.larger (bindings.resolve beats) 0).isFinite = true
  count : ∀ count names mix, command.action = .loop count names mix →
    (bindings.resolve count).isFinite = true
  effect : ∀ effect block, command.action = .effect effect block →
    (effect.map bindings.resolve).Finite

theorem Action.mem_values_of_beats? {action : Action} {beats : Value}
    (lasts : action.beats? = some beats) : beats ∈ action.values := by
  cases action <;> simp only [beats?, Option.some.injEq, reduceCtorEq] at lasts <;>
    subst lasts <;> simp [values]

theorem Arithmetic.larger_cases [Arithmetic α] (left right : α) :
    larger left right = left ∨ larger left right = right := by
  rw [larger]
  split
  · exact .inr rfl
  · split
    · exact .inl rfl
    · exact .inr rfl

theorem Variables.Finite.comesOut {bindings : Variables Float} (finite : bindings.Finite)
    (command : Command) : command.ComesOut bindings := by
  have values : ∀ value ∈ command.action.values, (bindings.resolve value).isFinite = true :=
    fun value member => finite.resolve (command.finite_values value member)
  refine ⟨values, fun beats lasts => ?_, fun count names mix action => ?_,
    fun effect block action => ?_⟩
  · rcases Arithmetic.larger_cases (bindings.resolve beats) 0 with same | same <;> rw [same]
    · exact values beats (Action.mem_values_of_beats? lasts)
    · exact Number.isFinite_zero
  · rw [action] at values
    exact values count List.mem_cons_self
  · rw [action] at values
    intro parameter member
    obtain ⟨given, givenMember, rfl⟩ := List.mem_map.mp member
    exact values given.value (List.mem_map_of_mem givenMember)

namespace State.Finite

variable {before after : State Float}

theorem of_sameNumbers (finite : before.Finite) (same : before.SameNumbers after) :
    after.Finite where
  tempo := same.tempo ▸ finite.tempo
  bindings := same.bindings ▸ finite.bindings
  effects := by
    intro block
    rw [effectsOf, same.effects]
    exact finite.effects block

/-- What a command puts into a state is what one of its arguments comes to. -/
theorem of_alters (finite : before.Finite) {command : Command}
    (alters : command.action.Alters before after) : after.Finite := by
  have comesOut := finite.bindings.comesOut command
  generalize action : command.action = own at alters
  cases alters with
  | bpm isTempo => exact ⟨Tempo.regular_ofBpm isTempo, finite.bindings, finite.effects⟩
  | set name value =>
    have value := comesOut.values value (action ▸ List.mem_cons_self)
    exact ⟨finite.tempo, finite.bindings.set name value, finite.effects⟩
  | effect effect block =>
    refine ⟨finite.tempo, finite.bindings, fun other recorded member => ?_⟩
    rw [effectsOf_addEffect, List.mem_append] at member
    rcases member with earlier | new
    · exact finite.effects other recorded earlier
    · split at new
      · obtain rfl := List.mem_singleton.mp new
        exact comesOut.effect effect block action
      · cases new

end State.Finite

/-! ## Whole runs -/

namespace Machine

open Run

theorem state_start [Arithmetic α] [Device α β] (program : Program) (run : Run α β) :
    (start program run).run.state = (run.recordHeaders program).state := by
  rw [start]
  split
  · rfl
  · split <;> rfl

variable [Device Float β] {program : Program} {settings : Settings}

/-- The numbers of the headers have been read from a text. -/
theorem finite_start (source : String) (bpm : Float) (running : Bool) (device : β)
    (journal : Journal Float) :
    (start (Program.read source) (.start (.start bpm running) device journal)).run.state.Finite := by
  have kept := (Run.recordHeaders_kept (Program.read source)
    (.start (.start bpm running) device journal)).1
  rw [state_start]
  refine ⟨?tempo, ?bindings, fun block effect member => ?effects⟩
  case tempo =>
    rw [kept]
    exact Tempo.regular_start bpm
  case bindings =>
    rw [kept]
    exact Variables.finite_empty
  case effects =>
    -- nothing but headers has recorded an effect so far
    rw [Run.recordHeaders_eq_recordEach, Run.effectsOf_recordEach] at member
    obtain ⟨own, ownMember, rfl⟩ := List.mem_map.mp member
    obtain ⟨definition, declared, annotated⟩ := Definitions.mem_effectsOn_headers ownMember
    have legible := (Program.read_legible source).definitions .block definition declared
    exact (legible.effects own annotated).finite_map

theorem Steps.finite {before after : Machine Float β} (finite : before.run.state.Finite)
    (steps : Steps program settings before after) : after.run.state.Finite := by
  rcases steps.alters with same | ⟨command, _, _, -, alters⟩
  · exact finite.of_sameNumbers same
  · exact finite.of_alters alters

/-- At every moment of a run from a fresh state, whatever tempo it is to start with, all variables and
all effects that have been recorded are finite, the tempo is positive and finite with the beat that
belongs to it, and every argument of every command comes to a finite number. A tempo that is refused
changes nothing. -/
theorem numbers_stay_finite (source : String) (settings : Settings) (bpm : Float) (running : Bool)
    (device : β) (journal : Journal Float) {moment : Machine Float β}
    (reaches : Reaches (Program.read source) settings
      (start (Program.read source) (.start (.start bpm running) device journal)) moment) :
    moment.run.state.Finite ∧
      (∀ token, (moment.run.resolve (.ofToken token)).isFinite = true) ∧
      (∀ command : Command, command.ComesOut moment.run.state.bindings) ∧
      ∀ after command offset mix value, Steps (Program.read source) settings moment after →
        moment.task = .command command offset mix → command.action = .bpm value →
        Tempo.isTempo (moment.run.resolve value) = false →
        after.run.state.tempo = moment.run.state.tempo := by
  have finite : moment.run.state.Finite :=
    reaches.invariant (fun machine => machine.run.state.Finite)
      (finite_start source bpm running device journal) fun finite steps => steps.finite finite
  refine ⟨finite, fun token => finite.bindings.resolve (Value.finite_ofToken token),
    finite.bindings.comesOut, fun after command offset mix value steps task action refused => ?_⟩
  rcases steps.alters with same | ⟨command', offset', mix', task', alters⟩
  · exact same.tempo
  · -- the only way for it to change the tempo is not open
    obtain ⟨rfl, -, -⟩ := Task.command.inj (task.symm.trans task')
    rw [action] at alters
    exact absurd (alters.isTempo.symm.trans refused) (by decide)

/-- No literal is as large as the last pace. It is a name, and as no variable has it, it is zero. -/
def lento : String :=
  "set pace 90\nbpm pace\nset pace 1e400\nbpm pace\n[verse] (reverb 0.5)\ntone C4\n"

theorem numbers_stay_finite_lento :
    let start : Run Float (Timeline Float) := .start (.start (0 / 0) true) .empty #[]
    let (_, after) := performProgram (Program.read lento) .standard start
    after.state.Finite ∧ after.state.tempo.bpm = 90 ∧ after.state.bindings.get? "pace" = some 0 ∧
      after.journal.warnings.toList.map Warning.message = ["line 4: ignoring invalid bpm 0"] ∧
      (after.resolve (.ofToken "-1e400")).isFinite = true := by
  obtain ⟨finite, tokens, -, -⟩ :=
    numbers_stay_finite lento .standard (0 / 0) true (.empty : Timeline Float) #[]
      (reaches_end (Program.read lento) .standard _)
  exact ⟨finite, by decide +kernel, by decide +kernel, by decide +kernel, tokens "-1e400"⟩

end Machine

end Sequencer
