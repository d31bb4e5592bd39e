import Sequencer.Proofs.Run.Timely

/-! # Containment in time

What is performed at some time and says how long it takes requests nothing outside of that time, in
exact arithmetic and given that custom samples, which take no time, hold nothing that lasts. Sums of
durations contain what is performed in a row, and the longest duration what is performed side by
side.
-/

namespace Sequencer

variable {β : Type}

/-- Whether an action makes a request that lasts, or plays blocks. -/
def Action.lingers : Action → Bool
  | .tone _ | .slide _ | .play _ _ | .loop _ _ _ => true
  | _ => false

/-- Nothing in the body of a custom sample lasts. -/
def Program.StillCustomSamples (program : Program) : Prop :=
  ∀ customSample ∈ program.customSamples, ∀ command ∈ customSample.commands,
    command.action.lingers = false

/-- The same of one definition, if it is a custom sample. -/
def Definition.Still (kind : Kind) (definition : Definition) : Prop :=
  kind = .customSample → ∀ command ∈ definition.commands, command.action.lingers = false

theorem Definition.still_block (definition : Definition) : definition.Still .block :=
  fun custom => by cases custom

/-! ## Requests -/

/-- A request that lies between two times. -/
structure Request.Between (start finish : ℚ) (request : Request ℚ) : Prop where
  starts : start ≤ request.start
  ends : request.start + request.extent.duration request.start ≤ finish

theorem Request.Between.mono {start start' finish finish' : ℚ} {request : Request ℚ}
    (within : request.Between start finish) (earlier : start' ≤ start) (later : finish ≤ finish') :
    request.Between start' finish' :=
  ⟨earlier.trans within.starts, within.ends.trans later⟩

namespace Run

/-- All requests from one run to a later one lie between two times. -/
def AddsBetween (start finish : ℚ) (before after : Run ℚ β) : Prop :=
  ∃ entries, after.journal.toList = before.journal.toList ++ entries ∧
    ∀ made ∈ entries.filterMap Entry.request?, made.1.Between start finish

namespace AddsBetween

variable {start finish : ℚ}

theorem of_journal {before after : Run ℚ β} (same : after.journal = before.journal) :
    AddsBetween start finish before after :=
  ⟨[], by rw [same, List.append_nil], by simp⟩

theorem refl (run : Run ℚ β) : AddsBetween start finish run run := of_journal rfl

theorem trans {first second third : Run ℚ β} (left : AddsBetween start finish first second)
    (right : AddsBetween start finish second third) : AddsBetween start finish first third := by
  obtain ⟨entries, journal, within⟩ := left
  obtain ⟨entries', journal', within'⟩ := right
  refine ⟨entries ++ entries', by rw [journal', journal, List.append_assoc], ?_⟩
  rw [List.filterMap_append]
  exact List.forall_mem_append.mpr ⟨within, within'⟩

theorem mono {start' finish' : ℚ} {before after : Run ℚ β}
    (adds : AddsBetween start finish before after) (earlier : start' ≤ start)
    (later : finish ≤ finish') : AddsBetween start' finish' before after := by
  obtain ⟨entries, journal, within⟩ := adds
  exact ⟨entries, journal, fun made member => (within made member).mono earlier later⟩

/-- The same in terms of calls. -/
theorem calls {before after : Run ℚ β} (adds : AddsBetween start finish before after) :
    ∃ made, after.calls = before.calls ++ made ∧
      ∀ request, .schedule request ∈ made → request.Between start finish := by
  obtain ⟨entries, journal, within⟩ := adds
  refine ⟨Entry.calls entries, by rw [Run.calls, journal, Entry.calls_append, Run.calls], ?_⟩
  intro request called
  obtain ⟨entry, member, call⟩ := List.mem_filterMap.mp called
  cases entry with
  | dispatched own duration handle =>
    cases call
    exact within (request, handle) (List.mem_filterMap.mpr ⟨_, member, rfl⟩)
  | _ => cases call

theorem record (run : Run ℚ β) {entry : Entry ℚ} (quiet : entry.request? = none) :
    AddsBetween start finish run (run.record entry) :=
  ⟨[entry], Array.toList_push, by simp [quiet]⟩

theorem dispatch [Device ℚ β] (run : Run ℚ β) {request : Request ℚ}
    (within : request.Between start finish) (duration : ℚ) :
    AddsBetween start finish run (run.dispatch request duration) := by
  refine ⟨[.dispatched request duration _], Array.toList_push, ?_⟩
  simpa [Entry.request?] using within

theorem refuse (settings : Settings) (run : Run ℚ β) (refused : Refused) :
    AddsBetween start finish run (run.refuse settings refused) :=
  refuse_invariant (AddsBetween start finish run) settings refused (fun _ _ before => before)
    (fun after before => before.trans (.record after rfl)) (.refl run)

theorem ignoreKeys (command : Command) (run : Run ℚ β) :
    AddsBetween start finish run (run.ignoreKeys command) :=
  ignoreKeys_invariant (AddsBetween start finish run)
    (fun after _ _ _ before => before.trans (.record after rfl)) command (.refl run)

theorem waveform (settings : Settings) (run : Run ℚ β) (name : Option String) :
    AddsBetween start finish run (run.waveform settings name).2 := by
  cases name with
  | none => exact .refl run
  | some name =>
    rw [Run.waveform]
    split
    · exact .refl run
    · exact .record run rfl

theorem recordEffect [Device ℚ β] (run : Run ℚ β) (block : String) (effect : Effect ℚ) :
    AddsBetween start finish run (run.recordEffect block effect) :=
  ⟨[.effectRecorded block effect], Array.toList_push, by simp [Entry.request?]⟩

theorem changeTempo (line : Nat) (bpm offset : ℚ) (run : Run ℚ β) :
    AddsBetween start finish run (run.changeTempo line bpm offset) := by
  rw [Run.changeTempo]
  split
  · exact (of_journal rfl : AddsBetween start finish run (run.setTempo _)).trans (.record _ rfl)
  · exact .record run rfl

end AddsBetween

/-! ## Containment -/

/-- Something that started at a time, took at least so long, and requested nothing outside of that. -/
structure Contained (start least : ℚ) (run : Run ℚ β) (result : ℚ × Run ℚ β) : Prop where
  least : least ≤ result.1
  beat : 0 ≤ result.2.state.tempo.beat
  adds : AddsBetween start (start + result.1) run result.2

namespace Contained

variable {start : ℚ} {run : Run ℚ β}

/-- Something that took no time. -/
theorem of_adds {after : Run ℚ β} (beat : 0 ≤ after.state.tempo.beat)
    (adds : AddsBetween start start run after) : Contained start 0 run (0, after) :=
  ⟨le_rfl, beat, adds.mono le_rfl (by simp)⟩

/-- What takes no time by itself can still be given some. -/
theorem lasting {after : Run ℚ β} (instant : Contained start 0 run (0, after)) {duration : ℚ}
    (nonneg : 0 ≤ duration) : Contained start 0 run (duration, after) :=
  ⟨nonneg, instant.beat, instant.adds.mono le_rfl (add_le_add_right nonneg start)⟩

/-- What comes before within that time. -/
theorem after {least least' finish : ℚ} {middle : Run ℚ β} {result : ℚ × Run ℚ β}
    (later : Contained start least middle result) (earlier : AddsBetween start finish run middle)
    (longer : least' ≤ least) (within : finish ≤ start + least) :
    Contained start least' run result :=
  ⟨longer.trans later.least, later.beat,
    (earlier.mono le_rfl (within.trans (add_le_add_right later.least start))).trans later.adds⟩

theorem inSequence {perform : Command → ℚ → Run ℚ β → ℚ × Run ℚ β}
    (each : ∀ command start (run : Run ℚ β), 0 ≤ run.state.tempo.beat →
      Contained start 0 run (perform command start run))
    (commands : List Command) {elapsed : ℚ} (nonneg : 0 ≤ elapsed)
    (beat : 0 ≤ run.state.tempo.beat) :
    Contained start elapsed run (inSequence perform start commands elapsed run) := by
  induction commands generalizing elapsed run with
  | nil => exact ⟨le_rfl, beat, .refl run⟩
  | cons command rest inductionHypothesis =>
    rw [Run.inSequence]
    split
    · -- what has elapsed is the least that the whole sequence takes
      have first := each command (start + elapsed) run beat
      have longer : elapsed ≤ elapsed + (perform command (start + elapsed) run).1 :=
        le_add_of_nonneg_right first.least
      refine (inductionHypothesis (nonneg.trans longer) first.beat).after
        (first.adds.mono (le_add_of_nonneg_right nonneg) le_rfl) longer ?_
      rw [add_assoc]
    · exact ⟨le_rfl, beat, .record run rfl⟩

theorem atOnce {perform : Command → Run ℚ β → ℚ × Run ℚ β} (commands : List Command)
    (each : ∀ command ∈ commands, ∀ run : Run ℚ β, 0 ≤ run.state.tempo.beat →
      Contained start 0 run (0, (perform command run).2))
    (beat : 0 ≤ run.state.tempo.beat) :
    Contained start 0 run (0, atOnce perform commands run) := by
  induction commands generalizing run with
  | nil => exact .of_adds beat (.refl run)
  | cons command rest inductionHypothesis =>
    obtain ⟨now, later⟩ := List.forall_mem_cons.mp each
    have first := now run beat
    exact (inductionHypothesis later first.beat).after first.adds le_rfl le_rfl

theorem together {play : String → Run ℚ β → ℚ × Run ℚ β}
    (each : ∀ name (run : Run ℚ β), 0 ≤ run.state.tempo.beat →
      Contained start 0 run (play name run))
    (names : List String) (longest : ℚ) (beat : 0 ≤ run.state.tempo.beat) :
    Contained start longest run (together play names longest run) := by
  induction names generalizing longest run with
  | nil => exact ⟨le_rfl, beat, .refl run⟩
  | cons name rest inductionHypothesis =>
    have first := each name run beat
    have longer : longest ≤ Arithmetic.larger longest (play name run).1 :=
      Arithmetic.LawfulOrder.le_larger_left le_rfl _
    have within : (play name run).1 ≤ Arithmetic.larger longest (play name run).1 :=
      Arithmetic.LawfulOrder.le_larger_right longest le_rfl
    rw [Run.together]
    exact (inductionHypothesis _ first.beat).after first.adds longer (add_le_add_right within start)

theorem repeatedly {play : ℚ → Run ℚ β → ℚ × Run ℚ β}
    (each : ∀ start (run : Run ℚ β), 0 ≤ run.state.tempo.beat → Contained start 0 run (play start run))
    (left done : Nat) {total : ℚ} (nonneg : 0 ≤ total) (beat : 0 ≤ run.state.tempo.beat) :
    Contained start total run (repeatedly play start left done total run) := by
  induction left generalizing done total run with
  | zero => exact ⟨le_rfl, beat, .refl run⟩
  | succ left inductionHypothesis =>
    rw [Run.repeatedly]
    dsimp only
    split
    · have turn := each (start + total) run beat
      have longer : total ≤ total + (play (start + total) run).1 :=
        le_add_of_nonneg_right turn.least
      have adds : AddsBetween start (start + (total + (play (start + total) run).1)) run
          (play (start + total) run).2 :=
        turn.adds.mono (le_add_of_nonneg_right nonneg) (add_assoc _ _ _).le
      split
      · exact ⟨longer, turn.beat, adds⟩
      · exact (inductionHypothesis (done + 1) (nonneg.trans longer) turn.beat).after adds longer le_rfl
    · exact ⟨le_rfl, beat, .record run rfl⟩

end Contained

/-! ## Commands and definitions -/

/-- Invocations request nothing outside of the time that they say they take, and custom samples take
none. -/
structure Containing (invocation : Invocation ℚ β) : Prop where
  contained : ∀ {kind definition}, definition.Still kind → ∀ offset mix (run : Run ℚ β),
    0 ≤ run.state.tempo.beat →
      Contained offset 0 run (invocation kind definition offset mix run)
  instant : ∀ definition offset mix (run : Run ℚ β),
    (invocation .customSample definition offset mix run).1 = 0

section Containing

variable {program : Program} {settings : Settings} {invocation : Invocation ℚ β} {run : Run ℚ β}

theorem contained_playBlock (containing : Containing invocation) (offset : ℚ) (mix : Mix ℚ)
    (name : String) (beat : 0 ≤ run.state.tempo.beat) :
    Contained offset 0 run (run.playBlock program invocation offset mix name) := by
  rw [playBlock]
  split
  · next block _ => exact containing.contained block.still_block offset mix run beat
  · exact .of_adds beat (.record run rfl)

theorem contained_playTogether (containing : Containing invocation) (names : List String)
    (offset : ℚ) (mix : Mix ℚ) (beat : 0 ≤ run.state.tempo.beat) :
    Contained offset 0 run (run.playTogether program invocation names offset mix) :=
  .together (fun name _ beat => contained_playBlock containing offset mix name beat) names 0 beat

variable [Device ℚ β]

theorem contained_dispatch {start : ℚ} {middle : Run ℚ β} (adds : AddsBetween start start run middle)
    (beat : 0 ≤ middle.state.tempo.beat) {duration : ℚ} (nonneg : 0 ≤ duration) {request : Request ℚ}
    (within : request.Between start (start + duration)) :
    Contained start 0 run (duration, middle.dispatch request duration) :=
  ⟨nonneg, beat, (adds.mono le_rfl (le_add_of_nonneg_right nonneg)).trans
    (.dispatch middle within duration)⟩

theorem contained_performSample (settings : Settings) (arguments : SampleArguments) (offset : ℚ)
    (mix : Mix ℚ) (beat : 0 ≤ run.state.tempo.beat) :
    Contained offset 0 run (run.performSample settings arguments offset mix) :=
  contained_dispatch (.refl run) beat le_rfl ⟨le_rfl, le_rfl⟩

theorem contained_performTone (settings : Settings) (arguments : ToneArguments) (offset : ℚ)
    (mix : Mix ℚ) (beat : 0 ≤ run.state.tempo.beat) :
    Contained offset 0 run (run.performTone settings arguments offset mix) :=
  contained_dispatch (.waveform settings run arguments.waveform)
    ((kept_beat settings).waveform run arguments.waveform beat)
    (seconds_nonneg beat arguments.beats) ⟨le_rfl, le_rfl⟩

theorem contained_performSlide (settings : Settings) (arguments : SlideArguments) (offset : ℚ)
    (mix : Mix ℚ) (beat : 0 ≤ run.state.tempo.beat) :
    Contained offset 0 run (run.performSlide settings arguments offset mix) :=
  contained_dispatch (.waveform settings run arguments.waveform)
    ((kept_beat settings).waveform run arguments.waveform beat)
    (seconds_nonneg beat arguments.beats) ⟨le_rfl, (add_sub_cancel offset _).le⟩

variable (containing : Containing invocation)

include containing

theorem contained_performAction (still : program.StillCustomSamples) (command : Command) (offset : ℚ)
    (mix : Mix ℚ) (beat : 0 ≤ run.state.tempo.beat) :
    Contained offset 0 run (run.performAction program settings invocation command offset mix) := by
  rw [performAction]
  cases command.action with
  | sample arguments =>
    dsimp only
    split
    · next customSample found =>
      have member := List.mem_of_find?_eq_some found
      exact containing.contained (fun _ => still customSample member) offset mix run beat
    · exact contained_performSample settings arguments offset mix beat
  | tone arguments => exact contained_performTone settings arguments offset mix beat
  | slide arguments => exact contained_performSlide settings arguments offset mix beat
  | wait beats => exact (Contained.of_adds beat (.refl run)).lasting (seconds_nonneg beat beats)
  | bpm value =>
    exact .of_adds ((kept_beat settings).changeTempo _ _ _ run beat) (.changeTempo _ _ _ run)
  | play names arguments => exact contained_playTogether containing names offset _ beat
  | loop count names arguments =>
    dsimp only
    rw [playLoop]
    split
    · exact .repeatedly
        (fun start _ beat => contained_playTogether containing names start _ beat) _ 0 le_rfl beat
    · exact .of_adds beat (.record run rfl)
  | set name value => exact .of_adds beat (.of_journal rfl)
  | effect effect block => exact .of_adds beat (.recordEffect run block _)
  | invalid | unknown => exact .of_adds beat (.record run rfl)

/-- An action that neither lasts nor plays blocks makes its requests at its start. A wait takes its
time, and makes none. -/
theorem contained_performAction_of_short (still : program.StillCustomSamples) {command : Command}
    (short : command.action.lingers = false) (offset : ℚ) (mix : Mix ℚ)
    (beat : 0 ≤ run.state.tempo.beat) :
    Contained offset 0 run
      (0, (run.performAction program settings invocation command offset mix).2) := by
  have contained : Contained offset 0 run
      (run.performAction program settings invocation command offset mix) :=
    contained_performAction containing still command offset mix beat
  suffices quick : (∃ beats, command.action = .wait beats) ∨
      (run.performAction program settings invocation command offset mix).1 = 0 by
    rcases quick with ⟨beats, wait⟩ | zero
    · rw [performAction, wait]
      exact .of_adds beat (.refl run)
    · have whole : (0, (run.performAction program settings invocation command offset mix).2) =
          run.performAction program settings invocation command offset mix := Prod.ext zero.symm rfl
      rw [whole]
      exact contained
  rw [performAction]
  cases action : command.action with
  | wait beats => exact .inl ⟨beats, rfl⟩
  | sample arguments =>
    dsimp only
    split
    · exact .inr (containing.instant _ _ _ run)
    · exact .inr rfl
  | tone | slide | play | loop => rw [action] at short; cases short
  | bpm | set | effect | invalid | unknown => exact .inr rfl

theorem contained_performCommand (still : program.StillCustomSamples) (command : Command)
    (offset : ℚ) (mix : Mix ℚ) (beat : 0 ≤ run.state.tempo.beat) :
    Contained offset 0 run (run.performCommand program settings invocation command offset mix) :=
  (contained_performAction containing still command offset mix
    ((kept_beat settings).ignoreKeys command run beat)).after (.ignoreKeys command run) le_rfl
    (add_zero offset).ge

theorem contained_performBody (still : program.StillCustomSamples) {kind : Kind}
    {definition : Definition} (stillBody : definition.Still kind) (offset : ℚ) (mix : Mix ℚ)
    (beat : 0 ≤ run.state.tempo.beat) :
    Contained offset 0 run
      (run.performBody program settings invocation kind definition offset mix) := by
  cases kind with
  | block =>
    have entered : AddsBetween offset offset run (run.record (.blockEntered definition.name offset)) :=
      .record run rfl
    refine Contained.after (Contained.inSequence ?_ definition.commands le_rfl beat) entered le_rfl
      (add_zero offset).ge
    exact fun command start _ beat =>
      contained_performCommand containing still command start mix beat
  | customSample =>
    have entered : AddsBetween offset offset run
        (run.record (.customSampleEntered definition.name definition.commands.length offset)) :=
      .record run rfl
    refine Contained.after (Contained.atOnce definition.commands ?_ beat) entered le_rfl
      (add_zero offset).ge
    intro command member middle beat
    have beat' := (kept_beat settings).ignoreKeys command middle beat
    exact (contained_performAction_of_short containing still (stillBody rfl command member) offset mix
      beat').after (.ignoreKeys command middle) le_rfl (add_zero offset).ge

end Containing

variable {program : Program} [Device ℚ β]

theorem duration_invoke_customSample (program : Program) (settings : Settings) (room : Nat)
    (definition : Definition) (offset : ℚ) (mix : Mix ℚ) (run : Run ℚ β) :
    (invoke program settings room .customSample definition offset mix run).1 = 0 := by
  rw [invoke.eq_def]
  split
  · rfl
  · cases room <;> rfl

/-- The induction is on the room for definitions. -/
theorem containing_invoke (still : program.StillCustomSamples) (settings : Settings) (room : Nat) :
    Containing (β := β) (invoke program settings room) := by
  refine ⟨?_, duration_invoke_customSample program settings room⟩
  induction room with
  | zero =>
    intro kind definition _ offset mix run beat
    rw [invoke]
    split
    · exact .of_adds ((kept_beat settings).refuse run _ beat) (.refuse settings run _)
    · exact .of_adds beat (.refl run)
  | succ room inductionHypothesis =>
    intro kind definition stillBody offset mix run beat
    rw [invoke]
    split
    · exact .of_adds ((kept_beat settings).refuse run _ beat) (.refuse settings run _)
    · -- neither entering nor leaving makes a request
      have below : Containing (β := β) (invoke program settings room) :=
        ⟨inductionHypothesis, duration_invoke_customSample program settings room⟩
      have within : Contained offset 0 (run.enter kind definition.name)
          ((run.enter kind definition.name).performBody program settings
            (invoke program settings room) kind definition offset mix) :=
        contained_performBody below still stillBody offset mix beat
      exact ⟨within.least, within.beat,
        (AddsBetween.of_journal rfl).trans (within.adds.trans (.of_journal rfl))⟩

/-! ## Programs -/

theorem contained_performProgram (still : program.StillCustomSamples) (settings : Settings)
    {run : Run ℚ β} (beat : 0 ≤ run.state.tempo.beat) :
    Contained 0 0 run (run.performProgram program settings) := by
  have containing := containing_invoke (β := β) still settings (room program)
  have recorded : AddsBetween 0 0 run (run.recordHeaders program) :=
    recordHeaders_invariant (AddsBetween 0 0 run)
      (fun _ block effect before => before.trans (.recordEffect _ block effect)) program (.refl run)
  have beat' : 0 ≤ (run.recordHeaders program).state.tempo.beat :=
    recordHeaders_invariant (fun after => 0 ≤ after.state.tempo.beat)
      (fun _ _ _ before => before) program beat
  suffices entry : Contained 0 0 (run.recordHeaders program)
      ((run.recordHeaders program).performEntry program settings) from
    entry.after recorded le_rfl (add_zero 0).ge
  rw [performEntry]
  split
  · exact .inSequence
      (fun command start _ beat => contained_performCommand containing still command start .neutral
        beat) program.globals le_rfl beat'
  · split
    · exact contained_playTogether containing [entryBlock] 0 .neutral beat'
    · exact .of_adds beat' (.record _ rfl)

end Run

end Sequencer
