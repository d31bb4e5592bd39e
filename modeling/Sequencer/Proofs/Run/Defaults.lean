import Sequencer.Proofs.Number.Unit
import Sequencer.Proofs.Run.Sounding

/-! # Arguments that are left out

What stands in for a pitch, a timescale or a length in beats is a literal with the token `1`, and a
variable of that name takes its place as it would take the place of a written one. What stands in for
a volume, a pan or a waveform is out of reach of all variables: `omitted_arguments_fall_back`.
-/

namespace Sequencer

/-- A field is given neither by key nor by position. -/
structure Arguments.Omits (arguments : Arguments) (keys : List String) (position : Nat) : Prop where
  key : arguments.keyed? keys = none
  position : arguments.positional.length ≤ position

namespace Arguments.Omits

variable {arguments : Arguments} {keys : List String} {position : Nat}

theorem field?_eq_none (omits : arguments.Omits keys position) :
    arguments.field? keys position = none := by
  rw [field?, omits.key, List.getElem?_eq_none omits.position]
  rfl

theorem value?_eq_none (omits : arguments.Omits keys position) :
    arguments.value? keys position = none := by
  rw [value?, omits.field?_eq_none]
  rfl

end Arguments.Omits

/-! ## Fields of verbs and of requests -/

namespace Verb

def waveformPosition : Verb → Nat
  | .slide => 3
  | _ => 2

def volumePosition : Verb → Nat
  | .slide => 4
  | _ => 3

def panPosition : Verb → Nat
  | .slide => 5
  | _ => 4

end Verb

namespace Trigger

variable {α : Type}

def pitch? : Trigger α → Option α
  | .sample _ pitch _ => some pitch
  | .tone .. | .slide .. => none

def timescale? : Trigger α → Option α
  | .sample _ _ timescale => some timescale
  | .tone .. | .slide .. => none

def waveform? : Trigger α → Option Waveform
  | .sample .. => none
  | .tone _ waveform | .slide _ _ waveform => some waveform

end Trigger

/-- What a request has for what its command leaves out, given what stands in for a pitch or a
timescale, and how long a tone lasts that is given no length. -/
structure FallsBack (settings : Settings) (mix : Mix Float) (verb : Verb) (arguments : Arguments)
    (standIn length : Float) (request : Request Float) : Prop where
  pitch : verb = .sample → arguments.Omits Verb.pitchKey 1 → request.trigger.pitch? = some standIn
  timescale : verb = .sample → arguments.Omits Verb.timescaleKey 2 →
    request.trigger.timescale? = some standIn
  beats : verb = .tone → arguments.Omits Verb.beatsKey 1 → request.extent = .lasting length
  waveform : verb ≠ .sample → arguments.Omits Verb.waveformKeys verb.waveformPosition →
    request.trigger.waveform? = some settings.defaultWaveform
  volume : arguments.Omits Verb.volumeKey verb.volumePosition →
    request.volume = Arithmetic.clamp 0 1 (settings.defaultVolume * mix.volume)
  pan : arguments.Omits Verb.panKey verb.panPosition →
    request.pan = Arithmetic.clamp (-1) 1 (0 + mix.pan)

namespace Run

variable {β : Type}

/-- What the literal comes to that stands in for what is left out. -/
def standIn (run : Run Float β) : Float := (run.state.bindings.get? "1").getD 1

/-- How long a tone lasts that is given no length. -/
def lengthStandIn (run : Run Float β) : Float :=
  run.state.tempo.seconds (Arithmetic.larger run.standIn 0)

theorem resolve_one (run : Run Float β) : run.resolve Action.one = run.standIn := by
  have token : Number.text 1 = "1" := by decide +kernel
  rw [resolve, Action.one, Value.literal, Variables.resolve, token]
  rfl

theorem standIn_of_unset {run : Run Float β} (unset : run.state.bindings.get? "1" = none) :
    run.standIn = 1 := by
  rw [standIn, unset]
  rfl

theorem lengthStandIn_of_unset {run : Run Float β} (unset : run.state.bindings.get? "1" = none) :
    run.lengthStandIn = run.state.tempo.beat := by
  have one : Arithmetic.larger (1 : Float) 0 = 1 := by decide +kernel
  rw [lengthStandIn, standIn_of_unset unset, one, Tempo.seconds, Number.one_mul_eq]

/-! ## One request -/

variable {settings : Settings} {mix : Mix Float} {arguments : Arguments} {position : Nat}

theorem resolve_omitted (run : Run Float β) {keys : List String}
    (omits : arguments.Omits keys position) :
    run.resolve ((arguments.value? keys position).getD Action.one) = run.standIn := by
  rw [omits.value?_eq_none]
  exact run.resolve_one

theorem waveform_omitted (run : Run Float β) (omits : arguments.Omits Verb.waveformKeys position) :
    (run.waveform settings (arguments.field? Verb.waveformKeys position)).1 =
      settings.defaultWaveform := by
  rw [omits.field?_eq_none]
  rfl

theorem heardVolume_omitted (bindings : Variables Float)
    (omits : arguments.Omits Verb.volumeKey position) :
    mix.heardVolume (Mix.resolveOr bindings settings.defaultVolume
      (arguments.value? Verb.volumeKey position)) =
        Arithmetic.clamp 0 1 (settings.defaultVolume * mix.volume) := by
  rw [omits.value?_eq_none]
  rfl

theorem heardPan_omitted (bindings : Variables Float)
    (omits : arguments.Omits Verb.panKey position) :
    mix.heardPan (Mix.resolveOr bindings 0 (arguments.value? Verb.panKey position)) =
      Arithmetic.clamp (-1) 1 (0 + mix.pan) := by
  rw [omits.value?_eq_none]
  rfl

variable [Device Float β] {program : Program} {offset : Float} {run : Run Float β}
  {request : Request Float}

theorem fallsBack_of_sample
    (asked : run.request? program settings offset mix (Action.ofSample arguments) = some request) :
    FallsBack settings mix .sample arguments run.standIn run.lengthStandIn request := by
  rw [Action.ofSample] at asked
  split at asked
  · next name rest given =>
    rw [request?] at asked
    dsimp only at asked
    cases sampled : program.customSample? name with
    | some customSample =>
      rw [sampled] at asked
      cases asked
    | none =>
      rw [sampled] at asked
      obtain rfl := Option.some.inj asked
      exact
        { pitch := fun _ omits => congrArg some (run.resolve_omitted omits)
          timescale := fun _ omits => congrArg some (run.resolve_omitted omits)
          beats := by rintro ⟨⟩
          waveform := fun other => absurd rfl other
          volume := heardVolume_omitted run.state.bindings
          pan := heardPan_omitted run.state.bindings }
  · cases asked

theorem fallsBack_of_tone
    (asked : run.request? program settings offset mix (Action.ofTone arguments) = some request) :
    FallsBack settings mix .tone arguments run.standIn run.lengthStandIn request := by
  rw [Action.ofTone] at asked
  split at asked
  · obtain rfl := Option.some.inj asked
    exact
      { pitch := by rintro ⟨⟩
        timescale := by rintro ⟨⟩
        beats := fun _ omits => by
          rw [lengthStandIn, ← run.resolve_omitted omits]
          rfl
        waveform := fun _ omits => congrArg some (run.waveform_omitted omits)
        volume := heardVolume_omitted run.state.bindings
        pan := heardPan_omitted run.state.bindings }
  · cases asked

theorem fallsBack_of_slide
    (asked : run.request? program settings offset mix (Action.ofSlide arguments) = some request) :
    FallsBack settings mix .slide arguments run.standIn run.lengthStandIn request := by
  rw [Action.ofSlide] at asked
  split at asked
  · obtain rfl := Option.some.inj asked
    exact
      { pitch := by rintro ⟨⟩
        timescale := by rintro ⟨⟩
        beats := by rintro ⟨⟩
        waveform := fun _ omits => congrArg some (run.waveform_omitted omits)
        volume := heardVolume_omitted run.state.bindings
        pan := heardPan_omitted run.state.bindings }
  · cases asked
  · cases asked

/-- A command that makes a request has a verb, and its arguments fall back as those of the verb. -/
theorem fallsBack_of_request {command : Command}
    (asked : run.request? program settings offset mix command.action = some request) :
    ∃ verb, Verb.ofWord? command.verb = some verb ∧
      FallsBack settings mix verb (.ofWords command.words.tail) run.standIn run.lengthStandIn
        request := by
  rw [command.action_eq, Action.ofWords] at asked
  change ∃ verb, Verb.ofWord? (Action.verbOfWords command.words) = some verb ∧ _
  cases spoken : Verb.ofWord? (Action.verbOfWords command.words) with
  | none =>
    rw [spoken] at asked
    cases asked
  | some verb =>
    rw [spoken] at asked
    dsimp only at asked
    refine ⟨verb, rfl, ?_⟩
    generalize Arguments.ofWords command.words.tail = arguments at asked ⊢
    cases verb with
    | sample => exact fallsBack_of_sample asked
    | tone => exact fallsBack_of_tone asked
    | slide => exact fallsBack_of_slide asked
    | wait | bpm =>
      rw [Action.ofArguments] at asked
      cases given : arguments.value? [] 0 <;> rw [given] at asked <;> cases asked
    | play | loop | set | effect =>
      simp only [Action.ofArguments, Action.ofPlay, Action.ofLoop, Action.ofSet,
        Action.ofEffect] at asked
      split at asked <;> cases asked

end Run

/-! ## Any request of any run -/

namespace Machine

open Run

variable {β : Type} [Device Float β]

/-- A request goes back to a command at some moment of the run, and to the mix and the variables that
the command finds. As long as no variable is named `1`, what is left out of the command is what the
table of defaults says, and a tone without a length lasts for one beat of the tempo. -/
theorem omitted_arguments_fall_back (program : Program) (settings : Settings) {run : Run Float β}
    {made : List (Request Float)} {request : Request Float}
    (asked : run.requests ++ made ++ [request] <+: (performProgram program settings run).2.requests) :
    ∃ moment command offset mix verb, Reaches program settings (start program run) moment ∧
      moment.run.requests = run.requests ++ made ∧ moment.task = .command command offset mix ∧
      Verb.ofWord? command.verb = some verb ∧
      FallsBack settings mix verb (.ofWords command.words.tail) moment.run.standIn
        moment.run.lengthStandIn request ∧
      (moment.run.state.bindings.get? "1" = none →
        FallsBack settings mix verb (.ofWords command.words.tail) 1 moment.run.state.tempo.beat
          request) := by
  obtain ⟨moment, reaches, before, asks⟩ := exists_request program settings asked
  obtain ⟨command, offset, mix, task, made'⟩ := request?_eq_some asks
  obtain ⟨verb, spoken, fallsBack⟩ := fallsBack_of_request made'
  refine ⟨moment, command, offset, mix, verb, reaches, before, task, spoken, fallsBack,
    fun unset => ?_⟩
  rw [← standIn_of_unset unset, ← lengthStandIn_of_unset unset]
  exact fallsBack

/-- A variable named like the literal, a sample without a pitch and a tone without a length. -/
def captured : Program := Program.read "set 1 2\nsample kick\ntone 440\n"

theorem omitted_arguments_fall_back_captured :
    ∃ request, untouched.requests ++ [] ++ [request] <+:
        (performProgram captured .standard untouched).2.requests ∧
      request.trigger.pitch? = some 2 ∧
      ∃ moment command offset mix verb, Reaches captured .standard (start captured untouched) moment ∧
        moment.task = .command command offset mix ∧ Verb.ofWord? command.verb = some verb ∧
        FallsBack .standard mix verb (.ofWords command.words.tail) moment.run.standIn
          moment.run.lengthStandIn request := by
  have pitches : ((performProgram captured .standard untouched).2.requests.map
      fun request => request.trigger.pitch?) = [some 2, none] := by decide +kernel
  obtain ⟨request, rest, made⟩ : ∃ request rest,
      (performProgram captured .standard untouched).2.requests = request :: rest := by
    refine List.exists_cons_of_ne_nil fun none => ?_
    rw [none] at pitches
    cases pitches
  have asked : untouched.requests ++ [] ++ [request] <+:
      (performProgram captured .standard untouched).2.requests := by
    rw [made]
    exact List.prefix_append [request] rest
  obtain ⟨moment, command, offset, mix, verb, reaches, -, task, spoken, fallsBack, -⟩ :=
    omitted_arguments_fall_back captured .standard asked
  rw [made, List.map_cons, List.cons.injEq] at pitches
  exact ⟨request, asked, pitches.1, moment, command, offset, mix, verb, reaches, task, spoken,
    fallsBack⟩

/-- The sample has a pitch and a timescale of two, and the tone lasts for two beats. -/
theorem literal_is_captured :
    captured.globals.map Command.words = [["set", "1", "2"], ["sample", "kick"], ["tone", "440"]] ∧
    ((Arguments.ofWords ["kick"]).Omits Verb.pitchKey 1 ∧
      (Arguments.ofWords ["kick"]).Omits Verb.timescaleKey 2 ∧
      (Arguments.ofWords ["440"]).Omits Verb.beatsKey 1) ∧
    ((performProgram captured .standard untouched).2.requests.map fun request =>
      (request.trigger.pitch?, request.trigger.timescale?, request.extent.duration request.start)) =
        [(some 2, some 2, 0), (none, none, 1)] ∧
    (performProgram captured .standard untouched).2.state.tempo.beat = 0.5 := by
  refine ⟨by decide +kernel, ⟨⟨?_, ?_⟩, ⟨?_, ?_⟩, ⟨?_, ?_⟩⟩, by decide +kernel, by decide +kernel⟩
  all_goals decide +kernel

end Machine

end Sequencer
