import Sequencer.Command.Arguments
import Sequencer.Command.Verb
import Sequencer.Text.Line

/-!
# Commands

A command is a row of words from one line. Its action is read off the words once; numbers in it stay
late-bound values. A verb with arguments that do not make an action is a fault, and a word that is
no verb is unknown: both are kept, and skipped when the command is performed.
-/

namespace Sequencer

/-- Adjustments that `play` and `loop` pass on to everything below them. -/
structure MixArguments where
  volume : Option Value
  pan : Option Value

structure SampleArguments where
  name : String
  pitch : Value
  timescale : Value
  volume : Option Value
  pan : Option Value

structure ToneArguments where
  pitch : Value
  beats : Value
  waveform : Option String
  volume : Option Value
  pan : Option Value

structure SlideArguments where
  source : Value
  target : Value
  beats : Value
  waveform : Option String
  volume : Option Value
  pan : Option Value

/-- What is missing from a command with a known verb. -/
inductive Fault where
  | sampleName
  | tonePitch
  | slidePitches
  | slideBeats
  | waitBeats
  | bpmValue
  | playBlocks
  | loopCount
  | loopBlocks
  | setArguments
  | effectArguments
  deriving DecidableEq, Repr

def Fault.message : Fault → String
  | .sampleName => "sample needs a name"
  | .tonePitch => "tone needs a note or frequency"
  | .slidePitches => "slide needs a start and end pitch"
  | .slideBeats => "slide needs a beat count"
  | .waitBeats => "wait needs a beat count"
  | .bpmValue => "bpm needs a value"
  | .playBlocks => "play needs at least one block"
  | .loopCount => "loop needs a count"
  | .loopBlocks => "loop needs at least one block"
  | .setArguments => "set needs a name and a value"
  | .effectArguments => "effect needs a type and a block"

inductive Action where
  | sample (arguments : SampleArguments)
  | tone (arguments : ToneArguments)
  | slide (arguments : SlideArguments)
  | wait (beats : Value)
  | bpm (value : Value)
  | play (blocks : List String) (mix : MixArguments)
  | loop (count : Value) (blocks : List String) (mix : MixArguments)
  | set (name : String) (value : Value)
  | effect (effect : Effect Value) (block : String)
  | invalid (fault : Fault)
  | unknown

namespace Action

open Verb

/-- The default of a pitch, a timescale and a length in beats. -/
def one : Value := .literal 1

def mixArguments (arguments : Arguments) : MixArguments :=
  { volume := arguments.keyedValue? volumeKey, pan := arguments.keyedValue? panKey }

def ofSample (arguments : Arguments) : Action :=
  match arguments.positional with
  | name :: _ =>
    .sample
      { name
        pitch := (arguments.value? pitchKey 1).getD one
        timescale := (arguments.value? timescaleKey 2).getD one
        volume := arguments.value? volumeKey 3
        pan := arguments.value? panKey 4 }
  | [] => .invalid .sampleName

def ofTone (arguments : Arguments) : Action :=
  match arguments.positional with
  | pitch :: _ =>
    .tone
      { pitch := .ofToken pitch
        beats := (arguments.value? beatsKey 1).getD one
        waveform := arguments.field? waveformKeys 2
        volume := arguments.value? volumeKey 3
        pan := arguments.value? panKey 4 }
  | [] => .invalid .tonePitch

def ofSlide (arguments : Arguments) : Action :=
  match arguments.positional, arguments.value? beatsKey 2 with
  | source :: target :: _, some beats =>
    .slide
      { source := .ofToken source
        target := .ofToken target
        beats
        waveform := arguments.field? waveformKeys 3
        volume := arguments.value? volumeKey 4
        pan := arguments.value? panKey 5 }
  | _ :: _ :: _, none => .invalid .slideBeats
  | _, _ => .invalid .slidePitches

def ofPlay (arguments : Arguments) : Action :=
  match arguments.positional with
  | [] => .invalid .playBlocks
  | blocks => .play blocks (mixArguments arguments)

def ofLoop (arguments : Arguments) : Action :=
  match arguments.positional with
  | [] => .invalid .loopCount
  | [_] => .invalid .loopBlocks
  | count :: blocks => .loop (.ofToken count) blocks (mixArguments arguments)

def ofSet (arguments : Arguments) : Action :=
  match arguments.positional with
  | name :: value :: _ => .set name (.ofToken value)
  | _ => .invalid .setArguments

/-- Positional parameters come before keyed ones, whatever their order in the line. -/
def ofEffect (arguments : Arguments) : Action :=
  match arguments.positional with
  | kind :: block :: rest =>
    let positional := rest.map fun word => { key := none, value := Value.ofToken word }
    let keyed := arguments.keyed.map fun (key, word) => { key := some key, value := .ofToken word }
    .effect { kind, parameters := positional ++ keyed } block
  | _ => .invalid .effectArguments

def ofArguments (arguments : Arguments) : Verb → Action
  | .sample => ofSample arguments
  | .tone => ofTone arguments
  | .slide => ofSlide arguments
  | .wait => ((arguments.value? [] 0).map Action.wait).getD (.invalid .waitBeats)
  | .bpm => ((arguments.value? [] 0).map Action.bpm).getD (.invalid .bpmValue)
  | .play => ofPlay arguments
  | .loop => ofLoop arguments
  | .set => ofSet arguments
  | .effect => ofEffect arguments

/-- The word that a command starts with, empty for no words at all. -/
def verbOfWords (words : List String) : String := words.headD ""

def ofWords (words : List String) : Action :=
  match Verb.ofWord? (verbOfWords words) with
  | some verb => ofArguments (.ofWords words.tail) verb
  | none => .unknown

/-- The keys in a row of words that its verb does not understand. -/
def ignoredKeys (words : List String) : List String :=
  match Verb.ofWord? (verbOfWords words) with
  | some verb => (Arguments.ofWords words.tail).keyed.map Prod.fst |>.filter (!verb.understands ·)
  | none => []

end Action

/-- The words of a line, with what they say. Line numbers start at one. -/
structure Command where
  line : Nat
  words : List String
  action : Action
  ignoredKeys : List String
  action_eq : action = Action.ofWords words
  ignoredKeys_eq : ignoredKeys = Action.ignoredKeys words

namespace Command

def ofWords (line : Nat) (words : List String) : Command :=
  { line, words, action := Action.ofWords words, ignoredKeys := Action.ignoredKeys words
    action_eq := rfl, ignoredKeys_eq := rfl }

def ofText (line : Nat) (text : List Char) : Command :=
  ofWords line ((Text.words text).map String.ofList)

def verb (command : Command) : String := Action.verbOfWords command.words

/-- The words with single spaces between them. -/
def text (command : Command) : String := Text.joinWords command.words

/-- Commands are the same when their words are, wherever they stand. -/
def same (left right : Command) : Bool := left.words == right.words

end Command

end Sequencer
