/-!
# Verbs

The closed table of verbs, with the least number of words each verb needs, itself included, and the
keys that it understands.
-/

namespace Sequencer

inductive Verb where
  | sample
  | tone
  | slide
  | wait
  | bpm
  | play
  | loop
  | set
  | effect
  deriving DecidableEq, Repr

namespace Verb

def ofWord? : String → Option Verb
  | "sample" => some .sample
  | "tone" => some .tone
  | "slide" => some .slide
  | "wait" => some .wait
  | "bpm" => some .bpm
  | "play" => some .play
  | "loop" => some .loop
  | "set" => some .set
  | "effect" => some .effect
  | _ => none

def leastArguments : Verb → Nat
  | .sample | .tone | .wait | .bpm | .play => 1
  | .loop | .set | .effect => 2
  | .slide => 3

def pitchKey : List String := ["pitch"]
def timescaleKey : List String := ["timescale"]
def beatsKey : List String := ["beats"]
def volumeKey : List String := ["volume"]
def panKey : List String := ["pan"]

/-- A waveform goes by either of two keys. -/
def waveformKeys : List String := ["wave", "waveform"]

/-- The keys that mean something to a verb. An effect takes every key as a parameter of its own. -/
def understands : Verb → String → Bool
  | .sample, key => (pitchKey ++ timescaleKey ++ volumeKey ++ panKey).contains key
  | .tone, key | .slide, key => (beatsKey ++ waveformKeys ++ volumeKey ++ panKey).contains key
  | .play, key | .loop, key => (volumeKey ++ panKey).contains key
  | .wait, _ | .bpm, _ | .set, _ => false
  | .effect, _ => true

end Verb

end Sequencer
