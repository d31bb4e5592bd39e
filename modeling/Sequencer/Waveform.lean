/-!
# Waveforms

The shapes of the oscillator behind tones and slides.
-/

namespace Sequencer

inductive Waveform where
  | sine
  | square
  | sawtooth
  | triangle
  deriving DecidableEq, Repr, Inhabited

namespace Waveform

def name : Waveform → String
  | .sine => "sine"
  | .square => "square"
  | .sawtooth => "sawtooth"
  | .triangle => "triangle"

/-- Every waveform goes by its name, and the sawtooth by a short one too. -/
def ofName? : String → Option Waveform
  | "sine" => some .sine
  | "square" => some .square
  | "sawtooth" | "saw" => some .sawtooth
  | "triangle" => some .triangle
  | _ => none

end Waveform

end Sequencer
