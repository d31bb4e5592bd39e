import Sequencer.Tempo
import Sequencer.Waveform

/-!
# Settings

What a run takes for granted where the score says nothing, and the limits within which it stays.
-/

namespace Sequencer

structure Settings where
  defaultBpm : Float
  defaultWaveform : Waveform
  defaultVolume : Float
  /-- How many definitions may be invoked one inside another. -/
  maxDepth : Nat
  /-- How many definitions may be invoked in one run. -/
  maxInvocations : Nat
  logLevel : String

namespace Settings

def standard : Settings :=
  { defaultBpm := Tempo.standardBpm
    defaultWaveform := .sine
    defaultVolume := 1
    maxDepth := 64
    maxInvocations := 1000000
    logLevel := "warn" }

end Settings

end Sequencer
