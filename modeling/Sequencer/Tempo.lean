import Sequencer.Arithmetic

/-!
# Tempo

Beats per minute, and the seconds that one beat lasts. Only a positive finite number is a tempo.
-/

namespace Sequencer

structure Tempo (α : Type) where
  bpm : α
  beat : α
  deriving DecidableEq

namespace Tempo

variable {α : Type} [Arithmetic α]

open Arithmetic

def secondsPerMinute : Float := 60

def standardBpm : Float := 120

def isTempo (bpm : α) : Bool := isFinite bpm && 0 < bpm

def ofBpm (bpm : α) : Tempo α := { bpm, beat := ofDouble secondsPerMinute / bpm }

def standard : Tempo α := ofBpm (ofDouble standardBpm)

/-- The tempo after a change, if the new one is a tempo. -/
def change? (bpm : α) : Option (Tempo α) := if isTempo bpm then some (ofBpm bpm) else none

/-- A tempo to start with, the standard one where the wish is none. -/
def start (bpm : α) : Tempo α := (change? bpm).getD standard

def seconds (tempo : Tempo α) (beats : α) : α := beats * tempo.beat

end Tempo

end Sequencer
