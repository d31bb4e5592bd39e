/-!
# Notes

A note name is a letter, an optional accidental and one octave digit. Notes are numbered in
semitones with middle C at sixty, and tuned in equal temperament around the A above it.
-/

namespace Sequencer.Note

/-- Semitones of a natural above the C below it. -/
def semitone? : Char → Option Int
  | 'C' => some 0
  | 'D' => some 2
  | 'E' => some 4
  | 'F' => some 5
  | 'G' => some 7
  | 'A' => some 9
  | 'B' => some 11
  | _ => none

/-- The semitones an accidental adds, and the octave after it. -/
def splitAccidental : List Char → Int × List Char
  | ['#', octave] => (1, [octave])
  | ['b', octave] => (-1, [octave])
  | rest => (0, rest)

def octave? : List Char → Option Int
  | [digit] => if digit.isDigit then some (digit.toNat - '0'.toNat : Nat) else none
  | _ => none

/-- The number of a note, between zero and one hundred and twenty-seven. -/
def number? (name : String) : Option Nat :=
  match name.toList with
  | [] => none
  | letter :: rest => do
    let natural ← semitone? letter
    let (accidental, remainder) := splitAccidental rest
    let octave ← octave? remainder
    let number := (octave + 1) * 12 + natural + accidental
    if 0 ≤ number ∧ number ≤ 127 then some number.toNat else none

/-- The frequency of the A above middle C, which names that are no notes sound too. -/
def concertPitch : Float := 440

def concertNumber : Int := 69

/-- Each octave of twelve semitones doubles the frequency. -/
def frequencyOfNumber (number : Nat) : Float :=
  concertPitch * Float.pow 2 (Float.ofInt (number - concertNumber) / 12)

def frequency (name : String) : Float :=
  ((number? name).map frequencyOfNumber).getD concertPitch

example : number? "C4" = some 60 ∧ number? "Eb3" = some 51 ∧ number? "G9" = some 127 := by
  decide +kernel
example : number? "A9" = none ∧ number? "C" = none ∧ number? "c4" = none ∧
    number? "C10" = none := by
  decide +kernel

end Sequencer.Note
