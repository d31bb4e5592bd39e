import Sequencer.Session
import Sequencer.Yaml.Writing

/-!
# Schedules

What a run has recorded, written out as a table or as a YAML document.
-/

namespace Sequencer

namespace Event

open Yaml

def triggerLines (indent : Nat) : Trigger Float → List String
  | .sample name pitch timescale =>
    [entry indent "type" "sample", entry indent "name" (scalar (indent + 2) name),
     entry indent "pitch" (number pitch), entry indent "timescale" (number timescale)]
  | .tone frequency waveform =>
    [entry indent "type" "tone", entry indent "frequency" (number frequency),
     entry indent "waveform" waveform.name]
  | .slide source target waveform =>
    [entry indent "type" "slide", entry indent "from_hz" (number source),
     entry indent "to_hz" (number target), entry indent "waveform" waveform.name]

/-- The entries of an event as the items of a mapping. -/
def entryLines (indent : Nat) (event : Event Float) : List String :=
  [entry indent "handle" (toString event.handle), entry indent "start" (number event.start),
   entry indent "duration" (number event.duration), spaces indent ++ "trigger:"] ++
    triggerLines (indent + 2) event.trigger ++
    [entry indent "volume" (number event.volume), entry indent "pan" (number event.pan)]

def print (event : Event Float) : String :=
  joinLines (event.entryLines 0)

end Event

namespace Schedule

/-- Puts the dash of a list item in front of the first of its lines, indented by two. -/
def asItem : List String → List String
  | [] => []
  | first :: rest => ("- " ++ String.ofList (first.toList.drop 2)) :: rest

/-- A key with a list below it, or with a pair of brackets for an empty one. -/
def listLines (key : String) (items : List (List String)) : List String :=
  if items.isEmpty then [key ++ ": []"] else (key ++ ":") :: items.flatten

def document (report : Report Float) (timeline : Timeline Float) : String :=
  Yaml.joinLines <|
    [Yaml.entry 0 "state" report.phase.name,
      Yaml.entry 0 "duration" (Yaml.number report.duration)] ++
    listLines "events" (timeline.events.toList.map fun event => asItem (event.entryLines 2)) ++
    listLines "warnings"
      (report.warnings.toList.map fun warning => ["- " ++ Yaml.scalar 2 warning.message])

def heading : String :=
  Number.padStart 10 "start" ++ "  " ++ Number.padStart 8 "length" ++ "  event"

def summary (report : Report Float) : String :=
  s!"{report.dispatched} event(s), {secondsText report.duration}, {report.warnings.size} warning(s)"

def table (report : Report Float) (timeline : Timeline Float) : String :=
  Text.unlines <|
    heading :: timeline.events.toList.map Event.text ++
      timeline.effects.toList.map (fun (block, effect) => s!"effect {effect.text} on [{block}]") ++
      [summary report]

end Schedule

end Sequencer
