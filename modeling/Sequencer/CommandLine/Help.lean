import Sequencer.CommandLine.Arguments
import Sequencer.Text.Line

/-!
# Help

The texts that the help and version switches print.
-/

namespace Sequencer.CommandLine

def programName : String := "blockbeat"

def version : String := programName ++ " 0.1.0\n"

def Task.word : Task → String
  | .check => "check"
  | .schedule => "schedule"
  | .play => "play"
  | .format => "fmt"

def Task.about : Task → String
  | .check => "Report parse warnings and validation errors"
  | .schedule => "Print the computed event schedule"
  | .play => "Play the schedule on the console in real time (Ctrl-C stops)"
  | .format => "Print the program in canonical form"

/-- Two columns, the first as wide as its widest entry. -/
def columns (rows : List (String × String)) : List String :=
  let width := rows.foldl (fun width row => max width row.1.length) 0
  rows.map fun (left, right) =>
    "  " ++ left ++ String.ofList (List.replicate (width - left.length) ' ') ++ "  " ++ right

def ownSwitches : Option Task → List (String × String)
  | some .schedule =>
    [("    --format <FORMAT>", "[default: table] [possible values: table, yaml]")]
  | some .format => [("-w, --write", "Rewrite the file in place")]
  | _ => []

def versionSwitch : Option Task → List (String × String)
  | none => [("-V, --version", "Print version")]
  | some _ => []

/-- A task's own switches stand among the shared ones, each at its place among its peers. -/
def switches (task : Option Task) : List String :=
  "Options:" :: columns
    ([("    --config <PATH>", "Config file (defaults to ~/.blockbeat/config.yaml)")] ++
      ownSwitches task ++
      [("    --bpm <BPM>", "Override the starting tempo"), ("-h, --help", "Print help")] ++
      versionSwitch task)

def helpAbout : String := "Print this message or the help of the given subcommand(s)"

def tasks : List String :=
  "Commands:" :: columns
    ([Task.check, .schedule, .play, .format].map (fun task => (task.word, task.about)) ++
      [("help", helpAbout)])

def helpLines : Topic → List String
  | .program =>
    ["Parse, validate, and schedule block-structured music programs", "",
      s!"Usage: {programName} [OPTIONS] <COMMAND>", ""] ++ tasks ++ [""] ++ switches none
  | .task given =>
    [given.about, "", s!"Usage: {programName} {given.word} [OPTIONS] <FILE>", "", "Arguments:",
      "  <FILE>  ", ""] ++ switches (some given)
  | .help =>
    [helpAbout, "", s!"Usage: {programName} help [COMMAND]...", "", "Arguments:"] ++
      columns [("[COMMAND]...", "Print help for the subcommand(s)")]

def help (topic : Topic) : String := Text.unlines (helpLines topic)

end Sequencer.CommandLine
