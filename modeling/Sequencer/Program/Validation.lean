import Sequencer.Program.Basic

/-!
# Validation

Advice about commands before any run: the verb, the number of words and the form of some numbers are
checked against the table of verbs.
-/

namespace Sequencer

inductive Diagnostic where
  | unknownCommand (verb : String)
  | tooFewArguments (verb : String) (least actual : Nat)
  | waitNotNumber (word : String)
  | bpmNotPositive (bpm : Float)
  | bpmNotNumber (word : String)
  | loopNotInteger (word : String)

namespace Diagnostic

def message : Diagnostic → String
  | .unknownCommand verb => s!"unknown command '{verb}'"
  | .tooFewArguments verb least actual =>
    s!"'{verb}' expects at least {least} argument(s), got {actual}"
  | .waitNotNumber word => s!"'wait' duration must be a number, got '{word}'"
  | .bpmNotPositive bpm => s!"'bpm' must be positive, got {Number.text bpm}"
  | .bpmNotNumber word => s!"'bpm' must be a number, got '{word}'"
  | .loopNotInteger word => s!"'loop' count must be an integer, got '{word}'"

/-- What is wrong with the first argument of a verb. -/
def ofArgument : Verb → String → Option Diagnostic
  | .wait, word => if (Number.readLiteral? word).isNone then some (.waitNotNumber word) else none
  | .bpm, word =>
    match Number.readLiteral? word with
    | some bpm => if 0 < bpm then none else some (.bpmNotPositive bpm)
    | none => some (.bpmNotNumber word)
  | .loop, word => if (Number.readInteger? word).isNone then some (.loopNotInteger word) else none
  | _, _ => none

/-- What is wrong with a row of words, if anything is. No words are in order. -/
def ofWords? : List String → Option Diagnostic
  | [] => none
  | verb :: arguments =>
    match Verb.ofWord? verb with
    | none => some (.unknownCommand verb)
    | some known =>
      if arguments.length < known.leastArguments then
        some (.tooFewArguments verb known.leastArguments arguments.length)
      else arguments.head?.bind (ofArgument known)

def ofText? (text : String) : Option Diagnostic :=
  ofWords? ((Text.words text.toList).map String.ofList)

end Diagnostic

namespace Program

/-- The diagnostics of a program's commands, each with the line of its command. -/
def diagnostics (program : Program) : List (Nat × Diagnostic) :=
  program.commands.filterMap fun command =>
    (Diagnostic.ofWords? command.words).map fun diagnostic => (command.line, diagnostic)

def isValid (program : Program) : Bool := program.diagnostics.isEmpty

def diagnosticMessages (program : Program) : List String :=
  program.diagnostics.map fun (line, diagnostic) => s!"line {line}: {diagnostic.message}"

end Program

end Sequencer
