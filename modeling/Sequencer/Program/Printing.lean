import Sequencer.Program.Marker

/-!
# The canonical form

A program is written as paragraphs with a blank line between them: the globals, then the custom
samples, then the blocks. Commands in a definition are indented, words stand one space apart, and
comments are gone.
-/

namespace Sequencer.Program

def marker (kind : Kind) (name : String) : String :=
  String.ofList (kind.opener :: name.toList ++ [kind.closer])

def header (kind : Kind) (definition : Definition) : String :=
  " ".intercalate (marker kind definition.name :: definition.effects.map Effect.text)

def indented (command : Command) : String := "  " ++ command.text

def paragraph (kind : Kind) (definition : Definition) : List String :=
  header kind definition :: definition.commands.map indented ++ [marker kind "end"]

/-- The paragraphs in order. Without global commands there is no first one. -/
def paragraphs (program : Program) : List (List String) :=
  (if program.globals.isEmpty then [] else [program.globals.map Command.text]) ++
    program.customSamples.map (paragraph .customSample) ++ program.blocks.map (paragraph .block)

def print (program : Program) : String :=
  Text.unlines ([""].intercalate program.paragraphs)

end Sequencer.Program
