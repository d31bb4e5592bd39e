import Sequencer.Command.Basic

/-!
# Programs

A program has global commands, and definitions of two kinds: blocks and custom samples. Each kind
has a namespace of its own, in which a name stands once, at the place where it was first opened.
-/

namespace Sequencer

inductive Kind where
  | block
  | customSample
  deriving DecidableEq, Repr

def Kind.text : Kind → String
  | .block => "block"
  | .customSample => "custom sample"

structure Definition where
  name : String
  commands : List Command
  effects : List (Effect Float)

/-- The same name, words and effects. -/
def Definition.same (left right : Definition) : Bool :=
  left.name == right.name && left.commands.isEqv right.commands Command.same &&
    left.effects.isEqv right.effects Effect.same

/-- What a program's markers had wrong, as its reader settled it. -/
inductive Irregularity where
  | autoClosed (line : Nat) (name : String) (kind : Kind)
  | strayEnd (line : Nat)
  | mismatchedEnd (line : Nat) (name : String)
  | unterminated (name : String) (kind : Kind)
  | unreadableEffect (line : Nat) (text : String)
  | redeclared (line : Nat) (name : String) (kind : Kind)
  deriving DecidableEq, Repr

def Irregularity.message : Irregularity → String
  | .autoClosed line name kind =>
    s!"[line {line}] {kind.text} '{name}' auto-closed by a new opening marker"
  | .strayEnd line => s!"[line {line}] end marker outside any block ignored"
  | .mismatchedEnd line name => s!"[line {line}] mismatched end marker closes '{name}'"
  | .unterminated name kind => s!"{kind.text} '{name}' is missing its end marker"
  | .unreadableEffect line text => s!"[line {line}] unreadable effect annotation '{text}'"
  | .redeclared line name kind =>
    s!"[line {line}] {kind.text} '{name}' redeclared; last definition wins"

/-! ## Definitions by name -/

namespace Definitions

def find? (definitions : List Definition) (name : String) : Option Definition :=
  definitions.find? fun definition => definition.name == name

def declares (definitions : List Definition) (name : String) : Bool :=
  definitions.any fun definition => definition.name == name

/-- A definition under a name that stands already takes the place of the old one. -/
def declare (definition : Definition) (definitions : List Definition) : List Definition :=
  if declares definitions definition.name then
    definitions.map fun old => if old.name == definition.name then definition else old
  else definitions ++ [definition]

/-- The same names with the same definitions, in any order. -/
def same (left right : List Definition) : Bool :=
  left.length == right.length && left.all fun definition =>
    match find? right definition.name with
    | some other => definition.same other
    | none => false

end Definitions

structure Program where
  globals : List Command
  blocks : List Definition
  customSamples : List Definition
  irregularities : List Irregularity

namespace Program

def empty : Program := { globals := [], blocks := [], customSamples := [], irregularities := [] }

def definitions (program : Program) : Kind → List Definition
  | .block => program.blocks
  | .customSample => program.customSamples

def block? (program : Program) (name : String) : Option Definition :=
  Definitions.find? program.blocks name

def customSample? (program : Program) (name : String) : Option Definition :=
  Definitions.find? program.customSamples name

/-- Globals, then custom samples, then blocks, each as they stand. -/
def commands (program : Program) : List Command :=
  program.globals ++ program.customSamples.flatMap Definition.commands ++
    program.blocks.flatMap Definition.commands

/-- Equal globals and equal definitions. Line numbers, the order of definitions and irregularities
take no part. -/
def same (left right : Program) : Bool :=
  left.globals.isEqv right.globals Command.same && Definitions.same left.blocks right.blocks &&
    Definitions.same left.customSamples right.customSamples

end Program

end Sequencer
