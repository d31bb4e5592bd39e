import Sequencer.Program.Header
import Sequencer.Program.Marker

/-!
# Reading a program

Rows are taken one after another. At most one definition is open at a time: an opening marker closes
the definition before it, and the end of the text closes the last one. Reading never fails; what is
out of order is settled here and noted as an irregularity.
-/

namespace Sequencer.Program

/-- A definition that is still open. -/
structure Opened where
  kind : Kind
  name : String
  effects : List (Effect Float)
  commands : Array Command

def Opened.definition (opened : Opened) : Definition :=
  { name := opened.name, commands := opened.commands.toList, effects := opened.effects }

/-- What has been read so far. -/
structure Draft where
  globals : Array Command
  blocks : List Definition
  customSamples : List Definition
  irregularities : Array Irregularity
  opened : Option Opened

namespace Draft

def empty : Draft :=
  { globals := #[], blocks := [], customSamples := [], irregularities := #[], opened := none }

def note (draft : Draft) (irregularity : Irregularity) : Draft :=
  { draft with irregularities := draft.irregularities.push irregularity }

def definitions (draft : Draft) : Kind → List Definition
  | .block => draft.blocks
  | .customSample => draft.customSamples

def define (draft : Draft) (kind : Kind) (definition : Definition) : Draft :=
  match kind with
  | .block => { draft with blocks := Definitions.declare definition draft.blocks }
  | .customSample =>
    { draft with customSamples := Definitions.declare definition draft.customSamples }

/-- Declares a definition that a line has closed. -/
def close (draft : Draft) (line : Nat) (opened : Opened) : Draft :=
  let closed := { draft with opened := none }
  let known := Definitions.declares (draft.definitions opened.kind) opened.name
  let declared := closed.define opened.kind opened.definition
  if known then declared.note (.redeclared line opened.name opened.kind) else declared

/-- Closes the open definition, if there is one, after a note about it. -/
def closeWith (draft : Draft) (line : Nat) (notice : Opened → Option Irregularity) : Draft :=
  match draft.opened with
  | none => draft
  | some opened =>
    match notice opened with
    | some irregularity => (draft.note irregularity).close line opened
    | none => draft.close line opened

def openDefinition (draft : Draft) (line : Nat) (kind : Kind) (name : String)
    (written : List Char) : Draft :=
  let ready := draft.closeWith line fun opened => some (.autoClosed line opened.name opened.kind)
  match Header.read written with
  | .ok effects => { ready with opened := some { kind, name, effects, commands := #[] } }
  | .error rest =>
    { ready.note (.unreadableEffect line rest) with
      opened := some { kind, name, effects := [], commands := #[] } }

def endDefinition (draft : Draft) (line : Nat) (kind : Kind) : Draft :=
  match draft.opened with
  | none => draft.note (.strayEnd line)
  | some _ =>
    draft.closeWith line fun opened =>
      if opened.kind = kind then none else some (.mismatchedEnd line opened.name)

/-- A command belongs to the open definition, and to the globals while none is open. -/
def addCommand (draft : Draft) (command : Command) : Draft :=
  match draft.opened with
  | none => { draft with globals := draft.globals.push command }
  | some opened =>
    { draft with opened := some { opened with commands := opened.commands.push command } }

def addRow (draft : Draft) (line : Nat) : Row → Draft
  | .opening kind name effects => draft.openDefinition line kind name effects
  | .ending kind => draft.endDefinition line kind
  | .command text => draft.addCommand (.ofText line text)

def addLine (draft : Draft) (line : Nat × List Char) : Draft :=
  match Row.ofLine? line.2 with
  | some row => draft.addRow line.1 row
  | none => draft

/-- The end of the text closes what is open, at its last line. -/
def finish (draft : Draft) (lastLine : Nat) : Program :=
  let closed := draft.closeWith lastLine fun opened => some (.unterminated opened.name opened.kind)
  { globals := closed.globals.toList
    blocks := closed.blocks
    customSamples := closed.customSamples
    irregularities := closed.irregularities.toList }

end Draft

def read (source : String) : Program :=
  let lines := Text.lines source.toList
  ((Text.numbered lines).foldl Draft.addLine Draft.empty).finish lines.length

end Sequencer.Program
