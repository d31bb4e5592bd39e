import Sequencer.Yaml.Glyph
import Sequencer.Yaml.Token.Basic

/-!
# Outlines

What is open while a text is cut into tokens: the block collections with their columns, the flow
collections, and for each of these the place where a key may turn out to have started. A colon makes
a key of what stands there, and puts the tokens for it in front.
-/

namespace Sequencer.Yaml

/-- A place that a colon further on the line may turn into the start of a key. -/
structure Candidate where
  /-- How many tokens stand before it. -/
  index : Nat
  line : Nat
  column : Nat
  /-- Whether nothing but a key can start there. -/
  required : Bool

/-- A key ends on its own line, and is no longer than 1024 characters. -/
def Candidate.isStale (candidate : Candidate) (glyph : Glyph) : Bool :=
  candidate.line < glyph.line || candidate.column + 1024 < glyph.column

structure Outline where
  tokens : Array Token
  /-- The columns of the open block collections, the innermost first. -/
  columns : List Nat
  candidate : Option Candidate
  /-- The candidates outside of the open flow collections, the innermost first. -/
  around : List (Option Candidate)
  /-- Whether a key may start at the next token. -/
  keyAllowed : Bool

namespace Outline

def empty : Outline :=
  { tokens := #[], columns := [], candidate := none, around := [], keyAllowed := true }

def inFlow (outline : Outline) : Bool := !outline.around.isEmpty

/-- The least column in which a node within the innermost block collection can go on. -/
def margin (outline : Outline) : Nat :=
  match outline.columns with
  | [] => 0
  | column :: _ => column + 1

def push (outline : Outline) (token : Token) : Outline :=
  { outline with tokens := outline.tokens.push token }

def insert (outline : Outline) (index : Nat) (token : Token) : Outline :=
  { outline with tokens := outline.tokens.insertIdxIfInBounds index token }

def allow (outline : Outline) (keyAllowed : Bool) : Outline := { outline with keyAllowed }

/-! ## Candidates -/

/-- Gives up the candidate. Where a key is required, that is a fault. -/
def forget? (outline : Outline) : Option Outline :=
  if outline.candidate.any Candidate.required then none
  else some { outline with candidate := none }

def forgetStale? (outline : Outline) (glyph : Glyph) : Option Outline :=
  if outline.candidate.any (·.isStale glyph) then outline.forget? else some outline

/-- Takes the place of a glyph for a candidate, if a key may start there. -/
def propose? (outline : Outline) (glyph : Glyph) : Option Outline :=
  if outline.keyAllowed then
    outline.forget?.map fun outline =>
      { outline with
        candidate := some
          { index := outline.tokens.size
            line := glyph.line
            column := glyph.column
            required := !outline.inFlow && outline.columns.head? == some glyph.column } }
  else some outline

/-! ## Collections -/

/-- Closes the block collections that start right of a column. -/
def closeBeyond (outline : Outline) (column : Nat) : Outline :=
  if outline.inFlow then outline
  else
    let closed := outline.columns.takeWhile (column < ·)
    { outline with
      tokens := outline.tokens ++ closed.map fun _ => Token.blockEnd
      columns := outline.columns.dropWhile (column < ·) }

/-- Closes all block collections. -/
def closeAll (outline : Outline) : Outline :=
  if outline.inFlow then outline
  else
    { outline with
      tokens := outline.tokens ++ outline.columns.map fun _ => Token.blockEnd
      columns := [] }

/-- Opens a block collection in a column, unless one is open there. -/
def openBlock (outline : Outline) (column index : Nat) (token : Token) : Outline :=
  if outline.inFlow || outline.columns.head?.any (column ≤ ·) then outline
  else { outline.insert index token with columns := column :: outline.columns }

def openFlow (outline : Outline) (token : Token) : Outline :=
  { outline.push token with
    candidate := none
    around := outline.candidate :: outline.around
    keyAllowed := true }

/-- Closes a flow collection, if one is open. -/
def closeFlow? (outline : Outline) (token : Token) : Option Outline :=
  match outline.around with
  | [] => none
  | candidate :: around => some { outline.push token with candidate, around, keyAllowed := false }

/-! ## Marks of entries -/

/-- The mark of an item or an explicit key, which a block has where a key may start. -/
def mark? (outline : Outline) (column : Nat) (opening token : Token) : Option Outline :=
  if outline.inFlow then
    outline.forget?.map fun outline => (outline.push token).allow false
  else if outline.keyAllowed then
    (outline.openBlock column outline.tokens.size opening).forget?.map fun outline =>
      (outline.push token).allow true
  else none

/-- The colon behind a key. The candidate becomes the key, if there is one. -/
def colon? (outline : Outline) (column : Nat) : Option Outline :=
  match outline.candidate with
  | some candidate =>
    let marked := (outline.insert candidate.index .key).openBlock candidate.column candidate.index
      .mappingStart
    some { marked.push .value with candidate := none, keyAllowed := false }
  | none =>
    if outline.inFlow then some ((outline.push .value).allow false)
    else if outline.keyAllowed then
      some (((outline.openBlock column outline.tokens.size .mappingStart).push .value).allow true)
    else none

end Outline

end Sequencer.Yaml
