import Sequencer.Yaml.Scalar.Block
import Sequencer.Yaml.Scalar.Plain
import Sequencer.Yaml.Scalar.Quoted
import Sequencer.Yaml.Token.Outline
import Sequencer.Yaml.Token.Property

/-!
# Tokens of a text

A text is cut into tokens from front to back. Between them stand blanks, comments and line breaks.
-/

namespace Sequencer.Yaml

/-- Passes over what stands between tokens. Behind a line break a key may start, outside of flow
collections; a tab must not stand where one may. A byte order mark may start a line. -/
def skipSpacing (inFlow inComment keyAllowed : Bool) : List Glyph → Bool × List Glyph
  | [] => (keyAllowed, [])
  | next :: rest =>
    if next.isBreak then skipSpacing inFlow false (keyAllowed || !inFlow) rest
    else if inComment || next.character == ' ' ||
        (next.character == '\t' && (inFlow || !keyAllowed)) ||
        (isOrderMark next.character && next.column == 0) then
      skipSpacing inFlow inComment keyAllowed rest
    else if next.character == '#' then skipSpacing inFlow true keyAllowed rest
    else (keyAllowed, next :: rest)

/-- Whether a plain scalar may start here. -/
def startsPlain (inFlow : Bool) (first : Glyph) (rest : List Glyph) : Bool :=
  match first.character with
  | '-' => !endsHere rest
  | '?' | ':' => !inFlow && !endsHere rest
  | character => !isSpacing character && !",[]\x7b\x7d#&*!|>'\"%@`".toList.contains character

namespace Outline

/-! ## One token -/

/-- A mark of three characters between documents. -/
def documentMark? (outline : Outline) (token : Token) (rest : List Glyph) :
    Option (Outline × List Glyph) :=
  outline.closeAll.forget?.map fun outline => ((outline.push token).allow false, rest.drop 2)

def directive? (outline : Outline) (rest : List Glyph) : Option (Outline × List Glyph) := do
  let outline ← outline.closeAll.forget?
  let (token, after) ← readDirective? rest
  some ((outline.push token).allow false, after)

/-- An alias or an anchor. -/
def named? (outline : Outline) (token : String → Token) (first : Glyph) (rest : List Glyph) :
    Option (Outline × List Glyph) := do
  let outline ← outline.propose? first
  let (name, after) ← readAnchorName? rest
  some ((outline.push (token name)).allow false, after)

def tag? (outline : Outline) (first : Glyph) (rest : List Glyph) :
    Option (Outline × List Glyph) := do
  let outline ← outline.propose? first
  let (token, after) ← readTag? outline.inFlow rest
  some ((outline.push token).allow false, after)

def quoted? (outline : Outline) (quote : Quote) (first : Glyph) (rest : List Glyph) :
    Option (Outline × List Glyph) := do
  let outline ← outline.propose? first
  let (text, after) ← readQuoted? quote rest
  some ((outline.push (.scalar (String.ofList text) .quoted)).allow false, after)

/-- A plain scalar. One that a line break has ended may be followed by a key. -/
def plain? (outline : Outline) (first : Glyph) (rest : List Glyph) :
    Option (Outline × List Glyph) := do
  let outline ← outline.propose? first
  let found ← readPlain? outline.inFlow outline.margin (first :: rest)
  some ((outline.push (.scalar (String.ofList found.text) .plain)).allow found.broken, found.rest)

/-- A literal or folded scalar. -/
def block? (outline : Outline) (style : Style) (rest : List Glyph) :
    Option (Outline × List Glyph) := do
  let outline ← outline.forget?
  let (text, after) ← readBlock? (style == .folded) outline.margin rest
  some ((outline.push (.scalar (String.ofList text) style)).allow true, after)

/-- The token that starts with the first character, which is no blank and no break. -/
def next? (outline : Outline) (first : Glyph) (rest : List Glyph) :
    Option (Outline × List Glyph) :=
  let inFlow := outline.inFlow
  if first.column == 0 && first.character == '%' then outline.directive? rest
  else if hasMark "---" (first :: rest) then outline.documentMark? .documentStart rest
  else if hasMark "..." (first :: rest) then outline.documentMark? .documentEnd rest
  else if startsPlain inFlow first rest then outline.plain? first rest
  else
    match first.character with
    | '[' => (outline.propose? first).map fun outline => (outline.openFlow .sequenceOpens, rest)
    | '\x7b' => (outline.propose? first).map fun outline => (outline.openFlow .mappingOpens, rest)
    | ']' => (outline.forget?.bind (·.closeFlow? .sequenceCloses)).map (·, rest)
    | '\x7d' => (outline.forget?.bind (·.closeFlow? .mappingCloses)).map (·, rest)
    | ',' => outline.forget?.map fun outline => ((outline.push .comma).allow true, rest)
    | '-' => (outline.mark? first.column .sequenceStart .item).map (·, rest)
    | '?' => (outline.mark? first.column .mappingStart .key).map (·, rest)
    | ':' => (outline.colon? first.column).map (·, rest)
    | '*' => outline.named? .alias first rest
    | '&' => outline.named? .anchor first rest
    | '!' => outline.tag? first rest
    | '|' => if inFlow then none else outline.block? .literal rest
    | '>' => if inFlow then none else outline.block? .folded rest
    | '\'' => outline.quoted? .single first rest
    | '"' => outline.quoted? .double first rest
    | _ => none

/-! ## All tokens -/

/-- Reads one token after another, as many as there are characters at most. -/
def read? : Nat → Outline → List Glyph → Option Outline
  | 0, _, _ => none
  | fuel + 1, outline, glyphs =>
    let (keyAllowed, front) := skipSpacing outline.inFlow false outline.keyAllowed glyphs
    match front with
    | [] => (outline.allow keyAllowed).closeAll.forget?
    | first :: rest => do
      let outline ← (outline.allow keyAllowed).forgetStale? first
      let (outline, after) ← (outline.closeBeyond first.column).next? first rest
      outline.read? fuel after

end Outline

/-- The tokens of a text. -/
def Token.ofText? (text : List Char) : Option (List Token) :=
  if text.all isAllowed then
    let glyphs := Glyph.place (unifyBreaks text)
    (Outline.empty.read? (glyphs.length + 1) glyphs).map fun outline => outline.tokens.toList
  else none

end Sequencer.Yaml
