import Sequencer.Number.Base
import Sequencer.Number.Decimal
import Sequencer.Yaml.Glyph
import Sequencer.Yaml.Token.Basic

/-!
# Properties and directives

Anchors and tags stand in front of a node, directives in front of a document. Each is a name or two
behind a mark of its own.
-/

namespace Sequencer.Yaml

/-! ## Names -/

/-- The name at the front, which may be empty, and what follows it. -/
def splitName (glyphs : List Glyph) : List Char × List Glyph :=
  let isNamed := fun glyph => isNameCharacter glyph.character
  (charactersOf (glyphs.takeWhile isNamed), glyphs.dropWhile isNamed)

/-- The name of an anchor. A blank or some punctuation has to follow it. -/
def readAnchorName? (glyphs : List Glyph) : Option (String × List Glyph) :=
  let (name, rest) := splitName glyphs
  if name.isEmpty || !(endsHere rest || nextIs ("?:,]\x7d%@`".toList.contains ·) rest) then none
  else some (String.ofList name, rest)

/-! ## Tags -/

/-- Characters of a tag. Between angle brackets, commas and square brackets count too. -/
def isTagCharacter (bracketed : Bool) (character : Char) : Bool :=
  isNameCharacter character || ";/?:@&=+$.!~*'()".toList.contains character ||
    (bracketed && ",[]".toList.contains character)

/-- How many octets follow the first one of a character. -/
def followingOctets? (octet : Nat) : Option Nat :=
  if octet < 0x80 then some 0
  else if octet < 0xC0 then none
  else if octet < 0xE0 then some 1
  else if octet < 0xF0 then some 2
  else if octet < 0xF8 then some 3
  else none

/-- How many octets are due behind this one, where `due` were due before it. -/
def dueAfter? (due octet : Nat) : Option Nat :=
  if due = 0 then followingOctets? octet
  else if 0x80 ≤ octet ∧ octet < 0xC0 then some (due - 1)
  else none

/-- The characters of a tag, `due` octets of the current one being still to come. A percent sign and
two digits stand for one octet. -/
def readTagText? (bracketed : Bool) (due : Nat) :
    List Glyph → Option (List Char × List Glyph)
  | [] => if due = 0 then some ([], []) else none
  | next :: rest =>
    if next.character == '%' then
      match rest with
      | high :: low :: others =>
        match Number.readBase? 16 [high.character, low.character] with
        | none => none
        | some octet =>
          match dueAfter? due octet with
          | none => none
          | some due =>
            (readTagText? bracketed due others).map fun (text, after) =>
              (Char.ofNat octet :: text, after)
      | _ => none
    else if due != 0 then none
    else if isTagCharacter bracketed next.character then
      (readTagText? bracketed 0 rest).map fun (text, after) => (next.character :: text, after)
    else some ([], next :: rest)

/-- A tag text that is not empty. -/
def readTagName? (bracketed : Bool) (glyphs : List Glyph) : Option (String × List Glyph) :=
  match readTagText? bracketed 0 glyphs with
  | some (first :: text, after) => some (String.ofList (first :: text), after)
  | _ => none

/-- A tag in angle brackets, which needs no handle. -/
def readBracketedTag? (glyphs : List Glyph) : Option (Token × List Glyph) :=
  match readTagName? true glyphs with
  | some (suffix, close :: rest) =>
    if close.character == '>' then some (.tag "" suffix, rest) else none
  | _ => none

/-- A tag behind its exclamation mark. A second mark ends its handle; a lone mark is a tag by
itself. -/
def readShortTag? (glyphs : List Glyph) : Option (Token × List Glyph) :=
  let (name, rest) := splitName glyphs
  if nextIs (· == '!') rest then
    (readTagName? false (rest.drop 1)).map fun (suffix, after) =>
      (.tag (String.ofList ('!' :: name ++ ['!'])) suffix, after)
  else
    (readTagText? false 0 rest).map fun (text, after) =>
      let suffix := String.ofList (name ++ text)
      (if suffix.isEmpty then .tag "" "!" else .tag "!" suffix, after)

/-- A blank has to follow a tag, or a comma in a flow collection. -/
def readTag? (inFlow : Bool) (glyphs : List Glyph) : Option (Token × List Glyph) :=
  let found :=
    if nextIs (· == '<') glyphs then readBracketedTag? (glyphs.drop 1) else readShortTag? glyphs
  found.filter fun (_, rest) => endsHere rest || (inFlow && nextIs (· == ',') rest)

/-! ## Directives -/

/-- A number of at most nine digits. -/
def readVersionPart? (glyphs : List Glyph) : Option (Nat × List Glyph) :=
  let isDigit := fun (glyph : Glyph) => glyph.character.isDigit
  let digits := charactersOf (glyphs.takeWhile isDigit)
  if digits.isEmpty || 9 < digits.length then none
  else some (Number.ofDigits digits, glyphs.dropWhile isDigit)

/-- The version of the format: the first or second minor one of the first major one. -/
def readVersion? (glyphs : List Glyph) : Option (Token × List Glyph) :=
  match readVersionPart? glyphs with
  | some (1, point :: rest) =>
    if point.character == '.' then
      match readVersionPart? rest with
      | some (1, after) | some (2, after) => some (.version, after)
      | _ => none
    else none
  | _ => none

/-- A handle is a name between exclamation marks, or one such mark. -/
def readHandle? : List Glyph → Option (String × List Glyph)
  | [] => none
  | mark :: glyphs =>
    let (name, rest) := splitName glyphs
    if mark.character != '!' then none
    else if nextIs (· == '!') rest then some (String.ofList ('!' :: name ++ ['!']), rest.drop 1)
    else if name.isEmpty then some ("!", rest)
    else none

def readTagHandle? (glyphs : List Glyph) : Option (Token × List Glyph) := do
  let (handle, behind) ← readHandle? glyphs
  if !nextIs isGap behind then none
  else
    let (expansion, rest) ← readTagName? true (behind.dropWhile Glyph.isGap)
    if endsHere rest then some (.tagHandle handle expansion, rest) else none

/-- A directive behind its percent sign takes the whole line. -/
def readDirective? (glyphs : List Glyph) : Option (Token × List Glyph) := do
  let (name, behind) := splitName glyphs
  if !endsHere behind then none
  else
    let content := behind.dropWhile Glyph.isGap
    let (token, rest) ← match String.ofList name with
      | "YAML" => readVersion? content
      | "TAG" => readTagHandle? content
      | _ => none
    (nextLine? rest).map (token, ·)

end Sequencer.Yaml
