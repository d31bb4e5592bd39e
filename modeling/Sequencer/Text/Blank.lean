/-!
# Blank characters

`isBlank` is the Unicode property `White_Space`. Trimming and the splitting of a line into words go
by it, so that a carriage return before a line end, a tab or a no-break space all separate words.
-/

namespace Sequencer.Text

/-- The first and last code points of each run of characters with the property `White_Space`. -/
def blankRanges : List (Nat × Nat) :=
  [(0x09, 0x0D), (0x20, 0x20), (0x85, 0x85), (0xA0, 0xA0), (0x1680, 0x1680), (0x2000, 0x200A),
   (0x2028, 0x2029), (0x202F, 0x202F), (0x205F, 0x205F), (0x3000, 0x3000)]

def isBlank (character : Char) : Bool :=
  blankRanges.any fun (first, last) => first ≤ character.toNat && character.toNat ≤ last

/-- Neither blank nor outside the text: what words are made of. -/
def isInk (character : Char) : Bool := !isBlank character

example : isBlank '\n' ∧ isBlank '\r' ∧ isBlank ' ' ∧ ¬ isBlank '/' := by decide

def trimStart (text : List Char) : List Char := text.dropWhile isBlank

def trimEnd (text : List Char) : List Char := (text.reverse.dropWhile isBlank).reverse

def trim (text : List Char) : List Char := trimEnd (trimStart text)

theorem length_dropWhile_le {α : Type} (keep : α → Bool) (items : List α) :
    (items.dropWhile keep).length ≤ items.length :=
  (List.dropWhile_sublist keep).length_le

/-- The maximal runs of characters that are not blank, in order. -/
def words (text : List Char) : List (List Char) :=
  match _start : text.dropWhile isBlank with
  | [] => []
  | character :: rest =>
    (character :: rest.takeWhile isInk) :: words (rest.dropWhile isInk)
termination_by text.length
decreasing_by
  have shorter := length_dropWhile_le isBlank text
  have remainder := length_dropWhile_le isInk rest
  simp only [_start, List.length_cons] at shorter
  omega

end Sequencer.Text
