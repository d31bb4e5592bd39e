import Sequencer.Proofs.Number.Literal
import Sequencer.Proofs.Text.Line
import Sequencer.Program.Header

/-! # Effects in a header

An effect that was read from a header is legible, and legible effects read back from their text:
`Header.effects_legible` and `Header.read_joined`.
-/

namespace Sequencer

open Text

/-- A word without a comment in it. -/
structure IsToken (word : List Char) : Prop where
  isWord : IsWord word
  commentFree : CommentFree word

theorem isToken_of_mem_words {text word : List Char} (free : CommentFree text)
    (member : word ∈ words text) : IsToken word :=
  { isWord := isWord_of_mem_words member
    commentFree := free.of_isInfix (isInfix_of_mem_words member) }

/-- A token that a header keeps together: no parenthesis closes in it. -/
structure IsInner (word : List Char) : Prop extends IsToken word where
  notClosed : ')' ∉ word

structure Parameter.Legible (parameter : Parameter Float) : Prop where
  finite : parameter.value.isFinite = true
  key : ∀ key, parameter.key = some key → IsInner key.toList ∧ '=' ∉ key.toList

structure Effect.Legible (effect : Effect Float) : Prop where
  kind : IsInner effect.kind.toList
  parameters : ∀ parameter ∈ effect.parameters, parameter.Legible

/-! ## Keys -/

theorem splitKey_some {word key value : String} (split : splitKey word = some (key, value)) :
    word.toList = key.toList ++ '=' :: value.toList ∧ key.toList ≠ [] ∧ '=' ∉ key.toList := by
  have whole := List.takeWhile_append_dropWhile (p := (· != '=')) (l := word.toList)
  have equals := List.head?_dropWhile_not (· != '=') word.toList
  have noMark : '=' ∉ word.toList.takeWhile (· != '=') :=
    fun member => by simpa using List.mem_takeWhile_imp member
  rw [splitKey, List.span_eq_takeWhile_dropWhile] at split
  generalize word.toList.takeWhile (· != '=') = front at *
  generalize word.toList.dropWhile (· != '=') = back at *
  -- without a key in front of the mark, or without the mark, nothing is split
  cases front with
  | nil => simp at split
  | cons first front =>
    cases back with
    | nil => simp at split
    | cons mark back =>
      simp only [Option.some.injEq, Prod.mk.injEq] at split
      obtain ⟨rfl, rfl⟩ := split
      obtain rfl : mark = '=' := by simpa using equals
      simp only [String.toList_ofList]
      exact ⟨whole.symm, List.cons_ne_nil _ _, noMark⟩

theorem splitKey_append {key value : List Char} (nonempty : key ≠ []) (noMark : '=' ∉ key) :
    splitKey (String.ofList (key ++ '=' :: value)) =
      some (String.ofList key, String.ofList value) := by
  have inside : ∀ character ∈ key, (character != '=') = true := by
    intro character member
    simp only [bne_iff_ne, ne_eq]
    rintro rfl
    exact noMark member
  obtain ⟨first, rest, rfl⟩ := List.exists_cons_of_ne_nil nonempty
  rw [splitKey, String.toList_ofList, List.span_eq_takeWhile_dropWhile,
    List.takeWhile_append_of_pos inside, List.dropWhile_append_of_pos inside]
  simp

theorem splitKey_eq_none {word : String} (noMark : '=' ∉ word.toList) : splitKey word = none := by
  cases split : splitKey word with
  | none => rfl
  | some pair =>
    obtain ⟨whole, -, -⟩ := splitKey_some split
    exact absurd (by simp [whole]) noMark

/-! ## Parameters -/

theorem isInk_of_isTextCharacter {character : Char}
    (written : Number.isTextCharacter character = true) : isInk character = true := by
  simp only [Number.isTextCharacter, Bool.or_eq_true, beq_iff_eq] at written
  rcases written with (digit | rfl) | rfl
  -- no range of blanks reaches the digits
  · simp only [Char.isDigit, Bool.and_eq_true, decide_eq_true_eq, ge_iff_le,
      UInt32.le_iff_toNat_le] at digit
    change 48 ≤ character.toNat ∧ character.toNat ≤ 57 at digit
    simp only [isInk, isBlank, blankRanges, Bool.not_eq_true', List.any_eq_false]
    simp
    omega
  · decide
  · decide

/-- Nothing in the text of a number has a meaning in a header. -/
theorem isInner_text {value : Float} (finite : value.isFinite = true) :
    IsInner (Number.text value).toList ∧ '=' ∉ (Number.text value).toList := by
  have characters : ∀ character ∈ (Number.text value).toList,
      Number.isTextCharacter character = true :=
    fun character member => Number.isTextCharacter_of_mem finite member
  have nonempty : (Number.text value).toList ≠ [] := by
    intro empty
    have reads := Number.readLiteral?_text finite
    rw [String.toList_eq_nil_iff.mp empty] at reads
    cases reads
  -- neither brackets nor slashes nor equals signs are written in a number
  have absent : ∀ mark, Number.isTextCharacter mark = false → mark ∉ (Number.text value).toList := by
    intro mark other member
    rw [characters mark member] at other
    cases other
  refine ⟨⟨⟨⟨nonempty, fun character member => isInk_of_isTextCharacter (characters _ member)⟩,
    commentFree_of_forall ?_⟩, absent _ (by decide)⟩, absent _ (by decide)⟩
  rintro character member rfl
  exact absent '/' (by decide) member

theorem Parameter.toList_text (parameter : Parameter Float) :
    parameter.text.toList =
      match parameter.key with
      | some key => key.toList ++ '=' :: (Number.text parameter.value).toList
      | none => (Number.text parameter.value).toList := by
  cases key : parameter.key <;> simp [Parameter.text, key]

theorem Parameter.Legible.isInner {parameter : Parameter Float} (legible : parameter.Legible) :
    IsInner parameter.text.toList := by
  obtain ⟨number, -⟩ := isInner_text legible.finite
  rw [Parameter.toList_text]
  cases keyed : parameter.key with
  | none => exact number
  | some key =>
    obtain ⟨inner, -⟩ := legible.key key keyed
    refine ⟨⟨⟨by simp, ?_⟩, ?_⟩, ?_⟩
    · intro character member
      rcases List.mem_append.mp member with member | member
      · exact inner.isWord.2 character member
      · rcases List.mem_cons.mp member with rfl | member
        · decide
        · exact number.isWord.2 character member
    · exact inner.commentFree.append_cons (by decide) number.commentFree
    · simp [inner.notClosed, number.notClosed]

namespace Header

theorem parameter?_text {parameter : Parameter Float} (legible : parameter.Legible) :
    parameter? parameter.text = some parameter := by
  obtain ⟨key, value⟩ := parameter
  obtain ⟨-, noMark⟩ := isInner_text legible.finite
  have reads := Number.readLiteral?_text legible.finite
  cases key with
  | none =>
    rw [parameter?, Parameter.text, splitKey_eq_none noMark]
    simp [reads]
  | some key =>
    obtain ⟨inner, keyMark⟩ := legible.key key rfl
    have written : ({ key := some key, value } : Parameter Float).text =
        String.ofList (key.toList ++ '=' :: (Number.text value).toList) := by
      rw [← String.toList_inj, Parameter.toList_text, String.toList_ofList]
    rw [parameter?, written, splitKey_append inner.isWord.1 keyMark]
    simp [reads]

theorem parameter?_legible {word : List Char} {parameter : Parameter Float} (inner : IsInner word)
    (read : parameter? (String.ofList word) = some parameter) : parameter.Legible := by
  rw [parameter?] at read
  split at read
  · next key value split =>
    obtain ⟨whole, nonempty, noMark⟩ := splitKey_some split
    rw [String.toList_ofList] at whole
    obtain ⟨number, reads, rfl⟩ := Option.map_eq_some_iff.mp read
    refine ⟨Number.isFinite_of_readLiteral? reads, ?_⟩
    intro key' keyed
    obtain rfl : key = key' := by simpa using keyed
    refine ⟨⟨⟨⟨nonempty, fun character member => ?_⟩, ?_⟩, fun member => ?_⟩, noMark⟩
    · exact inner.isWord.2 character (whole ▸ List.mem_append_left _ member)
    · exact inner.commentFree.of_isInfix (whole ▸ (List.prefix_append _ _).isInfix)
    · exact inner.notClosed (whole ▸ List.mem_append_left _ member)
  · obtain ⟨number, reads, rfl⟩ := Option.map_eq_some_iff.mp read
    exact ⟨Number.isFinite_of_readLiteral? reads, by simp⟩

end Header

/-! ## One effect -/

/-- What stands between the parentheses of an effect. -/
def Effect.inner (effect : Effect Float) : List Char :=
  joined (effect.kind.toList :: effect.parameters.map (·.text.toList))

theorem Effect.toList_text (effect : Effect Float) :
    effect.text.toList = '(' :: effect.inner ++ [')'] := by
  simp only [Effect.text, String.toList_append, String.toList_intercalate, List.map_cons,
    List.map_map]
  rfl

theorem Effect.Legible.isInner {effect : Effect Float} (legible : effect.Legible) :
    ∀ word ∈ effect.kind.toList :: effect.parameters.map (·.text.toList), IsInner word := by
  intro word member
  rcases List.mem_cons.mp member with rfl | member
  · exact legible.kind
  · obtain ⟨parameter, parameterMember, rfl⟩ := List.mem_map.mp member
    exact (legible.parameters parameter parameterMember).isInner

theorem Effect.Legible.words_inner {effect : Effect Float} (legible : effect.Legible) :
    words effect.inner = effect.kind.toList :: effect.parameters.map (·.text.toList) :=
  words_joined fun word member => (legible.isInner word member).isWord

theorem Effect.Legible.commentFree_inner {effect : Effect Float} (legible : effect.Legible) :
    CommentFree effect.inner :=
  commentFree_joined fun word member => (legible.isInner word member).commentFree

theorem Effect.tight_text (effect : Effect Float) : Tight effect.text.toList := by
  rw [Effect.toList_text]
  exact ⟨by simp, by simp [isInk, isBlank, blankRanges], by rw [List.getLast?_concat]; decide⟩

theorem Effect.Legible.commentFree_text {effect : Effect Float} (legible : effect.Legible) :
    CommentFree effect.text.toList := by
  rw [Effect.toList_text]
  exact CommentFree.cons (by decide)
    (legible.commentFree_inner.append_cons (by decide) commentFree_nil)

theorem Effect.Legible.not_closed {effect : Effect Float} (legible : effect.Legible) :
    ')' ∉ effect.inner := by
  intro member
  obtain ⟨word, wordMember, inside⟩ := (mem_iff_mem_words (by decide)).mp member
  rw [legible.words_inner] at wordMember
  exact (legible.isInner word wordMember).notClosed inside

namespace Header

theorem mapM_parameter? {parameters : List (Parameter Float)}
    (legible : ∀ parameter ∈ parameters, parameter.Legible) :
    (parameters.map Parameter.text).mapM parameter? = some parameters := by
  induction parameters with
  | nil => rfl
  | cons first rest inductionHypothesis =>
    have read := parameter?_text (legible first List.mem_cons_self)
    have readRest := inductionHypothesis fun parameter member =>
      legible parameter (List.mem_cons_of_mem _ member)
    rw [List.map_cons, List.mapM_cons, read, readRest]
    rfl

theorem effect?_inner {effect : Effect Float} (legible : effect.Legible) :
    effect? effect.inner = some effect := by
  have texts : (effect.parameters.map (·.text.toList)).map String.ofList =
      effect.parameters.map Parameter.text := by
    simp
  rw [effect?, legible.words_inner, List.map_cons, texts]
  dsimp only
  rw [mapM_parameter? legible.parameters, Option.map_some, String.ofList_toList]

theorem legible_of_mapM {words : List (List Char)} {parameters : List (Parameter Float)}
    (inner : ∀ word ∈ words, IsInner word)
    (read : (words.map String.ofList).mapM parameter? = some parameters) :
    ∀ parameter ∈ parameters, parameter.Legible := by
  induction words generalizing parameters with
  | nil =>
    obtain rfl : [] = parameters := by simpa using read
    simp
  | cons first rest inductionHypothesis =>
    rw [List.map_cons, List.mapM_cons] at read
    obtain ⟨parameter, readFirst, read⟩ := Option.bind_eq_some_iff.mp read
    obtain ⟨others, readRest, read⟩ := Option.bind_eq_some_iff.mp read
    obtain rfl : parameter :: others = parameters := by simpa using read
    intro parameter' member
    rcases List.mem_cons.mp member with rfl | member
    · exact parameter?_legible (inner first List.mem_cons_self) readFirst
    · exact inductionHypothesis (fun word member => inner word (List.mem_cons_of_mem _ member))
        readRest parameter' member

theorem effect?_legible {inner : List Char} {effect : Effect Float} (free : CommentFree inner)
    (notClosed : ')' ∉ inner) (read : effect? inner = some effect) : effect.Legible := by
  have isInner : ∀ word ∈ words inner, IsInner word := fun word member =>
    { toIsToken := isToken_of_mem_words free member
      notClosed := fun closing => notClosed ((isInfix_of_mem_words member).subset closing) }
  rw [effect?] at read
  cases found : words inner with
  | nil => simp [found] at read
  | cons kind rest =>
    rw [found] at isInner read
    obtain ⟨parameters, readRest, rfl⟩ := Option.map_eq_some_iff.mp read
    refine ⟨?_, ?_⟩
    · rw [String.toList_ofList]
      exact isInner kind List.mem_cons_self
    · exact legible_of_mapM (fun word member => isInner word (List.mem_cons_of_mem _ member)) readRest

/-! ## A row of effects -/

theorem takeWhile_isClosing {inner : List Char} (notClosed : ')' ∉ inner) (rest : List Char) :
    (inner ++ ')' :: rest).takeWhile (!isClosing ·) = inner ∧
      (inner ++ ')' :: rest).dropWhile (!isClosing ·) = ')' :: rest := by
  have inside : ∀ character ∈ inner, (!isClosing character) = true := by
    intro character member
    simp only [isClosing, Bool.not_eq_true', beq_eq_false_iff_ne, ne_eq]
    rintro rfl
    exact notClosed member
  rw [List.takeWhile_append_of_pos inside, List.dropWhile_append_of_pos inside]
  simp [isClosing]

theorem read_eq (text : List Char) :
    read text =
      match trimStart text with
      | [] => .ok []
      | '(' :: body =>
        match body.dropWhile (!isClosing ·) with
        | [] => .error (String.ofList ('(' :: body))
        | _ :: rest =>
          match effect? (body.takeWhile (!isClosing ·)) with
          | none => .error (String.ofList ('(' :: body.takeWhile (!isClosing ·) ++ [')']))
          | some effect => (read rest).map (effect :: ·)
      | other => .error (String.ofList other) := by
  rw [read]
  split
  · next start => rw [start]
  · next body start =>
    rw [start]
    split
    · next inside => simp only [inside]
    · next inside =>
      cases readFirst : effect? (body.takeWhile (!isClosing ·)) with
      | none => simp only [inside, readFirst]
      | some effect => simp only [inside, readFirst]
  · next noText noEffect => split <;> simp_all

theorem read_blank {first : Char} (rest : List Char) (blank : isBlank first = true) :
    read (first :: rest) = read rest := by
  rw [read_eq, read_eq rest, trimStart_blank rest blank]

theorem read_effect {inner : List Char} {effect : Effect Float} (notClosed : ')' ∉ inner)
    (readInner : effect? inner = some effect) (rest : List Char) :
    read ('(' :: inner ++ ')' :: rest) = (read rest).map (effect :: ·) := by
  have start : trimStart ('(' :: inner ++ ')' :: rest) = '(' :: (inner ++ ')' :: rest) :=
    trimStart_of_ink _ (by decide)
  obtain ⟨taken, dropped⟩ := takeWhile_isClosing notClosed rest
  rw [read_eq, start]
  simp only [dropped, taken, readInner]

theorem read_spaced {effects : List (Effect Float)} (legible : ∀ effect ∈ effects, effect.Legible) :
    read (spaced (effects.map (·.text.toList))) = .ok effects := by
  induction effects with
  | nil =>
    rw [read_eq]
    rfl
  | cons first rest inductionHypothesis =>
    have legibleFirst := legible first List.mem_cons_self
    rw [List.map_cons, spaced_cons, joined_cons, read_blank _ isBlank_space, Effect.toList_text,
      List.append_assoc, List.singleton_append,
      read_effect legibleFirst.not_closed (effect?_inner legibleFirst),
      inductionHypothesis fun effect member => legible effect (List.mem_cons_of_mem _ member)]
    rfl

theorem read_joined {effects : List (Effect Float)} (legible : ∀ effect ∈ effects, effect.Legible) :
    read (joined (effects.map (·.text.toList))) = .ok effects := by
  have reads := read_spaced legible
  cases effects with
  | nil => exact reads
  | cons first rest => rwa [List.map_cons, spaced_cons, read_blank _ isBlank_space] at reads

theorem effects_legible {text : List Char} {effects : List (Effect Float)} (free : CommentFree text)
    (readText : read text = .ok effects) : ∀ effect ∈ effects, effect.Legible := by
  fun_induction read text generalizing effects with
  | case1 text start =>
    obtain rfl : [] = effects := by simpa using readText
    simp
  | case2 => cases readText
  | case3 => cases readText
  | case4 text body start closing rest inside inner effect readInner =>
    rename_i inductionHypothesis
    have behind : closing :: rest <:+: body := inside ▸ (List.dropWhile_suffix _).isInfix
    have freeBody : CommentFree body := by
      have inText : trimStart text <:+: text := (List.dropWhile_suffix _).isInfix
      rw [start] at inText
      exact (free.of_isInfix inText).of_cons
    -- the effect ends where the first parenthesis closes
    have notClosed : ')' ∉ body.takeWhile (!isClosing ·) :=
      fun member => by simpa [isClosing] using List.mem_takeWhile_imp member
    cases readRest : read rest with
    | error _ => simp [readRest, Except.map] at readText
    | ok others =>
      obtain rfl : effect :: others = effects := by simpa [readRest, Except.map] using readText
      intro effect' member
      rcases List.mem_cons.mp member with rfl | member
      · have front : body.takeWhile (!isClosing ·) <:+: body := (List.takeWhile_prefix _).isInfix
        exact effect?_legible (freeBody.of_isInfix front) notClosed readInner
      · have freeRest := (freeBody.of_isInfix behind).of_cons
        exact inductionHypothesis freeRest readRest effect' member
  | case5 => cases readText

end Header

end Sequencer
