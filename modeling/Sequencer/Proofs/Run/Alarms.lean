import Sequencer.Proofs.Number.Literal
import Sequencer.Proofs.Program.Playing
import Sequencer.Proofs.Program.Validity
import Sequencer.Proofs.Run.Heeding
import Sequencer.Proofs.Text.Spacing

/-! # No false alarms

What validation finds in the shape of a command is there: a verb that it does not know is none, and
words that it counts as too few are too few. In the number of a tempo it finds exactly what the
performance of the command would complain about, unless a variable is named like that number.
-/

namespace Sequencer

/-! ## The shape of a command -/

namespace Arguments

theorem length_ofWords (words : List String) :
    (ofWords words).positional.length + (ofWords words).keyed.length = words.length := by
  induction words with
  | nil => rfl
  | cons word rest inductionHypothesis =>
    simp only [ofWords] at inductionHypothesis ⊢
    cases keyed : splitKey word <;> simp [keyed] <;> omega

/-- A key that is found stands in some word. -/
theorem keyed_pos_of_isSome {arguments : Arguments} {keys : List String}
    (found : (arguments.keyed? keys).isSome = true) : 0 < arguments.keyed.length := by
  rw [List.length_pos_iff]
  intro none
  simp [keyed?, none] at found

/-- Words cannot supply more than their number. -/
theorem supplied_le (words : List String) (verb : Verb) :
    (ofWords words).supplied verb ≤ words.length := by
  have shared := length_ofWords words
  cases verb with
  | slide =>
    -- the length of a slide may be keyed, and that takes a word too
    rw [supplied]
    split
    · next found =>
      have keyed := keyed_pos_of_isSome found
      omega
    · omega
  | sample | tone | wait | bpm | play | loop | set | effect =>
    simp only [supplied]
    omega

end Arguments

namespace Diagnostic

/-- Whether it is the shape of a command that is found wrong, and not a number in it. -/
def isStructural : Diagnostic → Bool
  | .unknownCommand _ | .tooFewArguments _ _ _ => true
  | .waitNotNumber _ | .bpmNotPositive _ | .bpmNotNumber _ | .loopNotInteger _ => false

theorem isStructural_ofArgument {verb : Verb} {word : String} {diagnostic : Diagnostic}
    (found : ofArgument verb word = some diagnostic) : diagnostic.isStructural = false := by
  cases verb with
  | wait | loop =>
    simp only [ofArgument, Option.ite_none_right_eq_some, Option.some.injEq] at found
    rw [← found.2, isStructural]
  | bpm =>
    cases read : Number.readLiteral? word with
    | none =>
      simp only [ofArgument, read, Option.some.injEq] at found
      rw [← found, isStructural]
    | some bpm =>
      simp only [ofArgument, read, Option.ite_none_left_eq_some, Option.some.injEq] at found
      rw [← found.2, isStructural]
  | sample | tone | slide | play | set | effect => simp [ofArgument] at found

variable {words : List String}

/-- What is structurally wrong is the verb, or else the number of the words after it. -/
theorem structural_cases {first : String} {rest : List String} {diagnostic : Diagnostic}
    (found : ofWords? (first :: rest) = some diagnostic)
    (structural : diagnostic.isStructural = true) :
    (Verb.ofWord? first = none ∧ diagnostic = .unknownCommand first) ∨
      ∃ verb, Verb.ofWord? first = some verb ∧ rest.length < verb.leastArguments ∧
        diagnostic = .tooFewArguments first verb.leastArguments rest.length := by
  rw [ofWords?] at found
  cases known : Verb.ofWord? first with
  | none =>
    simp only [known, Option.some.injEq] at found
    exact .inl ⟨rfl, found.symm⟩
  | some verb =>
    simp only [known] at found
    split at found
    · next few => exact .inr ⟨verb, rfl, few, (Option.some.inj found).symm⟩
    · obtain ⟨word, -, wrong⟩ := Option.bind_eq_some_iff.mp found
      rw [isStructural_ofArgument wrong] at structural
      cases structural

theorem unknown_iff (something : words ≠ []) :
    (∃ verb, ofWords? words = some (.unknownCommand verb)) ↔ Action.ofWords words = .unknown := by
  obtain ⟨first, rest, rfl⟩ := List.exists_cons_of_ne_nil something
  cases known : Verb.ofWord? first with
  | none =>
    refine iff_of_true ⟨first, by rw [ofWords?, known]⟩ ?_
    simp [Action.ofWords, Action.verbOfWords, known]
  | some verb =>
    rw [Action.ofWords_cons known]
    refine iff_of_false ?_ (Action.ofArguments_ne_unknown _ verb)
    rintro ⟨unknown, found⟩
    obtain ⟨none, -⟩ | ⟨_, _, _, other⟩ := structural_cases found rfl
    · simp [known] at none
    · cases other

theorem invalid_of_tooFew {verb : String} {least actual : Nat}
    (found : ofWords? words = some (.tooFewArguments verb least actual)) :
    ∃ fault, Action.ofWords words = .invalid fault := by
  cases words with
  | nil => cases found
  | cons first rest =>
    obtain ⟨-, other⟩ | ⟨verb, known, few, -⟩ := structural_cases found rfl
    · cases other
    · rw [Action.ofWords_cons known]
      -- keyed words can only make the shortage worse
      exact (Action.invalid_iff _ verb).mpr ((Arguments.supplied_le rest verb).trans_lt few)

/-! ## The number of a tempo -/

/-- A tempo is in order exactly when its number is one. -/
theorem ofWords?_bpm (word : String) (rest : List String) :
    ofWords? ("bpm" :: word :: rest) = none ↔
      ∃ number, Number.readLiteral? word = some number ∧ Tempo.isTempo number = true := by
  -- one argument is enough, so that the number decides
  have counted : ofWords? ("bpm" :: word :: rest) = ofArgument .bpm word := by
    simp [ofWords?, Verb.ofWord?, Verb.leastArguments]
  rw [counted, ofArgument]
  cases read : Number.readLiteral? word with
  | none => simp
  | some number =>
    have finite := Number.isFinite_of_readLiteral? read
    simp [Tempo.isTempo, Arithmetic.isFinite, finite]

end Diagnostic

/-- What a word stands for where no variable is named like it. -/
theorem Variables.resolve_of_unbound {bindings : Variables Float} {word : String}
    (unbound : bindings.get? word = none) :
    bindings.resolve (.ofToken word) = (Number.readLiteral? word).getD 0 := by
  rw [Value.ofToken]
  cases read : Number.readLiteral? word <;> simp [resolve, unbound, Arithmetic.ofDouble]

namespace Command

/-- A command that is exactly the word `bpm` with arguments, none of them keyed. -/
structure ChangesTempo (command : Command) (word : String) : Prop where
  words : ∃ rest, command.words = "bpm" :: word :: rest
  unkeyed : ∀ argument ∈ command.words.tail, splitKey argument = none

variable {command : Command} {word : String}

theorem ChangesTempo.action (changes : command.ChangesTempo word) :
    command.action = .bpm (.ofToken word) := by
  obtain ⟨⟨rest, words⟩, unkeyed⟩ := changes
  rw [words, List.tail_cons] at unkeyed
  have known : Verb.ofWord? "bpm" = some .bpm := rfl
  rw [command.action_eq, words, Action.ofWords_cons known, Arguments.ofWords_unkeyed unkeyed]
  rfl

theorem ChangesTempo.valid_iff (changes : command.ChangesTempo word) :
    Diagnostic.ofWords? command.words = none ↔
      ∃ number, Number.readLiteral? word = some number ∧ Tempo.isTempo number = true := by
  obtain ⟨rest, words⟩ := changes.words
  rw [words, Diagnostic.ofWords?_bpm]

end Command

/-! ## What a run says -/

namespace Run

variable {β : Type} {run : Run Float β}

/-- A change of tempo either takes place or is complained about. -/
theorem changeTempo_cases (line : Nat) (bpm offset : Float) (run : Run Float β) :
    let after := changeTempo line bpm offset run
    (Tempo.isTempo bpm = true ∧ after.state.tempo = .ofBpm bpm ∧
        after.journal.warnings.toList = run.journal.warnings.toList ++ []) ∨
      (Tempo.isTempo bpm = false ∧
        after.journal.warnings.toList =
          run.journal.warnings.toList ++ [.invalidBpm line bpm]) := by
  rw [changeTempo, Tempo.change?]
  by_cases isTempo : Tempo.isTempo bpm = true
  · rw [if_pos isTempo]
    exact .inl ⟨isTempo, rfl, Journal.warnings_push _ _⟩
  · rw [if_neg isTempo]
    exact .inr ⟨by simpa using isTempo, Journal.warnings_push _ _⟩

/-- The number of a tempo where it is no variable, zero where it is no number either. -/
theorem performCommand_tempo [Device Float β] (program : Program) (settings : Settings)
    (invoke : Invocation Float β) {command : Command} {word : String}
    (changes : command.ChangesTempo word) (offset : Float) (mix : Mix Float)
    (unbound : run.state.bindings.get? word = none) :
    performCommand program settings invoke command offset mix run =
      (0, changeTempo command.line ((Number.readLiteral? word).getD 0) offset run) := by
  rw [performCommand, ignoreKeys, Command.ignoredKeys_of_unkeyed changes.unkeyed, List.foldl_nil,
    performAction, changes.action]
  dsimp only
  rw [resolve, Variables.resolve_of_unbound unbound]

/-- The number that a change of tempo comes down to is a tempo exactly where the word says one. -/
theorem isTempo_getD_iff (word : String) :
    Tempo.isTempo ((Number.readLiteral? word).getD 0) = true ↔
      ∃ number, Number.readLiteral? word = some number ∧ Tempo.isTempo number = true := by
  cases Number.readLiteral? word with
  | none =>
    -- a name that no variable has stands for zero
    have zero : Tempo.isTempo (0 : Float) = false := by decide +kernel
    simp [zero]
  | some number => simp

end Run

namespace Command

/-- A verb is found unknown exactly when it is, too few arguments are found only where there are, and
the number of a tempo is found wrong exactly when it is going to be ignored. -/
theorem no_false_alarm (text : String) (something : Text.trim text.toList ≠ []) (line : Nat) :
    ((∃ verb, Diagnostic.ofText? text = some (.unknownCommand verb)) ↔
        (ofText line text.toList).action = .unknown) ∧
      (∀ verb least actual,
        Diagnostic.ofText? text = some (.tooFewArguments verb least actual) →
          ∃ fault, (ofText line text.toList).action = .invalid fault) ∧
      ∀ {β : Type} [Device Float β] (program : Program) (settings : Settings)
        (invoke : Run.Invocation Float β) (offset : Float) (mix : Mix Float) (run : Run Float β)
        (word : String), (ofText line text.toList).ChangesTempo word →
        run.state.bindings.get? word = none →
        let after :=
          (Run.performCommand program settings invoke (ofText line text.toList) offset mix run).2
        ∃ raised : List (Warning Float),
          after.journal.warnings.toList = run.journal.warnings.toList ++ raised ∧
          (Diagnostic.ofText? text = none ↔ ∀ line bpm, .invalidBpm line bpm ∉ raised) ∧
          (Diagnostic.ofText? text = none →
            ∃ number, Number.readLiteral? word = some number ∧
              after.state.tempo = .ofBpm number) := by
  have words : (Text.words text.toList).map String.ofList ≠ [] := by
    rw [ne_eq, List.map_eq_nil_iff, ← Text.words_trim]
    intro wordless
    obtain ⟨empty, -⟩ | ⟨first, rest, rest', -, empty, -⟩ :=
      Text.cases_of_words_eq (Text.head_trim text.toList) rfl (wordless.trans Text.words_nil.symm)
    · exact something empty
    · cases empty
  have diagnosed : Diagnostic.ofText? text = Diagnostic.ofWords? (ofText line text.toList).words := rfl
  refine ⟨Diagnostic.unknown_iff words, fun _ _ _ => Diagnostic.invalid_of_tooFew, ?_⟩
  intro β _ program settings invoke offset mix run word changes unbound after
  rw [diagnosed, changes.valid_iff, ← Run.isTempo_getD_iff]
  have performed : after = Run.changeTempo line ((Number.readLiteral? word).getD 0) offset run :=
    congrArg Prod.snd (Run.performCommand_tempo program settings invoke changes offset mix unbound)
  rw [performed]
  obtain ⟨valid, tempo, quiet⟩ | ⟨invalid, warned⟩ :=
    Run.changeTempo_cases line ((Number.readLiteral? word).getD 0) offset run
  · refine ⟨[], quiet, iff_of_true valid (by simp), fun _ => ?_⟩
    obtain ⟨number, read, -⟩ := (Run.isTempo_getD_iff word).mp valid
    exact ⟨number, read, by rw [tempo, read, Option.getD_some]⟩
  · rw [invalid]
    refine ⟨[.invalidBpm line ((Number.readLiteral? word).getD 0)], warned, ?_, nofun⟩
    refine iff_of_false nofun fun silent => ?_
    exact silent line ((Number.readLiteral? word).getD 0) (by simp)

/-- A run with a variable that is named like no number. -/
def keeping : Run Float (Timeline Float) :=
  (Run.start (.start 120 true) .empty #[]).setVariable "tempo" 0

/-- The run after a change of tempo on its own. -/
def quickened (text : String) : Run Float (Timeline Float) :=
  (Run.performCommand .empty .standard (Run.invoke .empty .standard 0) (ofText 1 text.toList) 0
    .neutral keeping).2

theorem no_false_alarm_ninety :
    Text.trim "bpm 90 60".toList ≠ [] ∧ (ofText 1 "bpm 90 60".toList).ChangesTempo "90" ∧
      keeping.state.bindings.get? "90" = none ∧ Diagnostic.ofText? "bpm 90 60" = none ∧
      (∀ line bpm, .invalidBpm line bpm ∉ (quickened "bpm 90 60").journal.warnings.toList) ∧
      (quickened "bpm 90 60").state.tempo = .ofBpm 90 := by
  have something : Text.trim "bpm 90 60".toList ≠ [] := by decide +kernel
  have changes : (ofText 1 "bpm 90 60".toList).ChangesTempo "90" :=
    ⟨⟨["60"], by decide +kernel⟩, by decide +kernel⟩
  have unbound : keeping.state.bindings.get? "90" = none := by decide +kernel
  have ninety : Number.readLiteral? "90" = some 90 := by decide +kernel
  have valid : Diagnostic.ofText? "bpm 90 60" = none :=
    changes.valid_iff.mpr ⟨90, ninety, by decide +kernel⟩
  obtain ⟨raised, warned, silent, tempo⟩ := (no_false_alarm "bpm 90 60" something 1).2.2 .empty
    .standard (Run.invoke .empty .standard 0) 0 .neutral keeping "90" changes unbound
  obtain ⟨number, read, same⟩ := tempo valid
  obtain rfl : number = 90 := Option.some.inj (read.symm.trans ninety)
  -- nothing has been warned of before the command
  have before : keeping.journal.warnings.toList = [] := rfl
  rw [before, List.nil_append] at warned
  refine ⟨something, changes, unbound, valid, fun line bpm => ?_, same⟩
  rw [quickened, warned]
  exact silent.mp valid line bpm

end Command

end Sequencer
