import Sequencer.Proofs.Program.Placement
import Sequencer.Proofs.Program.Playing
import Sequencer.Proofs.Run.Correspondence
import Sequencer.Proofs.Run.Sameness

/-! # Effects from headers and effects from commands

A header reads the numbers of an effect once and for all, and keeps its parameters as they are
written. A command puts the positional parameters first, and looks its values up when it is performed.
Where no value is named like a variable both record the same parameters of either sort:
`header_and_command_agree`.
-/

namespace Sequencer

variable {α β : Type}

/-! ## Two sorts of parameters -/

namespace Effect

def positional (effect : Effect α) : List α :=
  (effect.parameters.filter (·.key.isNone)).map Parameter.value

def keyed (effect : Effect α) : List (String × α) :=
  effect.parameters.filterMap fun parameter => parameter.key.map (·, parameter.value)

/-- Positional parameters before keyed ones, each sort in its order. -/
def positionalFirst (effect : Effect α) : Effect α :=
  { effect with
    parameters := effect.parameters.filter (·.key.isNone) ++
      effect.parameters.filter (·.key.isSome) }

/-- The same kind of effect with the same parameters of each sort, however the sorts are mixed. -/
structure SameSorts (left right : Effect α) : Prop where
  kind : left.kind = right.kind
  positional : left.positional = right.positional
  keyed : left.keyed = right.keyed

theorem sameSorts_positionalFirst (effect : Effect α) : effect.SameSorts effect.positionalFirst where
  kind := rfl
  positional := by
    -- no parameter is of both sorts
    have none : (effect.parameters.filter (·.key.isSome)).filter (·.key.isNone) = [] := by
      simp [List.filter_filter]
    rw [positional, positional, positionalFirst, List.filter_append, none, List.filter_filter]
    simp
  keyed := by
    have none : (effect.parameters.filter (·.key.isNone)).filterMap
        (fun parameter => parameter.key.map (·, parameter.value)) = [] := by
      simp
    have all : (effect.parameters.filter (·.key.isSome)).filterMap
        (fun parameter => parameter.key.map (·, parameter.value)) = effect.keyed := by
      rw [List.filterMap_filter, keyed]
      refine List.filterMap_congr fun parameter _ => ?_
      cases parameter.key <;> rfl
    rw [keyed, keyed, positionalFirst, List.filterMap_append, none, all]
    rfl

theorem map_positionalFirst {γ : Type} (convert : α → γ) (effect : Effect α) :
    effect.positionalFirst.map convert = (effect.map convert).positionalFirst := by
  simp [positionalFirst, map, List.filter_map, Function.comp_def, Parameter.map]

end Effect

/-! ## What a word stands for -/

/-- The value in a word, behind its key if it has one. -/
def valueToken (word : String) : String := ((splitKey word).map Prod.snd).getD word

/-- The parameter that a word gives to a command. -/
def Parameter.ofWord (word : String) : Parameter Value :=
  { key := (splitKey word).map Prod.fst, value := .ofToken (valueToken word) }

theorem Header.parameter?_eq (word : String) :
    parameter? word = (Number.readLiteral? (valueToken word)).map fun value =>
      { key := (splitKey word).map Prod.fst, value } := by
  rw [parameter?, valueToken]
  cases splitKey word <;> rfl

/-- A literal that no variable is named like stands for its number. -/
theorem Variables.resolve_of_literal [Arithmetic α] {bindings : Variables α} {token : String}
    {value : Float} (read : Number.readLiteral? token = some value)
    (unbound : bindings.get? token = none) :
    bindings.resolve (.ofToken token) = Arithmetic.ofDouble value := by
  simp [Value.ofToken, read, resolve, unbound]

/-- The parameter that a header reads off a word is the one that a command looks up for it. -/
theorem Header.resolve_of_parameter? [Arithmetic α] {bindings : Variables α} {word : String}
    {parameter : Parameter Float} (read : parameter? word = some parameter)
    (unbound : bindings.get? (valueToken word) = none) :
    (Parameter.ofWord word).map bindings.resolve = parameter.map Arithmetic.ofDouble := by
  rw [parameter?_eq] at read
  obtain ⟨value, readValue, rfl⟩ := Option.map_eq_some_iff.mp read
  rw [Parameter.map, Parameter.map, Parameter.ofWord,
    Variables.resolve_of_literal readValue unbound]

theorem Header.resolve_of_mapM [Arithmetic α] {bindings : Variables α} {words : List String}
    {parameters : List (Parameter Float)} (read : words.mapM parameter? = some parameters)
    (unbound : ∀ word ∈ words, bindings.get? (valueToken word) = none) :
    (words.map Parameter.ofWord).map (Parameter.map bindings.resolve) =
      parameters.map (Parameter.map Arithmetic.ofDouble) := by
  induction words generalizing parameters with
  | nil =>
    obtain rfl : [] = parameters := by simpa using read
    rfl
  | cons word rest inductionHypothesis =>
    rw [List.mapM_cons] at read
    obtain ⟨parameter, readFirst, read⟩ := Option.bind_eq_some_iff.mp read
    obtain ⟨others, readRest, read⟩ := Option.bind_eq_some_iff.mp read
    obtain rfl : parameter :: others = parameters := by simpa using read
    have first := resolve_of_parameter? readFirst (unbound word List.mem_cons_self)
    have later := inductionHypothesis readRest fun word member =>
      unbound word (List.mem_cons_of_mem _ member)
    rw [List.map_cons, List.map_cons, List.map_cons, first, later]

/-! ## Effects of commands -/

theorem Parameter.positional_ofWord (words : List String) :
    (words.map ofWord).filter (·.key.isNone) =
      (words.filter (splitKey · |>.isNone)).map fun word =>
        { key := none, value := Value.ofToken word } := by
  induction words with
  | nil => rfl
  | cons word rest inductionHypothesis =>
    cases split : splitKey word <;> simp [ofWord, valueToken, split, inductionHypothesis]

theorem Parameter.keyed_ofWord (words : List String) :
    (words.map ofWord).filter (·.key.isSome) =
      (words.filterMap splitKey).map fun (key, word) =>
        { key := some key, value := .ofToken word } := by
  induction words with
  | nil => rfl
  | cons word rest inductionHypothesis =>
    cases split : splitKey word <;> simp [ofWord, valueToken, split, inductionHypothesis]

/-- With a kind and a block that are not keyed themselves, all other words are parameters. -/
theorem Action.ofWords_effect {kind block : String} (unkeyed : splitKey kind = none)
    (unkeyed' : splitKey block = none) (words : List String) :
    ofWords ("effect" :: kind :: block :: words) =
      .effect (Effect.positionalFirst { kind, parameters := words.map Parameter.ofWord }) block := by
  have known : Verb.ofWord? "effect" = some .effect := rfl
  rw [ofWords_cons known, ofArguments, ofEffect, Arguments.ofWords, Effect.positionalFirst,
    Parameter.positional_ofWord, Parameter.keyed_ofWord]
  simp [unkeyed, unkeyed']

/-! ## Effects of headers -/

namespace Program

/-- The last header of a block carries one effect in parentheses, a kind with further words. -/
structure Annotates (source block kind : String) (words : List String) (effect : Effect Float) :
    Prop where
  header : ∃ before line inner rest,
    numberedRows source = before ++ (line, .opening .block block ('(' :: inner ++ [')'])) :: rest ∧
      (.block, block) ∉ Rows.openings rest ∧ ')' ∉ inner ∧
      (Text.words inner).map String.ofList = kind :: words ∧
      Header.effect? inner = some effect

theorem readableEffects_single {inner : List Char} {effect : Effect Float}
    (notClosed : ')' ∉ inner) (read : Header.effect? inner = some effect) :
    readableEffects ('(' :: inner ++ [')']) = [effect] := by
  have nothing : Header.read [] = .ok [] := by
    rw [Header.read_eq]
    rfl
  rw [readableEffects, Header.read_effect notClosed read, nothing]
  rfl

namespace Annotates

variable {source block kind : String} {words : List String} {effect : Effect Float}

theorem reads (annotates : Annotates source block kind words effect) :
    ∃ parameters, words.mapM Header.parameter? = some parameters ∧ effect = { kind, parameters } := by
  obtain ⟨_, _, inner, _, -, -, -, split, read⟩ := annotates.header
  rw [Header.effect?, split] at read
  obtain ⟨parameters, readAll, rfl⟩ := Option.map_eq_some_iff.mp read
  exact ⟨parameters, readAll, rfl⟩

theorem effectsOn_headers (annotates : Annotates source block kind words effect) :
    effectsOn block (Definitions.headers (read source).blocks) = [effect] := by
  obtain ⟨before, line, inner, rest, split, isLast, notClosed, -, readInner⟩ := annotates.header
  obtain ⟨earlier, all⟩ := Rows.definitionsIn_append .block before
    ((line, .opening .block block ('(' :: inner ++ [')'])) :: rest)
  rw [← Rows.mem_namesOpened, ← Rows.names_definitionsIn] at isLast
  have declared := definitions_read source .block
  rw [split, all, Rows.definitionsIn, if_pos rfl,
    readableEffects_single notClosed readInner] at declared
  have found := Definitions.find?_declareAll_last earlier
    { name := block, commands := Rows.leadingCommands rest, effects := [effect] } isLast
  rw [← declared] at found
  -- a name stands once, so that no other header adds to the effects of the block
  have distinct : ((read source).blocks.map Definition.name).Nodup := by
    rw [show (read source).blocks = _ from declared]
    exact Definitions.nodup_declareAll _ List.nodup_nil
  rw [Definitions.effectsOn_headers distinct]
  exact congrArg (fun found => (found.map Definition.effects).getD []) found

end Annotates

end Program

/-! ## What is recorded -/

namespace Run

variable [Arithmetic α] [Device α β]

/-- What is recorded for the last header of a block. -/
theorem effectsOf_recordHeaders {source block kind : String} {words : List String}
    {effect : Effect Float} (annotates : Program.Annotates source block kind words effect) (bpm : α)
    (running : Bool) (device : β) (journal : Journal α) :
    (recordHeaders (Program.read source)
        (.start (.start bpm running) device journal)).state.effectsOf block =
      [effect.map Arithmetic.ofDouble] := by
  rw [recordHeaders_eq_recordEach, effectsOf_recordEach, annotates.effectsOn_headers]
  rfl

theorem performCommand_effect (program : Program) (settings : Settings) (invoke : Invocation α β)
    {command : Command} {effect : Effect Value} {block : String}
    (action : command.action = .effect effect block) (offset : α) (mix : Mix α) (run : Run α β) :
    performCommand program settings invoke command offset mix run =
      (0, run.recordEffect block (effect.map run.resolve)) := by
  rw [performCommand, ignoreKeys, Command.ignoredKeys_of_effect action, List.foldl_nil,
    performAction, action]

/-- A command with the words of an annotation records the effect that the annotation records, the
positional parameters first. -/
theorem performCommand_of_annotates {source block kind : String} {words : List String}
    {effect : Effect Float} (annotates : Program.Annotates source block kind words effect)
    (unkeyed : splitKey kind = none) (unkeyed' : splitKey block = none) (program : Program)
    (settings : Settings) (invoke : Invocation α β) {command : Command}
    (same : command.words = "effect" :: kind :: block :: words) (offset : α) (mix : Mix α)
    {run : Run α β}
    (unbound : ∀ word ∈ words, run.state.bindings.get? (valueToken word) = none) :
    performCommand program settings invoke command offset mix run =
      (0, run.recordEffect block (effect.map Arithmetic.ofDouble).positionalFirst) := by
  obtain ⟨parameters, read, rfl⟩ := annotates.reads
  -- sorting and looking up may be swapped, and what is looked up is what the header has read
  have action := command.action_eq
  rw [same, Action.ofWords_effect unkeyed unkeyed'] at action
  have resolved : (Effect.mk kind (words.map Parameter.ofWord)).map run.resolve =
      (Effect.mk kind parameters).map Arithmetic.ofDouble :=
    congrArg (Effect.mk kind) (Header.resolve_of_mapM read unbound)
  rw [performCommand_effect program settings invoke action, Effect.map_positionalFirst, resolved]

/-- A header and a command with the same words record the same parameters of either sort, wherever no
value of the command is named like a variable. They are those that the header has been read as. -/
theorem header_and_command_agree {source block kind : String} {words : List String}
    {effect : Effect Float} (annotates : Program.Annotates source block kind words effect)
    (unkeyed : splitKey kind = none) (unkeyed' : splitKey block = none) (program : Program)
    (settings : Settings) (invoke : Invocation α β) {command : Command}
    (same : command.words = "effect" :: kind :: block :: words) (offset : α) (mix : Mix α)
    {run : Run α β}
    (unbound : ∀ word ∈ words, run.state.bindings.get? (valueToken word) = none) (bpm : α)
    (running : Bool) (device : β) (journal : Journal α) :
    let start := Run.start (.start bpm running) device journal
    let (duration, after) := performCommand program settings invoke command offset mix run
    ∃ annotated recorded : Effect α,
      (recordHeaders (Program.read source) start).state.effectsOf block = [annotated] ∧
        duration = 0 ∧ after = run.recordEffect block recorded ∧
        after.state.effectsOf block = run.state.effectsOf block ++ [recorded] ∧
        annotated.kind = kind ∧
        annotated.parameters = effect.parameters.map (fun parameter =>
          { key := parameter.key, value := Arithmetic.ofDouble parameter.value }) ∧
        annotated.SameSorts recorded := by
  have performed := performCommand_of_annotates annotates unkeyed unkeyed' program settings invoke
    same offset mix unbound
  have recorded := State.effectsOf_addEffect run.state block block
    (effect.map Arithmetic.ofDouble).positionalFirst
  rw [if_pos rfl] at recorded
  obtain ⟨parameters, -, rfl⟩ := annotates.reads
  rw [performed]
  exact ⟨_, _, effectsOf_recordHeaders annotates bpm running device journal, rfl, rfl, recorded, rfl,
    rfl, Effect.sameSorts_positionalFirst _⟩

/-- The header of the bass has parameters of either sort, one key among them twice. -/
def echoing : String :=
  "[lead]\n[bass] (echo feedback=0.5 2 wet=1 0.25 feedback=4)\nsample kick\n[end]\n"

def echoWords : List String := ["feedback=0.5", "2", "wet=1", "0.25", "feedback=4"]

def echo : Effect Float where
  kind := "echo"
  parameters :=
    [{ key := some "feedback", value := 0.5 }, { key := none, value := 2 },
      { key := some "wet", value := 1 }, { key := none, value := 0.25 },
      { key := some "feedback", value := 4 }]

theorem annotates_echoing : Program.Annotates echoing "bass" "echo" echoWords echo where
  header := by
    have rows : Program.numberedRows echoing =
        [(1, .opening .block "lead" []),
          (2, .opening .block "bass" "(echo feedback=0.5 2 wet=1 0.25 feedback=4)".toList),
          (3, .command "sample kick".toList), (4, .ending .block)] := by
      with_unfolding_all rfl
    exact ⟨[_], 2, "echo feedback=0.5 2 wet=1 0.25 feedback=4".toList, _, rows, by decide +kernel,
      by decide +kernel, by with_unfolding_all rfl, by with_unfolding_all rfl⟩

def echoCommand : Command :=
  .ofText 5 "effect echo bass feedback=0.5 2 wet=1 0.25 feedback=4".toList

/-- There are variables named like the kind, the block and a key. -/
def echoRun : Run Float (Timeline Float) :=
  let bindings := ((Variables.empty.set "echo" 3).set "bass" 5).set "feedback" 7
  .start { State.start 120 true with bindings } .empty #[]

theorem header_and_command_agree_echo :
    let start : Run Float (Timeline Float) := .start (.start 120 true) .empty #[]
    let (_, after) := performCommand .empty .standard (invoke .empty .standard 0) echoCommand 0
      .neutral echoRun
    ∃ annotated recorded : Effect Float,
      (recordHeaders (Program.read echoing) start).state.effectsOf "bass" = [annotated] ∧
        after.state.effectsOf "bass" = [recorded] ∧ annotated.kind = "echo" ∧
        annotated.parameters = echo.parameters ∧ annotated.SameSorts recorded := by
  have same : echoCommand.words = "effect" :: "echo" :: "bass" :: echoWords := by decide +kernel
  have unbound : ∀ word ∈ echoWords, echoRun.state.bindings.get? (valueToken word) = none := by
    decide +kernel
  obtain ⟨annotated, recorded, header, -, -, effects, kind, parameters, sorts⟩ :=
    header_and_command_agree annotates_echoing (by decide +kernel) (by decide +kernel) .empty
      .standard (invoke .empty .standard 0) same 0 .neutral unbound 120 true Timeline.empty #[]
  exact ⟨annotated, recorded, header, effects, kind, parameters, sorts⟩

end Run

end Sequencer
