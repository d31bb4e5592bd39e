import Sequencer.Proofs.Program.Playing

/-! # Fields of commands

A command gives its fields by key or by position. Of two keyed words for a field the later one counts,
and a keyed word hides the positional one in the slot of its field, but moves no other. So keyed words
may stand anywhere after the verb: `later_key_wins_and_slots_stay`.
-/

namespace Sequencer

/-! ## The table of fields -/

inductive Field where
  | pitch
  | timescale
  | beats
  | waveform
  | volume
  | pan
  deriving DecidableEq

def Field.keys : Field → List String
  | .pitch => Verb.pitchKey
  | .timescale => Verb.timescaleKey
  | .beats => Verb.beatsKey
  | .waveform => Verb.waveformKeys
  | .volume => Verb.volumeKey
  | .pan => Verb.panKey

theorem Field.eq_of_mem_keys {field other : Field} {key : String} (own : key ∈ field.keys)
    (also : key ∈ other.keys) : field = other := by
  cases field <;> cases other <;>
    simp_all [keys, Verb.pitchKey, Verb.timescaleKey, Verb.beatsKey, Verb.waveformKeys,
      Verb.volumeKey, Verb.panKey]

/-- A keyed word that is meant for a field. -/
def Field.Keyed (field : Field) (word : String) : Prop :=
  ∃ key token, splitKey word = some (key, token) ∧ key ∈ field.keys

theorem Field.keyed_iff {field : Field} {word : String} :
    field.Keyed word ↔ (splitKey word).any (fun argument => field.keys.contains argument.1) = true := by
  rw [Keyed]
  cases splitKey word with
  | none => simp
  | some argument =>
    obtain ⟨key, token⟩ := argument
    simp

instance Field.instDecidableKeyed (field : Field) (word : String) : Decidable (field.Keyed word) :=
  decidable_of_iff _ Field.keyed_iff.symm

namespace Verb

def fields : Verb → List Field
  | .sample => [.pitch, .timescale, .volume, .pan]
  | .tone | .slide => [.beats, .waveform, .volume, .pan]
  | .play | .loop => [.volume, .pan]
  | .wait | .bpm | .set | .effect => []

/-- Where a field stands among the positional words, if it can be given by position. -/
def slot? : Verb → Field → Option Nat
  | .sample, .pitch => some 1
  | .sample, .timescale => some 2
  | .sample, .volume => some 3
  | .sample, .pan => some 4
  | .tone, .beats => some 1
  | .tone, .waveform => some 2
  | .tone, .volume => some 3
  | .tone, .pan => some 4
  | .slide, .beats => some 2
  | .slide, .waveform => some 3
  | .slide, .volume => some 4
  | .slide, .pan => some 5
  | _, _ => none

/-- The positional words that are no fields: the name of a sample, the pitches of a tone or a slide,
the count and the blocks of a loop. -/
def named (verb : Verb) (positional : List String) : List String :=
  match verb with
  | .sample | .tone => positional.take 1
  | .slide => positional.take 2
  | _ => positional

theorem slot?_inj {verb : Verb} {field other : Field} {slot : Nat}
    (first : verb.slot? field = some slot) (second : verb.slot? other = some slot) :
    field = other := by
  revert first second
  cases verb <;> cases field <;> cases other <;> simp [slot?] <;> omega

/-- No slot lies among the words that are no fields. -/
theorem named_congr {verb : Verb} {field : Field} {slot : Nat} (stands : verb.slot? field = some slot)
    {positional positional' : List String}
    (beside : ∀ position, position ≠ slot → positional[position]? = positional'[position]?) :
    verb.named positional = verb.named positional' := by
  have least : ∀ size, size ≤ slot → positional.take size = positional'.take size := by
    intro size below
    apply List.ext_getElem?
    intro position
    rw [List.getElem?_take, List.getElem?_take]
    split
    · exact beside position (by omega)
    · rfl
  revert stands
  cases verb <;> cases field <;> simp only [slot?, Option.some.injEq, reduceCtorEq, false_implies] <;>
    rintro rfl <;> exact least _ (by decide)

end Verb

/-! ## What fields are given -/

namespace Arguments

/-- What a field is given: by key, and by its slot where it has no key. -/
def given? (arguments : Arguments) (verb : Verb) (field : Field) : Option String :=
  (arguments.keyed? field.keys).or ((verb.slot? field).bind (arguments.positional[·]?))

/-- The same positional words and the same keyed words, each in the same order. -/
structure SameSorts (words words' : List String) : Prop where
  positional : words.filter (splitKey · |>.isNone) = words'.filter (splitKey · |>.isNone)
  keyed : words.filter (splitKey · |>.isSome) = words'.filter (splitKey · |>.isSome)

theorem SameSorts.ofWords_eq {words words' : List String} (same : SameSorts words words') :
    ofWords words = ofWords words' := by
  have onlyKeyed : ∀ words : List String,
      words.filterMap splitKey = (words.filter (splitKey · |>.isSome)).filterMap splitKey := by
    intro words
    rw [List.filterMap_filter]
    congr
    funext word
    cases splitKey word <;> rfl
  rw [ofWords, ofWords, same.positional, onlyKeyed words, same.keyed, ← onlyKeyed words']

/-- An argument for some of the keys. -/
def asks (keys : List String) (argument : String × String) : Bool := keys.contains argument.1

/-- The last argument for some of the keys is not affected by one that is for other keys, or that
comes before another one for them. -/
theorem find?_reverse_of_shadowed {keys : List String} (before after : List (String × String))
    {argument : String × String}
    (shadowed : asks keys argument = true → ∃ later ∈ after, asks keys later = true) :
    (before ++ argument :: after).reverse.find? (asks keys) =
      (before ++ after).reverse.find? (asks keys) := by
  simp only [List.reverse_append, List.reverse_cons, List.append_assoc, List.find?_append]
  cases found : after.reverse.find? (asks keys) with
  | some later => rfl
  | none =>
    have own : ¬ asks keys argument = true := by
      intro asked
      obtain ⟨later, member, alsoAsked⟩ := shadowed asked
      exact List.find?_eq_none.mp found later (by simpa using member) alsoAsked
    simp [own]

theorem keyed?_eq (arguments : Arguments) (keys : List String) :
    arguments.keyed? keys = (arguments.keyed.reverse.find? (asks keys)).map Prod.snd := rfl

theorem keyed_append (left right : List String) :
    (ofWords (left ++ right)).keyed = (ofWords left).keyed ++ (ofWords right).keyed :=
  List.filterMap_append

theorem keyed_cons {word key token : String} (split : splitKey word = some (key, token))
    (rest : List String) : (ofWords (word :: rest)).keyed = (key, token) :: (ofWords rest).keyed :=
  List.filterMap_cons_some split

theorem positional_append (left right : List String) :
    (ofWords (left ++ right)).positional = (ofWords left).positional ++ (ofWords right).positional :=
  List.filter_append left right

theorem positional_cons_keyed {word key token : String} (split : splitKey word = some (key, token))
    (rest : List String) : (ofWords (word :: rest)).positional = (ofWords rest).positional := by
  simp [ofWords, split]

/-- A later keyed word for its field hides a keyed word from every field. -/
theorem keyed?_of_shadowed {field : Field} {word word' : String} (keyed : field.Keyed word)
    (again : field.Keyed word') (other : Field) (before between after : List String) :
    (ofWords (before ++ word :: between ++ word' :: after)).keyed? other.keys =
      (ofWords (before ++ between ++ word' :: after)).keyed? other.keys := by
  obtain ⟨key, token, split, known⟩ := keyed
  obtain ⟨key', token', split', known'⟩ := again
  simp only [keyed?_eq, List.append_assoc, List.cons_append, keyed_append, keyed_cons split,
    keyed_cons split']
  rw [find?_reverse_of_shadowed]
  intro asked
  obtain rfl := Field.eq_of_mem_keys known (List.contains_iff_mem.mp asked)
  exact ⟨(key', token'), by simp, List.contains_iff_mem.mpr known'⟩

/-- The last keyed word for a field gives it. -/
theorem keyed?_of_last {field : Field} {word key token : String}
    (split : splitKey word = some (key, token)) (known : key ∈ field.keys) (before : List String)
    {after : List String} (last : ∀ later ∈ after, ¬ field.Keyed later) :
    (ofWords (before ++ word :: after)).keyed? field.keys = some token := by
  have none : (ofWords after).keyed.reverse.find? (asks field.keys) = none := by
    rw [List.find?_eq_none]
    rintro ⟨later, value⟩ member asked
    obtain ⟨word, inside, split⟩ := List.mem_filterMap.mp (List.mem_reverse.mp member)
    exact last word inside ⟨later, value, split, List.contains_iff_mem.mp asked⟩
  have own : asks field.keys (key, token) = true := List.contains_iff_mem.mpr known
  simp [keyed?_eq, keyed_append, keyed_cons split, none, own]

theorem keyed?_eq_none {field : Field} {words : List String}
    (unkeyed : ∀ word ∈ words, ¬ field.Keyed word) : (ofWords words).keyed? field.keys = none := by
  rw [keyed?_eq, Option.map_eq_none_iff, List.find?_eq_none]
  rintro ⟨key, token⟩ member asked
  obtain ⟨word, inside, split⟩ := List.mem_filterMap.mp (List.mem_reverse.mp member)
  exact unkeyed word inside ⟨key, token, split, List.contains_iff_mem.mp asked⟩

end Arguments

/-! ## Actions and their fields -/

theorem Value.token_ofToken (token : String) : (ofToken token).token = token := by
  rw [ofToken]
  split <;> rfl

namespace Action

/-- What a field of an action holds, as it is written. -/
def token? : Action → Field → Option String
  | .sample arguments, .pitch => some arguments.pitch.token
  | .sample arguments, .timescale => some arguments.timescale.token
  | .sample arguments, .volume => arguments.volume.map Value.token
  | .sample arguments, .pan => arguments.pan.map Value.token
  | .tone arguments, .beats => some arguments.beats.token
  | .tone arguments, .waveform => arguments.waveform
  | .tone arguments, .volume => arguments.volume.map Value.token
  | .tone arguments, .pan => arguments.pan.map Value.token
  | .slide arguments, .beats => some arguments.beats.token
  | .slide arguments, .waveform => arguments.waveform
  | .slide arguments, .volume => arguments.volume.map Value.token
  | .slide arguments, .pan => arguments.pan.map Value.token
  | .play _ mix, .volume | .loop _ _ mix, .volume => mix.volume.map Value.token
  | .play _ mix, .pan | .loop _ _ mix, .pan => mix.pan.map Value.token
  | _, _ => none

section Fields

variable (arguments : Arguments)

theorem ofSample_eq : ofSample arguments =
    match Verb.named .sample arguments.positional with
    | [name] => .sample
        { name
          pitch := ((arguments.given? .sample .pitch).map Value.ofToken).getD one
          timescale := ((arguments.given? .sample .timescale).map Value.ofToken).getD one
          volume := (arguments.given? .sample .volume).map Value.ofToken
          pan := (arguments.given? .sample .pan).map Value.ofToken }
    | _ => .invalid .sampleName := by
  obtain ⟨_ | ⟨name, rest⟩, keyed⟩ := arguments <;> rfl

theorem ofTone_eq : ofTone arguments =
    match Verb.named .tone arguments.positional with
    | [pitch] => .tone
        { pitch := .ofToken pitch
          beats := ((arguments.given? .tone .beats).map Value.ofToken).getD one
          waveform := arguments.given? .tone .waveform
          volume := (arguments.given? .tone .volume).map Value.ofToken
          pan := (arguments.given? .tone .pan).map Value.ofToken }
    | _ => .invalid .tonePitch := by
  obtain ⟨_ | ⟨pitch, rest⟩, keyed⟩ := arguments <;> rfl

theorem ofSlide_eq : ofSlide arguments =
    match Verb.named .slide arguments.positional, arguments.given? .slide .beats with
    | [source, target], some beats => .slide
        { source := .ofToken source
          target := .ofToken target
          beats := .ofToken beats
          waveform := arguments.given? .slide .waveform
          volume := (arguments.given? .slide .volume).map Value.ofToken
          pan := (arguments.given? .slide .pan).map Value.ofToken }
    | [_, _], none => .invalid .slideBeats
    | _, _ => .invalid .slidePitches := by
  have beats : arguments.value? Verb.beatsKey 2 =
      (arguments.given? .slide .beats).map Value.ofToken := rfl
  rw [ofSlide, beats]
  obtain ⟨_ | ⟨source, _ | ⟨target, rest⟩⟩, keyed⟩ := arguments
  · rfl
  · rfl
  · cases Arguments.given? ⟨source :: target :: rest, keyed⟩ .slide .beats <;> rfl

theorem mixArguments_eq (verb : Verb) (unslotted : verb.slot? = fun _ => none) :
    mixArguments arguments =
      { volume := (arguments.given? verb .volume).map Value.ofToken
        pan := (arguments.given? verb .pan).map Value.ofToken } := by
  simp only [mixArguments, Arguments.keyedValue?, Arguments.given?, unslotted, Option.bind_none,
    Option.or_none]
  rfl

end Fields

/-- An action is made of words that are no fields, and of its fields. -/
theorem ofArguments_congr {verb : Verb} (fielded : verb.fields ≠ []) {arguments arguments' : Arguments}
    (named : verb.named arguments.positional = verb.named arguments'.positional)
    (fields : ∀ field ∈ verb.fields, arguments.given? verb field = arguments'.given? verb field) :
    ofArguments arguments verb = ofArguments arguments' verb := by
  cases verb with
  | sample =>
    rw [ofArguments, ofArguments, ofSample_eq, ofSample_eq, named, fields .pitch (by decide),
      fields .timescale (by decide), fields .volume (by decide), fields .pan (by decide)]
  | tone =>
    rw [ofArguments, ofArguments, ofTone_eq, ofTone_eq, named, fields .beats (by decide),
      fields .waveform (by decide), fields .volume (by decide), fields .pan (by decide)]
  | slide =>
    rw [ofArguments, ofArguments, ofSlide_eq, ofSlide_eq, named, fields .beats (by decide),
      fields .waveform (by decide), fields .volume (by decide), fields .pan (by decide)]
  | play =>
    have positional : arguments.positional = arguments'.positional := named
    rw [ofArguments, ofArguments, ofPlay, ofPlay, positional,
      mixArguments_eq arguments .play rfl, mixArguments_eq arguments' .play rfl,
      fields .volume (by decide), fields .pan (by decide)]
  | loop =>
    have positional : arguments.positional = arguments'.positional := named
    rw [ofArguments, ofArguments, ofLoop, ofLoop, positional,
      mixArguments_eq arguments .loop rfl, mixArguments_eq arguments' .loop rfl,
      fields .volume (by decide), fields .pan (by decide)]
  | wait | bpm | set | effect => exact absurd rfl fielded

/-- The default of a field that has one, as it would be written. -/
def standIn? : Verb → Field → Option String
  | .sample, .pitch | .sample, .timescale | .tone, .beats => some one.token
  | _, _ => none

theorem token_getD (given : Option String) (default : Value) :
    some ((given.map Value.ofToken).getD default).token = given.or (some default.token) := by
  cases given <;> simp [Value.token_ofToken]

theorem map_token (given : Option String) :
    (given.map Value.ofToken).map Value.token = given.or none := by
  cases given <;> simp [Value.token_ofToken]

/-- Where nothing is missing, a field holds what it is given. -/
theorem token?_ofArguments {verb : Verb} {field : Field} (taken : field ∈ verb.fields)
    {arguments : Arguments} (faultless : ∀ fault, ofArguments arguments verb ≠ .invalid fault) :
    (ofArguments arguments verb).token? field =
      (arguments.given? verb field).or (standIn? verb field) := by
  cases verb with
  | sample =>
    rw [ofArguments, ofSample_eq] at faultless ⊢
    generalize Verb.named .sample arguments.positional = names at faultless ⊢
    split at faultless
    · cases field <;> simp [Verb.fields] at taken
      · exact token_getD _ one
      · exact token_getD _ one
      · exact map_token _
      · exact map_token _
    · exact absurd rfl (faultless _)
  | tone =>
    rw [ofArguments, ofTone_eq] at faultless ⊢
    generalize Verb.named .tone arguments.positional = names at faultless ⊢
    split at faultless
    · cases field <;> simp [Verb.fields] at taken
      · exact token_getD _ one
      · exact Option.or_none.symm
      · exact map_token _
      · exact map_token _
    · exact absurd rfl (faultless _)
  | slide =>
    rw [ofArguments, ofSlide_eq] at faultless ⊢
    generalize Verb.named .slide arguments.positional = names at faultless ⊢
    rcases names with _ | ⟨source, _ | ⟨target, _ | ⟨extra, rest⟩⟩⟩
    · exact absurd rfl (faultless .slidePitches)
    · exact absurd rfl (faultless .slidePitches)
    · cases beats : arguments.given? .slide .beats with
      | none =>
        rw [beats] at faultless
        exact absurd rfl (faultless .slideBeats)
      | some length =>
        cases field <;> simp [Verb.fields] at taken
        · rw [beats]
          exact congrArg some (Value.token_ofToken length)
        · exact Option.or_none.symm
        · exact map_token _
        · exact map_token _
    · exact absurd rfl (faultless .slidePitches)
  | play =>
    rw [ofArguments, ofPlay, mixArguments_eq arguments .play rfl] at faultless ⊢
    split at faultless
    · exact absurd rfl (faultless _)
    · cases field <;> simp [Verb.fields] at taken
      · exact map_token _
      · exact map_token _
  | loop =>
    rw [ofArguments, ofLoop, mixArguments_eq arguments .loop rfl] at faultless ⊢
    split at faultless
    · exact absurd rfl (faultless _)
    · exact absurd rfl (faultless _)
    · cases field <;> simp [Verb.fields] at taken
      · exact map_token _
      · exact map_token _
  | wait | bpm | set | effect => cases taken

end Action

/-! ## Commands -/

namespace Command

theorem action_cons (line : Nat) {first : String} {verb : Verb} (known : Verb.ofWord? first = some verb)
    (words : List String) :
    (ofWords line (first :: words)).action = Action.ofArguments (.ofWords words) verb :=
  Action.ofWords_cons known words

end Command

/-- How a verb with fields reads the words that come after it. -/
structure Verb.GivesFields (verb : Verb) (read : List String → Action) : Prop where
  /-- A keyed word can be left out if there is a later one for its field. -/
  shadowed : ∀ (field : Field) (before between after : List String) (word word' : String),
    field.Keyed word → field.Keyed word' →
    read (before ++ word :: between ++ word' :: after) = read (before ++ between ++ word' :: after)
  /-- In the slot of a keyed field any positional word can stand, or none behind the others. -/
  hidden : ∀ (field : Field) (slot : Nat) (words words' : List String),
    verb.slot? field = some slot → (∃ word ∈ words, field.Keyed word) →
    words.filterMap splitKey = words'.filterMap splitKey →
    (∀ position, position ≠ slot → (Arguments.ofWords words).positional[position]? =
      (Arguments.ofWords words').positional[position]?) →
    read words = read words'
  /-- The last keyed word for a field gives it. -/
  keyed : ∀ (field : Field) (before after : List String) (word key token : String),
    field ∈ verb.fields → (∀ fault, read (before ++ word :: after) ≠ .invalid fault) →
    splitKey word = some (key, token) → key ∈ field.keys → (∀ later ∈ after, ¬ field.Keyed later) →
    (read (before ++ word :: after)).token? field = some token
  /-- A field without a keyed word is given by the positional word in its slot, whatever other fields
  are keyed. -/
  slotted : ∀ (field : Field) (words : List String),
    field ∈ verb.fields → (∀ fault, read words ≠ .invalid fault) →
    (∀ word ∈ words, ¬ field.Keyed word) →
    (read words).token? field =
      ((verb.slot? field).bind ((Arguments.ofWords words).positional[·]?)).or
        (Action.standIn? verb field)

theorem Arguments.exists_keyed? {field : Field} {words : List String}
    (keyed : ∃ word ∈ words, field.Keyed word) :
    ∃ token, (ofWords words).keyed? field.keys = some token := by
  obtain ⟨word, member, key, token, split, known⟩ := keyed
  have inside : (key, token) ∈ (ofWords words).keyed.reverse :=
    List.mem_reverse.mpr (List.mem_filterMap.mpr ⟨word, member, split⟩)
  have found : ((ofWords words).keyed.reverse.find? (asks field.keys)).isSome = true :=
    List.find?_isSome.mpr ⟨(key, token), inside, List.contains_iff_mem.mpr known⟩
  obtain ⟨last, found⟩ := Option.isSome_iff_exists.mp found
  exact ⟨last.2, by rw [keyed?_eq, found]; rfl⟩

theorem Action.givesFields {verb : Verb} (fielded : verb.fields ≠ []) :
    verb.GivesFields fun words => ofArguments (.ofWords words) verb where
  shadowed := by
    intro field before between after word word' keyed again
    have positional : (Arguments.ofWords (before ++ word :: between ++ word' :: after)).positional =
        (Arguments.ofWords (before ++ between ++ word' :: after)).positional := by
      obtain ⟨key, token, split, -⟩ := keyed
      simp only [List.append_assoc, List.cons_append, Arguments.positional_append,
        Arguments.positional_cons_keyed split]
    refine ofArguments_congr fielded (congrArg verb.named positional) fun other _ => ?_
    rw [Arguments.given?, Arguments.given?, positional,
      Arguments.keyed?_of_shadowed keyed again other]
  hidden := by
    intro field slot words words' stands keyed sameKeyed beside
    have given : ∀ keys, (Arguments.ofWords words).keyed? keys =
        (Arguments.ofWords words').keyed? keys := by
      intro keys
      rw [Arguments.keyed?_eq, Arguments.keyed?_eq, Arguments.ofWords, Arguments.ofWords, sameKeyed]
    refine ofArguments_congr fielded (Verb.named_congr stands beside) fun other _ => ?_
    rw [Arguments.given?, Arguments.given?, ← given]
    by_cases same : field = other
    · subst same
      obtain ⟨token, found⟩ := Arguments.exists_keyed? keyed
      rw [found, Option.some_or, Option.some_or]
    · -- the slot of another field is another one
      cases stands' : verb.slot? other with
      | none => rfl
      | some slot' =>
        have different : slot' ≠ slot := by
          rintro rfl
          exact same (Verb.slot?_inj stands stands')
        rw [Option.bind_some, Option.bind_some, beside slot' different]
  keyed := by
    intro field before after word key token taken faultless split known last
    rw [token?_ofArguments taken faultless, Arguments.given?,
      Arguments.keyed?_of_last split known before last]
    rfl
  slotted := by
    intro field words taken faultless unkeyed
    rw [token?_ofArguments taken faultless, Arguments.given?, Arguments.keyed?_eq_none unkeyed,
      Option.none_or]

namespace Command

/-- What a command is depends on its verb, its positional words and its keyed words only, whatever the
verb, and a command with fields reads them off these words. -/
theorem later_key_wins_and_slots_stay (line : Nat) (first : String) :
    (∀ words words', Arguments.SameSorts words words' →
      (ofWords line (first :: words)).action = (ofWords line (first :: words')).action ∧
        (ofWords line (first :: words)).ignoredKeys =
          (ofWords line (first :: words')).ignoredKeys) ∧
    ∀ verb, Verb.ofWord? first = some verb → verb.fields ≠ [] →
      verb.GivesFields fun words => (ofWords line (first :: words)).action := by
  refine ⟨fun words words' same => ⟨?_, ?_⟩, fun verb known fielded => ?_⟩
  · change Action.ofWords (first :: words) = Action.ofWords (first :: words')
    simp only [Action.ofWords, Action.verbOfWords, List.headD_cons, List.tail_cons, same.ofWords_eq]
  · change Action.ignoredKeys (first :: words) = Action.ignoredKeys (first :: words')
    simp only [Action.ignoredKeys, Action.verbOfWords, List.headD_cons, List.tail_cons,
      same.ofWords_eq]
  · simp only [action_cons line known]
    exact Action.givesFields fielded

/-- A waveform that is keyed twice, and a length that is keyed with another word in its slot. -/
def overkeyed : List String :=
  ["C4", "wave=saw", "C5", "beats=2", "8", "square", "waveform=sine", "0.5"]

/-- The same words, the positional ones first. -/
def arranged : List String :=
  ["C4", "C5", "8", "square", "0.5", "wave=saw", "beats=2", "waveform=sine"]

/-- One waveform less, and another word in the slot of the length. -/
def pruned : List String :=
  ["C4", "C5", "long", "square", "0.5", "beats=2", "waveform=sine"]

theorem later_key_wins_and_slots_stay_slide :
    Verb.ofWord? "slide" = some .slide ∧
      (ofWords 1 ("slide" :: overkeyed)).action = (ofWords 1 ("slide" :: arranged)).action ∧
      (ofWords 1 ("slide" :: arranged)).action = (ofWords 1 ("slide" :: pruned)).action ∧
      (ofWords 1 ("slide" :: pruned)).action.token? .waveform = some "sine" ∧
      (ofWords 1 ("slide" :: pruned)).action.token? .volume = some "0.5" := by
  obtain ⟨sorts, gives⟩ := later_key_wins_and_slots_stay 1 "slide"
  have laws := gives .slide rfl (by decide)
  have faultless : ∀ fault, (ofWords 1 ("slide" :: pruned)).action ≠ .invalid fault := by
    have slides : (match (ofWords 1 ("slide" :: pruned)).action with
      | .invalid _ => false
      | _ => true) = true := by decide +kernel
    intro fault action
    rw [action] at slides
    cases slides
  -- first the earlier waveform is left out, then the word in the slot of the length is changed
  have shadowed := laws.shadowed .waveform ["C4", "C5", "8", "square", "0.5"] ["beats=2"] []
    "wave=saw" "waveform=sine" (by decide +kernel) (by decide +kernel)
  have hidden := laws.hidden .beats 2 ["C4", "C5", "8", "square", "0.5", "beats=2", "waveform=sine"]
    pruned rfl (by decide +kernel) (by decide +kernel) (by
      have positional : (Arguments.ofWords
          ["C4", "C5", "8", "square", "0.5", "beats=2", "waveform=sine"]).positional =
            ["C4", "C5", "8", "square", "0.5"] := by decide +kernel
      have positional' : (Arguments.ofWords pruned).positional =
          ["C4", "C5", "long", "square", "0.5"] := by decide +kernel
      rw [positional, positional']
      rintro (_ | _ | _ | position) other
      · rfl
      · rfl
      · exact absurd rfl other
      · rfl)
  have waveform := laws.keyed .waveform ["C4", "C5", "long", "square", "0.5", "beats=2"] []
    "waveform=sine" "waveform" "sine" (by decide) faultless (by decide +kernel) (by decide) (by simp)
  have volume := laws.slotted .volume pruned (by decide) faultless (by decide +kernel)
  refine ⟨rfl, (sorts _ _ ⟨by decide +kernel, by decide +kernel⟩).1, shadowed.trans hidden, waveform,
    volume.trans (by decide +kernel)⟩

end Command

end Sequencer
