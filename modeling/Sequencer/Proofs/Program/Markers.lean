import Sequencer.Proofs.Program.RoundTrip

/-! # What the markers of a text leave open

A reader takes rows one after another. What it does with the next one depends on two things: which
definition is open, and which names were closed before. Both can be read off the markers so far, and
`follows_addRows` says that a draft holds just that.
-/

namespace Sequencer

def Row.isMarker : Row → Bool
  | .command _ => false
  | _ => true

/-- The kind and name that a row opens. -/
def Row.opens? : Row → Option (Kind × String)
  | .opening kind name _ => some (kind, name)
  | _ => none

namespace Program

/-- The rows of a source, each with the number of its line. -/
def numberedRows (source : String) : List (Nat × Row) :=
  (Text.numbered (Text.lines source.toList)).filterMap fun line =>
    (Row.ofLine? line.2).map (line.1, ·)

theorem read_eq_addRows (source : String) :
    read source =
      (Draft.empty.addRows (numberedRows source)).finish (Text.lines source.toList).length := by
  rw [read, Draft.foldl_addLine, numberedRows]

namespace Rows

def markers (rows : List (Nat × Row)) : List Row := (rows.map Prod.snd).filter Row.isMarker

/-- The definition that the last marker opens, if it opens one. -/
def opened? (rows : List (Nat × Row)) : Option (Kind × String) :=
  (markers rows).getLast?.bind Row.opens?

/-- What the markers open, in order. -/
def openings (rows : List (Nat × Row)) : List (Kind × String) := (markers rows).filterMap Row.opens?

/-- All that was opened, except what the last marker opens. -/
def closed (rows : List (Nat × Row)) : List (Kind × String) :=
  if (opened? rows).isSome then (openings rows).dropLast else openings rows

/-- What there is to say of each row in view of the rows before it, in order. -/
def eachAfter {α : Type} (say : List (Nat × Row) → Nat × Row → List α)
    (before : List (Nat × Row)) : List (Nat × Row) → List α
  | [] => []
  | row :: rest => say before row ++ eachAfter say (before ++ [row]) rest

theorem eachAfter_concat {α : Type} (say : List (Nat × Row) → Nat × Row → List α)
    (before rows : List (Nat × Row)) (row : Nat × Row) :
    eachAfter say before (rows ++ [row]) =
      eachAfter say before rows ++ say (before ++ rows) row := by
  induction rows generalizing before with
  | nil => simp [eachAfter]
  | cons first rest inductionHypothesis =>
    simp only [List.cons_append, eachAfter, inductionHypothesis, List.append_assoc,
      List.nil_append]

variable {rows : List (Nat × Row)} {line : Nat} {row : Row}

theorem markers_concat_marker (marker : row.isMarker = true) :
    markers (rows ++ [(line, row)]) = markers rows ++ [row] := by
  simp [markers, marker]

@[simp]
theorem markers_concat_command (text : List Char) :
    markers (rows ++ [(line, .command text)]) = markers rows := by
  simp [markers, Row.isMarker]

@[simp]
theorem opened?_concat_command (text : List Char) :
    opened? (rows ++ [(line, .command text)]) = opened? rows := by
  rw [opened?, markers_concat_command, opened?]

@[simp]
theorem opened?_concat_opening (kind : Kind) (name : String) (written : List Char) :
    opened? (rows ++ [(line, .opening kind name written)]) = some (kind, name) := by
  rw [opened?, markers_concat_marker rfl, List.getLast?_concat]
  rfl

@[simp]
theorem opened?_concat_ending (kind : Kind) :
    opened? (rows ++ [(line, .ending kind)]) = none := by
  rw [opened?, markers_concat_marker rfl, List.getLast?_concat]
  rfl

@[simp]
theorem openings_concat_command (text : List Char) :
    openings (rows ++ [(line, .command text)]) = openings rows := by
  rw [openings, markers_concat_command, openings]

@[simp]
theorem openings_concat_opening (kind : Kind) (name : String) (written : List Char) :
    openings (rows ++ [(line, .opening kind name written)]) = openings rows ++ [(kind, name)] := by
  rw [openings, markers_concat_marker rfl, List.filterMap_append]
  rfl

@[simp]
theorem openings_concat_ending (kind : Kind) :
    openings (rows ++ [(line, .ending kind)]) = openings rows := by
  rw [openings, markers_concat_marker rfl, List.filterMap_append]
  exact List.append_nil _

@[simp]
theorem closed_concat_command (text : List Char) :
    closed (rows ++ [(line, .command text)]) = closed rows := by
  simp [closed]

@[simp]
theorem closed_concat_opening (kind : Kind) (name : String) (written : List Char) :
    closed (rows ++ [(line, .opening kind name written)]) = openings rows := by
  simp [closed]

@[simp]
theorem closed_concat_ending (kind : Kind) :
    closed (rows ++ [(line, .ending kind)]) = openings rows := by
  simp [closed]

/-- Only markers open a definition. -/
theorem openings_eq_filterMap (rows : List (Nat × Row)) :
    openings rows = rows.filterMap fun row => row.2.opens? := by
  rw [openings, markers, List.filterMap_filter, List.filterMap_map]
  congr 1
  funext row
  obtain ⟨line, ⟨kind, name, written⟩ | ⟨kind⟩ | ⟨text⟩⟩ := row <;> rfl

/-- What is open was opened last. -/
theorem openings_eq_concat {opening : Kind × String} (isOpen : opened? rows = some opening) :
    openings rows = closed rows ++ [opening] := by
  obtain ⟨marker, last, opens⟩ := Option.bind_eq_some_iff.mp isOpen
  obtain ⟨earlier, found⟩ := List.getLast?_eq_some_iff.mp last
  have split : openings rows = earlier.filterMap Row.opens? ++ [opening] := by
    simp [openings, found, opens]
  rw [closed, isOpen, split]
  simp

theorem closed_of_none (isClosed : opened? rows = none) : closed rows = openings rows := by
  simp [closed, isClosed]

end Rows

/-- The effects of a header, and none when it cannot be read. -/
def readableEffects (written : List Char) : List (Effect Float) :=
  match Header.read written with
  | .ok effects => effects
  | .error _ => []

/-- What there is to say of a header: the text in it that is no effect. -/
def unreadable (line : Nat) (written : List Char) : List Irregularity :=
  match Header.read written with
  | .ok _ => []
  | .error text => [.unreadableEffect line text]

namespace Draft

/-! ## What each step does to a draft -/

/-- The definitions of a kind, with the open one declared. -/
def declared (draft : Draft) (kind : Kind) : List Definition :=
  match draft.opened with
  | none => draft.definitions kind
  | some opened =>
    if kind = opened.kind then Definitions.declare opened.definition (draft.definitions kind)
    else draft.definitions kind

/-- What there is to say of declaring the open definition. -/
def redeclared (draft : Draft) (line : Nat) : List Irregularity :=
  match draft.opened with
  | none => []
  | some opened =>
    if Definitions.declares (draft.definitions opened.kind) opened.name then
      [.redeclared line opened.name opened.kind]
    else []

section Steps

variable (draft : Draft) (line : Nat) (kind : Kind) (name : String) (written : List Char)
  (notice : Opened → Option Irregularity) (irregularity : Irregularity) (opened : Opened)

@[simp]
theorem globals_define (definition : Definition) :
    (draft.define kind definition).globals = draft.globals := by
  cases kind <;> rfl

@[simp]
theorem irregularities_define (definition : Definition) :
    (draft.define kind definition).irregularities = draft.irregularities := by
  cases kind <;> rfl

@[simp]
theorem opened_define (definition : Definition) :
    (draft.define kind definition).opened = draft.opened := by
  cases kind <;> rfl

@[simp]
theorem definitions_note : (draft.note irregularity).definitions kind = draft.definitions kind := by
  cases kind <;> rfl

/-- Only the lists of definitions count for the definitions of a draft. -/
theorem definitions_mk (globals : Array Command) (irregularities : Array Irregularity)
    (opened : Option Opened) :
    (Draft.mk globals draft.blocks draft.customSamples irregularities opened).definitions kind =
      draft.definitions kind := by
  cases kind <;> rfl

@[simp]
theorem globals_close : (draft.close line opened).globals = draft.globals := by
  rw [close]
  split <;> simp [note]

@[simp]
theorem opened_close : (draft.close line opened).opened = none := by
  rw [close]
  split <;> simp [note]

theorem definitions_close :
    (draft.close line opened).definitions kind =
      if kind = opened.kind then
        Definitions.declare opened.definition (draft.definitions kind)
      else draft.definitions kind := by
  rw [close]
  split <;> simp [definitions_define, definitions_mk]

theorem irregularities_close :
    (draft.close line opened).irregularities.toList =
      draft.irregularities.toList ++
        if Definitions.declares (draft.definitions opened.kind) opened.name then
          [.redeclared line opened.name opened.kind]
        else [] := by
  rw [close]
  split <;> simp [note]

@[simp]
theorem globals_closeWith : (draft.closeWith line notice).globals = draft.globals := by
  rw [closeWith]
  split
  · rfl
  · split <;> simp [note]

@[simp]
theorem opened_closeWith : (draft.closeWith line notice).opened = none := by
  rw [closeWith]
  split
  · assumption
  · split <;> simp

/-- What is said of a definition has no part in how it is declared. -/
@[simp]
theorem definitions_closeWith :
    (draft.closeWith line notice).definitions kind = draft.declared kind := by
  rw [closeWith, declared]
  cases draft.opened with
  | none => rfl
  | some opened =>
    dsimp only
    cases notice opened <;> simp [definitions_close]

theorem irregularities_closeWith :
    (draft.closeWith line notice).irregularities.toList =
      draft.irregularities.toList ++ (draft.opened.bind notice).toList ++ draft.redeclared line := by
  rw [closeWith, redeclared]
  cases draft.opened with
  | none => simp
  | some opened =>
    dsimp only [Option.bind_some]
    cases notice opened with
    | none => simp [irregularities_close]
    | some irregularity => simp [irregularities_close, note, definitions_mk]

@[simp]
theorem globals_openDefinition :
    (draft.openDefinition line kind name written).globals = draft.globals := by
  rw [openDefinition]
  dsimp only
  split <;> simp [note]

@[simp]
theorem opened_openDefinition :
    (draft.openDefinition line kind name written).opened =
      some { kind, name, effects := readableEffects written, commands := #[] } := by
  rw [openDefinition, readableEffects]
  cases Header.read written <;> rfl

@[simp]
theorem definitions_openDefinition (other : Kind) :
    (draft.openDefinition line kind name written).definitions other = draft.declared other := by
  rw [openDefinition]
  dsimp only
  split <;> simp [definitions_mk, note]

theorem irregularities_openDefinition :
    (draft.openDefinition line kind name written).irregularities.toList =
      draft.irregularities.toList ++
        (draft.opened.map fun opened => .autoClosed line opened.name opened.kind).toList ++
        draft.redeclared line ++ unreadable line written := by
  have ready := draft.irregularities_closeWith line fun opened =>
    some (.autoClosed line opened.name opened.kind)
  rw [openDefinition, unreadable]
  cases Header.read written <;> simp [note, ready, Option.map_eq_bind]

@[simp]
theorem globals_endDefinition : (draft.endDefinition line kind).globals = draft.globals := by
  rw [endDefinition]
  split <;> simp [note]

@[simp]
theorem opened_endDefinition : (draft.endDefinition line kind).opened = none := by
  rw [endDefinition]
  split
  · assumption
  · simp

@[simp]
theorem definitions_endDefinition (other : Kind) :
    (draft.endDefinition line kind).definitions other = draft.declared other := by
  rw [endDefinition]
  split
  · next isClosed => simp [declared, isClosed]
  · simp

@[simp]
theorem definitions_addCommand (command : Command) :
    (draft.addCommand command).definitions kind = draft.definitions kind := by
  rw [addCommand]
  split <;> simp [definitions_mk]

@[simp]
theorem irregularities_addCommand (command : Command) :
    (draft.addCommand command).irregularities = draft.irregularities := by
  rw [addCommand]
  split <;> rfl

end Steps

/-! ## Drafts follow the markers -/

/-- A draft has open what the rows leave open, and has declared what they closed. -/
structure Follows (rows : List (Nat × Row)) (draft : Draft) : Prop where
  opened : draft.opened.map (fun opened => (opened.kind, opened.name)) = Rows.opened? rows
  declares : ∀ kind name,
    Definitions.declares (draft.definitions kind) name = true ↔ (kind, name) ∈ Rows.closed rows

theorem follows_empty : empty.Follows [] where
  opened := rfl
  declares := by
    rintro (_ | _) name <;> simp [Definitions.declares, definitions, empty, Rows.closed,
      Rows.openings, Rows.markers]

namespace Follows

variable {rows : List (Nat × Row)} {draft : Draft}

/-- With the open definition declared, everything that was opened is declared. -/
theorem declares_declared (follows : draft.Follows rows) (kind : Kind) (name : String) :
    Definitions.declares (draft.declared kind) name = true ↔ (kind, name) ∈ Rows.openings rows := by
  have isOpen := follows.opened
  rw [declared]
  cases found : draft.opened with
  | none =>
    rw [found] at isOpen
    rw [follows.declares, Rows.closed_of_none isOpen.symm]
  | some opened =>
    rw [found] at isOpen
    rw [Rows.openings_eq_concat isOpen.symm, List.mem_append, List.mem_singleton,
      ← follows.declares, Prod.mk.injEq]
    dsimp only
    split
    · next same =>
      subst same
      simp only [Definitions.declares_iff, Definitions.names_declare, true_and]
      split
      · next known =>
        -- the name keeps its place, so that nothing is new
        refine ⟨Or.inl, ?_⟩
        rintro (old | rfl)
        · exact old
        · exact known
      · rw [List.mem_append, List.mem_singleton]
        rfl
    · next different => simp [different]

theorem addRow (follows : draft.Follows rows) (line : Nat) (row : Row) :
    (draft.addRow line row).Follows (rows ++ [(line, row)]) := by
  cases row with
  | opening kind name written =>
    exact ⟨by simp [Draft.addRow], by simpa [Draft.addRow] using follows.declares_declared⟩
  | ending kind =>
    exact ⟨by simp [Draft.addRow], by simpa [Draft.addRow] using follows.declares_declared⟩
  | command text =>
    refine ⟨?_, by simpa [Draft.addRow] using follows.declares⟩
    have opened := follows.opened
    simp only [Draft.addRow, addCommand]
    split
    · simpa using opened
    · next found =>
      rw [found] at opened
      simpa using opened

end Follows

theorem addRows_concat (draft : Draft) (rows : List (Nat × Row)) (row : Nat × Row) :
    draft.addRows (rows ++ [row]) = (draft.addRows rows).addRow row.1 row.2 :=
  addRows_append draft rows [row]

/-- A draft follows the rows it has taken. -/
theorem follows_addRows (rows : List (Nat × Row)) : (empty.addRows rows).Follows rows := by
  -- what a row does depends on all rows before it, so that the last one is taken off
  induction rows using List.reverseRecOn with
  | nil => exact follows_empty
  | append_singleton rows row inductionHypothesis =>
    rw [addRows_concat]
    exact inductionHypothesis.addRow row.1 row.2

end Draft

end Program

end Sequencer
