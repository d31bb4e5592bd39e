import Sequencer.Proofs.Program.Markers

/-! # Where the commands of a text go

A command belongs to the definition that the last marker before it opens, and to the globals when
that marker opens none. `Places` states this for a whole program by rules on the rows alone, and
`read_places` says that every program that is read is placed so, whatever its markers have wrong.
-/

namespace Sequencer

/-! ## Declaring definitions one after another -/

namespace Definitions

def declareAll (definitions added : List Definition) : List Definition :=
  added.foldl (fun declared definition => declare definition declared) definitions

/-- The definitions whose name does not come again. -/
def standing : List Definition → List Definition
  | [] => []
  | definition :: rest =>
    if definition.name ∈ rest.map Definition.name then standing rest
    else definition :: standing rest

/-- The definitions whose name comes again later. -/
def superseded : List Definition → List Definition
  | [] => []
  | definition :: rest =>
    if definition.name ∈ rest.map Definition.name then definition :: superseded rest
    else superseded rest

theorem standing_append_superseded_perm (definitions : List Definition) :
    (standing definitions ++ superseded definitions).Perm definitions := by
  induction definitions with
  | nil => exact .nil
  | cons definition rest inductionHypothesis =>
    rw [standing, superseded]
    split
    · exact List.perm_middle.trans (inductionHypothesis.cons definition)
    · exact inductionHypothesis.cons definition

/-- A definition that comes last stands in place of all others of its name. -/
theorem standing_concat (definitions : List Definition) (last : Definition) :
    standing (definitions ++ [last]) =
      (standing definitions).filter (fun definition => definition.name ≠ last.name) ++ [last] := by
  induction definitions with
  | nil => simp [standing]
  | cons definition rest inductionHypothesis =>
    rw [List.cons_append, standing, standing, inductionHypothesis, List.map_append]
    by_cases again : definition.name ∈ rest.map Definition.name
    · rw [if_pos (List.mem_append_left _ again), if_pos again]
    · rw [if_neg again]
      by_cases same : definition.name = last.name <;> simp [again, same]

section Declare

variable (definition : Definition) {first : Definition} {rest definitions : List Definition}

theorem declare_cons_of_ne (different : first.name ≠ definition.name) :
    declare definition (first :: rest) = first :: declare definition rest := by
  by_cases known : definition.name ∈ rest.map Definition.name
  · have knownThen := List.mem_cons_of_mem first.name known
    rw [← List.map_cons] at knownThen
    rw [declare, declare, if_pos ((declares_iff _ _).mpr knownThen),
      if_pos ((declares_iff _ _).mpr known)]
    simp [different]
  · have unknownThen : definition.name ∉ (first :: rest).map Definition.name := by
      simpa [Ne.symm different] using known
    rw [declare_of_fresh known, declare_of_fresh unknownThen, List.cons_append]

/-- The first definition of the name gives up its place, and there is no second one. -/
theorem declare_cons_of_eq (same : first.name = definition.name)
    (fresh : definition.name ∉ rest.map Definition.name) :
    declare definition (first :: rest) = definition :: rest := by
  have others : ∀ old ∈ rest,
      (if old.name == definition.name then definition else old) = old := by
    intro old member
    simp [ne_of_fresh fresh member]
  rw [declare, if_pos (by simp [declares, same]), List.map_cons, List.map_congr_left others,
    List.map_id']
  simp [same]

theorem find?_declare (distinct : (definitions.map Definition.name).Nodup) (name : String) :
    find? (declare definition definitions) name =
      if definition.name = name then some definition else find? definitions name := by
  induction definitions with
  | nil => by_cases asked : definition.name = name <;> simp [declare, declares, find?, asked]
  | cons first rest inductionHypothesis =>
    rw [List.map_cons, List.nodup_cons] at distinct
    by_cases same : first.name = definition.name
    · rw [declare_cons_of_eq definition same (same ▸ distinct.1), find?_cons, find?_cons, same]
      split <;> rfl
    · rw [declare_cons_of_ne definition same, find?_cons, inductionHypothesis distinct.2, find?_cons]
      by_cases found : first.name = name
      · have other : definition.name ≠ name := fun asked => same (found.trans asked.symm)
        simp [found, other]
      · simp [found]

theorem declare_perm (distinct : (definitions.map Definition.name).Nodup) :
    (declare definition definitions).Perm
      (definitions.filter (fun old => old.name ≠ definition.name) ++ [definition]) := by
  induction definitions with
  | nil => exact .refl _
  | cons first rest inductionHypothesis =>
    rw [List.map_cons, List.nodup_cons] at distinct
    by_cases same : first.name = definition.name
    · have fresh : definition.name ∉ rest.map Definition.name := same ▸ distinct.1
      have others : rest.filter (fun old => old.name ≠ definition.name) = rest :=
        List.filter_eq_self.mpr fun old member => by simpa using ne_of_fresh fresh member
      rw [declare_cons_of_eq definition same fresh, List.filter_cons_of_neg (by simpa using same),
        others]
      exact (List.perm_append_singleton definition rest).symm
    · rw [declare_cons_of_ne definition same, List.filter_cons_of_pos (by simpa using same)]
      exact (inductionHypothesis distinct.2).cons first

end Declare

theorem declareAll_concat (definitions added : List Definition) (definition : Definition) :
    declareAll definitions (added ++ [definition]) =
      declare definition (declareAll definitions added) := by
  simp [declareAll]

theorem declareAll_append (definitions first second : List Definition) :
    declareAll definitions (first ++ second) = declareAll (declareAll definitions first) second :=
  List.foldl_append

theorem names_declareAll (added : List Definition) :
    (declareAll [] added).map Definition.name = (added.map Definition.name).eraseDups := by
  induction added using List.reverseRecOn with
  | nil => rfl
  | append_singleton added definition inductionHypothesis =>
    rw [declareAll_concat, names_declare, inductionHypothesis, List.map_append,
      List.map_singleton, List.eraseDups_append]
    by_cases known : definition.name ∈ added.map Definition.name
    · have nothing : [definition.name].removeAll (added.map Definition.name) = [] := by
        simpa [List.removeAll, List.filter_cons] using known
      rw [if_pos (List.mem_eraseDups.mpr known), nothing, List.eraseDups_nil, List.append_nil]
    · have itself :
          [definition.name].removeAll (added.map Definition.name) = [definition.name] := by
        simpa [List.removeAll, List.filter_cons] using known
      rw [if_neg (mt List.mem_eraseDups.mp known), itself, List.eraseDups_cons]
      rfl

theorem nodup_declareAll {definitions : List Definition} (added : List Definition)
    (distinct : (definitions.map Definition.name).Nodup) :
    ((declareAll definitions added).map Definition.name).Nodup := by
  induction added generalizing definitions with
  | nil => exact distinct
  | cons definition rest inductionHypothesis =>
    exact inductionHypothesis (nodup_declare definition distinct)

theorem find?_declareAll_of_fresh {definitions added : List Definition}
    (distinct : (definitions.map Definition.name).Nodup) {name : String}
    (fresh : name ∉ added.map Definition.name) :
    find? (declareAll definitions added) name = find? definitions name := by
  induction added generalizing definitions with
  | nil => rfl
  | cons definition rest inductionHypothesis =>
    rw [List.map_cons, List.mem_cons, not_or] at fresh
    rw [declareAll, List.foldl_cons, ← declareAll,
      inductionHypothesis (nodup_declare definition distinct) fresh.2,
      find?_declare definition distinct, if_neg (Ne.symm fresh.1)]

/-- The last definition of a name is found under it. -/
theorem find?_declareAll_last (earlier : List Definition) (definition : Definition)
    {later : List Definition} (last : definition.name ∉ later.map Definition.name) :
    find? (declareAll [] (earlier ++ definition :: later)) definition.name = some definition := by
  have distinct : ((declareAll [] earlier).map Definition.name).Nodup :=
    nodup_declareAll earlier List.nodup_nil
  rw [declareAll_append, declareAll, List.foldl_cons, ← declareAll,
    find?_declareAll_of_fresh (nodup_declare definition distinct) last,
    find?_declare definition distinct, if_pos rfl]

/-- What is declared in the end are the definitions that stand. -/
theorem declareAll_perm_standing (added : List Definition) :
    (declareAll [] added).Perm (standing added) := by
  induction added using List.reverseRecOn with
  | nil => exact .nil
  | append_singleton added definition inductionHypothesis =>
    have distinct : ((declareAll [] added).map Definition.name).Nodup :=
      nodup_declareAll added List.nodup_nil
    rw [declareAll_concat, standing_concat]
    exact (declare_perm definition distinct).trans
      ((inductionHypothesis.filter _).append_right _)

theorem declareAll_append_superseded_perm (added : List Definition) :
    (declareAll [] added ++ superseded added).Perm added :=
  ((declareAll_perm_standing added).append_right _).trans (standing_append_superseded_perm added)

end Definitions

namespace Program

/-! ## Where the rows belong -/

namespace Rows

def command? : Nat × Row → Option Command
  | (line, .command text) => some (Command.ofText line text)
  | _ => none

/-- The commands up to the next marker. -/
def leadingCommands (rows : List (Nat × Row)) : List Command :=
  (rows.takeWhile fun row => !row.2.isMarker).filterMap command?

/-- A command is global when nothing is open before it. -/
def globalsAt (before : List (Nat × Row)) (row : Nat × Row) : List Command :=
  if (opened? before).isNone then (command? row).toList else []

/-- The definitions of a kind as they are opened, those that are superseded later included. -/
def definitionsIn (kind : Kind) : List (Nat × Row) → List Definition
  | [] => []
  | (_, .opening other name written) :: rest =>
    if other = kind then
      { name, commands := leadingCommands rest, effects := readableEffects written } ::
        definitionsIn kind rest
    else definitionsIn kind rest
  | (_, .ending _) :: rest => definitionsIn kind rest
  | (_, .command _) :: rest => definitionsIn kind rest

/-- The names that are opened for a kind, in order. -/
def namesOpened (kind : Kind) (rows : List (Nat × Row)) : List String :=
  ((openings rows).filter fun opening => opening.1 = kind).map Prod.snd

/-- What the rows make of a program: which commands are global, which names stand in which order,
what stands under a name, and that no command is lost or there twice. -/
structure Places (rows : List (Nat × Row)) (program : Program) : Prop where
  globals : program.globals = eachAfter globalsAt [] rows
  names : ∀ kind,
    (program.definitions kind).map Definition.name = (namesOpened kind rows).eraseDups
  last : ∀ (before : List (Nat × Row)) (line : Nat) (kind : Kind) (name : String)
      (written : List Char) (rest : List (Nat × Row)),
    rows = before ++ (line, .opening kind name written) :: rest → (kind, name) ∉ openings rest →
      Definitions.find? (program.definitions kind) name =
        some { name, commands := leadingCommands rest, effects := readableEffects written }
  commands : (rows.filterMap command?).Perm
    (program.commands ++
      (Definitions.superseded (definitionsIn .customSample rows)).flatMap Definition.commands ++
      (Definitions.superseded (definitionsIn .block rows)).flatMap Definition.commands)

@[simp]
theorem leadingCommands_opening (line : Nat) (kind : Kind) (name : String) (written : List Char)
    (rest : List (Nat × Row)) :
    leadingCommands ((line, .opening kind name written) :: rest) = [] := rfl

@[simp]
theorem leadingCommands_ending (line : Nat) (kind : Kind) (rest : List (Nat × Row)) :
    leadingCommands ((line, .ending kind) :: rest) = [] := rfl

@[simp]
theorem leadingCommands_command (line : Nat) (text : List Char) (rest : List (Nat × Row)) :
    leadingCommands ((line, .command text) :: rest) =
      Command.ofText line text :: leadingCommands rest := rfl

theorem names_definitionsIn (kind : Kind) (rows : List (Nat × Row)) :
    (definitionsIn kind rows).map Definition.name = namesOpened kind rows := by
  rw [namesOpened, openings_eq_filterMap]
  induction rows with
  | nil => rfl
  | cons row rest inductionHypothesis =>
    obtain ⟨line, ⟨other, name, written⟩ | ⟨other⟩ | ⟨text⟩⟩ := row
    · by_cases same : other = kind <;>
        simp [definitionsIn, Row.opens?, same, inductionHypothesis]
    · exact inductionHypothesis
    · exact inductionHypothesis

theorem mem_namesOpened {kind : Kind} {name : String} {rows : List (Nat × Row)} :
    name ∈ namesOpened kind rows ↔ (kind, name) ∈ openings rows := by
  simp [namesOpened]

/-- The rows before have no part in the definitions that are opened after them. -/
theorem definitionsIn_append (kind : Kind) (before rest : List (Nat × Row)) :
    ∃ earlier, definitionsIn kind (before ++ rest) = earlier ++ definitionsIn kind rest := by
  induction before with
  | nil => exact ⟨[], rfl⟩
  | cons row before inductionHypothesis =>
    obtain ⟨earlier, split⟩ := inductionHypothesis
    obtain ⟨line, ⟨other, name, written⟩ | ⟨other⟩ | ⟨text⟩⟩ := row
    · rw [List.cons_append, definitionsIn, split]
      split
      · exact ⟨_ :: earlier, rfl⟩
      · exact ⟨earlier, rfl⟩
    · exact ⟨earlier, split⟩
    · exact ⟨earlier, split⟩

/-- Every command is global or in one of the definitions that are opened. -/
theorem commands_perm (before rows : List (Nat × Row)) :
    (rows.filterMap command?).Perm
      ((if (opened? before).isSome then leadingCommands rows else []) ++
        eachAfter globalsAt before rows ++
        (definitionsIn .customSample rows).flatMap Definition.commands ++
        (definitionsIn .block rows).flatMap Definition.commands) := by
  induction rows generalizing before with
  | nil => simp [leadingCommands, eachAfter, definitionsIn]
  | cons row rest inductionHypothesis =>
    have later := inductionHypothesis (before ++ [row])
    obtain ⟨line, ⟨kind, name, written⟩ | ⟨kind⟩ | ⟨text⟩⟩ := row
    · rw [opened?_concat_opening] at later
      have nothing : globalsAt before (line, .opening kind name written) = [] := by
        simp [globalsAt, command?]
      rw [List.filterMap_cons_none rfl, leadingCommands_opening, ite_self, List.nil_append,
        eachAfter, nothing, List.nil_append]
      refine later.trans ?_
      -- the commands that follow go to the definition that is opened
      cases kind with
      | block =>
        simpa [definitionsIn] using List.perm_append_comm_assoc (leadingCommands rest)
          (eachAfter globalsAt (before ++ [(line, .opening .block name written)]) rest ++
            (definitionsIn .customSample rest).flatMap Definition.commands) _
      | customSample =>
        simpa [definitionsIn] using List.perm_append_comm_assoc (leadingCommands rest)
          (eachAfter globalsAt (before ++ [(line, .opening .customSample name written)]) rest) _
    · rw [opened?_concat_ending] at later
      rw [List.filterMap_cons_none rfl]
      simpa [eachAfter, globalsAt, command?, definitionsIn] using later
    · rw [opened?_concat_command] at later
      cases isOpen : opened? before with
      | none =>
        rw [isOpen] at later
        simpa [eachAfter, globalsAt, command?, definitionsIn, isOpen] using later
      | some opening =>
        rw [isOpen] at later
        simpa [eachAfter, globalsAt, command?, definitionsIn, isOpen] using later

end Rows

/-! ## Where a reader puts the rows -/

namespace Draft

open Rows

/-- The open definition once it has the commands that follow. -/
def pending (draft : Draft) (kind : Kind) (rows : List (Nat × Row)) : List Definition :=
  match draft.opened with
  | none => []
  | some opened =>
    if opened.kind = kind then
      [{ opened.definition with commands := opened.commands.toList ++ leadingCommands rows }]
    else []

theorem declareAll_pending_of_marker (draft : Draft) (kind : Kind) {rows : List (Nat × Row)}
    (apart : leadingCommands rows = []) :
    Definitions.declareAll (draft.definitions kind) (draft.pending kind rows) =
      draft.declared kind := by
  rw [pending, declared]
  cases draft.opened with
  | none => rfl
  | some opened =>
    by_cases same : kind = opened.kind
    · simp [same, apart, Definitions.declareAll, Opened.definition]
    · simp [same, Ne.symm same, Definitions.declareAll]

/-- In the end the definitions of a draft, the open one and those of the rows are declared. -/
theorem definitions_finish (draft : Draft) (kind : Kind) (rows : List (Nat × Row))
    (lastLine : Nat) :
    ((draft.addRows rows).finish lastLine).definitions kind =
      Definitions.declareAll (draft.definitions kind)
        (draft.pending kind rows ++ definitionsIn kind rows) := by
  -- rows are taken from the front: the open definition changes, and with it what is pending
  induction rows generalizing draft with
  | nil =>
    rw [definitionsIn, List.append_nil, declareAll_pending_of_marker draft kind rfl,
      ← definitions_closeWith draft lastLine kind fun opened =>
        some (.unterminated opened.name opened.kind)]
    cases kind <;> rfl
  | cons row rest inductionHypothesis =>
    rw [addRows, List.foldl_cons, ← addRows, inductionHypothesis]
    obtain ⟨line, ⟨other, name, written⟩ | ⟨other⟩ | ⟨text⟩⟩ := row
    · -- what was open is declared, and the new definition takes the commands that follow
      rw [Definitions.declareAll_append _ (draft.pending kind _),
        draft.declareAll_pending_of_marker kind rfl]
      by_cases same : other = kind <;>
        simp [addRow, pending, definitionsIn, same, Opened.definition]
    · rw [Definitions.declareAll_append _ (draft.pending kind _),
        draft.declareAll_pending_of_marker kind rfl]
      simp [addRow, pending, definitionsIn]
    · simp only [addRow, definitions_addCommand, definitionsIn]
      -- a command moves from what leads the rows to what the open definition has
      congr 2
      rw [pending, pending, addCommand]
      cases draft.opened <;> simp [Opened.definition]

theorem globals_addRows (rows : List (Nat × Row)) :
    (empty.addRows rows).globals.toList = eachAfter globalsAt [] rows := by
  induction rows using List.reverseRecOn with
  | nil => rfl
  | append_singleton rows row inductionHypothesis =>
    have isOpen := (follows_addRows rows).opened
    rw [addRows_concat, eachAfter_concat, List.nil_append, ← inductionHypothesis, globalsAt,
      ← isOpen]
    obtain ⟨line, ⟨kind, name, written⟩ | ⟨kind⟩ | ⟨text⟩⟩ := row
    · simp [addRow, command?]
    · simp [addRow, command?]
    · rw [addRow, addCommand]
      cases (empty.addRows rows).opened <;> simp [command?]

theorem globals_finish (draft : Draft) (lastLine : Nat) :
    (draft.finish lastLine).globals = draft.globals.toList := by
  rw [finish, globals_closeWith]

end Draft

theorem globals_read (source : String) :
    (read source).globals = Rows.eachAfter Rows.globalsAt [] (numberedRows source) := by
  rw [read_eq_addRows, Draft.globals_finish, Draft.globals_addRows]

/-- The definitions of a source are those that it opens, declared one after another. -/
theorem definitions_read (source : String) (kind : Kind) :
    (read source).definitions kind =
      Definitions.declareAll [] (Rows.definitionsIn kind (numberedRows source)) := by
  rw [read_eq_addRows, Draft.definitions_finish]
  cases kind <;> rfl

/-- What a source is read as is placed by its rows. -/
theorem read_places (source : String) : Rows.Places (numberedRows source) (read source) where
  globals := globals_read source
  names := by
    intro kind
    rw [definitions_read, Definitions.names_declareAll, Rows.names_definitionsIn]
  last := by
    intro before line kind name written rest split isLast
    obtain ⟨earlier, all⟩ :=
      Rows.definitionsIn_append kind before ((line, .opening kind name written) :: rest)
    rw [← Rows.mem_namesOpened, ← Rows.names_definitionsIn] at isLast
    rw [definitions_read, split, all, Rows.definitionsIn, if_pos rfl]
    exact Definitions.find?_declareAll_last earlier
      { name, commands := Rows.leadingCommands rest, effects := readableEffects written } isLast
  commands := by
    have kept : ∀ kind, ((Rows.definitionsIn kind (numberedRows source)).flatMap
        Definition.commands).Perm (((read source).definitions kind).flatMap Definition.commands ++
          (Definitions.superseded (Rows.definitionsIn kind (numberedRows source))).flatMap
            Definition.commands) := by
      intro kind
      rw [definitions_read, ← List.flatMap_append]
      exact (Definitions.declareAll_append_superseded_perm _).symm.flatMap_right _
    have all := (Rows.commands_perm [] (numberedRows source)).trans
      (((kept .customSample).append_left _).append (kept .block))
    rw [← globals_read, if_neg (by decide), List.nil_append] at all
    -- superseded custom samples come before the blocks, and move behind them
    refine all.trans ?_
    simp only [commands, List.append_assoc]
    exact ((List.perm_append_comm_assoc _ _ _).append_left _).append_left _

end Program

end Sequencer
