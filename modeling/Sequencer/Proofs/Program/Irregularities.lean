import Sequencer.Proofs.Program.Markers

/-! # What a reader notes of the markers

A reader settles whatever the markers have wrong, and notes what it settled. The notes of a row are
determined by the markers before it: `irregularitiesAt` is the whole rule, and `read_irregularities`
says that the notes of a program are the notes of its rows. There are none exactly for a text that
is `Regular`.
-/

namespace Sequencer.Program

namespace Rows

/-- The note for a definition that is closed under a name that was closed before. -/
def redeclaredAt (line : Nat) (before : List (Nat × Row)) : List Irregularity :=
  match opened? before with
  | none => []
  | some (kind, name) =>
    if (kind, name) ∈ closed before then [.redeclared line name kind] else []

/-- The notes of a row, given the rows before it. -/
def irregularitiesAt (before : List (Nat × Row)) : Nat × Row → List Irregularity
  | (line, .opening _ _ written) =>
    ((opened? before).map fun (kind, name) => .autoClosed line name kind).toList ++
      redeclaredAt line before ++ unreadable line written
  | (line, .ending kind) =>
    match opened? before with
    | none => [.strayEnd line]
    | some (openKind, name) =>
      (if openKind = kind then [] else [.mismatchedEnd line name]) ++ redeclaredAt line before
  | (_, .command _) => []

/-- The notes of the end of the text. -/
def irregularitiesAtEnd (lastLine : Nat) (rows : List (Nat × Row)) : List Irregularity :=
  ((opened? rows).map fun (kind, name) => .unterminated name kind).toList ++
    redeclaredAt lastLine rows

/-- A header as it is written. -/
structure Heading where
  kind : Kind
  name : String
  written : List Char

def Heading.opening (heading : Heading) : Row :=
  .opening heading.kind heading.name heading.written

/-- The opening marker, and the end marker of the same kind. -/
def Heading.markers (heading : Heading) : List Row := [heading.opening, .ending heading.kind]

def Heading.key (heading : Heading) : Kind × String := (heading.kind, heading.name)

def Heading.Readable (heading : Heading) : Prop :=
  ∃ effects, Header.read heading.written = .ok effects

/-- Opening and end markers of one kind alternate, no name is opened twice for one kind, and all
headers can be read. -/
def Regular (rows : List (Nat × Row)) : Prop :=
  ∃ headings : List Heading, markers rows = headings.flatMap Heading.markers ∧
    (headings.map Heading.key).Nodup ∧ ∀ heading ∈ headings, heading.Readable

end Rows

/-! ## The notes of a draft -/

namespace Draft.Follows

open Rows

variable {rows : List (Nat × Row)} {draft : Draft}

theorem redeclared_eq (follows : draft.Follows rows) (line : Nat) :
    draft.redeclared line = redeclaredAt line rows := by
  have isOpen := follows.opened
  rw [Draft.redeclared, redeclaredAt, ← isOpen]
  cases draft.opened with
  | none => rfl
  | some opened => simp only [Option.map_some, follows.declares]

theorem irregularities_addRow (follows : draft.Follows rows) (line : Nat) (row : Row) :
    (draft.addRow line row).irregularities.toList =
      draft.irregularities.toList ++ irregularitiesAt rows (line, row) := by
  cases row with
  | opening kind name written =>
    rw [Draft.addRow, irregularities_openDefinition, follows.redeclared_eq, irregularitiesAt,
      ← follows.opened]
    simp [Function.comp_def]
  | ending kind =>
    rw [Draft.addRow, endDefinition, irregularitiesAt, ← follows.opened]
    cases found : draft.opened with
    | none => simp [note]
    | some opened =>
      dsimp only [Option.map_some]
      rw [irregularities_closeWith, follows.redeclared_eq, found, List.append_assoc]
      by_cases same : opened.kind = kind <;> simp [same]
  | command text => simp [Draft.addRow, irregularitiesAt]

theorem irregularities_finish (follows : draft.Follows rows) (lastLine : Nat) :
    (draft.finish lastLine).irregularities =
      draft.irregularities.toList ++ irregularitiesAtEnd lastLine rows := by
  rw [finish, irregularities_closeWith, follows.redeclared_eq, irregularitiesAtEnd,
    ← follows.opened]
  simp [Option.map_eq_bind, Option.bind_assoc]

end Draft.Follows

theorem irregularities_addRows (rows : List (Nat × Row)) :
    (Draft.empty.addRows rows).irregularities.toList =
      Rows.eachAfter Rows.irregularitiesAt [] rows := by
  induction rows using List.reverseRecOn with
  | nil => rfl
  | append_singleton rows row inductionHypothesis =>
    rw [Draft.addRows_concat, (Draft.follows_addRows rows).irregularities_addRow,
      inductionHypothesis, Rows.eachAfter_concat, List.nil_append]

/-! ## Regular texts -/

namespace Rows

/-- As far as the rows go they are those of a regular text, with a definition open or none. -/
structure RegularSoFar (rows : List (Nat × Row)) (headings : List Heading)
    (opened : Option Heading) : Prop where
  markers : markers rows = headings.flatMap Heading.markers ++ opened.toList.map Heading.opening
  distinct : (headings.map Heading.key).Nodup
  readable : ∀ heading ∈ headings ++ opened.toList, heading.Readable

theorem unreadable_eq_nil_iff (line : Nat) (heading : Heading) :
    unreadable line heading.written = [] ↔ heading.Readable := by
  rw [unreadable, Heading.Readable]
  cases Header.read heading.written <;> simp

theorem opens?_getLast?_markers (headings : List Heading) :
    (headings.flatMap Heading.markers).getLast?.bind Row.opens? = none := by
  induction headings using List.reverseRecOn with
  | nil => rfl
  | append_singleton headings heading _ =>
    rw [List.flatMap_append, List.flatMap_singleton, Heading.markers, List.getLast?_append]
    rfl

theorem opens?_markers (headings : List Heading) :
    (headings.flatMap Heading.markers).filterMap Row.opens? = headings.map Heading.key := by
  induction headings with
  | nil => rfl
  | cons heading rest inductionHypothesis =>
    rw [List.flatMap_cons, List.filterMap_append, inductionHypothesis]
    rfl

namespace RegularSoFar

variable {rows : List (Nat × Row)} {headings : List Heading} {opened : Option Heading}

theorem opened?_eq (regular : RegularSoFar rows headings opened) :
    opened? rows = opened.map Heading.key := by
  rw [opened?, regular.markers]
  cases opened with
  | none => simpa using opens?_getLast?_markers headings
  | some heading => simp [Heading.opening, Row.opens?, Heading.key]

theorem closed_eq (regular : RegularSoFar rows headings opened) :
    closed rows = headings.map Heading.key := by
  have openings_eq : openings rows =
      headings.map Heading.key ++ (opened.map Heading.key).toList := by
    rw [openings, regular.markers, List.filterMap_append, opens?_markers]
    cases opened <;> rfl
  rw [closed, regular.opened?_eq, openings_eq]
  cases opened <;> simp

/-- An end marker is in order when it has the kind of what is open, under a name that is new. -/
theorem ending_iff {heading : Heading} (regular : RegularSoFar rows headings (some heading))
    (line : Nat) (kind : Kind) :
    irregularitiesAt rows (line, .ending kind) = [] ↔
      heading.kind = kind ∧ heading.key ∉ headings.map Heading.key := by
  have isOpen : opened? rows = some (heading.kind, heading.name) := regular.opened?_eq
  simp only [irregularitiesAt, redeclaredAt, isOpen, regular.closed_eq, List.append_eq_nil_iff]
  by_cases same : heading.kind = kind <;> simp [same, Heading.key]

/-- A row without notes carries a regular text on. -/
theorem concat (regular : RegularSoFar rows headings opened) {line : Nat} {row : Row}
    (clean : irregularitiesAt rows (line, row) = []) :
    ∃ headings opened, RegularSoFar (rows ++ [(line, row)]) headings opened := by
  cases row with
  | opening kind name written =>
    rw [irregularitiesAt, regular.opened?_eq, List.append_eq_nil_iff, List.append_eq_nil_iff]
      at clean
    obtain ⟨⟨alone, -⟩, readable⟩ := clean
    cases opened with
    | some heading => simp at alone
    | none =>
      let heading : Heading := { kind, name, written }
      refine ⟨headings, some heading, ?_, regular.distinct, ?_⟩
      · rw [markers_concat_marker rfl, regular.markers]
        simp [heading, Heading.opening]
      · intro other member
        rcases List.mem_append.mp member with old | new
        · exact regular.readable other (List.mem_append_left _ old)
        · obtain rfl : other = heading := by simpa using new
          exact (unreadable_eq_nil_iff line heading).mp readable
  | ending kind =>
    cases opened with
    | none => simp [irregularitiesAt, regular.opened?_eq] at clean
    | some heading =>
      obtain ⟨sameKind, isNew⟩ := (regular.ending_iff line kind).mp clean
      refine ⟨headings ++ [heading], none, ?_, ?_, ?_⟩
      · rw [markers_concat_marker rfl, regular.markers]
        simp [Heading.markers, sameKind]
      · rw [List.map_append, List.map_singleton]
        exact regular.distinct.append (List.nodup_singleton _) (by simpa using isNew)
      · simpa using regular.readable
  | command text =>
    refine ⟨headings, opened, ?_, regular.distinct, regular.readable⟩
    rw [markers_concat_command, regular.markers]

/-- Nothing is open before an opening marker of a regular text. -/
theorem of_concat_opening {line : Nat} {kind : Kind} {name : String} {written : List Char}
    (regular : RegularSoFar (rows ++ [(line, .opening kind name written)]) headings opened) :
    RegularSoFar rows headings none ∧ Heading.Readable { kind, name, written } := by
  have split := regular.markers
  rw [markers_concat_marker rfl] at split
  cases opened with
  | none =>
    -- the last marker of closed definitions is an end marker
    have last := opens?_getLast?_markers headings
    simp only [Option.toList_none, List.map_nil, List.append_nil] at split
    rw [← split] at last
    simp [Row.opens?] at last
  | some heading =>
    obtain ⟨front, last⟩ := List.append_inj' split rfl
    obtain ⟨rfl, rfl, rfl⟩ : kind = heading.kind ∧ name = heading.name ∧
      written = heading.written := by simpa [Heading.opening] using last
    have closed : ∀ other ∈ headings ++ [], other.Readable := fun other member =>
      regular.readable other (List.mem_append_left _ (by simpa using member))
    exact ⟨⟨by simpa using front, regular.distinct, closed⟩,
      regular.readable heading (List.mem_append_right _ (by simp))⟩

/-- The definition that ends with an end marker of a regular text was open before it. -/
theorem of_concat_ending {line : Nat} {kind : Kind}
    (regular : RegularSoFar (rows ++ [(line, .ending kind)]) headings opened) :
    ∃ earlier heading, RegularSoFar rows earlier (some heading) ∧ heading.kind = kind ∧
      heading.key ∉ earlier.map Heading.key := by
  have split := regular.markers
  rw [markers_concat_marker rfl] at split
  cases opened with
  | some heading =>
    obtain ⟨-, last⟩ := List.append_inj' split rfl
    simp [Heading.opening] at last
  | none =>
    rcases List.eq_nil_or_concat headings with rfl | ⟨earlier, heading, rfl⟩
    · simp at split
    · have pair : heading.markers = [heading.opening] ++ [.ending heading.kind] := rfl
      simp only [List.concat_eq_append, List.flatMap_append, List.flatMap_singleton, pair,
        Option.toList_none, List.map_nil, List.append_nil, ← List.append_assoc] at split
      obtain ⟨front, last⟩ := List.append_inj' split rfl
      have distinct := regular.distinct
      rw [List.concat_eq_append, List.map_append, List.map_singleton, List.nodup_append] at distinct
      have before : RegularSoFar rows earlier (some heading) :=
        ⟨by simpa using front, distinct.1, by simpa using regular.readable⟩
      refine ⟨earlier, heading, before, ?_, ?_⟩
      · simpa using last.symm
      · exact fun member => distinct.2.2 _ member _ (List.mem_singleton_self _) rfl

/-- A regular text is regular up to its last row, which has no notes. -/
theorem of_concat {line : Nat} {row : Row}
    (regular : RegularSoFar (rows ++ [(line, row)]) headings opened) :
    (∃ headings opened, RegularSoFar rows headings opened) ∧
      irregularitiesAt rows (line, row) = [] := by
  cases row with
  | opening kind name written =>
    obtain ⟨before, readable⟩ := regular.of_concat_opening
    refine ⟨⟨headings, none, before⟩, ?_⟩
    have legible : unreadable line written = [] := (unreadable_eq_nil_iff line _).mpr readable
    rw [irregularitiesAt, redeclaredAt, before.opened?_eq, legible]
    rfl
  | ending kind =>
    obtain ⟨earlier, heading, before, sameKind, fresh⟩ := regular.of_concat_ending
    exact ⟨⟨earlier, some heading, before⟩, (before.ending_iff line kind).mpr ⟨sameKind, fresh⟩⟩
  | command text =>
    have split := regular.markers
    rw [markers_concat_command] at split
    exact ⟨⟨headings, opened, split, regular.distinct, regular.readable⟩, rfl⟩

end RegularSoFar

theorem irregularities_eq_nil_iff (rows : List (Nat × Row)) :
    eachAfter irregularitiesAt [] rows = [] ↔
      ∃ headings opened, RegularSoFar rows headings opened := by
  induction rows using List.reverseRecOn with
  | nil => exact ⟨fun _ => ⟨[], none, rfl, List.nodup_nil, by simp⟩, fun _ => rfl⟩
  | append_singleton rows row inductionHypothesis =>
    rw [eachAfter_concat, List.nil_append, List.append_eq_nil_iff, inductionHypothesis]
    constructor
    · rintro ⟨⟨headings, opened, regular⟩, clean⟩
      exact regular.concat clean
    · rintro ⟨headings, opened, regular⟩
      exact regular.of_concat

/-- Nothing is noted of a regular text, and of no other. -/
theorem regular_iff (rows : List (Nat × Row)) (lastLine : Nat) :
    eachAfter irregularitiesAt [] rows ++ irregularitiesAtEnd lastLine rows = [] ↔
      Regular rows := by
  rw [List.append_eq_nil_iff, irregularities_eq_nil_iff]
  constructor
  · rintro ⟨⟨headings, opened, regular⟩, ended⟩
    rw [irregularitiesAtEnd, regular.opened?_eq] at ended
    cases opened with
    | some heading => simp at ended
    | none =>
      exact ⟨headings, by simpa using regular.markers, regular.distinct,
        by simpa using regular.readable⟩
  · rintro ⟨headings, alternate, distinct, readable⟩
    have regular : RegularSoFar rows headings none :=
      ⟨by simpa using alternate, distinct, by simpa using readable⟩
    refine ⟨⟨headings, none, regular⟩, ?_⟩
    rw [irregularitiesAtEnd, redeclaredAt, regular.opened?_eq]
    rfl

end Rows

/-- The irregularities of a source are those of its rows in order, and those of its end. There are
none exactly when the source is regular. -/
theorem read_irregularities (source : String) :
    (read source).irregularities =
        Rows.eachAfter Rows.irregularitiesAt [] (numberedRows source) ++
          Rows.irregularitiesAtEnd (Text.lines source.toList).length (numberedRows source) ∧
      ((read source).irregularities = [] ↔ Rows.Regular (numberedRows source)) := by
  have all := (Draft.follows_addRows (numberedRows source)).irregularities_finish
    (Text.lines source.toList).length
  rw [irregularities_addRows, ← read_eq_addRows] at all
  exact ⟨all, by rw [all, Rows.regular_iff]⟩

end Sequencer.Program
