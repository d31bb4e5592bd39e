import Sequencer.Proofs.Run.Heeding
import Sequencer.Proofs.Run.Refusals
import Sequencer.Proofs.Run.Unmoved

/-! # What is said about refusals

A refusal is about the definition that is refused, or, where the limit on invocations is the reason,
about the run. However often refusals are about the same, the first one is warned of and no other:
`Recounts.refuse` says so for one refusal, `Way.recounts` for all that there are on the way.
-/

namespace Sequencer

variable {α β : Type}

/-- What refusals can be about. -/
inductive Subject where
  | invocations
  | definition (kind : Kind) (name : String)
  deriving DecidableEq

/-- What a refusal is about. A definition is refused for itself whether it is in progress already or
too deep, and those who come after the limit are all refused for the same. -/
def Refused.subject (refused : Refused) : Subject :=
  match refused.refusal with
  | .invocationLimit => .invocations
  | .reentry | .depthLimit => .definition refused.kind refused.name

/-- The refusals that a warning tells of. -/
def Warning.subject? : Warning α → Option Subject
  | .invocationLimit _ => some .invocations
  | .reentry kind name | .depthLimit kind name _ => some (.definition kind name)
  | _ => none

theorem Refused.sharesWarning_iff {refused earlier : Refused} :
    refused.sharesWarning earlier = true ↔ refused.subject = earlier.subject := by
  obtain ⟨kind, name, refusal⟩ := refused
  obtain ⟨kind', name', refusal'⟩ := earlier
  cases refusal <;> cases refusal' <;> simp [sharesWarning, subject]

theorem Run.subject?_refusalWarning (settings : Settings) (refused : Refused) :
    (refusalWarning settings refused : Warning α).subject? = some refused.subject := by
  obtain ⟨kind, name, refusal⟩ := refused
  cases refusal <;> rfl

/-- The warnings that tell of certain refusals. -/
def Journal.warningsOn (journal : Journal α) (subject : Subject) : List (Warning α) :=
  journal.warnings.toList.filter (·.subject? = some subject)

namespace Run

theorem warningsOn_record (run : Run α β) (entry : Entry α) (subject : Subject) :
    (run.record entry).journal.warningsOn subject =
      run.journal.warningsOn subject ++
        entry.warning?.toList.filter (·.subject? = some subject) := by
  rw [Journal.warningsOn, record, Journal.warnings_push, List.filter_append]
  rfl

theorem warningsOn_record_of_quiet (run : Run α β) {entry : Entry α}
    (quiet : entry.warning?.bind Warning.subject? = none) (subject : Subject) :
    (run.record entry).journal.warningsOn subject = run.journal.warningsOn subject := by
  rw [warningsOn_record]
  cases told : entry.warning? with
  | none => simp
  | some warning =>
    rw [told, Option.bind_some] at quiet
    simp [quiet]

/-! ## Changes that refuse nothing -/

/-- Nothing is refused, and no refusal is told of. -/
structure Uncut (before after : Run α β) : Prop where
  warnings : ∀ subject, after.journal.warningsOn subject = before.journal.warningsOn subject
  refusals : after.refusals = before.refusals

namespace Uncut

theorem refl (run : Run α β) : Uncut run run := ⟨fun _ => rfl, rfl⟩

theorem trans {first second third : Run α β} (left : Uncut first second)
    (right : Uncut second third) : Uncut first third :=
  ⟨fun subject => (right.warnings subject).trans (left.warnings subject),
    right.refusals.trans left.refusals⟩

theorem record (run : Run α β) {entry : Entry α}
    (quiet : entry.warning?.bind Warning.subject? = none) : Uncut run (run.record entry) :=
  ⟨warningsOn_record_of_quiet run quiet, rfl⟩

theorem ignoreKeys (command : Command) (run : Run α β) : Uncut run (run.ignoreKeys command) :=
  ignoreKeys_invariant (Uncut run) (fun after _ _ _ before => before.trans (.record after rfl))
    command (.refl run)

theorem waveform (settings : Settings) (run : Run α β) (name : Option String) :
    Uncut run (run.waveform settings name).2 := by
  cases name with
  | none => exact .refl run
  | some name =>
    rw [Run.waveform]
    split
    · exact .refl run
    · exact .record run rfl

theorem changeTempo [Arithmetic α] (line : Nat) (bpm offset : α) (run : Run α β) :
    Uncut run (run.changeTempo line bpm offset) := by
  rw [Run.changeTempo]
  split
  · exact ⟨(record (run.setTempo _) rfl).warnings, rfl⟩
  · exact record run rfl

theorem dispatch [Device α β] (run : Run α β) (request : Request α) (duration : α) :
    Uncut run (run.dispatch request duration) :=
  ⟨fun subject => warningsOn_record_of_quiet _ rfl subject, rfl⟩

theorem recordEffect [Device α β] (run : Run α β) (block : String) (effect : Effect α) :
    Uncut run (run.recordEffect block effect) :=
  ⟨fun subject => warningsOn_record_of_quiet _ rfl subject, rfl⟩

end Uncut

/-! ## Refusals -/

/-- The warnings of a run tell of each first refusal among these, and of no other. -/
structure Recounts (settings : Settings) (past : List Refused) (run : Run α β) : Prop where
  noted : ∀ refused, refused ∈ run.refusals ↔ refused ∈ past
  warned : ∀ subject, run.journal.warningsOn subject =
    ((past.find? (·.subject = subject)).map (refusalWarning settings)).toList

variable {settings : Settings} {past : List Refused} {before after : Run α β}

theorem Recounts.uncut (recounts : before.Recounts settings past) (uncut : Uncut before after) :
    after.Recounts settings past where
  noted := uncut.refusals ▸ recounts.noted
  warned := fun subject => (uncut.warnings subject).trans (recounts.warned subject)

/-- A refusal is covered by an earlier warning exactly if an earlier one has been about the same. -/
theorem Recounts.any_sharesWarning_iff (recounts : before.Recounts settings past) (refused : Refused) :
    before.refusals.any refused.sharesWarning = true ↔
      (past.find? (·.subject = refused.subject)).isSome = true := by
  simp only [List.any_eq_true, List.find?_isSome, Refused.sharesWarning_iff, recounts.noted,
    decide_eq_true_iff]
  exact exists_congr fun _ => and_congr_right fun _ => eq_comm

theorem Recounts.refuse (recounts : before.Recounts settings past) (refused : Refused) :
    (before.refuse settings refused).Recounts settings (past ++ [refused]) where
  noted := fun earlier => by
    rw [mem_refuse_iff, recounts.noted, List.mem_append, List.mem_singleton, or_comm]
  warned := fun subject => by
    have noted : (before.noteRefusal refused).journal = before.journal := by
      rw [noteRefusal]
      split <;> rfl
    rw [Run.refuse, List.find?_append, List.find?_singleton]
    -- a covered refusal is not the first on its subject, and one that is not covered is
    by_cases covered : before.refusals.any refused.sharesWarning = true
    · rw [if_pos covered, noted, recounts.warned]
      rw [recounts.any_sharesWarning_iff] at covered
      by_cases same : refused.subject = subject
      · subst same
        rw [Option.or_of_isSome covered]
      · simp [same]
    · rw [if_neg covered, warn, warningsOn_record, noted, recounts.warned]
      rw [recounts.any_sharesWarning_iff, Bool.not_eq_true, Option.isSome_eq_false_iff] at covered
      by_cases same : refused.subject = subject
      · subst same
        simp [Option.isNone_iff_eq_none.mp covered, Entry.warning?, subject?_refusalWarning]
      · simp [same, Entry.warning?, subject?_refusalWarning]

end Run

/-! ## Steps -/

namespace Machine

open Run

/-- What the next step refuses, if it refuses anything. -/
def refused? (settings : Settings) : Machine α β → Option Refused
  | { task := .invoke kind definition _ _, frames := _, run } =>
    (run.refusal? settings kind definition.name).map fun refusal =>
      { kind, name := definition.name, refusal }
  | _ => none

variable [Arithmetic α] [Device α β] {program : Program} {settings : Settings}

theorem uncut_act (command : Command) (offset : α) (mix : Mix α) (frames : List (Frame α))
    (run : Run α β) : Uncut run (act program settings command offset mix frames run).run := by
  rw [act]
  cases command.action with
  | sample arguments =>
    dsimp only
    split
    · exact .refl run
    · exact .dispatch run _ _
  | tone arguments | slide arguments =>
    -- an unknown waveform is warned of, but is no refusal
    exact (Uncut.waveform settings run _).trans (.dispatch _ _ _)
  | wait | play | set => exact ⟨fun _ => rfl, rfl⟩
  | bpm value => exact .changeTempo _ _ _ run
  | loop count names arguments =>
    dsimp only
    split
    · exact .refl run
    · exact .record run rfl
  | effect effect block => exact .recordEffect run _ _
  | invalid | unknown => exact .record run rfl

/-- A step either refuses what it says it does, or refuses nothing and tells of no refusal. -/
theorem refused_of_step {before after : Machine α β} (steps : Steps program settings before after) :
    (∃ refused, before.refused? settings = some refused ∧
        after = finish before.frames (0, before.run.refuse settings refused)) ∨
      (before.refused? settings = none ∧ Uncut before.run after.run) := by
  cases steps.move with
  | command command offset mix frames run =>
    exact .inr ⟨rfl, (Uncut.ignoreKeys command run).trans (uncut_act ..)⟩
  | refused offset mix frames given => exact .inl ⟨_, by rw [refused?, given, Option.map_some], rfl⟩
  | @entered kind definition offset mix frames run enters =>
    refine .inr ⟨by rw [refused?, enters, Option.map_none], ?_⟩
    -- the stack and the count are no part of what is compared
    have stacked : Uncut run (run.enter kind definition.name) := ⟨fun _ => rfl, rfl⟩
    exact stacked.trans (.record _ (by cases kind <;> rfl))
  | sequenceLeft | blockMissing | loopLeft => exact .inr ⟨rfl, .record _ rfl⟩
  | resumed duration frame frames run =>
    cases frame <;> exact .inr ⟨rfl, ⟨fun _ => rfl, rfl⟩⟩
  | sequenceEnd | sequenceNext | atOnceEnd | atOnceNext | blockFound | togetherEnd | togetherNext
  | loopEnd | loopNext => exact .inr ⟨rfl, .refl _⟩

theorem recounts_step {past : List Refused} {before after : Machine α β}
    (recounts : before.run.Recounts settings past) (steps : Steps program settings before after) :
    after.run.Recounts settings (past ++ (before.refused? settings).toList) := by
  obtain ⟨refused, given, rfl⟩ | ⟨none, uncut⟩ := refused_of_step steps
  · rw [given]
    exact recounts.refuse refused
  · rw [none, Option.toList_none, List.append_nil]
    exact recounts.uncut uncut

/-- A refused invocation takes no time. Nothing is asked of the device, and tempo, variables, effects,
the definitions in progress and the number of invocations stay as they are. -/
theorem steps_of_refused {moment : Machine α β} {refused : Refused}
    (given : moment.refused? settings = some refused) (program : Program) :
    ∃ after, Steps program settings moment (finish moment.frames (0, after)) ∧
      Unmoved moment.run after ∧ after.stack = moment.run.stack ∧
      after.invocations = moment.run.invocations := by
  obtain ⟨task, frames, run⟩ := moment
  cases task with
  | invoke kind definition offset mix =>
    obtain ⟨refusal, refuses, rfl⟩ := Option.map_eq_some_iff.mp given
    obtain ⟨-, -, stack, invocations⟩ :=
      refuse_fields settings run { kind, name := definition.name, refusal }
    exact ⟨_, (Move.refused offset mix frames refuses).steps, .refuse .., stack, invocations⟩
  | command | sequence | atOnce | block | together | loop | done => cases given

/-! ## Ways -/

/-- All machines on the way from one to another, in their order. -/
structure Way (program : Program) (settings : Settings) (moments : List (Machine α β))
    (first last : Machine α β) : Prop where
  chain : moments.IsChain (Steps program settings)
  first : moments.head? = some first
  last : moments.getLast? = some last

theorem Reaches.exists_way {first last : Machine α β}
    (reaches : Reaches program settings first last) :
    ∃ moments, Way program settings moments first last := by
  obtain ⟨rest, chain, last⟩ := List.exists_isChain_cons_of_relationReflTransGen reaches
  exact ⟨first :: rest, chain, rfl, by rw [List.getLast?_eq_some_getLast (List.cons_ne_nil _ _), last]⟩

/-- All that is refused on the way to a machine that refuses nothing is recounted there. -/
theorem Way.recounts {moments : List (Machine α β)} {first last : Machine α β}
    (way : Way program settings moments first last) (calm : last.refused? settings = none)
    {past : List Refused} (recounts : first.run.Recounts settings past) :
    last.run.Recounts settings (past ++ moments.filterMap (refused? settings)) := by
  -- along the moments, what has been refused so far grows and the way that is left gets shorter
  induction moments generalizing first past with
  | nil => cases way.first
  | cons moment rest inductionHypothesis =>
    obtain ⟨chain, start, final⟩ := way
    obtain rfl : moment = first := Option.some.inj start
    cases rest with
    | nil =>
      obtain rfl : moment = last := Option.some.inj final
      simpa [calm] using recounts
    | cons next rest =>
      obtain ⟨steps, chain⟩ := List.isChain_cons_cons.mp chain
      have later := inductionHypothesis ⟨chain, rfl, final⟩ (recounts_step recounts steps)
      rw [List.append_assoc] at later
      cases given : moment.refused? settings with
      | none => simpa [given] using later
      | some refused => simpa [given] using later

theorem uncut_start (program : Program) (run : Run α β) : Uncut run (start program run).run :=
  start_invariant (Uncut run)
    (fun after block effect before => before.trans (.recordEffect after block effect))
    (fun _ before => before.trans (.record _ rfl)) program (.refl run)

end Machine

end Sequencer
