import Sequencer.Device.Recorder
import Sequencer.Proofs.Program.Sameness
import Sequencer.Proofs.Run.Heeding

/-! # Runs of programs that are the same

Two programs that are the same may come with their commands on other lines and with their blocks in
another order. A run of the one retells a run of the other: it does the same at the same times, warns
of the same, and has been told the same effects block by block.
-/

namespace Sequencer

variable {α β γ : Type}

/-! ## Entries and effects -/

/-- The same warning, but for the line that it quotes. -/
inductive Warning.Reworded : Warning α → Warning α → Prop
  | same (warning) : Reworded warning warning
  | ignoredParameter (line line' verb key) :
      Reworded (.ignoredParameter line verb key) (.ignoredParameter line' verb key)
  | invalidBpm (line line' bpm) : Reworded (.invalidBpm line bpm) (.invalidBpm line' bpm)
  | faultyCommand (line line' text fault) :
      Reworded (.faultyCommand line text fault) (.faultyCommand line' text fault)
  | unknownCommand (line line' verb) :
      Reworded (.unknownCommand line verb) (.unknownCommand line' verb)

/-- The same entry, but for the line that a warning quotes. -/
inductive Entry.Reworded : Entry α → Entry α → Prop
  | same (entry) : Reworded entry entry
  | warned {warning warning'} : Warning.Reworded warning warning' →
      Reworded (.warned warning) (.warned warning')

namespace Entry.Reworded

variable {entry entry' : Entry α} (reworded : entry.Reworded entry')

include reworded

theorem call? : entry.call? = entry'.call? := by
  cases reworded with
  | same => rfl
  | warned => rfl

theorem request? : entry.request? = entry'.request? := by
  cases reworded with
  | same => rfl
  | warned => rfl

theorem warning? : Option.Rel Warning.Reworded entry.warning? entry'.warning? := by
  cases reworded with
  | same =>
    cases entry.warning? with
    | none => exact .none
    | some warning => exact .some (.same warning)
  | warned reworded => exact .some reworded

end Entry.Reworded

/-- What is read off entries that are reworded. -/
theorem Entry.Reworded.filterMap_eq {δ : Type} {entries entries' : List (Entry α)}
    (all : List.Forall₂ Entry.Reworded entries entries') {image? : Entry α → Option δ}
    (equal : ∀ {entry entry'}, Entry.Reworded entry entry' → image? entry = image? entry') :
    entries.filterMap image? = entries'.filterMap image? := by
  induction all with
  | nil => rfl
  | cons first _ inductionHypothesis =>
    rw [List.filterMap_cons, List.filterMap_cons, equal first, inductionHypothesis]

/-- The same effect, or effects of headers whose numbers are equal as doubles. -/
inductive Effect.Agrees [Arithmetic α] : Effect α → Effect α → Prop
  | same (effect) : Agrees effect effect
  | header {left right : Effect Float} : left.same right = true →
      Agrees (left.map Arithmetic.ofDouble) (right.map Arithmetic.ofDouble)

theorem Effect.Agrees.refl_all [Arithmetic α] (effects : List (Effect α)) :
    List.Forall₂ Effect.Agrees effects effects :=
  List.forall₂_same.mpr fun effect _ => .same effect

/-! ## Devices -/

/-- The effect that a call tells a device, with its block. -/
def Call.effect? : Call α → Option (String × Effect α)
  | .schedule _ => none
  | .addEffect block effect => some (block, effect)

def Call.effects (calls : List (Call α)) : List (String × Effect α) := calls.filterMap effect?

/-- What a device is told of the effects of headers. -/
def Call.ofHeaders [Arithmetic α] (headers : List (String × Effect Float)) : List (Call α) :=
  headers.map fun header => .addEffect header.1 (header.2.map Arithmetic.ofDouble)

theorem Call.effects_append (first second : List (Call α)) :
    effects (first ++ second) = effects first ++ effects second :=
  List.filterMap_append

theorem Call.effects_ofHeaders [Arithmetic α] (headers : List (String × Effect Float)) :
    effects (ofHeaders headers : List (Call α)) =
      headers.map fun header => (header.1, header.2.map Arithmetic.ofDouble) := by
  rw [effects, ofHeaders, List.filterMap_map]
  exact congrFun List.filterMap_eq_map headers

theorem effectsOn_map_convert {δ : Type} (block : String) (convert : α → δ)
    (recorded : List (String × Effect α)) :
    effectsOn block (recorded.map fun entry => (entry.1, entry.2.map convert)) =
      (effectsOn block recorded).map (Effect.map convert) := by
  rw [effectsOn, effectsOn, List.filter_map, List.map_map, List.map_map]
  rfl

/-- Headers with the same effects block by block. -/
def SameHeaders (left right : List (String × Effect Float)) : Prop :=
  ∀ block, List.Forall₂ (fun effect effect' => effect.same effect' = true)
    (effectsOn block left) (effectsOn block right)

namespace Device

variable [Device α β] [Device α γ]

structure AnswersSame (one : β) (other : γ) : Prop where
  frequency : ∀ name, Device.frequency one name = Device.frequency other name
  handle : ∀ request, (Device.schedule one request).handle = (Device.schedule other request).handle
  stop : ∀ request, (Device.schedule one request).stop = (Device.schedule other request).stop

/-- Two devices with the same tuning, the same handles and the same wishes to stop after any calls
that both have taken. In which order headers of different blocks have come before makes no
difference to them. -/
def Interchangeable [Arithmetic α] (one : β) (other : γ) : Prop :=
  ∀ headers headers', SameHeaders headers headers' → ∀ calls,
    AnswersSame (Call.replay one (Call.ofHeaders headers ++ calls))
      (Call.replay other (Call.ofHeaders headers' ++ calls))

/-- A relation that calls on both sides keep, and effects on either side. -/
theorem Interchangeable.of_relation [Arithmetic α] (related : β → γ → Prop) {one : β} {other : γ}
    (start : related one other)
    (schedule : ∀ {left right}, related left right → ∀ request,
      related (Device.schedule left request).device (Device.schedule right request).device)
    (addEffectLeft : ∀ {left right}, related left right → ∀ block effect,
      related (Device.addEffect left block effect) right)
    (addEffectRight : ∀ {left right}, related left right → ∀ block effect,
      related left (Device.addEffect right block effect))
    (alike : ∀ {left right}, related left right → AnswersSame left right) :
    Interchangeable one other := by
  intro headers headers' _ calls
  have toldLeft : ∀ headers {left right}, related left right →
      related (Call.replay left (Call.ofHeaders headers)) right := by
    intro headers
    induction headers with
    | nil => exact id
    | cons header rest inductionHypothesis =>
      exact fun before => inductionHypothesis (addEffectLeft before _ _)
  have toldRight : ∀ headers {left right}, related left right →
      related left (Call.replay right (Call.ofHeaders headers)) := by
    intro headers
    induction headers with
    | nil => exact id
    | cons header rest inductionHypothesis =>
      exact fun before => inductionHypothesis (addEffectRight before _ _)
  -- headers reach each device by itself, and what is asked after them reaches both
  have toldBoth := toldRight headers' (toldLeft headers start)
  rw [Call.replay_append, Call.replay_append]
  refine alike (List.foldl_rel toldBoth fun call _ _ _ before => ?_)
  cases call with
  | schedule request => exact schedule before request
  | addEffect block effect => exact addEffectRight (addEffectLeft before block effect) block effect

end Device

/-- Recorders count handles and requests, whatever effects they are told. -/
theorem Recorder.interchangeable [Arithmetic α] {one other : Recorder α}
    (handle : one.timeline.nextHandle = other.timeline.nextHandle) (taken : one.taken = other.taken)
    (stopAt : one.stopAt = other.stopAt) (tuning : one.tuning = other.tuning) :
    Device.Interchangeable one other := by
  refine Device.Interchangeable.of_relation
    (fun left right => left.timeline.nextHandle = right.timeline.nextHandle ∧
      left.taken = right.taken ∧ left.stopAt = right.stopAt ∧ left.tuning = right.tuning)
    ⟨handle, taken, stopAt, tuning⟩ ?_ ?_ ?_ ?_
  · intro left right ⟨handle, taken, stopAt, tuning⟩ request
    exact ⟨congrArg (· + 1) handle, congrArg (· + 1) taken, stopAt, tuning⟩
  · intro left right same block effect
    exact same
  · intro left right same block effect
    exact same
  · intro left right ⟨handle, taken, stopAt, tuning⟩
    refine ⟨fun name => congrFun tuning name, fun _ => handle, fun _ => ?_⟩
    change (left.stopAt == some (left.taken + 1)) = (right.stopAt == some (right.taken + 1))
    rw [taken, stopAt]

/-! ## Recorded effects -/

namespace State

theorem lookup_cons_eq_ite (name other : String) (recorded : List (Effect α))
    (rest : List (String × List (Effect α))) :
    ((name, recorded) :: rest).lookup other =
      if name = other then some recorded else rest.lookup other := by
  by_cases asked : other = name
  · simp [asked]
  · rw [List.lookup_cons, beq_false_of_ne asked, if_neg (Ne.symm asked)]

theorem lookup_map_append (block other : String) (effect : Effect α)
    (effects : List (String × List (Effect α))) :
    (effects.map fun entry =>
        if entry.1 == block then (entry.1, entry.2 ++ [effect]) else entry).lookup other =
      (effects.lookup other).map (· ++ if block = other then [effect] else []) := by
  induction effects with
  | nil => rfl
  | cons first rest inductionHypothesis =>
    obtain ⟨name, recorded⟩ := first
    have head : (if name == block then (name, recorded ++ [effect]) else (name, recorded)) =
        (name, recorded ++ if block = name then [effect] else []) := by
      by_cases here : name = block
      · simp [here]
      · simp [here, Ne.symm here]
    rw [List.map_cons, head, lookup_cons_eq_ite, lookup_cons_eq_ite, inductionHypothesis]
    by_cases asked : name = other <;> simp [asked]

/-- An effect joins the effects of its block, and no others. -/
theorem effectsOf_addEffect (state : State α) (block other : String) (effect : Effect α) :
    (state.addEffect block effect).effectsOf other =
      state.effectsOf other ++ if block = other then [effect] else [] := by
  rw [addEffect, effectsOf, effectsOf]
  dsimp only
  by_cases known : state.effects.any fun entry => entry.1 == block
  · -- the effects of the block are there, and grow in their place
    rw [if_pos known, lookup_map_append]
    cases found : state.effects.lookup other with
    | some recorded => rfl
    | none =>
      have different : block ≠ other := by
        rintro rfl
        obtain ⟨entry, member, same⟩ := List.any_eq_true.mp known
        have absent := List.lookup_eq_none_iff.mp found entry member
        simp [beq_iff_eq.mp same] at absent
      simp [different]
  · -- it is the first effect of the block
    rw [if_neg known, List.lookup_append, lookup_cons_eq_ite]
    by_cases same : block = other
    · subst same
      have absent : state.effects.lookup block = none := by
        rw [List.lookup_eq_none_iff]
        intro entry member
        have different : entry.1 ≠ block := fun same =>
          known (List.any_eq_true.mpr ⟨entry, member, beq_iff_eq.mpr same⟩)
        simpa using Ne.symm different
      simp [absent]
    · simp [same]

end State

/-! ## The effects of headers -/

namespace Run

variable [Arithmetic α] [Device α β]

def recordEach (headers : List (String × Effect Float)) (run : Run α β) : Run α β :=
  headers.foldl (fun run header =>
    run.recordEffect header.1 (header.2.map Arithmetic.ofDouble)) run

theorem recordHeaders_eq_recordEach (program : Program) (run : Run α β) :
    run.recordHeaders program = run.recordEach (Definitions.headers program.blocks) := by
  rw [recordHeaders, recordEach, Definitions.headers, List.foldl_flatMap]
  simp only [List.foldl_map]

theorem journal_recordEach (headers : List (String × Effect Float)) (run : Run α β) :
    (run.recordEach headers).journal.toList = run.journal.toList ++
      headers.map fun header =>
        .effectRecorded header.1 (header.2.map Arithmetic.ofDouble) := by
  induction headers generalizing run with
  | nil => simp [recordEach]
  | cons header rest inductionHypothesis =>
    rw [recordEach, List.foldl_cons, ← recordEach, inductionHypothesis]
    simp [recordEffect, record]

theorem effectsOf_recordEach (headers : List (String × Effect Float)) (run : Run α β)
    (block : String) :
    (run.recordEach headers).state.effectsOf block = run.state.effectsOf block ++
      (effectsOn block headers).map (Effect.map Arithmetic.ofDouble) := by
  induction headers generalizing run with
  | nil => simp [recordEach, effectsOn]
  | cons header rest inductionHypothesis =>
    have added : (run.recordEffect header.1 (header.2.map Arithmetic.ofDouble)).state.effectsOf
        block = run.state.effectsOf block ++
          if header.1 = block then [header.2.map Arithmetic.ofDouble] else [] :=
      State.effectsOf_addEffect _ _ _ _
    rw [recordEach, List.foldl_cons, ← recordEach, inductionHypothesis, added]
    by_cases same : header.1 = block <;> simp [effectsOn, same]

/-! ## Retelling -/

/-- A run on the one device and a run on the other that have gone on from two journals and have done
the same since. -/
structure Retells [Device α γ] (one : β) (other : γ) (first second : Journal α) (left : Run α β)
    (right : Run α γ) : Prop where
  heeds : left.Heeds one
  heeds' : right.Heeds other
  tempo : left.state.tempo = right.state.tempo
  bindings : left.state.bindings = right.state.bindings
  active : left.state.active = right.state.active
  running : left.running = right.running
  effects : ∀ block,
    List.Forall₂ Effect.Agrees (left.state.effectsOf block) (right.state.effectsOf block)
  stack : left.stack = right.stack
  invocations : left.invocations = right.invocations
  refusals : left.refusals = right.refusals
  journals : ∃ entries entries' : List (Entry α), List.Forall₂ Entry.Reworded entries entries' ∧
    left.journal = first ++ entries ∧ right.journal = second ++ entries'

namespace Retells

variable [Device α γ] {one : β} {other : γ} {first second : Journal α} {left : Run α β}
  {right : Run α γ}

theorem journals_push (retells : Retells one other first second left right) {entry entry' : Entry α}
    (reworded : Entry.Reworded entry entry') :
    ∃ entries entries' : List (Entry α), List.Forall₂ Entry.Reworded entries entries' ∧
      left.journal.push entry = first ++ entries ∧
      right.journal.push entry' = second ++ entries' := by
  obtain ⟨entries, entries', pairs, journal, journal'⟩ := retells.journals
  refine ⟨entries ++ [entry], entries' ++ [entry'],
    List.rel_append pairs (.cons reworded .nil), ?_, ?_⟩
  · rw [journal, ← Array.toList_inj]
    simp
  · rw [journal', ← Array.toList_inj]
    simp

theorem record (retells : Retells one other first second left right) {entry entry' : Entry α}
    (reworded : Entry.Reworded entry entry') (plain : entry.call? = none) :
    Retells one other first second (left.record entry) (right.record entry') :=
  { retells with
    heeds := retells.heeds.record plain
    heeds' := retells.heeds'.record (reworded.call? ▸ plain)
    journals := retells.journals_push reworded }

/-- What the devices have been asked since is the same. -/
theorem calls (retells : Retells one other first second left right) :
    ∃ calls, left.calls = Entry.calls first.toList ++ calls ∧
      right.calls = Entry.calls second.toList ++ calls := by
  obtain ⟨entries, entries', pairs, journal, journal'⟩ := retells.journals
  have same : Entry.calls entries = Entry.calls entries' :=
    Entry.Reworded.filterMap_eq pairs fun reworded => reworded.call?
  refine ⟨Entry.calls entries, ?_, ?_⟩
  · rw [Run.calls, journal, Array.toList_appendList, Entry.calls_append]
  · rw [Run.calls, journal', Array.toList_appendList, Entry.calls_append, same]

/-- Devices that answer alike whatever is asked of both. -/
def Answers (one : β) (other : γ) (first second : Journal α) : Prop :=
  ∀ calls, Device.AnswersSame (Call.replay one (Entry.calls first.toList ++ calls))
    (Call.replay other (Entry.calls second.toList ++ calls))

theorem answersSame (retells : Retells one other first second left right)
    (answers : Answers one other first second) :
    Device.AnswersSame left.device right.device := by
  obtain ⟨calls, asked, asked'⟩ := retells.calls
  rw [retells.heeds.device, retells.heeds'.device, asked, asked']
  exact answers calls

theorem dispatch (retells : Retells one other first second left right)
    (answers : Answers one other first second) (request : Request α) (duration : α) :
    Retells one other first second (left.dispatch request duration)
      (right.dispatch request duration) := by
  have same := retells.answersSame answers
  have running : left.state.running = right.state.running := retells.running
  refine
    { heeds := retells.heeds.dispatch request duration
      heeds' := retells.heeds'.dispatch request duration
      tempo := retells.tempo
      bindings := retells.bindings
      active := ?_
      running := ?_
      effects := retells.effects
      stack := retells.stack
      invocations := retells.invocations
      refusals := retells.refusals
      journals := ?_ }
  · simp only [Run.dispatch, Run.record]
    rw [retells.active, same.handle]
  · simp only [Run.dispatch, Run.record, Run.running]
    rw [running, same.stop]
  · simp only [Run.dispatch, Run.record]
    rw [same.handle]
    exact retells.journals_push (.same _)

theorem recordEffect (retells : Retells one other first second left right) (block : String)
    (effect : Effect α) :
    Retells one other first second (left.recordEffect block effect)
      (right.recordEffect block effect) :=
  { retells with
    heeds := retells.heeds.recordEffect block effect
    heeds' := retells.heeds'.recordEffect block effect
    effects := by
      intro other
      simp only [Run.recordEffect, Run.record, State.effectsOf_addEffect]
      exact List.rel_append (retells.effects other) (Effect.Agrees.refl_all _)
    journals := retells.journals_push (.same _) }

theorem refuse (retells : Retells one other first second left right) (settings : Settings)
    (refused : Refused) :
    Retells one other first second (left.refuse settings refused)
      (right.refuse settings refused) := by
  have noted : Retells one other first second (left.noteRefusal refused)
      (right.noteRefusal refused) := by
    rw [noteRefusal, noteRefusal, ← retells.refusals]
    split
    · exact retells
    · exact { retells with
        heeds := ⟨retells.heeds.device, retells.heeds.running⟩
        heeds' := ⟨retells.heeds'.device, retells.heeds'.running⟩
        refusals := rfl }
  rw [Run.refuse, Run.refuse, ← retells.refusals]
  split
  · exact noted
  · exact noted.record (.same _) rfl

end Retells

/-- Commands may differ in their lines, and nothing else differs. -/
def retelling [Device α γ] (one : β) (other : γ) (first second : Journal α) : Pairing α β γ :=
  { command := Command.Alike, time := Eq, sharesMix := True, run := Retells one other first second }

section Retelling

variable [Device α γ] {one : β} {other : γ} {first second : Journal α}

theorem reworded_of_note {entry entry' : Entry α}
    (note : (retelling one other first second).Note entry entry') :
    Entry.Reworded entry entry' ∧ entry.call? = none := by
  cases note with
  | ignoredParameter key alike =>
    rw [alike.verb]
    exact ⟨.warned (.ignoredParameter _ _ _ key), rfl⟩
  | invalidBpm bpm => exact ⟨.warned (.invalidBpm _ _ bpm), rfl⟩
  | faultyCommand alike =>
    rw [alike.text]
    exact ⟨.warned (.faultyCommand _ _ _ _), rfl⟩
  | unknownCommand alike =>
    rw [alike.verb]
    exact ⟨.warned (.unknownCommand _ _ _), rfl⟩
  | unknownWaveform | blockNotFound | loopBlocksNotFound | loopLeft => exact ⟨.same _, rfl⟩
  | sequenceLeft times | tempoChanged _ times | blockEntered _ times
  | customSampleEntered _ _ times =>
    obtain rfl := times
    exact ⟨.same _, rfl⟩

theorem lawful_retelling (settings : Settings) (answers : Retells.Answers one other first second) :
    (retelling one other first second).Lawful settings where
  alike := id
  delay := fun times duration => congrArg (· + duration) times
  tempo := Retells.tempo
  bindings := Retells.bindings
  running := Retells.running
  frequency := fun retells => (retells.answersSame answers).frequency
  refusal? := by
    intro left right retells kind name
    rw [Run.refusal?, Run.refusal?, retells.stack, retells.invocations]
  invocations := by
    intro before before' after after' one other
    rw [one.invocations, other.invocations]
  record := fun retells note =>
    retells.record (reworded_of_note note).1 (reworded_of_note note).2
  dispatch := by
    intro left right request request' retells sound duration
    obtain rfl := sound.eq id trivial
    exact retells.dispatch answers request duration
  setTempo := fun retells tempo =>
    { retells with
      heeds := ⟨retells.heeds.device, retells.heeds.running⟩
      heeds' := ⟨retells.heeds'.device, retells.heeds'.running⟩
      tempo := rfl }
  setVariable := fun retells name value =>
    { retells with
      heeds := ⟨retells.heeds.device, retells.heeds.running⟩
      heeds' := ⟨retells.heeds'.device, retells.heeds'.running⟩
      bindings := congrArg (Variables.set · name value) retells.bindings }
  recordEffect := fun retells => retells.recordEffect
  refuse := fun retells => retells.refuse settings
  enter := fun retells kind name =>
    { retells with
      heeds := ⟨retells.heeds.device, retells.heeds.running⟩
      heeds' := ⟨retells.heeds'.device, retells.heeds'.running⟩
      stack := congrArg _ retells.stack
      invocations := congrArg (· + 1) retells.invocations }
  leave := fun retells =>
    { retells with
      heeds := ⟨retells.heeds.device, retells.heeds.running⟩
      heeds' := ⟨retells.heeds'.device, retells.heeds'.running⟩
      stack := congrArg List.tail retells.stack }

end Retelling

/-! ## The first moment -/

section Start

/-- Recording effects leaves everything else as it was. -/
theorem recordEach_eq (headers : List (String × Effect Float)) (run : Run α β) :
    ∃ effects device journal,
      run.recordEach headers = { run with state := { run.state with effects }, device, journal } := by
  induction headers generalizing run with
  | nil => exact ⟨_, _, _, rfl⟩
  | cons header rest inductionHypothesis =>
    obtain ⟨effects, device, journal, same⟩ :=
      inductionHypothesis (run.recordEffect header.1 (header.2.map Arithmetic.ofDouble))
    exact ⟨effects, device, journal, same⟩

theorem heeds_recordEach {origin : β} (headers : List (String × Effect Float)) {run : Run α β}
    (heeds : run.Heeds origin) : (run.recordEach headers).Heeds origin :=
  List.foldlRecOn headers _ heeds fun _ heeds _ _ => heeds.recordEffect _ _

theorem calls_recordEach (headers : List (String × Effect Float)) (run : Run α β) :
    (run.recordEach headers).calls = run.calls ++ Call.ofHeaders headers := by
  rw [Run.calls, journal_recordEach, Entry.calls_append, Run.calls, Call.ofHeaders]
  refine congrArg _ ?_
  rw [Entry.calls, List.filterMap_map]
  exact congrFun List.filterMap_eq_map headers

variable [Device α γ]

/-- Once the headers are recorded, runs that start from one state retell each other. -/
theorem retells_recordEach {left : Run α β} {right : Run α γ} {one : β} {other : γ}
    (heeds : left.Heeds one) (heeds' : right.Heeds other) (state : left.state = right.state)
    (stack : left.stack = right.stack) (invocations : left.invocations = right.invocations)
    (refusals : left.refusals = right.refusals) {headers headers' : List (String × Effect Float)}
    (same : SameHeaders headers headers') :
    Retells one other (left.recordEach headers).journal (right.recordEach headers').journal
      (left.recordEach headers) (right.recordEach headers') := by
  obtain ⟨effects, device, journal, frame⟩ := left.recordEach_eq headers
  obtain ⟨effects', device', journal', frame'⟩ := right.recordEach_eq headers'
  refine
    { heeds := heeds_recordEach headers heeds
      heeds' := heeds_recordEach headers' heeds'
      tempo := ?_
      bindings := ?_
      active := ?_
      running := ?_
      effects := ?_
      stack := ?_
      invocations := ?_
      refusals := ?_
      journals := ⟨[], [], .nil, by simp, by simp⟩ }
  · rw [frame, frame', state]
  · rw [frame, frame', state]
  · rw [frame, frame', state]
  · rw [frame, frame', Run.running, Run.running, state]
  · intro block
    rw [effectsOf_recordEach, effectsOf_recordEach, state]
    refine List.rel_append (Effect.Agrees.refl_all _) ?_
    rw [List.forall₂_map_left_iff, List.forall₂_map_right_iff]
    exact (same block).imp fun _ _ => .header
  · rw [frame, frame', stack]
  · rw [frame, frame', invocations]
  · rw [frame, frame', refusals]

end Start

end Run

end Sequencer
