import Sequencer.Proofs.Run.Bookkeeping
import Sequencer.Proofs.Run.Unused
import Sequencer.Proofs.Session.Effects
import Sequencer.Proofs.Session.Sameness

/-! # Definitions that are not in use do not matter

A block or a custom sample that the entry of a program does not come to can be added or taken away.
All that it can change is what the headers have told the device and left among the effects.
-/

namespace Sequencer.Session

variable {α β : Type} [Arithmetic α]

/-- The same report, and the same left behind but for effects. The effects of each block, and all
that the device has been asked, are those of the headers of either program and the same ones after
them. -/
structure SameButForHeaders (headers headers' : List (String × Effect Float))
    (result result' : Report α × Session α β) : Prop where
  phase : result.1.phase = result'.1.phase
  duration : result.1.duration = result'.1.duration
  dispatched : result.1.dispatched = result'.1.dispatched
  requests : result.1.journal.requests = result'.1.journal.requests
  warnings : result.1.warnings = result'.1.warnings
  tempo : result.2.state.tempo = result'.2.state.tempo
  bindings : result.2.state.bindings = result'.2.state.bindings
  active : result.2.state.active = result'.2.state.active
  effects : ∃ recorded : String → List (Effect α), ∀ block,
    result.2.state.effectsOf block =
        (effectsOn block headers).map (Effect.map Arithmetic.ofDouble) ++ recorded block ∧
      result'.2.state.effectsOf block =
        (effectsOn block headers').map (Effect.map Arithmetic.ofDouble) ++ recorded block
  calls : ∃ calls, Entry.calls result.1.journal.toList = Call.ofHeaders headers ++ calls ∧
    Entry.calls result'.1.journal.toList = Call.ofHeaders headers' ++ calls

variable [Device α β] {session : Session α β} {device : β} {program : Program}

/-- The runs from the moment on when the headers are recorded. -/
abbrev SameSinceHeaders (session : Session α β) (device : β) (program : Program) :
    Run α β → Run α β → Prop :=
  Run.SameSince device ((session.opened device).recordHeaders session.program).journal
    (((session.load program).opened device).recordHeaders program).journal

theorem sameSince_recordHeaders (session : Session α β) (device : β) (program : Program) :
    session.SameSinceHeaders device program ((session.opened device).recordHeaders session.program)
      (((session.load program).opened device).recordHeaders program) :=
  { (session.abreast_opened device program).recordHeaders session.program program with
    journals := ⟨[], by simp, by simp⟩ }

/-- A device that effects say nothing to answers alike. If it is told the same, any device does. -/
theorem answers_after_headers
    (deaf : Definitions.headers session.program.blocks = Definitions.headers program.blocks ∨
      Device.Deaf device) :
    Run.Retells.Answers device device
      ((session.opened device).recordHeaders session.program).journal
      (((session.load program).opened device).recordHeaders program).journal := by
  intro calls
  have told := calls_recordHeaders (session.load program) device
  rw [calls_recordHeaders]
  change Entry.calls (((session.load program).opened device).recordHeaders program).journal.toList =
    Call.ofHeaders (Definitions.headers program.blocks) at told
  rw [told]
  rcases deaf with same | deaf
  · rw [same]
    exact ⟨fun _ => rfl, fun _ => rfl, fun _ => rfl⟩
  · refine deaf _ _ ?_
    rw [Call.requests_ofHeaders_append, Call.requests_ofHeaders_append]

/-! ## Executions -/

variable [Arithmetic.LawfulZero α]

theorem agree_unused {key : Kind × String} (equal : session.program.EqualBut key program)
    (unused : ¬ session.program.InUse key)
    (deaf : Definitions.headers session.program.blocks = Definitions.headers program.blocks ∨
      Device.Deaf device) :
    (session.performed device).1 = ((session.load program).performed device).1 ∧
      session.SameSinceHeaders device program (session.performed device).2
        ((session.load program).performed device).2 := by
  have recorded := session.sameSince_recordHeaders device program
  have lawful := Correspondence.lawful_withinUse equal unused (answers_after_headers deaf)
    session.settings
  have globals : ∀ command ∈ session.program.globals,
      command = command ∧ ∀ key ∈ command.action.names, session.program.InUse key :=
    fun command member => ⟨rfl, fun _ named => Program.inUse_of_global member named⟩
  have start := lawful.start (equal.globals ▸ List.forall₂_same.mpr globals)
    Program.inUse_entryBlock rfl recorded (recorded.record rfl)
  have agree := lawful.reaches start (session.reaches_performed device)
    ((session.load program).reaches_performed device) (fun _ _ => ⟨trivial, fun _ _ => trivial⟩)
    (fun _ _ => trivial)
  exact ⟨agree.duration, agree.run⟩

/-- The books of an execution agree with its calls. -/
theorem mirrors_performed (session : Session α β) (device : β) :
    (session.performed device).2.Mirrors
      (.start (Arithmetic.ofDouble session.settings.defaultBpm) true) device :=
  Machine.mirrors_end _ _ ((Run.Mirrors.start _ device).record rfl)

/-- What an execution leaves for a block is what it has told the device for it. -/
theorem effectsOf_performed (session : Session α β) (device : β)
    {headers : List (String × Effect Float)} {calls : List (Call α)}
    (asked : (session.performed device).2.calls = Call.ofHeaders headers ++ calls)
    (block : String) :
    (session.performed device).2.state.effectsOf block =
      (effectsOn block headers).map (Effect.map Arithmetic.ofDouble) ++
        effectsOn block (Call.effects calls) := by
  rw [(session.mirrors_performed device).effects, asked, Call.effects_append, effectsOn_append,
    Call.effects_ofHeaders, effectsOn_map_convert]
  rfl

/-- A definition that is not in use can be added to a program, changed or taken away. An execution
makes the same requests with the same handles, takes the same time and raises the same warnings, and
it leaves the same tempo, variables and active handles. The effects are the same too, but for those
in the header of the block that goes by the name. -/
theorem executes_the_same_unused (attached : session.device = some device) {key : Kind × String}
    (equal : session.program.EqualBut key program) (unused : ¬ session.program.InUse key)
    (deaf : Definitions.headers session.program.blocks = Definitions.headers program.blocks ∨
      Device.Deaf device) :
    ∃ result result', session.execute = .ok result ∧ (session.load program).execute = .ok result' ∧
      SameButForHeaders (Definitions.headers session.program.blocks)
        (Definitions.headers program.blocks) result result' ∧
      ∀ block, (Kind.block, block) ≠ key →
        result.2.state.effectsOf block = result'.2.state.effectsOf block := by
  obtain ⟨duration, same⟩ := agree_unused equal unused deaf
  obtain ⟨entries, journal, journal'⟩ := same.journals
  obtain ⟨calls, asked, asked'⟩ := same.calls
  rw [calls_recordHeaders] at asked
  have asked' : ((session.load program).performed device).2.calls =
      Call.ofHeaders (Definitions.headers program.blocks) ++ calls :=
    calls_recordHeaders (session.load program) device ▸ asked'
  have requests : (session.perform device).1.journal.requests =
      ((session.load program).perform device).1.journal.requests := by
    rw [← Array.toList_inj, requests_perform journal, requests_perform journal']
  have warnings : (session.perform device).1.warnings =
      ((session.load program).perform device).1.warnings := by
    rw [← Array.toList_inj, warnings_perform journal, warnings_perform journal']
  have effects := effectsOf_performed session device asked
  have effects' := effectsOf_performed (session.load program) device asked'
  have attached' : (session.load program).device = some device := attached
  refine ⟨session.perform device, (session.load program).perform device, execute_eq_ok attached,
    execute_eq_ok attached', ?_, fun block other => ?_⟩
  · exact
      { phase := congrArg (fun running : Bool => if running then Phase.completed else .stopped)
          same.running
        duration
        dispatched := dispatched_eq_of_requests_eq requests
        requests
        warnings
        tempo := same.tempo
        bindings := same.bindings
        active := (congrArg State.active same.state :)
        effects := ⟨fun block => effectsOn block (Call.effects calls),
          fun block => ⟨effects block, effects' block⟩⟩
        calls := by
          rw [calls_perform, calls_perform]
          exact ⟨calls, asked, asked'⟩ }
  · exact (effects block).trans ((equal.headers other) ▸ (effects' block).symm)

/-- A verse in a loop, and a sample that blocks may share a name with. -/
def kicks (blocks : List Definition) : Program where
  globals := [.ofWords 1 ["loop", "2", "verse"], .ofWords 2 ["sample", "kick"],
    .ofWords 3 ["effect", "gain", "kick"]]
  blocks := { name := "verse", commands := [.ofWords 5 ["tone", "a4"]], effects := [] } :: blocks
  customSamples := []
  irregularities := []

def kick : Definition :=
  { name := "kick"
    commands := [.ofWords 8 ["play", "verse"], .ofWords 9 ["bpm", "90"]]
    effects := [{ kind := "reverb", parameters := [] }] }

theorem equalBut_kicks : (kicks [kick]).EqualBut (.block, "kick") (kicks []) := by
  have without : (kicks []).definitions .block = (kicks []).blocks ++ [] := rfl
  have having : (kicks [kick]).definitions .block = (kicks []).blocks ++ kick :: [] := rfl
  have added : (kicks []).EqualBut (.block, kick.name) (kicks [kick]) := by
    refine .of_insert rfl without having fun other different => ?_
    cases other with
    | block => exact absurd rfl different
    | customSample => rfl
  exact added.symm

/-- The sample of the name is in use, and the block is not. -/
theorem unused_kicks : ¬ (kicks [kick]).InUse (.block, "kick") := by
  rw [equalBut_kicks.inUse_iff]
  intro used
  rcases Program.exists_named_of_inUse used with entry | ⟨command, member, named⟩
  · exact absurd entry (by decide)
  · exact absurd named (by revert command; decide)

def drums : Session Float (Timeline Float) := ((start .standard).attach .empty).load (kicks [kick])

theorem executes_the_same_unused_kick :
    drums.program.EqualBut (.block, "kick") (kicks []) ∧ ¬ drums.program.InUse (.block, "kick") ∧
      Device.Deaf (Timeline.empty : Timeline Float) ∧
      ∃ result result', drums.execute = .ok result ∧ (drums.load (kicks [])).execute = .ok result' ∧
        SameButForHeaders (Definitions.headers (kicks [kick]).blocks)
          (Definitions.headers (kicks []).blocks) result result' ∧ result.1.dispatched = 3 ∧
        (result.2.state.effectsOf "kick").length = 2 ∧
        (result'.2.state.effectsOf "kick").length = 1 := by
  have attached : drums.device = some .empty := rfl
  have deaf : Device.Deaf (Timeline.empty : Timeline Float) := Timeline.deaf _
  obtain ⟨result, result', executes, executes', same, -⟩ :=
    executes_the_same_unused attached equalBut_kicks unused_kicks (.inr deaf)
  obtain rfl := eq_perform_of_execute rfl executes
  obtain rfl := eq_perform_of_execute rfl executes'
  exact ⟨equalBut_kicks, unused_kicks, deaf, _, _, executes, executes', same, by decide +kernel,
    by decide +kernel, by decide +kernel⟩

end Sequencer.Session
