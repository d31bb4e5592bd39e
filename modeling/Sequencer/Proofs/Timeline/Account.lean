import Mathlib.Data.List.Basic
import Sequencer.Proofs.Timeline.Tape

/-! # What becomes of the events

As long as a timeline is neither rewound nor cleared, every event that is inserted is drained once,
still waits, or has been cancelled once. This needs no order among the times, which may be
incomparable, so that a search may find any place: wherever it is, an insertion lands behind the
cursor, and a drain moves the cursor over what it returns.
-/

namespace Sequencer

variable {α : Type}

/-- Whether an operation leaves alone what has been consumed. -/
def Operation.isForward : Operation α → Bool
  | .rewind | .clear => false
  | _ => true

/-- A timeline with what has gone into it and what has come out. -/
structure Account (α : Type) where
  timeline : Timeline α
  inserted : List (Event α)
  /-- What each drain has returned. -/
  drained : List (List (Event α))
  /-- What was pending at each stop. -/
  cancelled : List (List (Event α))
  /-- The handles given out. -/
  handles : List Handle

namespace Account

def empty : Account α :=
  { timeline := .empty, inserted := [], drained := [], cancelled := [], handles := [] }

variable [Arithmetic α] (search : Timeline.Search (Event α))

def perform (account : Account α) (operation : Operation α) : Account α :=
  let after := { account with timeline := account.timeline.performBy search operation }
  match operation with
  | .schedule request =>
    let handle := (account.timeline.scheduleBy search request).1
    { after with
      inserted := account.inserted ++ [.ofRequest handle request]
      handles := account.handles ++ [handle] }
  | .insert event => { after with inserted := account.inserted ++ [event] }
  | .drain time =>
    { after with drained := account.drained ++ [(account.timeline.drainBy search time).1.toList] }
  | .stop => { after with cancelled := account.cancelled ++ [account.timeline.pending.toList] }
  | _ => after

def ofOperations (operations : List (Operation α)) : Account α :=
  operations.foldl (perform search) empty

/-- A pause touches the transport alone. -/
theorem timeline_pause (account : Account α) :
    (account.perform search .pause).timeline =
      { account.timeline with transport := account.timeline.pause.transport } :=
  account.timeline.pause_eq

/-! ## Events -/

/-- Nothing is lost and nothing is doubled. -/
structure Balanced (account : Account α) : Prop where
  consumed : account.timeline.consumed.toList = account.drained.flatten
  inserted : account.inserted.Perm
    (account.drained.flatten ++ account.timeline.pending.toList ++ account.cancelled.flatten)

theorem perm_insertBy (timeline : Timeline α) (event : Event α) :
    (timeline.insertBy search event).pending.toList.Perm (event :: timeline.pending.toList) := by
  rw [Timeline.toList_pending_insertBy]
  exact List.perm_insertIdx event _ (search.place_le _ _)

theorem drained_append_pending (timeline : Timeline α) (time : α) :
    (timeline.drainBy search time).1.toList ++ (timeline.drainBy search time).2.pending.toList =
      timeline.pending.toList := by
  rw [Timeline.toList_drainedBy, Timeline.toList_pending_drainBy, List.take_append_drop]

variable {search}

/-- An insertion adds one event that waits. -/
theorem Balanced.insert {account after : Account α} (balanced : account.Balanced) (event : Event α)
    (consumed : after.timeline.consumed = account.timeline.consumed)
    (pending : after.timeline.pending = (account.timeline.insertBy search event).pending)
    (inserted : after.inserted = account.inserted ++ [event])
    (drained : after.drained = account.drained) (cancelled : after.cancelled = account.cancelled) :
    after.Balanced where
  consumed := by rw [consumed, drained, balanced.consumed]
  inserted := by
    rw [inserted, pending, drained, cancelled]
    refine (List.perm_append_singleton event _).trans ((balanced.inserted.cons event).trans ?_)
    rw [List.append_assoc, List.append_assoc]
    refine List.perm_middle.symm.trans (List.Perm.append_left _ ?_)
    exact ((perm_insertBy search account.timeline event).append_right _).symm

theorem Balanced.perform {account : Account α} (balanced : account.Balanced)
    {operation : Operation α} (forward : operation.isForward = true) :
    (account.perform search operation).Balanced := by
  cases operation with
  | schedule request => exact balanced.insert _ rfl rfl rfl rfl rfl
  | insert event => exact balanced.insert event rfl rfl rfl rfl rfl
  | drain time =>
    have flat : (account.drained ++ [(account.timeline.drainBy search time).1.toList]).flatten =
        account.drained.flatten ++ (account.timeline.drainBy search time).1.toList := by simp
    refine ⟨?_, ?_⟩
    · refine Eq.trans ?_ flat.symm
      rw [← balanced.consumed]
      exact Array.toList_append
    · refine balanced.inserted.trans (.of_eq ?_)
      change _ = (account.drained ++ [(account.timeline.drainBy search time).1.toList]).flatten ++
        (account.timeline.drainBy search time).2.pending.toList ++ account.cancelled.flatten
      rw [flat, ← drained_append_pending search account.timeline time]
      simp only [List.append_assoc]
  | stop =>
    refine ⟨balanced.consumed, balanced.inserted.trans ?_⟩
    change List.Perm _ (account.drained.flatten ++ [] ++
      (account.cancelled ++ [account.timeline.pending.toList]).flatten)
    -- what was pending is now the last of what has been cancelled
    rw [List.append_nil, List.flatten_append, List.flatten_singleton, List.append_assoc]
    exact List.perm_append_comm.append_left _
  | rewind | clear => cases forward
  | addEffect | peek | play => exact ⟨balanced.consumed, balanced.inserted⟩
  | pause =>
    refine ⟨?_, ?_⟩
    · rw [timeline_pause]
      exact balanced.consumed
    · rw [timeline_pause]
      exact balanced.inserted

theorem balanced_ofOperations {operations : List (Operation α)}
    (forward : ∀ operation ∈ operations, operation.isForward = true) :
    (ofOperations search operations).Balanced :=
  List.foldlRecOn operations (perform search) ⟨rfl, .refl _⟩ fun _ before operation member =>
    before.perform (forward operation member)

/-! ## Handles -/

/-- Every handle given out is above the ones before it, and the next one will be above them all. -/
structure Numbered (account : Account α) : Prop where
  increasing : account.handles.Pairwise (· < ·)
  next : ∀ handle ∈ account.handles, handle < account.timeline.nextHandle

theorem Numbered.perform {account : Account α} (numbered : account.Numbered)
    (operation : Operation α) : (account.perform search operation).Numbered := by
  cases operation with
  | schedule request =>
    refine ⟨List.pairwise_append.mpr ⟨numbered.increasing, List.pairwise_singleton _ _, ?_⟩, ?_⟩
    · intro handle member next isNext
      rw [List.mem_singleton.mp isNext]
      exact numbered.next handle member
    · intro handle member
      rcases List.mem_append.mp member with given | isNext
      · exact Nat.lt_succ_of_lt (numbered.next handle given)
      · rw [List.mem_singleton.mp isNext]
        exact Nat.lt_succ_self _
  | pause =>
    refine ⟨numbered.increasing, fun handle member => ?_⟩
    rw [timeline_pause]
    exact numbered.next handle member
  | insert | addEffect | drain | peek | rewind | clear | play | stop =>
    exact ⟨numbered.increasing, numbered.next⟩

theorem numbered_ofOperations (operations : List (Operation α)) :
    (ofOperations search operations).Numbered :=
  List.foldlRecOn operations (perform search) ⟨.nil, fun _ none => absurd none List.not_mem_nil⟩
    fun _ before operation _ => before.perform operation

/-! ## Whole rows of operations -/

theorem timeline_ofOperations (operations : List (Operation α)) :
    (ofOperations search operations).timeline =
      operations.foldl (Timeline.performBy search) .empty := by
  have timeline (account : Account α) (operation : Operation α) :
      (account.perform search operation).timeline = account.timeline.performBy search operation := by
    cases operation <;> rfl
  exact (List.foldl_hom Account.timeline fun account operation => (timeline account operation).symm).symm

/-- Kept as one row of events with a cursor in it, a timeline never reads or writes outside of the
row. Without a rewind and a clearance, the front of the events is what the drains have returned, and
each event that was inserted has been drained once, still waits, or has been cancelled once. Handles
increase in any case. All this holds wherever a search finds a place. -/
theorem accounts_for_everything (search : Timeline.Search (Event α))
    (operations : List (Operation α)) :
    Tape.empty.performAll? search operations =
      some (Timeline.empty.answersBy search operations,
        (ofOperations search operations).timeline.tape) ∧
    ((∀ operation ∈ operations, operation.isForward = true) →
      let account := ofOperations search operations
      let events := account.timeline.events.toList
      let consumed := events.length - account.timeline.remaining
      account.timeline.Indexed search ∧
        events.take consumed = account.drained.flatten ∧
        account.inserted.Perm
          (account.drained.flatten ++ events.drop consumed ++ account.cancelled.flatten)) ∧
      (ofOperations search operations).handles.Pairwise (· < ·) := by
  refine ⟨timeline_ofOperations operations ▸ Tape.performAll?_empty search operations,
    fun forward => ?_, (numbered_ofOperations operations).increasing⟩
  have balanced : (ofOperations search operations).Balanced := balanced_ofOperations forward
  have cursor := (ofOperations search operations).timeline.cursor_eq_sub
  dsimp only
  rw [Array.length_toList, ← cursor, Timeline.take_cursor, Timeline.drop_cursor]
  exact ⟨Timeline.indexed search _, balanced.consumed, balanced.inserted⟩

/-- Drained at one that is no number, then at four, then stopped. -/
def unordered : List (Operation Float) :=
  let request := fun start : Float =>
    { trigger := .sample "kick" 1 1, start, extent := .instant, volume := 1, pan := 0 }
  [.schedule (request 3), .schedule (request (0 / 0)), .schedule (request 1), .drain (0 / 0),
    .drain 4, .schedule (request 2), .stop]

theorem accounts_for_everything_unordered :
    (∀ operation ∈ unordered, operation.isForward = true) ∧
      (ofOperations .halving unordered).inserted.Perm
        ((ofOperations .halving unordered).drained.flatten ++
          (ofOperations .halving unordered).timeline.events.toList.drop
            ((ofOperations .halving unordered).timeline.events.toList.length -
              (ofOperations .halving unordered).timeline.remaining) ++
          (ofOperations .halving unordered).cancelled.flatten) ∧
      (ofOperations .halving unordered).handles = [1, 2, 3, 4] := by
  have forward : ∀ operation ∈ unordered, operation.isForward = true := by decide
  exact ⟨forward, ((accounts_for_everything .halving unordered).2.1 forward).2.2, rfl⟩

end Account

end Sequencer
