import Sequencer.Device.Recorder
import Sequencer.Proofs.Run.BoundedRequests
import Sequencer.Proofs.Session.Execution

/-! # What an execution asks for

Every request of an execution starts at or after zero, extends forward, and is neither too loud nor
too far from the middle. The exceptions go back to a product of zero and infinity.
-/

namespace Sequencer.Session

variable {β : Type} [Device Float β]

/-- At some moment of an execution beats and their duration are multiplied, the one zero and the
other infinite. -/
def LengthsClash (session : Session Float β) (device : β) : Prop :=
  ∃ moment, session.Reaches device moment ∧ moment.LengthsClash

/-- At some moment of an execution two volumes are multiplied, the one zero and the other
infinite. -/
def VolumesClash (session : Session Float β) (device : β) : Prop :=
  ∃ moment, session.Reaches device moment ∧
    moment.VolumesClash session.program session.settings

theorem within_performed {session : Session Float β} (device : β)
    (finiteDefault : session.settings.defaultVolume.isFinite = true) :
    (session.performed device).2.Within (session.LengthsClash device)
      (session.VolumesClash device) := by
  have fresh : (session.opened device).Within (session.LengthsClash device)
      (session.VolumesClash device) := Run.within_start _ _ _ rfl
  -- clashes count at moments that are reached, so that reaching is part of the invariant
  have reached := (session.reaches_performed device).invariant
    (fun moment => session.Reaches device moment ∧
      moment.Within (session.LengthsClash device) (session.VolumesClash device))
    ⟨.refl, Machine.within_start session.program fresh⟩
    fun before steps => ⟨before.1.tail steps, before.2.step finiteDefault
      (fun clash => ⟨_, before.1, clash⟩) (fun clash => ⟨_, before.1, clash⟩) steps⟩
  exact reached.2.run

theorem mem_requests {entries : Journal Float} {request : Request Float}
    (called : .schedule request ∈ Entry.calls entries.toList) :
    ∃ handle, (request, handle) ∈ entries.requests := by
  obtain ⟨entry, member, call⟩ := List.mem_filterMap.mp called
  cases entry with
  | dispatched own duration handle =>
    cases call
    exact ⟨handle, Array.mem_filterMap.mpr ⟨_, Array.mem_toList_iff.mp member, rfl⟩⟩
  | _ => cases call

/-- An execution makes of its device what its calls make of it, and every request among them is
within bounds: a start that is not before zero, an extent that is not negative, a volume from zero to
one and a pan from minus one to one. Times and volumes can be no numbers, but only if lengths or
volumes have clashed in the execution. -/
theorem executes_within_bounds {session : Session Float β} {device : β}
    (attached : session.device = some device)
    (finiteDefault : session.settings.defaultVolume.isFinite = true) :
    ∃ result, session.execute = .ok result ∧
      result.2.device = some (Call.replay device (Entry.calls result.1.journal.toList)) ∧
      ∀ request, .schedule request ∈ Entry.calls result.1.journal.toList →
        request.Within (session.LengthsClash device) (session.VolumesClash device) := by
  refine ⟨session.perform device, execute_eq_ok attached, ?_, fun request called => ?_⟩
  · rw [calls_perform]
    exact congrArg some (session.heeds_performed device).device
  · rw [calls_perform] at called
    obtain ⟨handle, member⟩ := mem_requests called
    exact (within_performed device finiteDefault).requests _ member

/-- A beat lasts forever, and none of it is waited for. -/
def stalled : Session Float (Timeline Float) :=
  ((start .standard).attach .empty).read "bpm 1e-320\nwait 0\nsample kick\n"

/-- Two mixes one inside another are too loud for a double, and the sample in them is silent. -/
def drowned : Session Float (Timeline Float) :=
  ((start .standard).attach .empty).read
    "play a volume=1e300\n[a]\nplay b volume=1e300\n[end]\n[b]\nsample kick volume=0\n[end]\n"

/-- Whether a call is a request that passes a test. -/
def asks (test : Request Float → Bool) : Call Float → Bool
  | .schedule request => test request
  | .addEffect _ _ => false

theorem exists_of_asks {calls : List (Call Float)} {test : Request Float → Bool}
    (found : calls.any (asks test) = true) :
    ∃ request, .schedule request ∈ calls ∧ test request = true := by
  obtain ⟨call, member, passes⟩ := List.any_eq_true.mp found
  cases call with
  | schedule request => exact ⟨request, member, passes⟩
  | addEffect => cases passes

theorem stalled_starts_at_no_time :
    ∃ request, .schedule request ∈ Entry.calls (stalled.perform .empty).1.journal.toList ∧
      request.start = .nan := by
  have found : (Entry.calls (stalled.perform .empty).1.journal.toList).any
      (asks fun request => decide (request.start = .nan)) = true := by decide +kernel
  obtain ⟨request, called, notNumber⟩ := exists_of_asks found
  exact ⟨request, called, of_decide_eq_true notNumber⟩

theorem drowned_has_no_volume :
    ∃ request, .schedule request ∈ Entry.calls (drowned.perform .empty).1.journal.toList ∧
      request.volume = .nan := by
  have found : (Entry.calls (drowned.perform .empty).1.journal.toList).any
      (asks fun request => decide (request.volume = .nan)) = true := by decide +kernel
  obtain ⟨request, called, notNumber⟩ := exists_of_asks found
  exact ⟨request, called, of_decide_eq_true notNumber⟩

/-- Both exceptions occur, with settings as they come: a start that is no number, and a volume that
is none. -/
theorem exceptions_occur :
    (stalled.settings.defaultVolume.isFinite = true ∧
      ∃ request, .schedule request ∈ Entry.calls (stalled.perform .empty).1.journal.toList ∧
        request.start = .nan ∧ ¬ request.Within False False) ∧
    drowned.settings.defaultVolume.isFinite = true ∧
      ∃ request, .schedule request ∈ Entry.calls (drowned.perform .empty).1.journal.toList ∧
        request.volume = .nan ∧ ¬ request.Within False False := by
  obtain ⟨late, called, noTime⟩ := stalled_starts_at_no_time
  obtain ⟨loud, called', noVolume⟩ := drowned_has_no_volume
  refine ⟨⟨by decide +kernel, late, called, noTime, fun within => ?_⟩,
    by decide +kernel, loud, called', noVolume, fun within => ?_⟩
  · rcases within.start with nonneg | ⟨-, none⟩
    · exact Number.ne_nan_of_nonneg nonneg noTime
    · exact none
  · rcases within.volume with bounds | ⟨-, none⟩
    · exact Number.ne_nan_of_nonneg bounds.1 noVolume
    · exact none

/-- The sample after the wait has a pan within bounds, and no start because lengths have clashed. -/
theorem executes_within_bounds_stalled :
    stalled.settings.defaultVolume.isFinite = true ∧
      ∃ result, stalled.execute = .ok result ∧
        ∃ request, .schedule request ∈ Entry.calls result.1.journal.toList ∧
          request.start = .nan ∧ (-1 ≤ request.pan ∧ request.pan ≤ 1) ∧
            stalled.LengthsClash (.empty : Timeline Float) := by
  have finite : stalled.settings.defaultVolume.isFinite = true := by decide +kernel
  have attached : stalled.device = some .empty := rfl
  obtain ⟨result, executed, -, bounds⟩ := executes_within_bounds attached finite
  obtain ⟨request, called, noTime⟩ := stalled_starts_at_no_time
  have same : .ok (stalled.perform .empty) = stalled.execute := rfl
  obtain rfl := Except.ok.inj (same.trans executed)
  have within := bounds request called
  refine ⟨finite, _, rfl, request, called, noTime, within.pan, ?_⟩
  rcases within.start with nonneg | ⟨-, clash⟩
  · exact absurd noTime (Number.ne_nan_of_nonneg nonneg)
  · exact clash

end Sequencer.Session
