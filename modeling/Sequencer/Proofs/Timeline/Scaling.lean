import Sequencer.Proofs.Number.Exact
import Sequencer.Proofs.Run.Scaling
import Sequencer.Proofs.Timeline.Operation

/-! # Timelines in another tempo

In exact arithmetic, times that are made of beats are all multiplied by one factor when the tempo is
another one. What is multiplied by a positive factor keeps its order, so that a timeline that takes
multiplied requests sorts them in at the same places.
-/

namespace Sequencer

/-! ## Factors -/

/-- The second time is the first one multiplied by a factor. -/
def scaledBy (factor time time' : ℚ) : Prop := time' = time * factor

theorem larger_mul {factor : ℚ} (positive : 0 < factor) (first second : ℚ) :
    Arithmetic.larger (first * factor) (second * factor) = Arithmetic.larger first second * factor := by
  rw [Arithmetic.larger, Arithmetic.larger]
  simp only [mul_lt_mul_iff_left₀ positive, mul_le_mul_iff_left₀ positive]
  split
  · rfl
  · split <;> rfl

namespace Tempo

/-- The factor from one tempo to another is the quotient of the two, the other way round. -/
theorem scales_ofBpm {bpm bpm' : ℚ} (positive : 0 < bpm) (positive' : 0 < bpm') :
    Scales (scaledBy (bpm / bpm')) (ofBpm bpm) (ofBpm bpm') where
  zero := (zero_mul _).symm
  add := by
    rintro first _ second _ rfl rfl
    exact (add_mul first second _).symm
  larger := by
    rintro first _ second _ rfl rfl
    exact larger_mul (div_pos positive positive') first second
  seconds := by
    intro beats
    have notZero := positive.ne'
    have notZero' := positive'.ne'
    rw [scaledBy, Tempo.seconds, Tempo.seconds, ofBpm, ofBpm]
    field_simp

theorem start_of_pos {bpm : ℚ} (positive : 0 < bpm) : (start bpm : Tempo ℚ) = ofBpm bpm := by
  have valid : isTempo bpm = true := by
    rw [isTempo, Bool.and_eq_true, decide_eq_true_iff]
    exact ⟨rfl, positive⟩
  rw [start, change?, if_pos valid]
  rfl

end Tempo

/-! ## Events -/

def Event.scaled (factor : ℚ) (event : Event ℚ) : Event ℚ :=
  { event with start := event.start * factor, duration := event.duration * factor }

theorem Event.ofRequest_scaled {factor : ℚ} {request request' : Request ℚ}
    (matching : Request.Matches (scaledBy factor) (scaledBy factor) request request')
    (handle : Handle) : ofRequest handle request' = (ofRequest handle request).scaled factor := by
  obtain ⟨trigger, start, extent, volume, pan⟩ := request
  obtain ⟨trigger', start', extent', volume', pan'⟩ := request'
  obtain ⟨rfl, starts, extents, rfl, rfl⟩ := matching
  obtain rfl : start' = start * factor := starts
  cases extents with
  | instant => simp [ofRequest, scaled, Extent.duration]
  | lasting durations =>
    rw [scaledBy] at durations
    simp [ofRequest, scaled, Extent.duration, durations]
  | upTo finishes =>
    rw [scaledBy] at finishes
    simp [ofRequest, scaled, Extent.duration, finishes, sub_mul]

/-! ## Timelines -/

namespace Timeline

/-- The same events, at times that are multiplied by a factor. -/
def scaled (factor : ℚ) (timeline : Timeline ℚ) : Timeline ℚ :=
  { timeline with
    consumed := timeline.consumed.map (Event.scaled factor)
    pending := timeline.pending.map (Event.scaled factor) }

theorem scaled_empty (factor : ℚ) : scaled factor .empty = .empty := by
  simp [scaled, empty]

theorem searchBetween_map {γ δ : Type} (holds : δ → Bool) (image : γ → δ) (items : Array γ)
    (low high : Nat) (inside : high ≤ items.size) (inside' : high ≤ (items.map image).size) :
    searchBetween holds (items.map image) low high inside' =
      searchBetween (fun item => holds (image item)) items low high inside := by
  fun_induction searchBetween (fun item => holds (image item)) items low high inside with
  | case1 low high inside _open middle found inductionHypothesis =>
    rw [searchBetween, dif_pos _open]
    simp only [Array.getElem_map]
    rw [if_pos found]
    exact inductionHypothesis _
  | case2 low high inside _open middle missed inductionHypothesis =>
    rw [searchBetween, dif_pos _open]
    simp only [Array.getElem_map]
    rw [if_neg missed]
    exact inductionHypothesis _
  | case3 low high inside closed => rw [searchBetween, dif_neg closed]

theorem frontSize_map {γ δ : Type} (holds : δ → Bool) (image : γ → δ) (items : Array γ) :
    frontSize holds (items.map image) = frontSize (fun item => holds (image item)) items := by
  simp only [frontSize, Array.size_map]
  exact searchBetween_map holds image items 0 items.size _ _

theorem insert_scaled {factor : ℚ} (positive : 0 < factor) (timeline : Timeline ℚ)
    (event : Event ℚ) :
    (timeline.scaled factor).insert (event.scaled factor) = (timeline.insert event).scaled factor := by
  have place : frontSize (fun other => other.start ≤ (event.scaled factor).start)
      (timeline.scaled factor).pending =
      frontSize (fun other => other.start ≤ event.start) timeline.pending := by
    rw [scaled, frontSize_map]
    simp only [Event.scaled, mul_le_mul_iff_left₀ positive]
  have pending : ((timeline.scaled factor).insert (event.scaled factor)).pending =
      ((timeline.insert event).scaled factor).pending := by
    rw [← Array.toList_inj, toList_pending_insert, place]
    simp only [scaled, Array.toList_map, toList_pending_insert, List.map_insertIdx]
  exact congrArg (fun pending => { timeline.scaled factor with pending }) pending

/-- Whatever it is told at multiplied times, it is a timeline with multiplied times. -/
theorem replay_scaled {factor : ℚ} (positive : 0 < factor) {calls calls' : List (Call ℚ)}
    (matching : List.Forall₂ (Call.Matches (scaledBy factor)) calls calls') (timeline : Timeline ℚ) :
    Call.replay (timeline.scaled factor) calls' = (Call.replay timeline calls).scaled factor := by
  induction matching generalizing timeline with
  | nil => rfl
  | cons first _ inductionHypothesis =>
    cases first with
    | @schedule request request' requests =>
      have taken : (Device.schedule (timeline.scaled factor) request').device =
          (Device.schedule timeline request).device.scaled factor := by
        change ({ timeline.scaled factor with nextHandle := timeline.nextHandle + 1 }).insert
          (.ofRequest timeline.nextHandle request') = _
        rw [Event.ofRequest_scaled requests]
        exact insert_scaled positive { timeline with nextHandle := timeline.nextHandle + 1 } _
      rw [Call.replay, List.foldl_cons, Call.apply, taken]
      exact inductionHypothesis _
    | addEffect block effect => exact inductionHypothesis (timeline.addEffect block effect)

end Timeline

end Sequencer
