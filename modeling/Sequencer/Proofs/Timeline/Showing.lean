import Sequencer.Playback
import Sequencer.Proofs.Number.Order
import Sequencer.Proofs.Timeline.Operation
import Sequencer.Proofs.Timeline.Search

/-! # Playing against a clock

Whenever the clock is read, the events that are out are those that start before its reading. Since
the clock does not go back, a poll lets out what comes next and nothing that is out already. Playback
is finished at a reading by which all is out and at an end, and stopped at a lowered flag:
`shows_each_event_once`.
-/

namespace Sequencer

open Arithmetic

variable {α : Type}

/-- What a poll finds: the flag lowered, or the flag raised and a time on the clock. -/
inductive Poll (α : Type) where
  | lowered
  | reading (time : α)

namespace Poll

def time? : Poll α → Option α
  | .lowered => none
  | .reading time => some time

/-- What has been read from the clock. -/
def readings (polls : List (Poll α)) : List α := polls.filterMap time?

theorem readings_concat_lowered (polls : List (Poll α)) :
    readings (polls ++ [.lowered]) = readings polls := by
  simp [readings, time?]

theorem readings_concat_reading (polls : List (Poll α)) (time : α) :
    readings (polls ++ [.reading time]) = readings polls ++ [time] := by
  simp [readings, time?]

end Poll

/-! ## What is due -/

namespace Timeline

variable [Arithmetic α]

/-- Whether an event starts before a reading. Before the first one nothing does. -/
def isDue (reading? : Option α) (event : Event α) : Bool := reading?.any (event.start < ·)

theorem isDue_iff {reading? : Option α} {event : Event α} :
    isDue reading? event = true ↔ ∃ reading ∈ reading?, event.start < reading := by
  cases reading? <;> simp [isDue]

def due (timeline : Timeline α) (reading? : Option α) : List (Event α) :=
  timeline.events.toList.filter (isDue reading?)

def notDue (timeline : Timeline α) (reading? : Option α) : List (Event α) :=
  timeline.events.toList.filter (!isDue reading? ·)

theorem due_none (timeline : Timeline α) : timeline.due none = [] :=
  List.filter_eq_nil_iff.mpr fun _ _ => by simp [isDue]

theorem notDue_none (timeline : Timeline α) : timeline.notDue none = timeline.events.toList :=
  List.filter_eq_self.mpr fun _ _ => rfl

/-- By a time everything has started, and everything has come to an end. -/
structure OverBy (timeline : Timeline α) (time : α) : Prop where
  started : ∀ event ∈ timeline.events.toList, event.start < time
  ended : timeline.span ≤ time

theorem notDue_eq_nil_iff (timeline : Timeline α) (time : α) :
    timeline.notDue (some time) = [] ↔ ∀ event ∈ timeline.events.toList, event.start < time := by
  simp [notDue, isDue]

theorem OverBy.due {timeline : Timeline α} {time : α} (overBy : timeline.OverBy time) :
    timeline.due (some time) = timeline.events.toList :=
  List.filter_eq_self.mpr fun event member =>
    isDue_iff.mpr ⟨time, rfl, overBy.started event member⟩

variable [LawfulOrder α] {timeline : Timeline α} {reading? : Option α} {time : α}

theorem ceasesOnce_isDue {events : List (Event α)} (ordered : events.Pairwise (·.start ≤ ·.start))
    (reading? : Option α) : CeasesOnce (isDue reading?) events := by
  refine ordered.imp fun {earlier later} inOrder due => ?_
  obtain ⟨reading, isReading, before⟩ := isDue_iff.mp due
  exact isDue_iff.mpr ⟨reading, isReading, LawfulOrder.lt_of_le_of_lt inOrder before⟩

/-- What is due stays due. -/
theorem isDue_later (inTime : ∀ earlier ∈ reading?, earlier ≤ time) {event : Event α}
    (due : isDue reading? event = true) : isDue (some time) event = true := by
  obtain ⟨reading, isReading, before⟩ := isDue_iff.mp due
  exact isDue_iff.mpr ⟨time, rfl, LawfulOrder.lt_of_lt_of_le before (inTime reading isReading)⟩

/-- What becomes due comes behind what was due already. -/
theorem due_later (ordered : timeline.events.toList.Pairwise (·.start ≤ ·.start))
    (inTime : ∀ earlier ∈ reading?, earlier ≤ time) :
    timeline.due (some time) =
      timeline.due reading? ++ (timeline.notDue reading?).filter (isDue (some time)) := by
  have divided := (ceasesOnce_isDue ordered reading?).divides
  have still : (timeline.due reading?).filter (isDue (some time)) = timeline.due reading? :=
    List.filter_eq_self.mpr fun event member => isDue_later inTime (List.mem_filter.mp member).2
  rw [due, ← divided, List.filter_append]
  exact congrArg (· ++ _) still

theorem notDue_later (inTime : ∀ earlier ∈ reading?, earlier ≤ time) :
    timeline.notDue (some time) =
      (timeline.notDue reading?).filter (!isDue (some time) ·) := by
  rw [notDue, notDue, List.filter_filter]
  refine List.filter_congr fun event _ => ?_
  cases due : isDue reading? event with
  | false => simp
  | true => simp [isDue_later inTime due]

end Timeline

/-! ## Polls -/

/-- A playback with the polls that have been made and the events that they have let out. -/
structure Showing (α : Type) where
  playback : Playback α
  polls : List (Poll α)
  shown : List (Event α)

namespace Showing

def latest? (showing : Showing α) : Option α := (Poll.readings showing.polls).getLast?

/-- The lines that have been written. -/
def lines (showing : Showing Float) : List String := showing.shown.map Event.text

variable [Arithmetic α]

def start (timeline : Timeline α) : Showing α :=
  { playback := .start timeline, polls := [], shown := [] }

/-- Makes a poll, unless playback has come to an end. -/
def poll (showing : Showing α) (poll : Poll α) : Showing α :=
  if showing.playback.outcome.isSome then showing
  else
    let (events, playback) := match poll with
      | .lowered => showing.playback.poll false 0
      | .reading time => showing.playback.poll true time
    { playback, polls := showing.polls ++ [poll], shown := showing.shown ++ events.toList }

def ofPolls (timeline : Timeline α) (polls : List (Poll α)) : Showing α :=
  polls.foldl poll (start timeline)

theorem ofPolls_concat (timeline : Timeline α) (polls : List (Poll α)) (next : Poll α) :
    ofPolls timeline (polls ++ [next]) = (ofPolls timeline polls).poll next := by
  rw [ofPolls, List.foldl_concat, ← ofPolls]

theorem poll_of_ended {showing : Showing α} (ended : showing.playback.outcome.isSome = true)
    (next : Poll α) : showing.poll next = showing := by
  rw [poll.eq_def, if_pos ended]

theorem polls_poll {showing : Showing α} (goesOn : showing.playback.outcome = none)
    (next : Poll α) : (showing.poll next).polls = showing.polls ++ [next] := by
  simp [poll, goesOn]

/-- Polls are made in turn, and all of them as long as playback goes on. -/
theorem polls_ofPolls (timeline : Timeline α) (polls : List (Poll α)) :
    (ofPolls timeline polls).polls <+: polls ∧
      ((ofPolls timeline polls).playback.outcome = none →
        (ofPolls timeline polls).polls = polls) := by
  induction polls using List.reverseRecOn with
  | nil => exact ⟨List.prefix_rfl, fun _ => rfl⟩
  | append_singleton polls next inductionHypothesis =>
    obtain ⟨made, all⟩ := inductionHypothesis
    rw [ofPolls_concat]
    cases outcome : (ofPolls timeline polls).playback.outcome with
    | none =>
      rw [polls_poll outcome, all outcome]
      exact ⟨List.prefix_rfl, fun _ => rfl⟩
    | some _ =>
      rw [poll_of_ended (by simp [outcome])]
      exact ⟨made.trans (List.prefix_append _ _), by simp [outcome]⟩

/-! ## What is shown -/

variable {timeline : Timeline α} {showing : Showing α}

/-- What has come of playing a timeline by any poll. -/
structure Shows (timeline : Timeline α) (showing : Showing α) : Prop where
  shown : showing.shown = timeline.due showing.latest?
  finished_iff : showing.playback.outcome = some .finished ↔
    ∃ time, showing.polls.getLast? = some (.reading time) ∧ timeline.OverBy time
  stopped_iff : showing.playback.outcome = some .stopped ↔
    showing.polls.getLast? = some .lowered
  /-- What is finished has been shown to the end, and is still there. -/
  whole : showing.playback.outcome = some .finished →
    showing.playback.timeline.events = timeline.events ∧ showing.shown = timeline.events.toList
  /-- What is stopped keeps what has been shown. -/
  cut : showing.playback.outcome = some .stopped →
    showing.playback.timeline.events.toList = showing.shown
  ended : showing.playback.outcome.isSome = true →
    showing.playback.timeline.transport = .stopped ∧ showing.playback.timeline.remaining = 0

/-- Playback goes on: what is due is out, and the rest waits. -/
structure Underway (timeline : Timeline α) (showing : Showing α) : Prop where
  outcome : showing.playback.outcome = none
  finish : showing.playback.finish = timeline.span
  shown : showing.shown = timeline.due showing.latest?
  consumed : showing.playback.timeline.consumed.toList = timeline.due showing.latest?
  pending : showing.playback.timeline.pending.toList = timeline.notDue showing.latest?
  goesOn : ∀ poll ∈ showing.polls.getLast?, ∃ time, poll = .reading time ∧ ¬ timeline.OverBy time

namespace Underway

theorem shows (underway : Underway timeline showing) : Shows timeline showing where
  shown := underway.shown
  finished_iff := by
    rw [underway.outcome]
    refine iff_of_false (by simp) ?_
    rintro ⟨time, isLast, overBy⟩
    obtain ⟨_, same, notOver⟩ := underway.goesOn _ isLast
    exact notOver (Poll.reading.inj same ▸ overBy)
  stopped_iff := by
    rw [underway.outcome]
    refine iff_of_false (by simp) fun isLast => ?_
    obtain ⟨_, raised, -⟩ := underway.goesOn _ isLast
    cases raised
  whole := by simp [underway.outcome]
  cut := by simp [underway.outcome]
  ended := by simp [underway.outcome]

theorem start (timeline : Timeline α) : Underway timeline (.start timeline) := by
  have rewound : timeline.rewind.play.events = timeline.events := Array.empty_append
  exact
    { outcome := rfl
      finish := by rw [Showing.start, Playback.start, Timeline.span, rewound]; rfl
      shown := timeline.due_none.symm
      consumed := timeline.due_none.symm
      pending := timeline.notDue_none.symm
      goesOn := by simp [Showing.start] }

/-- A lowered flag cuts off what is not out. -/
theorem lowered (underway : Underway timeline showing) :
    (showing.poll .lowered).playback.outcome = some .stopped ∧
      Shows timeline (showing.poll .lowered) := by
  have next : showing.poll .lowered =
      { playback := showing.playback.cancel
        polls := showing.polls ++ [.lowered]
        shown := showing.shown } := by
    simp [poll, Playback.poll, underway.outcome]
  rw [next]
  refine ⟨rfl, ?shown, ?finished, ?stopped, ?whole, ?cut, fun _ => ⟨rfl, rfl⟩⟩
  case shown =>
    rw [latest?, Poll.readings_concat_lowered]
    exact underway.shown
  case finished => exact iff_of_false (by simp [Playback.cancel]) (by simp)
  case stopped => exact iff_of_true rfl List.getLast?_concat
  case whole => simp [Playback.cancel]
  case cut =>
    intro _
    rw [Timeline.toList_events, underway.shown, ← underway.consumed]
    exact List.append_nil _

variable [LawfulOrder α]

/-- A drain takes out what has become due, and leaves the rest. -/
theorem drain (underway : Underway timeline showing)
    (ordered : timeline.events.toList.Pairwise (·.start ≤ ·.start)) {time : α}
    (inTime : ∀ earlier ∈ showing.latest?, earlier ≤ time) :
    showing.shown ++ (showing.playback.timeline.drain time).1.toList = timeline.due (some time) ∧
      (showing.playback.timeline.drain time).2.consumed.toList = timeline.due (some time) ∧
      (showing.playback.timeline.drain time).2.pending.toList = timeline.notDue (some time) := by
  -- what waits is in order, so that what is due stands at the front of it
  have once : Timeline.CeasesOnce (Timeline.isDue (some time))
      showing.playback.timeline.pending.toList := by
    rw [underway.pending]
    exact Timeline.ceasesOnce_isDue (ordered.filter _) _
  have drained : (showing.playback.timeline.drain time).1.toList =
      (timeline.notDue showing.latest?).filter (Timeline.isDue (some time)) := by
    rw [← underway.pending]
    exact (Timeline.toList_drained _ time).trans (Timeline.take_frontSize once)
  have pending : (showing.playback.timeline.drain time).2.pending.toList =
      (timeline.notDue showing.latest?).filter (!Timeline.isDue (some time) ·) := by
    rw [← underway.pending]
    exact (Timeline.toList_pending_drain _ time).trans (Timeline.drop_frontSize once)
  have consumed : (showing.playback.timeline.drain time).2.consumed.toList =
      showing.playback.timeline.consumed.toList ++
        (showing.playback.timeline.drain time).1.toList := Array.toList_append
  rw [consumed, underway.consumed, underway.shown, drained, pending,
    ← Timeline.due_later ordered inTime, ← Timeline.notDue_later inTime]
  exact ⟨rfl, rfl, rfl⟩

/-- A reading lets out what has become due. Unless everything is over by then, playback goes on. -/
theorem reading (underway : Underway timeline showing)
    (ordered : timeline.events.toList.Pairwise (·.start ≤ ·.start)) {time : α}
    (inTime : ∀ earlier ∈ showing.latest?, earlier ≤ time) :
    Underway timeline (showing.poll (.reading time)) ∨
      (showing.poll (.reading time)).playback.outcome = some .finished ∧
        Shows timeline (showing.poll (.reading time)) := by
  obtain ⟨shown, consumed, pending⟩ := underway.drain ordered inTime
  have latest : (Poll.readings (showing.polls ++ [.reading time])).getLast? = some time := by
    rw [Poll.readings_concat_reading, List.getLast?_concat]
  have over_iff : (showing.playback.timeline.drain time).2.remaining = 0 ∧
      showing.playback.finish ≤ time ↔ timeline.OverBy time := by
    rw [Timeline.remaining, ← Array.length_toList, pending, List.length_eq_zero_iff,
      Timeline.notDue_eq_nil_iff, underway.finish]
    exact ⟨fun both => ⟨both.1, both.2⟩, fun overBy => ⟨overBy.started, overBy.ended⟩⟩
  -- what waits has to be out before the end of the last event counts
  by_cases overBy : timeline.OverBy time
  · right
    have next : showing.poll (.reading time) =
        { playback :=
            { showing.playback with
              timeline := (showing.playback.timeline.drain time).2.stop
              outcome := some .finished }
          polls := showing.polls ++ [.reading time]
          shown := showing.shown ++ (showing.playback.timeline.drain time).1.toList } := by
      simp [poll, Playback.poll, Playback.advance, underway.outcome, over_iff, overBy]
    rw [next, shown]
    refine ⟨rfl, ?shown, ?finished, ?stopped, ?whole, ?cut, fun _ => ⟨rfl, rfl⟩⟩
    case shown => rw [latest?, latest]
    case finished => exact iff_of_true rfl ⟨time, List.getLast?_concat, overBy⟩
    case stopped => exact iff_of_false (by simp) (by simp)
    case whole =>
      refine fun _ => ⟨Array.toList_inj.mp ?_, overBy.due⟩
      rw [← overBy.due, ← consumed, Timeline.toList_events]
      exact List.append_nil _
    case cut => simp
  · left
    have next : showing.poll (.reading time) =
        { playback :=
            { showing.playback with timeline := (showing.playback.timeline.drain time).2 }
          polls := showing.polls ++ [.reading time]
          shown := showing.shown ++ (showing.playback.timeline.drain time).1.toList } := by
      simp [poll, Playback.poll, Playback.advance, underway.outcome, over_iff, overBy]
    rw [next, shown]
    exact
      { outcome := underway.outcome
        finish := underway.finish
        shown := by rw [latest?, latest]
        consumed := by rw [latest?, latest, consumed]
        pending := by rw [latest?, latest, pending]
        goesOn := by simp [overBy] }

end Underway

/-- Playback goes on, or it has come to an end, and in either case what was to be shown is shown. -/
theorem shows_ofPolls [LawfulOrder α]
    (ordered : timeline.events.toList.Pairwise (·.start ≤ ·.start)) {polls : List (Poll α)}
    (inTime : (Poll.readings polls).Pairwise (· ≤ ·)) :
    (ofPolls timeline polls).Shows timeline := by
  suffices Underway timeline (ofPolls timeline polls) ∨
      (ofPolls timeline polls).playback.outcome.isSome = true ∧
        (ofPolls timeline polls).Shows timeline from this.elim Underway.shows And.right
  -- polls are added at the end, since each goes on from what those before it have left
  induction polls using List.reverseRecOn with
  | nil => exact .inl (Underway.start timeline)
  | append_singleton polls next inductionHypothesis =>
    have before : (Poll.readings polls).Pairwise (· ≤ ·) := by
      rw [Poll.readings, List.filterMap_append] at inTime
      exact (List.pairwise_append.mp inTime).1
    rw [ofPolls_concat]
    rcases inductionHypothesis before with underway | ⟨ended, shows⟩
    · cases next with
      | lowered =>
        obtain ⟨stopped, shows⟩ := underway.lowered
        exact .inr ⟨by simp [stopped], shows⟩
      | reading time =>
        -- while playback goes on every reading has been taken
        have latest : ∀ earlier ∈ (ofPolls timeline polls).latest?, earlier ≤ time := by
          intro earlier isLatest
          rw [latest?, (polls_ofPolls timeline polls).2 underway.outcome] at isLatest
          rw [Poll.readings_concat_reading] at inTime
          exact (List.pairwise_append.mp inTime).2.2 earlier
            (List.mem_of_getLast? isLatest) time List.mem_cons_self
        rcases underway.reading ordered latest with goesOn | ⟨finished, shows⟩
        · exact .inl goesOn
        · exact .inr ⟨by simp [finished], shows⟩
    · rw [poll_of_ended ended]
      exact .inr ⟨ended, shows⟩

/-- Every event that is due has been written out, once and in its turn, and no other event.
Playback is finished with the last event and the last reading, or stopped by a lowered flag. -/
theorem shows_each_event_once {timeline : Timeline Float}
    (ordered : timeline.events.toList.Pairwise (·.start ≤ ·.start)) {polls : List (Poll Float)}
    (inTime : (Poll.readings polls).Pairwise (· ≤ ·)) :
    (ofPolls timeline polls).Shows timeline ∧
      (ofPolls timeline polls).lines =
        (timeline.due (ofPolls timeline polls).latest?).map Event.text ∧
      (ofPolls timeline polls).polls <+: polls ∧
      ((ofPolls timeline polls).playback.outcome = none →
        (ofPolls timeline polls).polls = polls) := by
  have shows := shows_ofPolls ordered inTime
  exact ⟨shows, congrArg _ shows.shown, polls_ofPolls timeline polls⟩

/-- Its last event starts at a reading of `cutShort` and ends at one of `throughout`. -/
def chorus : Timeline Float :=
  let kick : Request Float :=
    { trigger := .sample "kick" 1 1, start := 0, extent := .instant, volume := 1, pan := 0 }
  let snare := { kick with trigger := .sample "snare" 1 1, start := 1 }
  let hat := { snare with trigger := .sample "hat" 1 1 }
  let tone := { kick with trigger := .tone 440 .sine, start := 2, extent := .lasting 0.5 }
  { Timeline.empty with
    consumed := #[.ofRequest 1 kick, .ofRequest 3 snare]
    pending := #[.ofRequest 2 hat, .ofRequest 4 tone]
    transport := .paused }

def throughout : List (Poll Float) :=
  [.reading 0, .reading 0.75, .reading 0.75, .reading 2.25, .reading 2.5, .lowered]

def cutShort : List (Poll Float) := [.reading 0.75, .reading 2, .lowered, .reading 3]

theorem shows_each_event_once_chorus :
    (ofPolls chorus throughout).Shows chorus ∧ (ofPolls chorus cutShort).Shows chorus ∧
      (ofPolls chorus throughout).playback.outcome = some .finished ∧
      (ofPolls chorus throughout).shown.map Event.handle = [1, 3, 2, 4] ∧
      (ofPolls chorus cutShort).playback.outcome = some .stopped ∧
      (ofPolls chorus cutShort).shown.map Event.handle = [1, 3, 2] := by
  have ordered : chorus.events.toList.Pairwise (·.start ≤ ·.start) := by decide +kernel
  exact ⟨(shows_each_event_once ordered (by decide +kernel)).1,
    (shows_each_event_once ordered (by decide +kernel)).1,
    by decide +kernel, by decide +kernel, by decide +kernel, by decide +kernel⟩

end Showing

end Sequencer
