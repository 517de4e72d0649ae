import ParishKit.Lib.Transition
import ParishKit.Reservations.Answering

/-!
# Runs over a calendar

People request the resource and withdraw their events while runs list the calendar,
decide, and write their responses one by one. A run can end early, after a failed
response or for any other reason. Only one run is under way at a time, and the times of
an event do not change.
-/

namespace ParishKit.Reservations

open ParishKit.Lib
open ParishKit.Responses (Unicode)

/-- The provider's own reading of when an event starts and ends. -/
class Provider where
  starts : Option EventTime → Int
  ends : Option EventTime → Int

structure CalendarState where
  events : List Event
  /-- The window of the last listing. -/
  timeMin : Int
  timeMax : Int
  /-- The decisions of the run under way that are not written yet. -/
  plan : List EventDecision

inductive CalendarOp where
  | request (event : Event)
  | withdraw (eventId : Text)
  | list (timeMin timeMax : Int) (listed : List Event)
  | respond
  | abandon

section

variable [TimeReaders] [Unicode] [Provider] (calendar : ReservationCalendar)
  (config : ReservationConfig)

omit [TimeReaders] [Unicode] in
/-- The events that end after `timeMin` and start before `timeMax`. -/
def listWindow (timeMin timeMax : Int) (start finish : Option EventTime) : Bool :=
  timeMin < Provider.ends finish && Provider.starts start < timeMax

omit [Provider] in
def applyOp : CalendarOp → CalendarState → Option CalendarState
  | .request event, state => some { state with events := state.events ++ [event] }
  | .withdraw eventId, state =>
      some { state with events := state.events.filter fun event => event.id ≠ some eventId }
  | .list timeMin timeMax listed, state =>
      (reservationDecisions calendar config listed).map fun plan =>
        { state with timeMin, timeMax, plan }
  | .respond, state =>
      match state.plan with
      | [] => none
      | decision :: plan =>
          match respondToDecision calendar state.events decision with
          | some events => some { state with events, plan }
          | none => some { state with plan := [] }
  | .abandon, state => some { state with plan := [] }

omit [TimeReaders] in
/-- A request has an id of its own and is not accepted yet. A run lists what the window
shows, in any order, and windows only move forward. -/
def AllowedOp (state : CalendarState) : CalendarOp → Prop
  | .request event =>
      event.id.getD [] ≠ [] ∧ (∀ other ∈ state.events, other.id ≠ event.id) ∧
        (∀ decision ∈ state.plan, decision.event.id ≠ event.id) ∧
        attendeeStatus event calendar.calendarId ≠ some acceptedStatus
  | .list timeMin timeMax listed =>
      state.plan = [] ∧ state.timeMin ≤ timeMin ∧ state.timeMax ≤ timeMax ∧
        listed.Perm (state.events.filter (inWindow (listWindow timeMin timeMax)))
  | _ => True

omit [TimeReaders] [Provider] in
/-- The resource has accepted the event, and the event takes up its time. -/
def Booked (event : Event) : Prop :=
  attendeeStatus event calendar.calendarId = some acceptedStatus ∧
    eventIsTransparent event = false

/-- Two booked events that are not over before the window do not overlap. -/
def NoDoubleBooking (state : CalendarState) : Prop :=
  ∀ first ∈ state.events, ∀ second ∈ state.events, first.id ≠ second.id →
    Booked calendar first → Booked calendar second →
    state.timeMin < Provider.ends first.finish →
    state.timeMin < Provider.ends second.finish →
    ¬Overlaps config.timezone first second

/-- What every step keeps: the booked events are apart, and the responses still to be
written keep clear of them and of each other. -/
structure CalendarInv (state : CalendarState) : Prop where
  identified : Identified state.events
  apart : NoDoubleBooking calendar config state
  begun : ∀ event ∈ state.events, Booked calendar event →
    Provider.starts event.start < state.timeMax
  present : ∀ decision ∈ state.plan, decision.event.id.getD [] ≠ []
  current : ∀ decision ∈ state.plan, ∀ event ∈ state.events,
    event.id = decision.event.id → event = decision.event
  distinct : (state.plan.map fun decision => decision.event.id).Nodup
  pending : ∀ decision ∈ state.plan, isPending calendar decision.event = true ∧
    decision.attendeeEmail = attendeeEmail calendar decision.event ∧
    Provider.starts decision.event.start < state.timeMax
  clear : ∀ decision ∈ state.plan, decision.Takes → ∀ event ∈ state.events,
    Booked calendar event → state.timeMin < Provider.ends event.finish →
    ¬Overlaps config.timezone decision.event event
  planApart : state.plan.Pairwise fun first second => first.Takes → second.Takes →
    ¬Overlaps config.timezone first.event second.event

end

section Steps

variable [TimeReaders] [Unicode] [Provider] {calendar : ReservationCalendar}
  {config : ReservationConfig} {state : CalendarState}

theorem CalendarInv.abandon (inv : CalendarInv calendar config state) :
    CalendarInv calendar config { state with plan := [] } where
  identified := inv.identified
  apart := inv.apart
  begun := inv.begun
  present := by simp
  current := by simp
  distinct := List.nodup_nil
  pending := by simp
  clear := by simp
  planApart := List.Pairwise.nil

theorem CalendarInv.withdraw (inv : CalendarInv calendar config state) (eventId : Text) :
    CalendarInv calendar config
      { state with events := state.events.filter fun event => event.id ≠ some eventId } where
  identified :=
    { present := fun event member => inv.identified.present event (List.mem_of_mem_filter member)
      distinct := (List.filter_sublist.map Event.id).nodup inv.identified.distinct }
  apart := fun first isFirst second isSecond =>
    inv.apart first (List.mem_of_mem_filter isFirst) second (List.mem_of_mem_filter isSecond)
  begun := fun event member => inv.begun event (List.mem_of_mem_filter member)
  present := inv.present
  current := fun decision isPlanned event member =>
    inv.current decision isPlanned event (List.mem_of_mem_filter member)
  distinct := inv.distinct
  pending := inv.pending
  clear := fun decision isPlanned takes event member =>
    inv.clear decision isPlanned takes event (List.mem_of_mem_filter member)
  planApart := inv.planApart

theorem CalendarInv.request
    (inv : CalendarInv calendar config state) {event : Event}
    (allowed : AllowedOp calendar state (.request event)) :
    CalendarInv calendar config { state with events := state.events ++ [event] } := by
  obtain ⟨hasId, fresh, unplanned, unaccepted⟩ := allowed
  have booked : ∀ other ∈ state.events ++ [event], Booked calendar other →
      other ∈ state.events := by
    intro other member isBooked
    rcases List.mem_append.mp member with old | new
    · exact old
    · rw [List.mem_singleton.mp new] at isBooked
      exact absurd isBooked.1 unaccepted
  refine ⟨⟨?_, ?_⟩, ?_, ?_, inv.present, ?_, inv.distinct, inv.pending, ?_, inv.planApart⟩
  · intro other member
    rcases List.mem_append.mp member with old | new
    · exact inv.identified.present other old
    · rw [List.mem_singleton.mp new]
      exact hasId
  · rw [List.map_append, List.nodup_append]
    refine ⟨inv.identified.distinct, List.nodup_singleton _, ?_⟩
    intro id isOld other isNew equal
    obtain ⟨old, member, rfl⟩ := List.mem_map.mp isOld
    rw [List.map_singleton, List.mem_singleton] at isNew
    exact fresh old member (equal.trans isNew)
  · intro first isFirst second isSecond different firstBooked secondBooked
    exact inv.apart first (booked first isFirst firstBooked) second
      (booked second isSecond secondBooked) different firstBooked secondBooked
  · intro other member isBooked
    exact inv.begun other (booked other member isBooked) isBooked
  · intro decision isPlanned other member sameId
    rcases List.mem_append.mp member with old | new
    · exact inv.current decision isPlanned other old sameId
    · rw [List.mem_singleton.mp new] at sameId
      exact absurd sameId.symm (unplanned decision isPlanned)
  · intro decision isPlanned takes other member isBooked
    exact inv.clear decision isPlanned takes other (booked other member isBooked) isBooked

omit [TimeReaders] [Provider] in
theorem isBlocking_of_booked {event : Event} (booked : Booked calendar event) :
    isBlocking calendar event = true := by
  have different : acceptedStatus ≠ needsActionStatus ∧ acceptedStatus ≠ declinedStatus := by
    decide
  unfold isBlocking isPending
  rw [booked.1, booked.2]
  simp [different.1, different.2]

theorem CalendarInv.list
    (inv : CalendarInv calendar config state) (checks : calendar.checkConflicts = true)
    {timeMin timeMax : Int} {listed : List Event} {plan : List EventDecision}
    (allowed : AllowedOp calendar state (.list timeMin timeMax listed))
    (decided : reservationDecisions calendar config listed = some plan) :
    CalendarInv calendar config { state with timeMin, timeMax, plan } := by
  obtain ⟨_, later, further, isListed⟩ := allowed
  have sound := reservationDecisions_sound checks decided
  have source : ∀ decision ∈ plan, decision.event ∈ state.events ∧
      inWindow (listWindow timeMin timeMax) decision.event = true ∧
      isPending calendar decision.event = true := by
    intro decision isPlanned
    exact decision_source isListed decided isPlanned
  refine ⟨inv.identified, ?_, ?_, ?_, ?_, ?_, ?_, ?_, sound.apart⟩
  · intro first isFirst second isSecond different firstBooked secondBooked firstEnds secondEnds
    exact inv.apart first isFirst second isSecond different firstBooked secondBooked
      (lt_of_le_of_lt later firstEnds) (lt_of_le_of_lt later secondEnds)
  · intro event member booked
    exact lt_of_lt_of_le (inv.begun event member booked) further
  · intro decision isPlanned
    exact inv.identified.present _ (source decision isPlanned).1
  · intro decision isPlanned event member sameId
    exact List.inj_on_of_nodup_map inv.identified.distinct member
      (source decision isPlanned).1 sameId
  · exact decisions_distinct inv.identified isListed decided
  · intro decision isPlanned
    obtain ⟨_, visible, pending⟩ := source decision isPlanned
    refine ⟨pending, (reservationDecisions_answered decided).2 decision isPlanned, ?_⟩
    exact of_decide_eq_true (Bool.and_eq_true_iff.mp visible).2
  · intro decision isPlanned takes event member booked ends
    -- A booked event started before an earlier window's end, so this window shows it.
    have visible : inWindow (listWindow timeMin timeMax) event = true := by
      have begun := lt_of_lt_of_le (inv.begun event member booked) further
      simp [inWindow, listWindow, ends, begun]
    have isEvent := isListed.mem_iff.mpr (List.mem_filter.mpr ⟨member, visible⟩)
    exact (sound.accepted decision isPlanned takes.1).2.2 event isEvent
      (isBlocking_of_booked booked)

/-! ## A response -/

omit [TimeReaders] [Unicode] [Provider] in
/-- A response that is written changes the event it is about, and no other. -/
theorem respondToDecision_cases
    {events written : List Event} {decision : EventDecision}
    (present : decision.event.id.getD [] ≠ [])
    (responded : respondToDecision calendar events decision = some written) :
    written = events.map (answered calendar [decision]) := by
  have known : ∃ event ∈ events, event.id = decision.event.id := by
    have isId : decision.event.id = some (decision.event.id.getD []) := by
      cases unknown : decision.event.id with
      | none => simp [unknown] at present
      | some id => rfl
    by_contra missing
    unfold respondToDecision patchAttendeeResponse at responded
    dsimp only at responded
    rw [if_neg present, ← isId, if_neg missing] at responded
    cases responded
  rw [respondToDecision_eq present known] at responded
  exact (Option.some.inj responded).symm

omit [TimeReaders] [Unicode] [Provider] in
theorem answered_singleton_of_ne
    {decision : EventDecision} {event : Event} (different : event.id ≠ decision.event.id) :
    answered calendar [decision] event = event := by
  have other : ¬decision.event.id = event.id := fun equal => different equal.symm
  simp [answered, other]

variable {decision : EventDecision} {plan : List EventDecision}

/-- A booked event after a response was booked before it, or is the one now accepted. -/
theorem CalendarInv.booked_cases
    (inv : CalendarInv calendar config { state with plan := decision :: plan })
    (folds : Unicode.casefold calendar.calendarId ≠ Unicode.casefold [])
    {event : Event} (member : event ∈ state.events)
    (booked : Booked calendar (answered calendar [decision] event)) :
    (answered calendar [decision] event = event ∧ event.id ≠ decision.event.id) ∨
      (event = decision.event ∧ decision.Takes) := by
  by_cases same : event.id = decision.event.id
  · have isEvent := inv.current decision List.mem_cons_self event member same
    obtain ⟨pending, asAttendee, _⟩ := inv.pending decision List.mem_cons_self
    have isPatched : answered calendar [decision] event =
        patchEvent (responseEmail calendar event) decision.response.status event := by
      simp [answered, asAttendee, isEvent, responseEmail]
    rw [isEvent] at isPatched booked
    rw [isPatched] at booked
    obtain ⟨status, opaqueEvent⟩ := booked
    rw [attendeeStatus_patchEvent pending folds] at status
    refine Or.inr ⟨isEvent, ?_, opaqueEvent⟩
    cases response : decision.response with
    | accepted => rfl
    | declined =>
        rw [response] at status
        have different : declinedStatus ≠ acceptedStatus := by decide
        exact absurd (Option.some.inj status) different
  · exact Or.inl ⟨answered_singleton_of_ne same, same⟩

omit [Unicode] [Provider] in
theorem overlaps_answered_left
    {decisions : List EventDecision} {event other : Event} {timezone : TimeZone} :
    Overlaps timezone (answered calendar decisions event) other ↔
      Overlaps timezone event other := by
  unfold answered
  split
  · rfl
  · rfl

omit [Unicode] [Provider] in
theorem overlaps_answered_right
    {decisions : List EventDecision} {event other : Event} {timezone : TimeZone} :
    Overlaps timezone other (answered calendar decisions event) ↔
      Overlaps timezone other event := by
  constructor
  · exact fun overlaps => (overlaps_answered_left.mp overlaps.symm).symm
  · exact fun overlaps => (overlaps_answered_left.mpr overlaps.symm).symm

omit [TimeReaders] [Unicode] [Provider] in
theorem times_answered (decisions : List EventDecision) (event : Event) :
    (answered calendar decisions event).start = event.start ∧
      (answered calendar decisions event).finish = event.finish := by
  unfold answered
  split
  · exact ⟨rfl, rfl⟩
  · exact ⟨rfl, rfl⟩

theorem CalendarInv.respond
    (inv : CalendarInv calendar config { state with plan := decision :: plan })
    (folds : Unicode.casefold calendar.calendarId ≠ Unicode.casefold []) :
    CalendarInv calendar config
      { state with events := state.events.map (answered calendar [decision]), plan } := by
  have planned := inv.planApart
  have distinct := inv.distinct
  rw [List.pairwise_cons] at planned
  rw [List.map_cons, List.nodup_cons] at distinct
  have otherId : ∀ later ∈ plan, later.event.id ≠ decision.event.id := by
    intro later isLater equal
    exact distinct.1 (List.mem_map.mpr ⟨later, isLater, equal⟩)
  -- What is booked after the response was booked before it, or is the event it accepts.
  have clearOf : ∀ other event : Event, event ∈ state.events →
      Booked calendar (answered calendar [decision] event) →
      (event.id ≠ decision.event.id → Booked calendar event →
        ¬Overlaps config.timezone other event) →
      (event = decision.event → decision.Takes →
        ¬Overlaps config.timezone other decision.event) →
      ¬Overlaps config.timezone other event := by
    intro other event member booked old new
    rcases inv.booked_cases folds member booked with ⟨same, different⟩ | ⟨isEvent, takes⟩
    · rw [same] at booked
      exact old different booked
    · have apart := new isEvent takes
      rw [isEvent]
      exact apart
  refine ⟨inv.identified.map (answered_id calendar [decision]), ?_, ?_, ?_, ?_, distinct.2, ?_,
    ?_, planned.2⟩
  · intro first isFirst second isSecond different firstBooked secondBooked firstEnds secondEnds
    obtain ⟨first, firstMember, rfl⟩ := List.mem_map.mp isFirst
    obtain ⟨second, secondMember, rfl⟩ := List.mem_map.mp isSecond
    rw [answered_id, answered_id] at different
    rw [(times_answered [decision] first).2] at firstEnds
    rw [(times_answered [decision] second).2] at secondEnds
    rw [overlaps_answered_left, overlaps_answered_right]
    apply clearOf first second secondMember secondBooked
    · intro _ secondOld overlaps
      rcases inv.booked_cases folds firstMember firstBooked with ⟨same, _⟩ | ⟨isEvent, takes⟩
      · rw [same] at firstBooked
        exact inv.apart first firstMember second secondMember different firstBooked secondOld
          firstEnds secondEnds overlaps
      · rw [isEvent] at overlaps
        exact inv.clear decision List.mem_cons_self takes second secondMember secondOld secondEnds
          overlaps
    · intro isEvent takes overlaps
      rcases inv.booked_cases folds firstMember firstBooked with ⟨same, _⟩ | ⟨isFirst, _⟩
      · rw [same] at firstBooked
        exact inv.clear decision List.mem_cons_self takes first firstMember firstBooked firstEnds
          overlaps.symm
      · exact different (by rw [isFirst, isEvent])
  · intro event isEvent booked
    obtain ⟨event, member, rfl⟩ := List.mem_map.mp isEvent
    rw [(times_answered [decision] event).1]
    rcases inv.booked_cases folds member booked with ⟨same, _⟩ | ⟨isEvent, _⟩
    · rw [same] at booked
      exact inv.begun event member booked
    · rw [isEvent]
      exact (inv.pending decision List.mem_cons_self).2.2
  · intro later isLater
    exact inv.present later (List.mem_cons_of_mem _ isLater)
  · intro later isLater event isEvent sameId
    obtain ⟨event, member, rfl⟩ := List.mem_map.mp isEvent
    rw [answered_id] at sameId
    have different : event.id ≠ decision.event.id := by
      rw [sameId]
      exact otherId later isLater
    rw [answered_singleton_of_ne different]
    exact inv.current later (List.mem_cons_of_mem _ isLater) event member sameId
  · intro later isLater
    exact inv.pending later (List.mem_cons_of_mem _ isLater)
  · intro later isLater takes event isEvent booked ends
    obtain ⟨event, member, rfl⟩ := List.mem_map.mp isEvent
    rw [(times_answered [decision] event).2] at ends
    rw [overlaps_answered_right]
    apply clearOf later.event event member booked
    · intro _ old
      exact inv.clear later (List.mem_cons_of_mem _ isLater) takes event member old ends
    · intro _ decisionTakes overlaps
      exact planned.1 later isLater decisionTakes takes overlaps.symm

theorem CalendarInv.step
    (inv : CalendarInv calendar config state) (checks : calendar.checkConflicts = true)
    (folds : Unicode.casefold calendar.calendarId ≠ Unicode.casefold []) {op : CalendarOp}
    {target : CalendarState} (allowed : AllowedOp calendar state op)
    (applied : applyOp calendar config op state = some target) :
    CalendarInv calendar config target := by
  cases op with
  | request event =>
      cases applied
      exact inv.request allowed
  | withdraw eventId =>
      cases applied
      exact inv.withdraw eventId
  | list timeMin timeMax listed =>
      obtain ⟨plan, decided, isTarget⟩ := Option.map_eq_some_iff.mp applied
      cases isTarget
      exact inv.list checks allowed decided
  | respond =>
      obtain ⟨events, timeMin, timeMax, plan⟩ := state
      cases plan with
      | nil => cases applied
      | cons decision plan =>
          unfold applyOp at applied
          dsimp only at applied
          cases responded : respondToDecision calendar events decision with
          | none =>
              rw [responded] at applied
              cases applied
              exact inv.abandon
          | some written =>
              rw [responded] at applied
              cases applied
              rw [respondToDecision_cases (inv.present decision List.mem_cons_self) responded]
              have before : CalendarInv calendar config
                  { CalendarState.mk events timeMin timeMax [] with
                    plan := decision :: plan } := inv
              exact before.respond folds
  | abandon =>
      cases applied
      exact inv.abandon

end Steps

section Runs

variable [TimeReaders] [Unicode] [Provider] {calendar : ReservationCalendar}
  {config : ReservationConfig} {start state : CalendarState}

end Runs

/-! ## A run over the hall's calendar -/

/-- Dates, counted in days. -/
abbrev dateProvider : Provider where
  starts time := (((time.bind EventTime.date).join.bind dateParts).map CivilDate.ordinal).getD 0
  ends time := (((time.bind EventTime.date).join.bind dateParts).map CivilDate.ordinal).getD 0

def hallStart : CalendarState where
  events := [firstRequest, secondRequest]
  timeMin := 0
  timeMax := 0
  plan := []

def hallRun : List CalendarOp :=
  [.list 739700 740000 [firstRequest, secondRequest], .respond]

theorem hallRun_books :
    (run (@applyOp dateReaders Responses.asciiUnicode hall hallConfig) hallStart hallRun).map
      (fun state => (state.events.map fun event =>
        @attendeeStatus Responses.asciiUnicode event hall.calendarId, state.plan.length)) =
      some ([some needsActionStatus, some acceptedStatus], 1) := by
  decide

end ParishKit.Reservations
