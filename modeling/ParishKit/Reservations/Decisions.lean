import ParishKit.Lib.Except
import ParishKit.Reservations.Events

/-!
# One pass over a calendar

Every pending event gets one decision. An event is accepted when it keeps clear of what
is on the calendar and of what was accepted before it, oldest request first.
-/

namespace ParishKit.Reservations

open ParishKit.Lib
open ParishKit.Responses (Unicode)

/-! ## Times -/

theorem intervalsOverlap_comm (left right : Interval) :
    intervalsOverlap left right = intervalsOverlap right left := by
  simp [intervalsOverlap, Bool.and_comm]

/-- Intervals whose ends state their offsets overlap when they share an instant. -/
theorem intervalsOverlap_of_fixed
    {first second third fourth offset1 offset2 offset3 offset4 : Int} :
    intervalsOverlap (⟨first, .fixed offset1⟩, ⟨second, .fixed offset2⟩)
        (⟨third, .fixed offset3⟩, ⟨fourth, .fixed offset4⟩) = true ↔
      first - offset1 ≤ fourth - offset4 ∧ third - offset3 ≤ second - offset2 := by
  have compared : ∀ wall offset wall' offset' : Int,
      (AwareTime.mk wall (.fixed offset)).le ⟨wall', .fixed offset'⟩ = true ↔
        wall - offset ≤ wall' - offset' := by
    intro wall offset wall' offset'
    by_cases equal : offset = offset'
    · simp [AwareTime.le, TimeZone.same, equal]
    · simp [AwareTime.le, TimeZone.same, TimeZone.instant, equal]
  simp [intervalsOverlap, compared]

section Times

variable [TimeReaders] {config : ReservationConfig}

theorem eventIntervalOrNone_eq_some_some
    {event : Event} {timezone : TimeZone} {interval : Interval} :
    eventIntervalOrNone event timezone = some (some interval) ↔
      eventInterval event timezone = .ok interval := by
  unfold eventIntervalOrNone
  split
  case h_1 isRead => simp [isRead]
  case h_2 isRead => simp [isRead]
  case h_3 isRead => simp [isRead]

theorem eventIntervalOrNone_eq_some_none
    {event : Event} {timezone : TimeZone} :
    eventIntervalOrNone event timezone = some none ↔
      eventInterval event timezone = .error .malformed := by
  unfold eventIntervalOrNone
  split
  case h_1 isRead => simp [isRead]
  case h_2 isRead => simp [isRead]
  case h_3 isRead => simp [isRead]

/-- Both events have times that can be read, and these overlap. -/
def Overlaps (timezone : TimeZone) (first second : Event) : Prop :=
  ∃ interval other, eventInterval first timezone = .ok interval ∧
    eventInterval second timezone = .ok other ∧ intervalsOverlap interval other = true

theorem Overlaps.symm {timezone : TimeZone} {first second : Event}
    (overlaps : Overlaps timezone first second) : Overlaps timezone second first := by
  obtain ⟨interval, other, isFirst, isSecond, overlap⟩ := overlaps
  exact ⟨other, interval, isSecond, isFirst, by rw [intervalsOverlap_comm, overlap]⟩

end Times

/-! ## Collecting -/

section Collecting

variable [Unicode] (calendar : ReservationCalendar) (config : ReservationConfig)

def isPending (event : Event) : Bool :=
  attendeeStatus event calendar.calendarId = some needsActionStatus

def isBookable (event : Event) : Bool :=
  creatorDomain (event.creator.getD []) ∈ config.acceptableDomains

/-- An event that takes up time on the calendar. -/
def isBlocking (event : Event) : Bool :=
  !isPending calendar event &&
    (attendeeStatus event calendar.calendarId ≠ some declinedStatus &&
      !eventIsTransparent event)

def attendeeEmail (event : Event) : Text :=
  ((calendarAttendee event calendar.calendarId).bind Attendee.email).getD
    calendar.calendarId

theorem collectEvent_of_pending
    {event : Event} (collected : Collected) (pending : isPending calendar event = true) :
    collectEvent calendar config collected event =
      if isBookable config event then
        { collected with
          pendingEvents := collected.pendingEvents ++
            [(event, attendeeEmail calendar event)] }
      else
        { collected with
          decisions := collected.decisions ++
            [domainDecision event (attendeeEmail calendar event)] } := by
  have status : (calendarAttendee event calendar.calendarId).bind
      Attendee.responseStatus = some needsActionStatus := of_decide_eq_true pending
  unfold collectEvent isBookable attendeeEmail
  by_cases bookable : creatorDomain (event.creator.getD []) ∈ config.acceptableDomains
  · simp [status, bookable]
  · simp [status, bookable]

theorem collectEvent_of_not_pending
    {event : Event} (collected : Collected) (settled : isPending calendar event = false) :
    collectEvent calendar config collected event =
      if isBlocking calendar event then
        { collected with existingEvents := collected.existingEvents ++ [event] }
      else collected := by
  have status : (calendarAttendee event calendar.calendarId).bind
      Attendee.responseStatus ≠ some needsActionStatus := of_decide_eq_false settled
  unfold collectEvent isBlocking attendeeStatus
  dsimp only
  rw [if_neg status, settled]
  simp

theorem foldl_collectEvent (events : List Event) (collected : Collected) :
    events.foldl (collectEvent calendar config) collected =
      { pendingEvents := collected.pendingEvents ++
          (events.filter fun event => isPending calendar event && isBookable config event).map
            fun event => (event, attendeeEmail calendar event)
        existingEvents := collected.existingEvents ++ events.filter (isBlocking calendar)
        decisions := collected.decisions ++
          (events.filter fun event =>
              isPending calendar event && !isBookable config event).map
            fun event => domainDecision event (attendeeEmail calendar event) } := by
  induction events generalizing collected with
  | nil => simp
  | cons event events inductionHypothesis =>
      rw [List.foldl_cons, inductionHypothesis]
      cases pending : isPending calendar event with
      | true =>
          rw [collectEvent_of_pending calendar config collected pending]
          have free : isBlocking calendar event = false := by simp [isBlocking, pending]
          cases bookable : isBookable config event with
          | true => simp [pending, bookable, free]
          | false => simp [pending, bookable, free]
      | false =>
          rw [collectEvent_of_not_pending calendar config collected pending]
          cases blocking : isBlocking calendar event with
          | true => simp [pending, blocking]
          | false => simp [pending, blocking]

/-- The pending events of acceptable creators, each with the attendee to answer as. -/
def bookableEvents (events : List Event) : List (Event × Text) :=
  (events.filter fun event => isPending calendar event && isBookable config event).map
    fun event => (event, attendeeEmail calendar event)

def domainDecisions (events : List Event) : List EventDecision :=
  (events.filter fun event => isPending calendar event && !isBookable config event).map
    fun event => domainDecision event (attendeeEmail calendar event)

theorem collectEvents_eq (events : List Event) :
    collectEvents calendar config events =
      ⟨bookableEvents calendar config events, events.filter (isBlocking calendar),
        domainDecisions calendar config events⟩ := by
  rw [collectEvents, foldl_collectEvent]
  simp [bookableEvents, domainDecisions]

variable {calendar config}

theorem mem_bookableEvents {events : List Event} {pending : Event × Text} :
    pending ∈ bookableEvents calendar config events ↔
      pending.1 ∈ events ∧ isPending calendar pending.1 = true ∧
        isBookable config pending.1 = true ∧
        pending.2 = attendeeEmail calendar pending.1 := by
  obtain ⟨event, email⟩ := pending
  simp only [bookableEvents, List.mem_map, List.mem_filter, Bool.and_eq_true, Prod.mk.injEq]
  constructor
  · rintro ⟨found, ⟨member, isPending, bookable⟩, rfl, rfl⟩
    exact ⟨member, isPending, bookable, rfl⟩
  · rintro ⟨member, isPending, bookable, rfl⟩
    exact ⟨event, ⟨member, isPending, bookable⟩, rfl, rfl⟩

theorem map_event_domainDecisions (events : List Event) :
    (domainDecisions calendar config events).map EventDecision.event =
      events.filter fun event => isPending calendar event && !isBookable config event := by
  rw [domainDecisions, List.map_map]
  exact List.map_id _

theorem map_event_bookableEvents (events : List Event) :
    (bookableEvents calendar config events).map Prod.fst =
      events.filter fun event => isPending calendar event && isBookable config event := by
  rw [bookableEvents, List.map_map]
  exact List.map_id _

end Collecting

/-! ## Judging -/

section Judging

variable [TimeReaders] {config : ReservationConfig}

/-- What one judgement can be: a decline for its times, a decline for a holder that it
overlaps, or an acceptance clear of all holders. -/
theorem judgePending_cases
    {held added : List (Event × Interval)} {pending : Event × Text}
    {decision : EventDecision}
    (judged : judgePending config held pending = some (decision, added)) :
    (eventInterval pending.1 config.timezone = .error .malformed ∧
        decision = malformedTimeDecision pending.1 pending.2 ∧ added = []) ∨
      ∃ interval, eventInterval pending.1 config.timezone = .ok interval ∧
        ((∃ conflict ∈ held, intervalsOverlap interval conflict.2 = true ∧
            decision = conflictDecision conflict.1 pending.1 pending.2 ∧ added = []) ∨
          ((∀ holder ∈ held, intervalsOverlap interval holder.2 = false) ∧
            decision = acceptedDecision pending.1 pending.2 ∧
            added = if eventIsTransparent pending.1 then [] else [(pending.1, interval)])) := by
  obtain ⟨read, isRead, judged⟩ := Option.bind_eq_some_iff.mp judged
  cases read with
  | none =>
      cases judged
      exact Or.inl ⟨eventIntervalOrNone_eq_some_none.mp isRead, rfl, rfl⟩
  | some interval =>
      refine Or.inr ⟨interval, eventIntervalOrNone_eq_some_some.mp isRead, ?_⟩
      dsimp only at judged
      split at judged
      case h_1 conflict isFound =>
        cases judged
        exact Or.inl ⟨conflict, List.mem_of_find?_eq_some isFound,
          by simpa using List.find?_some isFound, rfl, rfl⟩
      case h_2 noneFound =>
        cases judged
        refine Or.inr ⟨?_, rfl, rfl⟩
        intro holder member
        simpa using List.find?_eq_none.mp noneFound holder member

def EventDecision.Takes (decision : EventDecision) : Prop :=
  decision.response = .accepted ∧ eventIsTransparent decision.event = false

/-- What judging in turn establishes of the requests judged so far, their decisions, and
the intervals that are taken up. -/
structure JudgedInTurn (config : ReservationConfig) (existing : List (Event × Interval))
    (requests : List (Event × Text)) (decisions : List EventDecision)
    (held : List (Event × Interval)) : Prop where
  answered : (decisions.map fun decision => (decision.event, decision.attendeeEmail)) =
    requests
  accepted : ∀ decision ∈ decisions, decision.response = .accepted →
    ∃ interval, eventInterval decision.event config.timezone = .ok interval ∧
      ∀ holder ∈ existing, intervalsOverlap interval holder.2 = false
  apart : decisions.Pairwise fun sooner later => sooner.Takes →
    later.response = .accepted → ¬Overlaps config.timezone sooner.event later.event
  holding : ∀ holder, holder ∈ held ↔ holder ∈ existing ∨
    ∃ decision ∈ decisions, decision.Takes ∧ decision.event = holder.1 ∧
      eventInterval holder.1 config.timezone = .ok holder.2
  declined : requests.Pairwise createdOrder → ∀ decision ∈ decisions,
    decision.response = .declined →
    eventInterval decision.event config.timezone = .error .malformed ∨
      ∃ interval, eventInterval decision.event config.timezone = .ok interval ∧
        ((∃ holder ∈ existing, intervalsOverlap interval holder.2 = true) ∨
          ∃ sooner ∈ decisions, sooner.Takes ∧
            sooner.event.created.getD [] ≤ decision.event.created.getD [] ∧
            Overlaps config.timezone decision.event sooner.event)

omit [TimeReaders] in
theorem takes_acceptedDecision {pending : Event × Text} :
    (acceptedDecision pending.1 pending.2).Takes ↔
      eventIsTransparent pending.1 = false := by
  simp [EventDecision.Takes, acceptedDecision]

theorem JudgedInTurn.none (existing : List (Event × Interval)) :
    JudgedInTurn config existing [] [] existing where
  answered := rfl
  accepted := by simp
  apart := List.Pairwise.nil
  holding := by simp
  declined := by simp

/-- A decision that takes nothing up leaves the holders as they are. -/
theorem holding_of_no_takes
    {existing held : List (Event × Interval)} {decisions : List EventDecision}
    {decision : EventDecision}
    (holding : ∀ holder, holder ∈ held ↔ holder ∈ existing ∨
      ∃ decision ∈ decisions, decision.Takes ∧ decision.event = holder.1 ∧
        eventInterval holder.1 config.timezone = .ok holder.2)
    (free : ¬decision.Takes) (holder : Event × Interval) :
    holder ∈ held ↔ holder ∈ existing ∨
      ∃ found ∈ decisions ++ [decision], found.Takes ∧ found.event = holder.1 ∧
        eventInterval holder.1 config.timezone = .ok holder.2 := by
  rw [holding]
  constructor
  · rintro (isExisting | ⟨found, member, takes⟩)
    · exact Or.inl isExisting
    · exact Or.inr ⟨found, List.mem_append_left _ member, takes⟩
  · rintro (isExisting | ⟨found, member, takes, rest⟩)
    · exact Or.inl isExisting
    · rcases List.mem_append.mp member with earlier | last
      · exact Or.inr ⟨found, earlier, takes, rest⟩
      · rw [List.mem_singleton.mp last] at takes
        exact absurd takes free

variable {existing held : List (Event × Interval)} {before : List (Event × Text)}
  {decisions : List EventDecision} {pending : Event × Text}

/-- A request that sorts last was created no earlier than any that was decided. -/
theorem JudgedInTurn.created_le
    (judged : JudgedInTurn config existing before decisions held)
    (inOrder : (before ++ [pending]).Pairwise createdOrder)
    {decision : EventDecision} (member : decision ∈ decisions) :
    decision.event.created.getD [] ≤ pending.1.created.getD [] := by
  have isRequest : (decision.event, decision.attendeeEmail) ∈ before := by
    rw [← judged.answered]
    exact List.mem_map_of_mem member
  exact (List.pairwise_append.mp inOrder).2.2 _ isRequest pending List.mem_cons_self

theorem JudgedInTurn.declines
    (judged : JudgedInTurn config existing before decisions held)
    {decision : EventDecision}
    (answers : (decision.event, decision.attendeeEmail) = pending)
    (isDeclined : decision.response = .declined)
    (because : (before ++ [pending]).Pairwise createdOrder →
      eventInterval pending.1 config.timezone = .error .malformed ∨
        ∃ interval, eventInterval pending.1 config.timezone = .ok interval ∧
          ((∃ holder ∈ existing, intervalsOverlap interval holder.2 = true) ∨
            ∃ sooner ∈ decisions, sooner.Takes ∧
              sooner.event.created.getD [] ≤ pending.1.created.getD [] ∧
              Overlaps config.timezone pending.1 sooner.event)) :
    JudgedInTurn config existing (before ++ [pending]) (decisions ++ [decision]) held := by
  have free : ¬decision.Takes := by
    intro takes
    rw [takes.1] at isDeclined
    cases isDeclined
  have isEvent : decision.event = pending.1 := congrArg Prod.fst answers
  refine ⟨?_, ?_, ?_, ?_, ?_⟩
  · rw [List.map_append, judged.answered, List.map_singleton, answers]
  · intro found member isAccepted
    rcases List.mem_append.mp member with earlier | last
    · exact judged.accepted found earlier isAccepted
    · rw [List.mem_singleton.mp last, isDeclined] at isAccepted
      cases isAccepted
  · apply List.pairwise_append.mpr
    refine ⟨judged.apart, List.pairwise_singleton _ _, ?_⟩
    intro sooner _ later last _ isAccepted
    rw [List.mem_singleton.mp last, isDeclined] at isAccepted
    cases isAccepted
  · exact holding_of_no_takes judged.holding free
  · intro inOrder found member foundDeclined
    rcases List.mem_append.mp member with earlier | last
    · have reason := judged.declined (List.pairwise_append.mp inOrder).1 found earlier
        foundDeclined
      refine reason.imp_right ?_
      rintro ⟨interval, isRead, isExisting | ⟨sooner, soonerMember, rest⟩⟩
      · exact ⟨interval, isRead, Or.inl isExisting⟩
      · exact ⟨interval, isRead, Or.inr ⟨sooner, List.mem_append_left _ soonerMember, rest⟩⟩
    · rw [List.mem_singleton.mp last, isEvent]
      refine (because inOrder).imp_right ?_
      rintro ⟨interval, isRead, isExisting | ⟨sooner, soonerMember, rest⟩⟩
      · exact ⟨interval, isRead, Or.inl isExisting⟩
      · exact ⟨interval, isRead, Or.inr ⟨sooner, List.mem_append_left _ soonerMember, rest⟩⟩

theorem JudgedInTurn.accepts
    (judged : JudgedInTurn config existing before decisions held) {interval : Interval}
    (isRead : eventInterval pending.1 config.timezone = .ok interval)
    (clear : ∀ holder ∈ held, intervalsOverlap interval holder.2 = false) :
    JudgedInTurn config existing (before ++ [pending])
      (decisions ++ [acceptedDecision pending.1 pending.2])
      (held ++ if eventIsTransparent pending.1 then [] else [(pending.1, interval)]) := by
  refine ⟨?_, ?_, ?_, ?_, ?_⟩
  · rw [List.map_append, judged.answered]
    rfl
  · intro found member isAccepted
    rcases List.mem_append.mp member with earlier | last
    · exact judged.accepted found earlier isAccepted
    · rw [List.mem_singleton.mp last]
      refine ⟨interval, isRead, ?_⟩
      intro holder isExisting
      exact clear holder ((judged.holding holder).mpr (Or.inl isExisting))
  · apply List.pairwise_append.mpr
    refine ⟨judged.apart, List.pairwise_singleton _ _, ?_⟩
    intro sooner soonerMember later last takes _
    rw [List.mem_singleton.mp last]
    rintro ⟨soonerInterval, other, isSooner, isOther, overlap⟩
    have isHolder : (sooner.event, soonerInterval) ∈ held :=
      (judged.holding _).mpr (Or.inr ⟨sooner, soonerMember, takes, rfl, isSooner⟩)
    have equal : other = interval := by
      have both := isOther.symm.trans isRead
      cases both
      rfl
    have apart := clear _ isHolder
    rw [intervalsOverlap_comm, ← equal, overlap] at apart
    cases apart
  · cases transparent : eventIsTransparent pending.1 with
    | true =>
        rw [if_pos rfl, List.append_nil]
        refine holding_of_no_takes judged.holding ?_
        simp [takes_acceptedDecision, transparent]
    | false =>
        intro holder
        rw [if_neg Bool.false_ne_true, List.mem_append, judged.holding]
        constructor
        · rintro ((isExisting | ⟨found, member, takes⟩) | last)
          · exact Or.inl isExisting
          · exact Or.inr ⟨found, List.mem_append_left _ member, takes⟩
          · rw [List.mem_singleton.mp last]
            exact Or.inr ⟨_, List.mem_append_right _ List.mem_cons_self,
              takes_acceptedDecision.mpr transparent, rfl, isRead⟩
        · rintro (isExisting | ⟨found, member, takes, isEvent, isInterval⟩)
          · exact Or.inl (Or.inl isExisting)
          · rcases List.mem_append.mp member with earlier | last
            · exact Or.inl (Or.inr ⟨found, earlier, takes, isEvent, isInterval⟩)
            · rw [List.mem_singleton.mp last] at isEvent
              have isPending : pending.1 = holder.1 := isEvent
              rw [← isPending, isRead] at isInterval
              cases isInterval
              exact Or.inr (List.mem_singleton.mpr (Prod.ext isPending.symm rfl))
  · intro inOrder found member foundDeclined
    rcases List.mem_append.mp member with earlier | last
    · have reason := judged.declined (List.pairwise_append.mp inOrder).1 found earlier
        foundDeclined
      refine reason.imp_right ?_
      rintro ⟨foundInterval, isFound, isExisting | ⟨sooner, soonerMember, rest⟩⟩
      · exact ⟨foundInterval, isFound, Or.inl isExisting⟩
      · exact ⟨foundInterval, isFound,
          Or.inr ⟨sooner, List.mem_append_left _ soonerMember, rest⟩⟩
    · rw [List.mem_singleton.mp last] at foundDeclined
      cases foundDeclined

/-- One judgement keeps what judging in turn establishes. -/
theorem JudgedInTurn.step
    {added : List (Event × Interval)} {decision : EventDecision}
    (judged : JudgedInTurn config existing before decisions held)
    (next : judgePending config held pending = some (decision, added)) :
    JudgedInTurn config existing (before ++ [pending]) (decisions ++ [decision])
      (held ++ added) := by
  rcases judgePending_cases next with
    ⟨malformed, rfl, rfl⟩ | ⟨interval, isRead, conflicted | ⟨clear, rfl, rfl⟩⟩
  · rw [List.append_nil]
    refine judged.declines ?_ ?_ ?_
    · rfl
    · rfl
    · intro _
      exact Or.inl malformed
  · obtain ⟨conflict, isHolder, overlap, rfl, rfl⟩ := conflicted
    rw [List.append_nil]
    refine judged.declines ?_ ?_ ?_
    · rfl
    · rfl
    · intro inOrder
      refine Or.inr ⟨interval, isRead, ?_⟩
      rcases (judged.holding conflict).mp isHolder with
        isExisting | ⟨sooner, member, takes, isEvent, isConflict⟩
      · exact Or.inl ⟨conflict, isExisting, overlap⟩
      · refine Or.inr ⟨sooner, member, takes, judged.created_le inOrder member, ?_⟩
        exact ⟨interval, conflict.2, isRead, by rw [isEvent, isConflict], overlap⟩
  · exact judged.accepts isRead clear

end Judging

/-! ## A whole pass -/

section Pass

variable [TimeReaders] [Unicode] {calendar : ReservationCalendar}
  {config : ReservationConfig}

omit [Unicode] in
theorem mem_reduceOption_existing
    {events : List Event} {existing : List (Option (Event × Interval))}
    (isRead : events.mapM (existingInterval config) = some existing)
    (holder : Event × Interval) :
    holder ∈ existing.reduceOption ↔ holder.1 ∈ events ∧
      eventInterval holder.1 config.timezone = .ok holder.2 := by
  have each := option_mapM_eq_some isRead
  clear isRead
  induction each with
  | nil => simp
  | @cons event read events existing isFirst _ inductionHypothesis =>
      obtain ⟨interval, isInterval, isFirst⟩ := Option.bind_eq_some_iff.mp isFirst
      cases isFirst
      have atRest := Iff.intro inductionHypothesis.mp inductionHypothesis.mpr
      rw [List.reduceOption_mem_iff, List.mem_cons, ← List.reduceOption_mem_iff, atRest,
        List.mem_cons]
      constructor
      · rintro (isFirst | ⟨member, isRead⟩)
        · cases interval with
          | none => cases isFirst
          | some interval =>
              cases isFirst
              exact ⟨Or.inl rfl, eventIntervalOrNone_eq_some_some.mp isInterval⟩
        · exact ⟨Or.inr member, isRead⟩
      · rintro ⟨isEvent | member, isRead⟩
        · rw [← isEvent, eventIntervalOrNone_eq_some_some.mpr isRead] at isInterval
          cases isInterval
          rw [← isEvent]
          exact Or.inl rfl
        · exact Or.inr ⟨member, isRead⟩

omit [Unicode] in
theorem uncheckedDecision_cases
    {pending : Event × Text} {decision : EventDecision}
    (decided : uncheckedDecision config pending = some decision) :
    (eventInterval pending.1 config.timezone = .error .malformed ∧
        decision = malformedTimeDecision pending.1 pending.2) ∨
      ∃ interval, eventInterval pending.1 config.timezone = .ok interval ∧
        decision = acceptedDecision pending.1 pending.2 := by
  obtain ⟨read, isRead, decided⟩ := Option.bind_eq_some_iff.mp decided
  cases read with
  | none =>
      cases decided
      exact Or.inl ⟨eventIntervalOrNone_eq_some_none.mp isRead, rfl⟩
  | some interval =>
      cases decided
      exact Or.inr ⟨interval, eventIntervalOrNone_eq_some_some.mp isRead, rfl⟩

omit [Unicode] in
theorem uncheckedDecision_answers
    {pendings : List (Event × Text)} {decisions : List EventDecision}
    (decided : pendings.mapM (uncheckedDecision config) = some decisions) :
    (decisions.map fun decision => (decision.event, decision.attendeeEmail)) = pendings := by
  have each := option_mapM_eq_some decided
  clear decided
  induction each with
  | nil => rfl
  | cons isFirst _ inductionHypothesis =>
      rw [List.map_cons, inductionHypothesis]
      rcases uncheckedDecision_cases isFirst with ⟨_, rfl⟩ | ⟨_, _, rfl⟩
      · rfl
      · rfl

omit [Unicode] in
theorem judgedInTurn_of_inTurn
    {existing final : List (Event × Interval)} {requests : List (Event × Text)}
    {decisions : List EventDecision}
    (judged : inTurn (judgePending config) existing requests = some (decisions, final)) :
    JudgedInTurn config existing requests decisions final := by
  refine inTurn_induction judged (JudgedInTurn.none existing) ?_
  intro before earlier held request result added soFar next
  exact soFar.step next

/-- The decisions are those on the creators that may not book, and then those on the
requests that may be granted. -/
theorem reservationDecisions_cases
    {events : List Event} {decisions : List EventDecision}
    (decided : reservationDecisions calendar config events = some decisions) :
    ∃ judged, decisions = domainDecisions calendar config events ++ judged ∧
      ((calendar.checkConflicts = false ∧
          (bookableEvents calendar config events).mapM (uncheckedDecision config) =
            some judged) ∨
        (calendar.checkConflicts = true ∧ ∃ existing final,
          (events.filter (isBlocking calendar)).mapM (existingInterval config) =
            some existing ∧
          inTurn (judgePending config) existing.reduceOption
            ((bookableEvents calendar config events).insertionSort createdOrder) =
              some (judged, final))) := by
  unfold reservationDecisions at decided
  dsimp only at decided
  rw [collectEvents_eq] at decided
  cases checks : calendar.checkConflicts with
  | false =>
      rw [checks, Bool.not_false, if_pos rfl] at decided
      obtain ⟨judged, isJudged, decided⟩ := Option.bind_eq_some_iff.mp decided
      cases decided
      exact ⟨judged, rfl, Or.inl ⟨rfl, isJudged⟩⟩
  | true =>
      rw [checks, Bool.not_true, if_neg Bool.false_ne_true] at decided
      obtain ⟨existing, isExisting, decided⟩ := Option.bind_eq_some_iff.mp decided
      obtain ⟨⟨judged, final⟩, isJudged, decided⟩ := Option.bind_eq_some_iff.mp decided
      cases decided
      exact ⟨judged, rfl, Or.inr ⟨rfl, existing, final, isExisting, isJudged⟩⟩

/-- Every pending event gets exactly one decision, and no other event gets any. -/
theorem reservationDecisions_answered
    {events : List Event} {decisions : List EventDecision}
    (decided : reservationDecisions calendar config events = some decisions) :
    (decisions.map EventDecision.event).Perm (events.filter (isPending calendar)) ∧
      ∀ decision ∈ decisions, decision.attendeeEmail = attendeeEmail calendar decision.event := by
  obtain ⟨judged, rfl, how⟩ := reservationDecisions_cases decided
  have answers : (judged.map fun decision => (decision.event, decision.attendeeEmail)).Perm
      (bookableEvents calendar config events) := by
    rcases how with ⟨_, unchecked⟩ | ⟨_, existing, final, _, inTurnJudged⟩
    · rw [uncheckedDecision_answers unchecked]
    · rw [(judgedInTurn_of_inTurn inTurnJudged).answered]
      exact List.perm_insertionSort _ _
  constructor
  · have bookable := answers.map Prod.fst
    rw [List.map_map, map_event_bookableEvents] at bookable
    rw [List.map_append, map_event_domainDecisions]
    have both := (bookable.append_left (events.filter fun event =>
      isPending calendar event && !isBookable config event))
    refine both.trans ?_
    refine List.perm_append_comm.trans ?_
    simpa [Bool.and_comm] using List.filter_append_perm (isBookable config)
      (events.filter (isPending calendar))
  · intro decision member
    rcases List.mem_append.mp member with unbookable | isJudged
    · obtain ⟨event, _, rfl⟩ := List.mem_map.mp unbookable
      rfl
    · have isRequest := answers.mem_iff.mp (List.mem_map_of_mem isJudged)
      exact (mem_bookableEvents.mp isRequest).2.2.2

/-- What a pass that checks conflicts promises of its decisions. -/
structure PassSound (calendar : ReservationCalendar) (config : ReservationConfig)
    (events : List Event) (decisions : List EventDecision) : Prop where
  /-- Each pending event is decided once, and nothing else is. -/
  answered : (decisions.map EventDecision.event).Perm (events.filter (isPending calendar))
  /-- What is accepted may be booked, has times, and is clear of the calendar. -/
  accepted : ∀ decision ∈ decisions, decision.response = .accepted →
    isBookable config decision.event = true ∧
      (∃ interval, eventInterval decision.event config.timezone = .ok interval) ∧
      ∀ event ∈ events, isBlocking calendar event = true →
        ¬Overlaps config.timezone decision.event event
  /-- No two accepted events that take up time overlap. -/
  apart : decisions.Pairwise fun first second => first.Takes → second.Takes →
    ¬Overlaps config.timezone first.event second.event
  /-- What is declined for its times loses them to an event on the calendar or to an
  accepted one that was created no later. -/
  declined : ∀ decision ∈ decisions, decision.response = .declined →
    isBookable config decision.event = true →
    eventInterval decision.event config.timezone = .error .malformed ∨
      ∃ blocker, Overlaps config.timezone decision.event blocker ∧
        ((blocker ∈ events ∧ isBlocking calendar blocker = true) ∨
          ∃ sooner ∈ decisions, sooner.Takes ∧ sooner.event = blocker ∧
            blocker.created.getD [] ≤ decision.event.created.getD [])

omit [TimeReaders] [Unicode] in
theorem pairwise_insertionSort_created (requests : List (Event × Text)) :
    (requests.insertionSort createdOrder).Pairwise createdOrder := by
  have total : Std.Total createdOrder :=
    ⟨fun left right => le_total (left.1.created.getD []) (right.1.created.getD [])⟩
  have transitive : IsTrans (Event × Text) createdOrder :=
    ⟨fun _ _ _ first second => le_trans first second⟩
  exact List.pairwise_insertionSort createdOrder requests

theorem reservationDecisions_sound
    {events : List Event} {decisions : List EventDecision}
    (checks : calendar.checkConflicts = true)
    (decided : reservationDecisions calendar config events = some decisions) :
    PassSound calendar config events decisions := by
  have answered := (reservationDecisions_answered decided).1
  obtain ⟨judged, rfl, how⟩ := reservationDecisions_cases decided
  rcases how with ⟨unchecked, _⟩ | ⟨_, existing, final, isExisting, inTurnJudged⟩
  · rw [checks] at unchecked
    cases unchecked
  have sound := judgedInTurn_of_inTurn inTurnJudged
  have isHolder := mem_reduceOption_existing isExisting
  have requested : ∀ decision ∈ judged, decision.event ∈ events ∧
      isBookable config decision.event = true := by
    intro decision member
    have isRequest : (decision.event, decision.attendeeEmail) ∈
        (bookableEvents calendar config events).insertionSort createdOrder := by
      rw [← sound.answered]
      exact List.mem_map_of_mem member
    have found := mem_bookableEvents.mp ((List.mem_insertionSort createdOrder).mp isRequest)
    exact ⟨found.1, found.2.2.1⟩
  have refused : ∀ decision ∈ domainDecisions calendar config events,
      decision.response = .declined ∧ isBookable config decision.event = false := by
    intro decision member
    obtain ⟨event, isEvent, rfl⟩ := List.mem_map.mp member
    have unbookable := (Bool.and_eq_true_iff.mp (List.mem_filter.mp isEvent).2).2
    exact ⟨rfl, Bool.eq_false_of_not_eq_true' unbookable⟩
  refine ⟨answered, ?_, ?_, ?_⟩
  · intro decision member isAccepted
    rcases List.mem_append.mp member with unbookable | isJudged
    · rw [(refused decision unbookable).1] at isAccepted
      cases isAccepted
    · obtain ⟨interval, isRead, clear⟩ := sound.accepted decision isJudged isAccepted
      refine ⟨(requested decision isJudged).2, ⟨interval, isRead⟩, ?_⟩
      intro event isEvent blocking
      rintro ⟨own, other, isOwn, isOther, overlap⟩
      have holds := (isHolder (event, other)).mpr
        ⟨List.mem_filter.mpr ⟨isEvent, blocking⟩, isOther⟩
      rw [isRead] at isOwn
      cases isOwn
      rw [clear _ holds] at overlap
      cases overlap
  · apply List.pairwise_append.mpr
    refine ⟨?_, ?_, ?_⟩
    · apply List.Pairwise.imp_of_mem (R := fun _ _ => True)
      · intro first second isFirst _ _ takes
        rw [EventDecision.Takes, (refused first isFirst).1] at takes
        cases takes.1
      · exact List.pairwise_of_forall fun _ _ => trivial
    · refine sound.apart.imp ?_
      intro first second apart firstTakes secondTakes
      exact apart firstTakes secondTakes.1
    · intro first isFirst _ _ takes
      rw [EventDecision.Takes, (refused first isFirst).1] at takes
      cases takes.1
  · intro decision member isDeclined bookable
    rcases List.mem_append.mp member with unbookable | isJudged
    · rw [(refused decision unbookable).2] at bookable
      cases bookable
    · have reason := sound.declined (pairwise_insertionSort_created _) decision
        isJudged isDeclined
      refine reason.imp_right ?_
      rintro ⟨interval, isRead, ⟨holder, holds, overlap⟩ | ⟨sooner, isSooner, takes, le, overlap⟩⟩
      · obtain ⟨isEvent, isOther⟩ := (isHolder holder).mp holds
        exact ⟨holder.1, ⟨interval, holder.2, isRead, isOther, overlap⟩,
          Or.inl (List.mem_filter.mp isEvent)⟩
      · exact ⟨sooner.event, overlap,
          Or.inr ⟨sooner, List.mem_append_right _ isSooner, takes, rfl, le⟩⟩

end Pass

/-! ## Two requests for a hall -/

/-- Readers of the dates that `isoformat` writes. -/
abbrev dateReaders : TimeReaders where
  dateTimeFromIsoFormat _ := none
  dateFromIsoFormat text := (dateParts text).map fun date => date.ordinal * dayMicros
  zoneInfo _ := .error .malformed

def hall : ReservationCalendar where
  name := "Hall".toList
  calendarId := "hall@example.org".toList
  checkConflicts := true

def hallConfig : ReservationConfig where
  acceptableDomains := ["example.org".toList]
  timezone := .fixed 0

/-- An all-day request for the hall. -/
def hallRequest (id created start finish : String) : Event where
  id := some id.toList
  summary := some "Supper".toList
  created := some created.toList
  creator := some "office@Example.org".toList
  transparency := none
  attendees := [some ⟨some "Hall@example.org".toList, some needsActionStatus⟩]
  start := some ⟨none, some (some start.toList), none⟩
  finish := some ⟨none, some (some finish.toList), none⟩

def firstRequest : Event :=
  hallRequest "a" "2026-02-01" "2026-05-01" "2026-05-03"

def secondRequest : Event :=
  hallRequest "b" "2026-01-01" "2026-05-02" "2026-05-04"

theorem hall_decided :
    (@reservationDecisions dateReaders Responses.asciiUnicode hall hallConfig
        [firstRequest, secondRequest]).map
      (List.map fun decision => (decision.event.id, decision.response)) =
      some [(some "b".toList, .accepted), (some "a".toList, .declined)] := by
  decide

theorem hall_sound :
    ∃ decisions, @reservationDecisions dateReaders Responses.asciiUnicode hall hallConfig
        [firstRequest, secondRequest] = some decisions ∧
      @PassSound dateReaders Responses.asciiUnicode hall hallConfig
        [firstRequest, secondRequest] decisions := by
  cases decided : @reservationDecisions dateReaders Responses.asciiUnicode hall hallConfig
      [firstRequest, secondRequest] with
  | none =>
      have answers := hall_decided
      rw [decided] at answers
      cases answers
  | some decisions =>
      exact ⟨decisions, rfl,
        @reservationDecisions_sound dateReaders Responses.asciiUnicode _ _ _ _ rfl decided⟩

end ParishKit.Reservations
