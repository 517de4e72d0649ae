import ParishKit.Reservations.Decisions

/-!
# Writing the responses

A response changes one attendee's entry of one event. Once every decision of a pass is
written, no event it listed is pending, and another pass decides nothing.
-/

namespace ParishKit.Reservations

open ParishKit.Lib
open ParishKit.Responses (Unicode)

/-! ## The provider -/

/-- Only the entry of the given address gets the new status. -/
def patchAttendee (email responseStatus : Text) (attendee : Option Attendee) :
    Option Attendee :=
  attendee.map fun attendee =>
    if attendee.email = some email then
      { attendee with responseStatus := some responseStatus }
    else attendee

def patchEvent (email responseStatus : Text) (event : Event) : Event :=
  { event with attendees := event.attendees.map (patchAttendee email responseStatus) }

/-- `none` is the error for an event that the calendar does not have. -/
def patchAttendeeResponse (calendarId eventId responseStatus attendeeEmail : Text)
    (events : List Event) : Option (List Event) :=
  let responseEmail := if attendeeEmail = [] then calendarId else attendeeEmail
  if ∃ event ∈ events, event.id = some eventId then
    some (events.map fun event =>
      if event.id = some eventId then patchEvent responseEmail responseStatus event
      else event)
  else none

def respondToDecision (calendar : ReservationCalendar) (events : List Event)
    (decision : EventDecision) : Option (List Event) :=
  let eventId := decision.event.id.getD []
  if eventId = [] then some events
  else
    patchAttendeeResponse calendar.calendarId eventId decision.response.status
      decision.attendeeEmail events

/-- A run that is no dry run. -/
def respondToDecisions (calendar : ReservationCalendar) (events : List Event)
    (decisions : List EventDecision) : Option (List Event) :=
  decisions.foldlM (respondToDecision calendar) events

/-! ## One response -/

@[simp]
theorem patchEvent_id (email responseStatus : Text) (event : Event) :
    (patchEvent email responseStatus event).id = event.id :=
  rfl

section Status

variable [Unicode] {calendar : ReservationCalendar}

theorem isCalendar_patchAttendee
    (calendarId email responseStatus : Text) (attendee : Option Attendee) :
    isCalendar calendarId (patchAttendee email responseStatus attendee) =
      isCalendar calendarId attendee := by
  cases attendee with
  | none => rfl
  | some attendee =>
      obtain ⟨own, status⟩ := attendee
      by_cases same : own = some email
      · simp [patchAttendee, isCalendar, same]
      · simp [patchAttendee, same]

theorem calendarAttendee_patchEvent
    (calendarId email responseStatus : Text) (event : Event) :
    calendarAttendee (patchEvent email responseStatus event) calendarId =
      patchAttendee email responseStatus (calendarAttendee event calendarId) := by
  unfold calendarAttendee patchEvent
  have same : isCalendar calendarId ∘ patchAttendee email responseStatus =
      isCalendar calendarId :=
    funext (isCalendar_patchAttendee calendarId email responseStatus)
  rw [List.find?_map, same]
  cases event.attendees.find? (isCalendar calendarId) with
  | none => rfl
  | some attendee => rfl

theorem email_of_calendarAttendee
    {event : Event} {calendarId : Text} {attendee : Attendee}
    (isAttendee : calendarAttendee event calendarId = some attendee) :
    ∃ email, attendee.email = some email ∧
      Unicode.casefold email = Unicode.casefold calendarId := by
  have isFound := List.find?_some (Option.join_eq_some_iff.mp isAttendee)
  obtain ⟨email, status⟩ := attendee
  cases email with
  | none => cases isFound
  | some email => exact ⟨email, rfl, of_decide_eq_true isFound⟩

/-- The address that a decision answers as, which is the calendar's own when it is empty. -/
def responseEmail (calendar : ReservationCalendar) (event : Event) : Text :=
  if attendeeEmail calendar event = [] then calendar.calendarId
  else attendeeEmail calendar event

/-- A pending event's own address is answered, as long as it is a text with characters. -/
theorem attendeeStatus_patchEvent
    {event : Event} (pending : isPending calendar event = true)
    (folds : Unicode.casefold calendar.calendarId ≠ Unicode.casefold [])
    (responseStatus : Text) :
    attendeeStatus (patchEvent (responseEmail calendar event) responseStatus event)
      calendar.calendarId = some responseStatus := by
  have status : attendeeStatus event calendar.calendarId = some needsActionStatus :=
    of_decide_eq_true pending
  obtain ⟨attendee, isAttendee, _⟩ := Option.bind_eq_some_iff.mp status
  obtain ⟨email, isEmail, isFolded⟩ := email_of_calendarAttendee isAttendee
  have answered : attendeeEmail calendar event = email := by
    simp [attendeeEmail, isAttendee, isEmail]
  have written : email ≠ [] := by
    rintro rfl
    exact folds isFolded.symm
  unfold attendeeStatus responseEmail
  rw [calendarAttendee_patchEvent, isAttendee, answered, if_neg written]
  simp [patchAttendee, isEmail]

end Status

/-! ## All responses of a pass -/

/-- The event as the decision on it leaves it. -/
def answered (calendar : ReservationCalendar) (decisions : List EventDecision)
    (event : Event) : Event :=
  match decisions.find? fun decision => decision.event.id = event.id with
  | some decision =>
      patchEvent
        (if decision.attendeeEmail = [] then calendar.calendarId else decision.attendeeEmail)
        decision.response.status event
  | none => event

theorem answered_id (calendar : ReservationCalendar) (decisions : List EventDecision)
    (event : Event) : (answered calendar decisions event).id = event.id := by
  unfold answered
  split
  · rfl
  · rfl

/-- Every event has an id, and no two have the same. -/
structure Identified (events : List Event) : Prop where
  present : ∀ event ∈ events, event.id.getD [] ≠ []
  distinct : (events.map Event.id).Nodup

theorem Identified.map
    {events : List Event} (identified : Identified events) {change : Event → Event}
    (keeps : ∀ event, (change event).id = event.id) : Identified (events.map change) where
  present := by
    intro event member
    obtain ⟨source, isSource, rfl⟩ := List.mem_map.mp member
    rw [keeps]
    exact identified.present source isSource
  distinct := by
    have same : Event.id ∘ change = Event.id := funext keeps
    rw [List.map_map, same]
    exact identified.distinct

theorem respondToDecision_eq
    {calendar : ReservationCalendar} {events : List Event} {decision : EventDecision}
    (present : decision.event.id.getD [] ≠ [])
    (known : ∃ event ∈ events, event.id = decision.event.id) :
    respondToDecision calendar events decision =
      some (events.map (answered calendar [decision])) := by
  have isId : decision.event.id = some (decision.event.id.getD []) := by
    cases unknown : decision.event.id with
    | none => simp [unknown] at present
    | some id => rfl
  unfold respondToDecision patchAttendeeResponse
  dsimp only
  rw [if_neg present, ← isId, if_pos known]
  apply congrArg some
  apply List.map_congr_left
  intro event _
  unfold answered
  by_cases same : event.id = decision.event.id
  · simp [same]
  · have different : ¬decision.event.id = event.id := fun equal => same equal.symm
    simp [same, different]

/-- Decisions on different events can be written one after another. -/
theorem answered_cons
    (calendar : ReservationCalendar) {decision : EventDecision}
    {decisions : List EventDecision}
    (other : ∀ later ∈ decisions, later.event.id ≠ decision.event.id) (event : Event) :
    answered calendar decisions (answered calendar [decision] event) =
      answered calendar (decision :: decisions) event := by
  by_cases same : decision.event.id = event.id
  · have none : (decisions.find? fun later => decide (later.event.id = event.id)) = none := by
      rw [List.find?_eq_none]
      intro later member equal
      exact other later member ((of_decide_eq_true equal).trans same.symm)
    simp [answered, same, none]
  · simp [answered, same]

/-- Every response of a pass is written, each to the event it is about. -/
theorem respondToDecisions_eq
    {calendar : ReservationCalendar} {events : List Event} {decisions : List EventDecision}
    (present : ∀ decision ∈ decisions, decision.event.id.getD [] ≠ [])
    (known : ∀ decision ∈ decisions, ∃ event ∈ events, event.id = decision.event.id)
    (distinct : (decisions.map fun decision => decision.event.id).Nodup) :
    respondToDecisions calendar events decisions =
      some (events.map (answered calendar decisions)) := by
  induction decisions generalizing events with
  | nil =>
      have same : answered calendar [] = id := rfl
      simp [respondToDecisions, same]
  | cons decision decisions inductionHypothesis =>
      obtain ⟨notLater, laterDistinct⟩ := List.nodup_cons.mp distinct
      unfold respondToDecisions at inductionHypothesis ⊢
      rw [List.foldlM_cons, respondToDecision_eq (present decision List.mem_cons_self)
        (known decision List.mem_cons_self)]
      dsimp only [Option.bind_eq_bind, Option.bind_some]
      rw [inductionHypothesis]
      · rw [List.map_map]
        apply congrArg some
        apply List.map_congr_left
        intro event _
        apply answered_cons
        intro later member equal
        exact notLater (List.mem_map.mpr ⟨later, member, equal⟩)
      · intro later member
        exact present later (List.mem_cons_of_mem _ member)
      · intro later member
        obtain ⟨event, isEvent, isId⟩ := known later (List.mem_cons_of_mem _ member)
        exact ⟨_, List.mem_map_of_mem isEvent, by rw [answered_id, isId]⟩
      · exact laterDistinct

/-! ## Another pass -/

section Again

variable [TimeReaders] [Unicode] {calendar : ReservationCalendar}
  {config : ReservationConfig}

/-- What `list_events` returns is chosen by the times of the events. -/
def inWindow (window : Option EventTime → Option EventTime → Bool) (event : Event) : Bool :=
  window event.start event.finish

omit [TimeReaders] [Unicode] in
theorem inWindow_answered
    (window : Option EventTime → Option EventTime → Bool) (decisions : List EventDecision)
    (event : Event) :
    inWindow window (answered calendar decisions event) = inWindow window event := by
  unfold answered
  split
  · rfl
  · rfl

theorem reservationDecisions_of_settled
    {events : List Event} (settled : ∀ event ∈ events, isPending calendar event = false)
    (read : calendar.checkConflicts = true → ∀ event ∈ events,
      isBlocking calendar event = true →
      ∃ interval, eventIntervalOrNone event config.timezone = some interval) :
    reservationDecisions calendar config events = some [] := by
  have nonePending : ∀ other : Event → Bool,
      (events.filter fun event => isPending calendar event && other event) = [] := by
    intro other
    rw [List.filter_eq_nil_iff]
    intro event member
    simp [settled event member]
  unfold reservationDecisions
  dsimp only
  rw [collectEvents_eq]
  simp only [bookableEvents, domainDecisions, nonePending, List.map_nil]
  cases checks : calendar.checkConflicts with
  | false => rfl
  | true =>
      have each : ∀ event ∈ events.filter (isBlocking calendar), ∃ interval,
          existingInterval config event = some interval ∧ True := by
        intro event member
        obtain ⟨isEvent, blocking⟩ := List.mem_filter.mp member
        obtain ⟨interval, isRead⟩ := read checks event isEvent blocking
        exact ⟨interval.map (event, ·), by rw [existingInterval, isRead]; rfl, trivial⟩
      obtain ⟨existing, isExisting, _⟩ := option_mapM_of_exists each
      simp [isExisting, inTurn]

/-- The times of what blocks a pass can be read, or are known to be malformed. -/
theorem read_of_blocking
    {events : List Event} {decisions : List EventDecision}
    (checks : calendar.checkConflicts = true)
    (decided : reservationDecisions calendar config events = some decisions)
    {event : Event} (member : event ∈ events) (blocking : isBlocking calendar event = true) :
    ∃ interval, eventIntervalOrNone event config.timezone = some interval := by
  obtain ⟨judged, _, how⟩ := reservationDecisions_cases decided
  rcases how with ⟨unchecked, _⟩ | ⟨_, existing, final, isExisting, _⟩
  · rw [checks] at unchecked
    cases unchecked
  · obtain ⟨_, _, isRead⟩ := exists_output_of_forall₂ (option_mapM_eq_some isExisting)
      (List.mem_filter.mpr ⟨member, blocking⟩)
    obtain ⟨interval, isInterval, _⟩ := Option.bind_eq_some_iff.mp isRead
    exact ⟨interval, isInterval⟩

variable {window : Option EventTime → Option EventTime → Bool}
  {events listed : List Event} {decisions : List EventDecision}

/-- A pass decides on pending events of the calendar that it listed. -/
theorem decision_source
    (isListed : listed.Perm (events.filter (inWindow window)))
    (decided : reservationDecisions calendar config listed = some decisions)
    {decision : EventDecision} (isDecision : decision ∈ decisions) :
    decision.event ∈ events ∧ inWindow window decision.event = true ∧
      isPending calendar decision.event = true := by
  have isAnswered := (reservationDecisions_answered decided).1
  obtain ⟨isEvent, pending⟩ :=
    List.mem_filter.mp (isAnswered.mem_iff.mp (List.mem_map_of_mem isDecision))
  obtain ⟨isSource, visible⟩ := List.mem_filter.mp (isListed.mem_iff.mp isEvent)
  exact ⟨isSource, visible, pending⟩

/-- No event of an identified calendar is decided twice. -/
theorem decisions_distinct
    (identified : Identified events)
    (isListed : listed.Perm (events.filter (inWindow window)))
    (decided : reservationDecisions calendar config listed = some decisions) :
    (decisions.map fun decision => decision.event.id).Nodup := by
  have isAnswered := (reservationDecisions_answered decided).1
  have ids : (decisions.map fun decision => decision.event.id) =
      (decisions.map EventDecision.event).map Event.id := by
    rw [List.map_map]
    rfl
  rw [ids]
  apply (isAnswered.map Event.id).nodup_iff.mpr
  have inListing : ((listed.filter (isPending calendar)).map Event.id).Sublist
      (listed.map Event.id) := List.filter_sublist.map _
  apply inListing.nodup
  apply (isListed.map Event.id).nodup_iff.mpr
  exact (List.filter_sublist.map Event.id).nodup identified.distinct

/-- The decision on an event of an identified calendar is the one found by its id. -/
theorem find_decision
    (identified : Identified events)
    (isListed : listed.Perm (events.filter (inWindow window)))
    (decided : reservationDecisions calendar config listed = some decisions)
    {event : Event} (member : event ∈ events) (visible : inWindow window event = true)
    (pending : isPending calendar event = true) :
    ∃ decision ∈ decisions, decision.event = event ∧
      answered calendar decisions event =
        patchEvent (responseEmail calendar event) decision.response.status event := by
  obtain ⟨isAnswered, asAttendee⟩ := reservationDecisions_answered decided
  have isEvent : event ∈ decisions.map EventDecision.event :=
    isAnswered.mem_iff.mpr (List.mem_filter.mpr
      ⟨isListed.mem_iff.mpr (List.mem_filter.mpr ⟨member, visible⟩), pending⟩)
  obtain ⟨decision, isDecision, same⟩ := List.mem_map.mp isEvent
  have some : (decisions.find? fun other =>
      decide (other.event.id = event.id)).isSome = true :=
    List.find?_isSome.mpr ⟨decision, isDecision, decide_eq_true (by rw [same])⟩
  obtain ⟨found, isFound⟩ := Option.isSome_iff_exists.mp some
  have isOther := List.mem_of_find?_eq_some isFound
  have sameId : found.event.id = event.id := by simpa using List.find?_some isFound
  have sameEvent : found.event = event := List.inj_on_of_nodup_map identified.distinct
    (decision_source isListed decided isOther).1 member sameId
  refine ⟨found, isOther, sameEvent, ?_⟩
  unfold answered
  rw [isFound]
  dsimp only
  rw [asAttendee found isOther, sameEvent]
  rfl

/-- An event that no decision is about stays as it is. -/
theorem answered_of_not_decided
    (identified : Identified events)
    (isListed : listed.Perm (events.filter (inWindow window)))
    (decided : reservationDecisions calendar config listed = some decisions)
    {event : Event} (member : event ∈ events)
    (untouched : inWindow window event = false ∨ isPending calendar event = false) :
    answered calendar decisions event = event := by
  have none : (decisions.find? fun other => decide (other.event.id = event.id)) = none := by
    rw [List.find?_eq_none]
    intro other isOther sameId
    obtain ⟨isSource, visible, pending⟩ := decision_source isListed decided isOther
    have same : other.event = event := List.inj_on_of_nodup_map identified.distinct isSource
      member (of_decide_eq_true sameId)
    rw [same] at visible pending
    rcases untouched with outside | settled
    · rw [visible] at outside
      cases outside
    · rw [pending] at settled
      cases settled
  unfold answered
  rw [none]

omit [TimeReaders] [Unicode] in
theorem status_ne_needsAction (response : Response) :
    response.status ≠ needsActionStatus := by
  cases response with
  | accepted => decide
  | declined => decide

theorem isPending_answered
    (identified : Identified events)
    (folds : Unicode.casefold calendar.calendarId ≠ Unicode.casefold [])
    (isListed : listed.Perm (events.filter (inWindow window)))
    (decided : reservationDecisions calendar config listed = some decisions)
    {event : Event} (member : event ∈ events) (visible : inWindow window event = true) :
    isPending calendar (answered calendar decisions event) = false := by
  cases pending : isPending calendar event with
  | false =>
      rw [answered_of_not_decided identified isListed decided member (Or.inr pending), pending]
  | true =>
      obtain ⟨decision, _, _, isPatched⟩ :=
        find_decision identified isListed decided member visible pending
      rw [isPatched, isPending, attendeeStatus_patchEvent pending folds]
      simpa using status_ne_needsAction decision.response

/-- What blocks another pass has times that the pass before it read as well. -/
theorem read_answered
    (identified : Identified events)
    (folds : Unicode.casefold calendar.calendarId ≠ Unicode.casefold [])
    (isListed : listed.Perm (events.filter (inWindow window)))
    (decided : reservationDecisions calendar config listed = some decisions)
    (checks : calendar.checkConflicts = true)
    {event : Event} (member : event ∈ events) (visible : inWindow window event = true)
    (blocking : isBlocking calendar (answered calendar decisions event) = true) :
    ∃ interval, eventIntervalOrNone (answered calendar decisions event) config.timezone =
      some interval := by
  cases pending : isPending calendar event with
  | false =>
      rw [answered_of_not_decided identified isListed decided member (Or.inr pending)]
        at blocking ⊢
      have isListedEvent := isListed.mem_iff.mpr (List.mem_filter.mpr ⟨member, visible⟩)
      exact read_of_blocking checks decided isListedEvent blocking
  | true =>
      obtain ⟨decision, isDecision, same, isPatched⟩ :=
        find_decision identified isListed decided member visible pending
      rw [isPatched] at blocking ⊢
      have status := attendeeStatus_patchEvent pending folds decision.response.status
      cases response : decision.response with
      | declined =>
          rw [response] at blocking status
          unfold isBlocking at blocking
          rw [status] at blocking
          simp [Response.status] at blocking
      | accepted =>
          have sound := reservationDecisions_sound checks decided
          obtain ⟨interval, isRead⟩ := (sound.accepted decision isDecision response).2.1
          rw [same] at isRead
          exact ⟨some interval, eventIntervalOrNone_eq_some_some.mpr isRead⟩

end Again

end ParishKit.Reservations
