import ParishKit.Lib.Except

/-!
# Forward passes

Events in order are taken in once, each before the first deadline it is due by.
What a report sees at a deadline is what all events due by it give.
-/

namespace ParishKit.Lib

variable {Day Deadline Event State Result Raised : Type}

/-- The events due, taken in one after another, and the ones still pending. -/
def advance (due : Event → Bool) (record : State → Event → State) :
    List Event → State → List Event × State
  | [], state => ([], state)
  | event :: rest, state =>
      if due event then advance due record rest (record state event)
      else (event :: rest, state)

/-- Each day's report, of the events due by its deadline. -/
def forwardPass (read : Day → Except Raised Deadline) (due : Deadline → Event → Bool)
    (record : State → Event → State)
    (report : Day → Deadline → State → Except Raised Result) :
    List Day → List Event → State → Except Raised (List Result)
  | [], _, _ => pure []
  | day :: rest, events, state => do
      let deadline ← read day
      let next := advance (due deadline) record events state
      let result ← report day deadline next.2
      let later ← forwardPass read due record report rest next.1 next.2
      pure (result :: later)

/-- A day's report from scratch. -/
def reportAt (read : Day → Except Raised Deadline) (due : Deadline → Event → Bool)
    (record : State → Event → State)
    (report : Day → Deadline → State → Except Raised Result) (events : List Event)
    (state : State) (day : Day) : Except Raised Result := do
  let deadline ← read day
  report day deadline ((events.filter (due deadline)).foldl record state)

/-- An event is due before every later one. -/
def DueInOrder (due : Event → Bool) (events : List Event) : Prop :=
  events.Pairwise fun sooner later => due later = true → due sooner = true

theorem advance_eq
    {due : Event → Bool} {record : State → Event → State} {events : List Event}
    (inOrder : DueInOrder due events) (state : State) :
    ∃ pending, (advance due record events state).1 = pending ∧
      events = events.filter due ++ pending ∧
      (advance due record events state).2 = (events.filter due).foldl record state := by
  induction events generalizing state with
  | nil => exact ⟨[], rfl, rfl, rfl⟩
  | cons event events inductionHypothesis =>
      obtain ⟨sooner, restInOrder⟩ := List.pairwise_cons.mp inOrder
      rw [advance]
      by_cases isDue : due event = true
      · rw [if_pos isDue, List.filter_cons_of_pos isDue]
        obtain ⟨pending, isPending, isSplit, isState⟩ :=
          inductionHypothesis restInOrder (record state event)
        exact ⟨pending, isPending, congrArg (event :: ·) isSplit, isState⟩
      · rw [if_neg isDue]
        have noneDue : (event :: events).filter due = [] := by
          rw [List.filter_eq_nil_iff]
          intro other member otherDue
          rcases List.mem_cons.mp member with rfl | later
          · exact isDue otherDue
          · exact isDue (sooner other later otherDue)
        rw [noneDue]
        exact ⟨event :: events, rfl, rfl, rfl⟩

variable {read : Day → Except Raised Deadline} {due : Deadline → Event → Bool}
  {record : State → Event → State}
  {report : Day → Deadline → State → Except Raised Result}

/-- What was due by an earlier day's deadline is due by a later one's. -/
def Forward (read : Day → Except Raised Deadline) (due : Deadline → Event → Bool)
    (days : List Day) : Prop :=
  days.Pairwise fun sooner later => ∀ first second, read sooner = .ok first →
    read later = .ok second → ∀ event, due first event = true → due second event = true

/-- The pass from the events so far on: those taken in are due by every later
deadline. -/
theorem forwardPass_eq_from
    {days : List Day} (forward : Forward read due days)
    {taken pending : List Event}
    (inOrder : ∀ deadline, DueInOrder (due deadline) (taken ++ pending))
    (stillDue : ∀ day ∈ days, ∀ deadline, read day = .ok deadline →
      ∀ event ∈ taken, due deadline event = true)
    (state : State) :
    forwardPass read due record report days pending (taken.foldl record state) =
      days.mapM (reportAt read due record report (taken ++ pending) state) := by
  induction days generalizing taken pending with
  | nil => rfl
  | cons day days inductionHypothesis =>
      obtain ⟨ahead, restForward⟩ := List.pairwise_cons.mp forward
      rw [forwardPass, List.mapM_cons, reportAt]
      cases isRead : read day with
      | error raised => rfl
      | ok deadline =>
          have allTaken : taken.filter (due deadline) = taken :=
            List.filter_eq_self.mpr
              (stillDue day List.mem_cons_self deadline isRead)
          have pendingInOrder := (List.pairwise_append.mp (inOrder deadline)).2.1
          obtain ⟨later, isLater, isSplit, isState⟩ := advance_eq pendingInOrder
            (taken.foldl record state)
          have isSame : taken ++ pending =
              (taken ++ pending.filter (due deadline)) ++ later := by
            rw [List.append_assoc, ← isSplit]
          rw [← List.foldl_append] at isState
          have newDue : ∀ other ∈ days, ∀ second, read other = .ok second →
              ∀ event ∈ taken ++ pending.filter (due deadline),
                due second event = true := by
            intro other member second isSecond event isEvent
            rcases List.mem_append.mp isEvent with isTaken | isNew
            · exact stillDue other (List.mem_cons_of_mem _ member) second isSecond event
                isTaken
            · exact ahead other member deadline second isRead isSecond event
                (List.mem_filter.mp isNew).2
          have rest := inductionHypothesis restForward
            (fun other => isSame ▸ inOrder other) newDue
          rw [← isSame] at rest
          have allDue : (taken ++ pending).filter (due deadline) =
              taken ++ pending.filter (due deadline) := by
            rw [List.filter_append, allTaken]
          rw [except_ok_bind, except_ok_bind]
          dsimp only
          rw [isLater, isState, allDue, rest]

/-- Taking the events in once gives every day what it gives from scratch. -/
theorem forwardPass_eq
    {days : List Day} (forward : Forward read due days) {events : List Event}
    (inOrder : ∀ deadline, DueInOrder (due deadline) events) (state : State) :
    forwardPass read due record report days events state =
      days.mapM (reportAt read due record report events state) := by
  have noneTaken : ∀ day ∈ days, ∀ deadline, read day = .ok deadline →
      ∀ event ∈ ([] : List Event), due deadline event = true := by
    intro _ _ _ _ event isEvent
    cases isEvent
  have inOrderFrom : ∀ deadline, DueInOrder (due deadline) ([] ++ events) := inOrder
  exact forwardPass_eq_from forward inOrderFrom noneTaken state

end ParishKit.Lib
