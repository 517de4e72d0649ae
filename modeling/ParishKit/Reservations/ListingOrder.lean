import ParishKit.Lib.Records
import ParishKit.Reservations.Decisions

/-!
# The order of the listing

Which pending events are accepted does not depend on the order in which the provider
lists the events, as long as no two requests were created at one time.
-/

namespace ParishKit.Reservations

open ParishKit.Lib
open ParishKit.Responses (Unicode)

variable [TimeReaders] {config : ReservationConfig}

/-- Decisions that differ at most in the event that a decline names. -/
def SameAnswer (first second : EventDecision) : Prop :=
  first.event = second.event ∧ first.response = second.response ∧
    first.attendeeEmail = second.attendeeEmail

omit [TimeReaders] in
theorem map_answer_of_sameAnswer
    {decisions others : List EventDecision}
    (same : List.Forall₂ SameAnswer decisions others) :
    (decisions.map fun decision => (decision.event, decision.response)) =
      others.map fun decision => (decision.event, decision.response) := by
  induction same with
  | nil => rfl
  | cons isSame _ inductionHypothesis =>
      rw [List.map_cons, List.map_cons, inductionHypothesis, isSame.1, isSame.2.1]

/-- A judgement depends on which holders there are, not on their order. -/
theorem judgePending_perm
    {held other added : List (Event × Interval)} {pending : Event × Text}
    {decision : EventDecision} (perm : held.Perm other)
    (judged : judgePending config held pending = some (decision, added)) :
    ∃ decision' added', judgePending config other pending = some (decision', added') ∧
      SameAnswer decision decision' ∧ (held ++ added).Perm (other ++ added') := by
  obtain ⟨read, isRead, judged⟩ := Option.bind_eq_some_iff.mp judged
  cases read with
  | none =>
      cases judged
      exact ⟨malformedTimeDecision pending.1 pending.2, [],
        by rw [judgePending, isRead]; rfl, ⟨rfl, rfl, rfl⟩, perm.append_right []⟩
  | some interval =>
      dsimp only at judged
      split at judged
      case h_1 conflict isFound =>
        cases judged
        have holds := List.mem_of_find?_eq_some isFound
        have overlap : intervalsOverlap interval conflict.2 = true := by
          simpa using List.find?_some isFound
        have some : (other.find? fun holder =>
            intervalsOverlap interval holder.2).isSome = true :=
          List.find?_isSome.mpr ⟨conflict, perm.mem_iff.mp holds, overlap⟩
        obtain ⟨found, isOther⟩ := Option.isSome_iff_exists.mp some
        refine ⟨conflictDecision found.1 pending.1 pending.2, [], ?_, ⟨rfl, rfl, rfl⟩,
          perm.append_right []⟩
        rw [judgePending, isRead]
        simp only [Option.bind_eq_bind, Option.bind_some, isOther]
      case h_2 noneFound =>
        cases judged
        have noOther : (other.find? fun holder => intervalsOverlap interval holder.2) =
            none := by
          rw [List.find?_eq_none] at noneFound ⊢
          intro holder member
          exact noneFound holder (perm.mem_iff.mpr member)
        refine ⟨acceptedDecision pending.1 pending.2, _, ?_, ⟨rfl, rfl, rfl⟩,
          perm.append_right _⟩
        rw [judgePending, isRead]
        simp only [Option.bind_eq_bind, Option.bind_some, noOther]

variable [Unicode] {calendar : ReservationCalendar}

omit [TimeReaders] in
theorem bookableEvents_perm
    {events others : List Event} (perm : events.Perm others) :
    (bookableEvents calendar config events).Perm (bookableEvents calendar config others) :=
  (perm.filter _).map _

omit [TimeReaders] in
theorem insertionSort_bookableEvents
    {events others : List Event} (perm : events.Perm others)
    (distinct : ((bookableEvents calendar config events).map fun pending =>
      pending.1.created.getD []).Nodup) :
    (bookableEvents calendar config events).insertionSort createdOrder =
      (bookableEvents calendar config others).insertionSort createdOrder := by
  have total : Std.Total createdOrder :=
    ⟨fun left right => le_total (left.1.created.getD []) (right.1.created.getD [])⟩
  have transitive : IsTrans (Event × Text) createdOrder :=
    ⟨fun _ _ _ first second => le_trans first second⟩
  exact insertionSort_perm distinct (fun _ _ le ge => le_antisymm le ge)
    (bookableEvents_perm perm)

/-- Another listing of the same events gets every event the same response. -/
theorem reservationDecisions_perm
    {events others : List Event} {decisions : List EventDecision} (perm : events.Perm others)
    (distinct : ((bookableEvents calendar config events).map fun pending =>
      pending.1.created.getD []).Nodup)
    (decided : reservationDecisions calendar config events = some decisions) :
    ∃ found, reservationDecisions calendar config others = some found ∧
      (decisions.map fun decision => (decision.event, decision.response)).Perm
        (found.map fun decision => (decision.event, decision.response)) := by
  obtain ⟨judged, rfl, how⟩ := reservationDecisions_cases decided
  have unbookable : (domainDecisions calendar config events).Perm
      (domainDecisions calendar config others) := (perm.filter _).map _
  unfold reservationDecisions
  dsimp only
  rw [collectEvents_eq]
  rcases how with ⟨unchecked, isJudged⟩ | ⟨checks, existing, final, isExisting, isJudged⟩
  · obtain ⟨found, isFound, samePerm⟩ :=
      option_mapM_perm (bookableEvents_perm perm) isJudged
    refine ⟨domainDecisions calendar config others ++ found, ?_, ?_⟩
    · rw [unchecked, Bool.not_false, if_pos rfl]
      simp [isFound]
    · exact (unbookable.append samePerm).map _
  · obtain ⟨otherExisting, isOther, existingPerm⟩ :=
      option_mapM_perm (perm.filter (isBlocking calendar)) isExisting
    have holders : existing.reduceOption.Perm otherExisting.reduceOption :=
      existingPerm.filterMap id
    rw [insertionSort_bookableEvents perm distinct] at isJudged
    have agree : ∀ held other pending decision added, held.Perm other →
        judgePending config held pending = some (decision, added) →
        ∃ decision' added', judgePending config other pending = some (decision', added') ∧
          SameAnswer decision decision' ∧ (held ++ added).Perm (other ++ added') := by
      intro held other pending decision added heldPerm next
      exact judgePending_perm heldPerm next
    obtain ⟨found, held, isFound, same⟩ := inTurn_related holders agree isJudged
    refine ⟨domainDecisions calendar config others ++ found, ?_, ?_⟩
    · rw [checks, Bool.not_true, if_neg Bool.false_ne_true]
      simp [isOther, isFound]
    · rw [List.map_append, List.map_append, map_answer_of_sameAnswer same]
      exact (unbookable.map _).append_right _

omit [TimeReaders] [Unicode] in
theorem hall_perm :
    ∃ decisions found, @reservationDecisions dateReaders Responses.asciiUnicode hall
        hallConfig [firstRequest, secondRequest] = some decisions ∧
      @reservationDecisions dateReaders Responses.asciiUnicode hall hallConfig
        [secondRequest, firstRequest] = some found ∧
      (decisions.map fun decision => (decision.event, decision.response)).Perm
        (found.map fun decision => (decision.event, decision.response)) := by
  obtain ⟨decisions, decided, _⟩ := hall_sound
  obtain ⟨found, isFound, perm⟩ := @reservationDecisions_perm dateReaders _
    Responses.asciiUnicode _ _ _ _ (List.Perm.swap secondRequest firstRequest [])
    (by decide) decided
  exact ⟨decisions, found, decided, isFound, perm⟩

end ParishKit.Reservations
