import ParishKit.Jobs.AddressRetryOutcome

/-!
# Runs of an address follow-up

Any claims, executions stopped between any two steps, outcomes, scopes and
recoveries. The row and the history of submissions stay in step.
-/

namespace ParishKit.Jobs

open ParishKit.Lib

/-! ## The history -/

/-- The positions that recorded outcomes accepted. -/
def acceptedOf (log : List FollowUpEvent) : List Nat :=
  log.flatMap fun
    | .recorded envelope result => acceptedAt envelope result
    | .submitted _ => []

/-- The positions that recorded outcomes refused for good. -/
def refusedOf (log : List FollowUpEvent) : List Nat :=
  log.flatMap fun
    | .recorded envelope result => permanentAt envelope result
    | .submitted _ => []

theorem acceptedOf_append (first rest : List FollowUpEvent) :
    acceptedOf (first ++ rest) = acceptedOf first ++ acceptedOf rest :=
  List.flatMap_append

theorem refusedOf_append (first rest : List FollowUpEvent) :
    refusedOf (first ++ rest) = refusedOf first ++ refusedOf rest :=
  List.flatMap_append

/-- Every submission was recorded, with an outcome that is certain. -/
inductive Certain : List FollowUpEvent → Prop
  | nil : Certain []
  | attempt {log : List FollowUpEvent} {envelope : List Nat}
      {result : FamilyDeliveryResult} (before : Certain log)
      (certain : result.status ≠ .unknown) :
      Certain (log ++ [.submitted envelope, .recorded envelope result])

/-- No envelope holds a position that an earlier outcome settled, and none is
made while an earlier submission is unrecorded or uncertain. -/
def Unrepeated (positions : List Nat) (log : List FollowUpEvent) : Prop :=
  ∀ earlier envelope rest,
    log = earlier ++ .submitted envelope :: rest →
    Certain earlier ∧ envelope.Nodup ∧ ∀ position ∈ envelope,
      position ∈ positions ∧ position ∉ acceptedOf earlier ∧
        position ∉ refusedOf earlier

theorem unrepeated_nil (positions : List Nat) : Unrepeated positions [] := by
  intro earlier envelope rest split
  simp at split

theorem Unrepeated.concat
    {positions : List Nat} {log : List FollowUpEvent} {event : FollowUpEvent}
    (before : Unrepeated positions log)
    (last : ∀ envelope, event = .submitted envelope →
      Certain log ∧ envelope.Nodup ∧ ∀ position ∈ envelope,
        position ∈ positions ∧ position ∉ acceptedOf log ∧
          position ∉ refusedOf log) :
    Unrepeated positions (log ++ [event]) := by
  intro earlier envelope rest split
  rcases List.eq_nil_or_concat rest with rfl | ⟨more, final, rfl⟩
  · obtain ⟨rfl, isLast⟩ := List.append_inj' split rfl
    exact last envelope (List.cons.inj isLast).1
  · have shorter : log ++ [event] =
        (earlier ++ .submitted envelope :: more) ++ [final] := by
      rw [split]
      simp
    obtain ⟨isLog, _⟩ := List.append_inj' shorter rfl
    exact before earlier envelope more isLog

/-- The history as the row's state tells it. -/
def History (row : AddressRetry) (log : List FollowUpEvent) : Prop :=
  match row.state with
  | .waiting => Certain log
  | .submitting => ∃ done, Certain done ∧ log = done ++ [.submitted row.remaining]
  | .unknown => ∃ done envelope rest, Certain done ∧
      log = done ++ .submitted envelope :: rest ∧
      (rest = [] ∨ ∃ result : FamilyDeliveryResult, result.status = .unknown ∧
        rest = [.recorded envelope result])
  | _ => Certain log

/-! ## The invariant -/

def Execution.key (execution : Execution) : Uuid × Nat :=
  (execution.claim.runId, execution.claim.fence)

/-- The execution that submitted `envelope` and has not recorded an outcome. -/
def Execution.Holds (execution : Execution) (envelope : List Nat) : Prop :=
  match execution.phase with
  | .submitted submitted _ => submitted = envelope
  | .answered submitted _ => submitted = envelope
  | _ => False

structure FollowUpInv (positions : List Nat) (world : FollowUp) : Prop where
  opened : world.row.positions = positions
  distinct : world.row.remaining.Nodup
  within : ∀ position, position ∈ world.row.remaining ∨
    position ∈ world.row.refused ∨ position ∈ acceptedOf world.log →
    position ∈ positions
  places : ∀ position ∈ positions, OneOf (position ∈ world.row.remaining)
    (position ∈ world.row.refused) (position ∈ acceptedOf world.log)
  refusals : ∀ position, position ∈ world.row.refused ↔
    position ∈ refusedOf world.log
  history : History world.row world.log
  unrepeated : Unrepeated positions world.log
  budget : (world.row.attempt : Int) - world.row.spared ≤ maxAttempts
  waits : world.row.state = .waiting →
    (world.row.attempt : Int) - world.row.spared < maxAttempts ∧
      world.row.notBefore < world.row.expiresAt
  scrubbed : world.row.state.active = false →
    world.row.sealedSubstitutions = none ∧ world.row.sealedKeyId = none
  claims : (world.executions.map (·.key)).Nodup
  owner : world.row.state = .submitting → ∃ execution ∈ world.executions,
    world.row.runId = some execution.claim.runId ∧
      world.row.taskFence = some execution.claim.fence ∧
      execution.Holds world.row.remaining

theorem followUpInv_opened (opening : RetryOpening) (tasks : TaskTable) :
    FollowUpInv opening.transient (opening.followUp tasks) where
  opened := rfl
  distinct := opening.distinct
  within := by
    intro position places
    simpa [RetryOpening.followUp, RetryOpening.row, acceptedOf] using places
  places := by
    intro position member
    simp [RetryOpening.followUp, RetryOpening.row, acceptedOf, OneOf, member]
  refusals := by
    intro position
    simp [RetryOpening.followUp, RetryOpening.row, refusedOf]
  history := Certain.nil
  unrepeated := unrepeated_nil _
  budget := by
    simp [RetryOpening.followUp, RetryOpening.row, maxAttempts]
  waits := fun _ =>
    ⟨by simp [RetryOpening.followUp, RetryOpening.row, maxAttempts],
      opening.prompt⟩
  scrubbed := by
    intro ended
    cases ended
  claims := List.nodup_nil
  owner := by
    intro submitting
    cases submitting

/-! ### Steps that leave the row -/

theorem map_key_set
    {executions : List Execution} {index : Nat} {claim : TaskClaim}
    {old new : ExecutionPhase}
    (found : executions[index]? = some ⟨claim, old⟩) :
    (executions.set index ⟨claim, new⟩).map (·.key) =
      executions.map (·.key) := by
  rw [List.map_set]
  refine List.ext_getElem? fun place => ?_
  rw [List.getElem?_set]
  by_cases here : index = place
  · subst here
    obtain ⟨inside, _⟩ := List.getElem?_eq_some_iff.mp found
    rw [if_pos rfl, if_pos (by simpa using inside), List.getElem?_map, found]
    rfl
  · rw [if_neg here]

theorem mem_set_of_mem
    {executions : List Execution} {index : Nat} {old other : Execution}
    (new : Execution) (found : executions[index]? = some old) (member : other ∈ executions) :
    (other = old ∧ new ∈ executions.set index new) ∨
      other ∈ executions.set index new := by
  obtain ⟨place, isAt⟩ := List.mem_iff_getElem?.mp member
  obtain ⟨inside, _⟩ := List.getElem?_eq_some_iff.mp found
  by_cases here : index = place
  · subst here
    exact Or.inl ⟨Option.some.inj (isAt.symm.trans found),
      List.mem_set inside new⟩
  · refine Or.inr (List.mem_iff_getElem?.mpr ⟨place, ?_⟩)
    rw [List.getElem?_set_ne here]
    exact isAt

section Steps

variable {positions : List Nat} {world next : FollowUp}

/-- An execution moves on without touching the row. -/
theorem FollowUpInv.moved
    {index : Nat} {claim : TaskClaim} {old new : ExecutionPhase}
    (kept : FollowUpInv positions world)
    (found : world.executions[index]? = some ⟨claim, old⟩)
    (keeps : ∀ envelope, (⟨claim, old⟩ : Execution).Holds envelope →
      (⟨claim, new⟩ : Execution).Holds envelope) :
    FollowUpInv positions (world.moved index ⟨claim, old⟩ new) where
  opened := kept.opened
  distinct := kept.distinct
  within := kept.within
  places := kept.places
  refusals := kept.refusals
  history := kept.history
  unrepeated := kept.unrepeated
  budget := kept.budget
  waits := kept.waits
  scrubbed := kept.scrubbed
  claims := by
    change ((world.executions.set index ⟨claim, new⟩).map (·.key)).Nodup
    rw [map_key_set found]
    exact kept.claims
  owner := by
    intro submitting
    obtain ⟨execution, member, run, fence, holds⟩ := kept.owner submitting
    rcases mem_set_of_mem ⟨claim, new⟩ found member with
      ⟨rfl, inSet⟩ | inSet
    · exact ⟨⟨claim, new⟩, inSet, run, fence, keeps _ holds⟩
    · exact ⟨execution, inSet, run, fence, holds⟩

theorem FollowUpInv.check
    {index : Nat} {seen : RetryFindings} (kept : FollowUpInv positions world)
    (applied : world.check index seen = some next) :
    FollowUpInv positions next ∧ next.row = world.row ∧
      next.log = world.log := by
  unfold FollowUp.check at applied
  split at applied
  · rename_i claim found
    split at applied
    · cases applied
      exact ⟨kept.moved found fun envelope holds => holds.elim, rfl, rfl⟩
    · cases applied
  · cases applied

theorem FollowUpInv.answer
    {index : Nat} {reply : Option FamilyDeliveryResult} {instant : Int}
    (kept : FollowUpInv positions world)
    (applied : world.answer index reply instant = some next) :
    FollowUpInv positions next ∧ next.row = world.row ∧
      next.log = world.log := by
  unfold FollowUp.answer at applied
  split at applied
  · rename_i claim envelope deadline found
    cases applied
    exact ⟨kept.moved found fun _ holds => holds, rfl, rfl⟩
  · cases applied

theorem FollowUpInv.begin
    {claim : TaskClaim} (kept : FollowUpInv positions world)
    (applied : world.begin claim = some next) :
    FollowUpInv positions next ∧ next.row = world.row ∧
      next.log = world.log := by
  unfold FollowUp.begin at applied
  split at applied
  · cases applied
  · rename_i fresh
    cases applied
    refine ⟨⟨kept.opened, kept.distinct, kept.within, kept.places,
      kept.refusals, kept.history, kept.unrepeated, kept.budget, kept.waits,
      kept.scrubbed, ?_, ?_⟩, rfl, rfl⟩
    · rw [List.map_append, List.nodup_append]
      refine ⟨kept.claims, List.nodup_singleton _, ?_⟩
      intro first firstMember second secondMember
      obtain ⟨execution, member, rfl⟩ := List.mem_map.mp firstMember
      have isClaim : second = (claim.runId, claim.fence) :=
        List.mem_singleton.mp secondMember
      rw [isClaim]
      rintro same
      refine fresh (List.any_eq_true.mpr ⟨execution, member, ?_⟩)
      have parts := Prod.mk.inj same
      simp [parts.1, parts.2]
    · intro submitting
      obtain ⟨execution, member, owns⟩ := kept.owner submitting
      exact ⟨execution, List.mem_append_left _ member, owns⟩

/-- An end that is no outcome leaves the positions and the counts. -/
theorem FollowUpInv.settled
    {state : AddressRetryState} {reason : String} {actor correlation : Uuid}
    {instant : Int} (kept : FollowUpInv positions world)
    (ended : state.active = false)
    (history : History
      ({ world.row with state := state, reason := reason }.change actor
        correlation instant) world.log) :
    FollowUpInv positions { world with
      row := { world.row with state := state, reason := reason }.change actor
        correlation instant } where
  opened := kept.opened
  distinct := kept.distinct
  within := kept.within
  places := kept.places
  refusals := kept.refusals
  history := history
  unrepeated := kept.unrepeated
  budget := kept.budget
  waits := by
    intro waiting
    have isState : state = .waiting := waiting
    rw [isState] at ended
    cases ended
  scrubbed := by
    intro _
    simp [AddressRetry.change, ended]
  claims := kept.claims
  owner := by
    intro submitting
    have isState : state = .submitting := submitting
    rw [isState] at ended
    cases ended

theorem FollowUpInv.endUnsent
    {index : Nat} {seen : RetryFindings} (kept : FollowUpInv positions world)
    (applied : world.endUnsent index seen = some next) :
    FollowUpInv positions next ∧
      ((next.row = world.row ∧ next.log = world.log) ∨
        world.row.state = .waiting ∧ next.row.state.active = false ∧
          next.row.remaining = world.row.remaining ∧ next.log = world.log) := by
  unfold FollowUp.endUnsent at applied
  split at applied
  · rename_i claim reason found
    have moves : FollowUpInv positions
        (world.moved index ⟨claim, .ending reason⟩ .done) :=
      kept.moved found fun envelope holds => holds.elim
    dsimp only at applied
    split_ifs at applied with unowned other unguarded expired
    · cases applied
      exact ⟨moves, Or.inl ⟨rfl, rfl⟩⟩
    · cases applied
      have waiting := not_not.mp other
      have certain : Certain world.log := by
        have history := kept.history
        unfold History at history
        rw [waiting] at history
        exact history
      exact ⟨moves.settled rfl certain, Or.inr ⟨waiting, rfl, rfl, rfl⟩⟩
    · cases applied
      have waiting := not_not.mp other
      have certain : Certain world.log := by
        have history := kept.history
        unfold History at history
        rw [waiting] at history
        exact history
      exact ⟨moves.settled rfl certain, Or.inr ⟨waiting, rfl, rfl, rfl⟩⟩
  · cases applied

theorem FollowUpInv.recoverRetry
    {runId actor : Uuid} {seen : RetryFindings}
    (kept : FollowUpInv positions world)
    (applied : world.recoverRetry runId actor seen = some next) :
    FollowUpInv positions next ∧
      ((next.row = world.row ∧ next.log = world.log) ∨
        world.row.state = .submitting ∧ next.row.state = .unknown ∧
          next.row.remaining = world.row.remaining ∧ next.log = world.log) := by
  unfold FollowUp.recoverRetry at applied
  split at applied
  · cases applied
  · dsimp only at applied
    split_ifs at applied with unbound other unguarded
    · cases applied
      exact ⟨kept, Or.inl ⟨rfl, rfl⟩⟩
    · cases applied
      have submitting : world.row.state = .submitting := by
        by_contra different
        exact other (Or.inr different)
      have history := kept.history
      unfold History at history
      rw [submitting] at history
      obtain ⟨done, certain, isLog⟩ := history
      refine ⟨kept.settled rfl ?_, Or.inr ⟨submitting, rfl, rfl, rfl⟩⟩
      exact ⟨done, world.row.remaining, [], certain, isLog, Or.inl rfl⟩

theorem FollowUpInv.submit
    {index : Nat} {seen : RetryFindings} (kept : FollowUpInv positions world)
    (applied : world.submit index seen = some next) :
    FollowUpInv positions next ∧
      ((next.row = world.row ∧ next.log = world.log) ∨
        world.row.state = .waiting ∧ next.row.state = .submitting ∧
          next.row.remaining = world.row.remaining ∧
          next.log = world.log ++ [.submitted world.row.remaining]) := by
  unfold FollowUp.submit at applied
  split at applied
  · rename_i claim found
    have moves : ∀ phase, FollowUpInv positions
        (world.moved index ⟨claim, .checked⟩ phase) := fun phase =>
      kept.moved found fun envelope holds => holds.elim
    dsimp only at applied
    split_ifs at applied with unowned refused unlinked unprepared
    · cases applied
      exact ⟨moves _, Or.inl ⟨rfl, rfl⟩⟩
    · cases applied
      exact ⟨moves _, Or.inl ⟨rfl, rfl⟩⟩
    · cases applied
      exact ⟨moves _, Or.inl ⟨rfl, rfl⟩⟩
    · cases applied
      have waiting : world.row.state = .waiting := by
        by_contra other
        exact refused (Or.inl other)
      have certain : Certain world.log := by
        have history := kept.history
        unfold History at history
        rw [waiting] at history
        exact history
      have counted := (kept.waits waiting).1
      have accepted : acceptedOf (world.log ++
          [.submitted world.row.remaining]) = acceptedOf world.log := by
        rw [acceptedOf_append]
        exact List.append_nil _
      have permanent : refusedOf (world.log ++
          [.submitted world.row.remaining]) = refusedOf world.log := by
        rw [refusedOf_append]
        exact List.append_nil _
      obtain ⟨inside, _⟩ := List.getElem?_eq_some_iff.mp found
      refine ⟨?_, Or.inr ⟨waiting, rfl, rfl, rfl⟩⟩
      exact
        { opened := kept.opened
          distinct := kept.distinct
          within := by
            rw [accepted]
            exact kept.within
          places := by
            rw [accepted]
            exact kept.places
          refusals := by
            rw [permanent]
            exact kept.refusals
          history := ⟨world.log, certain, rfl⟩
          unrepeated := by
            refine kept.unrepeated.concat fun envelope isEvent => ?_
            cases isEvent
            refine ⟨certain, kept.distinct, fun position member => ?_⟩
            have listed := kept.within position (Or.inl member)
            have place := kept.places position listed
            rcases place with ⟨_, notRefused, notAccepted⟩ | ⟨absent, _⟩ |
              ⟨absent, _⟩
            · exact ⟨listed, notAccepted, fun inLog =>
                notRefused ((kept.refusals position).mpr inLog)⟩
            · exact absurd member absent
            · exact absurd member absent
          budget := by
            change ((world.row.attempt + 1 : Nat) : Int) - world.row.spared ≤
              maxAttempts
            omega
          waits := by
            intro other
            cases other
          scrubbed := by
            intro ended
            cases ended
          claims := by
            change ((world.executions.set index _).map (·.key)).Nodup
            rw [map_key_set found]
            exact kept.claims
          owner := fun _ => ⟨⟨claim, _⟩, List.mem_set inside _, rfl, rfl,
            rfl⟩ }
  · cases applied

/-- The submission that an outcome is recorded for. -/
structure Settling (world next : FollowUp) (claim : TaskClaim)
    (result : FamilyDeliveryResult) (settlement : Settlement) (instant : Int) :
    Prop where
  submitting : world.row.state = .submitting
  settles : Settles world.row result settlement
  row : next.row = (settlement.apply world.row).change claim.workerId
    claim.runId instant
  log : next.log = world.log ++ [.recorded world.row.remaining result]
  executions : (next.executions.map (·.key)).Nodup

/-- An outcome is recorded by the execution that made its envelope. -/
theorem FollowUpInv.settling
    {index : Nat} {seen : RetryFindings} (kept : FollowUpInv positions world)
    (applied : world.settle index seen = some next) :
    ∃ claim result settlement,
      Settling world next claim result settlement seen.instant := by
  unfold FollowUp.settle at applied
  split at applied
  · rename_i claim envelope result found
    dsimp only at applied
    split_ifs at applied with unowned other
    split at applied
    · cases applied
    · rename_i settlement isSettled
      cases applied
      simp only [not_or, not_not] at other
      obtain ⟨submitting, run, fence⟩ := other
      obtain ⟨execution, member, ownRun, ownFence, holds⟩ :=
        kept.owner submitting
      have here := List.mem_of_getElem? found
      have sameKey : execution.key = (⟨claim, .answered envelope result⟩ :
          Execution).key := by
        rw [run] at ownRun
        rw [fence] at ownFence
        exact Prod.ext (Option.some.inj ownRun).symm
          (Option.some.inj ownFence).symm
      have same := List.inj_on_of_nodup_map kept.claims member here sameKey
      subst same
      have isEnvelope : envelope = world.row.remaining := holds
      refine ⟨claim, result, settlement, submitting,
        settled_eq_some isSettled, rfl, ?_, ?_⟩
      · rw [isEnvelope]
      · change ((world.executions.set index _).map (·.key)).Nodup
        rw [map_key_set found]
        exact kept.claims
  · cases applied

theorem FollowUpInv.settle
    {claim : TaskClaim} {result : FamilyDeliveryResult}
    {settlement : Settlement} {instant : Int}
    (kept : FollowUpInv positions world)
    (made : Settling world next claim result settlement instant) :
    FollowUpInv positions next := by
  have settles := made.settles
  have history := kept.history
  unfold History at history
  rw [made.submitting] at history
  obtain ⟨done, certain, isLog⟩ := history
  have remaining : next.row.remaining = settlement.remaining := by
    rw [made.row]
    rfl
  have refused : next.row.refused = settlement.refused := by
    rw [made.row]
    rfl
  have state : next.row.state = settlement.state := by
    rw [made.row]
    rfl
  have accepted : acceptedOf next.log =
      acceptedOf world.log ++ acceptedAt world.row.remaining result := by
    rw [made.log, acceptedOf_append]
    congr 1
    exact List.append_nil _
  have permanent : refusedOf next.log =
      refusedOf world.log ++ permanentAt world.row.remaining result := by
    rw [made.log, refusedOf_append]
    congr 1
    exact List.append_nil _
  exact
    { opened := by
        rw [made.row]
        exact kept.opened
      distinct := by
        rw [remaining]
        exact settles.distinct kept.distinct
      within := by
        intro position places
        rw [remaining, refused, accepted, List.mem_append,
          settles.refused] at places
        rcases places with still | (before | now) | before | now
        · exact kept.within position (Or.inl (settles.shrinks position still))
        · exact kept.within position (Or.inr (Or.inl before))
        · exact kept.within position (Or.inl (mem_of_positionsAt now))
        · exact kept.within position (Or.inr (Or.inr before))
        · exact kept.within position (Or.inl (mem_of_acceptedAt now))
      places := by
        intro position member
        rw [remaining, refused, accepted, List.mem_append, settles.refused]
        have before := kept.places position member
        by_cases inEnvelope : position ∈ world.row.remaining
        · have now := settles.places kept.distinct position inEnvelope
          unfold OneOf at before now ⊢
          tauto
        · have notStill : position ∉ settlement.remaining := fun still =>
            inEnvelope (settles.shrinks position still)
          have notRefused : position ∉ permanentAt world.row.remaining result :=
            fun now => inEnvelope (mem_of_positionsAt now)
          have notAccepted : position ∉ acceptedAt world.row.remaining result :=
            fun now => inEnvelope (mem_of_acceptedAt now)
          unfold OneOf at before ⊢
          tauto
      refusals := by
        intro position
        rw [refused, permanent, List.mem_append, settles.refused,
          kept.refusals]
      history := by
        have split : next.log = done ++ [.submitted world.row.remaining,
            .recorded world.row.remaining result] := by
          rw [made.log, isLog, List.append_assoc]
          rfl
        have sure : settlement.state ≠ .unknown → Certain next.log := by
          intro known
          rw [split]
          exact certain.attempt fun unknown =>
            known (settles.uncertain.mpr unknown)
        unfold History
        rw [state]
        cases isState : settlement.state with
        | waiting => exact sure (by simp [isState])
        | finished => exact sure (by simp [isState])
        | failed => exact sure (by simp [isState])
        | cancelled => exact sure (by simp [isState])
        | submitting => exact absurd isState settles.settles
        | unknown =>
            exact ⟨done, world.row.remaining, _, certain, split,
              Or.inr ⟨result, settles.uncertain.mp isState, rfl⟩⟩
      unrepeated := by
        rw [made.log]
        refine kept.unrepeated.concat fun envelope isEvent => ?_
        cases isEvent
      budget := by
        have before := kept.budget
        have grown := settles.spared
        rw [made.row]
        change (world.row.attempt : Int) - settlement.spared ≤ maxAttempts
        omega
      waits := by
        rw [state]
        intro waiting
        obtain ⟨counted, next, isNext, early⟩ := settles.waits waiting
        rw [made.row]
        refine ⟨counted, ?_⟩
        change settlement.notBefore.getD world.row.notBefore <
          world.row.expiresAt
        rw [isNext]
        exact early
      scrubbed := by
        rw [state, made.row]
        intro ended
        have isEnded : (settlement.apply world.row).state.active = false :=
          ended
        simp [AddressRetry.change, isEnded]
      claims := made.executions
      owner := by
        rw [state]
        exact fun submitting => absurd submitting settles.settles }

end Steps

end ParishKit.Jobs
