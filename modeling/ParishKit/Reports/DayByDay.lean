import Mathlib.Algebra.Order.BigOperators.Group.Finset
import ParishKit.Lib.Records
import ParishKit.Reports.Calculations

/-!
# Day by day

The pass over the versions gives each day the fact it has from scratch, and the
order of the inputs does not matter.
-/

namespace ParishKit.Reports

open ParishKit.Lib
open ParishKit.Campaigns (LocalDayInterval ZoneInfo dayLength resolveLocal_mono)

variable {Family : Type} [DecidableEq Family]

/-! ## Versions -/

omit [DecidableEq Family] in
theorem lowest_append_singleton
    (versions : List (LiveResponse Family)) (response : LiveResponse Family) :
    lowest (versions ++ [response]) =
      match lowest versions with
      | some prior => if response.sequence < prior.sequence then some response else some prior
      | none => some response := by
  unfold lowest
  rw [greatest?_append_singleton]
  cases greatest? _ versions with
  | none => rfl
  | some prior => simp only [decide_eq_true_eq]

omit [DecidableEq Family] in
theorem highest_append_singleton
    (versions : List (LiveResponse Family)) (response : LiveResponse Family) :
    highest (versions ++ [response]) =
      match highest versions with
      | some prior => if prior.sequence < response.sequence then some response else some prior
      | none => some response := by
  unfold highest
  rw [greatest?_append_singleton]
  cases greatest? _ versions with
  | none => rfl
  | some prior => simp only [decide_eq_true_eq]

omit [DecidableEq Family] in
theorem lowest_eq_some
    {versions : List (LiveResponse Family)} {response : LiveResponse Family}
    (found : lowest versions = some response) :
    response ∈ versions ∧ ∀ other ∈ versions, response.sequence ≤ other.sequence := by
  obtain ⟨member, least⟩ := greatest?_eq_some_of
    (fun response : LiveResponse Family => -(response.sequence : Int))
    (fun left right below => by
      have isBelow := of_decide_eq_true below
      omega)
    (fun left right notBelow => by
      have isNotBelow := of_decide_eq_false notBelow
      omega) found
  refine ⟨member, fun other isOther => ?_⟩
  have atLeast := least other isOther
  omega

omit [DecidableEq Family] in
theorem lowest_perm
    {versions others : List (LiveResponse Family)} (perm : versions.Perm others)
    (distinct : ∀ left ∈ versions, ∀ right ∈ versions,
      left.sequence = right.sequence → left = right) :
    lowest versions = lowest others :=
  greatest?_perm (fun response : LiveResponse Family => -(response.sequence : Int))
    (fun left right below => by
      have isBelow := of_decide_eq_true below
      omega)
    (fun left right notBelow => by
      have isNotBelow := of_decide_eq_false notBelow
      omega) perm
    (fun left isLeft right isRight same => distinct left isLeft right isRight (by omega))

omit [DecidableEq Family] in
theorem highest_perm
    {versions others : List (LiveResponse Family)} (perm : versions.Perm others)
    (distinct : ∀ left ∈ versions, ∀ right ∈ versions,
      left.sequence = right.sequence → left = right) :
    highest versions = highest others :=
  greatest?_perm (fun response : LiveResponse Family => (response.sequence : Int))
    (fun left right below => by
      have isBelow := of_decide_eq_true below
      omega)
    (fun left right notBelow => by
      have isNotBelow := of_decide_eq_false notBelow
      omega) perm
    (fun left isLeft right isRight same => distinct left isLeft right isRight (by omega))

/-- A Family's versions among some. -/
def ofFamily (family : Family) (versions : List (LiveResponse Family)) :
    List (LiveResponse Family) :=
  versions.filter fun response => decide (response.familyId = family)

theorem record_self (versions : Versions Family) (response : LiveResponse Family) :
    (versions.record response).first response.familyId =
        (match versions.first response.familyId with
        | some prior =>
            if response.sequence < prior.sequence then some response else some prior
        | none => some response) ∧
      (versions.record response).latest response.familyId =
        match versions.latest response.familyId with
        | some prior =>
            if prior.sequence < response.sequence then some response else some prior
        | none => some response := by
  unfold Versions.record
  constructor
  · cases isPrior : versions.first response.familyId with
    | none => exact Function.update_self _ _ _
    | some prior =>
        dsimp only
        split
        · exact Function.update_self _ _ _
        · exact isPrior
  · cases isPrior : versions.latest response.familyId with
    | none => exact Function.update_self _ _ _
    | some prior =>
        dsimp only
        split
        · exact Function.update_self _ _ _
        · exact isPrior

theorem record_other
    (versions : Versions Family) {response : LiveResponse Family} {family : Family}
    (other : family ≠ response.familyId) :
    (versions.record response).first family = versions.first family ∧
      (versions.record response).latest family = versions.latest family := by
  unfold Versions.record
  constructor
  · cases versions.first response.familyId with
    | none => exact Function.update_of_ne other _ _
    | some prior =>
        dsimp only
        split
        · exact Function.update_of_ne other _ _
        · rfl
  · cases versions.latest response.familyId with
    | none => exact Function.update_of_ne other _ _
    | some prior =>
        dsimp only
        split
        · exact Function.update_of_ne other _ _
        · rfl

/-- What has been taken in: the lowest and the highest version of each Family. -/
theorem foldl_record (events : List (LiveResponse Family)) (family : Family) :
    (events.foldl Versions.record Versions.none).first family =
        lowest (ofFamily family events) ∧
      (events.foldl Versions.record Versions.none).latest family =
        highest (ofFamily family events) := by
  induction events using List.reverseRecOn with
  | nil => exact ⟨rfl, rfl⟩
  | append_singleton events response inductionHypothesis =>
      obtain ⟨isFirst, isLatest⟩ := inductionHypothesis
      have taken : ofFamily family (events ++ [response]) =
          ofFamily family events ++ ofFamily family [response] :=
        List.filter_append _ _
      rw [List.foldl_append, List.foldl_cons, List.foldl_nil, taken]
      by_cases same : response.familyId = family
      · have isOne : ofFamily family [response] = [response] :=
          List.filter_cons_of_pos (decide_eq_true same)
        obtain ⟨nextFirst, nextLatest⟩ :=
          record_self (events.foldl Versions.record Versions.none) response
        rw [same] at nextFirst nextLatest
        rw [isOne, lowest_append_singleton, highest_append_singleton, ← isFirst,
          ← isLatest]
        exact ⟨nextFirst, nextLatest⟩
      · have isNone : ofFamily family [response] = [] :=
          List.filter_cons_of_neg (by simpa using same)
        obtain ⟨nextFirst, nextLatest⟩ :=
          record_other (events.foldl Versions.record Versions.none)
            (fun equal => same equal.symm)
        rw [isNone, List.append_nil, ← isFirst, ← isLatest]
        exact ⟨nextFirst, nextLatest⟩

/-! ## Complete inputs -/

/-- What the checks of the inputs give. -/
structure Calculation.Complete (inputs : Calculation Family) : Prop where
  generations : (inputs.promotions.map Promotion.generation).Nodup
  sequences : (inputs.responses.map LiveResponse.sequence).Nodup
  chronology : ∀ earlier ∈ inputs.responses, ∀ later ∈ inputs.responses,
    earlier.familyId = later.familyId → earlier.sequence < later.sequence →
      earlier.submittedAt ≤ later.submittedAt

theorem checkChronology_ok
    {versions : List (LiveResponse Family)} {latestInstants : Family → Option Int}
    (checked : checkChronology versions latestInstants = .ok ()) :
    (∀ response ∈ versions, ∀ prior ∈ latestInstants response.familyId,
        prior ≤ response.submittedAt) ∧
      versions.Pairwise fun earlier later =>
        earlier.familyId = later.familyId → earlier.submittedAt ≤ later.submittedAt := by
  induction versions generalizing latestInstants with
  | nil => exact ⟨fun response member => (by cases member), List.Pairwise.nil⟩
  | cons response rest inductionHypothesis =>
      have ordered : (∀ prior ∈ latestInstants response.familyId,
          prior ≤ response.submittedAt) ∧
          checkChronology rest (Function.update latestInstants response.familyId
            (some response.submittedAt)) = .ok () := by
        rw [checkChronology] at checked
        split at checked
        · rename_i prior isPrior
          split at checked
          · cases checked
          · rename_i notBefore
            refine ⟨fun other isOther => ?_, checked⟩
            rw [isPrior] at isOther
            cases isOther
            exact Int.not_lt.mp notBefore
        · rename_i isNone
          refine ⟨fun other isOther => ?_, checked⟩
          rw [isNone] at isOther
          cases isOther
      obtain ⟨atFirst, restChecked⟩ := ordered
      obtain ⟨after, pairwise⟩ := inductionHypothesis restChecked
      have afterFirst : ∀ later ∈ rest, response.familyId = later.familyId →
          response.submittedAt ≤ later.submittedAt := by
        intro later member same
        refine after later member _ ?_
        rw [← same, Function.update_self]
        rfl
      refine ⟨fun other member prior isPrior => ?_,
        List.pairwise_cons.mpr ⟨afterFirst, pairwise⟩⟩
      rcases List.mem_cons.mp member with rfl | later
      · exact atFirst prior isPrior
      · by_cases same : response.familyId = other.familyId
        · rw [← same] at isPrior
          exact Int.le_trans (atFirst prior isPrior) (afterFirst other later same)
        · refine after other later prior ?_
          rw [Function.update_of_ne fun equal => same equal.symm]
          exact isPrior

theorem Calculation.complete
    {inputs : Calculation Family} {timezone : ZoneInfo}
    (valid : inputs.postInit timezone = .ok ()) : inputs.Complete := by
  unfold Calculation.postInit at valid
  dsimp only at valid
  split at valid
  · cases valid
  obtain ⟨days, _, afterDays⟩ := except_bind_eq_ok valid
  obtain ⟨started, _, afterStart⟩ := except_bind_eq_ok afterDays
  split at afterStart
  · cases afterStart
  rename_i distinct
  split at afterStart
  · cases afterStart
  obtain ⟨generations, _, sequences⟩ := not_not.mp distinct
  have inOrder := List.pairwise_insertionSort
    (fun left right : LiveResponse Family => left.sequence ≤ right.sequence)
    inputs.responses
  have chronological := (checkChronology_ok afterStart).2
  -- Of two versions the sorted list has either one first.
  have each := List.Pairwise.forall_of_forall_of_flip
    (R := fun earlier later : LiveResponse Family =>
      earlier.familyId = later.familyId → earlier.sequence < later.sequence →
        earlier.submittedAt ≤ later.submittedAt)
    (fun _ _ _ less => absurd less (Nat.lt_irrefl _))
    (chronological.imp fun ordered same _ => ordered same)
    (inOrder.imp fun le _ less => absurd less (Nat.not_lt.mpr le))
  refine ⟨generations, sequences, fun earlier isEarlier later isLater => ?_⟩
  exact each ((List.mem_insertionSort _).mpr isEarlier)
    ((List.mem_insertionSort _).mpr isLater)

omit [DecidableEq Family] in
/-- Versions are known by their sequences. -/
theorem Calculation.Complete.eq_of_sequence
    {inputs : Calculation Family} (complete : inputs.Complete) :
    ∀ left ∈ inputs.responses, ∀ right ∈ inputs.responses,
      left.sequence = right.sequence → left = right :=
  fun _ isLeft _ isRight same =>
    List.inj_on_of_nodup_map complete.sequences isLeft isRight same

/-! ## The order of submission -/

instance : Std.Total (@submissionOrder Family) where
  total left right := by
    unfold submissionOrder
    omega

instance : IsTrans (LiveResponse Family) submissionOrder where
  trans left middle right := by
    unfold submissionOrder
    omega

omit [DecidableEq Family] in
theorem submitted_le {left right : LiveResponse Family} (ordered : submissionOrder left right) :
    left.submittedAt ≤ right.submittedAt := by
  unfold submissionOrder at ordered
  omega

omit [DecidableEq Family] in
/-- Sorted by submission, the versions submitted before an instant come first. -/
theorem dueInOrder (responses : List (LiveResponse Family)) (stop : Int) :
    DueInOrder (fun response => decide (response.submittedAt < stop))
      (responses.insertionSort submissionOrder) :=
  (List.pairwise_insertionSort submissionOrder responses).imp fun ordered isDue => by
    have le := submitted_le ordered
    have before := of_decide_eq_true isDue
    exact decide_eq_true (by omega)

omit [DecidableEq Family] in
/-- The sorted versions do not depend on the order they are given in. -/
theorem sorted_perm
    {inputs : Calculation Family} (complete : inputs.Complete)
    {responses : List (LiveResponse Family)} (perm : responses.Perm inputs.responses) :
    responses.insertionSort submissionOrder =
      inputs.responses.insertionSort submissionOrder := by
  symm
  apply insertionSort_perm complete.sequences _ perm.symm
  intro left right le ge
  unfold submissionOrder at le ge
  omega

/-! ## Days in order -/

theorem expectedDates_ascend
    {start stop through : Int} {days : List Int}
    (expected : expectedDates start stop through = .ok days) : days.Pairwise (· < ·) := by
  unfold expectedDates at expected
  split at expected
  · cases expected
  · split at expected
    · cases expected
      exact List.Pairwise.nil
    · cases expected
      rw [List.pairwise_map]
      exact List.pairwise_lt_range.imp fun less => by omega

omit [DecidableEq Family] in
/-- A later day does not end before an earlier one. -/
theorem localDay_forward
    (zone : Zone) {days : List Int} (ascending : days.Pairwise (· < ·)) :
    Forward (ZoneInfo.of zone).localDay
      (fun found (response : LiveResponse Family) =>
        decide (response.submittedAt < found.interval.stop)) days :=
  ascending.imp fun {sooner later} less first second isFirst isSecond response isDue => by
    have before := of_decide_eq_true isDue
    have firstStop := (ZoneInfo.localDay_ok isFirst).2
    have secondStop := (ZoneInfo.localDay_ok isSecond).2
    have ends : (sooner + 1) * dayLength ≤ (later + 1) * dayLength := by
      unfold dayLength
      omega
    have le := resolveLocal_mono zone ends
    exact decide_eq_true (by omega)

/-! ## One day -/

/-- A Family's versions submitted before an instant. -/
def Calculation.versionsBefore (inputs : Calculation Family) (family : Family) (stop : Int) :
    List (LiveResponse Family) :=
  (inputs.versionsOf family).filter fun response => decide (response.submittedAt < stop)

/-- The versions taken in by a day's end. -/
def Calculation.taken (inputs : Calculation Family) (stop : Int) : Versions Family :=
  (((inputs.responses.insertionSort submissionOrder).filter fun response =>
    decide (response.submittedAt < stop)).foldl Versions.record Versions.none)

variable {inputs : Calculation Family} {family : Family} {stop : Int}

theorem mem_versionsOf {response : LiveResponse Family}
    (member : response ∈ inputs.versionsOf family) :
    response ∈ inputs.responses ∧ response.familyId = family :=
  ⟨(List.mem_filter.mp member).1, of_decide_eq_true (List.mem_filter.mp member).2⟩

theorem perm_versionsBefore (inputs : Calculation Family) (family : Family) (stop : Int) :
    (ofFamily family ((inputs.responses.insertionSort submissionOrder).filter fun response =>
      decide (response.submittedAt < stop))).Perm (inputs.versionsBefore family stop) := by
  unfold ofFamily Calculation.versionsBefore Calculation.versionsOf
  rw [List.filter_filter, List.filter_filter]
  refine ((List.perm_insertionSort _ _).filter _).trans (List.Perm.of_eq ?_)
  exact List.filter_congr fun response _ => Bool.and_comm _ _

theorem taken_first (complete : inputs.Complete) (family : Family) (stop : Int) :
    (inputs.taken stop).first family = lowest (inputs.versionsBefore family stop) := by
  unfold Calculation.taken
  rw [(foldl_record _ family).1]
  have perm := perm_versionsBefore inputs family stop
  refine lowest_perm perm fun left isLeft right isRight => ?_
  exact complete.eq_of_sequence left
    (mem_versionsOf (List.mem_filter.mp (perm.mem_iff.mp isLeft)).1).1 right
    (mem_versionsOf (List.mem_filter.mp (perm.mem_iff.mp isRight)).1).1

theorem taken_latest (complete : inputs.Complete) (family : Family) (stop : Int) :
    (inputs.taken stop).latest family = highest (inputs.versionsBefore family stop) := by
  unfold Calculation.taken
  rw [(foldl_record _ family).2]
  have perm := perm_versionsBefore inputs family stop
  refine highest_perm perm fun left isLeft right isRight => ?_
  exact complete.eq_of_sequence left
    (mem_versionsOf (List.mem_filter.mp (perm.mem_iff.mp isLeft)).1).1 right
    (mem_versionsOf (List.mem_filter.mp (perm.mem_iff.mp isRight)).1).1

theorem taken_isSome (complete : inputs.Complete) (family : Family) (stop : Int) :
    ((inputs.taken stop).first family).isSome = true ↔
      ((inputs.versionsOf family).any fun response =>
        decide (response.submittedAt < stop)) = true := by
  rw [taken_first complete, Option.isSome_iff_exists, List.any_eq_true]
  constructor
  · rintro ⟨response, found⟩
    have member := (lowest_eq_some found).1
    exact ⟨response, List.mem_filter.mp member⟩
  · rintro ⟨response, member, before⟩
    exact greatest?_isSome _ (List.mem_filter.mpr ⟨member, before⟩)

/-- Where a Family has responded by then, its lowest version so far is its lowest of
all: a lower sequence was not submitted later. -/
theorem lowest_versionsBefore
    (complete : inputs.Complete) {response : LiveResponse Family}
    (member : response ∈ inputs.versionsBefore family stop) :
    lowest (inputs.versionsBefore family stop) = lowest (inputs.versionsOf family) := by
  obtain ⟨isVersion, isBefore⟩ := List.mem_filter.mp member
  obtain ⟨soFar, isSoFar⟩ : ∃ soFar, lowest (inputs.versionsBefore family stop) =
      some soFar := greatest?_isSome _ member
  obtain ⟨ofAll, isOfAll⟩ : ∃ ofAll, lowest (inputs.versionsOf family) = some ofAll :=
    greatest?_isSome _ isVersion
  obtain ⟨soFarMember, soFarLeast⟩ := lowest_eq_some isSoFar
  obtain ⟨ofAllMember, ofAllLeast⟩ := lowest_eq_some isOfAll
  obtain ⟨ofAllGiven, ofAllFamily⟩ := mem_versionsOf ofAllMember
  obtain ⟨responseGiven, responseFamily⟩ := mem_versionsOf isVersion
  have soFarVersion := (List.mem_filter.mp soFarMember).1
  have le := ofAllLeast response isVersion
  have inTime : ofAll.submittedAt < stop := by
    have before := of_decide_eq_true isBefore
    rcases Nat.lt_or_eq_of_le le with less | same
    · have notAfter := complete.chronology ofAll ofAllGiven response responseGiven
        (ofAllFamily.trans responseFamily.symm) less
      omega
    · rw [complete.eq_of_sequence ofAll ofAllGiven response responseGiven same]
      exact before
  have atMost := soFarLeast ofAll
    (List.mem_filter.mpr ⟨ofAllMember, decide_eq_true inTime⟩)
  have atLeast := ofAllLeast soFar soFarVersion
  rw [isSoFar, isOfAll, complete.eq_of_sequence soFar (mem_versionsOf soFarVersion).1 ofAll
    ofAllGiven (by omega)]

/-- What the pass has at a day's end gives the day from scratch. -/
theorem dayFact_taken
    (complete : inputs.Complete) (found : LocalDayInterval) :
    inputs.dayFact found.day found (inputs.taken found.interval.stop) =
      (inputs.scratchDay found).postInit := by
  unfold Calculation.dayFact Calculation.scratchDay
  dsimp only
  cases inputs.sourceAt found.interval.stop with
  | none => rfl
  | some source =>
      have participants : ((inputs.cohortAt source found.interval.stop).filter fun family =>
          ((inputs.taken found.interval.stop).first family).isSome = true) =
          inputs.participantsAt source found.interval.stop := by
        unfold Calculation.participantsAt
        exact Finset.filter_congr fun family _ => taken_isSome complete family _
      have pledges : (fun family => pledgeOf ((inputs.taken found.interval.stop).latest family)) =
          fun family => pledgeOf (highest ((inputs.versionsOf family).filter fun response =>
            decide (response.submittedAt < found.interval.stop))) := by
        funext family
        rw [taken_latest complete]
        rfl
      have firsts : ((inputs.participantsAt source found.interval.stop).filter fun family =>
          submittedWithin found ((inputs.taken found.interval.stop).first family) = true) =
          (inputs.participantsAt source found.interval.stop).filter fun family =>
            submittedWithin found (lowest (inputs.versionsOf family)) = true := by
        refine Finset.filter_congr fun family member => ?_
        obtain ⟨response, isVersion, isBefore⟩ :=
          List.any_eq_true.mp (Finset.mem_filter.mp member).2
        rw [taken_first complete, lowest_versionsBefore complete
          (List.mem_filter.mpr ⟨isVersion, isBefore⟩)]
      dsimp only
      rw [participants, pledges, firsts]

/-! ## Facts that can be stored -/

/-- What the checks of a fact refuse of a consistent one. -/
def Storable (day : ParticipationDay) : Prop :=
  day.cohortDenominator < wordLimit ∧ ∀ cents ∈ day.pledgeTotal, cents ≤ greatestTotal

omit [DecidableEq Family] in
theorem pledgeOf_nonneg (version : Option (LiveResponse Family)) :
    0 ≤ (pledgeOf version).cents.getD 0 := by
  cases version with
  | none => exact Int.le_refl _
  | some response =>
      change 0 ≤ response.pledge.cents.getD 0
      cases isCents : response.pledge.cents with
      | none => exact Int.le_refl _
      | some cents => exact (response.bounded cents (by rw [isCents]; rfl)).1

omit [DecidableEq Family] in
theorem pledgeTotal_nonneg
    {financialEnabled : Bool} {participants : Finset Family} {pledge : Family → MoneyAmount}
    (nonneg : ∀ family, 0 ≤ (pledge family).cents.getD 0) {cents : Int}
    (isTotal : cents ∈ (pledgeTotal financialEnabled participants pledge).cents) :
    0 ≤ cents := by
  unfold pledgeTotal at isTotal
  split at isTotal
  · cases isTotal
    exact Finset.sum_nonneg fun family _ => nonneg family
  · cases isTotal

/-- The counts, the source and the total agree with each other. -/
structure Consistent (day : ParticipationDay) : Prop where
  counts : day.firstResponses ≤ day.cumulativeResponses ∧
    day.cumulativeResponses ≤ day.cohortDenominator
  generation : ∀ generation ∈ day.sourceGeneration, 1 ≤ generation ∧ generation < wordLimit
  total : ∀ cents ∈ day.pledgeTotal, 0 ≤ cents
  provenance : day.populationAvailable = true →
    day.sourceGeneration ≠ none ∧ day.sourceAsOf ≠ none
  observations : day.populationAvailable = false →
    (day.sourceGeneration = none ∧ day.sourceAsOf = none) ∧ day.cohortDenominator = 0
  availability : day.pledgeAvailable = day.pledgeTotal.isSome ∧
    (day.pledgeAvailable = true → day.populationAvailable = true)

theorem postInit_of_consistent
    {day fact : ParticipationDay} (consistent : Consistent day) :
    day.postInit = .ok fact ↔ fact = day ∧ Storable fact := by
  have counts := consistent.counts
  unfold ParticipationDay.postInit
  by_cases bounded : day.cohortDenominator < wordLimit
  · by_cases small : ∀ cents ∈ day.pledgeTotal, cents ≤ greatestTotal
    · have inTotal : ∀ cents ∈ day.pledgeTotal, 0 ≤ cents ∧ cents ≤ greatestTotal :=
        fun cents isTotal => ⟨consistent.total cents isTotal, small cents isTotal⟩
      have sourced : ¬ (day.populationAvailable = true ∧
          (day.sourceGeneration = none ∨ day.sourceAsOf = none)) := by
        rintro ⟨available, missing⟩
        obtain ⟨generation, asOf⟩ := consistent.provenance available
        rcases missing with noGeneration | noTime
        · exact generation noGeneration
        · exact asOf noTime
      have unobserved : ¬ (day.populationAvailable = false ∧
          ((day.sourceGeneration ≠ none ∨ day.sourceAsOf ≠ none) ∨
            ¬ (day.firstResponses = 0 ∧ day.cumulativeResponses = 0 ∧
              day.cohortDenominator = 0))) := by
        rintro ⟨unavailable, observed⟩
        obtain ⟨⟨generation, asOf⟩, cohort⟩ := consistent.observations unavailable
        rcases observed with (isGeneration | isTime) | counted
        · exact isGeneration generation
        · exact isTime asOf
        · omega
      have agreeing : ¬ (day.pledgeAvailable ≠ day.pledgeTotal.isSome ∨
          day.pledgeAvailable = true ∧ day.populationAvailable = false) := by
        rintro (differs | ⟨available, unavailable⟩)
        · exact differs consistent.availability.1
        · rw [consistent.availability.2 available] at unavailable
          cases unavailable
      rw [if_neg (by omega), if_neg (not_not.mpr consistent.generation),
        if_neg (not_not.mpr inTotal), if_neg (not_not.mpr counts), if_neg sourced,
        if_neg unobserved, if_neg agreeing]
      constructor
      · intro isFact
        cases isFact
        exact ⟨rfl, bounded, small⟩
      · rintro ⟨rfl, _⟩
        rfl
    · rw [if_neg (by omega), if_neg (not_not.mpr consistent.generation), if_pos
        fun inTotal => small fun cents isTotal => (inTotal cents isTotal).2]
      constructor
      · intro isFact
        cases isFact
      · rintro ⟨rfl, storable⟩
        exact absurd storable.2 small
  · rw [if_pos (by omega)]
    constructor
    · intro isFact
      cases isFact
    · rintro ⟨rfl, storable⟩
      exact absurd storable.1 bounded

theorem scratchDay_consistent (inputs : Calculation Family) (found : LocalDayInterval) :
    Consistent (inputs.scratchDay found) := by
  unfold Calculation.scratchDay
  dsimp only
  cases inputs.sourceAt found.interval.stop with
  | none =>
      exact ⟨⟨Nat.le_refl _, Nat.le_refl _⟩, fun _ isNone => (by cases isNone),
        fun _ isNone => (by cases isNone), fun available => (by cases available),
        fun _ => ⟨⟨rfl, rfl⟩, rfl⟩, rfl, fun available => (by cases available)⟩
  | some source =>
      refine ⟨⟨Finset.card_filter_le _ _, Finset.card_filter_le _ _⟩, ?_, ?_,
        fun _ => ⟨Option.some_ne_none _, Option.some_ne_none _⟩,
        fun unavailable => (by cases unavailable), rfl, fun _ => rfl⟩
      · intro generation isGeneration
        cases isGeneration
        exact source.positive
      · intro cents isTotal
        exact pledgeTotal_nonneg (fun family => pledgeOf_nonneg _) isTotal

/-! ## The whole pass -/

theorem localDay_day
    {timezone : ZoneInfo} {day : Int} {found : LocalDayInterval}
    (isFound : timezone.localDay day = .ok found) : found.day = day := by
  unfold ZoneInfo.localDay at isFound
  split at isFound
  · cases isFound
  · obtain ⟨start, _, afterStart⟩ := except_bind_eq_ok isFound
    obtain ⟨stop, _, afterStop⟩ := except_bind_eq_ok afterStart
    obtain ⟨interval, _, isDay⟩ := except_bind_eq_ok afterStop
    cases isDay
    rfl

/-- The fact of a day, of the day alone. -/
def DayFact (timezone : ZoneInfo) (inputs : Calculation Family) (day : Int)
    (fact : ParticipationDay) : Prop :=
  ∃ found, timezone.localDay day = .ok found ∧ fact = inputs.scratchDay found ∧
    Storable fact

theorem calculateParticipation_ok_iff
    {zone : Zone} (complete : inputs.Complete) {days : List Int}
    (expected : expectedDates inputs.startDate inputs.endDate inputs.throughDate = .ok days)
    (facts : List ParticipationDay) :
    calculateParticipation (.of zone) inputs = .ok facts ↔
      List.Forall₂ (DayFact (.of zone) inputs) days facts := by
  unfold calculateParticipation
  rw [expected, except_ok_bind, forwardPass_eq
    (localDay_forward zone (expectedDates_ascend expected)) (fun found => dueInOrder _ _),
    except_mapM_eq_ok_iff]
  refine Iff.of_eq (congrArg (fun relation => List.Forall₂ relation days facts) ?_)
  funext day fact
  unfold reportAt DayFact
  rw [eq_iff_iff]
  constructor
  · intro isFact
    obtain ⟨found, isFound, isReport⟩ := except_bind_eq_ok isFact
    rw [← localDay_day isFound] at isReport
    refine ⟨found, isFound, ?_⟩
    rw [← postInit_of_consistent (scratchDay_consistent inputs found),
      ← dayFact_taken complete found]
    exact isReport
  · rintro ⟨found, isFound, isScratch⟩
    rw [isFound, except_ok_bind, ← localDay_day isFound]
    rw [← postInit_of_consistent (scratchDay_consistent inputs found),
      ← dayFact_taken complete found] at isScratch
    exact isScratch

/-! ## The order of the inputs -/

omit [DecidableEq Family] in
theorem sourceAt_perm
    (complete : inputs.Complete) {promotions : List Promotion}
    (perm : promotions.Perm inputs.promotions) (families : List (CohortFamily Family))
    (responses : List (LiveResponse Family)) (stop : Int) :
    Calculation.sourceAt { inputs with promotions, families, responses } stop =
      inputs.sourceAt stop := by
  unfold Calculation.sourceAt
  cases inputs.populationScope with
  | current => rfl
  | historical =>
      refine (greatest?_perm (fun row : Promotion => (row.generation : Int))
        (fun left right below => ?_) (fun left right notBelow => ?_) (perm.filter _).symm
        fun left isLeft right isRight same => ?_).symm
      · have isBelow := of_decide_eq_true below
        omega
      · have isNotBelow := of_decide_eq_false notBelow
        omega
      · exact List.inj_on_of_nodup_map complete.generations (List.mem_filter.mp isLeft).1
          (List.mem_filter.mp isRight).1 (by omega)

theorem cohortAt_perm
    {families : List (CohortFamily Family)} (perm : families.Perm inputs.families)
    (promotions : List Promotion) (responses : List (LiveResponse Family))
    (source : Promotion) (stop : Int) :
    Calculation.cohortAt { inputs with promotions, families, responses } source stop =
      inputs.cohortAt source stop := by
  unfold Calculation.cohortAt
  cases inputs.populationScope with
  | current => rfl
  | historical => exact List.toFinset_eq_of_perm _ _ ((perm.filter _).map _)

theorem calculateParticipation_perm
    {timezone : ZoneInfo} (complete : inputs.Complete)
    {promotions : List Promotion} {families : List (CohortFamily Family)}
    {responses : List (LiveResponse Family)}
    (promotionsPerm : promotions.Perm inputs.promotions)
    (familiesPerm : families.Perm inputs.families)
    (responsesPerm : responses.Perm inputs.responses) :
    calculateParticipation timezone { inputs with promotions, families, responses } =
      calculateParticipation timezone inputs := by
  have facts : Calculation.dayFact { inputs with promotions, families, responses } =
      inputs.dayFact := by
    funext day found versions
    unfold Calculation.dayFact
    rw [sourceAt_perm complete promotionsPerm]
    simp only [cohortAt_perm familiesPerm]
  unfold calculateParticipation
  rw [facts]
  dsimp only
  rw [sorted_perm complete responsesPerm]

/-- Of valid inputs the pass returns the facts that each day has from scratch, as
soon as every day has its interval and its fact can be stored, and the order of the
promotions, the Families and the responses does not matter. -/
theorem participation_is_day_by_day
    (zone : Zone) (inputs : Calculation Family)
    (valid : inputs.postInit (.of zone) = .ok ()) :
    (∃ days, expectedDates inputs.startDate inputs.endDate inputs.throughDate = .ok days ∧
      ∀ facts, calculateParticipation (.of zone) inputs = .ok facts ↔
        List.Forall₂ (DayFact (.of zone) inputs) days facts) ∧
    ∀ promotions families responses, promotions.Perm inputs.promotions →
      families.Perm inputs.families → responses.Perm inputs.responses →
      calculateParticipation (.of zone) { inputs with promotions, families, responses } =
        calculateParticipation (.of zone) inputs := by
  have complete := Calculation.complete valid
  refine ⟨?_, fun promotions families responses promotionsPerm familiesPerm responsesPerm =>
    calculateParticipation_perm complete promotionsPerm familiesPerm responsesPerm⟩
  unfold Calculation.postInit at valid
  dsimp only at valid
  split at valid
  · cases valid
  · obtain ⟨days, expected, _⟩ := except_bind_eq_ok valid
    exact ⟨days, expected, calculateParticipation_ok_iff complete expected⟩

/-- A zone without an offset. -/
def utc : Zone :=
  ⟨0, [], trivial⟩

/-- One promotion before the campaign, and two Families eligible since then. -/
def firstPromotion : Promotion :=
  ⟨1, 738000 * dayLength, by decide⟩

def eligibleFamily (family : Nat) : CohortFamily Nat :=
  ⟨family, 738000 * dayLength, 1, by decide⟩

theorem hundredDollars_bounded :
    ∀ cents ∈ (some 10000 : Option Int), 0 ≤ cents ∧ cents ≤ 99999999999 := by
  decide

def hundredDollars (family : Nat) (submittedAt : Int) (first : Bool) : LiveResponse Nat :=
  ⟨family, if first then 1 else 2, submittedAt, ⟨some 10000⟩, by cases first <;> decide,
    hundredDollars_bounded⟩

/-- Each of the two Families responds, on the first and on the second of two days. -/
def twoDays : Calculation Nat where
  populationScope := .historical
  startDate := 738001
  endDate := 738010
  throughDate := 738002
  financialEnabled := true
  source := firstPromotion
  submissionWatermark := 2
  promotions := [firstPromotion]
  families := [eligibleFamily 1, eligibleFamily 2]
  currentFamilyIds := ∅
  responses := [hundredDollars 2 (738002 * dayLength) false,
    hundredDollars 1 (738001 * dayLength) true]

theorem two_days_are_day_by_day :
    calculateParticipation (.of utc) twoDays =
        .ok [⟨738001, 1, 1, 2, some 1, some (738000 * dayLength), true, true, some 10000⟩,
          ⟨738002, 1, 2, 2, some 1, some (738000 * dayLength), true, true, some 20000⟩] ∧
      ∃ days, expectedDates 738001 738010 738002 = .ok days ∧
        ∀ facts, calculateParticipation (.of utc) twoDays = .ok facts ↔
          List.Forall₂ (DayFact (.of utc) twoDays) days facts :=
  ⟨by decide, (participation_is_day_by_day utc twoDays (by decide)).1⟩

/-- The last two dates there are. -/
def lastDates : Calculation Nat :=
  { twoDays with startDate := dateMax - 1, endDate := dateMax, throughDate := dateMax }

/-- Its inputs are valid, and the pass is refused a day of the dates it covers. -/
theorem last_date_has_no_fact :
    lastDates.postInit (.of utc) = .ok () ∧
      expectedDates lastDates.startDate lastDates.endDate lastDates.throughDate =
        .ok [dateMax - 1, dateMax] ∧
      calculateParticipation (.of utc) lastDates =
        .error ParishKit.Campaigns.followingDayText := by
  decide

end ParishKit.Reports
