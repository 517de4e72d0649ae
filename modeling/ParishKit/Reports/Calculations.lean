import Mathlib.Algebra.BigOperators.Group.Finset.Basic
import Mathlib.Data.Finset.Filter
import Mathlib.Data.List.Sort
import ParishKit.Campaigns.LocalDays
import ParishKit.Lib.ForwardPass
import ParishKit.Lib.Search

/-!
# Participation

The daily facts of a campaign, from detached inputs. Days are numbered and instants
are microseconds. Money is in cents.
-/

namespace ParishKit.Reports

open ParishKit.Lib
open ParishKit.Campaigns (LocalDayInterval ZoneInfo)

/-- `2**63`, which identities and counts stay below. -/
def wordLimit : Nat :=
  9223372036854775808

/-- Permanent source provenance. -/
structure Promotion where
  generation : Nat
  promotedAt : Int
  positive : 0 < generation ∧ generation < wordLimit
deriving DecidableEq

/-- A Family's first eligibility. -/
structure CohortFamily (Family : Type) where
  familyId : Family
  firstEligibleAt : Int
  firstEligibleGeneration : Nat
  positive : 0 < firstEligibleGeneration ∧ firstEligibleGeneration < wordLimit
deriving DecidableEq

/-- A known number of cents, or an unavailable observation. -/
structure MoneyAmount where
  cents : Option Int
deriving DecidableEq

def MoneyAmount.available (amount : MoneyAmount) : Bool :=
  amount.cents.isSome

/-- One immutable live version. -/
structure LiveResponse (Family : Type) where
  familyId : Family
  sequence : Nat
  submittedAt : Int
  pledge : MoneyAmount
  positive : 0 < sequence ∧ sequence < wordLimit
  bounded : ∀ cents ∈ pledge.cents, 0 ≤ cents ∧ cents ≤ 99999999999
deriving DecidableEq

inductive PopulationScope where
  | historical
  | current
deriving DecidableEq

/-- Complete detached inputs. The time zone is given beside them. -/
structure Calculation (Family : Type) where
  populationScope : PopulationScope
  startDate : Int
  endDate : Int
  throughDate : Int
  financialEnabled : Bool
  source : Promotion
  submissionWatermark : Nat
  promotions : List Promotion
  families : List (CohortFamily Family)
  currentFamilyIds : Finset Family
  responses : List (LiveResponse Family)

/-! ## Complete inputs -/

def scopeText : String :=
  "Calculation scope and cutoffs must be explicit."

def orderedIntervalText : String :=
  "Fact date inputs require an ordered campaign interval."

def repeatedText : String :=
  "Calculation identities must not repeat."

def cutoffText : String :=
  "Calculation inputs do not belong to their frozen cutoff."

def chronologyText : String :=
  "Family response chronology contradicts its sequence."

/-- `expected_dates`. -/
def expectedDates (start stop through : Int) : Except String (List Int) :=
  if stop < start then throw orderedIntervalText
  else if through < start then pure []
  else pure ((List.range (through - start + 1).toNat).map fun index : Nat => start + index)

section

variable {Family : Type} [DecidableEq Family]

/-- Each Family's versions do not go back in time. -/
def checkChronology :
    List (LiveResponse Family) → (Family → Option Int) → Except String Unit
  | [], _ => pure ()
  | response :: rest, latestInstants =>
      match latestInstants response.familyId with
      | some prior =>
          if response.submittedAt < prior then throw chronologyText
          else checkChronology rest
            (Function.update latestInstants response.familyId (some response.submittedAt))
      | none =>
          checkChronology rest
            (Function.update latestInstants response.familyId (some response.submittedAt))

/-- `Calculation.__post_init__`. -/
def Calculation.postInit (inputs : Calculation Family) (timezone : ZoneInfo) :
    Except String Unit :=
  let familyIds := inputs.families.map CohortFamily.familyId
  if wordLimit ≤ inputs.submissionWatermark then throw scopeText
  else do
    let _ ← expectedDates inputs.startDate inputs.endDate inputs.throughDate
    let _ ← timezone.localDay inputs.startDate
    if ¬ ((inputs.promotions.map Promotion.generation).Nodup ∧ familyIds.Nodup ∧
        (inputs.responses.map LiveResponse.sequence).Nodup) then
      throw repeatedText
    else if ¬ ((∀ family ∈ inputs.currentFamilyIds, family ∈ familyIds) ∧
        (∀ response ∈ inputs.responses, response.familyId ∈ familyIds) ∧
        inputs.source ∈ inputs.promotions ∧
        (∀ row ∈ inputs.promotions, row.generation ≤ inputs.source.generation) ∧
        ∀ row ∈ inputs.responses, row.sequence ≤ inputs.submissionWatermark) then
      throw cutoffText
    else
      checkChronology (inputs.responses.insertionSort fun left right =>
        left.sequence ≤ right.sequence) fun _ => none

end

/-! ## Stored facts -/

/-- An exact stored fact. The pledge total is in cents. -/
structure ParticipationDay where
  localDate : Int
  firstResponses : Nat
  cumulativeResponses : Nat
  cohortDenominator : Nat
  sourceGeneration : Option Nat
  sourceAsOf : Option Int
  populationAvailable : Bool
  pledgeAvailable : Bool
  pledgeTotal : Option Int
deriving DecidableEq

def countsText : String :=
  "Fact counts must be bounded nonnegative integers."

def generationText : String :=
  "Fact source generation must be an exact positive integer."

def pledgesText : String :=
  "Fact pledges require bounded exact Decimal cents."

def inconsistentText : String :=
  "Report participation counts are inconsistent."

def provenanceText : String :=
  "Available population requires source provenance."

def observationsText : String :=
  "Unavailable population cannot contain observations."

def availabilityText : String :=
  "Report pledge availability is inconsistent."

/-- The greatest total a fact holds. -/
def greatestTotal : Int :=
  999999999999999999

/-- `ParticipationDay.__post_init__`, with `validate_day`. -/
def ParticipationDay.postInit (day : ParticipationDay) : Except String ParticipationDay :=
  if ¬ (day.firstResponses < wordLimit ∧ day.cumulativeResponses < wordLimit ∧
      day.cohortDenominator < wordLimit) then
    throw countsText
  else if ¬ ∀ generation ∈ day.sourceGeneration,
      1 ≤ generation ∧ generation < wordLimit then
    throw generationText
  else if ¬ ∀ cents ∈ day.pledgeTotal, 0 ≤ cents ∧ cents ≤ greatestTotal then
    throw pledgesText
  else if ¬ (day.firstResponses ≤ day.cumulativeResponses ∧
      day.cumulativeResponses ≤ day.cohortDenominator) then
    throw inconsistentText
  else if day.populationAvailable = true ∧
      (day.sourceGeneration = none ∨ day.sourceAsOf = none) then
    throw provenanceText
  else if day.populationAvailable = false ∧
      ((day.sourceGeneration ≠ none ∨ day.sourceAsOf ≠ none) ∨
        ¬ (day.firstResponses = 0 ∧ day.cumulativeResponses = 0 ∧
          day.cohortDenominator = 0)) then
    throw observationsText
  else if day.pledgeAvailable ≠ day.pledgeTotal.isSome ∨
      day.pledgeAvailable = true ∧ day.populationAvailable = false then
    throw availabilityText
  else
    pure day

/-! ## The pass -/

/-- The first and the latest version of each Family so far. -/
structure Versions (Family : Type) where
  first : Family → Option (LiveResponse Family)
  latest : Family → Option (LiveResponse Family)

def Versions.none : Versions Family where
  first _ := .none
  latest _ := .none

section

variable {Family : Type} [DecidableEq Family]

/-- A version that is taken in. -/
def Versions.record (versions : Versions Family) (pending : LiveResponse Family) :
    Versions Family where
  first := match versions.first pending.familyId with
    | some prior =>
        if pending.sequence < prior.sequence then
          Function.update versions.first pending.familyId (some pending)
        else versions.first
    | .none => Function.update versions.first pending.familyId (some pending)
  latest := match versions.latest pending.familyId with
    | some prior =>
        if prior.sequence < pending.sequence then
          Function.update versions.latest pending.familyId (some pending)
        else versions.latest
    | .none => Function.update versions.latest pending.familyId (some pending)

/-- The source of a day: the pinned one, or the latest one promoted by then. -/
def Calculation.sourceAt (inputs : Calculation Family) (stop : Int) : Option Promotion :=
  match inputs.populationScope with
  | .historical =>
      greatest? (fun best row => decide (best.generation < row.generation))
        (inputs.promotions.filter fun row => decide (row.promotedAt < stop))
  | .current => some inputs.source

/-- The Families counted on a day. -/
def Calculation.cohortAt (inputs : Calculation Family) (source : Promotion) (stop : Int) :
    Finset Family :=
  match inputs.populationScope with
  | .current => inputs.currentFamilyIds
  | .historical =>
      ((inputs.families.filter fun family =>
        decide (family.firstEligibleGeneration ≤ source.generation) &&
          decide (family.firstEligibleAt < stop)).map CohortFamily.familyId).toFinset

/-- The sum of the pledges, if every one is available. -/
def pledgeTotal (financialEnabled : Bool) (participants : Finset Family)
    (pledge : Family → MoneyAmount) : MoneyAmount :=
  if financialEnabled = true ∧ ∀ family ∈ participants, (pledge family).available then
    ⟨some (∑ family ∈ participants, (pledge family).cents.getD 0)⟩
  else
    ⟨none⟩

/-- The pledge of a version that is there. -/
def pledgeOf (version : Option (LiveResponse Family)) : MoneyAmount :=
  match version with
  | some response => response.pledge
  | none => ⟨none⟩

def submittedWithin (found : LocalDayInterval) (version : Option (LiveResponse Family)) :
    Bool :=
  version.any fun response => decide (found.interval.start ≤ response.submittedAt) &&
    decide (response.submittedAt < found.interval.stop)

/-- The fact of one day, from the versions submitted before its end. -/
def Calculation.dayFact (inputs : Calculation Family) (day : Int)
    (found : LocalDayInterval) (versions : Versions Family) :
    Except String ParticipationDay :=
  match inputs.sourceAt found.interval.stop with
  | none => ParticipationDay.postInit ⟨day, 0, 0, 0, none, none, false, false, none⟩
  | some source =>
      let cohort := inputs.cohortAt source found.interval.stop
      let participants := cohort.filter fun family => (versions.first family).isSome
      let money := pledgeTotal inputs.financialEnabled participants fun family =>
        pledgeOf (versions.latest family)
      ParticipationDay.postInit
        { localDate := day
          firstResponses := (participants.filter fun family =>
            submittedWithin found (versions.first family)).card
          cumulativeResponses := participants.card
          cohortDenominator := cohort.card
          sourceGeneration := some source.generation
          sourceAsOf := some source.promotedAt
          populationAvailable := true
          pledgeAvailable := money.available
          pledgeTotal := money.cents }

/-- By the instant, and by the sequence among versions of one instant. -/
def submissionOrder (left right : LiveResponse Family) : Prop :=
  left.submittedAt < right.submittedAt ∨
    left.submittedAt = right.submittedAt ∧ left.sequence ≤ right.sequence

instance : DecidableRel (@submissionOrder Family) :=
  fun _ _ => inferInstanceAs (Decidable (_ ∨ _))

/-- `calculate_participation`: the versions are sorted once and taken in once. -/
def calculateParticipation (timezone : ZoneInfo) (inputs : Calculation Family) :
    Except String (List ParticipationDay) := do
  let days ← expectedDates inputs.startDate inputs.endDate inputs.throughDate
  forwardPass timezone.localDay
    (fun found response => decide (response.submittedAt < found.interval.stop))
    Versions.record inputs.dayFact days
    (inputs.responses.insertionSort submissionOrder) Versions.none

/-! ## A day from scratch -/

/-- A Family's versions. -/
def Calculation.versionsOf (inputs : Calculation Family) (family : Family) :
    List (LiveResponse Family) :=
  inputs.responses.filter fun response => decide (response.familyId = family)

/-- The version of the lowest sequence. -/
def lowest (versions : List (LiveResponse Family)) : Option (LiveResponse Family) :=
  greatest? (fun best response => decide (response.sequence < best.sequence)) versions

def highest (versions : List (LiveResponse Family)) : Option (LiveResponse Family) :=
  greatest? (fun best response => decide (best.sequence < response.sequence)) versions

/-- The cohort Families with a response submitted before the day's end. -/
def Calculation.participantsAt (inputs : Calculation Family) (source : Promotion)
    (stop : Int) : Finset Family :=
  (inputs.cohortAt source stop).filter fun family =>
    (inputs.versionsOf family).any fun response => decide (response.submittedAt < stop)

/-- What a day is, whatever the days before it were. -/
def Calculation.scratchDay (inputs : Calculation Family) (found : LocalDayInterval) :
    ParticipationDay :=
  let stop := found.interval.stop
  match inputs.sourceAt stop with
  | none => ⟨found.day, 0, 0, 0, none, none, false, false, none⟩
  | some source =>
      let participants := inputs.participantsAt source stop
      let money := pledgeTotal inputs.financialEnabled participants fun family =>
        pledgeOf (highest ((inputs.versionsOf family).filter fun response =>
          decide (response.submittedAt < stop)))
      { localDate := found.day
        firstResponses := (participants.filter fun family =>
          submittedWithin found (lowest (inputs.versionsOf family))).card
        cumulativeResponses := participants.card
        cohortDenominator := (inputs.cohortAt source stop).card
        sourceGeneration := some source.generation
        sourceAsOf := some source.promotedAt
        populationAvailable := true
        pledgeAvailable := money.available
        pledgeTotal := money.cents }

end

end ParishKit.Reports
