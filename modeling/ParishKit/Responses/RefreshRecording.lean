import ParishKit.Responses.RefreshChecks
import ParishKit.Workflows.MinistryRequests

/-!
# Recording the refresh checks

What one promoted refresh reads of the final census changes and the decided
Ministry requests, the checks it owes and stores, and the Updated in ParishSoft
changes it moves to Conflict. `none` is an exception, which rolls the promotion
back.
-/

namespace ParishKit.Responses

open ParishKit.Pipeline ParishKit.Workflows

/-! ## The promoted data -/

structure SourceFamily where
  active : Bool
  sendNoMail : Option Bool

/-- A retained address. A field that is absent or null has no text. -/
structure SourceAddress where
  fields : Option (String → Option Text)

structure SourceMinistry where
  catalogPresent : Bool

/-- One roster row. Dates are proleptic day numbers. -/
structure RosterRow where
  memberKey : String
  ministryKey : String
  current : Bool
  startDate : Option Int
  endDate : Option Int

/-- The records a refresh reads. `address` is the corpus's own when it carries
addresses, and the snapshot's rows otherwise. -/
structure RefreshCorpus extends Corpus where
  family : String → Option SourceFamily
  address : String → Option SourceAddress
  ministry : String → Option SourceMinistry
  roster : List RosterRow

/-- One promotion: `refreshed` is the refresh date its cursor records. -/
structure Refresh where
  snapshot : Nat
  corpus : RefreshCorpus
  refreshed : Option Int
  full : Bool
  now : Int

/-! ## The campaign's rows -/

structure SubmissionRow where
  family : Nat
  familyDUID : Nat
  familyVersion : Nat
  campaign : Nat
  live : Bool
deriving DecidableEq, Repr

/-- A resolution that marked a change Entered by hand. -/
structure EnteredMark where
  proposal : Nat
  expectedVersion : Nat
  memberDUID : Option Nat
deriving DecidableEq, Repr

structure FiledRequest extends MinistryRequest where
  submission : Nat
deriving DecidableEq

/-- One tick of a request's roster entry, in sequence. -/
structure RosterTick where
  request : Nat
  entered : Bool
  createdAt : Int
deriving DecidableEq, Repr

inductive CheckedItem where
  | proposal (pk : Nat)
  | request (pk : Nat)
deriving DecidableEq, Repr

structure StoredCheck where
  snapshot : Nat
  full : Bool
  item : CheckedItem
  itemVersion : Nat
  outcome : CheckedOutcome
  observed : Option Value
  createdAt : Int
deriving DecidableEq

/-- The rows of one campaign a refresh reads and writes. The checks are stored
oldest first. -/
structure RefreshBook where
  submission : Nat → SubmissionRow
  changes : List ProposedChange
  marks : List EnteredMark
  requests : List FiledRequest
  ticks : List RosterTick
  checks : List StoredCheck
  start : Option CheckStart
  commitment : Option Int
  changesKeyed : (changes.map (·.pk)).Nodup
  requestsKeyed : (requests.map (·.pk)).Nodup

def RefreshBook.threshold (book : RefreshBook) : Option Nat :=
  book.start.map (·.notSeenAfter)

/-- `check_states`: one item's state from the checks at its version. -/
def RefreshBook.itemState (book : RefreshBook) (item : CheckedItem)
    (version : Nat) (mark : Option Int) : CheckState Value :=
  checkState
    ((book.checks.filter fun check =>
      decide (check.item = item ∧ check.itemVersion = version)).map
      fun check => CheckRow.mk check.item check.createdAt check.outcome
        check.full check.observed)
    book.start (fun _ => mark) item

/-- The stored outcome of each comparison result: the source's `STORED`. -/
def storedOutcome : RefreshOutcome → Option CheckedOutcome
  | .confirmed => some .confirmed
  | .unchanged => some .unchanged
  | .notSeen => some .unchanged
  | .enteredIncorrectly => some .enteredIncorrectly
  | .ignoredNowMatches => some .ignoredNowMatches
  | .conflict => some .conflict
  | .alreadyHeld => none
  | .entityGone => none

/-! ## Census comparison -/

section Census

variable [Unicode]

/-- Equal when both are unavailable, or both read and of one key. -/
def sameBy (key : Value → Option Key) : KnownValue → KnownValue → Option Bool
  | none, none => some true
  | some left, some right =>
      (key left).bind fun first =>
        (key right).map fun second => decide (first = second)
  | _, _ => some false

/-- A ZIP+4 read as its five digits. -/
def zipFive (postal : Text) : Text :=
  match postal with
  | [a, b, c, d, e, '-', f, g, h, i] =>
      if [a, b, c, d, e, f, g, h, i].all isDigit then [a, b, c, d, e]
      else postal
  | _ => postal

/-- The source's `_address_key`: no read returns ParishSoft's country. -/
def addressKey : Value → Option Key
  | .scalar (.address parts) =>
      canonicalValue .address (.address
        { parts with country := [], postalCode := zipFive parts.postalCode })
  | .scalar .null => some (.scalar .null)
  | _ => none

/-- The source's `_same`. -/
def sameCensus (field : Field) (left right : KnownValue) : Option Bool :=
  if field = .newMember then
    some (decide (left = right))
  else if field = .family .homeAddress then
    sameBy addressKey left right
  else
    sameBy (canonicalValue field.kind) left right

/-- The source's `_primary_address`: no country, and the second and third lines
joined. -/
def primaryAddress (found : Option SourceAddress) : KnownValue :=
  (found.bind fun address => address.fields).map fun fields =>
    let part (name : String) : Text := (fields name).getD []
    .address {
      line1 := part "primaryAddress1"
      line2 := List.intercalate [' ']
        ([part "primaryAddress2", part "primaryAddress3"].filter
          fun line => !line.isEmpty)
      city := part "primaryCity"
      region := part "primaryState"
      postalCode := part "primaryPostalCode"
      country := [] }

/-- The census changes a refresh checks: the source's `CHECKED`, in which every
Member field is confirmable. -/
def Item.checked (item : Item) : Bool :=
  match item.entityKind, item.field with
  | .member, .member _ => true
  | .member, .request _ => true
  | .family, .family .homeAddress => true
  | .family, .family .emailOptOut => true
  | .proposedMember, .newMember => true
  | _, _ => false

/-- The source's `NO_THIRD_VALUE`. -/
def noThirdValue : Field → Bool
  | .request .movedHousehold => true
  | .request .deceasedStatus => true
  | .family .emailOptOut => true
  | .family .homeAddress => true
  | .newMember => true
  | _ => false

/-- A Member's own field, while the data gives evidence of it. -/
def memberSource (corpus : RefreshCorpus) (item : Item) (familyKey : String) :
    Option KnownValue :=
  let member := corpus.member item.entityKey
  let inFamily := member.any fun record => record.familyKey == familyKey
  match item.field with
  | .request .movedHousehold =>
      if member.any (·.deceased) then
        some none
      else
        some (some (.boolean (!(inFamily && member.any (·.active)))))
  | .request .deceasedStatus =>
      if inFamily then
        some (some (.boolean (member.any (·.deceased))))
      else
        some none
  | field =>
      match member with
      | none => some none
      | some record =>
          if !inFamily || (field != .request .deathDate &&
              (!record.active || record.deceased)) then
            some none
          else
            field.definition?.bind fun definition =>
              match memberFieldValue record
                  (corpus.contact ("member:" ++ item.entityKey)) definition with
              | .ok current => some current
              | .error .memberSourceUnavailable => some none
              | .error _ => none

/-- `census_source`: the inner `none` is no evidence either way. -/
def censusSource (corpus : RefreshCorpus) (item : Item) (familyDUID : Nat)
    (addedDUID : Option Nat) : Option KnownValue :=
  let familyKey := toString familyDUID
  match item.entityKind with
  | .proposedMember =>
      if item.field = .newMember then
        some (addedDUID.map fun duid =>
          .boolean ((corpus.member (toString duid)).any fun added =>
            added.familyKey == familyKey && added.active && !added.deceased))
      else
        some none
  | .family =>
      match corpus.family familyKey with
      | none => some none
      | some family =>
          if !item.checked || item.entityKey != familyKey || !family.active then
            some none
          else if item.field = .family .homeAddress then
            some (primaryAddress
              (corpus.address ("family:" ++ familyKey ++ ":primary")))
          else
            some (family.sendNoMail.map fun refused => .boolean refused)
  | .member => memberSource corpus item familyKey

end Census

/-! ## The census rows -/

namespace RefreshBook

/-- A change's submission belongs to the campaign and is live. -/
def inCampaign (book : RefreshBook) (campaign submission : Nat) : Bool :=
  (book.submission submission).campaign == campaign &&
    (book.submission submission).live

/-- No later response of the Family has a change for the same field. -/
def latest (book : RefreshBook) (campaign : Nat) (row : ProposedChange) : Bool :=
  book.changes.all fun other =>
    !(other.item.checked && book.inCampaign campaign other.submission &&
      (book.submission other.submission).family ==
        (book.submission row.submission).family &&
      other.item == row.item) ||
      decide ((book.submission other.submission).familyVersion ≤
        (book.submission row.submission).familyVersion)

/-- The executions a refresh check is for: the source's `FINAL_EXECUTIONS`. -/
def isFinal : Execution → Bool
  | .published => true
  | .resolvedExternal => true
  | _ => false

def censusRows (book : RefreshBook) (campaign : Nat) : List ProposedChange :=
  book.changes.filter fun row =>
    row.item.checked && book.inCampaign campaign row.submission &&
      isFinal row.execution && book.latest campaign row

/-- ParishSoft's value at a change's latest mark made again: the source's
`_remarked`. -/
def remarked (book : RefreshBook) (row : ProposedChange) : Option Value :=
  if row.execution = .resolvedExternal then
    ((book.checks.filter fun check =>
      decide (check.item = .proposal row.pk ∧
        check.itemVersion + 1 = row.version)).getLast?).bind fun check =>
          check.observed
  else
    none

/-- A New Member's ParishSoft Member ID, from the mark before its version. -/
def addedDUID (book : RefreshBook) (row : ProposedChange) : Option Nat :=
  ((book.marks.filter fun mark =>
    decide (mark.proposal = row.pk ∧
      mark.expectedVersion + 1 = row.version)).getLast?).bind fun mark =>
        mark.memberDUID

/-- The Family's mailing address answer in the same response. -/
def mailingAnswer (book : RefreshBook) (row : ProposedChange) : Option Value :=
  ((book.changes.filter fun other =>
    other.submission == row.submission && other.item.entityKind == .family &&
      other.item.field == .family .mailingAddress).getLast?).map fun other =>
        other.submittedValue

end RefreshBook

section Checks

variable [Unicode]

/-- ParishSoft's primary address is evidently the mailing block: the source's
`_mailing_primary`. -/
def mailingPrimary (mailing : Option Value) (carried current : Value) :
    Option Bool :=
  match mailing with
  | none => some false
  | some (.scalar .null) => some false
  | some answer =>
      (sameBy addressKey (some current) (some answer)).bind fun isMailing =>
        if isMailing then
          (sameBy addressKey (some current) (some carried)).map (!·)
        else
          some false

/-- The values a census change is compared at. A New Member's is whether the
data lists them: wanted listed, answered against not listed. -/
structure Compared where
  carried : Value
  answered : KnownValue
  marked : Value
deriving DecidableEq

def compared (row : ProposedChange) (again : Option Value) (current : Value) :
    Compared where
  carried := if row.item.field = .newMember then .boolean true else row.carried
  answered :=
    if row.item.field = .newMember then some (.boolean false) else row.baseline
  marked :=
    if noThirdValue row.item.field then current
    else (again.orElse fun _ => row.current).getD current

/-- The stage a final change is compared at. -/
def censusStage (execution : Execution) (outcome : CheckedOutcome) : Stage :=
  if execution = .resolvedExternal then
    if outcome = .enteredIncorrectly then .enteredIncorrectly
    else .enteredByHand
  else
    .updated

/-- Whether ParishSoft holds another value than the latest check found. -/
def movedSince (field : Field) (observed : Option Value) (current : Value) :
    Option Bool :=
  match observed with
  | none => some true
  | some before => (sameCensus field (some before) (some current)).map (!·)

/-- Whether a comparison's outcome stores a check of a census change. -/
def owedCensus (stored : CheckedOutcome) (state : CheckState Value)
    (full entered : Bool) (moved : Option Bool) : Option Bool :=
  if stored = .conflict ∧ full = false then
    some false
  else if stored = .unchanged ∧ state.outcome = .enteredIncorrectly then
    some false
  else
    moved.map fun elsewhere => owed stored state full entered elsewhere

/-- One change of the source's `_census_checks`: the outcome to store, if any,
of a change compared at `current`. -/
def judgeCensus (row : ProposedChange) (again : Option Value)
    (state : CheckState Value) (threshold : Option Nat) (full : Bool)
    (current : Value) : Option (Option CheckedOutcome) :=
  let values := compared row again current
  (refreshOutcome (sameCensus row.item.field)
      (censusStage row.execution state.outcome) (some current) values.answered
      (some values.carried) (some (some values.marked)) true
      (state.unseen + full.toNat) threshold).bind fun result =>
    match storedOutcome result with
    | none => some none
    | some stored =>
        (owedCensus stored state full
            (row.execution == .resolvedExternal)
            (movedSince row.item.field state.observed current)).map fun due =>
          if due then some stored else none

/-- ParishSoft's value of a change, unless the data gives no evidence of it. -/
def RefreshBook.evidence (book : RefreshBook) (refresh : Refresh)
    (row : ProposedChange) : Option KnownValue :=
  (censusSource refresh.corpus row.item
      (book.submission row.submission).familyDUID
      (book.addedDUID row)).bind fun source =>
    match source with
    | none => some none
    | some current =>
        if row.item.field = .family .homeAddress then
          (mailingPrimary (book.mailingAnswer row) row.carried current).map
            fun mailing => if mailing then none else some current
        else
          some (some current)

def RefreshBook.censusCheck (book : RefreshBook) (refresh : Refresh)
    (row : ProposedChange) : Option (Option StoredCheck) :=
  let state := book.itemState (.proposal row.pk) row.version none
  if state.outcome = .confirmed then
    some none
  else
    (book.evidence refresh row).bind fun source =>
      match source with
      | none => some none
      | some current =>
          (judgeCensus row (book.remarked row) state book.threshold refresh.full
              current).map fun stored =>
            stored.map fun outcome =>
              ⟨refresh.snapshot, refresh.full, .proposal row.pk, row.version,
                outcome, some current, refresh.now⟩

end Checks

/-! ## Ministry requests -/

def FiledRequest.accepted (row : FiledRequest) : Bool :=
  row.state == .resolved && row.outcome.any rosterOutcome

/-- `ministry_membership_is_current`: an end date is exclusive. -/
def membershipIsCurrent (row : RosterRow) (today : Int) : Bool :=
  (row.startDate.isSome || row.endDate.isSome) &&
    row.startDate.all (fun date => decide (date ≤ today)) &&
    row.endDate.all fun date => decide (today < date)

def rosterHeld (corpus : RefreshCorpus) (asOf : Option Int) :
    List (String × String) :=
  (corpus.roster.filter fun row =>
    match asOf with
    | none => row.current
    | some today => membershipIsCurrent row today).map fun row =>
      (row.memberKey, row.ministryKey)

/-- The Ministry roster date. -/
def rosterDate (commitment refreshed : Option Int) : Option Int :=
  commitment.map fun begins => refreshed.elim begins fun date => max begins date

namespace RefreshBook

/-- The live requests a person resolved or closed. -/
def decidedRequests (book : RefreshBook) (campaign : Nat) : List FiledRequest :=
  book.requests.filter fun row =>
    book.inCampaign campaign row.submission && row.entity.kind == .member &&
      row.state.decided && !row.sourceResolved

def tick (book : RefreshBook) (request : Nat) : Option RosterTick :=
  (book.ticks.filter fun tick => tick.request == request).getLast?

/-- The mark a request's checks are counted from. -/
def tickedAt (book : RefreshBook) (request : Nat) : Option Int :=
  (book.tick request).bind fun tick =>
    if tick.entered then some tick.createdAt else none

/-- An accepted request marked Entered by hand. -/
def ticked (book : RefreshBook) (row : FiledRequest) : Bool :=
  row.accepted && (book.tick row.pk).any (·.entered)

/-- The stage a decided request is compared at. -/
def ministryStage (book : RefreshBook) (row : FiledRequest) : Stage :=
  if row.accepted then
    if book.ticked row then .enteredByHand else .toEnterByHand
  else
    .ignored

/-- Whether the roster holds a request's Member in its Ministry, while the data
lists both. -/
def rosterEvidence (book : RefreshBook) (refresh : Refresh)
    (row : FiledRequest) : Option Bool :=
  let ministry := if row.accepted then row.currentMinistry else row.ministry
  let familyKey := toString (book.submission row.submission).familyDUID
  let listed := (refresh.corpus.member row.entity.key).any fun member =>
    member.familyKey == familyKey && member.active && !member.deceased
  let offered := (refresh.corpus.ministry (toString ministry)).any
    (·.catalogPresent)
  if !listed || !offered then
    none
  else
    some ((rosterHeld refresh.corpus
      (rosterDate book.commitment refresh.refreshed)).contains
      (row.entity.key, toString ministry))

/-- One request of the source's `_ministry_checks`. -/
def ministryCheck (book : RefreshBook) (refresh : Refresh)
    (row : FiledRequest) : Option (Option StoredCheck) :=
  let state := book.itemState (.request row.pk) row.version
    (book.tickedAt row.pk)
  if state.outcome = .confirmed then
    some none
  else
    match book.rosterEvidence refresh row with
    | none => some none
    | some current =>
        let wanted := row.action == .join
        (refreshOutcome (fun left right => some (left == right))
            (book.ministryStage row) current (!wanted) wanted none true
            (state.unseen + refresh.full.toNat) book.threshold).map fun result =>
          (storedOutcome result).bind fun stored =>
            if owed stored state refresh.full (book.ticked row) false then
              some ⟨refresh.snapshot, refresh.full, .request row.pk,
                row.version, stored, none, refresh.now⟩
            else
              none

/-! ## Recording -/

/-- Every census and Ministry check one promotion owes. -/
def owedChecks [Unicode] (book : RefreshBook) (campaign : Nat)
    (refresh : Refresh) : Option (List StoredCheck) := do
  let census ← (book.censusRows campaign).mapM (book.censusCheck refresh)
  let ministry ← (book.decidedRequests campaign).mapM
    (book.ministryCheck refresh)
  return census.reduceOption ++ ministry.reduceOption

/-- The Updated in ParishSoft change of a conflict check, at its version. -/
def conflicted (check : StoredCheck) (row : ProposedChange) : Bool :=
  decide (check.item = .proposal row.pk) && row.execution == .published &&
    row.version == check.itemVersion

/-- A change a refresh moves to Conflict, To review again. -/
def conflict (check : StoredCheck) (row : ProposedChange) : ProposedChange :=
  { row with
    current := some (check.observed.getD .null)
    currentSource := check.snapshot
    execution := .conflict
    decision := .unreviewed
    version := row.version + 1 }

/-- The source's `_to_conflict`, on the changes. -/
def moveToConflict (changes : List ProposedChange) (check : StoredCheck) :
    Option (List ProposedChange) :=
  if check.outcome = .conflict then
    if changes.countP (conflicted check) = 1 then
      some (changes.map fun row =>
        if conflicted check row then conflict check row else row)
    else
      none
  else
    some changes

theorem moveToConflict_keys
    {changes moved : List ProposedChange} {check : StoredCheck}
    (succeeds : moveToConflict changes check = some moved) :
    moved.map (·.pk) = changes.map (·.pk) := by
  unfold moveToConflict at succeeds
  split at succeeds
  · split at succeeds
    · cases succeeds
      rw [List.map_map]
      refine List.map_congr_left fun row _ => ?_
      rw [Function.comp_apply]
      split <;> rfl
    · cases succeeds
  · cases succeeds
    rfl

theorem moveToConflict_foldlM_keys
    {checks : List StoredCheck} {changes moved : List ProposedChange}
    (succeeds : checks.foldlM moveToConflict changes = some moved) :
    moved.map (·.pk) = changes.map (·.pk) := by
  induction checks generalizing changes with
  | nil =>
      cases succeeds
      rfl
  | cons check checks inductionHypothesis =>
      rw [List.foldlM_cons] at succeeds
      obtain ⟨next, first, rest⟩ := Option.bind_eq_some_iff.mp succeeds
      rw [inductionHypothesis rest, moveToConflict_keys first]

/-- `record_refresh_checks`: the checks are stored, and the Updated in
ParishSoft changes they found changed move to Conflict. -/
def record [Unicode] (book : RefreshBook) (campaign : Nat)
    (refresh : Refresh) : Option RefreshBook :=
  (book.owedChecks campaign refresh).bind fun checks =>
    match moved : checks.foldlM moveToConflict book.changes with
    | none => none
    | some changes => some { book with
        checks := book.checks ++ checks
        changes
        changesKeyed := by
          rw [moveToConflict_foldlM_keys moved]
          exact book.changesKeyed }

/-- `refresh_checks_current`: a quick refresh would record no check. -/
def checksCurrent [Unicode] (book : RefreshBook) (campaign : Nat)
    (refresh : Refresh) : Option Bool :=
  (book.owedChecks campaign { refresh with full := false }).map (·.isEmpty)

theorem record_eq_some
    [Unicode] {book recorded : RefreshBook} {campaign : Nat} {refresh : Refresh}
    (succeeds : book.record campaign refresh = some recorded) :
    ∃ checks changes, book.owedChecks campaign refresh = some checks ∧
      checks.foldlM moveToConflict book.changes = some changes ∧
      recorded.checks = book.checks ++ checks ∧ recorded.changes = changes ∧
      recorded.submission = book.submission ∧ recorded.marks = book.marks ∧
      recorded.requests = book.requests ∧ recorded.ticks = book.ticks ∧
      recorded.start = book.start ∧ recorded.commitment = book.commitment := by
  obtain ⟨checks, owes, moves⟩ := Option.bind_eq_some_iff.mp succeeds
  split at moves
  · cases moves
  · rename_i changes moved
    cases moves
    exact ⟨checks, changes, owes, moved, rfl, rfl, rfl, rfl, rfl, rfl, rfl, rfl⟩

end RefreshBook

end ParishKit.Responses
