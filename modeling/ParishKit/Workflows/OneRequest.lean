import ParishKit.Workflows.MinistryBookInvariant

/-!
# One request of an entity and a Ministry

`_current_request` is checked by an Edit and an Add only. Two other steps can
leave two requests that hold a Ministry: a Family submission that chooses a
Ministry another request was edited into, and a Back to review that clears a
tick. `KeepsOneRequest` says when they do not.
-/

namespace ParishKit.Workflows

open ParishKit.Lib ParishKit.Pipeline ParishKit.Responses

/-- Whether a request counts: the latest of its Ministry and in force. A ticked
one counts only when `ticked` says so. -/
def MinistryBook.counted (ticked : Bool) (book : MinistryBook)
    (request : MinistryRequest) : Bool :=
  book.isLatest request && request.state.inForce &&
    (ticked || !book.entered request.pk)

/-- No two requests of an entity that count hold a common Ministry. -/
def OneRequest (ticked : Bool) (book : MinistryBook) : Prop :=
  ∀ left ∈ book.requests, ∀ right ∈ book.requests, left.pk ≠ right.pk →
    left.entity = right.entity → book.counted ticked left = true →
    book.counted ticked right = true →
    ∀ ministry, left.holds ministry = true → right.holds ministry = false

/-! ## The steps that keep it -/

/-- The form shows `request` as this choice. -/
def ShownAs (book : MinistryBook) (entries : List MinistryEntry)
    (request : MinistryRequest) (choice : Choice) : Prop :=
  ∃ entry ∈ entries, entry.item = request.pk ∧
    entry.choice choice.ministry = choice ∧
    readShown book entry request = some choice.ministry

/-- No shown request of the entity is in force for this very Ministry. -/
def OwnUnshown (book : MinistryBook) (entries : List MinistryEntry)
    (choice : Choice) : Prop :=
  ∀ entry ∈ entries, entry.entity = choice.entity → ∀ request,
    book.request? entry.item = some request → request.state.inForce = true →
    request.ministry ≠ choice.ministry

/-- The form shows `request` as a choice that the response takes off. -/
def TakenOff (book : MinistryBook) (entries : List MinistryEntry)
    (answers : MinistryAnswers) (request : MinistryRequest) : Prop :=
  isProtected book request = false ∧
    ∃ entry ∈ entries, entry.item = request.pk ∧
      entry.entity = request.entity ∧
      ∃ ministry, readShown book entry request = some ministry ∧
        entry.choice ministry ∉ answers.chosen

/-- A response that chooses a Ministry which a request was edited into has been
shown that Edit, or takes that request off. -/
def EditsAnswered (ticked : Bool) (book : MinistryBook)
    (entries : List MinistryEntry) (answers : MinistryAnswers) : Prop :=
  ∀ choice ∈ answers.chosen, ∀ other ∈ book.requests,
    other.entity = choice.entity → book.counted ticked other = true →
    other.reviewed = some choice.ministry →
    (ShownAs book entries other choice ∧ OwnUnshown book entries choice) ∨
      TakenOff book entries answers other

/-- No request that counts shares a Ministry with a ticked one. -/
def TickAlone (book : MinistryBook) (pk : Nat) : Prop :=
  book.entered pk = true → ∀ target ∈ book.requests, target.pk = pk →
    ∀ other ∈ book.requests, other.pk ≠ pk → target.entity = other.entity →
    book.counted false other = true →
    ∀ ministry, target.holds ministry = true → other.holds ministry = false

def KeepsOneRequest (ticked : Bool) (book : MinistryBook) : MinistryOp → Prop
  | .submit _ entries answers => EditsAnswered ticked book entries answers
  | .decide pk _ _ .backToReview => ticked = true ∨ TickAlone book pk
  | .undoEntered pk _ => ticked = true ∨ TickAlone book pk
  | _ => True

/-! ## One changed row -/

theorem counted_iff
    {ticked : Bool} {book : MinistryBook} {request : MinistryRequest} :
    book.counted ticked request = true ↔ book.isLatest request = true ∧
      request.state.inForce = true ∧
      (ticked = true ∨ book.entered request.pk = false) := by
  simp [MinistryBook.counted, and_assoc]

/-- A step that changes one row keeps the others apart; the changed row must stay
clear of them. -/
theorem OneRequest.of_update
    {ticked : Bool} {book next : MinistryBook} {pk : Nat}
    {change : MinistryRequest → MinistryRequest}
    (one : OneRequest ticked book)
    (same : ∀ row, (change row).identity = row.identity)
    (rows : next.requests = (book.update pk change).requests)
    (ticks : ∀ other, other ≠ pk → next.entered other = book.entered other)
    (clear : ∀ target ∈ book.requests, target.pk = pk →
      ∀ other ∈ book.requests, other.pk ≠ pk → target.entity = other.entity →
      next.counted ticked (change target) = true →
      book.counted ticked other = true →
      ∀ ministry, (change target).holds ministry = true →
        other.holds ministry = false) :
    OneRequest ticked next := by
  have sameIdentities : next.identities = book.identities := by
    rw [MinistryBook.identities, rows]
    exact identities_update book pk same
  have grown : book.identities ⊆ next.identities := by
    rw [sameIdentities]
    exact List.Subset.refl _
  have countedBefore : ∀ row, row.pk ≠ pk →
      next.counted ticked row = true → book.counted ticked row = true := by
    intro row notTarget counts
    rw [counted_iff] at counts ⊢
    rw [ticks row.pk notTarget] at counts
    exact ⟨isLatest_of_subset grown rfl counts.1, counts.2⟩
  intro left leftMember right rightMember different sameEntity leftCounts
    rightCounts ministry leftHolds
  rw [rows] at leftMember rightMember
  obtain ⟨first, firstMember, rfl⟩ := List.mem_map.mp leftMember
  obtain ⟨second, secondMember, rfl⟩ := List.mem_map.mp rightMember
  by_cases firstTarget : first.pk = pk
  · by_cases secondTarget : second.pk = pk
    · simp only [if_pos firstTarget, if_pos secondTarget] at different
      rw [pk_eq (same first), pk_eq (same second), firstTarget,
        secondTarget] at different
      exact absurd rfl different
    · simp only [if_pos firstTarget, if_neg secondTarget] at *
      rw [entity_eq (same first)] at sameEntity
      exact clear first firstMember firstTarget second secondMember secondTarget
        sameEntity leftCounts (countedBefore second secondTarget rightCounts)
        ministry leftHolds
  · by_cases secondTarget : second.pk = pk
    · simp only [if_neg firstTarget, if_pos secondTarget] at *
      rw [entity_eq (same second)] at sameEntity
      by_contra held
      have clash := clear second secondMember secondTarget first firstMember
        firstTarget sameEntity.symm rightCounts
        (countedBefore first firstTarget leftCounts) ministry (by simpa using held)
      rw [leftHolds] at clash
      cases clash
    · simp only [if_neg firstTarget, if_neg secondTarget] at *
      exact one first firstMember second secondMember different sameEntity
        (countedBefore first firstTarget leftCounts)
        (countedBefore second secondTarget rightCounts) ministry leftHolds

theorem holds_iff {request : MinistryRequest} {ministry : Nat} :
    request.holds ministry = true ↔
      request.ministry = ministry ∨ request.reviewed = some ministry := by
  simp [MinistryRequest.holds]

/-- A revision of a request that counted before keeps the book when no other
request holds the Ministry it carries forward. -/
theorem OneRequest.of_revision
    {ticked : Bool} {book next : MinistryBook} {request : MinistryRequest}
    {state : RequestState} {outcome : Option RequestOutcome}
    {reviewed : Option Nat}
    (one : OneRequest ticked book) (kept : BookInv book)
    (member : request ∈ book.requests) (inForce : request.state.inForce = true)
    (rows : next.requests =
      (book.writeRevision request state outcome reviewed).requests)
    (ticks : ∀ other, other ≠ request.pk →
      next.entered other = book.entered other)
    (alone : ticked = true ∨ next.entered request.pk = book.entered request.pk ∨
      TickAlone book request.pk)
    (carried : ∀ other ∈ book.requests, other.pk ≠ request.pk →
      request.entity = other.entity → other.state.inForce = true →
      ∀ ministry, reviewed = some ministry → request.holds ministry = false →
      other.holds ministry = false) :
    OneRequest ticked next := by
  have same (row : MinistryRequest) :
      (row.revise state outcome reviewed).identity = row.identity := rfl
  refine one.of_update same rows ticks ?_
  intro target targetMember isTarget other otherMember notTarget sameEntity
    counts otherCounts ministry held
  cases kept.pk_injective targetMember member isTarget
  have otherInForce := (counted_iff.mp otherCounts).2.1
  by_cases heldBefore : request.holds ministry = true
  · by_cases countedBefore : book.counted ticked request = true
    · exact one request member other otherMember (Ne.symm notTarget) sameEntity
        countedBefore otherCounts ministry heldBefore
    · have latest : book.isLatest request = true := by
        refine isLatest_of_subset ?_ rfl (counted_iff.mp counts).1
        have sameIdentities := identities_writeRevision book request state
          outcome reviewed
        rw [MinistryBook.identities, ← rows] at sameIdentities
        rw [← sameIdentities]
        exact List.Subset.refl _
      have notTicked : ticked = false := by
        by_contra isTicked
        exact countedBefore (counted_iff.mpr
          ⟨latest, inForce, Or.inl (by simpa using isTicked)⟩)
      subst notTicked
      have nowUnticked : next.entered request.pk = false := by
        simpa [MinistryRequest.revise] using (counted_iff.mp counts).2.2
      have wasTicked : book.entered request.pk = true := by
        by_contra unticked
        exact countedBefore (counted_iff.mpr
          ⟨latest, inForce, Or.inr (by simpa using unticked)⟩)
      rcases alone with impossible | unchanged | tickAlone
      · cases impossible
      · rw [unchanged, wasTicked] at nowUnticked
        cases nowUnticked
      · exact tickAlone wasTicked request member rfl other otherMember notTarget
          sameEntity otherCounts ministry heldBefore
  · have unheld : request.holds ministry = false := by
      simpa using heldBefore
    rcases holds_iff.mp held with own | carriedOn
    · have heldOwn : request.holds ministry = true := holds_iff.mpr (Or.inl own)
      exact absurd heldOwn heldBefore
    · exact carried other otherMember notTarget sameEntity otherInForce ministry
        carriedOn unheld

theorem OneRequest.of_fewer
    {ticked : Bool} {book next : MinistryBook} (one : OneRequest ticked book)
    (rows : next.requests = book.requests)
    (ticks : ∀ pk, book.entered pk = true → next.entered pk = true) :
    OneRequest ticked next := by
  have fewer : ∀ request, next.counted ticked request = true →
      book.counted ticked request = true := by
    intro request counts
    rw [counted_iff] at counts ⊢
    refine ⟨?_, counts.2.1, counts.2.2.imp_right fun unticked => ?_⟩
    · simpa [MinistryBook.isLatest, rows] using counts.1
    · by_contra wasTicked
      rw [ticks request.pk (by simpa using wasTicked)] at unticked
      cases unticked
  intro left leftMember right rightMember different sameEntity leftCounts
    rightCounts
  rw [rows] at leftMember rightMember
  exact one left leftMember right rightMember different sameEntity
    (fewer left leftCounts) (fewer right rightCounts)

theorem OneRequest.undo
    {ticked : Bool} {book : MinistryBook} {request : MinistryRequest}
    (one : OneRequest ticked book) (kept : BookInv book)
    (member : request ∈ book.requests) (inForce : request.state.inForce = true)
    (alone : ticked = true ∨ TickAlone book request.pk) (current : Placement) :
    OneRequest ticked (book.undo request current) := by
  obtain ⟨state, outcome, reviewed, -, noMore, undone⟩ :=
    undo_eq book request current
  rw [undone]
  refine one.of_revision kept member inForce rfl ?_
    (alone.imp_right Or.inr) ?_
  · intro other different
    simp [MinistryBook.setEntered, MinistryBook.writeRevision,
      MinistryBook.update, different]
  · intro other _ _ _ _ ministry carriedOn unheld
    rcases noMore with rfl | rfl
    · cases carriedOn
    · rw [holds_iff.mpr (Or.inr carriedOn)] at unheld
      cases unheld

theorem not_holds_of_currentRequest
    {book : MinistryBook} {entity : Entity} {ministry : Nat}
    {exclude : Option Nat} {other : MinistryRequest}
    (unheld : book.currentRequest entity ministry exclude = false)
    (member : other ∈ book.requests) (sameEntity : entity = other.entity)
    (inForce : other.state.inForce = true) (included : some other.pk ≠ exclude) :
    other.holds ministry = false := by
  have notCurrent := List.any_eq_false.mp unheld other member
  simpa [sameEntity, inForce, included] using notCurrent

theorem OneRequest.decide
    {ticked : Bool} {book next : MinistryBook} {pk version : Nat} {noted : Bool}
    {action : ReviewAction}
    (one : OneRequest ticked book) (kept : BookInv book)
    (permitted : KeepsOneRequest ticked book (.decide pk version noted action))
    (decided : book.decide pk version noted action = some next) :
    OneRequest ticked next := by
  cases decide_decided decided with
  | ticked =>
      refine one.of_fewer rfl fun other wasTicked => ?_
      by_cases isTarget : other = pk
      · simp [MinistryBook.setEntered, isTarget]
      · simpa [MinistryBook.setEntered, isTarget] using wasTicked
  | undone request current found inForce =>
      obtain ⟨member, rfl⟩ := request?_eq_some found
      exact one.undo kept member inForce permitted current
  | plain request action state outcome found inForce =>
      obtain ⟨member, rfl⟩ := request?_eq_some found
      refine one.of_revision kept member inForce rfl (fun _ _ => rfl)
        (Or.inr (Or.inl rfl)) ?_
      intro other _ _ _ _ ministry carriedOn
      cases carriedOn
  | edited request ministry outcome found inForce unheld =>
      obtain ⟨member, rfl⟩ := request?_eq_some found
      refine one.of_revision kept member inForce rfl (fun _ _ => rfl)
        (Or.inr (Or.inl rfl)) ?_
      intro other otherMember different sameEntity otherInForce held carriedOn _
      cases carriedOn
      exact not_holds_of_currentRequest unheld otherMember sameEntity otherInForce
        (by simpa using different)

theorem OneRequest.refreshResolve
    {ticked : Bool} {book next : MinistryBook} {pk : Nat}
    (one : OneRequest ticked book) (kept : BookInv book)
    (resolved : book.refreshResolve pk = some next) : OneRequest ticked next := by
  obtain ⟨request, found, inForce, rfl⟩ := refreshResolve_eq_some resolved
  obtain ⟨member, rfl⟩ := request?_eq_some found
  have same (row : MinistryRequest) :
      row.resolveFromSource.identity = row.identity := rfl
  refine one.of_update same rfl (fun _ _ => rfl) ?_
  intro target targetMember isTarget other otherMember notTarget sameEntity
    counts otherCounts ministry held
  cases kept.pk_injective targetMember member isTarget
  refine one request member other otherMember (Ne.symm notTarget) sameEntity ?_
    otherCounts ministry held
  rw [counted_iff] at counts ⊢
  refine ⟨isLatest_of_subset ?_ rfl counts.1, inForce, counts.2.2⟩
  rw [identities_update book request.pk same]
  exact List.Subset.refl _

/-! ## New rows -/

/-- A step that closes some requests and adds rows keeps the book when the rows
hold their own Ministry only, replace every older request of it, and stay clear
of the Edits that remain. -/
theorem OneRequest.of_added
    {ticked : Bool} {book next : MinistryBook}
    {close : MinistryRequest → MinistryRequest} {rows : List MinistryRequest}
    (one : OneRequest ticked book) (nextKept : BookInv next)
    (grown : next.requests = book.requests.map close ++ rows)
    (same : ∀ request, (close request).identity = request.identity)
    (left : ∀ request, (close request).state.inForce = true →
      close request = request)
    (ticks : next.entered = book.entered)
    (plain : ∀ row ∈ rows, row.reviewed = none)
    (clear : ∀ row ∈ rows, ∀ request ∈ book.requests,
      request.entity = row.entity → book.counted ticked request = true →
      next.isLatest request = true → close request = request →
      request.reviewed ≠ some row.ministry) :
    OneRequest ticked next := by
  have larger : book.identities ⊆ next.identities := by
    intro identity member
    obtain ⟨request, listed, rfl⟩ := List.mem_map.mp member
    rw [MinistryBook.identities, grown, ← same request]
    exact List.mem_map_of_mem
      (List.mem_append_left _ (List.mem_map_of_mem listed))
  have countedBefore : ∀ request, next.counted ticked request = true →
      book.counted ticked request = true := by
    intro request counts
    rw [counted_iff] at counts ⊢
    rw [ticks] at counts
    exact ⟨isLatest_of_subset larger rfl counts.1, counts.2⟩
  have apart : ∀ row ∈ rows, row ∈ next.requests →
      ∀ other ∈ next.requests, row.pk ≠ other.pk → other.entity = row.entity →
      next.counted ticked row = true → next.counted ticked other = true →
      other.holds row.ministry = false := by
    intro row isRow rowMember other otherMember different sameEntity rowCounts
      otherCounts
    by_contra held
    rcases holds_iff.mp (by simpa using held) with own | carriedOn
    · have identical := nextKept.latest_unique otherMember rowMember
        (counted_iff.mp otherCounts).1 (counted_iff.mp rowCounts).1 sameEntity own
      exact different (by rw [identical])
    · rw [grown] at otherMember
      rcases List.mem_append.mp otherMember with old | new
      · obtain ⟨request, listed, rfl⟩ := List.mem_map.mp old
        have unchanged := left request (counted_iff.mp otherCounts).2.1
        rw [unchanged] at carriedOn sameEntity otherCounts
        exact clear row isRow request listed sameEntity
          (countedBefore request otherCounts) (counted_iff.mp otherCounts).1
          unchanged carriedOn
      · rw [plain other new] at carriedOn
        cases carriedOn
  have holdsOwn : ∀ row ∈ rows, ∀ ministry, row.holds ministry = true →
      row.ministry = ministry := by
    intro row isRow ministry held
    rcases holds_iff.mp held with own | carriedOn
    · exact own
    · rw [plain row isRow] at carriedOn
      cases carriedOn
  intro first firstMember second secondMember different sameEntity firstCounts
    secondCounts ministry held
  have firstSide := firstMember
  have secondSide := secondMember
  rw [grown] at firstSide secondSide
  rcases List.mem_append.mp firstSide with firstOld | firstNew
  · rcases List.mem_append.mp secondSide with secondOld | secondNew
    · obtain ⟨request, listed, rfl⟩ := List.mem_map.mp firstOld
      obtain ⟨other, otherListed, rfl⟩ := List.mem_map.mp secondOld
      rw [left request (counted_iff.mp firstCounts).2.1] at *
      rw [left other (counted_iff.mp secondCounts).2.1] at *
      exact one request listed other otherListed different sameEntity
        (countedBefore request firstCounts) (countedBefore other secondCounts)
        ministry held
    · by_contra secondHolds
      have own := holdsOwn second secondNew ministry (by simpa using secondHolds)
      have unheld := apart second secondNew secondMember first firstMember
        different.symm sameEntity secondCounts firstCounts
      rw [own, held] at unheld
      cases unheld
  · have own := holdsOwn first firstNew ministry held
    rw [← own]
    exact apart first firstNew firstMember second secondMember different
      sameEntity.symm firstCounts secondCounts

theorem OneRequest.add
    {ticked : Bool} {book next : MinistryBook} {member : String} {ministry : Nat}
    {action : RosterAction} {inPlaceOf : Option Nat}
    (one : OneRequest ticked book) (kept : BookInv book)
    (adds : book.add member ministry action inPlaceOf = some next) :
    OneRequest ticked next := by
  have added := add_added kept adds
  have grown : next.requests = book.requests.map id ++
      [addedRow book member ministry action inPlaceOf] := by
    rw [List.map_id]
    exact added.requests
  refine one.of_added (added.bookInv kept) grown (fun _ => rfl)
    (fun _ _ => rfl) added.entered ?_ ?_
  · intro row isRow
    cases List.mem_singleton.mp isRow
    rfl
  · intro row isRow request listed sameEntity counts _ _ carriedOn
    cases List.mem_singleton.mp isRow
    have unheld := not_holds_of_currentRequest added.unheld listed
      sameEntity.symm (counted_iff.mp counts).2.1 (by simp)
    rw [holds_iff.mpr (Or.inr carriedOn)] at unheld
    cases unheld

/-- A request that a new row of its key follows is not the latest. -/
theorem not_latest_of_created
    {book next : MinistryBook} (kept : BookInv book) {inputs : MinistryInputs}
    {entries : List MinistryEntry} {answers : MinistryAnswers}
    (submitted : submit book inputs entries answers = some next)
    {request : MinistryRequest} (listed : request ∈ book.requests)
    {new : NewRequest}
    (made : new ∈ (deriveMinistryRequests book inputs entries answers).created)
    (sameEntity : new.entity = request.entity)
    (sameMinistry : new.ministry = request.ministry) :
    next.isLatest request = false := by
  by_contra latest
  obtain ⟨index, bound, found⟩ := List.getElem_of_mem made
  have notLater := (isLatest_iff next request).mp (by simpa using latest)
    ⟨book.requests.length + index, book.familyVersion + 1, new.entity,
      new.ministry, new.action⟩ ?_ sameEntity.symm sameMinistry.symm
  · have dated := kept.dated request.identity (List.mem_map_of_mem listed)
    simp only [MinistryRequest.identity] at dated notLater
    omega
  · rw [identities_submit submitted]
    refine List.mem_append_right _ (List.mem_map.mpr ⟨_, List.mem_map.mpr
      ⟨(new, index), ?_, rfl⟩, rfl⟩)
    rw [List.mem_zipIdx_iff_getElem?, List.getElem?_eq_getElem bound, found]

theorem OneRequest.submit
    {ticked : Bool} {book next : MinistryBook} {inputs : MinistryInputs}
    {entries : List MinistryEntry} {answers : MinistryAnswers}
    (one : OneRequest ticked book) (kept : BookInv book)
    (answered : EditsAnswered ticked book entries answers)
    (submitted : Responses.submit book inputs entries answers = some next) :
    OneRequest ticked next := by
  let work := deriveMinistryRequests book inputs entries answers
  have nextKept := kept.submit submitted
  obtain ⟨-, written⟩ := submit_eq_some submitted
  have grown : next.requests =
      book.requests.map (work.close book.requests.length) ++
        work.rows book.requests.length (book.familyVersion + 1) := by
    rw [written]
  refine one.of_added nextKept grown (close_identity work _)
    (fun _ => close_of_inForce) (by rw [written]) ?_ ?_
  · intro row isRow
    obtain ⟨new, -, -, -, -, unreviewed, -⟩ := mem_rows isRow
    exact unreviewed
  · intro row isRow request listed sameEntity counts latest unchanged carriedOn
    obtain ⟨new, made, rowEntity, rowMinistry, -, -, -⟩ := mem_rows isRow
    have inForce := (counted_iff.mp counts).2.1
    have found := kept.request?_of_mem listed
    have newEntity : new.entity = request.entity :=
      rowEntity.symm.trans sameEntity.symm
    have notTaken : ∀ choice ∈ answers.chosen, choice.entity = request.entity →
        ¬ TakenOff book entries answers request := by
      rintro choice isChosen choiceEntity
        ⟨exposed, entry, shown, item, entryEntity, ministry, showed, dropped⟩
      have inScope : entry.entity ∈ answers.answered := by
        rw [entryEntity, ← choiceEntity]
        exact answers.inScope choice isChosen
      have closed := close_of_closes book.requests.length
        (taken_off_closed inputs shown (item ▸ found) inForce inScope exposed
          showed dropped)
      rw [unchanged, inForce] at closed
      cases closed
    rw [rowMinistry] at carriedOn
    rcases created_source made with reopens | derived
    · obtain ⟨entry, shown, own, ownFound, ownInForce, ofEntry, ofOwn,
        isChosen⟩ := reopens
      have entryEntity : request.entity = entry.entity :=
        newEntity.symm.trans ofEntry
      rcases answered _ isChosen request listed entryEntity counts
        (carriedOn.trans (congrArg some ofOwn)) with ⟨-, unshown⟩ | taken
      · exact unshown entry shown rfl own ownFound ownInForce rfl
      · exact notTaken _ isChosen entryEntity.symm taken
    · obtain ⟨choice, left, ofEntity, ofMinistry⟩ := derived
      have isChosen := judgeEntries_remaining book answers entries left
      have choiceEntity : request.entity = choice.entity :=
        newEntity.symm.trans ofEntity
      rcases answered choice isChosen request listed choiceEntity counts
        (carriedOn.trans (congrArg some ofMinistry)) with ⟨seen, -⟩ | taken
      · obtain ⟨entry, shown, item, sameChoice, showed⟩ := seen
        have entryEntity : entry.entity = choice.entity :=
          congrArg Choice.entity sameChoice
        obtain ⟨again, madeAgain, againEntity, againMinistry⟩ :=
          shown_choice_used shown (item ▸ found) inForce
            (entryEntity ▸ answers.inScope choice isChosen) showed
            (sameChoice.symm ▸ left)
        have replaced := not_latest_of_created kept submitted listed
          (judgeEntries_created madeAgain)
          (againEntity.trans (entryEntity.trans choiceEntity.symm)) againMinistry
        rw [latest] at replaced
        cases replaced
      · exact notTaken choice isChosen choiceEntity.symm taken

/-! ## Whole runs -/

theorem OneRequest.step
    {ticked : Bool} {book next : MinistryBook} {op : MinistryOp}
    (one : OneRequest ticked book) (kept : BookInv book)
    (permitted : KeepsOneRequest ticked book op)
    (applied : op.apply book = some next) : OneRequest ticked next := by
  cases op with
  | decide pk version noted action => exact one.decide kept permitted applied
  | undoEntered pk noted =>
      obtain ⟨request, current, found, inForce, rfl⟩ :=
        undoEntered_eq_some applied
      obtain ⟨member, rfl⟩ := request?_eq_some found
      exact one.undo kept member inForce permitted current
  | add member ministry action inPlaceOf => exact one.add kept applied
  | refreshResolve pk => exact one.refreshResolve kept applied
  | refreshConfirm pk =>
      obtain ⟨request, -, confirmed⟩ := Option.bind_eq_some_iff.mp applied
      cases confirmed
      exact one.of_fewer rfl fun _ wasTicked => wasTicked
  | submit inputs entries answers => exact one.submit kept permitted applied

structure Orderly (ticked : Bool) (book : MinistryBook) : Prop where
  kept : BookInv book
  one : OneRequest ticked book

theorem orderly_of_reaches
    {ticked : Bool} {book : MinistryBook}
    (reached : Reaches MinistryOp.apply (KeepsOneRequest ticked)
      MinistryBook.empty book) :
    Orderly ticked book := by
  have initial : Orderly ticked MinistryBook.empty := by
    refine ⟨bookInv_empty, fun left member => ?_⟩
    cases member
  refine reached.invariant initial ?_
  rintro source op target ⟨kept, one⟩ permitted applied
  exact ⟨kept.step applied, one.step kept permitted applied⟩

/-- One request of an entity and a Ministry: in every run whose submissions
answer the Edits and whose undone ticks stand alone, no two latest requests in
force that are not ticked hold a common Ministry. -/
theorem one_request_per_ministry
    (book : MinistryBook)
    (reached : Reaches MinistryOp.apply (KeepsOneRequest false)
      MinistryBook.empty book) :
    ∀ left ∈ book.requests, ∀ right ∈ book.requests, left.pk ≠ right.pk →
      left.entity = right.entity →
      book.isLatest left = true → book.isLatest right = true →
      left.state.inForce = true → right.state.inForce = true →
      book.entered left.pk = false → book.entered right.pk = false →
      ∀ ministry, ¬ (left.holds ministry = true ∧
        right.holds ministry = true) := by
  intro left leftMember right rightMember different sameEntity leftLatest
    rightLatest leftInForce rightInForce leftTick rightTick ministry
  rintro ⟨leftHolds, rightHolds⟩
  have unheld := (orderly_of_reaches reached).one left leftMember right
    rightMember different sameEntity
    (counted_iff.mpr ⟨leftLatest, leftInForce, Or.inr leftTick⟩)
    (counted_iff.mpr ⟨rightLatest, rightInForce, Or.inr rightTick⟩) ministry
    leftHolds
  rw [rightHolds] at unheld
  cases unheld

/-! ## A Member who is asked about three Ministries -/

def memberEight : Entity :=
  ⟨.member, "8"⟩

def eightInputs : MinistryInputs where
  options := [1, 2, 3]
  memberships := [("8", [])]
  proposed := []

def eightJoins (ministries : List Nat) (distinct : ministries.Nodup) :
    MinistryAnswers where
  answered := [memberEight]
  chosen := ministries.map fun ministry => ⟨memberEight, .join, ministry⟩
  distinct := distinct.map fun _ _ same => congrArg Choice.ministry same
  inScope := by
    intro choice member
    obtain ⟨ministry, -, rfl⟩ := List.mem_map.mp member
    exact List.mem_singleton_self _

/-- The Family asks for Ministry 2, an Edit moves the request to Ministry 1, and
the parish adds Ministry 3. -/
def editThenAdd : List MinistryOp :=
  [.submit eightInputs [] (eightJoins [2] (by decide)),
    .decide 0 1 false (.edit 1),
    .add "8" 3 .join none]

/-- An edited request beside one the parish added for another Ministry. -/
def editedBesideAdded (book : MinistryBook) : Bool :=
  match book.requests with
  | [left, right] =>
      left.reviewed == some 1 && right.ministry == 3 &&
      left.pk != right.pk && left.entity == right.entity &&
      book.isLatest left && book.isLatest right &&
      left.state.inForce && right.state.inForce &&
      !book.entered left.pk && !book.entered right.pk
  | _ => false

theorem one_request_after_edit_and_add :
    ∃ book, run MinistryOp.apply MinistryBook.empty editThenAdd = some book ∧
      ∃ left ∈ book.requests, ∃ right ∈ book.requests,
        left.reviewed = some 1 ∧ right.ministry = 3 ∧
        ∀ ministry, ¬ (left.holds ministry = true ∧
          right.holds ministry = true) := by
  have ends : (run MinistryOp.apply MinistryBook.empty editThenAdd).any
      editedBesideAdded = true := by
    decide +kernel
  obtain ⟨book, finished, shape⟩ := (Option.any_eq_true _ _).mp ends
  have reached : Reaches MinistryOp.apply (KeepsOneRequest false)
      MinistryBook.empty book := by
    refine reaches_of_run finished ⟨?_, fun _ _ => ⟨trivial, fun _ _ =>
      ⟨trivial, fun _ _ => trivial⟩⟩⟩
    intro choice _ other member
    cases member
  unfold editedBesideAdded at shape
  split at shape
  · rename_i left right rows
    simp only [Bool.and_eq_true, bne_iff_ne, beq_iff_eq,
      Bool.not_eq_true'] at shape
    obtain ⟨⟨⟨⟨⟨⟨⟨⟨⟨edited, added⟩, different⟩, sameEntity⟩, leftLatest⟩,
      rightLatest⟩, leftInForce⟩, rightInForce⟩, leftTick⟩, rightTick⟩ := shape
    have leftMember : left ∈ book.requests := by simp [rows]
    have rightMember : right ∈ book.requests := by simp [rows]
    exact ⟨book, finished, left, leftMember, right, rightMember, edited, added,
      one_request_per_ministry book reached left leftMember right rightMember
        different sameEntity leftLatest rightLatest leftInForce rightInForce
        leftTick rightTick⟩
  · cases shape

/-- The Family asks for Ministry 2; while its next form is open, an Edit moves the
request to Ministry 1, which the Family then chooses as well. -/
theorem two_requests_for_edited_ministry :
    ∃ first second book,
      submit MinistryBook.empty eightInputs []
        (eightJoins [2] (by decide)) = some first ∧
      first.decide 0 1 false (.edit 1) = some second ∧
      submit second eightInputs (shownItems eightInputs first)
        (eightJoins [2, 1] (by decide)) = some book ∧
      ∃ left ∈ book.requests, ∃ right ∈ book.requests,
        left.pk ≠ right.pk ∧ left.entity = right.entity ∧
        book.isLatest left = true ∧ book.isLatest right = true ∧
        left.state.inForce = true ∧ right.state.inForce = true ∧
        book.entered left.pk = false ∧ book.entered right.pk = false ∧
        left.parishAdded = false ∧ right.parishAdded = false ∧
        left.holds 1 = true ∧ right.holds 1 = true := by
  refine ⟨_, _, _, rfl, rfl, rfl, ?_⟩
  decide +kernel

end ParishKit.Workflows
