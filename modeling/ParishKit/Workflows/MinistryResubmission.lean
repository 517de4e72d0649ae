import ParishKit.Workflows.OneRequest

/-!
# Submitting a reviewed form as it was drawn

A form is drawn from one book and judged in a later one, after decisions only.
What an entry shows is read from columns no decision changes, and in a book with
one request of an entity and a Ministry no two entries draw the same choice.
-/

namespace ParishKit.Workflows

open ParishKit.Lib ParishKit.Pipeline ParishKit.Responses

/-! ## While a form is open -/

/-- Everything but a Family submission. -/
def DecisionsOnly (_book : MinistryBook) : MinistryOp → Prop
  | .submit .. => False
  | _ => True

/-- Requests in force stay in force, and revisions are kept. -/
structure Later (book later : MinistryBook) : Prop where
  rows : ∀ request ∈ book.requests, request.state.inForce = true →
    ∃ row ∈ later.requests, row.identity = request.identity ∧
      row.state.inForce = true
  revisions : book.revisions ⊆ later.revisions

theorem Later.refl (book : MinistryBook) : Later book book where
  rows request member inForce := ⟨request, member, rfl, inForce⟩
  revisions := List.Subset.refl _

theorem Later.trans
    {first second third : MinistryBook}
    (left : Later first second) (right : Later second third) :
    Later first third where
  rows request member inForce := by
    obtain ⟨middle, middleMember, same, middleInForce⟩ :=
      left.rows request member inForce
    obtain ⟨row, rowMember, rowSame, rowInForce⟩ :=
      right.rows middle middleMember middleInForce
    exact ⟨row, rowMember, rowSame.trans same, rowInForce⟩
  revisions := List.Subset.trans left.revisions right.revisions

theorem Later.of_update
    {book next : MinistryBook} {pk : Nat}
    {change : MinistryRequest → MinistryRequest}
    (rows : next.requests = (book.update pk change).requests)
    (same : ∀ row, (change row).identity = row.identity)
    (remains : ∀ row, (change row).state.inForce = true)
    (revisions : book.revisions ⊆ next.revisions) : Later book next where
  rows request member inForce := by
    rw [rows]
    refine ⟨_, List.mem_map_of_mem member, ?_⟩
    by_cases isTarget : request.pk = pk
    · rw [if_pos isTarget]
      exact ⟨same request, remains request⟩
    · rw [if_neg isTarget]
      exact ⟨rfl, inForce⟩
  revisions := revisions

theorem Later.writeRevision
    (book : MinistryBook) (request : MinistryRequest) {state : RequestState}
    (outcome : Option RequestOutcome) (reviewed : Option Nat)
    (remains : state.inForce = true) :
    Later book (book.writeRevision request state outcome reviewed) :=
  Later.of_update rfl (fun _ => rfl) (fun _ => remains)
    (List.subset_append_left ..)

theorem Later.undo
    (book : MinistryBook) (request : MinistryRequest) (current : Placement) :
    Later book (book.undo request current) := by
  obtain ⟨state, outcome, reviewed, remains, -, undone⟩ :=
    undo_eq book request current
  rw [undone]
  have revised := Later.writeRevision book request outcome reviewed remains
  exact ⟨revised.rows, revised.revisions⟩

theorem Later.step
    {book next : MinistryBook} (kept : BookInv book) {op : MinistryOp}
    (permitted : DecisionsOnly book op) (applied : op.apply book = some next) :
    Later book next := by
  cases op with
  | decide pk version noted action =>
      cases decide_decided applied with
      | ticked => exact ⟨(Later.refl book).rows, List.Subset.refl _⟩
      | undone request current => exact Later.undo book request current
      | plain request action state outcome _ _ remains =>
          exact Later.writeRevision book request outcome none remains
      | edited request ministry outcome =>
          exact Later.writeRevision book request outcome (some ministry) rfl
  | undoEntered pk noted =>
      obtain ⟨request, current, -, -, rfl⟩ := undoEntered_eq_some applied
      exact Later.undo book request current
  | add member ministry action inPlaceOf =>
      have added := add_added kept applied
      constructor
      · intro request listed inForce
        refine ⟨request, ?_, rfl, inForce⟩
        rw [added.requests]
        exact List.mem_append_left _ listed
      · rw [added.revisions]
        exact List.subset_append_left ..
  | refreshResolve pk =>
      obtain ⟨request, -, -, rfl⟩ := refreshResolve_eq_some applied
      exact Later.of_update rfl (fun _ => rfl) (fun _ => rfl)
        (List.Subset.refl _)
  | refreshConfirm pk =>
      obtain ⟨request, -, confirmed⟩ := Option.bind_eq_some_iff.mp applied
      cases confirmed
      exact ⟨(Later.refl book).rows, List.Subset.refl _⟩
  | submit inputs entries answers => cases permitted

/-- A book that only decisions were made in since the form was drawn. -/
structure Meanwhile (book later : MinistryBook) : Prop where
  kept : BookInv later
  later : Later book later

theorem meanwhile_of_reaches
    {book later : MinistryBook} (kept : BookInv book)
    (reached : Reaches MinistryOp.apply DecisionsOnly book later) :
    Meanwhile book later := by
  have initial : Meanwhile book book := ⟨kept, Later.refl book⟩
  refine reached.invariant initial ?_
  rintro source op target ⟨sourceKept, sofar⟩ permitted applied
  exact ⟨sourceKept.step applied,
    sofar.trans (Later.step sourceKept permitted applied)⟩

/-! ## What an entry shows -/

/-- The request an entry of a form was drawn from, and how it is read back. -/
structure DrawnFrom (book : MinistryBook) (entry : MinistryEntry)
    (request : MinistryRequest) : Prop where
  listed : request ∈ book.requests
  latest : book.isLatest request = true
  inForce : request.state.inForce = true
  item : entry.item = request.pk
  entity : entry.entity = request.entity
  ministry : entry.ministry = request.ministry
  decision : ∀ pk, entry.decision = some pk →
    ∃ revision ∈ book.revisions, revision.pk = pk ∧
      revision.reviewed = request.reviewed

theorem mem_requestIndex {book : MinistryBook} {request : MinistryRequest} :
    request ∈ requestIndex book ↔
      request ∈ book.requests ∧ book.isLatest request = true := by
  simp [requestIndex, List.mem_insertionSort]

theorem ministryEntry_eq_some
    {inputs : MinistryInputs} {book : MinistryBook} {request : MinistryRequest}
    {entry : MinistryEntry}
    (recorded : ministryEntry inputs book request = some entry) :
    entry.item = request.pk ∧ entry.entity = request.entity ∧
      entry.ministry = request.ministry ∧ ∀ pk, entry.decision = some pk →
        ∃ revision ∈ book.revisions, revision.pk = pk ∧
          revision.reviewed = request.reviewed := by
  unfold ministryEntry at recorded
  obtain ⟨roster, -, placing⟩ := Option.bind_eq_some_iff.mp recorded
  obtain ⟨placement, -, showing⟩ := Option.bind_eq_some_iff.mp placing
  obtain ⟨shown, -, drawing⟩ := Option.bind_eq_some_iff.mp showing
  dsimp only at drawing
  split at drawing
  · cases drawing
  · split at drawing
    · obtain ⟨revision, found, rfl⟩ := Option.map_eq_some_iff.mp drawing
      refine ⟨rfl, rfl, rfl, fun pk named => ?_⟩
      have listed := List.mem_filter.mp (List.mem_of_getLast? found)
      refine ⟨revision, listed.1, by simpa using named, ?_⟩
      have carries := listed.2
      simp only [Bool.and_eq_true, beq_iff_eq] at carries
      exact carries.2
    · cases drawing
      exact ⟨rfl, rfl, rfl, fun pk named => by cases named⟩

theorem mem_shownItems
    {inputs : MinistryInputs} {book : MinistryBook} {entry : MinistryEntry}
    (shown : entry ∈ shownItems inputs book) :
    ∃ request, ministryEntry inputs book request = some entry ∧
      DrawnFrom book entry request := by
  have recorded : entry ∈ ministryEntries inputs book := by
    simpa [shownItems, List.mem_insertionSort] using shown
  obtain ⟨request, member, drawn⟩ := List.mem_filterMap.mp recorded
  obtain ⟨indexed, inForce⟩ := List.mem_filter.mp member
  obtain ⟨listed, latest⟩ := mem_requestIndex.mp indexed
  obtain ⟨item, entity, ministry, decision⟩ := ministryEntry_eq_some drawn
  exact ⟨request, drawn, listed, latest, by simpa using inForce, item, entity,
    ministry, decision⟩

/-- An entry is read back in a later book as in the book it was drawn from. -/
theorem readShown_later
    {book later : MinistryBook} (kept : BookInv book)
    (meanwhile : Meanwhile book later) {entry : MinistryEntry}
    {request row : MinistryRequest} (drawn : DrawnFrom book entry request)
    (same : row.identity = request.identity) :
    readShown later entry row = readShown book entry request := by
  have sameRevision : entry.decision.bind later.revision? =
      entry.decision.bind book.revision? := by
    cases named : entry.decision with
    | none => rfl
    | some pk =>
        obtain ⟨revision, listed, rfl, -⟩ := drawn.decision pk named
        rw [Option.bind_some, Option.bind_some, kept.revision?_of_mem listed,
          meanwhile.kept.revision?_of_mem (meanwhile.later.revisions listed)]
  rw [readShown, readShown, sameRevision]
  unfold ministryShown
  rw [ministry_eq same]

/-- A request holds the Ministry its entry shows. -/
theorem holds_of_shown
    {book : MinistryBook} (kept : BookInv book) {entry : MinistryEntry}
    {request : MinistryRequest} (drawn : DrawnFrom book entry request)
    {ministry : Nat} (showed : readShown book entry request = some ministry) :
    request.holds ministry = true := by
  rw [holds_iff]
  unfold readShown ministryShown at showed
  split at showed
  · cases showed
  · rename_i edit named
    obtain ⟨pk, decision, found⟩ := Option.bind_eq_some_iff.mp named
    obtain ⟨revision, listed, rfl, carries⟩ := drawn.decision pk decision
    rw [kept.revision?_of_mem listed] at found
    cases found
    exact Or.inr (carries.symm.trans showed)
  · exact Or.inl (Option.some.inj showed)

/-! ## The drawn choices -/

/-- The choices a response makes are those its form draws for whom it answers. -/
def AsDrawn (book : MinistryBook) (entries : List MinistryEntry)
    (answers : MinistryAnswers) : Prop :=
  ∀ choice, choice ∈ answers.chosen ↔
    choice ∈ ministryDraw book entries ∧ choice.entity ∈ answers.answered

theorem mem_ministryDraw
    {inputs : MinistryInputs} {book : MinistryBook} (kept : BookInv book)
    {choice : Choice} :
    choice ∈ ministryDraw book (shownItems inputs book) ↔
      ∃ entry ∈ shownItems inputs book, ∃ request,
        ministryEntry inputs book request = some entry ∧
        DrawnFrom book entry request ∧
        readShown book entry request = some choice.ministry ∧
        entry.choice choice.ministry = choice := by
  constructor
  · intro drawn
    obtain ⟨entry, shown, chooses⟩ := List.mem_filterMap.mp drawn
    obtain ⟨request, recorded, source⟩ := mem_shownItems shown
    obtain ⟨found, lookup, chooses⟩ := Option.bind_eq_some_iff.mp chooses
    rw [source.item, kept.request?_of_mem source.listed] at lookup
    cases lookup
    obtain ⟨ministry, showed, made⟩ := Option.bind_eq_some_iff.mp chooses
    cases made
    exact ⟨entry, shown, request, recorded, source, showed, rfl⟩
  · rintro ⟨entry, shown, request, -, source, showed, same⟩
    refine List.mem_filterMap.mpr ⟨entry, shown, ?_⟩
    rw [source.item, kept.request?_of_mem source.listed]
    refine Option.bind_eq_some_iff.mpr ⟨request, rfl, ?_⟩
    exact Option.bind_eq_some_iff.mpr ⟨choice.ministry, showed,
      congrArg some same⟩

/-- Where requests hold no common Ministry, one request holds what is chosen. -/
theorem Orderly.same_entry
    {inputs : MinistryInputs} {book : MinistryBook} (orderly : Orderly true book)
    {left right : MinistryEntry} {first second : MinistryRequest}
    (leftRecorded : ministryEntry inputs book first = some left)
    (rightRecorded : ministryEntry inputs book second = some right)
    (leftDrawn : DrawnFrom book left first)
    (rightDrawn : DrawnFrom book right second)
    (sameEntity : left.entity = right.entity) {ministry : Nat}
    (leftHolds : first.holds ministry = true)
    (rightHolds : second.holds ministry = true) : left = right := by
  by_cases samePk : first.pk = second.pk
  · have identical := orderly.kept.pk_injective leftDrawn.listed
      rightDrawn.listed samePk
    rw [identical, rightRecorded] at leftRecorded
    exact (Option.some.inj leftRecorded).symm
  · have unheld := orderly.one first leftDrawn.listed second rightDrawn.listed
      samePk (leftDrawn.entity.symm.trans (sameEntity.trans rightDrawn.entity))
      (counted_iff.mpr ⟨leftDrawn.latest, leftDrawn.inForce, Or.inl rfl⟩)
      (counted_iff.mpr ⟨rightDrawn.latest, rightDrawn.inForce, Or.inl rfl⟩)
      ministry leftHolds
    rw [rightHolds] at unheld
    cases unheld

/-! ## The judgement -/

/-- A derivation that has made and closed nothing, and still has the choices of
the entries to come. -/
structure Untouched (later : MinistryBook) (answers : MinistryAnswers)
    (rest : List MinistryEntry) (work : Derivation) : Prop where
  created : work.created = []
  cancelled : work.cancelled = []
  unused : work.remaining ⊆ answers.chosen
  unspent : ∀ entry ∈ rest, entry.entity ∈ answers.answered →
    ∀ row, later.request? entry.item = some row →
    ∀ ministry, readShown later entry row = some ministry →
    entry.choice ministry ∈ work.remaining

section Judging

variable {inputs : MinistryInputs} {book later : MinistryBook}
  {answers : MinistryAnswers} (orderly : Orderly true book)
  (meanwhile : Meanwhile book later)
  (asDrawn : AsDrawn book (shownItems inputs book) answers)

include orderly meanwhile in
/-- The row an entry names in the later book. -/
theorem exists_later_row
    {entry : MinistryEntry} (shown : entry ∈ shownItems inputs book) :
    ∃ request row, ministryEntry inputs book request = some entry ∧
      DrawnFrom book entry request ∧ later.request? entry.item = some row ∧
      row ∈ later.requests ∧ row.identity = request.identity ∧
      row.state.inForce = true ∧
      readShown later entry row = readShown book entry request := by
  obtain ⟨request, recorded, drawn⟩ := mem_shownItems shown
  obtain ⟨row, listed, same, inForce⟩ :=
    meanwhile.later.rows request drawn.listed drawn.inForce
  refine ⟨request, row, recorded, drawn, ?_, listed, same, inForce,
    readShown_later orderly.kept meanwhile drawn same⟩
  rw [drawn.item, ← pk_eq same]
  exact meanwhile.kept.request?_of_mem listed

include orderly meanwhile asDrawn in
theorem Untouched.judgeEntry
    {entry : MinistryEntry} {rest : List MinistryEntry} {work : Derivation}
    (untouched : Untouched later answers (entry :: rest) work)
    (shown : entry ∈ shownItems inputs book)
    (recorded : rest ⊆ shownItems inputs book) (once : entry ∉ rest) :
    Untouched later answers rest
      (Responses.judgeEntry later answers.answered work entry) := by
  obtain ⟨request, row, ofRequest, drawn, found, -, same, -, readBack⟩ :=
    exists_later_row orderly meanwhile shown
  have judged := judgeEntry_judgement later answers.answered work entry
  generalize Responses.judgeEntry later answers.answered work entry = next
    at judged
  have unspentRest : ∀ other ∈ rest, other.entity ∈ answers.answered →
      ∀ row, later.request? other.item = some row →
      ∀ ministry, readShown later other row = some ministry →
      other.choice ministry ∈ work.remaining := by
    intro other member
    exact untouched.unspent other (List.mem_cons_of_mem entry member)
  cases judged with
  | skipped =>
      exact ⟨untouched.created, untouched.cancelled, untouched.unused,
        unspentRest⟩
  | hidden =>
      exact ⟨untouched.created, untouched.cancelled, untouched.unused,
        unspentRest⟩
  | reopened other sameFound inScope _ changed isChosen =>
      cases found.symm.trans sameFound
      obtain ⟨wasDrawn, -⟩ := (asDrawn _).mp (untouched.unused isChosen)
      obtain ⟨source, sourceShown, owner, ownerRecorded, ownerDrawn, showed,
        sameChoice⟩ := (mem_ministryDraw orderly.kept).mp wasDrawn
      have sameEntity : source.entity = entry.entity :=
        congrArg Choice.entity sameChoice
      have ownHeld : request.holds row.ministry = true :=
        holds_iff.mpr (Or.inl (ministry_eq same).symm)
      have identical := orderly.same_entry ownerRecorded ofRequest ownerDrawn
        drawn sameEntity (holds_of_shown orderly.kept ownerDrawn showed) ownHeld
      subst identical
      have sameOwner := orderly.kept.pk_injective ownerDrawn.listed drawn.listed
        (ownerDrawn.item.symm.trans drawn.item)
      rw [readBack, ← sameOwner] at changed
      exact absurd showed changed
  | kept other ministry sameFound inScope displayed isChosen =>
      cases found.symm.trans sameFound
      refine ⟨untouched.created, untouched.cancelled,
        List.Subset.trans (List.filter_subset_self ..) untouched.unused, ?_⟩
      intro next member nextInScope nextRow nextFound shownNext nextShows
      refine List.mem_filter.mpr ⟨unspentRest next member nextInScope nextRow
        nextFound shownNext nextShows, ?_⟩
      by_contra clash
      have sameChoice : next.choice shownNext = entry.choice ministry := by
        simpa using clash
      obtain ⟨owner, ownerRow, ownerRecorded, ownerDrawn, ownerFound, -, -, -,
        ownerReadBack⟩ := exists_later_row orderly meanwhile (recorded member)
      cases nextFound.symm.trans ownerFound
      have sameMinistry : shownNext = ministry :=
        congrArg Choice.ministry sameChoice
      have identical := orderly.same_entry ownerRecorded ofRequest ownerDrawn
        drawn (congrArg Choice.entity sameChoice)
        (holds_of_shown orderly.kept ownerDrawn
          (ownerReadBack.symm.trans (sameMinistry ▸ nextShows)))
        (holds_of_shown orderly.kept drawn (readBack.symm.trans displayed))
      exact once (identical ▸ member)
  | withdrawn other ministry sameFound inScope displayed unchosen =>
      exact absurd (untouched.unspent entry List.mem_cons_self inScope other
        sameFound ministry displayed) unchosen
  | spared other ministry sameFound inScope displayed unchosen =>
      exact absurd (untouched.unspent entry List.mem_cons_self inScope other
        sameFound ministry displayed) unchosen

include orderly meanwhile asDrawn in
theorem Untouched.judgeEntries
    {rest : List MinistryEntry} {work : Derivation}
    (untouched : Untouched later answers rest work)
    (recorded : rest ⊆ shownItems inputs book) (distinct : rest.Nodup) :
    Untouched later answers []
      (rest.foldl (Responses.judgeEntry later answers.answered) work) := by
  induction rest generalizing work with
  | nil => exact untouched
  | cons entry rest inductionHypothesis =>
      have others : rest ⊆ shownItems inputs book :=
        List.Subset.trans (List.subset_cons_self ..) recorded
      obtain ⟨once, distinctRest⟩ := List.nodup_cons.mp distinct
      exact inductionHypothesis
        (untouched.judgeEntry orderly meanwhile asDrawn
          (recorded List.mem_cons_self) others once)
        others distinctRest

include orderly in
theorem shownItems_nodup (inputs : MinistryInputs) :
    (shownItems inputs book).Nodup := by
  have indexed : ((requestIndex book).map (·.pk)).Nodup := by
    have perm := (List.perm_insertionSort (fun left right => indexLe left right)
      (book.requests.filter fun request => book.isLatest request)).map (·.pk)
    refine perm.nodup_iff.mpr (orderly.kept.distinct.sublist ?_)
    exact List.filter_sublist.map _
  refine (List.perm_insertionSort _ _).nodup_iff.mpr ?_
  refine List.pairwise_filterMap.mpr (List.Pairwise.filter _
    ((List.pairwise_map.mp indexed).imp ?_))
  intro left right different entry leftRecorded other rightRecorded same
  have leftItem := (ministryEntry_eq_some leftRecorded).1
  have rightItem := (ministryEntry_eq_some rightRecorded).1
  rw [← leftItem, ← rightItem, same] at different
  exact different rfl

include orderly meanwhile asDrawn in
/-- The shown requests account for every choice, with nothing made or closed. -/
theorem judgeEntries_untouched :
    (judgeEntries later answers (shownItems inputs book)).remaining = [] ∧
      (judgeEntries later answers (shownItems inputs book)).created = [] ∧
      (judgeEntries later answers (shownItems inputs book)).cancelled = [] := by
  have start : Untouched later answers (shownItems inputs book)
      ⟨requestIndex later, answers.chosen, [], []⟩ := by
    refine ⟨rfl, rfl, List.Subset.refl _, ?_⟩
    intro entry shown inScope row found ministry showed
    obtain ⟨request, other, recorded, drawn, sameFound, -, -, -, readBack⟩ :=
      exists_later_row orderly meanwhile shown
    cases found.symm.trans sameFound
    refine (asDrawn _).mpr ⟨?_, inScope⟩
    exact (mem_ministryDraw orderly.kept).mpr ⟨entry, shown, request, recorded,
      drawn, readBack.symm.trans showed, rfl⟩
  have final := start.judgeEntries orderly meanwhile asDrawn
    (List.Subset.refl _) (shownItems_nodup orderly inputs)
  refine ⟨?_, final.created, final.cancelled⟩
  refine List.eq_nil_iff_forall_not_mem.mpr fun choice left => ?_
  obtain ⟨wasDrawn, inScope⟩ := (asDrawn choice).mp (final.unused left)
  obtain ⟨entry, shown, request, -, drawn, showed, sameChoice⟩ :=
    (mem_ministryDraw orderly.kept).mp wasDrawn
  obtain ⟨other, row, -, otherDrawn, found, -, -, inForce, readBack⟩ :=
    exists_later_row orderly meanwhile shown
  cases orderly.kept.pk_injective drawn.listed otherDrawn.listed
    (drawn.item.symm.trans otherDrawn.item)
  have entryEntity : entry.entity = choice.entity :=
    congrArg Choice.entity sameChoice
  obtain ⟨new, made, -⟩ := shown_choice_used shown found inForce
    (entryEntity ▸ inScope) (readBack.trans showed) (sameChoice.symm ▸ left)
  rw [judgeEntries, final.created] at made
  cases made

end Judging

/-- The final pass leaves a judged request alone. -/
theorem judged_not_previous
    {book : MinistryBook} {answers : MinistryAnswers}
    {entries : List MinistryEntry} {entry : MinistryEntry}
    {request old : MinistryRequest} (shown : entry ∈ entries)
    (found : book.request? entry.item = some request)
    (inForce : request.state.inForce = true)
    (inScope : entry.entity ∈ answers.answered)
    (left : old ∈ (judgeEntries book answers entries).previous) :
    ¬ (old.entity = entry.entity ∧ old.ministry = entry.ministry) := by
  rintro ⟨sameEntity, sameMinistry⟩
  obtain ⟨before, after, judged, -, progress⟩ := exists_judged book answers shown
  have popped : old ∉ (before.pop entry.entity entry.ministry).previous := by
    simp [Derivation.pop, sameEntity, sameMinistry]
  have stillLeft := progress.previous left
  cases judged with
  | skipped absent => exact absent request found inForce inScope
  | reopened => exact popped stillLeft
  | hidden => exact popped stillLeft
  | kept => exact popped stillLeft
  | withdrawn => exact popped stillLeft
  | spared => exact popped stillLeft

/-- Submitting a form as drawn makes no request and closes none of those it
showed, in every book whose submissions answered the Edits, whatever was decided
while the form was open. -/
theorem ministry_resubmission_is_noop
    (book later : MinistryBook)
    (reached : Reaches MinistryOp.apply (KeepsOneRequest true)
      MinistryBook.empty book)
    (decisions : Reaches MinistryOp.apply DecisionsOnly book later)
    (inputs current : MinistryInputs) (answers : MinistryAnswers)
    (asDrawn : AsDrawn book (shownItems inputs book) answers) :
    (deriveMinistryRequests later current (shownItems inputs book)
        answers).created = [] ∧
      ∀ entry ∈ shownItems inputs book, entry.entity ∈ answers.answered →
        (deriveMinistryRequests later current (shownItems inputs book)
          answers).closes entry.item = false := by
  have orderly := orderly_of_reaches reached
  have meanwhile := meanwhile_of_reaches orderly.kept decisions
  obtain ⟨remaining, created, cancelled⟩ :=
    judgeEntries_untouched orderly meanwhile asDrawn
  have nothing : (deriveMinistryRequests later current (shownItems inputs book)
      answers).created = [] := by
    simp [deriveMinistryRequests, remaining, created]
  refine ⟨nothing, fun entry shown inScope => ?_⟩
  obtain ⟨request, row, -, drawn, found, listed, same, inForce, -⟩ :=
    exists_later_row orderly meanwhile shown
  have kept : entry.item ∉ (deriveMinistryRequests later current
      (shownItems inputs book) answers).cancelled := by
    simp only [deriveMinistryRequests, remaining, List.foldl_nil, cancelled,
      List.nil_append]
    intro closed
    obtain ⟨old, pending, samePk⟩ := List.mem_map.mp closed
    obtain ⟨left, -⟩ := List.mem_filter.mp pending
    have oldListed : old ∈ later.requests := by
      have started := (Progress.foldl (judgeEntry_progress later answers.answered)
        (shownItems inputs book)
        ⟨requestIndex later, answers.chosen, [], []⟩).previous left
      exact (mem_requestIndex.mp started).1
    have isRow := meanwhile.kept.pk_injective oldListed listed
      (samePk.trans (drawn.item.trans (pk_eq same).symm))
    refine judged_not_previous shown found inForce inScope left ?_
    rw [isRow, entity_eq same, ministry_eq same]
    exact ⟨drawn.entity.symm, drawn.ministry.symm⟩
  rw [Derivation.closes, nothing]
  simpa using kept

/-! ## The Member who is asked about three Ministries -/

theorem asDrawn_of_mem
    {book : MinistryBook} {entries : List MinistryEntry}
    {answers : MinistryAnswers}
    (drawn : ∀ choice ∈ answers.chosen, choice ∈ ministryDraw book entries)
    (chosen : ∀ choice ∈ ministryDraw book entries, choice ∈ answers.chosen) :
    AsDrawn book entries answers := by
  intro choice
  constructor
  · intro isChosen
    exact ⟨drawn choice isChosen, answers.inScope choice isChosen⟩
  · rintro ⟨isDrawn, -⟩
    exact chosen choice isDrawn

/-- An edited and an added request are drawn as Ministries 1 and 3; the edited one
is ticked before the form comes back. -/
theorem ministry_resubmission_after_tick :
    ∃ book later,
      run MinistryOp.apply MinistryBook.empty editThenAdd = some book ∧
      book.decide 0 2 false .enteredByHand = some later ∧
      (shownItems eightInputs book).map (·.item) = [0, 1] ∧
      (deriveMinistryRequests later eightInputs (shownItems eightInputs book)
        (eightJoins [1, 3] (by decide))).created = [] ∧
      ∀ entry ∈ shownItems eightInputs book, entry.entity ∈ [memberEight] →
        (deriveMinistryRequests later eightInputs (shownItems eightInputs book)
          (eightJoins [1, 3] (by decide))).closes entry.item = false := by
  have ends : (run MinistryOp.apply MinistryBook.empty editThenAdd).any
      (fun book => (book.decide 0 2 false .enteredByHand).isSome &&
        decide ((shownItems eightInputs book).map (·.item) = [0, 1]) &&
        decide (ministryDraw book (shownItems eightInputs book) =
          [⟨memberEight, .join, 1⟩, ⟨memberEight, .join, 3⟩])) = true := by
    decide +kernel
  obtain ⟨book, finished, shape⟩ := (Option.any_eq_true _ _).mp ends
  simp only [Bool.and_eq_true, decide_eq_true_eq] at shape
  obtain ⟨⟨ticks, items⟩, drawn⟩ := shape
  obtain ⟨later, ticked⟩ := Option.isSome_iff_exists.mp ticks
  have reached : Reaches MinistryOp.apply (KeepsOneRequest true)
      MinistryBook.empty book := by
    refine reaches_of_run finished ⟨?_, fun _ _ => ⟨trivial, fun _ _ =>
      ⟨trivial, fun _ _ => trivial⟩⟩⟩
    intro choice _ other member
    cases member
  have decisions : Reaches MinistryOp.apply DecisionsOnly book later :=
    Relation.ReflTransGen.single
      ⟨.decide 0 2 false .enteredByHand, trivial, ticked⟩
  have asDrawn : AsDrawn book (shownItems eightInputs book)
      (eightJoins [1, 3] (by decide)) := by
    refine asDrawn_of_mem ?_ ?_
    · intro choice isChosen
      rw [drawn]
      exact isChosen
    · intro choice isDrawn
      rw [drawn] at isDrawn
      exact isDrawn
  exact ⟨book, later, finished, ticked, items,
    ministry_resubmission_is_noop book later reached decisions eightInputs
      eightInputs (eightJoins [1, 3] (by decide)) asDrawn⟩

/-- Two requests drawn as Ministry 1: submitting the form as drawn cancels the
edited one. -/
theorem ministry_resubmission_cancels_edited :
    ∃ first second book,
      submit MinistryBook.empty eightInputs []
        (eightJoins [2] (by decide)) = some first ∧
      first.decide 0 1 false (.edit 1) = some second ∧
      submit second eightInputs (shownItems eightInputs first)
        (eightJoins [2, 1] (by decide)) = some book ∧
      AsDrawn book (shownItems eightInputs book)
        (eightJoins [1] (by decide)) ∧
      ∃ entry ∈ shownItems eightInputs book,
        (deriveMinistryRequests book eightInputs (shownItems eightInputs book)
          (eightJoins [1] (by decide))).closes entry.item = true := by
  refine ⟨_, _, _, rfl, rfl, rfl, asDrawn_of_mem ?_ ?_, ?_⟩
  · decide +kernel
  · decide +kernel
  · decide +kernel

end ParishKit.Workflows
