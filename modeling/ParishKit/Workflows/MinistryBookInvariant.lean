import ParishKit.Lib.Keyed
import ParishKit.Lib.Transition
import ParishKit.Responses.MinistryDerivation

/-!
# The operations on a Family's requests

Every operation keeps the identity of each row it finds, so the rows are numbered
and one response has one request of an entity and a Ministry.
-/

namespace ParishKit.Workflows

open ParishKit.Lib ParishKit.Pipeline ParishKit.Responses

/-- What the Family, Staff, Ministry leaders and a refresh do. -/
inductive MinistryOp where
  | decide (pk version : Nat) (noted : Bool) (action : ReviewAction)
  | undoEntered (pk : Nat) (noted : Bool)
  | add (member : String) (ministry : Nat) (action : RosterAction)
      (inPlaceOf : Option Nat)
  | refreshResolve (pk : Nat)
  | refreshConfirm (pk : Nat)
  | submit (inputs : MinistryInputs) (entries : List MinistryEntry)
      (answers : MinistryAnswers)

def MinistryOp.apply : MinistryOp → MinistryBook → Option MinistryBook
  | .decide pk version noted action, book => book.decide pk version noted action
  | .undoEntered pk noted, book => book.undoEntered pk noted
  | .add member ministry action inPlaceOf, book =>
      book.add member ministry action inPlaceOf
  | .refreshResolve pk, book => book.refreshResolve pk
  | .refreshConfirm pk, book => book.refreshConfirm pk
  | .submit inputs entries answers, book =>
      Responses.submit book inputs entries answers

/-! ## Identities -/

/-- What no operation changes of a request. -/
structure RequestIdentity where
  pk : Nat
  familyVersion : Nat
  entity : Entity
  ministry : Nat
  action : RosterAction

def MinistryRequest.identity (request : MinistryRequest) : RequestIdentity :=
  ⟨request.pk, request.familyVersion, request.entity, request.ministry,
    request.action⟩

def MinistryBook.identities (book : MinistryBook) : List RequestIdentity :=
  book.requests.map MinistryRequest.identity

section Identity

variable {row old : MinistryRequest} (same : row.identity = old.identity)
include same

theorem pk_eq : row.pk = old.pk :=
  congrArg RequestIdentity.pk same

theorem familyVersion_eq : row.familyVersion = old.familyVersion :=
  congrArg RequestIdentity.familyVersion same

theorem entity_eq : row.entity = old.entity :=
  congrArg RequestIdentity.entity same

theorem ministry_eq : row.ministry = old.ministry :=
  congrArg RequestIdentity.ministry same

theorem action_eq : row.action = old.action :=
  congrArg RequestIdentity.action same

end Identity

theorem isLatest_iff (book : MinistryBook) (request : MinistryRequest) :
    book.isLatest request = true ↔ ∀ other ∈ book.identities,
      request.entity = other.entity → request.ministry = other.ministry →
      other.familyVersion ≤ request.familyVersion := by
  simp only [MinistryBook.isLatest, MinistryBook.identities, List.all_eq_true,
    List.forall_mem_map, MinistryRequest.sameKey, MinistryRequest.identity]
  refine forall₂_congr fun other _ => ?_
  by_cases sameEntity : request.entity = other.entity
  · by_cases sameMinistry : request.ministry = other.ministry
    · simp [sameEntity, sameMinistry]
    · simp [sameMinistry]
  · simp [sameEntity]

/-- A row that stays latest in a larger book was latest before. -/
theorem isLatest_of_subset
    {book next : MinistryBook} {row old : MinistryRequest}
    (grown : book.identities ⊆ next.identities)
    (same : row.identity = old.identity) (latest : next.isLatest row = true) :
    book.isLatest old = true := by
  rw [isLatest_iff] at latest ⊢
  intro other member sameEntity sameMinistry
  rw [← familyVersion_eq same]
  exact latest other (grown member) ((entity_eq same).trans sameEntity)
    ((ministry_eq same).trans sameMinistry)

/-! ## The book invariant -/

structure BookInv (book : MinistryBook) : Prop where
  numbered : book.identities.map (·.pk) = List.range book.requests.length
  dated : ∀ request ∈ book.identities,
    request.familyVersion ≤ book.familyVersion
  keyed : (book.identities.map fun request =>
    (request.entity, request.ministry, request.familyVersion)).Nodup
  revised : book.revisions.map (·.pk) = List.range book.revisions.length

theorem bookInv_empty : BookInv MinistryBook.empty where
  numbered := rfl
  dated := by simp [MinistryBook.empty, MinistryBook.identities]
  keyed := List.nodup_nil
  revised := rfl

section Reading

variable {book : MinistryBook}

theorem identities_length (book : MinistryBook) :
    book.identities.length = book.requests.length :=
  List.length_map _

theorem BookInv.pk_lt
    (kept : BookInv book) {request : MinistryRequest}
    (member : request ∈ book.requests) : request.pk < book.requests.length := by
  have listed : request.pk ∈ book.identities.map (·.pk) :=
    List.mem_map_of_mem (List.mem_map_of_mem member)
  rw [kept.numbered] at listed
  exact List.mem_range.mp listed

theorem BookInv.distinct (kept : BookInv book) :
    (book.requests.map (·.pk)).Nodup := by
  have numbered := kept.numbered
  rw [MinistryBook.identities, List.map_map] at numbered
  have nodup := List.nodup_range (n := book.requests.length)
  rw [← numbered] at nodup
  exact nodup

theorem BookInv.pk_injective
    (kept : BookInv book) {left right : MinistryRequest}
    (leftMember : left ∈ book.requests) (rightMember : right ∈ book.requests)
    (same : left.pk = right.pk) : left = right :=
  List.inj_on_of_nodup_map kept.distinct leftMember rightMember same

theorem request?_eq_some
    {pk : Nat} {request : MinistryRequest}
    (found : book.request? pk = some request) :
    request ∈ book.requests ∧ request.pk = pk :=
  mem_of_find?_key found

theorem BookInv.request?_of_mem
    (kept : BookInv book) {request : MinistryRequest}
    (member : request ∈ book.requests) :
    book.request? request.pk = some request :=
  find?_key_of_mem kept.distinct member

/-- Two latest requests of one entity and Ministry are one request. -/
theorem BookInv.latest_unique
    (kept : BookInv book) {left right : MinistryRequest}
    (leftMember : left ∈ book.requests) (rightMember : right ∈ book.requests)
    (leftLatest : book.isLatest left = true)
    (rightLatest : book.isLatest right = true)
    (sameEntity : left.entity = right.entity)
    (sameMinistry : left.ministry = right.ministry) : left = right := by
  have leftListed : left.identity ∈ book.identities :=
    List.mem_map_of_mem leftMember
  have rightListed : right.identity ∈ book.identities :=
    List.mem_map_of_mem rightMember
  have notLater := (isLatest_iff book left).mp leftLatest _ rightListed
    sameEntity sameMinistry
  have notEarlier := (isLatest_iff book right).mp rightLatest _ leftListed
    sameEntity.symm sameMinistry.symm
  have sameVersion : left.familyVersion = right.familyVersion :=
    Nat.le_antisymm notEarlier notLater
  have identical := List.inj_on_of_nodup_map kept.keyed leftListed rightListed
    (by simp [MinistryRequest.identity, sameEntity, sameMinistry, sameVersion])
  exact kept.pk_injective leftMember rightMember
    (congrArg RequestIdentity.pk identical)

theorem BookInv.revision?_of_mem
    (kept : BookInv book) {revision : WorkflowRevision}
    (member : revision ∈ book.revisions) :
    book.revision? revision.pk = some revision := by
  refine find?_key_of_mem ?_ member
  rw [kept.revised]
  exact List.nodup_range

end Reading

/-! ## Rows kept and rows made -/

section Rows

variable {book next : MinistryBook}

/-- A step that keeps every row keeps the invariant. -/
theorem BookInv.of_kept
    (kept : BookInv book) (same : next.identities = book.identities)
    (version : next.familyVersion = book.familyVersion)
    (revised : next.revisions.map (·.pk) = List.range next.revisions.length) :
    BookInv next where
  numbered := by
    rw [← identities_length, same, kept.numbered, identities_length]
  dated := by
    rw [same, version]
    exact kept.dated
  keyed := by
    rw [same]
    exact kept.keyed
  revised := revised

/-- A step that adds the next rows of a response keeps the invariant. -/
theorem BookInv.of_added
    (kept : BookInv book) {rows : List RequestIdentity}
    (same : next.identities = book.identities ++ rows)
    (later : book.familyVersion ≤ next.familyVersion)
    (numbered : rows.map (·.pk) = List.range' book.requests.length rows.length)
    (dated : ∀ row ∈ rows, row.familyVersion = next.familyVersion)
    (distinct : (rows.map fun row => (row.entity, row.ministry)).Nodup)
    (fresh : ∀ row ∈ rows, ∀ request ∈ book.identities,
      request.familyVersion = next.familyVersion →
      request.entity = row.entity → request.ministry ≠ row.ministry)
    (revised : next.revisions.map (·.pk) = List.range next.revisions.length) :
    BookInv next where
  numbered := by
    rw [← identities_length, same, List.map_append, kept.numbered, numbered,
      List.length_append, identities_length, List.range_eq_range',
      List.range_eq_range']
    simpa using List.range'_append_1 (s := 0)
  dated := by
    intro request member
    rw [same] at member
    rcases List.mem_append.mp member with old | new
    · exact Nat.le_trans (kept.dated request old) later
    · exact Nat.le_of_eq (dated request new)
  keyed := by
    rw [same, List.map_append]
    refine List.nodup_append'.mpr ⟨kept.keyed, ?_, ?_⟩
    · refine List.Nodup.of_map (fun key => (key.1, key.2.1)) ?_
      rw [List.map_map]
      exact distinct
    · intro key old new
      obtain ⟨request, requestMember, rfl⟩ := List.mem_map.mp old
      obtain ⟨row, rowMember, sameKey⟩ := List.mem_map.mp new
      simp only [Prod.mk.injEq] at sameKey
      obtain ⟨sameEntity, sameMinistry, sameVersion⟩ := sameKey
      exact fresh row rowMember request requestMember
        (sameVersion.symm.trans (dated row rowMember)) sameEntity.symm
        sameMinistry.symm
  revised := revised

end Rows

/-! ## The steps -/

theorem identities_update
    (book : MinistryBook) (pk : Nat) {change : MinistryRequest → MinistryRequest}
    (same : ∀ row, (change row).identity = row.identity) :
    (book.update pk change).identities = book.identities := by
  simp only [MinistryBook.identities, MinistryBook.update, List.map_map]
  refine List.map_congr_left fun row _ => ?_
  by_cases isTarget : row.pk = pk
  · simp [isTarget, same]
  · simp [isTarget]

theorem identities_writeRevision
    (book : MinistryBook) (request : MinistryRequest) (state : RequestState)
    (outcome : Option RequestOutcome) (reviewed : Option Nat) :
    (book.writeRevision request state outcome reviewed).identities =
      book.identities :=
  identities_update book request.pk fun _ => rfl

theorem BookInv.writeRevision
    {book : MinistryBook} (kept : BookInv book) (request : MinistryRequest)
    (state : RequestState) (outcome : Option RequestOutcome)
    (reviewed : Option Nat) :
    BookInv (book.writeRevision request state outcome reviewed) := by
  refine kept.of_kept (identities_writeRevision ..) rfl ?_
  simp [MinistryBook.writeRevision, kept.revised, List.range_succ]

theorem BookInv.setEntered
    {book : MinistryBook} (kept : BookInv book) (pk : Nat) (value : Bool) :
    BookInv (book.setEntered pk value) :=
  kept.of_kept rfl rfl kept.revised

/-- An undo writes a revision that holds no more, and clears a tick. -/
theorem undo_eq (book : MinistryBook) (request : MinistryRequest)
    (current : Placement) :
    ∃ state outcome reviewed, state.inForce = true ∧
      (reviewed = none ∨ reviewed = request.reviewed) ∧
      book.undo request current =
        (book.writeRevision request state outcome reviewed).setEntered
          request.pk false := by
  have clear (undone : MinistryBook) (same : undone.entered = book.entered) :
      (if book.entered request.pk = true then undone.setEntered request.pk false
        else undone) = undone.setEntered request.pk false := by
    by_cases ticked : book.entered request.pk = true
    · rw [if_pos ticked]
    · rw [if_neg ticked]
      have unchanged : (undone.setEntered request.pk false).entered =
          undone.entered := by
        funext other
        by_cases isTarget : other = request.pk
        · simpa [MinistryBook.setEntered, isTarget, same] using ticked
        · simp [MinistryBook.setEntered, isTarget]
      cases undone
      simpa [MinistryBook.setEntered] using unchanged.symm
  unfold MinistryBook.undo
  dsimp only
  by_cases decided : current.decision.isSome = true
  · refine ⟨.resolved, request.outcome, request.reviewed, rfl, Or.inr rfl, ?_⟩
    rw [if_pos decided]
    exact clear _ rfl
  · refine ⟨.inProgress, none, none, rfl, Or.inl rfl, ?_⟩
    rw [if_neg decided]
    exact clear _ rfl

theorem BookInv.undo
    {book : MinistryBook} (kept : BookInv book) (request : MinistryRequest)
    (current : Placement) : BookInv (book.undo request current) := by
  obtain ⟨state, outcome, reviewed, -, -, undone⟩ := undo_eq book request current
  rw [undone]
  exact (kept.writeRevision ..).setEntered ..

/-- A request that is offered a decision is in force. -/
theorem inForce_of_offered
    {book : MinistryBook} {request : MinistryRequest} {current : Placement}
    {action : ReviewAction}
    (placed : book.placement request = some current)
    (offered : offers current.stage action = true) :
    request.state.inForce = true := by
  by_contra notInForce
  have closed : request.state.inForce = false := by
    simpa using notInForce
  have inactive : request.state.actionable = false := by
    cases state : request.state <;> simp_all [RequestState.inForce,
      RequestState.actionable]
  have history : current.stage = .history := by
    simp [MinistryBook.placement, ministryPlacement, inactive, closed] at placed
    rw [← placed]
  rw [history] at offered
  cases action <;> simp [offers] at offered

/-- What a decision does: a tick, an undo, a decision without an Edit, or an Edit
into a Ministry the entity has no other request for. -/
inductive Decided (book : MinistryBook) (pk : Nat) :
    ReviewAction → MinistryBook → Prop where
  | ticked : Decided book pk .enteredByHand (book.setEntered pk true)
  | undone (request : MinistryRequest) (current : Placement)
      (found : book.request? pk = some request)
      (inForce : request.state.inForce = true) :
      Decided book pk .backToReview (book.undo request current)
  | plain (request : MinistryRequest) (action : ReviewAction)
      (state : RequestState) (outcome : Option RequestOutcome)
      (found : book.request? pk = some request)
      (inForce : request.state.inForce = true)
      (remains : state.inForce = true) :
      Decided book pk action (book.writeRevision request state outcome none)
  | edited (request : MinistryRequest) (ministry : Nat)
      (outcome : Option RequestOutcome)
      (found : book.request? pk = some request)
      (inForce : request.state.inForce = true)
      (unheld : book.currentRequest request.entity ministry (some pk) = false) :
      Decided book pk (.edit ministry)
        (book.writeRevision request .resolved outcome (some ministry))

theorem decide_decided
    {book next : MinistryBook} {pk version : Nat} {noted : Bool}
    {action : ReviewAction}
    (decided : book.decide pk version noted action = some next) :
    Decided book pk action next := by
  unfold MinistryBook.decide at decided
  obtain ⟨request, found, placing⟩ := Option.bind_eq_some_iff.mp decided
  obtain ⟨current, placed, guarded⟩ := Option.bind_eq_some_iff.mp placing
  by_cases refused : request.version ≠ version ∨
      offers current.stage action = false
  · rw [if_pos refused] at guarded
    cases guarded
  · rw [if_neg refused] at guarded
    have offered : offers current.stage action = true := by
      simpa using fun unoffered => refused (Or.inr unoffered)
    have inForce := inForce_of_offered placed offered
    cases action with
    | enteredByHand =>
        cases guarded
        exact .ticked
    | backToReview =>
        dsimp only at guarded
        split at guarded
        · cases guarded
        · split at guarded
          · split at guarded
            · cases guarded
              exact .undone request current found inForce
            · cases guarded
          · cases guarded
            exact .plain request _ _ _ found inForce rfl
    | accept =>
        dsimp only at guarded
        split at guarded
        · cases guarded
        · cases guarded
          exact .plain request _ _ _ found inForce rfl
    | ignore =>
        dsimp only at guarded
        split at guarded
        · cases guarded
        · cases guarded
          exact .plain request _ _ _ found inForce rfl
    | edit ministry =>
        dsimp only at guarded
        by_cases blocked : book.isLatest request = false ∨
            ministry = request.ministry ∨
            book.currentRequest request.entity ministry (some pk) = true
        · rw [if_pos blocked] at guarded
          cases guarded
        · rw [if_neg blocked] at guarded
          cases guarded
          refine .edited request ministry _ found inForce ?_
          simpa using fun held => blocked (Or.inr (Or.inr held))

theorem undoEntered_eq_some
    {book next : MinistryBook} {pk : Nat} {noted : Bool}
    (undone : book.undoEntered pk noted = some next) :
    ∃ request current, book.request? pk = some request ∧
      request.state.inForce = true ∧ next = book.undo request current := by
  unfold MinistryBook.undoEntered at undone
  obtain ⟨request, found, placing⟩ := Option.bind_eq_some_iff.mp undone
  obtain ⟨current, placed, guarded⟩ := Option.bind_eq_some_iff.mp placing
  split at guarded
  · rename_i ready
    cases guarded
    exact ⟨request, current, found, by simp [ready.2.2.1, RequestState.inForce],
      rfl⟩
  · cases guarded

/-- The row an Add leaves. -/
def addedRow (book : MinistryBook) (member : String) (ministry : Nat)
    (action : RosterAction) (inPlaceOf : Option Nat) : MinistryRequest where
  pk := book.requests.length
  familyVersion := book.familyVersion
  entity := ⟨.member, member⟩
  ministry := ministry
  action := action
  state := .resolved
  outcome := some (acceptOutcome action)
  parishAdded := true
  inPlaceOf := inPlaceOf
  version := 2

/-- An Add appends one accepted row, for a Ministry the Member has no request in
force and the latest response none. -/
structure Added (book : MinistryBook) (row : MinistryRequest)
    (next : MinistryBook) : Prop where
  requests : next.requests = book.requests ++ [row]
  entered : next.entered = book.entered
  familyVersion : next.familyVersion = book.familyVersion
  revisions : next.revisions = book.revisions ++
    [⟨book.revisions.length, row.pk, 1, none⟩]
  unheld : book.currentRequest row.entity row.ministry none = false
  vacant : ∀ other ∈ book.requests, other.entity = row.entity →
    other.ministry = row.ministry → other.familyVersion ≠ book.familyVersion

theorem add_added
    {book next : MinistryBook} (kept : BookInv book) {member : String}
    {ministry : Nat} {action : RosterAction} {inPlaceOf : Option Nat}
    (added : book.add member ministry action inPlaceOf = some next) :
    Added book (addedRow book member ministry action inPlaceOf) next := by
  have older : ∀ request ∈ book.requests,
      request.pk ≠ book.requests.length := by
    intro request listed
    exact Nat.ne_of_lt (kept.pk_lt listed)
  unfold MinistryBook.add at added
  dsimp only at added
  split at added
  · cases added
  · rename_i guards
    simp only [not_or, Bool.not_eq_true] at guards
    obtain ⟨-, unheld, -, vacant⟩ := guards
    cases added
    refine ⟨?_, rfl, rfl, rfl, unheld, ?_⟩
    · simp only [MinistryBook.writeRevision, MinistryBook.update,
        List.map_append, List.map_cons, List.map_nil, if_true]
      congr 1
      refine (List.map_congr_left fun request listed => ?_).trans
        (List.map_id book.requests)
      rw [if_neg (older request listed)]
      rfl
    · intro other listed sameEntity sameMinistry sameVersion
      have unoccupied := List.any_eq_false.mp vacant other listed
      simp [sameVersion] at unoccupied
      exact unoccupied sameEntity sameMinistry

theorem Added.bookInv
    {book next : MinistryBook} (kept : BookInv book) {member : String}
    {ministry : Nat} {action : RosterAction} {inPlaceOf : Option Nat}
    (added : Added book (addedRow book member ministry action inPlaceOf) next) :
    BookInv next := by
  let row := addedRow book member ministry action inPlaceOf
  have sameIdentities : next.identities = book.identities ++ [row.identity] := by
    simp [MinistryBook.identities, added.requests, row]
  refine kept.of_added sameIdentities (Nat.le_of_eq added.familyVersion.symm)
    rfl ?_ (List.nodup_singleton _) ?_ ?_
  · simp [added.familyVersion, row, addedRow, MinistryRequest.identity]
  · intro other isRow request listed sameVersion sameEntity sameMinistry
    cases List.mem_singleton.mp isRow
    obtain ⟨found, member, rfl⟩ := List.mem_map.mp listed
    exact added.vacant found member sameEntity sameMinistry
      (sameVersion.trans added.familyVersion)
  · simp [added.revisions, kept.revised, List.range_succ]

theorem refreshResolve_eq_some
    {book next : MinistryBook} {pk : Nat}
    (resolved : book.refreshResolve pk = some next) :
    ∃ request, book.request? pk = some request ∧
      request.state.inForce = true ∧
      next = book.update pk MinistryRequest.resolveFromSource := by
  unfold MinistryBook.refreshResolve at resolved
  obtain ⟨request, found, guarded⟩ := Option.bind_eq_some_iff.mp resolved
  split at guarded
  · rename_i actionable
    cases guarded
    refine ⟨request, found, ?_, rfl⟩
    cases state : request.state <;>
      simp_all [RequestState.actionable, RequestState.inForce]
  · cases guarded

/-! ## Submissions -/

theorem close_identity
    (work : Derivation) (size : Nat) (request : MinistryRequest) :
    (work.close size request).identity = request.identity := by
  unfold Derivation.close
  split
  · rfl
  · split
    · rfl
    · rfl

theorem close_of_closes
    {work : Derivation} (size : Nat) {request : MinistryRequest}
    (closes : work.closes request.pk = true) :
    (work.close size request).state.inForce = false := by
  unfold Derivation.close
  split
  · rfl
  · rename_i unreplaced
    rw [Derivation.closes, Bool.or_eq_true] at closes
    rcases closes with cancelled | replaced
    · rw [if_pos cancelled]
      rfl
    · rw [List.findIdx?_eq_none_iff] at unreplaced
      obtain ⟨new, member, isSuccessor⟩ := List.any_eq_true.mp replaced
      rw [unreplaced new member] at isSuccessor
      cases isSuccessor

/-- A request that stays in force is left as it is. -/
theorem close_of_inForce
    {work : Derivation} {size : Nat} {request : MinistryRequest}
    (inForce : (work.close size request).state.inForce = true) :
    work.close size request = request := by
  unfold Derivation.close at inForce ⊢
  split at inForce
  · cases inForce
  · split at inForce
    · cases inForce
    · rename_i kept
      rw [if_neg kept]

theorem mem_rows
    {work : Derivation} {size familyVersion : Nat} {row : MinistryRequest}
    (member : row ∈ work.rows size familyVersion) :
    ∃ new ∈ work.created, row.entity = new.entity ∧
      row.ministry = new.ministry ∧ row.familyVersion = familyVersion ∧
      row.reviewed = none ∧ size ≤ row.pk := by
  obtain ⟨⟨new, index⟩, found, rfl⟩ := List.mem_map.mp member
  exact ⟨new, (List.mem_zipIdx found).2.2 ▸ List.getElem_mem _, rfl, rfl, rfl,
    rfl, Nat.le_add_right size index⟩

theorem submit_eq_some
    {book next : MinistryBook} {inputs : MinistryInputs}
    {entries : List MinistryEntry} {answers : MinistryAnswers}
    (submitted : submit book inputs entries answers = some next) :
    ((deriveMinistryRequests book inputs entries answers).created.map
        fun new => (new.entity, new.ministry)).Nodup ∧
      next = { book with
        requests :=
          book.requests.map ((deriveMinistryRequests book inputs entries
            answers).close book.requests.length) ++
          (deriveMinistryRequests book inputs entries answers).rows
            book.requests.length (book.familyVersion + 1)
        familyVersion := book.familyVersion + 1 } := by
  unfold submit at submitted
  dsimp only at submitted
  split at submitted
  · rename_i distinct
    exact ⟨distinct, (Option.some.inj submitted).symm⟩
  · cases submitted

theorem identities_submit
    {book next : MinistryBook} {inputs : MinistryInputs}
    {entries : List MinistryEntry} {answers : MinistryAnswers}
    (submitted : submit book inputs entries answers = some next) :
    next.identities = book.identities ++
      ((deriveMinistryRequests book inputs entries answers).rows
        book.requests.length (book.familyVersion + 1)).map
          MinistryRequest.identity := by
  obtain ⟨-, rfl⟩ := submit_eq_some submitted
  simp only [MinistryBook.identities, List.map_append, List.map_map]
  congr 1
  exact List.map_congr_left fun request _ => close_identity _ _ request

theorem BookInv.submit
    {book next : MinistryBook} (kept : BookInv book) {inputs : MinistryInputs}
    {entries : List MinistryEntry} {answers : MinistryAnswers}
    (submitted : Responses.submit book inputs entries answers = some next) :
    BookInv next := by
  have grown := identities_submit submitted
  obtain ⟨distinct, rfl⟩ := submit_eq_some submitted
  refine kept.of_added grown (Nat.le_succ _) ?_ ?_ ?_ ?_ kept.revised
  · simp only [Derivation.rows, List.map_map, List.length_map,
      List.length_zipIdx]
    refine List.ext_getElem (by simp) fun index first second => ?_
    simp [MinistryRequest.identity]
  · intro row member
    obtain ⟨request, listed, rfl⟩ := List.mem_map.mp member
    obtain ⟨new, -, -, -, dated, -, -⟩ := mem_rows listed
    exact dated
  · simp only [Derivation.rows, List.map_map]
    convert distinct using 1
    refine List.ext_getElem (by simp) fun index first second => ?_
    simp [MinistryRequest.identity]
  · intro row member request listed sameVersion
    have notLater := kept.dated request listed
    simp only at sameVersion
    omega

/-- Every operation keeps the book invariant. -/
theorem BookInv.step
    {book next : MinistryBook} (kept : BookInv book) {op : MinistryOp}
    (applied : op.apply book = some next) : BookInv next := by
  cases op with
  | decide pk version noted action =>
      cases decide_decided applied with
      | ticked => exact kept.setEntered ..
      | undone request current => exact kept.undo request current
      | plain => exact kept.writeRevision ..
      | edited => exact kept.writeRevision ..
  | undoEntered pk noted =>
      obtain ⟨request, current, -, -, rfl⟩ := undoEntered_eq_some applied
      exact kept.undo request current
  | add member ministry action inPlaceOf =>
      exact (add_added kept applied).bookInv kept
  | refreshResolve pk =>
      obtain ⟨request, -, -, rfl⟩ := refreshResolve_eq_some applied
      exact kept.of_kept (identities_update book pk fun _ => rfl) rfl kept.revised
  | refreshConfirm pk =>
      obtain ⟨request, -, confirmed⟩ := Option.bind_eq_some_iff.mp applied
      cases confirmed
      exact kept.of_kept rfl rfl kept.revised
  | submit inputs entries answers => exact kept.submit applied

end ParishKit.Workflows
