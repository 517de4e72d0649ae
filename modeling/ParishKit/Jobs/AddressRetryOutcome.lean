import ParishKit.Jobs.AddressRetry

/-!
# Settling an outcome

Each position of an envelope goes to exactly one place when its outcome is
recorded: it remains, is refused for good or was accepted.
-/

namespace ParishKit.Jobs

/-- Exactly one of three. -/
def OneOf (first second third : Prop) : Prop :=
  (first ∧ ¬second ∧ ¬third) ∨ (¬first ∧ second ∧ ¬third) ∨
    (¬first ∧ ¬second ∧ third)

/-! ## Positions of an envelope -/

theorem mem_positionsAt {envelope indexes : List Nat} {position : Nat} :
    position ∈ positionsAt envelope indexes ↔
      ∃ index ∈ indexes, envelope[index]? = some position := by
  unfold positionsAt
  rw [List.mem_filterMap]

theorem mem_of_positionsAt
    {envelope indexes : List Nat} {position : Nat}
    (member : position ∈ positionsAt envelope indexes) :
    position ∈ envelope := by
  obtain ⟨index, _, isAt⟩ := mem_positionsAt.mp member
  exact List.mem_of_getElem? isAt

/-- Distinct positions have one index each. -/
theorem index_unique
    {envelope : List Nat} (distinct : envelope.Nodup) {first second : Nat}
    {position : Nat} (atFirst : envelope[first]? = some position)
    (atSecond : envelope[second]? = some position) : first = second := by
  obtain ⟨firstInside, _⟩ := List.getElem?_eq_some_iff.mp atFirst
  exact (List.getElem?_inj firstInside distinct).mp (atFirst.trans atSecond.symm)

/-- The positions an outcome refused for good. -/
def permanentAt (envelope : List Nat) (result : FamilyDeliveryResult) :
    List Nat :=
  positionsAt envelope result.permanent

/-- The positions an outcome accepted: all that an accepted email did not
refuse. -/
def acceptedAt (envelope : List Nat) (result : FamilyDeliveryResult) :
    List Nat :=
  if result.status = .accepted then
    positionsAt envelope ((List.range envelope.length).filter fun index =>
      decide (index ∉ result.permanent) && decide (index ∉ result.transient))
  else
    []

theorem mem_of_acceptedAt
    {envelope : List Nat} {result : FamilyDeliveryResult} {position : Nat}
    (member : position ∈ acceptedAt envelope result) : position ∈ envelope := by
  unfold acceptedAt at member
  split at member
  · exact mem_of_positionsAt member
  · cases member

theorem nodup_positionsAt
    {envelope indexes : List Nat} (distinct : envelope.Nodup)
    (indexesDistinct : indexes.Nodup) :
    (positionsAt envelope indexes).Nodup := by
  refine List.Nodup.filterMap ?_ indexesDistinct
  intro first second position atFirst atSecond
  exact index_unique distinct atFirst atSecond

/-- An accepted email settles each position at its index. -/
theorem oneOf_accepted
    {envelope : List Nat} {result : FamilyDeliveryResult}
    (distinct : envelope.Nodup) (accepted : result.status = .accepted)
    {position : Nat} (member : position ∈ envelope) :
    OneOf (position ∈ positionsAt envelope result.transient)
      (position ∈ permanentAt envelope result)
      (position ∈ acceptedAt envelope result) := by
  obtain ⟨index, inside, isAt⟩ := List.mem_iff_getElem.mp member
  have here : envelope[index]? = some position := by
    rw [List.getElem?_eq_getElem inside, isAt]
  have listed : ∀ indexes, position ∈ positionsAt envelope indexes ↔
      index ∈ indexes := by
    intro indexes
    rw [mem_positionsAt]
    constructor
    · rintro ⟨other, otherMember, atOther⟩
      rw [index_unique distinct here atOther]
      exact otherMember
    · exact fun indexMember => ⟨index, indexMember, here⟩
  unfold OneOf permanentAt acceptedAt
  rw [if_pos accepted, listed, listed, listed, List.mem_filter,
    List.mem_range]
  have apart := result.disjoint index
  by_cases permanent : index ∈ result.permanent
  · simp [permanent, apart permanent]
  · by_cases transient : index ∈ result.transient
    · simp [permanent, transient]
    · simp [permanent, transient, inside]

/-- An email that was not accepted leaves all but its permanent refusals. -/
theorem oneOf_refused
    {envelope : List Nat} {result : FamilyDeliveryResult}
    (other : result.status ≠ .accepted)
    {position : Nat} (member : position ∈ envelope) :
    OneOf (position ∈ envelope ∧ position ∉ permanentAt envelope result)
      (position ∈ permanentAt envelope result)
      (position ∈ acceptedAt envelope result) := by
  unfold OneOf acceptedAt
  rw [if_neg other]
  by_cases permanent : position ∈ permanentAt envelope result
  · simp [permanent]
  · simp [permanent, member]

/-! ## The settlement -/

/-- What a settlement makes of the row it is for. -/
structure Settles (row : AddressRetry) (result : FamilyDeliveryResult)
    (settlement : Settlement) : Prop where
  count : result.recipientCount = row.remaining.length
  shrinks : ∀ position ∈ settlement.remaining, position ∈ row.remaining
  distinct : row.remaining.Nodup → settlement.remaining.Nodup
  refused : ∀ position, position ∈ settlement.refused ↔
    position ∈ row.refused ∨ position ∈ permanentAt row.remaining result
  places : row.remaining.Nodup → ∀ position ∈ row.remaining,
    OneOf (position ∈ settlement.remaining)
      (position ∈ permanentAt row.remaining result)
      (position ∈ acceptedAt row.remaining result)
  waits : settlement.state = .waiting →
    (row.attempt : Int) - settlement.spared < maxAttempts ∧
      ∃ instant, settlement.notBefore = some instant ∧ instant < row.expiresAt
  spared : row.spared ≤ settlement.spared
  uncertain : settlement.state = .unknown ↔ result.status = .unknown
  settles : settlement.state ≠ .submitting

theorem settledState_spec
    (row : AddressRetry) (result : FamilyDeliveryResult)
    (remaining : List Nat) (counted next : Int) :
    ((settledState row result remaining counted next).1 = .waiting →
      counted < maxAttempts ∧
      ∃ instant, (settledState row result remaining counted next).2.2 =
        some instant ∧ instant < row.expiresAt) ∧
    ((settledState row result remaining counted next).1 = .unknown ↔
      result.status = .unknown) ∧
    (settledState row result remaining counted next).1 ≠ .submitting := by
  unfold settledState
  split_ifs with uncertain finished refused spent expired
  · simp [uncertain]
  · simp [uncertain]
  · simp [uncertain]
  · simp [uncertain]
  · simp [uncertain]
  · refine ⟨fun _ => ⟨by omega, next, rfl, by omega⟩, ?_, ?_⟩
    · simp [uncertain]
    · simp

theorem settled_eq_some
    {row : AddressRetry} {result : FamilyDeliveryResult} {now : Int}
    {settlement : Settlement}
    (isSettled : settled row result now = some settlement) :
    Settles row result settlement := by
  dsimp only [settled] at isSettled
  by_cases count : result.recipientCount = row.remaining.length
  · rw [if_pos count] at isSettled
    cases isSettled
    have sorted : ∀ (positions : List Nat) position,
        position ∈ positions.insertionSort (· ≤ ·) ↔ position ∈ positions :=
      fun positions position => List.mem_insertionSort (· ≤ ·)
    have state := settledState_spec row result
    refine ⟨count, ?_, ?_, ?_, ?_, (state _ _ _).1, Nat.le_add_right _ _,
      (state _ _ _).2.1, (state _ _ _).2.2⟩
    · intro position member
      by_cases accepted : result.status = .accepted
      · rw [if_pos accepted] at member
        exact mem_of_positionsAt ((sorted _ _).mp member)
      · rw [if_neg accepted] at member
        exact (List.mem_filter.mp member).1
    · intro distinct
      by_cases accepted : result.status = .accepted
      · rw [if_pos accepted, (List.perm_insertionSort (· ≤ ·) _).nodup_iff]
        exact nodup_positionsAt distinct
          (result.transientSorted.imp fun below => Nat.ne_of_lt below)
      · rw [if_neg accepted]
        exact distinct.filter _
    · intro position
      rw [sorted, List.mem_dedup, List.mem_append, sorted]
      rfl
    · intro distinct position member
      by_cases accepted : result.status = .accepted
      · rw [if_pos accepted, sorted]
        exact oneOf_accepted distinct accepted member
      · rw [if_neg accepted, List.mem_filter, decide_eq_true_eq, sorted]
        exact oneOf_refused accepted member
  · rw [if_neg count] at isSettled
    cases isSettled

end ParishKit.Jobs
