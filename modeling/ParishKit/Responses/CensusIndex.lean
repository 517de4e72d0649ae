import ParishKit.Lib.Keyed
import ParishKit.Responses.CensusDerivation

/-!
# Reading the index

What a change found by `proposal_index` is, by the four ways it is found.
-/

namespace ParishKit.Responses

open ParishKit.Lib ParishKit.Pipeline

variable {book : CensusBook}

theorem row?_eq_some
    {pk : Nat} {row : ProposedChange} (found : book.row? pk = some row) :
    row ∈ book.rows ∧ row.pk = pk :=
  mem_of_find?_key found

theorem shownRow_eq_some
    {entry : CensusEntry} {row : ProposedChange}
    (shown : book.shownRow entry = some row) :
    entry.shown ≠ .parish ∧ book.row? entry.change = some row ∧
      row.execution.inHistory = false := by
  unfold CensusBook.shownRow at shown
  split at shown
  · cases shown
  · rename_i notParish
    obtain ⟨found, inForce⟩ := Option.filter_eq_some_iff.mp shown
    exact ⟨notParish, found, by simpa using inForce⟩

theorem mem_responses_of_censusSubmission
    {response : CensusResponse} {answers : CensusAnswers}
    (found : book.censusSubmission = some (response, answers)) :
    response ∈ book.responses ∧ response.answers = some answers := by
  obtain ⟨other, member, same⟩ := List.exists_of_findSome?_eq_some found
  obtain ⟨inner, answered, pair⟩ := Option.map_eq_some_iff.mp same
  cases pair
  exact ⟨List.mem_reverse.mp member, answered⟩

theorem preserved_eq_some
    {item : Item} {row : ProposedChange}
    (found : book.preserved item = some row) :
    row ∈ book.rows ∧ row.item = item ∧ book.newest row = true ∧
      item.isTerminal = true := by
  unfold CensusBook.preserved at found
  split at found
  · rename_i terminal
    have matched := List.find?_some found
    simp only [Bool.and_eq_true, beq_iff_eq] at matched
    exact ⟨List.mem_of_find?_eq_some found, matched.1, matched.2, terminal⟩
  · cases found

theorem ownRow_eq_some
    {version : Nat} {item : Item} {row : ProposedChange}
    (found : book.ownRow version item = some row) :
    row ∈ book.rows ∧ row.submission = version ∧ row.item = item := by
  have matched := List.find?_some found
  simp only [Bool.and_eq_true, beq_iff_eq] at matched
  exact ⟨List.mem_of_find?_eq_some found, matched.1, matched.2⟩

section Found

variable [Unicode]

theorem sameValue_iff {kind : ValueKind} {left right : Value} :
    sameValue kind left right = true ↔
      canonicalValue kind left = canonicalValue kind right := by
  simp [sameValue]

theorem keptStillAnswered_eq_some
    {version : Nat} {answers : CensusAnswers} {item : Item}
    {row : ProposedChange}
    (found : book.keptStillAnswered version answers item = some row) :
    row ∈ book.rows ∧ row.item = item ∧ book.newestBefore version row = true ∧
      item.isOrdinary = true ∧ row.execution.closedForGood = false ∧
      (answers.answer item).any (fun answer =>
        sameValue item.field.kind answer row.submittedValue) = true := by
  unfold CensusBook.keptStillAnswered at found
  split at found
  · rename_i ordinary
    obtain ⟨lookup, conditions⟩ := Option.filter_eq_some_iff.mp found
    have matched := List.find?_some lookup
    simp only [Bool.and_eq_true, beq_iff_eq, Bool.not_eq_true'] at matched conditions
    exact ⟨List.mem_of_find?_eq_some lookup, matched.1, matched.2, ordinary,
      conditions.1, conditions.2⟩
  · cases found

theorem shownStillAnswered_eq_some
    {response : CensusResponse} {answers : CensusAnswers} {item : Item}
    {row : ProposedChange}
    (found : book.shownStillAnswered response answers item = some row) :
    ∃ entry ∈ response.shownItems.getD [], entry.item = item ∧
      book.shownRow entry = some row ∧ book.stillShown answers entry = some row := by
  obtain ⟨entry, member, still⟩ :=
    List.mem_filterMap.mp (List.mem_of_getLast? found)
  obtain ⟨listed, ofItem⟩ := List.mem_filter.mp member
  obtain ⟨shown, -⟩ := Option.filter_eq_some_iff.mp still
  exact ⟨entry, listed, by simpa using ofItem, shown, still⟩

/-- How the index finds a change. -/
inductive Indexed (book : CensusBook) (item : Item) (row : ProposedChange) :
    Prop where
  | own (response : CensusResponse) (answers : CensusAnswers)
      (census : book.censusSubmission = some (response, answers))
      (found : book.ownRow response.familyVersion item = some row)
  | shown (response : CensusResponse) (answers : CensusAnswers)
      (census : book.censusSubmission = some (response, answers))
      (noOwn : book.ownRow response.familyVersion item = none)
      (found : book.shownStillAnswered response answers item = some row)
  | kept (response : CensusResponse) (answers : CensusAnswers)
      (census : book.censusSubmission = some (response, answers))
      (noOwn : book.ownRow response.familyVersion item = none)
      (found : book.keptStillAnswered response.familyVersion answers item =
        some row)
  | preserved (found : book.preserved item = some row)

theorem indexed_of_proposalIndex
    {item : Item} {row : ProposedChange}
    (indexed : book.proposalIndex item = some row) : Indexed book item row := by
  unfold CensusBook.proposalIndex at indexed
  split at indexed
  · exact .preserved indexed
  · rename_i response answers census
    rcases Option.or_eq_some_iff.mp indexed with own | ⟨noOwn, indexed⟩
    · exact .own response answers census own
    · rcases Option.or_eq_some_iff.mp indexed with shown | ⟨-, indexed⟩
      · exact .shown response answers census noOwn shown
      · rcases Option.or_eq_some_iff.mp indexed with kept | ⟨-, found⟩
        · exact .kept response answers census noOwn kept
        · exact .preserved found

/-- A recorded entry names a row of its own item. -/
def CensusBook.EntriesNameItems (book : CensusBook) : Prop :=
  ∀ response ∈ book.responses, ∀ entry ∈ response.shownItems.getD [],
    ∀ row, book.shownRow entry = some row → row.item = entry.item

/-- The index of an item finds a row of that item. -/
theorem item_of_indexed
    (recorded : book.EntriesNameItems) {item : Item} {row : ProposedChange}
    (indexed : book.proposalIndex item = some row) :
    row ∈ book.rows ∧ row.item = item := by
  cases indexed_of_proposalIndex indexed with
  | own response answers census found =>
      obtain ⟨member, -, ofItem⟩ := ownRow_eq_some found
      exact ⟨member, ofItem⟩
  | shown response answers census noOwn found =>
      obtain ⟨entry, listed, ofItem, named, -⟩ := shownStillAnswered_eq_some found
      obtain ⟨member, -⟩ := row?_eq_some (shownRow_eq_some named).2.1
      refine ⟨member, ?_⟩
      rw [← ofItem]
      exact recorded response (mem_responses_of_censusSubmission census).1 entry
        listed row named
  | kept response answers census noOwn found =>
      obtain ⟨member, ofItem, -⟩ := keptStillAnswered_eq_some found
      exact ⟨member, ofItem⟩
  | preserved found =>
      obtain ⟨member, ofItem, -, -⟩ := preserved_eq_some found
      exact ⟨member, ofItem⟩

end Found

end ParishKit.Responses
