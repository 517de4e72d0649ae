import Mathlib.Data.List.ReduceOption
import ParishKit.Lib.Except
import ParishKit.Responses.CensusIndex
import ParishKit.Responses.CensusReview

/-!
# Sending a reviewed census form as it was drawn

The form is drawn by `census_draw` and judged by `left_as_shown`, two readings of
the same rows. An answer equal to what was drawn is left as shown or is
ParishSoft's own value, so no row is made; what the form could not present is
withdrawn by the final pass unless it is hidden or kept.
-/

namespace ParishKit.Responses

open ParishKit.Lib ParishKit.Pipeline

/-- What the tables promise about the rows: keys are unique, a row is on a
response, it is about a field of the registry and handled as it says, only a
field that takes one has an edit, and a recorded entry names a row of its own
item. -/
structure CensusBook.WellFormed (book : CensusBook) : Prop where
  distinct : (book.rows.map (·.pk)).Nodup
  submitted : ∀ row ∈ book.rows, ∃ response ∈ book.responses,
    response.familyVersion = row.submission
  registered : ∀ row ∈ book.rows,
    (capability row.item.entityKind row.item.field).isSome = true
  handled : ∀ row ∈ book.rows, row.handling ≠ .reportOnly
  edits : ∀ row ∈ book.rows, row.adminValue.isSome = true →
    editsField row.item = true
  recorded : book.EntriesNameItems

/-- A registered field of a New Member is the New Member. -/
theorem newMember_of_registered
    {item : Item} (isProposed : item.entityKind = .proposedMember)
    (registered : (capability item.entityKind item.field).isSome = true) :
    item = ⟨.proposedMember, item.entityKey, .newMember⟩ := by
  obtain ⟨entityKind, entityKey, field⟩ := item
  cases isProposed
  cases field <;> simp [capability] at registered
  rfl

section Entries

variable {inputs : CensusInputs} {book : CensusBook}
  {entries : List CensusEntry}

/-- What a change's entry records. -/
structure EntryOf (inputs : CensusInputs) (book : CensusBook)
    (row : ProposedChange) (entry : CensusEntry) : Prop where
  item : entry.item = row.item
  change : entry.change = row.pk
  notParish : entry.shown ≠ .parish
  reviewed : entry.shown = .reviewer →
    row.adminValue.isSome = true ∧ ∃ index, entry.decision = some index ∧
      book.editReview row = some index
  showable : entry.shown = .baseline → row.item.entityKind = .proposedMember ∨
    (row.item.entityKind = .member ∧ (inputs.sourceOf row.item).isSome = true)

theorem censusEntry_eq_some
    {row : ProposedChange} {entry : CensusEntry}
    (recorded : censusEntry inputs book row = some (some entry)) :
    EntryOf inputs book row entry := by
  unfold censusEntry at recorded
  obtain ⟨placement, placed, assembled⟩ := Option.bind_eq_some_iff.mp recorded
  obtain ⟨shown, found, rfl⟩ :=
    Option.map_eq_some_iff.mp (Option.some.inj assembled)
  obtain ⟨current, rfl, shows⟩ := Option.bind_eq_some_iff.mp found
  obtain ⟨notParish, showable, edited⟩ := shownValue_cases shows
  cases shown with
  | parish => exact absurd rfl notParish
  | family => constructor <;> simp
  | baseline =>
      refine ⟨rfl, rfl, by simp, by simp, fun _ => ?_⟩
      simpa using showable rfl
  | reviewer =>
      have carried : row.adminValue.isSome = true := by
        by_contra unedited
        rw [Bool.not_eq_true] at unedited
        rw [unedited] at placed
        obtain ⟨notEdited, notAdded⟩ := decision_of_unedited placed
        exact (edited rfl).elim notEdited notAdded
      cases found : book.editReview row with
      | none => constructor <;> simp
      | some index =>
          refine ⟨rfl, rfl, by simp, fun _ => ?_, by simp⟩
          exact ⟨carried, index, by simp, found⟩

theorem editReviewFrom_eq_some
    {wanted : Option Value} {fuel pk index : Nat}
    (found : book.editReviewFrom wanted fuel pk = some index) :
    ∃ review, book.reviews[index]? = some review ∧
      review.adminValue.isSome = true := by
  induction fuel generalizing pk with
  | zero => cases found
  | succ fuel inductionHypothesis =>
      unfold CensusBook.editReviewFrom at found
      split at found
      · rename_i review position latest
        split at found
        · rename_i edited
          cases found
          have listed := List.mem_of_getLast? latest
          obtain ⟨numbered, -⟩ := List.mem_filter.mp listed
          exact ⟨review, List.mem_zipIdx_iff_getElem?.mp numbered, edited.1⟩
        · cases found
      · obtain ⟨before, -, earlier⟩ := Option.bind_eq_some_iff.mp found
        exact inductionHypothesis earlier

theorem changeEntry_eq_some
    {item : Item} {entry : CensusEntry}
    (found : changeEntry entries item = some entry) :
    entry ∈ entries ∧ entry.item = item ∧ entry.shown ≠ .parish := by
  obtain ⟨member, matched⟩ := List.mem_filter.mp (List.mem_of_getLast? found)
  simp only [Bool.and_eq_true, beq_iff_eq, bne_iff_ne] at matched
  exact ⟨member, matched.1, matched.2⟩

theorem exists_changeEntry
    {item : Item} {entry : CensusEntry} (member : entry ∈ entries)
    (ofItem : entry.item = item) (notParish : entry.shown ≠ .parish) :
    ∃ found, changeEntry entries item = some found := by
  have listed : entry ∈ entries.filter fun other =>
      other.item == item && other.shown != .parish := by
    refine List.mem_filter.mpr ⟨member, ?_⟩
    simp [ofItem, notParish]
  exact ⟨_, List.getLast?_eq_some_getLast (List.ne_nil_of_mem listed)⟩

theorem drawnAddition_eq_some
    {item : Item} {addition : CensusAddition}
    (drawn : drawnAddition book entries item = some addition) :
    ∃ entry ∈ entries, entry.item = item ∧ entry.shown = .parish := by
  obtain ⟨entry, member, -⟩ := List.mem_filterMap.mp (List.mem_of_getLast? drawn)
  obtain ⟨listed, matched⟩ := List.mem_filter.mp member
  simp only [Bool.and_eq_true, beq_iff_eq] at matched
  exact ⟨entry, listed, matched.1, matched.2⟩

variable [Unicode]

theorem mem_shownChanges {row : ProposedChange} :
    row ∈ book.shownChanges ↔ row ∈ book.rows ∧
      book.proposalIndex row.item = some row ∧
      row.execution.inHistory = false ∧
      ¬ (row.item.entityKind = .proposedMember ∧
        row.execution.isEntered = true) := by
  simp only [CensusBook.shownChanges, List.mem_filter, Bool.and_eq_true,
    beq_iff_eq, Bool.not_eq_true', Bool.and_eq_false_iff, beq_eq_false_iff_ne,
    and_assoc, not_and, Bool.not_eq_true]
  refine and_congr_right fun _ => and_congr_right fun _ =>
    and_congr_right fun _ => ?_
  exact ⟨fun either isProposed => either.resolve_left fun differs =>
    differs isProposed, fun excluded => or_iff_not_imp_left.mpr fun same =>
    excluded (not_not.mp same)⟩

theorem mem_censusEntries
    {entry : CensusEntry} (recorded : censusEntries inputs book = some entries)
    (member : entry ∈ entries) :
    (∃ row ∈ book.shownChanges,
      censusEntry inputs book row = some (some entry)) ∨
      entry ∈ parishEntries inputs book := by
  unfold censusEntries at recorded
  split at recorded
  · cases recorded
    cases member
  · obtain ⟨found, ran, assembled⟩ := Option.bind_eq_some_iff.mp recorded
    cases assembled
    rcases List.mem_append.mp member with change | parish
    · obtain ⟨row, listed, made⟩ := exists_input_of_forall₂
        (option_mapM_eq_some ran) (List.reduceOption_mem_iff.mp change)
      exact Or.inl ⟨row, listed, made⟩
    · exact Or.inr parish

/-- The entries of a form are of the changes and additions it shows. -/
theorem change_of_entry
    {entry : CensusEntry} (recorded : censusEntries inputs book = some entries)
    (member : entry ∈ entries) (notParish : entry.shown ≠ .parish) :
    ∃ row ∈ book.shownChanges,
      censusEntry inputs book row = some (some entry) ∧
      EntryOf inputs book row entry := by
  rcases mem_censusEntries recorded member with change | parish
  · obtain ⟨row, listed, made⟩ := change
    exact ⟨row, listed, made, censusEntry_eq_some made⟩
  · obtain ⟨addition, -, rfl⟩ := List.mem_map.mp parish
    exact absurd rfl notParish

theorem entry_of_open
    (recorded : censusEntries inputs book = some entries)
    {row : ProposedChange} (listed : row ∈ book.rows)
    (handled : row.handling ≠ .reportOnly)
    (indexed : book.proposalIndex row.item = some row)
    (answered : book.responses ≠ []) (isOpen : row.execution.isOpen = true) :
    ∃ entry ∈ entries, censusEntry inputs book row = some (some entry) := by
  have shown : row ∈ book.shownChanges := by
    refine mem_shownChanges.mpr ⟨listed, indexed, ?_, ?_⟩
    · cases execution : row.execution <;>
        simp_all [Execution.isOpen, Execution.inHistory]
    · rintro ⟨-, entered⟩
      cases execution : row.execution <;>
        simp_all [Execution.isOpen, Execution.isEntered]
  unfold censusEntries at recorded
  rw [if_neg answered] at recorded
  obtain ⟨found, ran, assembled⟩ := Option.bind_eq_some_iff.mp recorded
  cases assembled
  obtain ⟨output, member, made⟩ := exists_output_of_forall₂
    (option_mapM_eq_some ran) shown
  cases output with
  | some entry =>
      refine ⟨entry, List.mem_append_left _ ?_, made⟩
      exact List.reduceOption_mem_iff.mpr member
  | none =>
      exfalso
      unfold censusEntry at made
      obtain ⟨placement, placed, assembled⟩ := Option.bind_eq_some_iff.mp made
      cases placement with
      | none =>
          unfold censusPlacement at placed
          split at placed
          · cases placed
          · dsimp only at placed
            split at placed
            · cases placed
            · repeat' split at placed
              all_goals cases placed
      | some placement =>
          have shows := shownValue_of_open isOpen placed
            (row.item.entityKind == .proposedMember ||
              (row.item.entityKind == .member &&
                (inputs.sourceOf row.item).isSome))
          simp_all

end Entries

section Drawing

variable [Unicode]

theorem eq_null_of_key
    {kind : ValueKind} {value : Value}
    (key : canonicalValue kind value = some (.scalar .null)) : value = .null := by
  cases value with
  | member fields =>
      cases kind <;> simp [canonicalValue] at key
  | scalar value =>
      cases value with
      | null => rfl
      | boolean value => cases kind <;> simp [canonicalValue, canonicalScalar] at key
      | text value =>
          cases kind <;> simp [canonicalValue, canonicalScalar] at key
      | phone record =>
          cases kind <;> simp [canonicalValue, canonicalScalar] at key
      | address parts =>
          cases kind <;>
            simp [canonicalValue, canonicalScalar, Option.bind_eq_some_iff] at key

theorem mergeValue_none_value
    {kind : ValueKind} {source : KnownValue} {drawn : EffectiveValue}
    (merged : mergeValue kind source none = some drawn) :
    drawn.value = source := by
  obtain ⟨key, -, assembled⟩ := Option.bind_eq_some_iff.mp merged
  rw [← Option.some.inj assembled]

theorem drawnOver_value
    {kind : ValueKind} {source : KnownValue} {value : Value}
    {drawn : EffectiveValue} (drew : drawnOver kind source value = some drawn) :
    drawn.value = some value := by
  obtain ⟨changed, -, rfl⟩ := Option.map_eq_some_iff.mp drew
  rfl

/-- Whether the merge draws a change's own answer: an answer equal to its own
baseline is drawn only while ParishSoft holds it. -/
def drawsOwnAnswer (source : KnownValue) (row : ProposedChange) : Bool :=
  let holds (known : KnownValue) : Bool :=
    known.any fun value =>
      sameValue row.item.field.kind value row.submittedValue
  !holds row.baseline || holds source

theorem merge_draws_answer
    {row : ProposedChange} {source : KnownValue} {drawn : EffectiveValue}
    (merged : mergeValue row.item.field.kind source
      (some ⟨row.baseline, row.submittedValue, none⟩) = some drawn)
    (kept : drawsOwnAnswer source row = true) :
    canonicalValue row.item.field.kind (drawn.value.getD .null) =
      canonicalValue row.item.field.kind row.submittedValue := by
  obtain ⟨submitted, submittedKey, merged⟩ := Option.bind_eq_some_iff.mp merged
  obtain ⟨baseline, baselineKey, merged⟩ := Option.bind_eq_some_iff.mp merged
  by_cases setBack : baseline = some submitted
  · have heldByBaseline : row.baseline.any (fun value =>
        sameValue row.item.field.kind value row.submittedValue) = true := by
      cases base : row.baseline with
      | none =>
          rw [base] at baselineKey
          cases baselineKey
          cases setBack
      | some value =>
          rw [base, setBack] at baselineKey
          obtain ⟨key, keyed, same⟩ := Option.map_eq_some_iff.mp baselineKey
          cases same
          simpa [sameValue_iff, keyed] using submittedKey.symm
    have heldBySource : source.any (fun value =>
        sameValue row.item.field.kind value row.submittedValue) = true := by
      simpa [drawsOwnAnswer, heldByBaseline] using kept
    cases source with
    | none => cases heldBySource
    | some value =>
        rw [if_pos setBack] at merged
        obtain ⟨current, -, assembled⟩ := Option.bind_eq_some_iff.mp merged
        cases assembled
        exact sameValue_iff.mp heldBySource
  · rw [if_neg setBack] at merged
    cases source with
    | none =>
        cases merged
        rfl
    | some value =>
        obtain ⟨current, currentKey, merged⟩ := Option.bind_eq_some_iff.mp merged
        by_cases caughtUp : current = submitted
        · rw [if_pos caughtUp] at merged
          cases merged
          rw [submittedKey, ← caughtUp]
          exact currentKey
        · rw [if_neg caughtUp] at merged
          simp only [holdsAdminEdit, Option.bind_eq_bind, Option.bind_some,
            Bool.false_eq_true, if_false] at merged
          split at merged <;> cases merged <;> rfl

end Drawing

/-! ## The drawn answers -/

/-- The answers give the drawn values, each under its field's comparison. -/
structure SameAnswers [Unicode] (answers drawn : CensusAnswers) : Prop where
  distinct : (answers.proposedMembers.map Prod.fst).Nodup
  values : ∀ item, Option.Rel
    (fun left right => sameValue item.field.kind left right = true)
    (answers.answer item) (drawn.answer item)

/-- Answers give their own values. -/
theorem SameAnswers.refl [Unicode]
    {answers : CensusAnswers}
    (distinct : (answers.proposedMembers.map Prod.fst).Nodup) :
    SameAnswers answers answers := by
  refine ⟨distinct, fun item => ?_⟩
  cases answers.answer item with
  | none => exact .none
  | some value => exact .some (sameValue_iff.mpr rfl)

section Answers

variable [Unicode] {inputs : CensusInputs} {book : CensusBook}
  {entries : List CensusEntry}

theorem member?_drawnAnswers
    {key : String} {answer : MemberAnswer}
    (found : (drawnAnswers inputs book entries).member? key = some answer) :
    answer = drawnMember inputs book entries key := by
  obtain ⟨row, lookup, rfl⟩ := Option.map_eq_some_iff.mp found
  obtain ⟨listed, sameKey⟩ := mem_of_find?_key lookup
  obtain ⟨other, -, rfl⟩ := List.mem_map.mp listed
  rw [← sameKey]

theorem presentsRequest_drawn
    {key : String} {request : RequestField}
    (presented : presentsRequest inputs book entries key request = true) :
    drawnValue inputs book entries ⟨.member, key, .request request⟩ =
      .boolean true := by
  simp only [presentsRequest, Bool.and_eq_true, beq_iff_eq] at presented
  exact presented.2

/-- The drawn answer of a field is the value drawn in it. -/
theorem answer_drawnAnswers
    {item : Item} {value : Value} (listed : item ∈ inputs.fields)
    (drawn : (drawnAnswers inputs book entries).answer item = some value) :
    value = drawnValue inputs book entries item := by
  rcases List.mem_append.mp listed with household | member
  · obtain ⟨field, -, rfl⟩ := List.mem_map.mp household
    exact (Option.some.inj drawn).symm
  · obtain ⟨key, -, ofMember⟩ := List.mem_flatMap.mp member
    rcases List.mem_append.mp ofMember with ordinary | request
    · obtain ⟨field, -, rfl⟩ := List.mem_map.mp ordinary
      obtain ⟨answer, found, given⟩ := Option.bind_eq_some_iff.mp drawn
      rw [member?_drawnAnswers found] at given
      unfold drawnMember at given
      repeat' split at given
      all_goals
        simp only [MemberAnswer.answer, Option.some.injEq, reduceCtorEq] at given
      exact given.symm
    · obtain ⟨field, -, rfl⟩ := List.mem_map.mp request
      obtain ⟨answer, found, given⟩ := Option.bind_eq_some_iff.mp drawn
      rw [member?_drawnAnswers found] at given
      unfold drawnMember at given
      split at given
      · rename_i moved
        cases field <;>
          simp only [MemberAnswer.answer, Option.some.injEq, reduceCtorEq] at given
        rw [presentsRequest_drawn moved, ← given]
      · split at given
        · rename_i deceased
          cases field <;>
            simp only [MemberAnswer.answer, Option.some.injEq, reduceCtorEq]
              at given
          · rw [presentsRequest_drawn deceased, ← given]
          · exact given.symm
        · cases field <;> simp [MemberAnswer.answer] at given

end Answers

/-! ## The judgement -/

/-- Every change drawn as the Family's own answer is drawn with that answer. -/
def OwnAnswersDrawn [Unicode] (inputs : CensusInputs) (book : CensusBook)
    (entries : List CensusEntry) : Prop :=
  ∀ entry ∈ entries, entry.shown = .family → entry.item ∈ inputs.fields →
    drawnAddition book entries entry.item = none →
    (book.row? entry.change).all (drawsOwnAnswer (inputs.source entry.item)) =
      true

section Judging

variable [Unicode] {inputs : CensusInputs} {book : CensusBook}
  {entries : List CensusEntry} (wellFormed : book.WellFormed)
  (recorded : censusEntries inputs book = some entries)

include wellFormed recorded in
/-- The change a form's entry names is in force when the form comes back. -/
theorem shownChange_of_entry
    {item : Item} {entry : CensusEntry}
    (found : changeEntry entries item = some entry) :
    ∃ row ∈ book.rows, shownChange book entries item = some (entry, row) ∧
      book.row? entry.change = some row ∧ row.item = item ∧
      EntryOf inputs book row entry := by
  obtain ⟨member, ofItem, notParish⟩ := changeEntry_eq_some found
  obtain ⟨row, shown, -, entryOf⟩ := change_of_entry recorded member notParish
  obtain ⟨listed, -, inForce, -⟩ := mem_shownChanges.mp shown
  have lookup : book.row? entry.change = some row := by
    rw [entryOf.change]
    exact find?_key_of_mem wellFormed.distinct listed
  refine ⟨row, listed, ?_, lookup, entryOf.item.symm.trans ofItem, entryOf⟩
  simp [shownChange, found, CensusBook.shownRow, notParish, lookup, inForce]

/-- An answer equal to what an entry draws leaves the entry as shown. -/
theorem leftAsShown_of_drawn
    {entry : CensusEntry} {row : ProposedChange} {submitted : Value}
    {drawn : EffectiveValue} (entryOf : EntryOf inputs book row entry)
    (lookup : book.row? entry.change = some row)
    (listed : entry.item ∈ inputs.fields)
    (ownAnswer : entry.shown = .family →
      drawsOwnAnswer (inputs.source entry.item) row = true)
    (drew : censusDraw book entry.item.field.kind (inputs.source entry.item)
      entry = some drawn)
    (same : canonicalValue entry.item.field.kind submitted =
      canonicalValue entry.item.field.kind (drawn.value.getD .null)) :
    leftAsShown entry row (book.review? entry) (inputs.source entry.item)
      (some submitted) = true := by
  unfold censusDraw at drew
  unfold leftAsShown censusShown
  cases shows : entry.shown with
  | parish => exact absurd shows entryOf.notParish
  | family =>
      simp only [shows, lookup, Option.bind_eq_bind, Option.bind_some] at drew
      obtain ⟨merge, merged, assembled⟩ := Option.bind_eq_some_iff.mp drew
      have sameDrawn : drawn.value = merge.value := by
        split at assembled <;> cases assembled <;> rfl
      have own := ownAnswer shows
      simp only [Option.any_some, sameValue_iff]
      rw [entryOf.item] at merged own same ⊢
      rw [same, sameDrawn]
      exact merge_draws_answer merged own
  | reviewer =>
      simp only [shows] at drew
      obtain ⟨review, reviewFound, drew⟩ := Option.bind_eq_some_iff.mp drew
      obtain ⟨value, edited, drew⟩ := Option.bind_eq_some_iff.mp drew
      rw [drawnOver_value drew] at same
      simpa [reviewFound, edited, sameValue_iff] using same
  | baseline =>
      simp only [shows] at drew
      rw [mergeValue_none_value drew] at same
      dsimp only
      split
      · rename_i shown absent
        have notShown := absent
        split at notShown
        · rename_i omitted
          rcases entryOf.showable shows with isProposed | ⟨isMember, known⟩
          · exfalso
            rw [← entryOf.item] at isProposed
            rcases List.mem_append.mp listed with household | member
            · obtain ⟨field, -, isItem⟩ := List.mem_map.mp household
              rw [← isItem] at isProposed
              cases isProposed
            · obtain ⟨key, -, ofMember⟩ := List.mem_flatMap.mp member
              simp only [CensusInputs.memberItems, List.mem_append,
                List.mem_map] at ofMember
              rcases ofMember with ⟨field, -, isItem⟩ | ⟨field, -, isItem⟩
              · rw [← isItem] at isProposed
                cases isProposed
              · rw [← isItem] at isProposed
                cases isProposed
          · rw [← entryOf.item] at isMember known
            rw [CensusInputs.sourceOf, if_pos listed] at known
            obtain ⟨held, source⟩ := Option.isSome_iff_exists.mp known
            rw [source] at same
            simpa [source, isMember, sameValue_iff] using same
        · cases notShown
      · rename_i shown value displayed
        split at displayed
        · cases displayed
        · cases displayed
          simpa [sameValue_iff] using same

include wellFormed recorded in
/-- An answer equal to what the form drew in a field is left as shown, or the
form drew ParishSoft's own value. -/
theorem left_or_unchanged
    (drew : draws inputs book entries = true)
    (ownAnswers : OwnAnswersDrawn inputs book entries)
    (field : AnsweredField) (version snapshot : Nat)
    (listed : field.item ∈ inputs.fields)
    (ofSource : field.source = inputs.source field.item)
    (same : sameValue field.item.field.kind field.submitted
      (drawnValue inputs book entries field.item) = true) :
    leavesAsShown book ⟨inputs, inputs, version, snapshot⟩ entries field =
        true ∨
      (changeEntry entries field.item = none ∧
        drawnAddition book entries field.item = none ∧
        unchangedAnswer field.item.field.kind field.source field.submitted =
          true) := by
  have sourceOf : inputs.sourceOf field.item = inputs.source field.item := by
    rw [CensusInputs.sourceOf, if_pos listed]
  obtain ⟨drawn, drawnField⟩ :=
    Option.isSome_iff_exists.mp (List.all_eq_true.mp drew field.item listed)
  have ofDrawn : drawnValue inputs book entries field.item =
      drawn.value.getD .null := by
    simp [drawnValue, drawnField]
  rw [sameValue_iff, ofDrawn] at same
  unfold leavesAsShown
  unfold censusField at drawnField
  cases added : drawnAddition book entries field.item with
  | some addition =>
      left
      simp only [added] at drawnField
      rw [drawnOver_value drawnField] at same
      exact sameValue_iff.mpr same
  | none =>
      cases found : changeEntry entries field.item with
      | none =>
          right
          simp only [added, found] at drawnField
          rw [mergeValue_none_value drawnField] at same
          refine ⟨rfl, rfl, ?_⟩
          rw [ofSource]
          cases held : inputs.source field.item with
          | none =>
              rw [held] at same
              simp [unchangedAnswer, eq_null_of_key same]
          | some value =>
              rw [held] at same
              simpa [unchangedAnswer] using same
      | some entry =>
          left
          simp only [added, found] at drawnField
          obtain ⟨row, -, shown, lookup, -, entryOf⟩ :=
            shownChange_of_entry wellFormed recorded found
          obtain ⟨member, entryItem, -⟩ := changeEntry_eq_some found
          simp only [shown, Option.any_some, sourceOf]
          rw [← entryItem] at drawnField same listed added ⊢
          exact leftAsShown_of_drawn entryOf lookup listed
            (fun shows => by
              simpa [lookup] using ownAnswers entry member shows listed added)
            drawnField same

include recorded in
theorem drawsAddition_of_parish
    {entry : CensusEntry} (member : entry ∈ entries)
    (isParish : entry.shown = .parish) : entry.item.drawsAddition = true := by
  rcases mem_censusEntries recorded member with change | parish
  · obtain ⟨row, -, made⟩ := change
    exact absurd isParish (censusEntry_eq_some made).notParish
  · obtain ⟨addition, shown, rfl⟩ := List.mem_map.mp parish
    have conditions := (List.mem_filter.mp shown).2
    simp only [showsAddition, Bool.and_eq_true] at conditions
    exact conditions.2.1.1.1

include recorded in
/-- A form has one entry of a change. -/
theorem entry_unique
    {left right : CensusEntry} (leftMember : left ∈ entries)
    (rightMember : right ∈ entries) (leftChange : left.shown ≠ .parish)
    (rightChange : right.shown ≠ .parish) (sameItem : left.item = right.item) :
    left = right := by
  obtain ⟨first, firstShown, firstMade, firstOf⟩ :=
    change_of_entry recorded leftMember leftChange
  obtain ⟨second, secondShown, secondMade, secondOf⟩ :=
    change_of_entry recorded rightMember rightChange
  have firstIndexed := (mem_shownChanges.mp firstShown).2.1
  have secondIndexed := (mem_shownChanges.mp secondShown).2.1
  rw [← firstOf.item, sameItem, secondOf.item, secondIndexed] at firstIndexed
  cases firstIndexed
  rw [firstMade] at secondMade
  exact Option.some.inj (Option.some.inj secondMade)

include recorded in
theorem drawnAddition_eq_none
    {item : Item} (outside : item.drawsAddition = false) :
    drawnAddition book entries item = none := by
  cases added : drawnAddition book entries item with
  | none => rfl
  | some addition =>
      obtain ⟨entry, member, rfl, isParish⟩ := drawnAddition_eq_some added
      rw [drawsAddition_of_parish recorded member isParish] at outside
      cases outside

include wellFormed recorded in
/-- A New Member is drawn with the answer of its change. -/
theorem shownChange_of_proposedDraw
    {key : String} {value : Value}
    (drawn : (key, value) ∈ proposedDraw book entries) :
    ∃ entry row, shownChange book entries ⟨.proposedMember, key, .newMember⟩ =
        some (entry, row) ∧ entry.item.field = .newMember ∧
      entry.shown = .family ∧ row.submittedValue = value := by
  obtain ⟨entry, member, draws⟩ := List.mem_filterMap.mp drawn
  split at draws
  · rename_i conditions
    obtain ⟨isProposed, notBaseline⟩ := conditions
    obtain ⟨row, rowFound, pair⟩ := Option.map_eq_some_iff.mp draws
    cases pair
    have notParish : entry.shown ≠ .parish := by
      intro isParish
      have drawsIt := drawsAddition_of_parish recorded member isParish
      simp [Item.drawsAddition, isProposed] at drawsIt
    obtain ⟨source, shown, -, entryOf⟩ :=
      change_of_entry recorded member notParish
    have sourceListed := (mem_shownChanges.mp shown).1
    have isItem := newMember_of_registered isProposed (by
      rw [entryOf.item]
      exact wellFormed.registered source sourceListed)
    obtain ⟨other, found⟩ := exists_changeEntry member isItem notParish
    obtain ⟨otherMember, otherItem, otherChange⟩ := changeEntry_eq_some found
    cases entry_unique recorded otherMember member otherChange notParish
      (otherItem.trans isItem.symm)
    obtain ⟨named, namedListed, shownNamed, namedFound, -, namedOf⟩ :=
      shownChange_of_entry wellFormed recorded found
    rw [namedFound] at rowFound
    cases rowFound
    refine ⟨entry, row, shownNamed, by rw [isItem], ?_, rfl⟩
    cases shows : entry.shown with
    | family => rfl
    | baseline => exact absurd shows notBaseline
    | parish => exact absurd shows notParish
    | reviewer =>
        have editable := wellFormed.edits row namedListed
          (namedOf.reviewed shows).1
        rw [← namedOf.item, isItem] at editable
        cases editable
  · cases draws

include wellFormed recorded in
/-- A New Member the form drew is left as shown. -/
theorem proposed_left_as_shown
    {answers : CensusAnswers} (context : ResponseContext)
    (same : SameAnswers answers (drawnAnswers inputs book entries))
    {key : String} {submitted : Value}
    (answered : (key, submitted) ∈ answers.proposedMembers) :
    leavesAsShown book context entries
      ⟨⟨.proposedMember, key, .newMember⟩, none, submitted⟩ = true := by
  have given : answers.answer ⟨.proposedMember, key, .newMember⟩ =
      some submitted := by
    have found : answers.proposedMembers.find? (fun row => row.1 == key) =
        some (key, submitted) := find?_key_of_mem same.distinct answered
    simp [CensusAnswers.answer, CensusAnswers.proposedMember?, found]
  have related := same.values ⟨.proposedMember, key, .newMember⟩
  rw [given] at related
  cases drawn : (drawnAnswers inputs book entries).answer
      ⟨.proposedMember, key, .newMember⟩ with
  | none =>
      rw [drawn] at related
      cases related
  | some value =>
      rw [drawn] at related
      obtain ⟨sameValues⟩ := related
      obtain ⟨pair, lookup, rfl⟩ := Option.map_eq_some_iff.mp drawn
      obtain ⟨listed, rfl⟩ := mem_of_find?_key lookup
      obtain ⟨entry, row, shown, ofField, isFamily, ofRow⟩ :=
        shownChange_of_proposedDraw wellFormed recorded listed
      unfold leavesAsShown
      rw [drawnAddition_eq_none recorded rfl, shown]
      simpa [leftAsShown, censusShown, isFamily, ofField, ofRow] using sameValues

include wellFormed recorded in
/-- A field the form has no change of has no open change. -/
theorem closeOpen_of_noEntry
    {item : Item} (noEntry : changeEntry entries item = none) :
    closeOpen (book.proposalIndex item) none = [] := by
  cases indexed : book.proposalIndex item with
  | none => rfl
  | some row =>
      obtain ⟨listed, rfl⟩ := item_of_indexed wellFormed.recorded indexed
      by_cases isOpen : row.execution.isOpen = true
      · obtain ⟨response, answered, -⟩ := wellFormed.submitted row listed
        obtain ⟨entry, member, made⟩ := entry_of_open recorded listed
          (wellFormed.handled row listed) indexed
          (List.ne_nil_of_mem answered) isOpen
        have entryOf := censusEntry_eq_some made
        obtain ⟨found, shows⟩ :=
          exists_changeEntry member entryOf.item entryOf.notParish
        rw [noEntry] at shows
        cases shows
      · simp [closeOpen, isOpen]

include wellFormed recorded in
/-- Judging a field that was left as drawn does nothing. -/
theorem judgeField_of_drawn
    (drew : draws inputs book entries = true)
    (ownAnswers : OwnAnswersDrawn inputs book entries)
    {answers : CensusAnswers} (version snapshot : Nat)
    (same : SameAnswers answers (drawnAnswers inputs book entries))
    {field : AnsweredField} (answered : field ∈ answeredFields inputs answers)
    (work : CensusWork) :
    judgeField book ⟨inputs, inputs, version, snapshot⟩ entries work field =
      some work := by
  unfold judgeField
  rcases List.mem_append.mp answered with listed | proposed
  · obtain ⟨item, isField, answer⟩ := List.mem_filterMap.mp listed
    obtain ⟨submitted, filtered, rfl⟩ := Option.map_eq_some_iff.mp answer
    obtain ⟨given, -⟩ := Option.filter_eq_some_iff.mp filtered
    have related := same.values item
    rw [given] at related
    cases drawn : (drawnAnswers inputs book entries).answer item with
    | none =>
        rw [drawn] at related
        cases related
    | some value =>
        rw [drawn] at related
        obtain ⟨sameValues⟩ := related
        rw [answer_drawnAnswers isField drawn] at sameValues
        rcases left_or_unchanged wellFormed recorded drew ownAnswers
          ⟨item, inputs.source item, submitted⟩ version snapshot isField rfl
          sameValues with left | ⟨noEntry, noAddition, unchanged⟩
        · rw [if_pos left]
        · split
          · rfl
          · have noOpen := closeOpen_of_noEntry wellFormed recorded noEntry
            have notShown : shownChange book entries item = none := by
              simp [shownChange, noEntry]
            simp [unchanged, noAddition, CensusWork.settle, notShown, noOpen]
  · obtain ⟨⟨key, submitted⟩, given, rfl⟩ := List.mem_map.mp proposed
    rw [if_pos (proposed_left_as_shown wellFormed recorded _ same given)]

include wellFormed recorded in
/-- A form left as it was drawn makes no change; only the final pass can close
one. -/
theorem deriveReviewed_of_drawn
    (drew : draws inputs book entries = true)
    (ownAnswers : OwnAnswersDrawn inputs book entries)
    {answers : CensusAnswers} (version snapshot : Nat)
    (same : SameAnswers answers (drawnAnswers inputs book entries)) :
    deriveReviewed book ⟨inputs, inputs, version, snapshot⟩ entries answers =
      some ⟨[], withdrawUnanswered book answers (answeredFields inputs answers)
        (hiddenItem entries)⟩ := by
  have judged := option_foldlM_fixed fun field answered =>
    judgeField_of_drawn wellFormed recorded drew ownAnswers version snapshot
      same answered ⟨[], []⟩
  simp [deriveReviewed, judged]

end Judging

/-! ## The final pass -/

/-- Every open change of a Member has its field answered on the form, is shown as
ParishSoft's value by being left out, or is kept terminal work. -/
def Presented [Unicode] (inputs : CensusInputs) (book : CensusBook)
    (entries : List CensusEntry) (answers : CensusAnswers) : Prop :=
  ∀ row ∈ book.rows, row.item.entityKind = .member →
    book.proposalIndex row.item = some row → row.execution.isOpen = true →
    (answeredFields inputs answers).any (fun field => field.item == row.item) =
        true ∨
      hiddenItem entries row.item = true ∨
      keptTerminal book answers row = true

/-- The household changes are of the household the inputs are of. -/
def CensusInputs.OfHousehold (inputs : CensusInputs) (book : CensusBook) :
    Prop :=
  ∀ row ∈ book.rows, row.item.entityKind = .family →
    row.item.entityKey = inputs.familyKey

theorem answer_newMember
    (answers : CensusAnswers) (key : String) :
    answers.answer ⟨.proposedMember, key, .newMember⟩ =
      answers.proposedMember? key :=
  rfl

/-- A New Member the answers name is an answered field. -/
theorem newMember_listed
    {inputs : CensusInputs} {answers : CensusAnswers} {key : String}
    {value : Value} (named : answers.proposedMember? key = some value) :
    (answeredFields inputs answers).any
      (fun field => field.item == ⟨.proposedMember, key, .newMember⟩) = true := by
  obtain ⟨pair, lookup, -⟩ := Option.map_eq_some_iff.mp named
  obtain ⟨listed, rfl⟩ := mem_of_find?_key lookup
  refine List.any_eq_true.mpr
    ⟨⟨⟨.proposedMember, pair.1, .newMember⟩, none, pair.2⟩, ?_, ?_⟩
  · exact List.mem_append_right _ (List.mem_map.mpr ⟨pair, listed, rfl⟩)
  · exact beq_self_eq_true _

/-- A form answers every field of the household. -/
theorem household_answered
    {inputs : CensusInputs} (answers : CensusAnswers) {item : Item}
    (isFamily : item.entityKind = .family)
    (ofKey : item.entityKey = inputs.familyKey)
    (registered : (capability item.entityKind item.field).isSome = true) :
    (answeredFields inputs answers).any (fun field => field.item == item) =
      true := by
  obtain ⟨entityKind, entityKey, field⟩ := item
  cases isFamily
  cases ofKey
  cases field with
  | family field =>
      refine List.any_eq_true.mpr ⟨⟨inputs.familyItem field,
        inputs.source (inputs.familyItem field), answers.family field⟩, ?_, ?_⟩
      · refine List.mem_append_left _ (List.mem_filterMap.mpr
          ⟨inputs.familyItem field, ?_, rfl⟩)
        refine List.mem_append_left _ (List.mem_map_of_mem ?_)
        cases field <;> decide
      · exact beq_self_eq_true _
  | member field => cases registered
  | request field => cases registered
  | newMember => cases registered

section Presenting

variable [Unicode] {inputs : CensusInputs} {book : CensusBook}
  {entries : List CensusEntry} (wellFormed : book.WellFormed)
  (recorded : censusEntries inputs book = some entries)

include wellFormed recorded in
/-- An open New Member is drawn, or left out as Ignored. -/
theorem newMember_answered
    {answers : CensusAnswers}
    (same : SameAnswers answers (drawnAnswers inputs book entries))
    {row : ProposedChange} (listed : row ∈ book.rows)
    (isProposed : row.item.entityKind = .proposedMember)
    (indexed : book.proposalIndex row.item = some row)
    (isOpen : row.execution.isOpen = true) :
    (answeredFields inputs answers).any (fun field => field.item == row.item) =
        true ∨
      hiddenItem entries row.item = true := by
  have isItem := newMember_of_registered isProposed
    (wellFormed.registered row listed)
  obtain ⟨response, answered, -⟩ := wellFormed.submitted row listed
  obtain ⟨entry, member, made⟩ := entry_of_open recorded listed
    (wellFormed.handled row listed) indexed (List.ne_nil_of_mem answered) isOpen
  have entryOf := censusEntry_eq_some made
  obtain ⟨found, shows⟩ :=
    exists_changeEntry member entryOf.item entryOf.notParish
  obtain ⟨foundMember, foundItem, foundChange⟩ := changeEntry_eq_some shows
  cases entry_unique recorded foundMember member foundChange entryOf.notParish
    (foundItem.trans entryOf.item.symm)
  by_cases hidden : entry.shown = .baseline
  · right
    simp [hiddenItem, shows, hidden]
  · left
    have lookup : book.row? entry.change = some row := by
      rw [entryOf.change]
      exact find?_key_of_mem wellFormed.distinct listed
    have drawn : (row.item.entityKey, row.submittedValue) ∈
        proposedDraw book entries := by
      refine List.mem_filterMap.mpr ⟨entry, member, ?_⟩
      simp [entryOf.item, isProposed, hidden, lookup]
    have named : ((drawnAnswers inputs book entries).proposedMember?
        row.item.entityKey).isSome = true := by
      rw [CensusAnswers.proposedMember?, Option.isSome_map, List.find?_isSome]
      exact ⟨_, drawn, beq_self_eq_true _⟩
    obtain ⟨shownMember, names⟩ := Option.isSome_iff_exists.mp named
    have related := same.values row.item
    rw [isItem, answer_newMember, answer_newMember, names] at related
    cases given : answers.proposedMember? row.item.entityKey with
    | none =>
        rw [given] at related
        cases related
    | some value =>
        rw [isItem]
        exact newMember_listed given

include wellFormed recorded in
/-- The final pass closes nothing exactly when the form presents every open
change of a Member. -/
theorem withdrawUnanswered_eq_nil_iff
    (household : inputs.OfHousehold book) {answers : CensusAnswers}
    (same : SameAnswers answers (drawnAnswers inputs book entries)) :
    withdrawUnanswered book answers (answeredFields inputs answers)
        (hiddenItem entries) = [] ↔
      Presented inputs book entries answers := by
  simp only [withdrawUnanswered, List.map_eq_nil_iff, List.filter_eq_nil_iff,
    Bool.and_eq_true, beq_iff_eq, Bool.not_eq_true']
  constructor
  · intro nothing row listed isMember indexed isOpen
    have kept := nothing row listed
    by_contra unpresented
    simp only [not_or, Bool.not_eq_true] at unpresented
    exact kept ⟨⟨⟨⟨indexed, unpresented.1⟩, unpresented.2.1⟩, isOpen⟩,
      unpresented.2.2⟩
  · rintro presented row listed ⟨⟨⟨⟨indexed, unanswered⟩, shown⟩, isOpen⟩, closed⟩
    cases kind : row.item.entityKind with
    | family =>
        rw [household_answered answers kind (household row listed kind)
          (wellFormed.registered row listed)] at unanswered
        cases unanswered
    | proposedMember =>
        rcases newMember_answered wellFormed recorded same listed kind indexed
          isOpen with answered | hidden
        · rw [answered] at unanswered
          cases unanswered
        · rw [hidden] at shown
          cases shown
    | member =>
        rcases presented row listed kind indexed isOpen with
          answered | hidden | kept
        · rw [answered] at unanswered
          cases unanswered
        · rw [hidden] at shown
          cases shown
        · rw [kept] at closed
          cases closed

/-- The final pass leaves the rows exactly when it closes nothing. -/
theorem rows_respond_withdrawn_iff
    (answers : CensusAnswers) (answered : List AnsweredField)
    (hidden : Item → Bool) :
    (book.respond (some answers) (some entries)
        ⟨[], withdrawUnanswered book answers answered hidden⟩).rows =
        book.rows ↔
      withdrawUnanswered book answers answered hidden = [] := by
  simp only [CensusBook.respond, List.append_nil]
  constructor
  · intro unchanged
    by_contra something
    obtain ⟨closing, closes⟩ := List.exists_mem_of_ne_nil _ something
    obtain ⟨row, withdrawn, rfl⟩ := List.mem_map.mp closes
    have listed := (List.mem_filter.mp withdrawn).1
    have kept := List.map_inj_left.mp
      (unchanged.trans (List.map_id book.rows).symm) row listed
    have closed : ((withdrawUnanswered book answers answered hidden).find?
        fun closing => closing.pk == row.pk).isSome = true :=
      List.find?_isSome.mpr ⟨_, closes, beq_self_eq_true row.pk⟩
    obtain ⟨found, lookup⟩ := Option.isSome_iff_exists.mp closed
    simp only [CensusWork.close, lookup, id] at kept
    have versions := congrArg ProposedChange.version kept
    simp at versions
  · intro nothing
    rw [nothing]
    exact List.map_id book.rows

include wellFormed recorded in
/-- Sending a reviewed form with the answers it drew makes no change, and leaves
every row as it is exactly when the form presents every open change of a
Member. -/
theorem census_resubmission_is_noop
    (household : inputs.OfHousehold book)
    (drew : draws inputs book entries = true)
    (ownAnswers : OwnAnswersDrawn inputs book entries)
    {answers : CensusAnswers} (version snapshot : Nat)
    (same : SameAnswers answers (drawnAnswers inputs book entries)) :
    ∃ work,
      deriveReviewed book ⟨inputs, inputs, version, snapshot⟩ entries answers =
        some work ∧
      work.created = [] ∧
      ((book.respond (some answers) (some entries) work).rows = book.rows ↔
        Presented inputs book entries answers) := by
  refine ⟨_, deriveReviewed_of_drawn wellFormed recorded drew ownAnswers version
    snapshot same, rfl, ?_⟩
  rw [rows_respond_withdrawn_iff]
  exact withdrawUnanswered_eq_nil_iff wellFormed recorded household same

end Presenting

/-! ## Runs of one form -/

/-- A household with one Member, as ParishSoft has it. -/
def eightCensus : CensusInputs where
  familyKey := "3"
  members := ["8"]
  distinct := by decide
  source item :=
    match item.field with
    | .member .firstName => some (.text ['a'])
    | .member .lastName => some (.text ['b'])
    | .request .movedHousehold => some (.boolean false)
    | .request .deceasedStatus => some (.boolean false)
    | .family .emailOptOut => some (.boolean false)
    | _ => some .null

def eightItem (field : MemberField) : Item :=
  ⟨.member, "8", .member field⟩

def homeItem : Item :=
  ⟨.family, "3", .family .homeAddress⟩

/-- An address of one line. -/
def lineAddress (line : Text) : Value :=
  .address ⟨line, [], [], [], [], []⟩

/-- The Family changed both names of the Member. The first name waits for review,
the last name was approved with an edit, and the parish added an address. -/
def namesBook : CensusBook where
  responses := [⟨1, some ⟨fun _ => .null, [("8", .ordinary fun
    | .firstName => .text ['d']
    | .lastName => .text ['e']
    | _ => .null)], []⟩, some []⟩]
  rows :=
    [⟨0, 1, eightItem .firstName, some (.text ['a']), .text ['d'],
      some (.text ['a']), 1, none, .api, .unreviewed, .pending, none, 1⟩,
     ⟨1, 1, eightItem .lastName, some (.text ['b']), .text ['e'],
      some (.text ['b']), 1, some (.text ['f']), .api, .approved, .pending,
      none, 2⟩]
  reviews := [⟨1, 1, .approved, some (.text ['f']), false, none, none⟩]
  additions := [⟨0, homeItem, lineAddress ['g'], some .null, none, 1,
    .opened, 1⟩]
  checks := []
  drawn := []
  generation := 1

def namesForm : List CensusEntry :=
  [⟨eightItem .firstName, 0, some 1, none, .family⟩,
   ⟨eightItem .lastName, 1, some 2, some 0, .reviewer⟩,
   ⟨homeItem, 0, none, none, .parish⟩]

theorem namesBook_wellFormed [Unicode] : namesBook.WellFormed where
  distinct := by decide
  submitted := by decide
  registered := by decide
  handled := by decide
  edits := by decide
  recorded := by
    intro response answered entry listed
    obtain rfl := List.mem_singleton.mp answered
    cases listed

/-- Both names and the added address are sent as drawn. -/
theorem census_resubmission_of_names :
    letI := asciiUnicode
    ∃ work,
      deriveReviewed namesBook ⟨eightCensus, eightCensus, 2, 1⟩ namesForm
        (drawnAnswers eightCensus namesBook namesForm) = some work ∧
      work.created = [] ∧
      (namesBook.respond (some (drawnAnswers eightCensus namesBook namesForm))
        (some namesForm) work).rows = namesBook.rows := by
  let := asciiUnicode
  have presented : Presented eightCensus namesBook namesForm
      (drawnAnswers eightCensus namesBook namesForm) := by
    unfold Presented
    decide +kernel
  obtain ⟨work, derived, nothing, unchanged⟩ :=
    census_resubmission_is_noop namesBook_wellFormed
      (by decide +kernel : censusEntries eightCensus namesBook = some namesForm)
      (by unfold CensusInputs.OfHousehold; decide)
      (by decide +kernel)
      (by unfold OwnAnswersDrawn; decide +kernel) 2 1
      (SameAnswers.refl List.nodup_nil)
  exact ⟨work, derived, nothing, unchanged.mpr presented⟩

/-- The Family reported the Member's death with its date; the parish ignored the
request and did not review the date. -/
def deathBook : CensusBook where
  responses := [⟨1, some ⟨fun
    | .emailOptOut => .boolean false
    | _ => .null, [("8", .deceased (.text "2026-01-02".toList))], []⟩, some []⟩]
  rows :=
    [⟨0, 1, ⟨.member, "8", .request .deceasedStatus⟩, some (.boolean false),
      .boolean true, some (.boolean false), 1, none, .manual, .ignored,
      .pending, none, 2⟩,
     ⟨1, 1, ⟨.member, "8", .request .deathDate⟩, some .null,
      .text "2026-01-02".toList, some .null, 1, none, .manual, .unreviewed,
      .pending, none, 1⟩]
  reviews := [⟨0, 1, .ignored, none, false, none, none⟩]
  additions := []
  checks := []
  drawn := []
  generation := 1

def deathForm : List CensusEntry :=
  [⟨⟨.member, "8", .request .deceasedStatus⟩, 0, some 2, none, .baseline⟩,
   ⟨⟨.member, "8", .request .deathDate⟩, 1, some 1, none, .family⟩]

/-- The form shows the Member as ParishSoft has it, so the date it also shows has
no place on it: sent as drawn, the form withdraws the date. -/
theorem drawn_form_withdraws_death_date :
    letI := asciiUnicode
    censusEntries eightCensus deathBook = some deathForm ∧
      draws eightCensus deathBook deathForm = true ∧
      (deathBook.rows.all fun row => !row.item.isOrdinary) = true ∧
      deriveReviewed deathBook ⟨eightCensus, eightCensus, 2, 1⟩ deathForm
          (drawnAnswers eightCensus deathBook deathForm) =
        some ⟨[], [⟨1, .cancelled, none⟩]⟩ := by
  let := asciiUnicode
  decide +kernel

end ParishKit.Responses
