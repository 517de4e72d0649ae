import ParishKit.Responses.MinistryForm

/-!
# What a Ministry derivation does

The judgement of one shown request, once for all, and what a whole derivation
makes and closes.
-/

namespace ParishKit.Responses

open ParishKit.Workflows

variable {book : MinistryBook} {answered : List Entity}
  {work next : Derivation} {entry : MinistryEntry}

/-- The choice an entry's action makes of a Ministry. -/
def MinistryEntry.choice (entry : MinistryEntry) (ministry : Nat) : Choice :=
  ⟨entry.entity, entry.action, ministry⟩

/-- The request a rule-2 reopening makes. -/
def reopening (book : MinistryBook) (entry : MinistryEntry)
    (request : MinistryRequest) : NewRequest where
  entity := entry.entity
  ministry := request.ministry
  action := request.action
  state := .new
  replaces :=
    if isProtected book request = false then some request.pk else none

/-- What `judgeEntry` does, with the reason. -/
inductive Judgement (book : MinistryBook) (answered : List Entity)
    (work : Derivation) (entry : MinistryEntry) : Derivation → Prop where
  | skipped
      (absent : ∀ request, book.request? entry.item = some request →
        request.state.inForce = true → entry.entity ∉ answered) :
      Judgement book answered work entry work
  | reopened (request : MinistryRequest)
      (found : book.request? entry.item = some request)
      (inScope : entry.entity ∈ answered)
      (inForce : request.state.inForce = true)
      (changed : readShown book entry request ≠ some request.ministry)
      (chosen : entry.choice request.ministry ∈ work.remaining) :
      Judgement book answered work entry
        { (work.pop entry.entity entry.ministry).discard
            (entry.choice request.ministry) with
          created := work.created ++ [reopening book entry request] }
  | hidden (request : MinistryRequest)
      (found : book.request? entry.item = some request)
      (inScope : entry.entity ∈ answered)
      (shown : readShown book entry request = none) :
      Judgement book answered work entry (work.pop entry.entity entry.ministry)
  | kept (request : MinistryRequest) (ministry : Nat)
      (found : book.request? entry.item = some request)
      (inScope : entry.entity ∈ answered)
      (shown : readShown book entry request = some ministry)
      (chosen : entry.choice ministry ∈ work.remaining) :
      Judgement book answered work entry
        ((work.pop entry.entity entry.ministry).discard (entry.choice ministry))
  | withdrawn (request : MinistryRequest) (ministry : Nat)
      (found : book.request? entry.item = some request)
      (inScope : entry.entity ∈ answered)
      (shown : readShown book entry request = some ministry)
      (unchosen : entry.choice ministry ∉ work.remaining)
      (exposed : isProtected book request = false) :
      Judgement book answered work entry
        { work.pop entry.entity entry.ministry with
          cancelled := work.cancelled ++ [request.pk] }
  | spared (request : MinistryRequest) (ministry : Nat)
      (found : book.request? entry.item = some request)
      (inScope : entry.entity ∈ answered)
      (shown : readShown book entry request = some ministry)
      (unchosen : entry.choice ministry ∉ work.remaining)
      (guarded : isProtected book request = true) :
      Judgement book answered work entry (work.pop entry.entity entry.ministry)

theorem judgeEntry_judgement (book : MinistryBook) (answered : List Entity)
    (work : Derivation) (entry : MinistryEntry) :
    Judgement book answered work entry (judgeEntry book answered work entry) := by
  unfold judgeEntry
  cases found : book.request? entry.item with
  | none =>
      exact .skipped (by simp [found])
  | some request =>
      dsimp only
      by_cases skip : request.state.inForce = false ∨ entry.entity ∉ answered
      · rw [if_pos skip]
        refine .skipped fun other same inForce => ?_
        cases found.symm.trans same
        simpa [inForce] using skip
      · rw [if_neg skip]
        have inForce : request.state.inForce = true := by
          simpa using fun closed => skip (Or.inl closed)
        have inScope : entry.entity ∈ answered := by
          by_contra outside
          exact skip (Or.inr outside)
        by_cases reopens : readShown book entry request ≠ some request.ministry ∧
            (⟨entry.entity, entry.action, request.ministry⟩ : Choice) ∈
              work.remaining
        · rw [if_pos reopens]
          exact .reopened request found inScope inForce reopens.1 reopens.2
        · rw [if_neg reopens]
          cases shown : readShown book entry request with
          | none => exact .hidden request found inScope shown
          | some ministry =>
              dsimp only
              split
              · exact .kept request ministry found inScope shown ‹_›
              · split
                · exact .withdrawn request ministry found inScope shown ‹_› ‹_›
                · refine .spared request ministry found inScope shown ‹_› ?_
                  simpa using ‹¬ isProtected book request = false›

/-! ## Progress -/

/-- A derivation only uses choices up, and only adds to what it makes and
closes. -/
structure Progress (work next : Derivation) : Prop where
  previous : next.previous ⊆ work.previous
  remaining : next.remaining ⊆ work.remaining
  created : work.created ⊆ next.created
  cancelled : work.cancelled ⊆ next.cancelled

theorem Progress.refl (work : Derivation) : Progress work work where
  previous := List.Subset.refl _
  remaining := List.Subset.refl _
  created := List.Subset.refl _
  cancelled := List.Subset.refl _

theorem Progress.trans
    {first second third : Derivation}
    (left : Progress first second) (right : Progress second third) :
    Progress first third where
  previous := List.Subset.trans right.previous left.previous
  remaining := List.Subset.trans right.remaining left.remaining
  created := List.Subset.trans left.created right.created
  cancelled := List.Subset.trans left.cancelled right.cancelled

theorem Progress.foldl
    {Item : Type} {step : Derivation → Item → Derivation}
    (progress : ∀ work item, Progress work (step work item))
    (items : List Item) (work : Derivation) :
    Progress work (items.foldl step work) := by
  induction items generalizing work with
  | nil => exact Progress.refl work
  | cons item items inductionHypothesis =>
      exact (progress work item).trans (inductionHypothesis (step work item))

theorem Judgement.progress
    (judged : Judgement book answered work entry next) : Progress work next := by
  cases judged with
  | skipped => exact Progress.refl work
  | reopened =>
      exact ⟨List.filter_subset_self .., List.filter_subset_self ..,
        List.subset_append_left .., List.Subset.refl _⟩
  | hidden =>
      exact ⟨List.filter_subset_self .., List.Subset.refl _,
        List.Subset.refl _, List.Subset.refl _⟩
  | kept =>
      exact ⟨List.filter_subset_self .., List.filter_subset_self ..,
        List.Subset.refl _, List.Subset.refl _⟩
  | withdrawn =>
      exact ⟨List.filter_subset_self .., List.Subset.refl _,
        List.Subset.refl _, List.subset_append_left ..⟩
  | spared =>
      exact ⟨List.filter_subset_self .., List.Subset.refl _,
        List.Subset.refl _, List.Subset.refl _⟩

theorem judgeEntry_progress (book : MinistryBook) (answered : List Entity)
    (work : Derivation) (entry : MinistryEntry) :
    Progress work (judgeEntry book answered work entry) :=
  (judgeEntry_judgement book answered work entry).progress

theorem deriveChoice_progress (work : Derivation) (choice : Choice) :
    Progress work (deriveChoice work choice) := by
  unfold deriveChoice
  dsimp only
  split
  · exact ⟨List.filter_subset_self .., List.Subset.refl _,
      List.Subset.refl _, List.Subset.refl _⟩
  · exact ⟨List.filter_subset_self .., List.Subset.refl _,
      List.subset_append_left .., List.Subset.refl _⟩

/-! ## What is made -/

/-- A reopening answers a choice of the response. -/
def Reopens (book : MinistryBook) (entries : List MinistryEntry)
    (chosen : List Choice) (new : NewRequest) : Prop :=
  ∃ entry ∈ entries, ∃ request, book.request? entry.item = some request ∧
    request.state.inForce = true ∧ new.entity = entry.entity ∧
    new.ministry = request.ministry ∧ entry.choice request.ministry ∈ chosen

theorem judged_created
    {entries shown : List MinistryEntry} {chosen : List Choice}
    (recorded : shown ⊆ entries) (unused : work.remaining ⊆ chosen)
    (made : ∀ new ∈ work.created, Reopens book entries chosen new) :
    ∀ new ∈ (shown.foldl (judgeEntry book answered) work).created,
      Reopens book entries chosen new := by
  induction shown generalizing work with
  | nil => exact made
  | cons entry shown inductionHypothesis =>
      have progress := judgeEntry_progress book answered work entry
      refine inductionHypothesis
        (List.Subset.trans (List.subset_cons_self ..) recorded)
        (List.Subset.trans progress.remaining unused) ?_
      intro new member
      have judged := judgeEntry_judgement book answered work entry
      generalize judgeEntry book answered work entry = next at judged member
      cases judged with
      | reopened request found _ inForce changed isChosen =>
          rcases List.mem_append.mp member with old | last
          · exact made new old
          · cases List.mem_singleton.mp last
            exact ⟨entry, recorded List.mem_cons_self, request, found, inForce,
              rfl, rfl, unused isChosen⟩
      | skipped => exact made new member
      | hidden => exact made new member
      | kept => exact made new member
      | withdrawn => exact made new member
      | spared => exact made new member

theorem deriveChoice_created
    {choice : Choice} {new : NewRequest}
    (member : new ∈ (deriveChoice work choice).created) :
    new ∈ work.created ∨
      (new.entity = choice.entity ∧ new.ministry = choice.ministry) := by
  unfold deriveChoice at member
  dsimp only at member
  split at member
  · exact Or.inl member
  · rcases List.mem_append.mp member with old | last
    · exact Or.inl old
    · cases List.mem_singleton.mp last
      exact Or.inr ⟨rfl, rfl⟩

theorem derived_created
    {choices : List Choice} {new : NewRequest}
    (member : new ∈ (choices.foldl deriveChoice work).created) :
    new ∈ work.created ∨ ∃ choice ∈ choices,
      new.entity = choice.entity ∧ new.ministry = choice.ministry := by
  induction choices generalizing work with
  | nil => exact Or.inl member
  | cons choice choices inductionHypothesis =>
      rcases inductionHypothesis member with made | ⟨later, found, same⟩
      · rcases deriveChoice_created made with old | same
        · exact Or.inl old
        · exact Or.inr ⟨choice, List.mem_cons_self, same⟩
      · exact Or.inr ⟨later, List.mem_cons_of_mem choice found, same⟩

variable {inputs : MinistryInputs} {entries : List MinistryEntry}
  {answers : MinistryAnswers}

theorem judgeEntries_remaining
    (book : MinistryBook) (answers : MinistryAnswers)
    (entries : List MinistryEntry) :
    (judgeEntries book answers entries).remaining ⊆ answers.chosen :=
  (Progress.foldl (judgeEntry_progress book answers.answered) entries
    ⟨requestIndex book, answers.chosen, [], []⟩).remaining

/-- A response makes requests for what it chooses: a shown request's own
Ministry, or a choice the shown requests do not account for. -/
theorem created_source
    {new : NewRequest}
    (member : new ∈ (deriveMinistryRequests book inputs entries answers).created) :
    Reopens book entries answers.chosen new ∨
      ∃ choice ∈ (judgeEntries book answers entries).remaining,
        new.entity = choice.entity ∧ new.ministry = choice.ministry := by
  rcases derived_created member with judged | derived
  · exact Or.inl (judged_created (List.Subset.refl entries)
      (List.Subset.refl answers.chosen) (by simp) new judged)
  · exact Or.inr derived

theorem judgeEntries_created
    {new : NewRequest}
    (member : new ∈ (judgeEntries book answers entries).created) :
    new ∈ (deriveMinistryRequests book inputs entries answers).created :=
  (Progress.foldl deriveChoice_progress _ _).created member

theorem judgeEntries_cancelled
    {pk : Nat}
    (member : pk ∈ (judgeEntries book answers entries).cancelled) :
    pk ∈ (deriveMinistryRequests book inputs entries answers).cancelled := by
  refine List.mem_append_left _ ?_
  exact (Progress.foldl deriveChoice_progress _ _).cancelled member

/-! ## What becomes of a shown request -/

/-- The work around the judgement of one entry. -/
theorem exists_judged
    (book : MinistryBook) (answers : MinistryAnswers)
    (shown : entry ∈ entries) :
    ∃ before after, Judgement book answers.answered before entry after ∧
      before.remaining ⊆ answers.chosen ∧
      Progress after (judgeEntries book answers entries) := by
  obtain ⟨first, rest, rfl⟩ := List.append_of_mem shown
  let start : Derivation := ⟨requestIndex book, answers.chosen, [], []⟩
  let before := first.foldl (judgeEntry book answers.answered) start
  refine ⟨before, judgeEntry book answers.answered before entry,
    judgeEntry_judgement .., ?_, ?_⟩
  · exact (Progress.foldl (judgeEntry_progress book answers.answered) first
      start).remaining
  · unfold judgeEntries
    rw [List.foldl_append, List.foldl_cons]
    exact Progress.foldl (judgeEntry_progress book answers.answered) rest _

/-- A choice the form showed for a request is used up, unless the response
chooses the request's own Ministry again. -/
theorem shown_choice_used
    {request : MinistryRequest} {ministry : Nat}
    (shown : entry ∈ entries)
    (found : book.request? entry.item = some request)
    (inForce : request.state.inForce = true)
    (inScope : entry.entity ∈ answers.answered)
    (showed : readShown book entry request = some ministry)
    (left : entry.choice ministry ∈
      (judgeEntries book answers entries).remaining) :
    ∃ new ∈ (judgeEntries book answers entries).created,
      new.entity = entry.entity ∧ new.ministry = request.ministry := by
  obtain ⟨before, after, judged, -, progress⟩ :=
    exists_judged book answers shown
  have stillLeft := progress.remaining left
  cases judged with
  | skipped absent => exact absurd inScope (absent request found inForce)
  | reopened other same =>
      cases found.symm.trans same
      refine ⟨reopening book entry request,
        progress.created (List.mem_append_right _ ?_), rfl, rfl⟩
      exact List.mem_singleton_self _
  | hidden other same _ hides =>
      cases found.symm.trans same
      rw [hides] at showed
      cases showed
  | kept other shownMinistry same _ displayed =>
      cases found.symm.trans same
      cases showed.symm.trans displayed
      simp [Derivation.discard] at stillLeft
  | withdrawn other shownMinistry same _ displayed unchosen =>
      cases found.symm.trans same
      cases showed.symm.trans displayed
      exact absurd stillLeft unchosen
  | spared other shownMinistry same _ displayed unchosen =>
      cases found.symm.trans same
      cases showed.symm.trans displayed
      exact absurd stillLeft unchosen

/-- A request that the response takes off the form is closed. -/
theorem taken_off_closed
    (inputs : MinistryInputs) {request : MinistryRequest} {ministry : Nat}
    (shown : entry ∈ entries)
    (found : book.request? entry.item = some request)
    (inForce : request.state.inForce = true)
    (inScope : entry.entity ∈ answers.answered)
    (exposed : isProtected book request = false)
    (showed : readShown book entry request = some ministry)
    (dropped : entry.choice ministry ∉ answers.chosen) :
    (deriveMinistryRequests book inputs entries answers).closes request.pk =
      true := by
  obtain ⟨before, after, judged, unused, progress⟩ :=
    exists_judged book answers shown
  unfold Derivation.closes
  rw [Bool.or_eq_true]
  cases judged with
  | skipped absent => exact absurd inScope (absent request found inForce)
  | reopened other same =>
      cases found.symm.trans same
      right
      refine List.any_eq_true.mpr ⟨reopening book entry request,
        judgeEntries_created (progress.created (List.mem_append_right _ ?_)), ?_⟩
      · exact List.mem_singleton_self _
      · simp [reopening, exposed]
  | hidden other same _ hides =>
      cases found.symm.trans same
      rw [hides] at showed
      cases showed
  | kept other shownMinistry same _ displayed isChosen =>
      cases found.symm.trans same
      cases showed.symm.trans displayed
      exact absurd (unused isChosen) dropped
  | withdrawn other shownMinistry same =>
      cases found.symm.trans same
      left
      refine List.contains_iff_mem.mpr (judgeEntries_cancelled
        (progress.cancelled (List.mem_append_right _ ?_)))
      exact List.mem_singleton_self _
  | spared other shownMinistry same _ displayed unchosen guarded =>
      cases found.symm.trans same
      rw [exposed] at guarded
      cases guarded

end ParishKit.Responses
