import Mathlib.Data.List.Infix
import ParishKit.Accounts.ConfigurationInstallation

/-!
# What the two stores agree on

The files and the database cannot commit together. This invariant says what they
agree on between any two durable steps, and each durable step keeps it.
-/

namespace ParishKit.Accounts

variable {Content : Type}

/-! ## History -/

/-- History only grows: files, snapshots and requests are never replaced,
activations are never taken back, and a request that is over stays as it is. -/
structure Grows (state next : Installation Content) : Prop where
  versions : ∀ versionId version,
    state.store.versions versionId = some version →
    next.store.versions versionId = some version
  snapshots : ∀ row ∈ state.database.snapshots, row ∈ next.database.snapshots
  requests : ∀ request ∈ state.database.requests,
    request ∈ next.database.requests
  activations : state.database.activations <:+ next.database.activations
  ended : ∀ request checkpoint,
    state.database.latest request = some checkpoint →
    checkpoint.terminal = true →
    next.database.latest request = some checkpoint

theorem Grows.goto (state : Installation Content) (control : Control Content) :
    Grows state (state.goto control) where
  versions _ _ present := present
  snapshots _ member := member
  requests _ member := member
  activations := List.suffix_rfl
  ended _ _ found _ := found

theorem Grows.refl (state : Installation Content) : Grows state state :=
  Grows.goto state state.control

theorem Grows.trans
    {first second third : Installation Content}
    (left : Grows first second) (right : Grows second third) :
    Grows first third where
  versions versionId version present :=
    right.versions versionId version (left.versions versionId version present)
  snapshots row member := right.snapshots row (left.snapshots row member)
  requests request member :=
    right.requests request (left.requests request member)
  activations := left.activations.trans right.activations
  ended request checkpoint found isOver :=
    right.ended request checkpoint (left.ended request checkpoint found isOver)
      isOver

theorem snapshot?_eq_some
    {database : Database Content} {versionId : Nat} {row : Snapshot Content}
    (found : database.snapshot? versionId = some row) :
    row ∈ database.snapshots ∧ row.version.versionId = versionId := by
  refine ⟨List.mem_of_find?_eq_some found, ?_⟩
  simpa using List.find?_some found

theorem latest_append
    (database : Database Content) (request other : Nat)
    (state : CheckpointState) :
    (database.append request state).latest other =
      if other = request then some state else database.latest other := by
  unfold Database.latest Database.append
  by_cases same : other = request
  · simp [same]
  · simp [same]

/-! ## The invariant -/

variable [Hashing Content]

/-- `newer` was activated over `older`, on which its version was built. -/
def Follows (database : Database Content) (newer older : Activation) : Prop :=
  newer.predecessor = some older.configuration ∧
    ∃ row ∈ database.snapshots, ∃ before ∈ database.snapshots,
      row.version.versionId = newer.configuration ∧
      before.version.versionId = older.configuration ∧
      row.version.predecessorDigest = some before.version.digest

/-- The manifest names a stored, prepared version: the active one, or one built
on it. -/
def Coherent (store : AuthorityStore Content) (database : Database Content) :
    Prop :=
  ∃ row ∈ database.snapshots,
    store.manifest = some (row.version.versionId, row.version.digest) ∧
    (some row.version.digest = database.activeDigest ∨
      row.version.predecessorDigest = database.activeDigest)

structure AuthorityInv (root : ConfigurationVersion Content)
    (store : AuthorityStore Content) (database : Database Content) : Prop where
  named : ∀ versionId version, store.versions versionId = some version →
    version.versionId = versionId ∧ (version = root ∨
      ∃ request ∈ database.requests,
        buildCandidate request.base request = some version)
  stored : ∀ row ∈ database.snapshots,
    store.versions row.version.versionId = some row.version
  linked : ∀ row ∈ database.snapshots, ∀ predecessor,
    row.predecessor = some predecessor →
    ∃ before ∈ database.snapshots, before.version.versionId = predecessor ∧
      row.version.predecessorDigest = some before.version.digest
  rooted : ∃ row ∈ database.snapshots, row.version = root
  fresh : ∀ request ∈ database.requests,
    request.candidateVersionId ≠ root.versionId
  distinct : ∀ left ∈ database.requests, ∀ right ∈ database.requests,
    left.candidateVersionId = right.candidateVersionId → left = right
  based : ∀ request ∈ database.requests,
    ∃ row ∈ database.snapshots, row.version = request.base
  live : ∃ row ∈ database.snapshots,
    row.version.versionId = database.activeConfiguration
  coherent : Coherent store database
  chained : database.activations.IsChain (Follows database)
  current : database.activations.head?.map (·.configuration) =
    some database.activeConfiguration
  applied : ∀ activation ∈ database.activations, ∀ request,
    activation.request = some request →
    database.latest request = some .applied

/-! ## Reading the stores -/

section Reading

variable {root : ConfigurationVersion Content}
  {store : AuthorityStore Content} {database : Database Content}

/-- Rows of one identity hold one version. -/
theorem AuthorityInv.version_eq
    (kept : AuthorityInv root store database) {left right : Snapshot Content}
    (leftMember : left ∈ database.snapshots)
    (rightMember : right ∈ database.snapshots)
    (sameId : left.version.versionId = right.version.versionId) :
    left.version = right.version := by
  have leftStored := kept.stored left leftMember
  rw [sameId, kept.stored right rightMember] at leftStored
  exact (Option.some.inj leftStored).symm

theorem AuthorityInv.activeDigest_eq
    (kept : AuthorityInv root store database) {row : Snapshot Content}
    (member : row ∈ database.snapshots)
    (isActive : row.version.versionId = database.activeConfiguration) :
    database.activeDigest = some row.version.digest := by
  cases found : database.snapshot? database.activeConfiguration with
  | none =>
      have absent := List.find?_eq_none.mp found row member
      simp [isActive] at absent
  | some other =>
      obtain ⟨otherMember, sameId⟩ := snapshot?_eq_some found
      have sameVersion := kept.version_eq otherMember member
        (sameId.trans isActive.symm)
      simp [Database.activeDigest, found, sameVersion]

theorem active_eq_some
    {version : ConfigurationVersion Content}
    (selected : store.active = some version) :
    ∃ versionId, store.manifest = some (versionId, version.digest) ∧
      store.versions versionId = some version := by
  unfold AuthorityStore.active at selected
  obtain ⟨⟨versionId, digest⟩, named, selected⟩ :=
    Option.bind_eq_some_iff.mp selected
  obtain ⟨found, present, selected⟩ := Option.bind_eq_some_iff.mp selected
  split at selected
  · rename_i sameDigest
    cases selected
    rw [← sameDigest] at named
    exact ⟨versionId, named, present⟩
  · cases selected

theorem AuthorityInv.manifest_of_active
    (kept : AuthorityInv root store database)
    {version : ConfigurationVersion Content}
    (selected : store.active = some version) :
    store.manifest = some (version.versionId, version.digest) := by
  obtain ⟨versionId, named, present⟩ := active_eq_some selected
  rw [(kept.named versionId version present).1]
  exact named

theorem buildCandidate_eq_some
    {base candidate : ConfigurationVersion Content}
    {request : ChangeRequest Content}
    (built : buildCandidate base request = some candidate) :
    candidate.versionId = request.candidateVersionId ∧
      candidate.predecessorDigest = some base.digest := by
  obtain ⟨content, _, rfl⟩ := Option.map_eq_some_iff.mp built
  exact ⟨rfl, rfl⟩

/-- A stored file with a candidate's identity is that candidate. -/
theorem AuthorityInv.candidate_eq
    (kept : AuthorityInv root store database)
    {request : ChangeRequest Content}
    {candidate existing : ConfigurationVersion Content}
    (member : request ∈ database.requests)
    (built : buildCandidate request.base request = some candidate)
    (present : store.versions candidate.versionId = some existing) :
    existing = candidate := by
  obtain ⟨sameId, isRoot | ⟨other, otherMember, otherBuilt⟩⟩ :=
    kept.named candidate.versionId existing present
  · have ownId := (buildCandidate_eq_some built).1
    rw [isRoot, ownId] at sameId
    exact absurd sameId.symm (kept.fresh request member)
  · have otherId := (buildCandidate_eq_some otherBuilt).1
    have ownId := (buildCandidate_eq_some built).1
    have sameRequest := kept.distinct other otherMember request member
      (otherId.symm.trans (sameId.trans ownId))
    rw [sameRequest, built] at otherBuilt
    exact (Option.some.inj otherBuilt).symm

theorem AuthorityInv.base_stored
    (kept : AuthorityInv root store database)
    {request : ChangeRequest Content}
    (member : request ∈ database.requests) :
    store.versions request.base.versionId = some request.base := by
  obtain ⟨row, rowMember, isBase⟩ := kept.based request member
  rw [← isBase]
  exact kept.stored row rowMember

theorem hasCandidate_eq_true
    {request : ChangeRequest Content}
    (prepared : database.hasCandidate request = true) :
    ∃ row ∈ database.snapshots,
      row.version.versionId = request.candidateVersionId ∧
      row.version.digest = request.candidateDigest ∧
      row.predecessor = some request.base.versionId := by
  obtain ⟨row, found, matched⟩ := (Option.any_eq_true _ _).mp prepared
  obtain ⟨member, sameId⟩ := snapshot?_eq_some found
  simp only [Bool.and_eq_true, beq_iff_eq] at matched
  exact ⟨row, member, sameId, matched.1, matched.2⟩

end Reading

/-! ## The durable steps -/

section Steps

variable {root : ConfigurationVersion Content}
  {store : AuthorityStore Content} {database : Database Content}

/-- A checkpoint after an unapplied one. -/
theorem AuthorityInv.checkpoints
    (kept : AuthorityInv root store database) (request : Nat)
    (state : CheckpointState)
    (notApplied : database.latest request ≠ some .applied) :
    AuthorityInv root store (database.append request state) := by
  refine ⟨kept.named, kept.stored, kept.linked, kept.rooted, kept.fresh,
    kept.distinct, kept.based, kept.live, kept.coherent, kept.chained,
    kept.current, ?_⟩
  intro activation member other ofRequest
  rw [latest_append]
  have before := kept.applied activation member other ofRequest
  by_cases same : other = request
  · rw [same] at before
    exact absurd before notApplied
  · rw [if_neg same]
    exact before

/-- A checkpoint is a repeat, or follows an unfinished one. -/
theorem checkpoint_eq_some
    {request : ChangeRequest Content} {state : CheckpointState}
    {next : Database Content}
    (recorded : database.checkpoint request state = some next) :
    next = database ∨
      (next = database.append request.pk state ∧
        ∀ latest, database.latest request.pk = some latest →
          latest.terminal = false) := by
  unfold Database.checkpoint at recorded
  split at recorded
  · cases recorded
    exact Or.inl rfl
  · split at recorded
    · rename_i admitted
      cases recorded
      refine Or.inr ⟨rfl, ?_⟩
      intro latest found
      rw [found, Bool.and_eq_true] at admitted
      cases latest with
      | cancelled => simp [Database.admitsTransition] at admitted
      | applied => simp [Database.admitsTransition] at admitted
      | failed code => simp [Database.admitsTransition] at admitted
      | staged => rfl
      | validating => rfl
      | prepared => rfl
      | yamlActivated => rfl
    · cases recorded

theorem AuthorityInv.checkpoint
    (kept : AuthorityInv root store database)
    {request : ChangeRequest Content} {state : CheckpointState}
    {next : Database Content}
    (recorded : database.checkpoint request state = some next) :
    AuthorityInv root store next := by
  rcases checkpoint_eq_some recorded with rfl | ⟨rfl, unfinished⟩
  · exact kept
  · refine kept.checkpoints request.pk state fun isApplied => ?_
    have notOver := unfinished .applied isApplied
    cases notOver

theorem journalAbort_eq_some
    {request : ChangeRequest Content} {next : Database Content}
    (journaled : database.journalAbort request = some next) :
    ∃ aborted, next = { database with aborted } := by
  unfold Database.journalAbort at journaled
  dsimp only at journaled
  split at journaled
  · cases journaled
    exact ⟨_, rfl⟩
  · split at journaled
    · cases journaled
      exact ⟨_, rfl⟩
    · cases journaled

theorem AuthorityInv.journal
    (kept : AuthorityInv root store database) (aborted : Nat → Bool) :
    AuthorityInv root store { database with aborted } :=
  ⟨kept.named, kept.stored, kept.linked, kept.rooted, kept.fresh,
    kept.distinct, kept.based, kept.live, kept.coherent, kept.chained,
    kept.current, kept.applied⟩

/-- Selecting a prepared version that is active or built on the active one. -/
theorem AuthorityInv.select
    (kept : AuthorityInv root store database)
    {version : ConfigurationVersion Content} {next : AuthorityStore Content}
    (selected : store.select version = some next)
    (prepared : ∃ row ∈ database.snapshots, row.version = version)
    (atBase : some version.digest = database.activeDigest ∨
      version.predecessorDigest = database.activeDigest) :
    AuthorityInv root next database ∧ next.versions = store.versions := by
  unfold AuthorityStore.select at selected
  split at selected
  · cases selected
  · split at selected
    · cases selected
      obtain ⟨row, member, rfl⟩ := prepared
      exact ⟨⟨kept.named, kept.stored, kept.linked, kept.rooted, kept.fresh,
        kept.distinct, kept.based, kept.live, ⟨row, member, rfl, atBase⟩,
        kept.chained, kept.current, kept.applied⟩, rfl⟩
    · cases selected

/-- Writing a candidate keeps every stored version. -/
theorem AuthorityInv.write
    (kept : AuthorityInv root store database)
    {request : ChangeRequest Content}
    {candidate : ConfigurationVersion Content} {next : AuthorityStore Content}
    (member : request ∈ database.requests)
    (built : buildCandidate request.base request = some candidate)
    (written : store.writeVersion candidate = some next) :
    AuthorityInv root next database ∧
      next.versions candidate.versionId = some candidate ∧
      ∀ versionId version, store.versions versionId = some version →
        next.versions versionId = some version := by
  unfold AuthorityStore.writeVersion at written
  split at written
  · rename_i existing present
    split at written
    · cases written
      have same := kept.candidate_eq member built present
      rw [same] at present
      exact ⟨kept, present, fun _ _ found => found⟩
    · cases written
  · rename_i absent
    cases written
    have grows : ∀ versionId version,
        store.versions versionId = some version →
        (if versionId = candidate.versionId then some candidate
          else store.versions versionId) = some version := by
      intro versionId version found
      have different : versionId ≠ candidate.versionId := by
        rintro rfl
        rw [absent] at found
        cases found
      rw [if_neg different]
      exact found
    refine ⟨⟨?_, fun row inRows => grows _ _ (kept.stored row inRows),
      kept.linked, kept.rooted, kept.fresh, kept.distinct, kept.based,
      kept.live, kept.coherent, kept.chained, kept.current, kept.applied⟩,
      if_pos rfl, grows⟩
    intro versionId version found
    by_cases same : versionId = candidate.versionId
    · simp only [if_pos same, Option.some.injEq] at found
      subst found
      exact ⟨same.symm, Or.inr ⟨request, member, built⟩⟩
    · simp only [if_neg same] at found
      exact kept.named versionId version found

theorem Follows.mono
    {next : Database Content} {newer older : Activation}
    (follows : Follows database newer older)
    (grows : ∀ row ∈ database.snapshots, row ∈ next.snapshots) :
    Follows next newer older := by
  obtain ⟨link, row, member, before, beforeMember, ids⟩ := follows
  exact ⟨link, row, grows row member, before, grows before beforeMember, ids⟩

/-- Another row leaves the active row where it is. -/
theorem activeDigest_concat
    (row : Snapshot Content)
    (live : ∃ active ∈ database.snapshots,
      active.version.versionId = database.activeConfiguration) :
    ({ database with snapshots := database.snapshots ++ [row] } :
      Database Content).activeDigest = database.activeDigest := by
  obtain ⟨active, member, isActive⟩ := live
  unfold Database.activeDigest Database.snapshot?
  cases found : database.snapshots.find? fun row =>
      row.version.versionId == database.activeConfiguration with
  | none =>
      have absent := List.find?_eq_none.mp found active member
      simp [isActive] at absent
  | some first => simp [List.find?_append, found]

/-- Preparing a written candidate. -/
theorem AuthorityInv.prepare
    (kept : AuthorityInv root store database)
    {candidate : ConfigurationVersion Content} {next : Database Content}
    (written : store.versions candidate.versionId = some candidate)
    (prepared : database.prepareSnapshot candidate = some next) :
    AuthorityInv root store next ∧
      (∃ row ∈ next.snapshots, row.version = candidate) ∧
      ∃ rows, next = { database with snapshots := database.snapshots ++ rows } ∧
        next.activeDigest = database.activeDigest := by
  unfold Database.prepareSnapshot at prepared
  split at prepared
  · rename_i existing found
    split at prepared
    · cases prepared
      obtain ⟨member, sameId⟩ := snapshot?_eq_some found
      have present := kept.stored existing member
      rw [sameId, written] at present
      refine ⟨kept, ⟨existing, member, (Option.some.inj present).symm⟩, [], ?_⟩
      simp
    · cases prepared
  · split at prepared
    · cases prepared
    · rename_i digest builtOn
      split at prepared
      · cases prepared
      · rename_i predecessor found
        split at prepared
        · cases prepared
        · cases prepared
          have sameActive := activeDigest_concat
            ⟨candidate, some predecessor.version.versionId⟩ kept.live
          have grows : ∀ row ∈ database.snapshots, row ∈ database.snapshots ++
              [⟨candidate, some predecessor.version.versionId⟩] :=
            fun row member => List.mem_append_left _ member
          have predecessorMember := List.mem_of_find?_eq_some found
          have sameDigest : predecessor.version.digest = digest := by
            simpa using List.find?_some found
          refine ⟨⟨kept.named, ?_, ?_, ?_, kept.fresh, kept.distinct, ?_, ?_,
            ?_, ?_, kept.current, kept.applied⟩, ?_, _, rfl, sameActive⟩
          · intro row member
            rcases List.mem_append.mp member with old | new
            · exact kept.stored row old
            · rw [List.mem_singleton.mp new]
              exact written
          · intro row member before isPredecessor
            rcases List.mem_append.mp member with old | new
            · obtain ⟨older, olderMember, rest⟩ :=
                kept.linked row old before isPredecessor
              exact ⟨older, grows older olderMember, rest⟩
            · rw [List.mem_singleton.mp new] at isPredecessor ⊢
              exact ⟨predecessor, grows predecessor predecessorMember,
                Option.some.inj isPredecessor,
                by rw [sameDigest]; exact builtOn⟩
          · obtain ⟨row, member, isRoot⟩ := kept.rooted
            exact ⟨row, grows row member, isRoot⟩
          · intro request member
            obtain ⟨row, rowMember, isBase⟩ := kept.based request member
            exact ⟨row, grows row rowMember, isBase⟩
          · obtain ⟨row, member, isActive⟩ := kept.live
            exact ⟨row, grows row member, isActive⟩
          · obtain ⟨row, member, named, atBase⟩ := kept.coherent
            exact ⟨row, grows row member, named, by
              rw [sameActive]
              exact atBase⟩
          · exact kept.chained.imp fun newer older follows =>
              follows.mono grows
          · exact ⟨_, List.mem_append_right _ (List.mem_singleton.mpr rfl),
              rfl⟩

/-- What an activation needs, and what it commits. -/
theorem activate_eq_some
    {request : ChangeRequest Content} {next : Database Content}
    (activated : database.activate request = some next) :
    request.base.versionId = database.activeConfiguration ∧
      database.hasCandidate request = true ∧
      database.latest request.pk = some .yamlActivated ∧
      next = { database.append request.pk .applied with
        activations := ⟨request.candidateVersionId,
          some database.activeConfiguration, some request.pk⟩ ::
            database.activations
        activeConfiguration := request.candidateVersionId } := by
  unfold Database.activate at activated
  dsimp only at activated
  split at activated
  · rename_i admitted
    cases activated
    exact ⟨admitted.1, admitted.2.1, admitted.2.2.1, rfl⟩
  · cases activated

/-- Activating the selected candidate: the two stores agree again. -/
theorem AuthorityInv.activate
    (kept : AuthorityInv root store database)
    {request : ChangeRequest Content} {next : Database Content}
    (selected : store.manifest =
      some (request.candidateVersionId, request.candidateDigest))
    (activated : database.activate request = some next) :
    AuthorityInv root store next := by
  obtain ⟨overBase, prepared, checkpointed, rfl⟩ := activate_eq_some activated
  obtain ⟨row, member, sameId, sameDigest, isPredecessor⟩ :=
    hasCandidate_eq_true prepared
  obtain ⟨before, beforeMember, beforeId, builtOn⟩ :=
    kept.linked row member _ isPredecessor
  have appended := kept.checkpoints request.pk .applied
    (by simp [checkpointed])
  have nowLive : ∃ active ∈ database.snapshots,
      active.version.versionId = request.candidateVersionId :=
    ⟨row, member, sameId⟩
  refine ⟨kept.named, kept.stored, kept.linked, kept.rooted, kept.fresh,
    kept.distinct, kept.based, nowLive, ⟨row, member, ?_, Or.inl ?_⟩, ?_, rfl,
    ?_⟩
  · rw [selected, sameId, sameDigest]
  · cases found : database.snapshot? request.candidateVersionId with
    | none => simp [Database.hasCandidate, found] at prepared
    | some other =>
        obtain ⟨otherMember, otherId⟩ := snapshot?_eq_some found
        have sameVersion := kept.version_eq otherMember member
          (otherId.trans sameId.symm)
        change some row.version.digest =
          (database.snapshot? request.candidateVersionId).map _
        rw [found, ← sameVersion]
        rfl
  · have chained : database.activations.IsChain (Follows database) :=
      kept.chained
    cases history : database.activations with
    | nil =>
        have current := kept.current
        rw [history] at current
        cases current
    | cons newest rest =>
        have current := kept.current
        rw [history] at current chained
        refine List.isChain_cons_cons.mpr ⟨?_, chained⟩
        have isActive : newest.configuration = database.activeConfiguration :=
          Option.some.inj current
        refine ⟨by rw [isActive], row, member, before, beforeMember, sameId,
          ?_, builtOn⟩
        rw [beforeId, isActive]
        exact overBase
  · intro activation inHistory other ofRequest
    change (database.append request.pk .applied).latest other = some .applied
    rcases List.mem_cons.mp inHistory with isNew | old
    · rw [isNew] at ofRequest
      rw [← Option.some.inj ofRequest, latest_append, if_pos rfl]
    · exact appended.applied activation old other ofRequest

/-- A new request. -/
theorem AuthorityInv.submit
    (kept : AuthorityInv root store database)
    {request : ChangeRequest Content}
    (based : ∃ row ∈ database.snapshots, row.version = request.base)
    (newRequest : ∀ other ∈ database.requests, other.pk ≠ request.pk ∧
      other.candidateVersionId ≠ request.candidateVersionId)
    (newVersion : ∀ row ∈ database.snapshots,
      row.version.versionId ≠ request.candidateVersionId)
    (unrecorded : database.checkpoints request.pk = []) :
    AuthorityInv root store { database.append request.pk .staged with
      requests := database.requests ++ [request] } := by
  have appended := kept.checkpoints request.pk .staged
    (by simp [Database.latest, unrecorded])
  refine ⟨?_, kept.stored, kept.linked, kept.rooted, ?_, ?_, ?_, kept.live,
    kept.coherent, kept.chained, kept.current, appended.applied⟩
  · intro versionId version present
    obtain ⟨sameId, isRoot | ⟨other, member, built⟩⟩ :=
      kept.named versionId version present
    · exact ⟨sameId, Or.inl isRoot⟩
    · exact ⟨sameId, Or.inr ⟨other, List.mem_append_left _ member, built⟩⟩
  · intro other member
    rcases List.mem_append.mp member with old | new
    · exact kept.fresh other old
    · rw [List.mem_singleton.mp new]
      obtain ⟨row, rowMember, isRoot⟩ := kept.rooted
      have different := newVersion row rowMember
      rw [isRoot] at different
      exact different.symm
  · intro left leftMember right rightMember sameId
    rcases List.mem_append.mp leftMember with oldLeft | newLeft <;>
      rcases List.mem_append.mp rightMember with oldRight | newRight
    · exact kept.distinct left oldLeft right oldRight sameId
    · rw [List.mem_singleton.mp newRight] at sameId
      exact absurd sameId (newRequest left oldLeft).2
    · rw [List.mem_singleton.mp newLeft] at sameId
      exact absurd sameId.symm (newRequest right oldRight).2
    · rw [List.mem_singleton.mp newLeft, List.mem_singleton.mp newRight]
  · intro other member
    rcases List.mem_append.mp member with old | new
    · exact kept.based other old
    · rw [List.mem_singleton.mp new]
      exact based

end Steps

end ParishKit.Accounts
