import ParishKit.Accounts.AuthorityInvariant
import ParishKit.Lib.Transition

/-!
# Configuration installation is crash-safe

Whatever the passes and wherever they stop: the manifest is at the active
configuration or one activation ahead of it, activations form one chain, and a
request that is over is never activated.
-/

namespace ParishKit.Accounts

open ParishKit.Lib

variable {Content : Type}

/-- A pass starts only where no other holds the lock. -/
theorem takeLock_eq_some
    {state : Installation Content}
    {started : Option (Installation Content)} {next : Installation Content}
    (taken : state.takeLock started = some next) :
    state.control = .idle ∧ started = some next := by
  unfold Installation.takeLock at taken
  split at taken
  · rename_i isIdle
    exact ⟨isIdle, taken⟩
  · cases taken

variable [Hashing Content] {root : ConfigurationVersion Content}

/-! ## What a pass knows -/

/-- The pass has built the request's candidate on the active configuration. -/
structure Building (state : Installation Content)
    (request : ChangeRequest Content)
    (candidate : ConfigurationVersion Content) : Prop where
  member : request ∈ state.database.requests
  built : buildCandidate request.base request = some candidate
  overActive : candidate.predecessorDigest = state.database.activeDigest

def ControlInv (state : Installation Content) : Prop :=
  match state.control with
  | .restoring (.install request _) => request ∈ state.database.requests
  | .recovering request _ => request ∈ state.database.requests
  | .claiming request candidate => Building state request candidate
  | .applying request candidate => Building state request candidate
  | .writing request candidate => Building state request candidate
  | .preparing request candidate =>
      Building state request candidate ∧
        state.store.versions candidate.versionId = some candidate
  | .recordingPrepared request candidate =>
      Building state request candidate ∧
        ∃ row ∈ state.database.snapshots, row.version = candidate
  | .checkingEnd request candidate =>
      Building state request candidate ∧
        ∃ row ∈ state.database.snapshots, row.version = candidate
  | .selecting request candidate =>
      Building state request candidate ∧
        ∃ row ∈ state.database.snapshots, row.version = candidate
  | .activating request =>
      state.store.manifest =
        some (request.candidateVersionId, request.candidateDigest)
  | _ => True

/-- What a pass knows rests on the files, the snapshots, the active pointer and
the requests that are there. -/
theorem ControlInv.frame
    {state next : Installation Content} (known : ControlInv state)
    (sameStore : next.store = state.store)
    (sameSnapshots : next.database.snapshots = state.database.snapshots)
    (sameActive : next.database.activeConfiguration =
      state.database.activeConfiguration)
    (requests : ∀ request ∈ state.database.requests,
      request ∈ next.database.requests)
    (sameControl : next.control = state.control) :
    ControlInv next := by
  have sameDigest : next.database.activeDigest =
      state.database.activeDigest := by
    simp only [Database.activeDigest, Database.snapshot?, sameSnapshots,
      sameActive]
  have building {request : ChangeRequest Content}
      {candidate : ConfigurationVersion Content}
      (building : Building state request candidate) :
      Building next request candidate :=
    ⟨requests request building.member, building.built,
      building.overActive.trans sameDigest.symm⟩
  unfold ControlInv at known ⊢
  rw [sameControl, sameStore, sameSnapshots]
  cases here : state.control with
  | restoring after =>
      cases after with
      | done => trivial
      | install request current =>
          rw [here] at known
          exact requests request known
  | recovering request current =>
      rw [here] at known
      exact requests request known
  | claiming request candidate =>
      rw [here] at known
      exact building known
  | applying request candidate =>
      rw [here] at known
      exact building known
  | writing request candidate =>
      rw [here] at known
      exact building known
  | preparing request candidate =>
      rw [here] at known
      exact ⟨building known.1, known.2⟩
  | recordingPrepared request candidate =>
      rw [here] at known
      exact ⟨building known.1, known.2⟩
  | checkingEnd request candidate =>
      rw [here] at known
      exact ⟨building known.1, known.2⟩
  | selecting request candidate =>
      rw [here] at known
      exact ⟨building known.1, known.2⟩
  | activating request =>
      rw [here] at known
      exact known
  | _ => trivial

structure InstallationInv (root : ConfigurationVersion Content)
    (state : Installation Content) : Prop where
  authority : AuthorityInv root state.store state.database
  control : ControlInv state

/-- A step keeps the invariant and the history. -/
def Preserves (root : ConfigurationVersion Content)
    (state next : Installation Content) : Prop :=
  InstallationInv root next ∧ Grows state next

section Steps

variable {state : Installation Content}

theorem InstallationInv.goto
    (kept : InstallationInv root state) {control : Control Content}
    (known : ControlInv (state.goto control)) :
    Preserves root state (state.goto control) :=
  ⟨⟨kept.authority, known⟩, Grows.goto state control⟩

theorem InstallationInv.idle (kept : InstallationInv root state) :
    Preserves root state (state.goto .idle) :=
  kept.goto trivial

/-- A checkpoint moves nothing that a pass relies on. -/
theorem InstallationInv.checkpoint
    (kept : InstallationInv root state) (request : ChangeRequest Content)
    (reached : CheckpointState) {control : Control Content}
    (known : ControlInv (state.goto control)) :
    Preserves root state (state.commit
      (state.database.checkpoint request reached) control) := by
  cases recorded : state.database.checkpoint request reached with
  | none => exact kept.idle
  | some next =>
      have authority := kept.authority.checkpoint recorded
      rcases checkpoint_eq_some recorded with rfl | ⟨rfl, unfinished⟩
      · exact kept.goto known
      · refine ⟨⟨authority, known.frame rfl rfl rfl (fun _ member => member)
            rfl⟩, fun _ _ present => present, fun _ member => member,
          fun _ member => member, List.suffix_rfl, ?_⟩
        intro other latest found isOver
        change (state.database.append request.pk reached).latest other = _
        rw [latest_append]
        by_cases same : other = request.pk
        · rw [same] at found
          have notOver := unfinished latest found
          exact absurd isOver (by simp [notOver])
        · rw [if_neg same]
          exact found

theorem InstallationInv.journal
    (kept : InstallationInv root state) (request : ChangeRequest Content)
    {control : Control Content} (known : ControlInv (state.goto control)) :
    Preserves root state (state.commit
      (state.database.journalAbort request) control) := by
  cases journaled : state.database.journalAbort request with
  | none => exact kept.idle
  | some next =>
      obtain ⟨aborted, rfl⟩ := journalAbort_eq_some journaled
      exact ⟨⟨kept.authority.journal aborted,
          known.frame rfl rfl rfl (fun _ member => member) rfl⟩,
        fun _ _ present => present, fun _ member => member,
        fun _ member => member, List.suffix_rfl, fun _ _ found _ => found⟩

theorem InstallationInv.select
    (kept : InstallationInv root state)
    {version : ConfigurationVersion Content} {control : Control Content}
    (prepared : ∃ row ∈ state.database.snapshots, row.version = version)
    (atBase : some version.digest = state.database.activeDigest ∨
      version.predecessorDigest = state.database.activeDigest)
    (known : ∀ store, ControlInv { state with store, control }) :
    Preserves root state
      (state.publish (state.store.select version) control) := by
  cases selected : state.store.select version with
  | none => exact kept.idle
  | some next =>
      obtain ⟨authority, sameVersions⟩ :=
        kept.authority.select selected prepared atBase
      refine ⟨⟨authority, known next⟩, ?_, fun _ member => member,
        fun _ member => member, List.suffix_rfl, fun _ _ found _ => found⟩
      intro versionId version present
      change next.versions versionId = some version
      rw [sameVersions]
      exact present

theorem controlInv_afterRestore
    {after : AfterRestore Content} {store : AuthorityStore Content}
    (known : ControlInv (state.goto (.restoring after))) :
    ControlInv { state with
      store, control := Installation.afterRestore after } := by
  cases after with
  | done => trivial
  | install request current => exact known

theorem refusedRequest_eq_some
    {request : ChangeRequest Content}
    (refused : state.refusedRequest = some request) :
    request ∈ state.database.requests ∧
      state.database.activeDigest = some request.base.digest := by
  unfold Installation.refusedRequest at refused
  obtain ⟨⟨versionId, digest⟩, _, refused⟩ :=
    Option.bind_eq_some_iff.mp refused
  obtain ⟨active, isActive, refused⟩ := Option.bind_eq_some_iff.mp refused
  split at refused
  · cases refused
  · refine ⟨List.mem_of_find?_eq_some refused, ?_⟩
    have matched := List.find?_some refused
    simp only [Bool.and_eq_true, beq_iff_eq] at matched
    rw [matched.1.2]
    exact isActive

theorem InstallationInv.restoreRefused
    (kept : InstallationInv root state) {after : AfterRestore Content}
    (known : ControlInv (state.goto (.restoring after))) :
    Preserves root state (state.restoreRefused after) := by
  unfold Installation.restoreRefused
  split
  · exact kept.goto (controlInv_afterRestore known)
  · rename_i request refused
    obtain ⟨member, isActive⟩ := refusedRequest_eq_some refused
    rw [kept.authority.base_stored member]
    exact kept.select (kept.authority.based request member)
      (Or.inl isActive.symm) fun _ => controlInv_afterRestore known

theorem InstallationInv.restoreAborted
    (kept : InstallationInv root state) (request : ChangeRequest Content)
    (after : AfterAbort) :
    Preserves root state (state.restoreAborted request after) := by
  unfold Installation.restoreAborted
  split
  · cases after with
    | done => exact kept.idle
    | refused => exact kept.goto trivial
  · split
    · exact kept.idle
    · split
      · exact kept.idle
      · split
        · split
          · exact kept.goto trivial
          · exact kept.idle
        · rename_i _ sameActive
          rw [ne_eq, not_not] at sameActive
          split
          · exact kept.goto trivial
          · split
            · split
              · exact kept.idle
              · rename_i base present
                obtain ⟨row, member, isActive⟩ := kept.authority.live
                have stored := kept.authority.stored row member
                rw [isActive, sameActive, present] at stored
                have isBase : row.version = base :=
                  (Option.some.inj stored).symm
                refine kept.select ⟨row, member, isBase⟩ (Or.inl ?_)
                  fun _ => trivial
                rw [kept.authority.activeDigest_eq member isActive, isBase]
            · exact kept.idle

/-! ## Installing -/

theorem InstallationInv.installSetup
    (kept : InstallationInv root state) {request : ChangeRequest Content}
    (member : request ∈ state.database.requests) :
    Preserves root state (state.installSetup request) := by
  unfold Installation.installSetup
  rw [kept.authority.base_stored member, Option.bind_some]
  split
  · exact kept.idle
  · rename_i candidate built
    split
    · exact kept.idle
    · rename_i admitted
      simp only [ne_eq, not_or, not_not] at admitted
      have building {control : Control Content} :
          Building (state.goto control) request candidate :=
        ⟨member, built,
          (buildCandidate_eq_some built).2.trans admitted.2.symm⟩
      split
      · exact kept.idle
      · split
        · split
          · exact kept.goto trivial
          · exact kept.idle
        · split
          · split
            · exact kept.goto building
            · exact kept.goto building
          · exact kept.idle

theorem preflight_eq_ok
    {request : ChangeRequest Content} {seen : Findings}
    {candidate : ConfigurationVersion Content}
    (passed : state.preflight request seen = .ok candidate) :
    buildCandidate request.base request = some candidate ∧
      state.database.activeDigest = some request.base.digest := by
  unfold Installation.preflight at passed
  split at passed
  · cases passed
  · rename_i sameActive
    rw [ne_eq, not_not] at sameActive
    split at passed
    · cases passed
    · split at passed
      · cases passed
      · rename_i built
        split at passed
        · cases passed
          exact ⟨built, sameActive⟩
        · cases passed

theorem InstallationInv.installOrdinary
    (kept : InstallationInv root state) {request : ChangeRequest Content}
    (member : request ∈ state.database.requests)
    (current : CheckpointState) (seen : Findings) :
    Preserves root state (state.installOrdinary request current seen) := by
  unfold Installation.installOrdinary
  split
  · exact kept.idle
  · split
    · split
      · exact kept.goto trivial
      · exact kept.idle
    · split
      · split
        · exact kept.goto trivial
        · exact kept.goto trivial
      · rename_i candidate passed
        obtain ⟨built, isActive⟩ := preflight_eq_ok passed
        have building {control : Control Content} :
            Building (state.goto control) request candidate :=
          ⟨member, built,
            (buildCandidate_eq_some built).2.trans isActive.symm⟩
        split
        · exact kept.goto building
        · exact kept.goto building

theorem InstallationInv.expireSetup
    (kept : InstallationInv root state) {request : ChangeRequest Content}
    {next : Installation Content}
    (expired : state.expireSetup request = some next) :
    Preserves root state next := by
  unfold Installation.expireSetup at expired
  dsimp only at expired
  split at expired
  · split at expired
    · cases expired
      exact kept.idle
    · split at expired
      · cases expired
        exact kept.idle
      · split at expired
        · cases expired
          exact kept.goto trivial
        · cases expired
          exact kept.goto trivial
  · split at expired
    · cases expired
      exact kept.journal request trivial
    · cases expired

theorem InstallationInv.recover
    (kept : InstallationInv root state) {request : ChangeRequest Content}
    (member : request ∈ state.database.requests)
    (current : CheckpointState) (seen : Findings) :
    Preserves root state (state.recover request current seen) := by
  unfold Installation.recover
  split
  · exact kept.goto trivial
  · dsimp only
    split
    · rename_i next expired
      split at expired
      · exact kept.expireSetup expired
      · cases expired
    · split
      · exact kept.idle
      · split
        · exact kept.installSetup member
        · exact kept.installOrdinary member current seen

theorem InstallationInv.recordYaml
    (kept : InstallationInv root state) (request : ChangeRequest Content) :
    Preserves root state (state.recordYaml request) := by
  unfold Installation.recordYaml
  split
  · exact kept.idle
  · rename_i selected isSelected
    split
    · exact kept.idle
    · rename_i admitted
      simp only [ne_eq, not_or, not_not] at admitted
      refine kept.checkpoint request .yamlActivated ?_
      change state.store.manifest = _
      rw [kept.authority.manifest_of_active isSelected, admitted.1,
        admitted.2.1]

/-- The pointer, the history and the Applied checkpoint move together. -/
theorem InstallationInv.activated
    (kept : InstallationInv root state) {request : ChangeRequest Content}
    {database : Database Content}
    (selected : state.store.manifest =
      some (request.candidateVersionId, request.candidateDigest))
    (activated : state.database.activate request = some database) :
    Preserves root state { state with database, control := .idle } := by
  have authority := kept.authority.activate selected activated
  obtain ⟨_, _, checkpointed, rfl⟩ := activate_eq_some activated
  refine ⟨⟨authority, trivial⟩, fun _ _ present => present,
    fun _ member => member, fun _ member => member, List.suffix_cons _ _, ?_⟩
  intro other latest found isOver
  change (state.database.append request.pk .applied).latest other = _
  rw [latest_append]
  by_cases same : other = request.pk
  · rw [same, checkpointed] at found
    cases found
    cases isOver
  · rw [if_neg same]
    exact found

theorem InstallationInv.activation
    (kept : InstallationInv root state) {request : ChangeRequest Content}
    (selected : state.store.manifest =
      some (request.candidateVersionId, request.candidateDigest))
    (seen : Findings) :
    Preserves root state (state.activation request seen) := by
  have refused (code : FailureCode) : Preserves root state (state.commit
      (state.database.checkpoint request (.failed code))
      (.restoring .done)) :=
    kept.checkpoint request (.failed code) trivial
  unfold Installation.activation
  dsimp only
  split
  · split
    · exact refused .invalidCandidate
    · exact kept.idle
  · split
    · exact kept.journal request trivial
    · split
      · exact refused _
      · split
        · rename_i database activated
          exact kept.activated selected activated
        · split
          · exact refused .invalidCandidate
          · exact kept.idle

theorem InstallationInv.applyVersion
    (kept : InstallationInv root state) {request : ChangeRequest Content}
    {candidate : ConfigurationVersion Content}
    (building : Building state request candidate) :
    Preserves root state (state.applyVersion request candidate) := by
  unfold Installation.applyVersion
  split
  · exact kept.idle
  · split
    · exact kept.idle
    · exact kept.goto ⟨building.member, building.built, building.overActive⟩

theorem InstallationInv.write
    (kept : InstallationInv root state) {request : ChangeRequest Content}
    {candidate : ConfigurationVersion Content}
    (building : Building state request candidate) :
    Preserves root state (state.publish (state.store.writeVersion candidate)
      (.preparing request candidate)) := by
  cases written : state.store.writeVersion candidate with
  | none => exact kept.idle
  | some next =>
      obtain ⟨authority, present, grows⟩ :=
        kept.authority.write building.member building.built written
      exact ⟨⟨authority, ⟨building.member, building.built,
          building.overActive⟩, present⟩, grows, fun _ member => member,
        fun _ member => member, List.suffix_rfl, fun _ _ found _ => found⟩

theorem InstallationInv.prepare
    (kept : InstallationInv root state) {request : ChangeRequest Content}
    {candidate : ConfigurationVersion Content}
    (building : Building state request candidate)
    (written : state.store.versions candidate.versionId = some candidate) :
    Preserves root state (state.commit
      (state.database.prepareSnapshot candidate)
      (.recordingPrepared request candidate)) := by
  cases prepared : state.database.prepareSnapshot candidate with
  | none => exact kept.idle
  | some next =>
      obtain ⟨authority, present, rows, rfl, sameActive⟩ :=
        kept.authority.prepare written prepared
      exact ⟨⟨authority, ⟨building.member, building.built,
          building.overActive.trans sameActive.symm⟩, present⟩,
        fun _ _ found => found, fun _ member => List.mem_append_left rows member,
        fun _ member => member, List.suffix_rfl, fun _ _ found _ => found⟩

/-- Every durable step of a pass keeps the invariant and the history. -/
theorem InstallationInv.advance
    (kept : InstallationInv root state) {seen : Findings}
    {next : Installation Content}
    (advanced : state.advance seen = some next) :
    Preserves root state next := by
  have known := kept.control
  unfold ControlInv at known
  unfold Installation.advance at advanced
  cases here : state.control with
  | idle => simp [here] at advanced
  | restoring after =>
      simp only [here, Option.some.injEq] at advanced
      subst advanced
      refine kept.restoreRefused ?_
      cases after with
      | done => trivial
      | install request current =>
          rw [here] at known
          exact known
  | recovering request current =>
      rw [here] at known
      simp only [here, Option.some.injEq] at advanced
      subst advanced
      exact kept.recover known current seen
  | abortRestoring request after =>
      simp only [here, Option.some.injEq] at advanced
      subst advanced
      exact kept.restoreAborted request after
  | abortRecording request after =>
      simp only [here, Option.some.injEq] at advanced
      subst advanced
      refine kept.checkpoint request (.failed .invalidCandidate) ?_
      cases after with
      | done => trivial
      | refused => trivial
  | claiming request candidate =>
      rw [here] at known
      simp only [here, Option.some.injEq] at advanced
      subst advanced
      have building : Building state request candidate := known
      refine kept.checkpoint request .validating ?_
      split
      · exact ⟨building.member, building.built, building.overActive⟩
      · exact ⟨building.member, building.built, building.overActive⟩
  | claimingFailure request code =>
      simp only [here, Option.some.injEq] at advanced
      subst advanced
      exact kept.checkpoint request .validating trivial
  | failing request code =>
      simp only [here, Option.some.injEq] at advanced
      subst advanced
      exact kept.checkpoint request (.failed code) trivial
  | applying request candidate =>
      rw [here] at known
      simp only [here, Option.some.injEq] at advanced
      subst advanced
      exact kept.applyVersion known
  | writing request candidate =>
      rw [here] at known
      simp only [here, Option.some.injEq] at advanced
      subst advanced
      exact kept.write known
  | preparing request candidate =>
      rw [here] at known
      simp only [here] at advanced
      split at advanced
      · cases advanced
        exact kept.goto trivial
      · cases advanced
        exact kept.prepare known.1 known.2
  | recordingPrepared request candidate =>
      rw [here] at known
      simp only [here, Option.some.injEq] at advanced
      subst advanced
      exact kept.checkpoint request .prepared
        ⟨⟨known.1.member, known.1.built, known.1.overActive⟩, known.2⟩
  | checkingEnd request candidate =>
      rw [here] at known
      simp only [here] at advanced
      split at advanced
      · cases advanced
        exact kept.journal request trivial
      · cases advanced
        exact kept.goto
          ⟨⟨known.1.member, known.1.built, known.1.overActive⟩, known.2⟩
  | selecting request candidate =>
      rw [here] at known
      simp only [here] at advanced
      split at advanced
      · cases advanced
        refine kept.select known.2 (Or.inr known.1.overActive) fun _ => ?_
        split
        · trivial
        · trivial
      · cases advanced
        exact kept.idle
  | recordingSetup request =>
      simp only [here, Option.some.injEq] at advanced
      subst advanced
      exact kept.checkpoint request .yamlActivated trivial
  | recordingYaml request =>
      simp only [here, Option.some.injEq] at advanced
      subst advanced
      exact kept.recordYaml request
  | activating request =>
      rw [here] at known
      simp only [here, Option.some.injEq] at advanced
      subst advanced
      exact kept.activation known seen
  | abandoning request =>
      simp only [here, Option.some.injEq] at advanced
      subst advanced
      exact kept.checkpoint request (.failed .invalidCandidate) trivial

/-! ## Passes and the other writers -/

theorem InstallationInv.completeSetup
    (kept : InstallationInv root state) {request : ChangeRequest Content}
    {next : Installation Content} (isIdle : state.control = .idle)
    (completed : state.completeSetup request = some next) :
    Preserves root state next := by
  obtain ⟨database, activated, checked⟩ :=
    Option.bind_eq_some_iff.mp completed
  split at checked
  · rename_i owner
    cases checked
    have preserved := kept.activated owner.2 activated
    rw [← isIdle] at preserved
    exact preserved
  · cases checked

theorem InstallationInv.submit
    (kept : InstallationInv root state) {request : ChangeRequest Content}
    (permitted : InstallationOp.Allowed state (.submit request)) :
    Preserves root state { state with database :=
      { state.database.append request.pk .staged with
        requests := state.database.requests ++ [request] } } := by
  obtain ⟨based, newRequest, newVersion, unrecorded⟩ := permitted
  refine ⟨⟨kept.authority.submit based newRequest newVersion unrecorded,
      kept.control.frame rfl rfl rfl
        (fun _ member => List.mem_append_left _ member) rfl⟩,
    fun _ _ present => present, fun _ member => member,
    fun _ member => List.mem_append_left _ member, List.suffix_rfl, ?_⟩
  intro other latest found _
  change (state.database.append request.pk .staged).latest other = some latest
  rw [latest_append]
  by_cases same : other = request.pk
  · rw [same, Database.latest, unrecorded] at found
    cases found
  · rw [if_neg same]
    exact found

theorem InstallationInv.cancel
    (kept : InstallationInv root state) {request : ChangeRequest Content}
    (staged : state.database.latest request.pk = some .staged) :
    Preserves root state { state with
      database := state.database.append request.pk .cancelled } := by
  have notApplied : state.database.latest request.pk ≠ some .applied := by
    simp [staged]
  refine ⟨⟨kept.authority.checkpoints request.pk .cancelled notApplied,
      kept.control.frame rfl rfl rfl (fun _ member => member) rfl⟩,
    fun _ _ present => present, fun _ member => member,
    fun _ member => member, List.suffix_rfl, ?_⟩
  intro other latest found isOver
  change (state.database.append request.pk .cancelled).latest other = _
  rw [latest_append]
  by_cases same : other = request.pk
  · rw [same, staged] at found
    cases found
    cases isOver
  · rw [if_neg same]
    exact found

theorem InstallationInv.step
    (kept : InstallationInv root state) {op : InstallationOp Content}
    {next : Installation Content} (permitted : op.Allowed state)
    (applied : op.apply state = some next) :
    Preserves root state next := by
  cases op with
  | advance seen => exact kept.advance applied
  | crash =>
      cases applied
      exact kept.idle
  | install request =>
      obtain ⟨_, started⟩ := takeLock_eq_some applied
      obtain ⟨current, _, started⟩ := Option.bind_eq_some_iff.mp started
      cases started
      exact kept.goto permitted
  | restore =>
      obtain ⟨_, started⟩ := takeLock_eq_some applied
      cases started
      exact kept.goto trivial
  | abort request =>
      obtain ⟨_, started⟩ := takeLock_eq_some applied
      cases started
      exact kept.journal request trivial
  | abandon request =>
      obtain ⟨_, started⟩ := takeLock_eq_some applied
      split at started
      · cases started
        exact kept.goto trivial
      · cases started
  | completeSetup request =>
      obtain ⟨isIdle, started⟩ := takeLock_eq_some applied
      exact kept.completeSetup isIdle started
  | submit request =>
      cases applied
      exact kept.submit permitted
  | cancel request =>
      unfold InstallationOp.apply at applied
      dsimp only at applied
      split at applied
      · rename_i staged
        cases applied
        exact kept.cancel staged
      · cases applied

theorem installationInv_initial (root : ConfigurationVersion Content) :
    InstallationInv root (Installation.initial root) := by
  refine ⟨⟨?_, ?_, ?_, ⟨⟨root, none⟩, List.mem_singleton.mpr rfl, rfl⟩, ?_,
    ?_, ?_, ⟨⟨root, none⟩, List.mem_singleton.mpr rfl, rfl⟩,
    ⟨⟨root, none⟩, List.mem_singleton.mpr rfl, rfl, Or.inl ?_⟩, ?_, rfl, ?_⟩,
    trivial⟩
  · intro versionId version present
    simp only [Installation.initial] at present
    split at present
    · rename_i same
      cases present
      exact ⟨same.symm, Or.inl rfl⟩
    · cases present
  · intro row member
    rw [List.mem_singleton.mp member]
    simp [Installation.initial]
  · intro row member predecessor isPredecessor
    rw [List.mem_singleton.mp member] at isPredecessor
    cases isPredecessor
  · intro request member
    cases member
  · intro left member
    cases member
  · intro request member
    cases member
  · simp [Database.activeDigest, Database.snapshot?, Installation.initial]
  · exact List.IsChain.singleton _
  · intro activation member request ofRequest
    rw [List.mem_singleton.mp member] at ofRequest
    cases ofRequest

theorem preserves_of_reaches
    {next : Installation Content} (kept : InstallationInv root state)
    (reached : Reaches InstallationOp.apply
      (fun state op => InstallationOp.Allowed state op) state next) :
    Preserves root state next := by
  refine reached.invariant ⟨kept, Grows.refl state⟩ ?_
  intro source op target preserved permitted applied
  obtain ⟨inv, grows⟩ := preserved
  obtain ⟨nextInv, nextGrows⟩ := inv.step permitted applied
  exact ⟨nextInv, grows.trans nextGrows⟩

end Steps

/-- In every reachable state the manifest names a stored, prepared version: the
active one or one built on it. The activations form one chain, each built on the
one before. What is stored and prepared stays so, and a request that failed or
was cancelled is never activated. -/
theorem installation_crash_safe
    {state : Installation Content}
    (reached : Reaches InstallationOp.apply
      (fun state op => InstallationOp.Allowed state op)
      (Installation.initial root) state) :
    (∃ version active,
      state.store.manifest = some (version.versionId, version.digest) ∧
      state.store.versions version.versionId = some version ∧
      (∃ row ∈ state.database.snapshots, row.version = version) ∧
      state.database.activeDigest = some active ∧
      (version.digest = active ∨ version.predecessorDigest = some active)) ∧
    (state.database.activations.head?.map (·.configuration) =
        some state.database.activeConfiguration ∧
      state.database.activations.IsChain (Follows state.database)) ∧
    ∀ later, Reaches InstallationOp.apply
        (fun state op => InstallationOp.Allowed state op) state later →
      (∀ versionId version, state.store.versions versionId = some version →
        later.store.versions versionId = some version) ∧
      (∀ row ∈ state.database.snapshots, row ∈ later.database.snapshots) ∧
      state.database.activations <:+ later.database.activations ∧
      ∀ request code,
        (state.database.latest request = some .cancelled ∨
          state.database.latest request = some (.failed code)) →
        later.database.isActivated request = false := by
  have kept := (preserves_of_reaches (installationInv_initial root) reached).1
  refine ⟨?_, ⟨kept.authority.current, kept.authority.chained⟩, ?_⟩
  · obtain ⟨row, member, named, atBase⟩ := kept.authority.coherent
    obtain ⟨active, activeMember, isActive⟩ := kept.authority.live
    have activeDigest := kept.authority.activeDigest_eq activeMember isActive
    rw [activeDigest] at atBase
    exact ⟨row.version, active.version.digest, named,
      kept.authority.stored row member, ⟨row, member, rfl⟩, activeDigest,
      atBase.imp Option.some.inj id⟩
  · intro later after
    obtain ⟨laterKept, grows⟩ := preserves_of_reaches kept after
    refine ⟨grows.versions, grows.snapshots, grows.activations, ?_⟩
    intro request code isOver
    by_contra activated
    rw [Bool.not_eq_false] at activated
    obtain ⟨activation, member, ofRequest⟩ := List.any_eq_true.mp activated
    have isApplied := laterKept.authority.applied activation member request
      (by simpa using ofRequest)
    rcases isOver with cancelled | failed
    · have stays := grows.ended request _ cancelled rfl
      rw [stays] at isApplied
      cases isApplied
    · have stays := grows.ended request _ failed rfl
      rw [stays] at isApplied
      cases isApplied

/-! ### An installation that crashes after its YAML switch -/

/-- A hash that tells the versions of this run apart. -/
abbrev plainHashing : Hashing Nat where
  digest version :=
    if version.content = 0 then "root" else "candidate"

def rootVersion : ConfigurationVersion Nat :=
  ⟨1, none, 0⟩

def changeRequest : ChangeRequest Nat where
  pk := 1
  requestSchema := .other
  authority := .admin
  base := rootVersion
  patch content := some (content + 1)
  candidateVersionId := 2
  candidateDigest := "candidate"
  liveMinistries := false

/-- Nothing refuses and nothing raises. -/
def quietFindings : Findings :=
  ⟨false, none, false, false, none, false⟩

/-- The request is installed up to its YAML switch, where the pass crashes; the
next pass finishes it. -/
def interruptedInstallation : List (InstallationOp Nat) :=
  [.submit changeRequest, .install changeRequest] ++
    List.replicate 9 (.advance quietFindings) ++
    [.crash, .install changeRequest] ++
    List.replicate 4 (.advance quietFindings)

theorem interruptedInstallation_allowed :
    letI := plainHashing
    AllowedRun InstallationOp.apply
      (fun state op => InstallationOp.Allowed state op)
      (Installation.initial rootVersion) interruptedInstallation := by
  let := plainHashing
  have submitted : InstallationOp.Allowed (Installation.initial rootVersion)
      (.submit changeRequest) := by
    refine ⟨⟨⟨rootVersion, none⟩, List.mem_singleton.mpr rfl, rfl⟩,
      by simp [Installation.initial], ?_, rfl⟩
    intro row member
    rw [List.mem_singleton.mp member]
    decide
  have kept := (installationInv_initial rootVersion).submit submitted
  refine ⟨submitted, ?_⟩
  rintro _ ⟨⟩
  refine allowedRun_of_invariant
    (fun state => InstallationInv rootVersion state ∧
      changeRequest ∈ state.database.requests)
    ⟨kept.1, List.mem_singleton.mpr rfl⟩ ?_ ?_
  · intro op member state known
    change op ∈ .install changeRequest ::
      (List.replicate 9 (.advance quietFindings) ++
        [.crash, .install changeRequest] ++
        List.replicate 4 (.advance quietFindings)) at member
    simp only [List.mem_cons, List.mem_append, List.mem_replicate,
      List.not_mem_nil, or_false] at member
    rcases member with rfl | (⟨_, rfl⟩ | rfl | rfl) | ⟨_, rfl⟩
    · exact known.2
    · trivial
    · trivial
    · exact known.2
    · trivial
  · intro source op target known permitted applied
    have preserved := known.1.step permitted applied
    exact ⟨preserved.1, preserved.2.requests changeRequest known.2⟩

theorem installation_crash_safe_after_interruption :
    letI := plainHashing
    ∃ state,
      run InstallationOp.apply (Installation.initial rootVersion)
        interruptedInstallation = some state ∧
      state.store.manifest = some (2, "candidate") ∧
      state.database.latest 1 = some .applied ∧
      state.database.activations.IsChain (Follows state.database) := by
  let := plainHashing
  have finished : (run InstallationOp.apply
      (Installation.initial rootVersion) interruptedInstallation).any
        (fun state => state.store.manifest == some (2, "candidate") &&
          state.database.latest 1 == some .applied) = true := by
    decide +kernel
  obtain ⟨state, ran, checked⟩ := (Option.any_eq_true _ _).mp finished
  simp only [Bool.and_eq_true, beq_iff_eq] at checked
  have reached := reaches_of_run ran interruptedInstallation_allowed
  obtain ⟨_, ⟨_, chained⟩, _⟩ := installation_crash_safe reached
  exact ⟨state, ran, checked.1, checked.2, chained⟩

end ParishKit.Accounts
