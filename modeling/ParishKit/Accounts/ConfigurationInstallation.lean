import ParishKit.Accounts.Authority

/-!
# The configuration installer

Every pass holds the installation lock, so one pass runs at a time. Its control
names the next durable step: between any two of them it may crash, a request may
arrive and a staged request may be cancelled. A check that raises ends the pass
as a crash does.
-/

namespace ParishKit.Accounts

variable {Content : Type}

/-- What follows a finished restore. -/
inductive AfterRestore (Content : Type) where
  | done
  | install (request : ChangeRequest Content) (current : CheckpointState)

/-- What follows a finished abort: a refused activation runs the restore again. -/
inductive AfterAbort where
  | done
  | refused

/-- The next durable step of the pass that holds the lock. -/
inductive Control (Content : Type) where
  | idle
  | restoring (after : AfterRestore Content)
  | recovering (request : ChangeRequest Content) (current : CheckpointState)
  | abortRestoring (request : ChangeRequest Content) (after : AfterAbort)
  | abortRecording (request : ChangeRequest Content) (after : AfterAbort)
  | claiming (request : ChangeRequest Content)
      (candidate : ConfigurationVersion Content)
  | claimingFailure (request : ChangeRequest Content) (code : FailureCode)
  | failing (request : ChangeRequest Content) (code : FailureCode)
  | applying (request : ChangeRequest Content)
      (candidate : ConfigurationVersion Content)
  | writing (request : ChangeRequest Content)
      (candidate : ConfigurationVersion Content)
  | preparing (request : ChangeRequest Content)
      (candidate : ConfigurationVersion Content)
  | recordingPrepared (request : ChangeRequest Content)
      (candidate : ConfigurationVersion Content)
  | checkingEnd (request : ChangeRequest Content)
      (candidate : ConfigurationVersion Content)
  | selecting (request : ChangeRequest Content)
      (candidate : ConfigurationVersion Content)
  | recordingSetup (request : ChangeRequest Content)
  | recordingYaml (request : ChangeRequest Content)
  | activating (request : ChangeRequest Content)
  | abandoning (request : ChangeRequest Content)

structure Installation (Content : Type) where
  store : AuthorityStore Content
  database : Database Content
  control : Control Content

/-- What a step finds beside the two stores: the setup attempt, the preflight's
verdict, the history's verdict, a live end edit's verdict, the activation's
verdict and whether its transaction raises. -/
structure Findings where
  setupExpired : Bool
  preflight : Option FailureCode
  historyInvalid : Bool
  endRefused : Bool
  refusal : Option FailureCode
  raises : Bool

namespace Installation

def goto (state : Installation Content) (control : Control Content) :
    Installation Content :=
  { state with control }

/-- A durable database step, or the end of the pass where it is refused. -/
def commit (state : Installation Content)
    (database : Option (Database Content)) (control : Control Content) :
    Installation Content :=
  match database with
  | none => state.goto .idle
  | some database => { state with database, control }

/-- A durable file step, or the end of the pass where it is refused. -/
def publish (state : Installation Content)
    (store : Option (AuthorityStore Content)) (control : Control Content) :
    Installation Content :=
  match store with
  | none => state.goto .idle
  | some store => { state with store, control }

variable [Hashing Content]

/-! ## Restoring -/

/-- The request whose refused candidate is selected over its unchanged base. -/
def refusedRequest (state : Installation Content) :
    Option (ChangeRequest Content) := do
  let (versionId, digest) ← state.store.manifest
  let active ← state.database.activeDigest
  if digest = active then
    none
  else
    state.database.requests.find? fun request =>
      request.candidateVersionId == versionId &&
        request.base.digest == active &&
        (state.database.latest request.pk ==
            some (.failed .actorUnauthorized) ||
          state.database.latest request.pk ==
            some (.failed .invalidCandidate))

def afterRestore : AfterRestore Content → Control Content
  | .done => .idle
  | .install request current => .recovering request current

/-- `_restore_refused`: selects the base of a refused activation again. -/
def restoreRefused (state : Installation Content)
    (after : AfterRestore Content) : Installation Content :=
  match state.refusedRequest with
  | none => state.goto (afterRestore after)
  | some request =>
      match state.store.versions request.base.versionId with
      | none => state.goto .idle
      | some base => state.publish (state.store.select base) (afterRestore after)

/-- `restore_aborted_candidate` up to its checkpoint: selects the base again
unless another configuration was applied meanwhile. -/
def restoreAborted (state : Installation Content)
    (request : ChangeRequest Content) (after : AfterAbort) :
    Installation Content :=
  if state.database.latest request.pk = some (.failed .invalidCandidate) then
    state.goto (match after with
      | .done => .idle
      | .refused => .restoring .done)
  else if state.database.isActivated request.pk then
    state.goto .idle
  else
    match state.store.active with
    | none => state.goto .idle
    | some selected =>
        if state.database.activeConfiguration ≠ request.base.versionId then
          if selected.versionId = state.database.activeConfiguration then
            state.goto (.abortRecording request after)
          else
            state.goto .idle
        else if selected.versionId = request.base.versionId then
          state.goto (.abortRecording request after)
        else if selected.versionId = request.candidateVersionId then
          match state.store.versions request.base.versionId with
          | none => state.goto .idle
          | some base =>
              state.publish (state.store.select base)
                (.abortRecording request after)
        else
          state.goto .idle

/-! ## Installing -/

/-- `prepare_setup_configuration` up to its first durable step. -/
def installSetup (state : Installation Content)
    (request : ChangeRequest Content) : Installation Content :=
  match (state.store.versions request.base.versionId).bind fun base =>
      buildCandidate base request with
  | none => state.goto .idle
  | some candidate =>
      if candidate.digest ≠ request.candidateDigest ∨
          state.database.activeDigest ≠ some request.base.digest then
        state.goto .idle
      else
        match state.store.active with
        | none => state.goto .idle
        | some selected =>
            if selected.versionId = request.candidateVersionId then
              if selected.predecessorDigest = candidate.predecessorDigest ∧
                  selected.digest = candidate.digest ∧
                  state.database.isPrepared selected.digest = true then
                state.goto (.recordingSetup request)
              else
                state.goto .idle
            else if selected.versionId = request.base.versionId then
              if state.database.latest request.pk = some .staged then
                state.goto (.claiming request candidate)
              else
                state.goto (.writing request candidate)
            else
              state.goto .idle

/-- The preflight of an ordinary request, with the candidate it builds. -/
def preflight (state : Installation Content)
    (request : ChangeRequest Content) (seen : Findings) :
    Except FailureCode (ConfigurationVersion Content) :=
  if state.database.activeDigest ≠ some request.base.digest then
    .error .staleBase
  else
    match seen.preflight with
    | some code => .error code
    | none =>
        match buildCandidate request.base request with
        | none => .error .invalidCandidate
        | some candidate =>
            if candidate.digest = request.candidateDigest then .ok candidate
            else .error .invalidCandidate

/-- The rest of `_install_request` once nothing is to be restored. -/
def installOrdinary (state : Installation Content)
    (request : ChangeRequest Content) (current : CheckpointState)
    (seen : Findings) : Installation Content :=
  match state.store.active with
  | none => state.goto .idle
  | some selected =>
      if some selected.digest ≠ state.database.activeDigest then
        if selected.digest = request.candidateDigest ∧
            state.database.isPrepared selected.digest = true then
          state.goto (.recordingYaml request)
        else
          state.goto .idle
      else
        match state.preflight request seen with
        | .error code =>
            if current = .staged then
              state.goto (.claimingFailure request code)
            else
              state.goto (.failing request code)
        | .ok candidate =>
            if current = .staged then
              state.goto (.claiming request candidate)
            else
              state.goto (.applying request candidate)

/-- An expired setup attempt: an unprepared request ends, a prepared one is
journaled. `none` leaves the request to its preparation. -/
def expireSetup (state : Installation Content)
    (request : ChangeRequest Content) : Option (Installation Content) :=
  let latest := state.database.latest request.pk
  let isPrepared := state.database.isPrepared request.candidateDigest
  if (latest = some .staged ∨ latest = some .validating) ∧
      isPrepared = false then
    match state.store.active with
    | none => some (state.goto .idle)
    | some selected =>
        if some selected.digest ≠ state.database.activeDigest ∨
            selected.versionId = request.candidateVersionId ∨
            state.database.isActivated request.pk = true then
          some (state.goto .idle)
        else if latest = some .staged then
          some (state.goto (.claimingFailure request .invalidCandidate))
        else
          some (state.goto (.failing request .invalidCandidate))
  else if isPrepared = true ∧ (latest = some .validating ∨
      latest = some .prepared ∨ latest = some .yamlActivated) then
    some (state.commit (state.database.journalAbort request)
      (.abortRestoring request .done))
  else
    none

/-- `_install_request` after its restore: abort recovery comes first. -/
def recover (state : Installation Content) (request : ChangeRequest Content)
    (current : CheckpointState) (seen : Findings) : Installation Content :=
  if state.database.aborted request.pk then
    state.goto (.abortRestoring request .done)
  else
    let expired :=
      if request.requestSchema = .initialSetup ∧ seen.setupExpired = true then
        state.expireSetup request
      else
        none
    match expired with
    | some next => next
    | none =>
        if current.terminal then
          state.goto .idle
        else if request.requestSchema = .initialSetup then
          state.installSetup request
        else
          state.installOrdinary request current seen

/-- The head of `apply_version`: nothing to recover, and built on what is
active. -/
def applyVersion (state : Installation Content)
    (request : ChangeRequest Content)
    (candidate : ConfigurationVersion Content) : Installation Content :=
  match state.store.active with
  | none => state.goto .idle
  | some selected =>
      if some selected.digest ≠ state.database.activeDigest ∨
          selected.digest = candidate.digest ∨
          some selected.digest ≠ candidate.predecessorDigest then
        state.goto .idle
      else
        state.goto (.writing request candidate)

/-- The head of `activate`: the selected version is the request's own prepared
candidate over the active configuration. -/
def recordYaml (state : Installation Content)
    (request : ChangeRequest Content) : Installation Content :=
  match state.store.active with
  | none => state.goto .idle
  | some selected =>
      if selected.versionId ≠ request.candidateVersionId ∨
          selected.digest ≠ request.candidateDigest ∨
          state.database.isPrepared selected.digest = false ∨
          selected.predecessorDigest ≠ state.database.activeDigest then
        state.goto .idle
      else
        state.commit (state.database.checkpoint request .yamlActivated)
          (.activating request)

/-- The activation transaction. A refusal is recorded inside it and followed by
a restore; an upgrade whose activation raises is refused as well. -/
def activation (state : Installation Content)
    (request : ChangeRequest Content) (seen : Findings) :
    Installation Content :=
  let refuse (code : FailureCode) : Installation Content :=
    state.commit (state.database.checkpoint request (.failed code))
      (.restoring .done)
  if seen.raises then
    if request.authority = .operatorUpgrade then refuse .invalidCandidate
    else state.goto .idle
  else if seen.endRefused then
    state.commit (state.database.journalAbort request)
      (.abortRestoring request .refused)
  else
    match seen.refusal with
    | some code => refuse code
    | none =>
        match state.database.activate request with
        | some database => { state with database, control := .idle }
        | none =>
            if request.authority = .operatorUpgrade then
              refuse .invalidCandidate
            else
              state.goto .idle

/-- `interrupted_upgrade`: the users upgrade that selected its candidate and
went no further. -/
def isInterruptedUpgrade (state : Installation Content)
    (request : ChangeRequest Content) : Bool :=
  request.authority == .operatorUpgrade &&
    (state.store.manifest.any fun reference =>
      reference.1 == request.candidateVersionId &&
        some reference.2 != state.database.activeDigest) &&
    state.database.activeDigest == some request.base.digest &&
    (state.database.latest request.pk == some .prepared ||
      state.database.latest request.pk == some .yamlActivated) &&
    !state.database.isActivated request.pk

/-- The next durable step of the pass. -/
def advance (state : Installation Content) (seen : Findings) :
    Option (Installation Content) :=
  match state.control with
  | .idle => none
  | .restoring after => some (state.restoreRefused after)
  | .recovering request current => some (state.recover request current seen)
  | .abortRestoring request after => some (state.restoreAborted request after)
  | .abortRecording request after =>
      some (state.commit
        (state.database.checkpoint request (.failed .invalidCandidate))
        (match after with
          | .done => .idle
          | .refused => .restoring .done))
  | .claiming request candidate =>
      some (state.commit (state.database.checkpoint request .validating)
        (if request.requestSchema = .initialSetup then
          .writing request candidate
        else
          .applying request candidate))
  | .claimingFailure request code =>
      some (state.commit (state.database.checkpoint request .validating)
        (.failing request code))
  | .failing request code =>
      some (state.commit (state.database.checkpoint request (.failed code)) .idle)
  | .applying request candidate => some (state.applyVersion request candidate)
  | .writing request candidate =>
      some (state.publish (state.store.writeVersion candidate)
        (.preparing request candidate))
  | .preparing request candidate =>
      if seen.historyInvalid ∧ request.requestSchema ≠ .initialSetup then
        some (state.goto (.failing request .invalidCandidate))
      else
        some (state.commit (state.database.prepareSnapshot candidate)
          (.recordingPrepared request candidate))
  | .recordingPrepared request candidate =>
      some (state.commit (state.database.checkpoint request .prepared)
        (.checkingEnd request candidate))
  | .checkingEnd request candidate =>
      if seen.endRefused then
        some (state.commit (state.database.journalAbort request)
          (.abortRestoring request .refused))
      else
        some (state.goto (.selecting request candidate))
  | .selecting request candidate =>
      if state.database.isPrepared candidate.digest then
        some (state.publish (state.store.select candidate)
          (if request.requestSchema = .initialSetup then
            .recordingSetup request
          else
            .recordingYaml request))
      else
        some (state.goto .idle)
  | .recordingSetup request =>
      some (state.commit (state.database.checkpoint request .yamlActivated)
        .idle)
  | .recordingYaml request => some (state.recordYaml request)
  | .activating request => some (state.activation request seen)
  | .abandoning request =>
      some (state.commit
        (state.database.checkpoint request (.failed .invalidCandidate))
        (.restoring .done))

end Installation

/-! ## Passes and the other writers -/

inductive InstallationOp (Content : Type) where
  | advance (seen : Findings)
  | crash
  | install (request : ChangeRequest Content)
  | restore
  | abort (request : ChangeRequest Content)
  | abandon (request : ChangeRequest Content)
  | completeSetup (request : ChangeRequest Content)
  | submit (request : ChangeRequest Content)
  | cancel (request : ChangeRequest Content)

section Passes

variable [Hashing Content]

/-- A pass that takes the free lock. -/
def Installation.takeLock (state : Installation Content)
    (next : Option (Installation Content)) : Option (Installation Content) :=
  match state.control with
  | .idle => next
  | _ => none

/-- The atomic completion of setup: its activation, with its candidate still
selected. -/
def Installation.completeSetup (state : Installation Content)
    (request : ChangeRequest Content) : Option (Installation Content) := do
  let database ← state.database.activate request
  if request.requestSchema = .initialSetup ∧ state.store.manifest =
      some (request.candidateVersionId, request.candidateDigest) then
    some { state with database }
  else
    none

def InstallationOp.apply (op : InstallationOp Content)
    (state : Installation Content) : Option (Installation Content) :=
  match op with
  | .advance seen => state.advance seen
  | .crash => some (state.goto .idle)
  | .install request => state.takeLock do
      let current ← state.database.latest request.pk
      some (state.goto (.restoring (.install request current)))
  | .restore => state.takeLock (some (state.goto (.restoring .done)))
  | .abort request => state.takeLock (some (state.commit
      (state.database.journalAbort request) (.abortRestoring request .done)))
  | .abandon request => state.takeLock
      (if state.isInterruptedUpgrade request then
        some (state.goto (.abandoning request))
      else
        none)
  | .completeSetup request => state.takeLock (state.completeSetup request)
  | .submit request =>
      some { state with database :=
        { state.database.append request.pk .staged with
          requests := state.database.requests ++ [request] } }
  | .cancel request =>
      if state.database.latest request.pk = some .staged then
        some { state with
          database := state.database.append request.pk .cancelled }
      else
        none

/-- A pass is about a stored request. A new request has its own identity, its
own candidate identity and a stored base. -/
def InstallationOp.Allowed (state : Installation Content) :
    InstallationOp Content → Prop
  | .install request => request ∈ state.database.requests
  | .abort request => request ∈ state.database.requests
  | .abandon request => request ∈ state.database.requests
  | .completeSetup request => request ∈ state.database.requests
  | .cancel request => request ∈ state.database.requests
  | .submit request =>
      (∃ row ∈ state.database.snapshots, row.version = request.base) ∧
        (∀ other ∈ state.database.requests, other.pk ≠ request.pk ∧
          other.candidateVersionId ≠ request.candidateVersionId) ∧
        (∀ row ∈ state.database.snapshots,
          row.version.versionId ≠ request.candidateVersionId) ∧
        state.database.checkpoints request.pk = []
  | _ => True

/-- An initialized deployment: the root configuration, selected and active. -/
def Installation.initial (root : ConfigurationVersion Content) :
    Installation Content where
  store :=
    ⟨fun versionId => if versionId = root.versionId then some root else none,
      some (root.versionId, root.digest)⟩
  database :=
    { snapshots := [⟨root, none⟩]
      requests := []
      checkpoints := fun _ => []
      aborted := fun _ => false
      activations := [⟨root.versionId, none, none⟩]
      activeConfiguration := root.versionId }
  control := .idle

end Passes

end ParishKit.Accounts
