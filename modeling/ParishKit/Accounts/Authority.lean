import Mathlib.Data.List.Basic

/-!
# Configuration authority

The two stores of a configuration: immutable YAML versions with one manifest,
and the database's prepared snapshots, change requests, checkpoints and active
pointer. Each operation here is one durable step: a file linked or renamed into
place, or one committed transaction. `none` is a refusal that changes nothing.
-/

namespace ParishKit.Accounts

variable {Content : Type}

/-- One immutable configuration document. -/
structure ConfigurationVersion (Content : Type) where
  versionId : Nat
  predecessorDigest : Option String
  content : Content

/-- The hash of the canonical document. The model uses no law of it. -/
class Hashing (Content : Type) where
  /-- `ConfigurationVersion.digest`: SHA-256 of the canonical bytes. -/
  digest : ConfigurationVersion Content → String

def ConfigurationVersion.digest [Hashing Content]
    (version : ConfigurationVersion Content) : String :=
  Hashing.digest version

inductive RequestAuthority where
  | admin
  | operatorRecovery
  | operatorUpgrade
deriving DecidableEq, Repr

/-- The request schemas that the installer treats apart from the others. -/
inductive RequestSchema where
  | initialSetup
  | chairSeed
  | operatorUpgrade
  | other
deriving DecidableEq, Repr

/-- An immutable submitted intent. `base` is the snapshot it refers to; `patch`
is what its patch makes of a base document; `liveMinistries` says that it changes
nothing but a locked campaign's Ministries. -/
structure ChangeRequest (Content : Type) where
  pk : Nat
  requestSchema : RequestSchema
  authority : RequestAuthority
  base : ConfigurationVersion Content
  patch : Content → Option Content
  candidateVersionId : Nat
  candidateDigest : String
  liveMinistries : Bool

inductive FailureCode where
  | staleBase
  | invalidCandidate
  | actorUnauthorized
deriving DecidableEq, Repr

inductive CheckpointState where
  | staged
  | cancelled
  | validating
  | prepared
  | yamlActivated
  | applied
  | failed (code : FailureCode)
deriving DecidableEq, Repr

/-- A request in such a state is over. -/
def CheckpointState.terminal : CheckpointState → Bool
  | .cancelled => true
  | .applied => true
  | .failed _ => true
  | _ => false

/-- Equality of the states without their failure codes. -/
def CheckpointState.sameState : CheckpointState → CheckpointState → Bool
  | .failed _, .failed _ => true
  | left, right => left == right

/-! ## The file store -/

structure AuthorityStore (Content : Type) where
  versions : Nat → Option (ConfigurationVersion Content)
  manifest : Option (Nat × String)

section Files

variable [Hashing Content]

/-- `build_candidate`: the base under the request's patch and identity. -/
def buildCandidate (base : ConfigurationVersion Content)
    (request : ChangeRequest Content) : Option (ConfigurationVersion Content) :=
  (request.patch base.content).map fun content =>
    ⟨request.candidateVersionId, some base.digest, content⟩

namespace AuthorityStore

/-- The selected version. A missing manifest and an unreadable one are both
refused by every use. -/
def active (store : AuthorityStore Content) :
    Option (ConfigurationVersion Content) := do
  let (versionId, digest) ← store.manifest
  let version ← store.versions versionId
  if version.digest = digest then some version else none

/-- Publishes a version without replacing an existing one. -/
def writeVersion (store : AuthorityStore Content)
    (version : ConfigurationVersion Content) :
    Option (AuthorityStore Content) :=
  match store.versions version.versionId with
  | some existing =>
      if existing.digest = version.digest then some store else none
  | none =>
      some { store with
        versions := fun versionId =>
          if versionId = version.versionId then some version
          else store.versions versionId }

/-- Selects an already persisted matching version. -/
def select (store : AuthorityStore Content)
    (version : ConfigurationVersion Content) :
    Option (AuthorityStore Content) :=
  match store.versions version.versionId with
  | none => none
  | some existing =>
      if existing.digest = version.digest then
        some { store with manifest := some (version.versionId, version.digest) }
      else
        none

end AuthorityStore

end Files

/-! ## The database -/

/-- A prepared snapshot with its predecessor's row. -/
structure Snapshot (Content : Type) where
  version : ConfigurationVersion Content
  predecessor : Option Nat

structure Activation where
  configuration : Nat
  predecessor : Option Nat
  request : Option Nat
deriving DecidableEq

/-- The configuration tables. Checkpoints and activations are newest first;
`aborted` is the abort journal of exceptional campaign edits and of setup. -/
structure Database (Content : Type) where
  snapshots : List (Snapshot Content)
  requests : List (ChangeRequest Content)
  checkpoints : Nat → List CheckpointState
  aborted : Nat → Bool
  activations : List Activation
  activeConfiguration : Nat

namespace Database

def latest (database : Database Content) (request : Nat) :
    Option CheckpointState :=
  (database.checkpoints request).head?

def isActivated (database : Database Content) (request : Nat) : Bool :=
  database.activations.any fun activation => activation.request == some request

def snapshot? (database : Database Content) (versionId : Nat) :
    Option (Snapshot Content) :=
  database.snapshots.find? fun row => row.version.versionId == versionId

def append (database : Database Content) (request : Nat)
    (state : CheckpointState) : Database Content :=
  { database with
    checkpoints := fun other =>
      if other = request then state :: database.checkpoints other
      else database.checkpoints other }

variable [Hashing Content]

def activeDigest (database : Database Content) : Option String :=
  (database.snapshot? database.activeConfiguration).map fun row =>
    row.version.digest

def isPrepared (database : Database Content) (digest : String) : Bool :=
  database.snapshots.any fun row => row.version.digest == digest

/-- The request's candidate is prepared over the request's base. -/
def hasCandidate (database : Database Content)
    (request : ChangeRequest Content) : Bool :=
  (database.snapshot? request.candidateVersionId).any fun row =>
    row.version.digest == request.candidateDigest &&
      row.predecessor == some request.base.versionId

/-- A refusal after the YAML switch, as the checkpoint guard admits it. -/
def admitsRefusal (database : Database Content)
    (request : ChangeRequest Content) : FailureCode → Bool
  | .staleBase => false
  | .actorUnauthorized => true
  | .invalidCandidate =>
      request.requestSchema == .chairSeed ||
        request.requestSchema == .operatorUpgrade ||
        request.liveMinistries || database.aborted request.pk

/-- The transitions of `stewardship_request_checkpoint_v2`. -/
def admitsTransition (database : Database Content)
    (request : ChangeRequest Content) :
    Option CheckpointState → CheckpointState → Bool
  | none, .staged => true
  | some .staged, .cancelled => true
  | some .staged, .validating => true
  | some .validating, .prepared => true
  | some .validating, .failed _ => true
  | some .prepared, .yamlActivated => true
  | some .prepared, .failed _ => true
  | some .yamlActivated, .applied => true
  | some .yamlActivated, .failed code => database.admitsRefusal request code
  | _, _ => false

/-- The states that need the prepared candidate. -/
def needsCandidate : CheckpointState → Bool
  | .prepared => true
  | .yamlActivated => true
  | .applied => true
  | _ => false

/-- Appends a checkpoint; an exact repeat does nothing. -/
def checkpoint (database : Database Content) (request : ChangeRequest Content)
    (state : CheckpointState) : Option (Database Content) :=
  if (database.latest request.pk).any (·.sameState state) then
    some database
  else if database.admitsTransition request (database.latest request.pk) state &&
      (!needsCandidate state || database.hasCandidate request) then
    some (database.append request.pk state)
  else
    none

/-- `prepare_snapshot`: one immutable row over its predecessor's row. -/
def prepareSnapshot (database : Database Content)
    (version : ConfigurationVersion Content) : Option (Database Content) :=
  match database.snapshot? version.versionId with
  | some existing =>
      if existing.version.digest = version.digest then some database else none
  | none =>
      match version.predecessorDigest with
      | none => none
      | some digest =>
          match database.snapshots.find? fun row =>
              row.version.digest == digest with
          | none => none
          | some predecessor =>
              if database.isPrepared version.digest then none
              else some { database with
                snapshots := database.snapshots ++
                  [⟨version, some predecessor.version.versionId⟩] }

/-- The abort journal names only an unapplied prepared candidate over the active
base; a repeat is the same decision. -/
def journalAbort (database : Database Content)
    (request : ChangeRequest Content) : Option (Database Content) :=
  let unfinished := database.latest request.pk == some .validating ||
    database.latest request.pk == some .prepared ||
    database.latest request.pk == some .yamlActivated
  if database.aborted request.pk then
    some database
  else if database.activeConfiguration = request.base.versionId ∧
      unfinished = true ∧ database.hasCandidate request = true ∧
      database.isActivated request.pk = false then
    some { database with
      aborted := fun other =>
        if other = request.pk then true else database.aborted other }
  else
    none

/-- The activation row with the effects of its triggers: the pointer, the
Applied checkpoint. Its guard needs the YAML checkpoint and the active
predecessor. -/
def activate (database : Database Content)
    (request : ChangeRequest Content) : Option (Database Content) :=
  let predecessor := database.activeConfiguration
  if request.base.versionId = predecessor ∧
      database.hasCandidate request = true ∧
      database.latest request.pk = some .yamlActivated ∧
      database.aborted request.pk = false ∧
      database.isActivated request.pk = false ∧
      (database.activations.all fun activation =>
        activation.configuration != request.candidateVersionId) = true then
    some { database.append request.pk .applied with
      activations := ⟨request.candidateVersionId, some predecessor,
        some request.pk⟩ :: database.activations
      activeConfiguration := request.candidateVersionId }
  else
    none

end Database

end ParishKit.Accounts
