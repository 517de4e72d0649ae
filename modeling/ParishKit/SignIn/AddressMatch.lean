import ParishKit.Lib.DateText
import ParishKit.Lib.Transition

/-!
# Verified-address matches

The portal users and the matches through which an account acts as another
address, with the row guards that decide what the web login may write. Instants
are microseconds and the session's zone is UTC. The audit rows, the notices and
the security events the guards write are left out: nothing here reads them.
-/

namespace ParishKit.SignIn

open ParishKit.Lib

/-- The server's lower case. -/
class Collation where
  lower : Text → Text

structure PortalUser where
  id : Nat
  createdAt : Int
  actorId : Option Nat
  updatedAt : Int
  version : Int
  googleSubject : Text
  email : Text
  signInEmail : Text
  hostedDomain : Option Text
  verifiedAt : Int
  disabled : Bool
deriving DecidableEq

inductive EndReason where
  | endedByAdministrator
  | userGone
  | signInAddressMatches
  | replaced
  | notConfirmed
  | unknown
deriving DecidableEq

structure AddressMatch where
  id : Nat
  createdAt : Int
  actorId : Option Nat
  correlationId : Nat
  updatedAt : Int
  version : Int
  email : Text
  userRecordId : Nat
  signInEmail : Text
  matchedAt : Int
  confirmedAt : Int
  endedAt : Option Int
  endReason : Option EndReason
  endedById : Option Nat
  endedSessionId : Option Nat
  portalUserId : Nat
deriving DecidableEq

inductive Role where
  | administrator
  | staff
  | ministryLeader
  | other
deriving DecidableEq

structure AddressRule where
  configurationId : Nat
  recordId : Nat
  email : Text
  roles : List Role

structure ConfigurationVersion where
  id : Nat
  predecessorId : Option Nat

structure PortalSession where
  id : Nat
  principalId : Nat
  version : Int
  authenticatedAt : Int
  lastActivityAt : Int
  expiresAt : Int
  revokedAt : Option Int

inductive AutomationEnd where
  | revokedByAdministrator
  | roleLost
  | userRemoved
  | other

structure AutomationSession where
  id : Nat
  principalId : Nat
  createdAt : Int
  actorId : Option Nat
  correlationId : Nat
  version : Int
  authenticatedAt : Int
  expiresAt : Int
  fullScope : Bool
  revokedAt : Option Int
  endReason : Option AutomationEnd

/-- A command session and the automation session it was opened with. -/
structure AutomationLogin where
  portalSessionId : Nat
  automationSessionId : Nat

/-- An audit event of a successful Admin sign-in. -/
structure AdminLogin where
  actorId : Nat
  createdAt : Int

/-- What the guards read beside the users and the matches. -/
structure Surroundings where
  activeConfigurationId : Option Nat
  rules : List AddressRule
  versions : List ConfigurationVersion
  sessions : List PortalSession
  automationSessions : List AutomationSession
  automationLogins : List AutomationLogin
  adminLogins : List AdminLogin
  adminRevocations : List Int

structure Database where
  users : List PortalUser
  addressMatches : List AddressMatch
  around : Surroundings

/-- What a refused statement says. -/
structure Refusal where
  message : String
  code : String
  detail : Option String := none
deriving DecidableEq

def thirtyDays : Int := 30 * 86400000000

def sixtyMinutes : Int := 60 * 60000000

/-- The match stands: it has not ended. -/
def AddressMatch.stands (row : AddressMatch) : Bool :=
  row.endedAt.isNone

/-- An account that acts as another address than its own. -/
def PortalUser.actsAsOther (user : PortalUser) : Prop :=
  user.email ≠ user.signInEmail

instance (user : PortalUser) : Decidable user.actsAsOther :=
  inferInstanceAs (Decidable (_ ≠ _))

namespace Database

def account (database : Database) (id : Nat) : Option PortalUser :=
  database.users.find? (·.id == id)

/-- The rules of the active configuration. -/
def activeRules (database : Database) : List AddressRule :=
  database.around.rules.filter fun rule =>
    database.around.activeConfigurationId == some rule.configurationId

end Database

def AddressRule.isUser (rule : AddressRule) : Bool :=
  rule.roles.any fun role =>
    role = .administrator || role = .staff || role = .ministryLeader

/-- A portal session that is not revoked, expired, idle or of the future. -/
def PortalSession.live (instant : Int) (session : PortalSession) : Bool :=
  session.revokedAt.isNone && decide (instant < session.expiresAt) &&
    decide (instant - sixtyMinutes < session.lastActivityAt) &&
    decide (session.authenticatedAt ≤ instant)

section

variable [Collation]

/-- `stewardship_export_authorized_v1`, of Administrators only. -/
def Database.administers (database : Database) (user : Nat) : Bool :=
  database.users.any fun account =>
    account.id == user && !account.disabled &&
      database.activeRules.any fun rule =>
        rule.email == Collation.lower account.email &&
          rule.roles.contains .administrator

/-- `stewardship_automation_live_v1`. -/
def Database.automationLive (database : Database) (instant : Int)
    (session : AutomationSession) : Bool :=
  session.revokedAt.isNone && decide (instant < session.expiresAt) &&
    database.administers session.principalId &&
    !database.around.adminRevocations.any fun revoked =>
      decide (session.createdAt < revoked)

/-- `stewardship_automation_fresh_v1`. -/
def Database.automationFresh (database : Database) (instant : Int)
    (login actor : Nat) : Bool :=
  database.around.automationLogins.any fun opened =>
    opened.portalSessionId == login &&
      database.around.automationSessions.any fun automation =>
        automation.id == opened.automationSessionId &&
          automation.principalId == actor && automation.fullScope &&
          (database.around.sessions.any fun session =>
            session.id == login &&
              session.authenticatedAt == automation.authenticatedAt) &&
          database.automationLive instant automation

/-- `stewardship_address_in_use_v1`. -/
def Database.addressInUse (database : Database) (instant : Int) (address : Text)
    (excluding : Option Nat) : Bool :=
  database.users.any fun user =>
    !user.disabled && some user.id != excluding &&
      (user.signInEmail == address || database.addressMatches.any fun row =>
        row.portalUserId == user.id && row.stands && row.email == address) &&
      ((database.around.sessions.any fun session =>
          session.principalId == user.id && session.live instant) ||
        (database.around.automationSessions.any fun automation =>
          automation.principalId == user.id && automation.revokedAt.isNone &&
            database.automationLive instant automation) ||
        database.around.adminLogins.any fun login =>
          login.actorId == user.id &&
            decide (instant - thirtyDays < login.createdAt))

/-! ## Portal users -/

def isBlank (text : Text) : Bool :=
  text.all (· == ' ')

/-- `stewardship_portal_user_insert_v1`. -/
def portalUserInsert (started instant : Int) (new : PortalUser) :
    Except Refusal PortalUser :=
  if new.verifiedAt < started ∨ instant < new.verifiedAt ∨ new.disabled = true ∨
      new.version ≠ 1 ∨ new.actorId ≠ none ∨ isBlank new.googleSubject = true ∨
      isBlank new.email = true ∨ new.signInEmail ≠ new.email then
    .error ⟨"A portal user insert needs an enabled new row with a verification inside this transaction",
      "23514", none⟩
  else
    .ok { new with createdAt := instant, updatedAt := instant }

/-- `stewardship_portal_user_mutable_v1`. -/
def portalUserMutable (database : Database) (started instant : Int)
    (old new : PortalUser) : Except Refusal PortalUser :=
  if new.id ≠ old.id ∨ new.createdAt ≠ old.createdAt ∨
      new.googleSubject ≠ old.googleSubject then
    .error ⟨"Record identity and bindings are immutable", "23514", none⟩
  else if old.disabled = true ∧ new.disabled = false then
    .error ⟨"A disabled portal user cannot be re-enabled", "23514", none⟩
  else if ((new.signInEmail, new.hostedDomain, new.verifiedAt) ≠
        (old.signInEmail, old.hostedDomain, old.verifiedAt) ∨
        new.email ≠ old.email ∧ new.email ≠ new.signInEmail) ∧
      (new.verifiedAt ≤ old.verifiedAt ∨ new.verifiedAt < started ∨
        instant < new.verifiedAt) then
    .error ⟨"Identity claims change only with a fresh verification", "23514", none⟩
  else if new.email ≠ new.signInEmail ∧
      (new.email, new.signInEmail) ≠ (old.email, old.signInEmail) ∧
      ¬ (database.addressMatches.any fun row =>
        row.portalUserId == new.id && row.stands && row.email == new.email &&
          decide (instant - thirtyDays < row.confirmedAt)) = true then
    .error ⟨"An account acts as another address only through a confirmed match",
      "23514", none⟩
  else if new.version ≠ old.version + 1 then
    .error ⟨"Every update must advance the record version", "23514", none⟩
  else
    .ok { new with updatedAt := instant }

/-! ## Matches -/

/-- The account was verified in this transaction. -/
def PortalUser.verifiedIn (started instant : Int) (user : PortalUser) : Prop :=
  started ≤ user.verifiedAt ∧ user.verifiedAt ≤ instant

instance (started instant : Int) (user : PortalUser) :
    Decidable (user.verifiedIn started instant) :=
  inferInstanceAs (Decidable (_ ∧ _))

/-- The address is one the root configuration made Administrator. -/
def Database.isFirstAdministrator (database : Database) (email : Text) : Bool :=
  database.around.rules.any fun rule =>
    (database.around.versions.any fun version =>
      version.id == rule.configurationId && version.predecessorId.isNone) &&
    rule.email == email && rule.roles.contains .administrator

/-- `stewardship_address_match_guard_v1`, of an insert. -/
def matchGuardInsert (database : Database) (started instant : Int)
    (new : AddressMatch) : Except Refusal AddressMatch :=
  let isUser := database.activeRules.any fun rule =>
    rule.email == new.email && rule.recordId == new.userRecordId && rule.isUser
  let admitted := (database.account new.portalUserId).any fun account =>
    !account.disabled && decide (account.verifiedIn started instant) &&
      account.signInEmail == new.signInEmail
  if admitted = false ∨ new.actorId ≠ none ∨ new.email = new.signInEmail ∨
      isUser = false ∨ new.endedAt ≠ none ∨ new.endReason ≠ none ∨
      new.endedById ≠ none ∨ new.endedSessionId ≠ none then
    .error ⟨"A verified-address match needs an account verified in this transaction and a current user",
      "23514", none⟩
  else if database.isFirstAdministrator new.email then
    .error ⟨"A first Administrator address signs in only with its own Google account",
      "23514", some "address_first_administrator"⟩
  else if database.addressInUse instant new.email (some new.portalUserId) then
    .error ⟨"The address is in use by another Google account", "23514",
      some "address_own_account_in_use"⟩
  else
    .ok { new with
      matchedAt := instant
      confirmedAt := instant
      version := 1
      createdAt := instant
      updatedAt := instant }

/-- A match keeps its account and address. -/
def AddressMatch.sameBinding (new old : AddressMatch) : Prop :=
  new.id = old.id ∧ new.createdAt = old.createdAt ∧ new.actorId = old.actorId ∧
    new.portalUserId = old.portalUserId ∧ new.email = old.email ∧
    new.userRecordId = old.userRecordId ∧ new.signInEmail = old.signInEmail ∧
    new.matchedAt = old.matchedAt

instance (new old : AddressMatch) : Decidable (new.sameBinding old) :=
  inferInstanceAs (Decidable (_ ∧ _))

/-- An Administrator in a live session ends the match, not its own account. -/
def Database.administratorEnds (database : Database) (clock : Int)
    (old new : AddressMatch) : Bool :=
  new.endedById.any fun actor =>
    actor != old.portalUserId && database.administers actor &&
      database.around.sessions.any fun login =>
        some login.id == new.endedSessionId && login.principalId == actor &&
          login.live clock &&
          ((!database.around.automationLogins.any fun command =>
              command.portalSessionId == login.id) ||
            database.automationFresh clock login.id actor)

/-- Whether the end's reason is so, and what is said when it is not. -/
def endRefusal (database : Database) (started instant clock : Int)
    (account : Option PortalUser) (old new : AddressMatch) : Option Refusal :=
  if new.endReason = some .endedByAdministrator then
    if database.administratorEnds clock old new then none
    else some ⟨"Ending a verified-address match requires a live Administrator session",
      "42501", none⟩
  else if new.endedById ≠ none ∨ new.endedSessionId ≠ none then
    some ⟨"Only an Administrator end names an actor", "42501", none⟩
  else
    match new.endReason with
    | some .userGone =>
        if database.activeRules.any fun rule => rule.email == old.email &&
            rule.recordId == old.userRecordId && rule.isUser then
          some ⟨"The matched user is still there", "23514", none⟩
        else none
    | some .signInAddressMatches =>
        if database.activeRules.any fun rule =>
            some rule.email == account.map (·.signInEmail) && rule.isUser then
          none
        else
          some ⟨"The account's sign-in address is no user's", "23514", none⟩
    | some .replaced =>
        if instant - thirtyDays < old.confirmedAt ∨
            database.addressInUse instant old.email none = true then
          some ⟨"The address is in use by another Google account", "23514",
            some "address_own_account_in_use"⟩
        else none
    | some .notConfirmed =>
        if account.any fun account =>
            !decide (account.verifiedIn started instant) then
          some ⟨"A verified-address match is found unconfirmed only by a sign-in in this transaction",
            "23514", none⟩
        else none
    | _ => some ⟨"A verified-address match ends with a known reason", "23514", none⟩

/-- The ends that also end the old account's sessions. -/
def endsSessions : Option EndReason → Option AutomationEnd
  | some .endedByAdministrator => some .revokedByAdministrator
  | some .replaced => some .roleLost
  | some .userGone => some .userRemoved
  | _ => none

/-- The account's live sessions are revoked. -/
def Surroundings.revokeSessions (around : Surroundings) (instant : Int)
    (principal : Nat) (actor : Option Nat) (correlation : Nat)
    (reason : AutomationEnd) : Surroundings :=
  { around with
    sessions := around.sessions.map fun session =>
      if session.principalId = principal ∧ session.revokedAt = none ∧
          instant < session.expiresAt ∧
          instant - sixtyMinutes < session.lastActivityAt then
        { session with
          revokedAt := some (max instant
            (max session.lastActivityAt session.authenticatedAt))
          version := session.version + 1 }
      else
        session
    automationSessions := around.automationSessions.map fun automation =>
      if automation.principalId = principal ∧ automation.revokedAt = none ∧
          instant < automation.expiresAt then
        { automation with
          revokedAt := some (max instant automation.createdAt)
          endReason := some reason
          version := automation.version + 1
          actorId := actor
          correlationId := correlation }
      else
        automation }

/-- `stewardship_address_match_guard_v1`, of an update: the row to write and what
it leaves around it. -/
def matchGuardUpdate (database : Database) (started instant clock : Int)
    (old new : AddressMatch) : Except Refusal (AddressMatch × Surroundings) :=
  let account := database.account old.portalUserId
  if old.endedAt ≠ none then
    .error ⟨"An ended verified-address match does not change", "23514", none⟩
  else if ¬ new.sameBinding old then
    .error ⟨"A verified-address match keeps its account and address", "23514", none⟩
  else if new.endedAt = none then
    if new.endReason ≠ none ∨ new.endedById ≠ none ∨ new.endedSessionId ≠ none ∨
        (account.any fun account =>
          !decide (account.verifiedIn started instant)) = true then
      .error ⟨"A verified-address match is confirmed again only by a sign-in in this transaction",
        "23514", none⟩
    else
      .ok ({ new with confirmedAt := instant }, database.around)
  else if new.confirmedAt ≠ old.confirmedAt ∨
      account.map (·.email) = some old.email then
    .error ⟨"A verified-address match ends only after its account acts as its own address again",
      "23514", none⟩
  else
    match endRefusal database started instant clock account old new with
    | some refusal => .error refusal
    | none =>
        let ended := { new with endedAt := some instant }
        match endsSessions new.endReason with
        | some reason => .ok (ended, database.around.revokeSessions instant
            old.portalUserId new.endedById new.correlationId reason)
        | none => .ok (ended, database.around)

/-- `stewardship_address_match_mutable_v1`, which follows the guard. -/
def matchMutable (instant : Int) (old new : AddressMatch) :
    Except Refusal AddressMatch :=
  if new.id ≠ old.id ∨ new.createdAt ≠ old.createdAt ∨
      new.portalUserId ≠ old.portalUserId ∨ new.email ≠ old.email ∨
      new.userRecordId ≠ old.userRecordId ∨ new.signInEmail ≠ old.signInEmail ∨
      new.matchedAt ≠ old.matchedAt ∨
      (old.endedAt ≠ none ∧ new.endedAt ≠ old.endedAt) ∨
      (old.endReason ≠ none ∧ new.endReason ≠ old.endReason) ∨
      (old.endedById ≠ none ∧ new.endedById ≠ old.endedById) ∨
      (old.endedSessionId ≠ none ∧ new.endedSessionId ≠ old.endedSessionId) then
    .error ⟨"Record identity and bindings are immutable", "23514", none⟩
  else if new.version ≠ old.version + 1 then
    .error ⟨"Every update must advance the record version", "23514", none⟩
  else
    .ok { new with updatedAt := instant }

end

/-! ## Statements -/

/-- The two unique indexes over the matches that stand. -/
def uniqueMatches (rows : List AddressMatch) : Prop :=
  ((rows.filter (·.stands)).map (·.portalUserId)).Nodup ∧
    ((rows.filter (·.stands)).map (·.email)).Nodup

instance (rows : List AddressMatch) : Decidable (uniqueMatches rows) :=
  inferInstanceAs (Decidable (_ ∧ _))

/-- What the web login writes, one row at a time. -/
inductive Statement where
  | insertUser (new : PortalUser)
  | updateUser (id : Nat) (new : PortalUser)
  | insertMatch (new : AddressMatch)
  | updateMatch (id : Nat) (new : AddressMatch) (clock : Int)
  | deleteMatch (id : Nat)

def duplicate : Refusal :=
  ⟨"duplicate key value violates unique constraint", "23505", none⟩

/-- A row whose key is not there changes nothing. -/
def Statement.run [Collation] (started instant : Int) (database : Database) :
    Statement → Except Refusal Database
  | .insertUser new => do
      let row ← portalUserInsert started instant new
      if row.id ∈ database.users.map (·.id) then
        .error duplicate
      else
        .ok { database with users := database.users ++ [row] }
  | .updateUser id new =>
      match database.account id with
      | none => .ok database
      | some old => do
          let row ← portalUserMutable database started instant old new
          .ok { database with
            users := database.users.map fun other =>
              if other.id = row.id then row else other }
  | .insertMatch new => do
      let row ← matchGuardInsert database started instant new
      let rows := database.addressMatches ++ [row]
      if row.id ∈ database.addressMatches.map (·.id) ∨ ¬ uniqueMatches rows then
        .error duplicate
      else
        .ok { database with addressMatches := rows }
  | .updateMatch id new clock =>
      match database.addressMatches.find? (·.id == id) with
      | none => .ok database
      | some old => do
          let guarded ← matchGuardUpdate database started instant clock old new
          let row ← matchMutable instant old guarded.1
          let rows := database.addressMatches.map fun other =>
            if other.id = row.id then row else other
          if ¬ uniqueMatches rows then
            .error duplicate
          else
            .ok { database with addressMatches := rows, around := guarded.2 }
  | .deleteMatch _ =>
      .error ⟨"A verified-address match is kept for attribution", "42501", none⟩

/-! ## Transactions -/

/-- The web login, with the transaction that is open: when it began, and the
database it goes back to. -/
structure WebLogin where
  now : Int
  database : Database
  opened : Option (Int × Database)

inductive LoginEvent where
  | begin (instant : Int)
  | statement (instant : Int) (statement : Statement)
  | commit
  | rollback
  /-- A configuration change, or anything else around the two tables. -/
  | surround (instant : Int) (around : Surroundings)

/-- Time does not go back, and a refused statement leaves no step. -/
def WebLogin.apply [Collation] : LoginEvent → WebLogin → Option WebLogin
  | .begin instant, login =>
      if login.opened.isNone ∧ login.now ≤ instant then
        some ⟨instant, login.database, some (instant, login.database)⟩
      else
        none
  | .statement instant statement, login =>
      match login.opened with
      | none => none
      | some (started, _) =>
          if login.now ≤ instant then
            match statement.run started instant login.database with
            | .ok database => some { login with now := instant, database := database }
            | .error _ => none
          else
            none
  | .commit, login => some { login with opened := none }
  | .rollback, login =>
      some ⟨login.now, (login.opened.map (·.2)).getD login.database, none⟩
  | .surround instant around, login =>
      if login.now ≤ instant then
        some { login with
          now := instant
          database := { login.database with around := around } }
      else
        none

end ParishKit.SignIn
