import ParishKit.Accounts.LimiterWindow

/-!
# The aggregate script

Attempts and their distinct sources, identities and candidates of five minutes
decide whether a distributed burst is going on.
-/

namespace ParishKit.Accounts

open ParishKit.Lib

variable {Member : Type}

/-- The thresholds of the aggregate script, of the deployment's limits. -/
structure AuthenticationLimits where
  aggregateAttempts : Nat
  adminSources : Nat
  adminIdentities : Nat
  familySources : Nat
  valid : ∀ limit ∈ [aggregateAttempts, adminSources, adminIdentities, familySources],
    1 ≤ limit ∧ limit ≤ 1000

inductive FailureKind where
  | admin
  | family
deriving DecidableEq

/-- An unsuccessful request, with its token and keyed fingerprints. -/
structure FailedRequest (Member : Type) where
  now : Int
  token : Member
  source : Member
  identity : Option Member
  candidate : Option Member
  limits : AuthenticationLimits

/-- The last window that alerted, and how many did in a row. -/
structure Alert where
  window : Int
  streak : Nat
  expiresAt : Int
deriving DecidableEq

structure AlertState where
  alert : Option Alert
  elevatedUntil : Option Int
deriving DecidableEq

/-- What a request leads to. -/
structure AggregateDecision where
  triggered : Bool
  severity : Nat
  window : Int
deriving DecidableEq

def fiveMinutes : Int :=
  300 * second

def FailedRequest.sourceThreshold (kind : FailureKind) (request : FailedRequest Member) :
    Nat :=
  match kind with
  | .admin => request.limits.adminSources
  | .family => request.limits.familySources

/-- The trigger, from the numbers of attempts, sources and identities. -/
def meets (kind : FailureKind) (request : FailedRequest Member)
    (attempts sources identities : Nat) : Bool :=
  decide (request.limits.aggregateAttempts ≤ attempts) &&
    (decide (request.sourceThreshold kind ≤ sources) ||
      kind == .admin && decide (request.limits.adminIdentities ≤ identities))

/-- The alert of a window is raised once, and is severe from the third window in
a row on. -/
def raiseAlert (now : Int) (triggered : Bool) (state : AlertState) :
    AggregateDecision × AlertState :=
  let window := now / fiveMinutes
  if triggered then
    let elevated := some (now + fiveMinutes)
    let fresh (streak : Nat) : AggregateDecision × AlertState :=
      (⟨true, if 3 ≤ streak then 2 else 1, window⟩,
        ⟨some ⟨window, streak, now + 900 * second⟩, elevated⟩)
    match state.alert with
    | some prior =>
        if prior.expiresAt ≤ now then fresh 1
        else if prior.window = window then
          (⟨true, 0, window⟩, ⟨some prior, elevated⟩)
        else if prior.window = window - 1 then fresh (prior.streak + 1)
        else fresh 1
    | none => fresh 1
  else
    (⟨false, 0, window⟩, state)

structure AggregateStore (Member : Type) where
  attempts : StoredSet Member
  sources : StoredSet Member
  identities : StoredSet Member
  candidates : StoredSet Member
  alerts : AlertState

def AggregateStore.empty : AggregateStore Member where
  attempts := StoredSet.missing
  sources := StoredSet.missing
  identities := StoredSet.missing
  candidates := StoredSet.missing
  alerts := ⟨none, none⟩

section

variable [DecidableEq Member] [LE Member] [DecidableLE Member]

/-- What the script does to one of its four sets. -/
def aggregateSet (now : Int) (member : Option Member) (stored : StoredSet Member) :
    StoredSet Member :=
  let current := (stored.load now).update (·.removeUpTo (now - fiveMinutes))
  let added := match member with
    | some member => current.update (·.add now member)
    | none => current
  (added.expire (now + fiveMinutes)).update (·.removeRanks 1001)

/-- `AGGREGATE`: the decision and the numbers it returns, and the keys afterwards. -/
def aggregateScript (kind : FailureKind) (request : FailedRequest Member)
    (store : AggregateStore Member) :
    (AggregateDecision × List Nat) × AggregateStore Member :=
  let attempts := aggregateSet request.now (some request.token) store.attempts
  let sources := aggregateSet request.now (some request.source) store.sources
  let identities := aggregateSet request.now request.identity store.identities
  let candidates := aggregateSet request.now request.candidate store.candidates
  let triggered := meets kind request attempts.set.card sources.set.card
    identities.set.card
  let raised := raiseAlert request.now triggered store.alerts
  ((raised.1, [attempts.set.card, sources.set.card, identities.set.card,
      candidates.set.card]),
    { attempts, sources, identities, candidates, alerts := raised.2 })

/-- The decisions about a series of requests. -/
def aggregateDecisions (kind : FailureKind) :
    AggregateStore Member → List (FailedRequest Member) → List AggregateDecision
  | _, [] => []
  | store, request :: rest =>
      let result := aggregateScript kind request store
      result.1.1 :: aggregateDecisions kind result.2 rest

end

/-! ## The log of requests -/

section

variable [DecidableEq Member]

/-- The distinct members of the last five minutes. -/
def distinctWithin (log : List (Scored Member)) (now : Int) : Nat :=
  ((log.filter fun entry => decide (now - fiveMinutes < entry.score)).map
    Scored.member).dedup.length

def attemptLog (past : List (FailedRequest Member)) : List (Scored Member) :=
  past.map fun request => ⟨request.now, request.token⟩

def sourceLog (past : List (FailedRequest Member)) : List (Scored Member) :=
  past.map fun request => ⟨request.now, request.source⟩

def identityLog (past : List (FailedRequest Member)) : List (Scored Member) :=
  past.filterMap fun request => request.identity.map fun identity =>
    ⟨request.now, identity⟩

/-- The decision that all requests so far give. -/
def logDecision (kind : FailureKind) (all : List (FailedRequest Member))
    (request : FailedRequest Member) (alerts : AlertState) :
    AggregateDecision × AlertState :=
  let triggered := meets kind request
    (all.countP fun other => decide (request.now - fiveMinutes < other.now))
    (distinctWithin (sourceLog all) request.now)
    (distinctWithin (identityLog all) request.now)
  raiseAlert request.now triggered alerts

def logDecisions (kind : FailureKind) :
    List (FailedRequest Member) → AlertState → List (FailedRequest Member) →
      List AggregateDecision
  | _, _, [] => []
  | past, alerts, request :: rest =>
      let decided := logDecision kind (past ++ [request]) request alerts
      decided.1 :: logDecisions kind (past ++ [request]) decided.2 rest

end

/-! ## One set -/

/-- The entries that each of the four sets keeps. -/
def aggregateKeep : Nat :=
  1000

theorem aggregateKeep_lt : aggregateKeep < 1001 := by
  unfold aggregateKeep
  omega

section

variable [DecidableEq Member] [LE Member] [DecidableLE Member] {now : Int}
  {seen : Int → Finset Member} {stored : StoredSet Member}

theorem Kept.aggregateSet
    (kept : Kept aggregateKeep fiveMinutes seen stored now) (member : Option Member) :
    Kept aggregateKeep fiveMinutes (seenAfter seen now member)
        (Accounts.aggregateSet now member stored) now ∧
      ∀ entry ∈ (Accounts.aggregateSet now member stored).set.entries,
        now - fiveMinutes < entry.score := by
  have enough : aggregateKeep < 1001 := aggregateKeep_lt
  have current := kept.load.removeUpTo
  have isCurrent : ∀ entry ∈ ((stored.load now).update
      (·.removeUpTo (now - fiveMinutes))).set.entries,
      now - fiveMinutes < entry.score := by
    intro entry isEntry
    exact of_decide_eq_true (List.mem_filter.mp (mem_update isEntry)).2
  have sameEntries : ∀ (set : StoredSet Member) instant,
      (set.expire instant).set.entries = set.set.entries := by
    intro set instant
    unfold StoredSet.expire
    split
    · rfl
    · rfl
  cases member with
  | none =>
      have isSet : Accounts.aggregateSet now none stored =
          ((((stored.load now).update (·.removeUpTo (now - fiveMinutes))).expire
            (now + fiveMinutes)).update (·.removeRanks 1001)) := rfl
      have trimmed := current.expire.removeRanks enough
      rw [isSet]
      refine ⟨trimmed, fun entry isEntry => ?_⟩
      have isExpiring := SortedSet.mem_entries_removeRanks (mem_update isEntry)
      rw [sameEntries] at isExpiring
      exact isCurrent entry isExpiring
  | some member =>
      have isSet : Accounts.aggregateSet now (some member) stored =
          (((((stored.load now).update (·.removeUpTo (now - fiveMinutes))).update
            (·.add now member)).expire (now + fiveMinutes)).update
              (·.removeRanks 1001)) := rfl
      have trimmed := (current.record member).removeRanks enough
      rw [isSet]
      refine ⟨trimmed, fun entry isEntry => ?_⟩
      have isExpiring := SortedSet.mem_entries_removeRanks (mem_update isEntry)
      rw [sameEntries] at isExpiring
      rcases SortedSet.mem_entries_add.mp (mem_update isExpiring) with rfl | ⟨isOld, _⟩
      · change now - fiveMinutes < now
        unfold fiveMinutes second
        omega
      · exact isCurrent entry isOld

/-- The bounded number reaches a threshold exactly when that of all members does. -/
theorem Kept.reaches_iff
    (kept : Kept aggregateKeep fiveMinutes seen stored now) (member : Option Member)
    {threshold : Nat} (bounded : threshold ≤ 1000) :
    threshold ≤ (Accounts.aggregateSet now member stored).set.card ↔
      threshold ≤ (seenAfter seen now member (now - fiveMinutes)).card := by
  obtain ⟨after, isCurrent⟩ := kept.aggregateSet member
  have alike := after.covers.card isCurrent
  unfold aggregateKeep at alike
  omega

/-! ## Series of requests -/

omit [LE Member] [DecidableLE Member] in
theorem distinctWithin_eq (log : List (Scored Member)) (now : Int) :
    distinctWithin log now = (seenIn log (now - fiveMinutes)).card :=
  (List.card_toFinset _).symm

omit [LE Member] [DecidableLE Member] in
theorem seenIn_attemptLog (past : List (FailedRequest Member))
    (request : FailedRequest Member) :
    seenIn (attemptLog (past ++ [request])) =
      seenAfter (seenIn (attemptLog past)) request.now (some request.token) := by
  unfold attemptLog
  rw [List.map_append]
  exact seenIn_append _ _ _

omit [LE Member] [DecidableLE Member] in
theorem seenIn_sourceLog (past : List (FailedRequest Member))
    (request : FailedRequest Member) :
    seenIn (sourceLog (past ++ [request])) =
      seenAfter (seenIn (sourceLog past)) request.now (some request.source) := by
  unfold sourceLog
  rw [List.map_append]
  exact seenIn_append _ _ _

omit [LE Member] [DecidableLE Member] in
theorem seenIn_identityLog (past : List (FailedRequest Member))
    (request : FailedRequest Member) :
    seenIn (identityLog (past ++ [request])) =
      seenAfter (seenIn (identityLog past)) request.now request.identity := by
  unfold identityLog
  rw [List.filterMap_append]
  cases isIdentity : request.identity with
  | none =>
      rw [List.filterMap_cons_none (by rw [isIdentity]; rfl), List.filterMap_nil,
        List.append_nil]
      rfl
  | some identity =>
      rw [List.filterMap_cons_some (by rw [isIdentity]; rfl), List.filterMap_nil]
      exact seenIn_append _ _ _

omit [LE Member] [DecidableLE Member] in
theorem attempts_eq
    {past : List (FailedRequest Member)} (distinct : (past.map FailedRequest.token).Nodup)
    (now : Int) :
    past.countP (fun other => decide (now - fiveMinutes < other.now)) =
      (seenIn (attemptLog past) (now - fiveMinutes)).card := by
  rw [card_seenIn]
  · unfold attemptLog
    rw [List.countP_map]
    rfl
  · unfold attemptLog
    rw [List.map_map]
    exact distinct

/-- Every set covers its log, and the alerts are those of the log. -/
structure CoversLog (store : AggregateStore Member) (past : List (FailedRequest Member))
    (alerts : AlertState) (now : Int) : Prop where
  attempts : Kept aggregateKeep fiveMinutes (seenIn (attemptLog past)) store.attempts now
  sources : Kept aggregateKeep fiveMinutes (seenIn (sourceLog past)) store.sources now
  identities : Kept aggregateKeep fiveMinutes (seenIn (identityLog past)) store.identities now
  alerts : store.alerts = alerts

omit [DecidableEq Member] [LE Member] [DecidableLE Member] in
theorem AuthenticationLimits.bounded
    (request : FailedRequest Member) (kind : FailureKind) :
    request.limits.aggregateAttempts ≤ 1000 ∧ request.sourceThreshold kind ≤ 1000 ∧
      request.limits.adminIdentities ≤ 1000 := by
  have valid := request.limits.valid
  have attempts := valid request.limits.aggregateAttempts (by simp)
  have admin := valid request.limits.adminSources (by simp)
  have identities := valid request.limits.adminIdentities (by simp)
  have family := valid request.limits.familySources (by simp)
  refine ⟨attempts.2, ?_, identities.2⟩
  cases kind with
  | admin => exact admin.2
  | family => exact family.2

/-- The bounded numbers trigger exactly when those of the log do. -/
theorem meets_eq
    (kind : FailureKind) {request : FailedRequest Member} {store : AggregateStore Member}
    {past : List (FailedRequest Member)} {alerts : AlertState}
    (covers : CoversLog store past alerts request.now)
    (distinct : ((past ++ [request]).map FailedRequest.token).Nodup) :
    meets kind request
        (aggregateSet request.now (some request.token) store.attempts).set.card
        (aggregateSet request.now (some request.source) store.sources).set.card
        (aggregateSet request.now request.identity store.identities).set.card =
      meets kind request
        ((past ++ [request]).countP fun other =>
          decide (request.now - fiveMinutes < other.now))
        (distinctWithin (sourceLog (past ++ [request])) request.now)
        (distinctWithin (identityLog (past ++ [request])) request.now) := by
  obtain ⟨attempts, sources, identities⟩ := AuthenticationLimits.bounded request kind
  unfold meets
  rw [attempts_eq distinct, distinctWithin_eq, distinctWithin_eq, seenIn_attemptLog,
    seenIn_sourceLog, seenIn_identityLog]
  simp only [covers.attempts.reaches_iff (some request.token) attempts,
    covers.sources.reaches_iff (some request.source) sources,
    covers.identities.reaches_iff request.identity identities]

/-- One request: the decision is that of the log, and the sets cover the log again. -/
theorem CoversLog.aggregateScript
    (kind : FailureKind) {request : FailedRequest Member} {store : AggregateStore Member}
    {past : List (FailedRequest Member)} {alerts : AlertState}
    (covers : CoversLog store past alerts request.now)
    (distinct : ((past ++ [request]).map FailedRequest.token).Nodup) :
    (Accounts.aggregateScript kind request store).1.1 =
        (logDecision kind (past ++ [request]) request alerts).1 ∧
      CoversLog (Accounts.aggregateScript kind request store).2 (past ++ [request])
        (logDecision kind (past ++ [request]) request alerts).2 request.now := by
  have decides := meets_eq kind covers distinct
  have attempts := (covers.attempts.aggregateSet (some request.token)).1
  have sources := (covers.sources.aggregateSet (some request.source)).1
  have identities := (covers.identities.aggregateSet request.identity).1
  rw [← seenIn_attemptLog] at attempts
  rw [← seenIn_sourceLog] at sources
  rw [← seenIn_identityLog] at identities
  unfold logDecision
  rw [← decides, ← covers.alerts]
  unfold Accounts.aggregateScript
  dsimp only
  refine ⟨rfl, ?_⟩
  constructor
  · dsimp only
    exact attempts
  · dsimp only
    exact sources
  · dsimp only
    exact identities
  · rfl

/-- The run lemma: from sets that cover the log on, the decisions agree. -/
theorem aggregateDecisions_eq_logDecisions
    (kind : FailureKind) {requests past : List (FailedRequest Member)}
    (distinct : ((past ++ requests).map FailedRequest.token).Nodup)
    (ordered : requests.Pairwise fun first second => first.now ≤ second.now)
    (since : ∀ request ∈ requests, now ≤ request.now)
    {store : AggregateStore Member} {alerts : AlertState}
    (covers : CoversLog store past alerts now) :
    aggregateDecisions kind store requests = logDecisions kind past alerts requests := by
  induction requests generalizing past store alerts now with
  | nil => rfl
  | cons request requests inductionHypothesis =>
      have le := since request List.mem_cons_self
      have coversNow : CoversLog store past alerts request.now :=
        ⟨covers.attempts.mono le, covers.sources.mono le, covers.identities.mono le,
          covers.alerts⟩
      rw [List.append_cons] at distinct
      have soFar : ((past ++ [request]).map FailedRequest.token).Nodup :=
        ((List.sublist_append_left _ requests).map _).nodup distinct
      obtain ⟨restSince, restOrdered⟩ := List.pairwise_cons.mp ordered
      obtain ⟨decision, coversNext⟩ := coversNow.aggregateScript kind soFar
      rw [aggregateDecisions, logDecisions, decision,
        inductionHypothesis distinct restOrdered restSince coversNext]

end

/-- The limiter's storage is bounded and its decisions are those of the whole log:
for checks, failures and clears, whether control is elevated or not, and for the
trigger of a distributed burst. -/
theorem limiter_decides_as_log
    {Key Member : Type} [DecidableEq Key] [DecidableEq Member] [LE Member]
    [DecidableLE Member] :
    (∀ (base : Key → Nat) (seconds : Key → Int) (calls : List (LimiterCall Key Member)),
      (∀ call ∈ calls, ∀ counter ∈ call.countersOf, FollowsBase base seconds counter) →
      (calls.filterMap LimiterCall.failure?).Nodup →
      (calls.filterMap LimiterCall.time?).Pairwise (· ≤ ·) →
      windowResults (fun _ => StoredSet.missing) calls =
        logResults (fun _ => []) calls) ∧
    ∀ (kind : FailureKind) (requests : List (FailedRequest Member)),
      (requests.map FailedRequest.token).Nodup →
      (requests.Pairwise fun first second => first.now ≤ second.now) →
      aggregateDecisions kind AggregateStore.empty requests =
        logDecisions kind [] ⟨none, none⟩ requests := by
  refine ⟨fun base seconds calls follow distinct ordered =>
    windowResults_eq follow distinct ordered, fun kind requests distinct ordered => ?_⟩
  have missing : ∀ now, Kept aggregateKeep fiveMinutes (seenIn ([] : List (Scored Member)))
      StoredSet.missing now :=
    fun now => kept_missing (fun _ _ => rfl) fun _ _ => rfl
  cases requests with
  | nil => rfl
  | cons first rest =>
      refine aggregateDecisions_eq_logDecisions kind distinct ordered
        (fun request member => ?_)
        ⟨missing first.now, missing first.now, missing first.now, rfl⟩
      rcases List.mem_cons.mp member with rfl | later
      · exact Int.le_refl _
      · exact (List.pairwise_cons.mp ordered).1 request later

end ParishKit.Accounts
