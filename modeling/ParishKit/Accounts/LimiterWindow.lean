import ParishKit.Lib.SortedSet

/-!
# The window script

Failures are counted in sorted sets that expire and are trimmed to a rank of the
call's own limit. Times are the store's, in microseconds.
-/

namespace ParishKit.Accounts

open ParishKit.Lib

variable {Key Member : Type}

/-! ## Stored keys -/

/-- A sorted set and when its key expires. -/
structure StoredSet (Member : Type) where
  set : SortedSet Member
  expiresAt : Option Int

namespace StoredSet

def missing : StoredSet Member :=
  ⟨SortedSet.empty, none⟩

/-- A key is gone once its time has come. -/
def load (stored : StoredSet Member) (now : Int) : StoredSet Member :=
  match stored.expiresAt with
  | some instant => if instant ≤ now then missing else stored
  | none => stored

/-- A command on the set. A set without entries has no key. -/
def update (stored : StoredSet Member) (command : SortedSet Member → SortedSet Member) :
    StoredSet Member :=
  if (command stored.set).entries.isEmpty then missing
  else ⟨command stored.set, stored.expiresAt⟩

/-- `EXPIRE`, which does nothing to a missing key. -/
def expire (stored : StoredSet Member) (instant : Int) : StoredSet Member :=
  if stored.set.entries.isEmpty then stored else ⟨stored.set, some instant⟩

end StoredSet

def second : Int :=
  1000000

/-! ## The script -/

/-- A sliding window policy with an already keyed subject. -/
structure Counter (Key : Type) where
  key : Key
  limit : Nat
  seconds : Int
  limit_valid : 1 ≤ limit ∧ limit ≤ 10000
  seconds_valid : 1 ≤ seconds ∧ seconds ≤ 86400

namespace Counter

def span (counter : Counter Key) : Int :=
  counter.seconds * second

end Counter

/-- The delay of a count, in seconds. -/
def delayOf (limit count : Nat) : Nat :=
  if limit ≤ count then min 3600 (30 * 2 ^ min 7 (count - limit)) else 0

section

variable [DecidableEq Member] [LE Member] [DecidableLE Member]

/-- What the script does to the key of one counter. -/
def windowSet (now : Int) (failure : Option Member) (counter : Counter Key)
    (stored : StoredSet Member) : StoredSet Member :=
  let current := (stored.load now).update (·.removeUpTo (now - counter.span))
  match failure with
  | none => current
  | some token =>
      ((current.update (·.add now token)).expire (now + counter.span)).update
        (·.removeRanks (counter.limit * 2 + 10))

variable [DecidableEq Key]

/-- `WINDOW`: the largest delay, and the keys afterwards. -/
def windowScript (now : Int) (failure : Option Member) :
    List (Counter Key) → (Key → StoredSet Member) → Nat × (Key → StoredSet Member)
  | [], store => (0, store)
  | counter :: rest, store =>
      let stored := windowSet now failure counter (store counter.key)
      let later := windowScript now failure rest
        (Function.update store counter.key stored)
      (max (delayOf counter.limit stored.set.card) later.1, later.2)

end

/-- `Limiter.counters`, with a token when it records a failure, and
`Limiter.clear`. -/
inductive LimiterCall (Key Member : Type) where
  | counters (now : Int) (failure : Option Member) (counters : List (Counter Key))
  | clear (key : Key)

/-- `_ip_counter`: the limit of a base, tightened while control is elevated. -/
def ipLimit (base : Nat) (elevated : Bool) : Nat :=
  if elevated then max 1 (base / 2) else base

section

variable [DecidableEq Key] [DecidableEq Member] [LE Member] [DecidableLE Member]

/-- The results of a series of calls. -/
def windowResults : (Key → StoredSet Member) → List (LimiterCall Key Member) → List Nat
  | _, [] => []
  | store, .counters now failure counters :: rest =>
      let result := windowScript now failure counters store
      result.1 :: windowResults result.2 rest
  | store, .clear key :: rest =>
      windowResults (Function.update store key StoredSet.missing) rest

end

/-! ## The log of failures -/

/-- The failures of each key since its last clear. -/
abbrev FailureLog (Key Member : Type) :=
  Key → List (Scored Member)

section

variable [DecidableEq Key]

def logFailure (now : Int) (failure : Option Member) (counters : List (Counter Key))
    (log : FailureLog Key Member) : FailureLog Key Member :=
  fun key => match failure with
    | some token =>
        if key ∈ counters.map Counter.key then log key ++ [⟨now, token⟩] else log key
    | none => log key

/-- The failures of the last span. -/
def failuresWithin (log : List (Scored Member)) (now span : Int) : Nat :=
  log.countP fun failure => decide (now - span < failure.score)

/-- The largest delay over the counters. -/
def logResult (now : Int) (log : FailureLog Key Member) : List (Counter Key) → Nat
  | [] => 0
  | counter :: rest =>
      max (delayOf counter.limit (failuresWithin (log counter.key) now counter.span))
        (logResult now log rest)

/-- The results that the whole log gives. -/
def logResults : FailureLog Key Member → List (LimiterCall Key Member) → List Nat
  | _, [] => []
  | log, .counters now failure counters :: rest =>
      let later := logFailure now failure counters log
      logResult now later counters :: logResults later rest
  | log, .clear key :: rest => logResults (Function.update log key []) rest

end

/-! ## Delays -/

/-- Seven above the limit a delay is the longest. -/
theorem delayOf_of_seven_le {limit count : Nat} (enough : limit + 7 ≤ count) :
    delayOf limit count = 3600 := by
  have most : min 7 (count - limit) = 7 := by omega
  unfold delayOf
  rw [if_pos (by omega), most]
  rfl

theorem delayOf_congr
    {limit keep count other : Nat} (enough : limit + 7 ≤ keep)
    (alike : count = other ∨ keep ≤ count ∧ keep ≤ other) :
    delayOf limit count = delayOf limit other := by
  rcases alike with rfl | ⟨reached, otherReached⟩
  · rfl
  · rw [delayOf_of_seven_le (Nat.le_trans enough reached),
      delayOf_of_seven_le (Nat.le_trans enough otherReached)]

/-! ## What a key has kept -/

section

variable [DecidableEq Member]

/-- The failures after an instant. -/
def seenIn (log : List (Scored Member)) (bound : Int) : Finset Member :=
  ((log.filter fun failure => decide (bound < failure.score)).map
    Scored.member).toFinset

theorem card_seenIn
    {log : List (Scored Member)} (distinct : (log.map Scored.member).Nodup)
    (bound : Int) :
    (seenIn log bound).card =
      log.countP fun failure => decide (bound < failure.score) := by
  unfold seenIn
  rw [List.toFinset_card_of_nodup ((List.filter_sublist.map Scored.member).nodup
    distinct), List.length_map, List.countP_eq_length_filter]

theorem seenIn_append (log : List (Scored Member)) (now : Int) (token : Member) :
    seenIn (log ++ [⟨now, token⟩]) = SortedSet.seenWith (seenIn log) now token := by
  funext bound
  unfold seenIn SortedSet.seenWith
  rw [List.filter_append, List.map_append, List.toFinset_append]
  by_cases isAfter : bound < now
  · rw [if_pos isAfter, List.filter_cons_of_pos (by simpa using isAfter)]
    rw [Finset.insert_eq, Finset.union_comm]
    rfl
  · rw [if_neg isAfter, List.filter_cons_of_neg (by simpa using isAfter)]
    simp

/-- A key covers what was seen in the last span, and expires no sooner than that
is over. -/
structure Kept (keep : Nat) (span : Int) (seen : Int → Finset Member)
    (stored : StoredSet Member) (now : Int) : Prop where
  covers : stored.set.Covers keep seen (now - span)
  latest : ∀ entry ∈ stored.set.entries, entry.score ≤ now
  nothingLater : ∀ bound, now ≤ bound → seen bound = ∅
  quiet : ∀ instant, stored.expiresAt = some instant → ∀ bound,
    instant - span ≤ bound → seen bound = ∅

variable {keep : Nat} {span now later : Int} {seen : Int → Finset Member}
  {stored : StoredSet Member}

theorem kept_missing (nothing : ∀ bound, now - span ≤ bound → seen bound = ∅)
    (nothingLater : ∀ bound, now ≤ bound → seen bound = ∅) :
    Kept keep span seen StoredSet.missing now where
  covers := SortedSet.covers_empty nothing
  latest entry member := by cases member
  nothingLater := nothingLater
  quiet instant isSome := by cases isSome

theorem Kept.mono (kept : Kept keep span seen stored now) (le : now ≤ later) :
    Kept keep span seen stored later where
  covers := kept.covers.mono (by omega)
  latest entry member := Int.le_trans (kept.latest entry member) le
  nothingLater bound isAfter := kept.nothingLater bound (Int.le_trans le isAfter)
  quiet := kept.quiet

theorem Kept.load (kept : Kept keep span seen stored now) :
    Kept keep span seen (stored.load now) now := by
  unfold StoredSet.load
  split
  · rename_i instant isInstant
    split
    · rename_i gone
      exact kept_missing
        (fun bound isAfter => kept.quiet instant isInstant bound (by omega))
        kept.nothingLater
    · exact kept
  · exact kept

/-- A command that keeps what is covered. -/
theorem Kept.update
    (kept : Kept keep span seen stored now)
    {command : SortedSet Member → SortedSet Member}
    (covers : (command stored.set).Covers keep seen (now - span))
    (subset : ∀ entry ∈ (command stored.set).entries, entry ∈ stored.set.entries) :
    Kept keep span seen (stored.update command) now := by
  unfold StoredSet.update
  split
  · rename_i isEmpty
    refine ⟨?_, fun entry member => (by cases member), kept.nothingLater,
      fun instant isSome => (by cases isSome)⟩
    intro bound isAfter
    obtain ⟨_, atLeast⟩ := covers bound isAfter
    have nothing : (command stored.set).above bound = SortedSet.empty.above bound := by
      unfold SortedSet.above
      rw [List.isEmpty_iff.mp isEmpty]
      rfl
    rw [nothing] at atLeast
    refine ⟨fun member isAbove => ?_, atLeast⟩
    obtain ⟨_, _, isEntry⟩ := SortedSet.mem_above.mp isAbove
    cases isEntry
  · exact ⟨covers, fun entry member => kept.latest entry (subset entry member),
      kept.nothingLater, kept.quiet⟩

theorem Kept.removeUpTo (kept : Kept keep span seen stored now) :
    Kept keep span seen (stored.update (·.removeUpTo (now - span))) now :=
  kept.update (kept.covers.removeUpTo (Int.le_refl _))
    fun _ member => (List.mem_filter.mp member).1

theorem Kept.removeRanks
    (kept : Kept keep span seen stored now) {last : Nat} (enough : keep < last) :
    Kept keep span seen (stored.update (·.removeRanks last)) now :=
  kept.update (kept.covers.removeRanks enough) fun _ member => SortedSet.mem_entries_removeRanks member

/-- A key that expires a span from now expires when nothing is left to see. -/
theorem Kept.expire (kept : Kept keep span seen stored now) :
    Kept keep span seen (stored.expire (now + span)) now := by
  unfold StoredSet.expire
  split
  · exact kept
  · refine ⟨kept.covers, kept.latest, kept.nothingLater,
      fun instant isInstant bound isAfter => ?_⟩
    cases isInstant
    exact kept.nothingLater bound (by omega)

omit [DecidableEq Member] in
theorem mem_update
    {command : SortedSet Member → SortedSet Member} {entry : Scored Member}
    (member : entry ∈ (stored.update command).set.entries) :
    entry ∈ (command stored.set).entries := by
  unfold StoredSet.update at member
  split at member
  · cases member
  · exact member

variable [LE Member] [DecidableLE Member]

/-- A member is added and the key expires a span later. -/
theorem Kept.record (kept : Kept keep span seen stored now) (token : Member) :
    Kept keep span (SortedSet.seenWith seen now token)
      ((stored.update (·.add now token)).expire (now + span)) now := by
  have isThere : ⟨now, token⟩ ∈ (stored.set.add now token).entries :=
    SortedSet.mem_entries_add.mpr (Or.inl rfl)
  have nonempty : (stored.set.add now token).entries.isEmpty = false := by
    cases entries : (stored.set.add now token).entries with
    | nil =>
        rw [entries] at isThere
        cases isThere
    | cons head tail => rfl
  have isStored : (stored.update (·.add now token)).expire (now + span) =
      ⟨stored.set.add now token, some (now + span)⟩ := by
    unfold StoredSet.update
    rw [nonempty]
    change StoredSet.expire ⟨stored.set.add now token, stored.expiresAt⟩ _ = _
    unfold StoredSet.expire
    rw [nonempty]
    rfl
  have nothingLater : ∀ bound, now ≤ bound →
      SortedSet.seenWith seen now token bound = ∅ := by
    intro bound isAfter
    unfold SortedSet.seenWith
    rw [if_neg (Int.not_lt.mpr isAfter)]
    exact kept.nothingLater bound isAfter
  rw [isStored]
  refine ⟨kept.covers.add kept.latest token, fun entry member => ?_, nothingLater,
    fun instant isInstant bound isAfter => ?_⟩
  · rcases SortedSet.mem_entries_add.mp member with rfl | ⟨isOld, _⟩
    · exact Int.le_refl _
    · exact kept.latest entry isOld
  · cases isInstant
    exact nothingLater bound (by omega)

omit [LE Member] [DecidableLE Member] in
/-- What was seen, with a failure that is recorded. -/
def seenAfter (seen : Int → Finset Member) (now : Int) :
    Option Member → Int → Finset Member
  | none => seen
  | some token => SortedSet.seenWith seen now token

/-- A call keeps what its counter needs, and counts the last span alone. -/
theorem Kept.windowSet
    {counter : Counter Key} (kept : Kept keep counter.span seen stored now)
    (failure : Option Member) (enough : keep < counter.limit * 2 + 10) :
    Kept keep counter.span (seenAfter seen now failure)
        (Accounts.windowSet now failure counter stored) now ∧
      ∀ entry ∈ (Accounts.windowSet now failure counter stored).set.entries,
        now - counter.span < entry.score := by
  have current := kept.load.removeUpTo
  have isCurrent : ∀ entry ∈ ((stored.load now).update
      (·.removeUpTo (now - counter.span))).set.entries,
      now - counter.span < entry.score := by
    intro entry member
    exact of_decide_eq_true (List.mem_filter.mp (mem_update member)).2
  cases failure with
  | none => exact ⟨current, isCurrent⟩
  | some token =>
      have recorded := current.record token
      refine ⟨recorded.removeRanks enough, fun entry member => ?_⟩
      have isRecorded := SortedSet.mem_entries_removeRanks (mem_update member)
      have positive : 0 < counter.span := by
        have valid := counter.seconds_valid
        unfold Counter.span second
        omega
      unfold StoredSet.expire at isRecorded
      have isAdded : entry ∈ (((stored.load now).update
          (·.removeUpTo (now - counter.span))).update (·.add now token)).set.entries := by
        split at isRecorded
        · exact isRecorded
        · exact isRecorded
      rcases SortedSet.mem_entries_add.mp (mem_update isAdded) with rfl | ⟨isOld, _⟩
      · change now - counter.span < now
        omega
      · exact isCurrent entry isOld

/-- The count decides the same delay as all failures that were seen. -/
theorem Kept.delayOf_windowSet
    {counter : Counter Key} (kept : Kept keep counter.span seen stored now)
    (failure : Option Member) (enough : keep < counter.limit * 2 + 10)
    (saturates : counter.limit + 7 ≤ keep) :
    delayOf counter.limit (Accounts.windowSet now failure counter stored).set.card =
      delayOf counter.limit
        (seenAfter seen now failure (now - counter.span)).card := by
  obtain ⟨after, isCurrent⟩ := kept.windowSet failure enough
  exact delayOf_congr saturates (after.covers.card isCurrent)

/-! ## Series of calls -/

variable [DecidableEq Key]

/-- The failures a key's limit needs, whether control is elevated or not. -/
def keepOf (base : Nat) : Nat :=
  2 * max 1 (base / 2) + 9

/-- Each key has one span, and the limit of its base or the tightened one. -/
structure FollowsBase (base : Key → Nat) (seconds : Key → Int) (counter : Counter Key) :
    Prop where
  seconds : counter.seconds = seconds counter.key
  limit : ∃ elevated, counter.limit = ipLimit (base counter.key) elevated

omit [DecidableEq Key] in
theorem FollowsBase.keeps
    {base : Key → Nat} {seconds : Key → Int} {counter : Counter Key}
    (follows : FollowsBase base seconds counter) :
    keepOf (base counter.key) < counter.limit * 2 + 10 ∧
      counter.limit + 7 ≤ keepOf (base counter.key) := by
  obtain ⟨elevated, isLimit⟩ := follows.limit
  have valid := counter.limit_valid
  unfold keepOf
  cases elevated with
  | false =>
      change counter.limit = base counter.key at isLimit
      omega
  | true =>
      change counter.limit = max 1 (base counter.key / 2) at isLimit
      omega

section

variable {base : Key → Nat} {seconds : Key → Int}

/-- Every key covers what was seen of it. -/
def AllKept (base : Key → Nat) (seconds : Key → Int)
    (seen : Key → Int → Finset Member) (store : Key → StoredSet Member) (now : Int) :
    Prop :=
  ∀ key, Kept (keepOf (base key)) (seconds key * second) (seen key) (store key) now

/-- One call: the counters are met one after another, and a key that occurs twice
sees the same failure again. -/
theorem windowScript_decides
    {failure : Option Member} {counters : List (Counter Key)}
    (follow : ∀ counter ∈ counters, FollowsBase base seconds counter)
    {old new : Key → Int → Finset Member}
    (becomes : ∀ counter ∈ counters,
      seenAfter (old counter.key) now failure = new counter.key)
    (stays : ∀ counter ∈ counters,
      seenAfter (new counter.key) now failure = new counter.key)
    {met : List Key} {store : Key → StoredSet Member}
    (kept : AllKept base seconds
      (fun key => if key ∈ met then new key else old key) store now) :
    (windowScript now failure counters store).1 =
        (counters.map fun counter => delayOf counter.limit
          (new counter.key (now - counter.span)).card).foldr max 0 ∧
      AllKept base seconds
        (fun key => if key ∈ met ++ counters.map Counter.key then new key else old key)
        (windowScript now failure counters store).2 now := by
  induction counters generalizing met store with
  | nil =>
      refine ⟨rfl, ?_⟩
      rw [List.map_nil, List.append_nil]
      exact kept
  | cons counter counters inductionHypothesis =>
      have isFirst := List.mem_cons_self (a := counter) (l := counters)
      obtain ⟨enough, saturates⟩ := (follow counter isFirst).keeps
      have isSpan : seconds counter.key * second = counter.span := by
        rw [← (follow counter isFirst).seconds]
        rfl
      have sees : seenAfter
          (if counter.key ∈ met then new counter.key else old counter.key) now failure =
          new counter.key := by
        split
        · exact stays counter isFirst
        · exact becomes counter isFirst
      have before := kept counter.key
      rw [isSpan] at before
      have delay := before.delayOf_windowSet failure enough saturates
      have after := (before.windowSet failure enough).1
      rw [sees] at delay after
      have nextKept : AllKept base seconds
          (fun key => if key ∈ met ++ [counter.key] then new key else old key)
          (Function.update store counter.key
            (Accounts.windowSet now failure counter (store counter.key))) now := by
        intro key
        dsimp only
        by_cases same : key = counter.key
        · subst same
          rw [Function.update_self, if_pos (by simp), isSpan]
          exact after
        · have unmet : key ∈ met ++ [counter.key] ↔ key ∈ met := by simp [same]
          rw [Function.update_of_ne same]
          simp only [unmet]
          exact kept key
      obtain ⟨rest, restKept⟩ := inductionHypothesis
        (fun other member => follow other (List.mem_cons_of_mem _ member))
        (fun other member => becomes other (List.mem_cons_of_mem _ member))
        (fun other member => stays other (List.mem_cons_of_mem _ member)) nextKept
      refine ⟨?_, ?_⟩
      · rw [windowScript, List.map_cons, List.foldr_cons, ← rest, ← delay]
      · rw [List.append_assoc] at restKept
        exact restKept

/-! ## The whole series -/

/-- When a call is made; a clear looks at no time. -/
def LimiterCall.time? : LimiterCall Key Member → Option Int
  | .counters now _ _ => some now
  | .clear _ => none

def LimiterCall.failure? : LimiterCall Key Member → Option Member
  | .counters _ failure _ => failure
  | .clear _ => none

def LimiterCall.countersOf : LimiterCall Key Member → List (Counter Key)
  | .counters _ _ listed => listed
  | .clear _ => []

/-- The log has each failure once, and none that is still to come. -/
def Fresh (log : FailureLog Key Member) (calls : List (LimiterCall Key Member)) : Prop :=
  ∀ key, ((log key).map Scored.member).Nodup ∧
    ∀ entry ∈ log key, entry.member ∉ calls.filterMap LimiterCall.failure?

omit [LE Member] [DecidableLE Member] [DecidableEq Member] in
theorem fresh_logFailure
    {log : FailureLog Key Member} {calls : List (LimiterCall Key Member)}
    {failure : Option Member} {counters : List (Counter Key)}
    (fresh : Fresh log (.counters now failure counters :: calls))
    (distinct : ((LimiterCall.counters now failure counters :: calls).filterMap
      LimiterCall.failure?).Nodup) :
    Fresh (logFailure now failure counters log) calls := by
  intro key
  obtain ⟨logged, notLater⟩ := fresh key
  cases failure with
  | none => exact ⟨logged, notLater⟩
  | some token =>
      change (token :: calls.filterMap LimiterCall.failure?).Nodup at distinct
      have newOnce := (List.nodup_cons.mp distinct).1
      have old : ∀ entry ∈ log key, entry.member ≠ token ∧
          entry.member ∉ calls.filterMap LimiterCall.failure? := by
        intro entry member
        have absent : entry.member ∉ token :: calls.filterMap LimiterCall.failure? :=
          notLater entry member
        rw [List.mem_cons, not_or] at absent
        exact absent
      unfold logFailure
      dsimp only
      split
      · refine ⟨?_, fun entry member => ?_⟩
        · rw [List.map_append, List.nodup_append]
          refine ⟨logged, List.nodup_singleton _, ?_⟩
          intro member isOld other isNew
          obtain ⟨entry, isEntry, rfl⟩ := List.mem_map.mp isOld
          rw [List.mem_singleton.mp isNew]
          exact (old entry isEntry).1
        · rcases List.mem_append.mp member with isOld | isNew
          · exact (old entry isOld).2
          · rw [List.mem_singleton.mp isNew]
            exact newOnce
      · exact ⟨logged, fun entry member => (old entry member).2⟩

section

variable {base : Key → Nat} {seconds : Key → Int}

omit [LE Member] [DecidableLE Member] in
/-- A counter's key sees the call's failure, once. -/
theorem seenIn_logFailure
    {log : FailureLog Key Member} {failure : Option Member}
    {counters : List (Counter Key)} {counter : Counter Key}
    (member : counter ∈ counters) :
    seenAfter (seenIn (log counter.key)) now failure =
        seenIn (logFailure now failure counters log counter.key) ∧
      seenAfter (seenIn (logFailure now failure counters log counter.key)) now failure =
        seenIn (logFailure now failure counters log counter.key) := by
  cases failure with
  | none => exact ⟨rfl, rfl⟩
  | some token =>
      have isLogged : logFailure now (some token) counters log counter.key =
          log counter.key ++ [⟨now, token⟩] :=
        if_pos (List.mem_map_of_mem member)
      rw [isLogged, seenIn_append]
      exact ⟨rfl, SortedSet.seenWith_seenWith _ _ _⟩

omit [LE Member] [DecidableLE Member] [DecidableEq Key] in
theorem logResult_eq
    {log : FailureLog Key Member} {counters : List (Counter Key)}
    (distinct : ∀ key, ((log key).map Scored.member).Nodup) :
    logResult now log counters =
      (counters.map fun counter => delayOf counter.limit
        (seenIn (log counter.key) (now - counter.span)).card).foldr max 0 := by
  induction counters with
  | nil => rfl
  | cons counter counters inductionHypothesis =>
      rw [logResult, List.map_cons, List.foldr_cons, inductionHypothesis,
        card_seenIn (distinct counter.key)]
      rfl

/-- The run lemma: from keys that cover their logs on, the results agree. -/
theorem windowResults_eq_logResults
    {calls : List (LimiterCall Key Member)}
    (follow : ∀ call ∈ calls, ∀ counter ∈ call.countersOf,
      FollowsBase base seconds counter)
    (distinct : (calls.filterMap LimiterCall.failure?).Nodup)
    (ordered : (calls.filterMap LimiterCall.time?).Pairwise (· ≤ ·))
    (since : ∀ instant ∈ calls.filterMap LimiterCall.time?, now ≤ instant)
    {log : FailureLog Key Member} (fresh : Fresh log calls)
    {store : Key → StoredSet Member}
    (kept : AllKept base seconds (fun key => seenIn (log key)) store now) :
    windowResults store calls = logResults log calls := by
  induction calls generalizing log store now with
  | nil => rfl
  | cons call calls inductionHypothesis =>
      have restFollow : ∀ other ∈ calls, ∀ counter ∈ other.countersOf,
          FollowsBase base seconds counter :=
        fun other member => follow other (List.mem_cons_of_mem _ member)
      cases call with
      | clear key =>
          refine inductionHypothesis restFollow distinct ordered since (fun other => ?_)
            fun other => ?_
          · by_cases same : other = key
            · rw [same, Function.update_self]
              exact ⟨List.nodup_nil, fun entry member => (by cases member)⟩
            · rw [Function.update_of_ne same]
              exact fresh other
          · dsimp only
            by_cases same : other = key
            · rw [same, Function.update_self, Function.update_self]
              exact kept_missing (fun _ _ => rfl) fun _ _ => rfl
            · rw [Function.update_of_ne same, Function.update_of_ne same]
              exact kept other
      | counters instant failure counters =>
          change (instant :: calls.filterMap LimiterCall.time?).Pairwise _ at ordered
          obtain ⟨restSince, restOrdered⟩ := List.pairwise_cons.mp ordered
          have le : now ≤ instant := since instant (List.mem_cons_self (a := instant))
          have laterFresh := fresh_logFailure fresh distinct
          have restDistinct : (calls.filterMap LimiterCall.failure?).Nodup :=
            ((List.sublist_cons_self _ calls).filterMap _).nodup distinct
          have atOnce : AllKept base seconds
              (fun key => if key ∈ ([] : List Key)
                then seenIn (logFailure instant failure counters log key)
                else seenIn (log key)) store instant :=
            fun key => (kept key).mono le
          have follows : ∀ counter ∈ counters, FollowsBase base seconds counter :=
            follow _ List.mem_cons_self
          obtain ⟨result, after⟩ := windowScript_decides follows
            (fun counter member => (seenIn_logFailure member).1)
            (fun counter member => (seenIn_logFailure member).2) atOnce
          have isLog : (fun key => if key ∈ [] ++ counters.map Counter.key
              then seenIn (logFailure instant failure counters log key)
              else seenIn (log key)) =
              fun key => seenIn (logFailure instant failure counters log key) := by
            funext key
            rw [List.nil_append]
            split
            · rfl
            · rename_i unmet
              unfold logFailure
              cases failure with
              | none => rfl
              | some token =>
                  dsimp only
                  rw [if_neg unmet]
          rw [isLog] at after
          rw [windowResults, logResults, result,
            logResult_eq fun key => (laterFresh key).1]
          exact congrArg _ (inductionHypothesis restFollow restDistinct restOrdered
            restSince laterFresh after)

end

/-- For every series of checks, failures and clears the bounded sets give the
results of the whole log. -/
theorem windowResults_eq
    {calls : List (LimiterCall Key Member)}
    (follow : ∀ call ∈ calls, ∀ counter ∈ call.countersOf,
      FollowsBase base seconds counter)
    (distinct : (calls.filterMap LimiterCall.failure?).Nodup)
    (ordered : (calls.filterMap LimiterCall.time?).Pairwise (· ≤ ·)) :
    windowResults (fun _ => StoredSet.missing) calls = logResults (fun _ => []) calls := by
  have begins : ∃ now, ∀ instant ∈ calls.filterMap LimiterCall.time?, now ≤ instant := by
    cases times : calls.filterMap LimiterCall.time? with
    | nil => exact ⟨0, fun instant member => (by cases member)⟩
    | cons first rest =>
        rw [times] at ordered
        refine ⟨first, fun instant member => ?_⟩
        rcases List.mem_cons.mp member with rfl | later
        · exact Int.le_refl _
        · exact (List.pairwise_cons.mp ordered).1 instant later
  obtain ⟨now, since⟩ := begins
  refine windowResults_eq_logResults follow distinct ordered since (fun key => ?_)
    fun key => kept_missing (fun _ _ => rfl) fun _ _ => rfl
  exact ⟨List.nodup_nil, fun entry member => (by cases member)⟩

end

end

end ParishKit.Accounts
