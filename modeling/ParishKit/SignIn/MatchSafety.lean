import ParishKit.Lib.Except
import ParishKit.Lib.Keyed
import ParishKit.SignIn.AddressMatch

/-!
# No account acts as an address without a standing match

The guard of the users reads the matches and the guard of the matches reads the
users. Together they keep one law: a match ends only when its account has gone
back to its own address, and an account leaves its own address only for that of
its standing match.
-/

namespace ParishKit.SignIn

open ParishKit.Lib

/-- What the two tables keep between statements. -/
structure MatchLaw (now : Int) (database : Database) : Prop where
  userKeys : (database.users.map (·.id)).Nodup
  matchKeys : (database.addressMatches.map (·.id)).Nodup
  unique : uniqueMatches database.addressMatches
  owner : ∀ row ∈ database.addressMatches, ∃ user ∈ database.users,
    user.id = row.portalUserId
  acting : ∀ user ∈ database.users, user.actsAsOther →
    ∃ row ∈ database.addressMatches, row.stands = true ∧
      row.portalUserId = user.id ∧ row.email = user.email
  confirmed : ∀ row ∈ database.addressMatches,
    row.matchedAt ≤ row.confirmedAt ∧ row.confirmedAt ≤ now

/-- What a statement leaves of the matches. -/
structure SoundStatement (started instant : Int) (before after : Database) :
    Prop where
  ended : ∀ row ∈ before.addressMatches, row.stands = false →
    row ∈ after.addressMatches
  verified : ∀ row ∈ after.addressMatches, row.stands = true →
    row ∉ before.addressMatches → row.confirmedAt = instant ∧
      ∃ user ∈ after.users, user.id = row.portalUserId ∧
        user.verifiedIn started instant
  revoked : ∀ old ∈ before.addressMatches, old.stands = true →
    ∀ row ∈ after.addressMatches, row.id = old.id → row.stands = false →
      (endsSessions row.endReason).isSome = true →
      (∀ session ∈ after.around.sessions,
          session.principalId = old.portalUserId →
          session.live instant = false) ∧
        ∀ automation ∈ after.around.automationSessions,
          automation.principalId = old.portalUserId →
          automation.revokedAt = none → automation.expiresAt ≤ instant

section

variable {database next : Database} {started instant clock now : Int}

theorem MatchLaw.later
    {later : Int} (law : MatchLaw now database) (le : now ≤ later) :
    MatchLaw later database :=
  { law with
    confirmed := fun row member =>
      ⟨(law.confirmed row member).1, (law.confirmed row member).2.trans le⟩ }

/-- A statement that leaves the matches and the sessions. -/
theorem soundStatement_of_matches
    (keys : (database.addressMatches.map (·.id)).Nodup)
    (same : next.addressMatches = database.addressMatches) :
    SoundStatement started instant database next := by
  refine ⟨fun row member _ => same ▸ member,
    fun row member _ new => absurd (same ▸ member) new, ?_⟩
  intro old isOld stands row member sameId ended
  have isRow : row = old :=
    List.inj_on_of_nodup_map keys (same ▸ member) isOld sameId
  rw [isRow, stands] at ended
  cases ended

/-! ## The guards -/

theorem portalUserInsert_eq_ok
    {new row : PortalUser}
    (admitted : portalUserInsert started instant new = .ok row) :
    row = { new with createdAt := instant, updatedAt := instant } ∧
      new.signInEmail = new.email := by
  unfold portalUserInsert at admitted
  split at admitted <;> cases admitted
  rename_i checked
  simp only [not_or, not_not] at checked
  exact ⟨rfl, checked.2.2.2.2.2.2.2⟩

/-- An account is let act as another address only by a match that stands. -/
theorem portalUserMutable_eq_ok
    {old new row : PortalUser}
    (admitted : portalUserMutable database started instant old new = .ok row) :
    row = { new with updatedAt := instant } ∧ new.id = old.id ∧
      (new.actsAsOther →
        (new.email, new.signInEmail) = (old.email, old.signInEmail) ∨
        ∃ found ∈ database.addressMatches, found.stands = true ∧
          found.portalUserId = new.id ∧ found.email = new.email) := by
  unfold portalUserMutable at admitted
  split at admitted
  · cases admitted
  rename_i bound
  split at admitted
  · cases admitted
  split at admitted
  · cases admitted
  split at admitted
  · cases admitted
  rename_i matched
  split at admitted <;> cases admitted
  simp only [not_or, not_not] at bound
  refine ⟨rfl, bound.1, fun acts => ?_⟩
  by_cases same : (new.email, new.signInEmail) = (old.email, old.signInEmail)
  · exact Or.inl same
  · right
    have exists' := not_not.mp fun none' => matched ⟨acts, same, none'⟩
    obtain ⟨found, member, fits⟩ := List.any_eq_true.mp exists'
    simp only [Bool.and_eq_true, beq_iff_eq, decide_eq_true_eq] at fits
    exact ⟨found, member, fits.1.1.2, fits.1.1.1, fits.1.2⟩

theorem account_eq_some
    {id : Nat} {user : PortalUser} (found : database.account id = some user) :
    user ∈ database.users ∧ user.id = id :=
  mem_of_find?_key found

theorem matchMutable_eq_ok
    {old new row : AddressMatch}
    (admitted : matchMutable instant old new = .ok row) :
    row = { new with updatedAt := instant } := by
  unfold matchMutable at admitted
  split at admitted
  · cases admitted
  split at admitted <;> cases admitted
  rfl

section

variable [Collation]

theorem matchGuardInsert_eq_ok
    {new row : AddressMatch}
    (admitted : matchGuardInsert database started instant new = .ok row) :
    row = { new with
        matchedAt := instant
        confirmedAt := instant
        version := 1
        createdAt := instant
        updatedAt := instant } ∧ new.endedAt = none ∧
      ∃ user ∈ database.users, user.id = new.portalUserId ∧
        user.verifiedIn started instant := by
  unfold matchGuardInsert at admitted
  dsimp only at admitted
  split at admitted
  · cases admitted
  rename_i checked
  split at admitted
  · cases admitted
  split at admitted <;> cases admitted
  simp only [not_or, not_not, Bool.not_eq_false] at checked
  obtain ⟨admitted, _, _, _, open', _⟩ := checked
  cases found : database.account new.portalUserId with
  | none =>
      rw [found] at admitted
      cases admitted
  | some user =>
      rw [found, Option.any_some] at admitted
      simp only [Bool.and_eq_true, decide_eq_true_eq] at admitted
      obtain ⟨member, sameId⟩ := account_eq_some found
      exact ⟨rfl, open', user, member, sameId, admitted.1.2⟩

/-- What the guard lets an update of a match be. -/
inductive Guarded (database : Database) (started instant : Int)
    (old new : AddressMatch) : AddressMatch × Surroundings → Prop where
  | rechecked (stands : new.endedAt = none)
      (verified : ∀ user, database.account old.portalUserId = some user →
        user.verifiedIn started instant) :
      Guarded database started instant old new
        ({ new with confirmedAt := instant }, database.around)
  | ended {around : Surroundings} (confirmed : new.confirmedAt = old.confirmedAt)
      (back : (database.account old.portalUserId).map (·.email) ≠ some old.email)
      (revokes : ∀ reason, endsSessions new.endReason = some reason →
        around = database.around.revokeSessions instant old.portalUserId
          new.endedById new.correlationId reason) :
      Guarded database started instant old new
        ({ new with endedAt := some instant }, around)

theorem matchGuardUpdate_eq_ok
    {old new : AddressMatch} {result : AddressMatch × Surroundings}
    (admitted : matchGuardUpdate database started instant clock old new =
      .ok result) :
    old.endedAt = none ∧ new.sameBinding old ∧
      Guarded database started instant old new result := by
  unfold matchGuardUpdate at admitted
  dsimp only at admitted
  split at admitted
  · cases admitted
  rename_i open'
  split at admitted
  · cases admitted
  rename_i bound
  refine ⟨not_not.mp open', not_not.mp bound, ?_⟩
  split at admitted
  · rename_i stands
    split at admitted <;> cases admitted
    rename_i checked
    simp only [not_or] at checked
    refine .rechecked stands fun user found => ?_
    by_contra unverified
    refine checked.2.2.2 ?_
    rw [found, Option.any_some]
    simpa using unverified
  · split at admitted
    · cases admitted
    rename_i checked
    rw [not_or, not_not] at checked
    split at admitted
    · cases admitted
    split at admitted
    · rename_i reason isReason
      cases admitted
      refine .ended checked.1 checked.2 fun given isGiven => ?_
      rw [isReason] at isGiven
      cases isGiven
      rfl
    · rename_i noReason
      cases admitted
      refine .ended checked.1 checked.2 fun given isGiven => ?_
      rw [noReason] at isGiven
      cases isGiven

end

/-! ## Statements -/

/-- Users are written without the matches. -/
theorem insertUser_law
    {row : PortalUser} (law : MatchLaw now database)
    (own : row.signInEmail = row.email)
    (fresh : row.id ∉ database.users.map (·.id)) :
    MatchLaw now { database with users := database.users ++ [row] } := by
  refine { law with userKeys := ?_, owner := ?_, acting := ?_ }
  · rw [List.map_append]
    exact law.userKeys.append (List.nodup_singleton _)
      (List.disjoint_singleton.mpr fresh)
  · intro found member
    obtain ⟨user, isUser, sameId⟩ := law.owner found member
    exact ⟨user, List.mem_append_left _ isUser, sameId⟩
  · intro user member acts
    rcases List.mem_append.mp member with isOld | isNew
    · exact law.acting user isOld acts
    · rw [List.mem_singleton.mp isNew] at acts
      exact absurd own.symm acts

theorem updateUser_law
    {old row : PortalUser} (law : MatchLaw now database)
    (member : old ∈ database.users) (sameId : row.id = old.id)
    (allowed : row.actsAsOther →
      (row.email, row.signInEmail) = (old.email, old.signInEmail) ∨
      ∃ found ∈ database.addressMatches, found.stands = true ∧
        found.portalUserId = row.id ∧ found.email = row.email) :
    MatchLaw now { database with
      users := database.users.map fun user =>
        if user.id = row.id then row else user } := by
  have keys : (database.users.map fun user =>
      if user.id = row.id then row else user).map (·.id) =
        database.users.map (·.id) := map_replace fun _ _ same => same
  refine { law with userKeys := ?_, owner := ?_, acting := ?_ }
  · change (List.map _ (List.map _ database.users)).Nodup
    rw [keys]
    exact law.userKeys
  · intro found isMatch
    obtain ⟨user, isUser, same⟩ := law.owner found isMatch
    have isKey : found.portalUserId ∈ database.users.map (·.id) :=
      List.mem_map.mpr ⟨user, isUser, same⟩
    rw [← keys] at isKey
    exact List.mem_map.mp isKey
  · intro user isUser acts
    rcases (mem_replace_iff member sameId.symm).mp isUser with rfl | ⟨isOld, _⟩
    · rcases allowed acts with same | found
      · rw [Prod.mk.injEq] at same
        have actedBefore : old.actsAsOther := by
          unfold PortalUser.actsAsOther at acts ⊢
          rwa [← same.1, ← same.2]
        obtain ⟨found, isMatch, stands, account, email⟩ :=
          law.acting old member actedBefore
        exact ⟨found, isMatch, stands, account.trans sameId.symm,
          email.trans same.1.symm⟩
      · exact found
    · exact law.acting user isOld acts

theorem insertMatch_law
    {row : AddressMatch} (law : MatchLaw now database)
    (fresh : row.id ∉ database.addressMatches.map (·.id))
    (unique : uniqueMatches (database.addressMatches ++ [row]))
    (owner : ∃ user ∈ database.users, user.id = row.portalUserId)
    (confirmed : row.matchedAt ≤ row.confirmedAt ∧ row.confirmedAt ≤ now) :
    MatchLaw now { database with
      addressMatches := database.addressMatches ++ [row] } := by
  refine { law with
    matchKeys := ?_, unique := unique, owner := ?_, acting := ?_, confirmed := ?_ }
  · rw [List.map_append]
    exact law.matchKeys.append (List.nodup_singleton _)
      (List.disjoint_singleton.mpr fresh)
  · intro found member
    rcases List.mem_append.mp member with isOld | isNew
    · exact law.owner found isOld
    · rw [List.mem_singleton.mp isNew]
      exact owner
  · intro user member acts
    obtain ⟨found, isMatch, rest⟩ := law.acting user member acts
    exact ⟨found, List.mem_append_left _ isMatch, rest⟩
  · intro found member
    rcases List.mem_append.mp member with isOld | isNew
    · exact law.confirmed found isOld
    · rw [List.mem_singleton.mp isNew]
      exact confirmed

theorem updateMatch_law
    {old row : AddressMatch} {around : Surroundings}
    (law : MatchLaw now database) (member : old ∈ database.addressMatches)
    (bound : row.sameBinding old)
    (unique : uniqueMatches (database.addressMatches.map fun found =>
      if found.id = row.id then row else found))
    (confirmed : row.matchedAt ≤ row.confirmedAt ∧ row.confirmedAt ≤ now)
    (back : row.stands = false →
      (database.account old.portalUserId).map (·.email) ≠ some old.email) :
    MatchLaw now { database with
      addressMatches := database.addressMatches.map fun found =>
        if found.id = row.id then row else found
      around := around } := by
  obtain ⟨sameId, _, _, sameAccount, sameEmail, _⟩ := bound
  have keys : (database.addressMatches.map fun found =>
      if found.id = row.id then row else found).map (·.id) =
        database.addressMatches.map (·.id) := map_replace fun _ _ same => same
  refine { law with
    matchKeys := ?_, unique := unique, owner := ?_, acting := ?_, confirmed := ?_ }
  · change (List.map _ (List.map _ database.addressMatches)).Nodup
    rw [keys]
    exact law.matchKeys
  · intro found isMatch
    rcases (mem_replace_iff member sameId.symm).mp isMatch with rfl | ⟨isOld, _⟩
    · rw [sameAccount]
      exact law.owner old member
    · exact law.owner found isOld
  · intro user isUser acts
    obtain ⟨found, isMatch, stands, account, email⟩ := law.acting user isUser acts
    by_cases isUpdated : found.id = row.id
    · have isOld : found = old := List.inj_on_of_nodup_map law.matchKeys isMatch
        member (isUpdated.trans sameId)
      subst isOld
      refine ⟨row, (mem_replace_iff member sameId.symm).mpr (Or.inl rfl), ?_,
        sameAccount.trans account, sameEmail.trans email⟩
      -- Ending it would have needed the account to have gone back.
      by_contra ended
      rw [Bool.not_eq_true] at ended
      refine back ended ?_
      have isAccount : database.account found.portalUserId = some user := by
        rw [account]
        exact find?_key_of_mem law.userKeys isUser
      rw [isAccount, Option.map_some, email]
    · exact ⟨found, (mem_replace_iff member sameId.symm).mpr
        (Or.inr ⟨isMatch, isUpdated⟩), stands, account, email⟩
  · intro found isMatch
    rcases (mem_replace_iff member sameId.symm).mp isMatch with rfl | ⟨isOld, _⟩
    · exact confirmed
    · exact law.confirmed found isOld

/-- What a revocation leaves of the account's sessions. -/
theorem revokeSessions_revokes
    {around : Surroundings} {principal correlation : Nat} {actor : Option Nat}
    {reason : AutomationEnd} :
    (∀ session ∈ (around.revokeSessions instant principal actor correlation
          reason).sessions, session.principalId = principal →
        session.live instant = false) ∧
      ∀ automation ∈ (around.revokeSessions instant principal actor correlation
          reason).automationSessions, automation.principalId = principal →
        automation.revokedAt = none → automation.expiresAt ≤ instant := by
  constructor
  · intro session member isPrincipal
    obtain ⟨before, _, rfl⟩ := List.mem_map.mp member
    by_cases revokes : before.principalId = principal ∧ before.revokedAt = none ∧
        instant < before.expiresAt ∧
        instant - sixtyMinutes < before.lastActivityAt
    · rw [if_pos revokes]
      rfl
    · rw [if_neg revokes] at isPrincipal ⊢
      by_contra isLive
      rw [Bool.not_eq_false] at isLive
      unfold PortalSession.live at isLive
      simp only [Bool.and_eq_true, decide_eq_true_eq,
        Option.isNone_iff_eq_none] at isLive
      exact revokes ⟨isPrincipal, isLive.1.1.1, isLive.1.1.2, isLive.1.2⟩
  · intro automation member isPrincipal isOpen
    obtain ⟨before, _, rfl⟩ := List.mem_map.mp member
    by_cases revokes : before.principalId = principal ∧ before.revokedAt = none ∧
        instant < before.expiresAt
    · rw [if_pos revokes] at isOpen
      cases isOpen
    · rw [if_neg revokes] at isPrincipal isOpen ⊢
      by_contra isLive
      exact revokes ⟨isPrincipal, isOpen, Int.not_le.mp isLive⟩

/-- An update of a match that stands is sound if what it writes is. -/
theorem updateMatch_sound
    {old row : AddressMatch} {around : Surroundings}
    (law : MatchLaw now database) (member : old ∈ database.addressMatches)
    (sameId : row.id = old.id) (stood : old.stands = true)
    (verified : row.stands = true → row.confirmedAt = instant ∧
      ∃ user ∈ database.users, user.id = row.portalUserId ∧
        user.verifiedIn started instant)
    (revoked : row.stands = false → (endsSessions row.endReason).isSome = true →
      (∀ session ∈ around.sessions, session.principalId = old.portalUserId →
          session.live instant = false) ∧
        ∀ automation ∈ around.automationSessions,
          automation.principalId = old.portalUserId →
          automation.revokedAt = none → automation.expiresAt ≤ instant) :
    SoundStatement started instant database { database with
      addressMatches := database.addressMatches.map fun found =>
        if found.id = row.id then row else found
      around := around } := by
  have sameRow : ∀ found ∈ database.addressMatches,
      ∀ other ∈ database.addressMatches, found.id = other.id → found = other :=
    fun found isFound other isOther =>
      List.inj_on_of_nodup_map law.matchKeys isFound isOther
  refine ⟨fun found isMatch ended => ?_, fun found isMatch stands isNew => ?_,
    fun before isBefore stands found isMatch same ended ends => ?_⟩
  · refine (mem_replace_iff member sameId.symm).mpr (Or.inr ⟨isMatch, ?_⟩)
    intro isUpdated
    rw [sameRow found isMatch old member (isUpdated.trans sameId), stood] at ended
    cases ended
  · rcases (mem_replace_iff member sameId.symm).mp isMatch with rfl | ⟨isOld, _⟩
    · exact verified stands
    · exact absurd isOld isNew
  · rcases (mem_replace_iff member sameId.symm).mp isMatch with rfl | ⟨isOld, _⟩
    · rw [sameRow before isBefore old member (same.symm.trans sameId)]
      exact revoked ended ends
    · rw [sameRow found isOld before isBefore same, stands] at ended
      cases ended

section

variable [Collation]

/-- A statement keeps the law and does to the matches only what is sound. -/
theorem run_law
    {statement : Statement} (law : MatchLaw instant database)
    (ran : statement.run started instant database = .ok next) :
    MatchLaw instant next ∧ SoundStatement started instant database next := by
  cases statement with
  | insertUser new =>
      obtain ⟨row, admitted, rest⟩ := except_bind_eq_ok ran
      split at rest <;> cases rest
      rename_i fresh
      obtain ⟨rfl, own⟩ := portalUserInsert_eq_ok admitted
      exact ⟨insertUser_law law own fresh,
        soundStatement_of_matches law.matchKeys rfl⟩
  | updateUser id new =>
      rw [Statement.run] at ran
      split at ran
      · cases ran
        exact ⟨law, soundStatement_of_matches law.matchKeys rfl⟩
      · rename_i old found
        obtain ⟨row, admitted, rest⟩ := except_bind_eq_ok ran
        cases rest
        obtain ⟨rfl, sameId, allowed⟩ := portalUserMutable_eq_ok admitted
        exact ⟨updateUser_law law (account_eq_some found).1 sameId allowed,
          soundStatement_of_matches law.matchKeys rfl⟩
  | insertMatch new =>
      obtain ⟨row, admitted, rest⟩ := except_bind_eq_ok ran
      dsimp only at rest
      split at rest <;> cases rest
      rename_i checked
      rw [not_or, not_not] at checked
      obtain ⟨isRow, open', user, member, sameId, verified⟩ :=
        matchGuardInsert_eq_ok admitted
      subst isRow
      refine ⟨insertMatch_law law checked.1 checked.2 ⟨user, member, sameId⟩
        ⟨Int.le_refl _, Int.le_refl _⟩, ?_, ?_, ?_⟩
      · exact fun found isMatch _ => List.mem_append_left _ isMatch
      · intro found isMatch _ isNew
        rcases List.mem_append.mp isMatch with isOld | isRow
        · exact absurd isOld isNew
        · rw [List.mem_singleton.mp isRow]
          exact ⟨rfl, user, member, sameId, verified⟩
      · intro old isOld stands found isMatch same ended
        rcases List.mem_append.mp isMatch with isFound | isRow
        · have isOldRow : found = old :=
            List.inj_on_of_nodup_map law.matchKeys isFound isOld same
          rw [isOldRow, stands] at ended
          cases ended
        · rw [List.mem_singleton.mp isRow] at same
          exact absurd (List.mem_map.mpr ⟨old, isOld, same.symm⟩) checked.1
  | deleteMatch id => cases ran
  | updateMatch id new clock =>
      rw [Statement.run] at ran
      split at ran
      · cases ran
        exact ⟨law, soundStatement_of_matches law.matchKeys rfl⟩
      · rename_i old found
        obtain ⟨guarded, admitted, rest⟩ := except_bind_eq_ok ran
        obtain ⟨row, mutable', rest⟩ := except_bind_eq_ok rest
        dsimp only at rest
        split at rest <;> cases rest
        rename_i unique
        rw [not_not] at unique
        obtain ⟨member, _⟩ := mem_of_find?_key found
        obtain ⟨open', bound, isGuarded⟩ := matchGuardUpdate_eq_ok admitted
        have isRow := matchMutable_eq_ok mutable'
        have stood : old.stands = true := Option.isNone_iff_eq_none.mpr open'
        have confirmedBefore := law.confirmed old member
        have sameMatched := bound.2.2.2.2.2.2.2
        cases isGuarded with
        | rechecked stands verified =>
            subst isRow
            refine ⟨updateMatch_law law member bound unique
                ⟨?_, Int.le_refl _⟩ ?_, updateMatch_sound law member bound.1 stood
                (fun _ => ⟨rfl, ?_⟩) ?_⟩
            · change new.matchedAt ≤ instant
              omega
            · intro ended
              rw [AddressMatch.stands, stands] at ended
              cases ended
            · obtain ⟨user, isUser, isOwner⟩ := law.owner old member
              have isAccount : database.account old.portalUserId = some user := by
                rw [← isOwner]
                exact find?_key_of_mem law.userKeys isUser
              exact ⟨user, isUser, isOwner.trans bound.2.2.2.1.symm,
                verified user isAccount⟩
            · intro ended
              rw [AddressMatch.stands, stands] at ended
              cases ended
        | ended confirmed back revokes =>
            subst isRow
            refine ⟨updateMatch_law law member bound unique ⟨?_, ?_⟩
                (fun _ => back), updateMatch_sound law member bound.1 stood nofun
                fun _ ends => ?_⟩
            · change new.matchedAt ≤ new.confirmedAt
              omega
            · change new.confirmedAt ≤ instant
              omega
            · obtain ⟨reason, isReason⟩ := Option.isSome_iff_exists.mp ends
              rw [revokes reason isReason]
              exact revokeSessions_revokes

/-! ## Runs -/

/-- The law holds of the database and of what a rollback goes back to. -/
structure LoginLaw (login : WebLogin) : Prop where
  database : MatchLaw login.now login.database
  saved : ∀ opened ∈ login.opened, MatchLaw login.now opened.2

theorem apply_law
    {login after : WebLogin} {event : LoginEvent} (law : LoginLaw login)
    (applied : WebLogin.apply event login = some after) : LoginLaw after := by
  cases event with
  | begin instant =>
      rw [WebLogin.apply] at applied
      split at applied <;> cases applied
      rename_i allowed
      refine ⟨law.database.later allowed.2, ?_⟩
      rintro opened ⟨⟩
      exact law.database.later allowed.2
  | statement instant statement =>
      rw [WebLogin.apply] at applied
      split at applied
      · cases applied
      · rename_i started saved isOpened
        split at applied
        · rename_i le
          split at applied <;> cases applied
          rename_i ran
          exact ⟨(run_law (law.database.later le) ran).1, fun opened isOpen =>
            (law.saved opened isOpen).later le⟩
        · cases applied
  | commit =>
      cases applied
      exact ⟨law.database, nofun⟩
  | rollback =>
      cases applied
      refine ⟨?_, nofun⟩
      cases isOpened : login.opened with
      | none => exact law.database
      | some opened => exact law.saved opened isOpened
  | surround instant around =>
      rw [WebLogin.apply] at applied
      split at applied <;> cases applied
      rename_i le
      have later := law.database.later le
      exact ⟨⟨later.userKeys, later.matchKeys, later.unique, later.owner,
        later.acting, later.confirmed⟩, fun opened isOpen =>
          (law.saved opened isOpen).later le⟩

/-- Before any match, every account acts as its own address. -/
structure Unmatched (login : WebLogin) : Prop where
  noMatch : login.database.addressMatches = []
  own : ∀ user ∈ login.database.users, ¬ user.actsAsOther
  keys : (login.database.users.map (·.id)).Nodup
  idle : login.opened = none

/-- What the two tables say of who acts as whom. -/
structure StandingLaw (database : Database) : Prop where
  acting : ∀ user ∈ database.users, user.actsAsOther →
    ∃ found ∈ database.addressMatches, found.stands = true ∧
      found.portalUserId = user.id ∧ found.email = user.email ∧
      ∀ other ∈ database.addressMatches, other.stands = true →
        other.portalUserId = user.id → other = found
  apart : ∀ user ∈ database.users, ∀ other ∈ database.users,
    user.actsAsOther → other.actsAsOther → user.email = other.email →
    user = other
  confirmed : ∀ row ∈ database.addressMatches, row.stands = true →
    row.matchedAt ≤ row.confirmedAt

omit [Collation] in
theorem MatchLaw.standing (law : MatchLaw now database) : StandingLaw database := by
  have sameMatch : ∀ {Value : Type} (value : AddressMatch → Value),
      ((database.addressMatches.filter (·.stands)).map value).Nodup →
      ∀ found ∈ database.addressMatches, found.stands = true →
      ∀ other ∈ database.addressMatches, other.stands = true →
        value found = value other → found = other :=
    fun value keys found isFound stands other isOther otherStands =>
      List.inj_on_of_nodup_map keys (List.mem_filter.mpr ⟨isFound, stands⟩)
        (List.mem_filter.mpr ⟨isOther, otherStands⟩)
  refine ⟨fun user isUser acts => ?_, fun user isUser other isOther acts
    otherActs same => ?_, fun row member _ => (law.confirmed row member).1⟩
  · obtain ⟨found, isFound, stands, account, email⟩ := law.acting user isUser acts
    refine ⟨found, isFound, stands, account, email, ?_⟩
    intro other isOther otherStands otherAccount
    exact sameMatch _ law.unique.1 other isOther otherStands found isFound stands
      (otherAccount.trans account.symm)
  · obtain ⟨found, isFound, stands, account, email⟩ := law.acting user isUser acts
    obtain ⟨second, isSecond, secondStands, secondAccount, secondEmail⟩ :=
      law.acting other isOther otherActs
    have isSame : found = second := sameMatch _ law.unique.2 found isFound stands
      second isSecond secondStands (email.trans (same.trans secondEmail.symm))
    subst isSame
    exact List.inj_on_of_nodup_map law.userKeys isUser isOther
      (account.symm.trans secondAccount)

theorem reached_law
    {start login : WebLogin} (unmatched : Unmatched start)
    (reached : Reaches WebLogin.apply anyOp start login) : LoginLaw login := by
  have noMatch : ∀ row, row ∉ start.database.addressMatches := by
    intro row member
    rw [unmatched.noMatch] at member
    cases member
  have noneOpened : ∀ opened, opened ∉ start.opened := by
    intro opened isOpened
    rw [unmatched.idle] at isOpened
    cases isOpened
  have law : LoginLaw start := {
    database := {
      userKeys := unmatched.keys
      matchKeys := by
        rw [unmatched.noMatch]
        exact List.nodup_nil
      unique := by
        rw [unmatched.noMatch]
        exact ⟨List.nodup_nil, List.nodup_nil⟩
      owner := fun row member => absurd member (noMatch row)
      acting := fun user member acts => absurd acts (unmatched.own user member)
      confirmed := fun row member => absurd member (noMatch row) }
    saved := fun opened isOpened => absurd isOpened (noneOpened opened) }
  exact reached.invariant law fun source event target law _ applied =>
    apply_law law applied

/-- An ended match is there, also after a rollback. -/
structure Keeps (row : AddressMatch) (login : WebLogin) : Prop where
  law : LoginLaw login
  database : row ∈ login.database.addressMatches
  saved : ∀ opened ∈ login.opened, row ∈ opened.2.addressMatches

theorem apply_keeps
    {login after : WebLogin} {event : LoginEvent} {row : AddressMatch}
    (ended : row.stands = false) (keeps : Keeps row login)
    (applied : WebLogin.apply event login = some after) : Keeps row after := by
  have law := apply_law keeps.law applied
  cases event with
  | begin instant =>
      rw [WebLogin.apply] at applied
      split at applied <;> cases applied
      refine ⟨law, keeps.database, ?_⟩
      rintro opened ⟨⟩
      exact keeps.database
  | statement instant statement =>
      rw [WebLogin.apply] at applied
      split at applied
      · cases applied
      · rename_i started saved isOpened
        split at applied
        · rename_i le
          split at applied <;> cases applied
          rename_i ran
          have sound := (run_law (keeps.law.database.later le) ran).2
          exact ⟨law, sound.ended row keeps.database ended, keeps.saved⟩
        · cases applied
  | commit =>
      cases applied
      exact ⟨law, keeps.database, nofun⟩
  | rollback =>
      cases applied
      refine ⟨law, ?_, nofun⟩
      cases isOpened : login.opened with
      | none => exact keeps.database
      | some opened => exact keeps.saved opened isOpened
  | surround instant around =>
      rw [WebLogin.apply] at applied
      split at applied <;> cases applied
      exact ⟨law, keeps.database, keeps.saved⟩

/-- Over every run of transactions, an account acts as another address only by
its one standing match, no two accounts act as the same one, a standing match was
confirmed in a transaction that verified its account, and what has ended stays as
it is. -/
theorem accounts_act_by_standing_matches
    {start login : WebLogin} (unmatched : Unmatched start)
    (reached : Reaches WebLogin.apply anyOp start login) :
    StandingLaw login.database ∧
      (∀ started saved instant statement after,
        login.opened = some (started, saved) → login.now ≤ instant →
        Statement.run started instant login.database statement = .ok after →
        SoundStatement started instant login.database after) ∧
      (login.opened = none → ∀ later,
        Reaches WebLogin.apply anyOp login later →
        ∀ row ∈ login.database.addressMatches, row.stands = false →
          row ∈ later.database.addressMatches) := by
  have law := reached_law unmatched reached
  refine ⟨law.database.standing, fun started saved instant statement after _ le
    ran => (run_law (law.database.later le) ran).2, ?_⟩
  intro committed later goesOn row member ended
  have noneOpened : ∀ opened, opened ∉ login.opened := by
    intro opened isOpened
    rw [committed] at isOpened
    cases isOpened
  have kept : Keeps row login := ⟨law, member, fun opened isOpened =>
    absurd isOpened (noneOpened opened)⟩
  have keeps : Keeps row later := goesOn.invariant kept
    fun source event target inv _ applied => apply_keeps ended inv applied
  exact keeps.database

end

end

/-- An account of an address no rule knows. -/
def guest : PortalUser where
  id := 1
  createdAt := 0
  actorId := none
  updatedAt := 0
  version := 1
  googleSubject := "subject".toList
  email := "guest@example.org".toList
  signInEmail := "guest@example.org".toList
  hostedDomain := none
  verifiedAt := 0
  disabled := false

/-- What the account asks to act as the user of record 7. -/
def guestMatch : AddressMatch where
  id := 5
  createdAt := 0
  actorId := none
  correlationId := 9
  updatedAt := 0
  version := 1
  email := "user@example.org".toList
  userRecordId := 7
  signInEmail := "guest@example.org".toList
  matchedAt := 0
  confirmedAt := 0
  endedAt := none
  endReason := none
  endedById := none
  endedSessionId := none
  portalUserId := 1

def guestLogin : WebLogin where
  now := 0
  database := ⟨[guest], [], ⟨some 1, [⟨1, 7, "user@example.org".toList, [.staff]⟩],
    [⟨1, some 0⟩], [], [], [], [], []⟩⟩
  opened := none

/-- One transaction: verified, matched, and acting as the user. -/
def guestMatches : List LoginEvent :=
  [.begin 100, .statement 101 (.updateUser 1 { guest with
      verifiedAt := 101, version := 2 }),
    .statement 102 (.insertMatch guestMatch),
    .statement 103 (.updateUser 1 { guest with
      verifiedAt := 103, version := 3, email := guestMatch.email }),
    .commit]

/-- The account as the transaction leaves it. -/
def guestAsUser : PortalUser :=
  { guest with
    updatedAt := 103
    verifiedAt := 103
    version := 3
    email := guestMatch.email }

def guestActing : WebLogin where
  now := 103
  database := { guestLogin.database with
    users := [guestAsUser]
    addressMatches := [{ guestMatch with
      createdAt := 102, updatedAt := 102, matchedAt := 102, confirmedAt := 102 }] }
  opened := none

theorem guest_acts_by_its_match :
    letI : Collation := ⟨id⟩
    run WebLogin.apply guestLogin guestMatches = some guestActing ∧
      guestAsUser ∈ guestActing.database.users ∧ guestAsUser.actsAsOther ∧
      ∃ found ∈ guestActing.database.addressMatches, found.stands = true ∧
        found.portalUserId = guestAsUser.id ∧ found.email = guestAsUser.email ∧
        ∀ other ∈ guestActing.database.addressMatches, other.stands = true →
          other.portalUserId = guestAsUser.id → other = found := by
  let : Collation := ⟨id⟩
  have finished : run WebLogin.apply guestLogin guestMatches = some guestActing :=
    rfl
  have allowed : AllowedRun WebLogin.apply anyOp guestLogin guestMatches :=
    allowedRun_of_invariant (fun _ => True) trivial (fun _ _ _ _ => trivial)
      fun _ _ _ _ _ _ => trivial
  have unmatched : Unmatched guestLogin := ⟨rfl, by decide, by decide, rfl⟩
  have standing := (accounts_act_by_standing_matches unmatched
    (reaches_of_run finished allowed)).1
  have isUser : guestAsUser ∈ guestActing.database.users :=
    List.mem_singleton.mpr rfl
  have acts : guestAsUser.actsAsOther := by decide
  exact ⟨finished, isUser, acts, standing.acting guestAsUser isUser acts⟩

end ParishKit.SignIn
