import ParishKit.Jobs.OutboxJournal

/-!
# The mail journal is replay-safe

What was recorded answers its repeats for good: a repeat changes nothing, and
the same identifier with anything else is refused.
-/

namespace ParishKit.Jobs

open ParishKit.Lib

/-! ## Repeats -/

/-- The same attributed command; only its correlation may differ. -/
structure CommandHeader.Repeats (header again : CommandHeader) : Prop where
  message : again.messageId = header.messageId
  command : again.commandId = header.commandId
  version : again.expectedVersion = header.expectedVersion
  actor : again.actorId = header.actorId

/-- The same credential, possibly sealed again. -/
def Resealed (given again : Option SealedSubstitutions) : Prop :=
  again.map (·.identity) = given.map (·.identity)

/-- The same content up to the ciphertext of its credentials. -/
inductive JournalCommand.Repeats : JournalCommand → JournalCommand → Prop
  | change {options : ChangeOptions} {again : Option SealedSubstitutions}
      (resealed : Resealed options.credential again) :
      Repeats (.change options) (.change { options with credential := again })
  | prepare {render : RenderInput} {given again : Option SealedSubstitutions}
      (resealed : Resealed given again) :
      Repeats (.prepare render given) (.prepare render again)
  | hold {pauseVersion : Int} : Repeats (.hold pauseVersion) (.hold pauseVersion)
  | release : Repeats .release .release

/-- The same creation. Its command, its correlation and its earliest claim are
not part of it. -/
structure CreateCall.Repeats (call again : CreateCall) : Prop where
  identity : again.identity = call.identity
  render : again.render = call.render
  actor : again.actorId = call.actorId
  credential : Resealed call.credential again.credential

theorem resealed_isSome
    {given again : Option SealedSubstitutions}
    (resealed : Resealed given again) : again.isSome = given.isSome := by
  unfold Resealed at resealed
  rw [← Option.isSome_map (f := fun credential => credential.identity),
    resealed, Option.isSome_map]

theorem validate_resealed
    {options : ChangeOptions} {again : Option SealedSubstitutions}
    (resealed : Resealed options.credential again) :
    { options with credential := again }.validate = options.validate := by
  have given := resealed_isSome resealed
  unfold ChangeOptions.validate
  rw [given]

theorem sealedFields_resealed
    {identity : DeliveryIdentity} {given again : Option SealedSubstitutions}
    (resealed : Resealed given again)
    (accepted : ∃ sealed, sealedFields identity given = .ok sealed) :
    ∃ sealed, sealedFields identity again = .ok sealed := by
  cases given with
  | none =>
      cases again with
      | none => exact accepted
      | some _ => cases resealed
  | some given =>
      cases again with
      | none => cases resealed
      | some again =>
          unfold Resealed at resealed
          simp only [Option.map_some, Option.some.injEq,
            SealedSubstitutions.identity, CredentialIdentity.mk.injEq]
            at resealed
          obtain ⟨token, epoch⟩ := resealed
          obtain ⟨_, accepted⟩ := accepted
          unfold sealedFields at accepted ⊢
          by_cases plain : identity.credentialNamespace = .none
          · rw [if_pos plain] at accepted
            cases accepted
          · rw [if_neg plain] at accepted ⊢
            dsimp only at accepted ⊢
            rw [token, epoch]
            split at accepted
            · cases accepted
            · rename_i matched
              exact ⟨some again, if_neg matched⟩

theorem JournalCommand.Repeats.action
    {command again : JournalCommand} (repeats : command.Repeats again) :
    again.action = command.action := by
  cases repeats <;> rfl

theorem JournalCommand.Repeats.content
    {command again : JournalCommand} (repeats : command.Repeats again)
    (version : Int) : again.content version = command.content version := by
  cases repeats with
  | change resealed =>
      dsimp only [JournalCommand.content, ChangeOptions.content]
      rw [resealed]
  | prepare resealed =>
      dsimp only [JournalCommand.content]
      rw [resealed]
  | hold => rfl
  | release => rfl

variable {Digest : Type} [DecidableEq Digest] [DeliveryDigests Digest]

theorem JournalCommand.Repeats.fits
    {command again : JournalCommand} (repeats : command.Repeats again)
    {outbox : Outbox Digest} {message : OutboxMessage Digest}
    {event : OutboxEvent Digest} (fits : command.Fits outbox message event) :
    again.Fits outbox message event := by
  cases repeats with
  | change resealed =>
      obtain ⟨valid, rest⟩ := fits
      exact ⟨(validate_resealed resealed).trans valid, rest⟩
  | prepare resealed => exact fits
  | hold => exact fits
  | release => exact fits

theorem Answers.again
    {outbox : Outbox Digest} {header again : CommandHeader}
    {command other : JournalCommand} {message : OutboxMessage Digest}
    {event : OutboxEvent Digest}
    (answers : Answers outbox header command message event)
    (sameHeader : header.Repeats again) (repeats : command.Repeats other) :
    Answers outbox again other message event where
  positive := by
    rw [sameHeader.version]
    exact answers.positive
  found := by
    rw [sameHeader.message]
    exact answers.found
  recorded := by
    rw [sameHeader.message, sameHeader.command]
    exact answers.recorded
  action := answers.action.trans repeats.action.symm
  actor := answers.actor.trans sameHeader.actor.symm
  digest := by
    rw [sameHeader.version, repeats.content]
    exact answers.digest
  fits := repeats.fits answers.fits

theorem CreateAnswers.again
    {outbox : Outbox Digest} {call again : CreateCall}
    {existing : OutboxMessage Digest} {first : OutboxEvent Digest}
    (answers : CreateAnswers outbox call existing first)
    (repeats : call.Repeats again) :
    CreateAnswers outbox again existing first where
  checked := by
    rw [repeats.identity]
    exact answers.checked
  purpose := by
    rw [repeats.identity, repeats.render]
    exact answers.purpose
  credentials := by
    rw [repeats.identity]
    exact sealedFields_resealed repeats.credential answers.credentials
  found := by
    rw [repeats.identity]
    exact answers.found
  created := answers.created
  identity := answers.identity.trans repeats.identity.symm
  actor := answers.actor.trans repeats.actor.symm
  rendered := by
    rw [repeats.render]
    exact answers.rendered
  digest := by
    have credential := repeats.credential
    unfold CreateCall.content
    rw [repeats.identity, repeats.render, credential]
    exact answers.digest

/-! ## Later books -/

section Later

variable {ops : List OutboxOp} {outbox next : Outbox Digest}

theorem Answers.later
    {header : CommandHeader} {command : JournalCommand}
    {message : OutboxMessage Digest} {event : OutboxEvent Digest}
    (answers : Answers outbox header command message event)
    (grown : outbox.Grown next) (kept : OutboxInv ops next) :
    ∃ later, Answers next header command later event := by
  obtain ⟨member, isMessage⟩ := mem_of_find?_key answers.found
  obtain ⟨later, laterMember, id, identity, task⟩ :=
    grown.messages message member
  refine ⟨later, answers.positive, ?_, ?_, answers.action, answers.actor,
    answers.digest, ?_⟩
  · rw [← isMessage, ← id]
    exact kept.message?_of_mem laterMember
  · exact grown.events.find?_eq_some answers.recorded
  · exact answers.fits.mono identity task grown.tasks grown.renders

theorem CreateAnswers.later
    {call : CreateCall} {existing : OutboxMessage Digest}
    {first : OutboxEvent Digest}
    (answers : CreateAnswers outbox call existing first)
    (grown : outbox.Grown next) (kept : OutboxInv ops next) :
    ∃ later, CreateAnswers next call later first := by
  obtain ⟨member, _⟩ := semantic?_eq_some answers.found
  obtain ⟨later, laterMember, id, identity, _⟩ :=
    grown.messages existing member
  have sameIdentity := identity.trans answers.identity
  obtain ⟨render, isRender, matched⟩ := answers.rendered
  refine ⟨later, answers.checked, answers.purpose, answers.credentials,
    semantic?_of_mem kept.keys laterMember sameIdentity, ?_, sameIdentity,
    answers.actor, ⟨render, grown.renders _ _ isRender, matched⟩,
    answers.digest⟩
  rw [id]
  exact grown.events.find?_eq_some answers.created

/-- A new message answers its own creation. -/
theorem Created.answers
    {call : CreateCall} {message : OutboxMessage Digest}
    (before : OutboxInv ops outbox) (made : Created outbox next call message) :
    CreateAnswers next call message (message.history none) := by
  obtain ⟨after, _⟩ := before.created made
  have member : message ∈ next.messages := by
    rw [made.messages]
    exact List.mem_append_right _ (by simp)
  refine ⟨made.checked, made.purpose, made.credentials,
    semantic?_of_mem after.keys member made.identity, ?_, made.identity,
    made.actor, made.rendered, made.digest⟩
  have none : outbox.first? message.id = none := by
    refine List.find?_eq_none.mpr fun event eventMember => ?_
    obtain ⟨owner, ownerMember, owns⟩ := before.owned event eventMember
    have other := List.find?_eq_none.mp made.unused owner ownerMember
    rw [owns] at other
    simp only [beq_iff_eq] at other
    simp [other]
  unfold Outbox.first? at none ⊢
  rw [made.events, List.find?_append, none]
  simp [OutboxMessage.history, made.version]

end Later

/-! ## Calls after a record -/

section Runs

variable {before after : List OutboxOp} {middle final : Outbox Digest}

/-- What a command accepted in the run leaves in the books at its end. -/
theorem answers_of_run
    {header : CommandHeader} {command : JournalCommand} {seen : Findings}
    {rest : List OutboxOp}
    (reached : run OutboxOp.apply Outbox.empty before = some middle)
    (continued : run OutboxOp.apply middle
      (.command header command seen :: rest) = some final) :
    ∃ message event, Answers final header command message event := by
  rw [run_cons] at continued
  obtain ⟨next, applied, continued⟩ := Option.bind_eq_some_iff.mp continued
  have nextReached : run OutboxOp.apply Outbox.empty
      (before ++ [.command header command seen]) = some next := by
    rw [run_concat, reached]
    exact applied
  have grown := grown_of_run nextReached continued
  have kept := outboxInv_of_run (by
    rw [run_append, nextReached]
    exact continued : run OutboxOp.apply Outbox.empty
      ((before ++ [.command header command seen]) ++ rest) = some final)
  rcases apply_settled (toOption_eq_some.mp applied) with
    ⟨message, event, answers, rfl⟩ | ⟨message, saved, recorded⟩
  · obtain ⟨later, answered⟩ := answers.later grown kept
    exact ⟨later, event, answered⟩
  · obtain ⟨later, answered⟩ := recorded.answers.later grown kept
    exact ⟨later, _, answered⟩

/-- What a creation accepted in the run leaves in the books at its end. -/
theorem createAnswers_of_run
    {call : CreateCall} {seen : Findings} {rest : List OutboxOp}
    (reached : run OutboxOp.apply Outbox.empty before = some middle)
    (continued : run OutboxOp.apply middle (.create call seen :: rest) =
      some final) :
    ∃ message first, CreateAnswers final call message first ∧
      (middle.semantic? call.identity = none →
        first.commandId = call.commandId) := by
  rw [run_cons] at continued
  obtain ⟨next, applied, continued⟩ := Option.bind_eq_some_iff.mp continued
  have nextReached : run OutboxOp.apply Outbox.empty
      (before ++ [.create call seen]) = some next := by
    rw [run_concat, reached]
    exact applied
  have grown := grown_of_run nextReached continued
  have kept := outboxInv_of_run (by
    rw [run_append, nextReached]
    exact continued : run OutboxOp.apply Outbox.empty
      ((before ++ [.create call seen]) ++ rest) = some final)
  rcases createMessage_eq_ok (toOption_eq_some.mp applied) with
    ⟨existing, first, answers, rfl⟩ | ⟨message, _, made⟩
  · obtain ⟨later, answered⟩ := answers.later grown kept
    refine ⟨later, first, answered, fun unbound => ?_⟩
    rw [answers.found] at unbound
    cases unbound
  · obtain ⟨later, answered⟩ :=
      (made.answers (outboxInv_of_run reached)).later grown kept
    exact ⟨later, _, answered, fun _ => made.commandId⟩

/-- A command under a recorded identifier is that command or is refused. -/
theorem reused_command
    (collisionFree : Function.Injective
      (DeliveryDigests.command : CommandContent → Digest))
    {outbox result : Outbox Digest} {header again : CommandHeader}
    {command other : JournalCommand} {message : OutboxMessage Digest}
    {event : OutboxEvent Digest} {seen : Findings}
    (answers : Answers outbox header command message event)
    (sameMessage : again.messageId = header.messageId)
    (sameCommand : again.commandId = header.commandId)
    (accepted : other.apply again seen outbox = .ok result) :
    result = outbox ∧ other.action = command.action ∧
      again.actorId = header.actorId ∧
      other.content again.expectedVersion =
        command.content header.expectedVersion := by
  have recorded := answers.recorded
  rw [← sameMessage, ← sameCommand] at recorded
  rcases apply_settled accepted with
    ⟨_, found, answered, rfl⟩ | ⟨_, _, fresh⟩
  · have sameEvent : found = event :=
      Option.some.inj (answered.recorded.symm.trans recorded)
    subst sameEvent
    exact ⟨rfl, answered.action.symm.trans answers.action,
      answered.actor.symm.trans answers.actor,
      collisionFree (answered.digest.symm.trans answers.digest)⟩
  · rw [fresh.unused] at recorded
    cases recorded

/-- A creation for a bound identity is the recorded one or is refused. -/
theorem reused_creation
    (collisionFree : Function.Injective
      (DeliveryDigests.command : CommandContent → Digest))
    {outbox result : Outbox Digest} {call again : CreateCall}
    {message : OutboxMessage Digest} {first : OutboxEvent Digest}
    {seen : Findings}
    (answers : CreateAnswers outbox call message first)
    (sameSemantic : again.identity.semantic = call.identity.semantic)
    (accepted : createMessage outbox again seen = .ok result) :
    result = outbox ∧ again.actorId = call.actorId ∧
      again.content = call.content := by
  have found := answers.found
  rw [semantic?_eq_find?, ← sameSemantic, ← semantic?_eq_find?] at found
  rcases createMessage_eq_ok accepted with
    ⟨existing, event, answered, rfl⟩ | ⟨_, _, fresh⟩
  · have sameMessage : existing = message :=
      Option.some.inj (answered.found.symm.trans found)
    subst sameMessage
    have sameFirst : event = first :=
      Option.some.inj (answered.created.symm.trans answers.created)
    subst sameFirst
    exact ⟨rfl, answered.actor.symm.trans answers.actor,
      collisionFree (answered.digest.symm.trans answers.digest)⟩
  · rw [fresh.unbound] at found
    cases found

/-- The identifier of the creation is no later command's. -/
theorem creation_id_refused
    {ops : List OutboxOp} {outbox result : Outbox Digest} {call : CreateCall}
    {message : OutboxMessage Digest} {first : OutboxEvent Digest}
    {header : CommandHeader} {command : JournalCommand} {seen : Findings}
    (kept : OutboxInv ops outbox)
    (answers : CreateAnswers outbox call message first)
    (sameMessage : header.messageId = message.id)
    (sameCommand : header.commandId = first.commandId) :
    command.apply header seen outbox ≠ .ok result := by
  intro accepted
  obtain ⟨member, _⟩ := semantic?_eq_some answers.found
  have journalled := kept.journalled message member
  have firstMember := List.mem_of_find?_eq_some answers.created
  have matched := List.find?_some answers.created
  simp only [Bool.and_eq_true, beq_iff_eq] at matched
  have inHistory : first ∈ outbox.history message.id :=
    List.mem_filter.mpr ⟨firstMember, by simp [matched.1]⟩
  rcases apply_settled accepted with
    ⟨found, event, answered, _⟩ | ⟨_, _, fresh⟩
  · obtain ⟨made, eventHistory⟩ := answered.made
    obtain ⟨_, isFound⟩ := mem_of_find?_key answered.found
    rw [isFound, sameMessage] at eventHistory
    have sameEvent : event = first :=
      List.inj_on_of_nodup_map journalled.distinct eventHistory inHistory
        (made.commandId.trans sameCommand)
    have isCreated := (journalled.created first inHistory).mpr matched.2
    rw [← sameEvent, made.action] at isCreated
    exact action_ne_created command isCreated
  · have absent := List.find?_eq_none.mp fresh.unused first firstMember
    simp [matched.1, sameMessage, sameCommand] at absent

end Runs

/-! ## Counts -/

section Counts

variable {commands : List (CommandHeader × JournalCommand)}
  {history : List (OutboxEvent Digest)} {message : OutboxMessage Digest}

theorem Journalled.version_eq (kept : Journalled commands history message) :
    message.version =
      1 + (commands.map (·.1.commandId)).dedup.length := by
  have version := kept.version
  have numbered := kept.numbered
  have distinct := kept.distinct
  have nonempty := kept.nonempty
  obtain ⟨first, rest, rfl⟩ := List.exists_cons_of_ne_nil nonempty
  rw [List.map_cons, List.length_cons, List.range'_succ,
    List.cons.injEq] at numbered
  rw [List.map_cons, List.nodup_cons] at distinct
  have later : ∀ event ∈ rest, event.action ≠ .created := by
    intro event member isCreated
    have isFirst :=
      (kept.created event (List.mem_cons_of_mem first member)).mp isCreated
    have inRange : event.version ∈ rest.map (·.version) :=
      List.mem_map_of_mem member
    rw [numbered.2, List.mem_range'] at inRange
    obtain ⟨place, _, isAt⟩ := inRange
    omega
  have isCreated : first.action = .created :=
    (kept.created first List.mem_cons_self).mpr numbered.1
  have count : (rest.map (·.commandId)).length =
      (commands.map (·.1.commandId)).dedup.length := by
    refine length_eq_dedup distinct.2 fun id => ?_
    rw [List.mem_map, List.mem_map]
    constructor
    · rintro ⟨event, member, rfl⟩
      obtain ⟨found, foundMember, made⟩ := kept.recorded event
        (List.mem_cons_of_mem first member) (later event member)
      exact ⟨found, foundMember, made.commandId.symm⟩
    · rintro ⟨found, foundMember, rfl⟩
      obtain ⟨event, member, made⟩ := kept.accepted found foundMember
      rcases List.mem_cons.mp member with rfl | inRest
      · rw [made.action] at isCreated
        exact absurd isCreated (action_ne_created found.2)
      · exact ⟨event, inRest, made.commandId⟩
  rw [List.length_map] at count
  rw [version, List.length_cons, count, Nat.add_comm]

theorem Journalled.attempt_eq (kept : Journalled commands history message) :
    message.attempt = ((commands.filter (·.2.submits)).map
      (·.1.commandId)).dedup.length := by
  have submissions := kept.distinct.sublist
    ((List.filter_sublist (p := fun event => event.action == .delivery .submit)
      (l := history)).map (·.commandId))
  rw [kept.attempt, ← List.length_map (fun event => event.commandId)]
  refine length_eq_dedup submissions fun id => ?_
  rw [List.mem_map, List.mem_map]
  constructor
  · rintro ⟨event, member, rfl⟩
    obtain ⟨inHistory, submits⟩ := List.mem_filter.mp member
    have isSubmit : event.action = .delivery .submit := beq_iff_eq.mp submits
    obtain ⟨found, foundMember, made⟩ :=
      kept.recorded event inHistory (by simp [isSubmit])
    refine ⟨found, List.mem_filter.mpr ⟨foundMember, ?_⟩,
      made.commandId.symm⟩
    unfold JournalCommand.submits
    rw [← made.action]
    exact submits
  · rintro ⟨found, member, rfl⟩
    obtain ⟨foundMember, submits⟩ := List.mem_filter.mp member
    obtain ⟨event, inHistory, made⟩ := kept.accepted found foundMember
    refine ⟨event, List.mem_filter.mpr ⟨inHistory, ?_⟩, made.commandId⟩
    unfold JournalCommand.submits at submits
    rw [made.action]
    exact submits

end Counts

/-- Every repeat of the command returns and changes nothing, and its identifier
is refused with other content, another actor or another action. -/
def Outbox.Remembers (outbox : Outbox Digest) (header : CommandHeader)
    (command : JournalCommand) : Prop :=
  (∀ (again : CommandHeader) (other : JournalCommand) (seen : Findings),
    header.Repeats again → command.Repeats other → seen.admitted = true →
    other.apply again seen outbox = .ok outbox) ∧
  ∀ (again : CommandHeader) (other : JournalCommand) (seen : Findings)
    (result : Outbox Digest), again.messageId = header.messageId →
    again.commandId = header.commandId →
    other.apply again seen outbox = .ok result →
    result = outbox ∧ other.action = command.action ∧
      again.actorId = header.actorId ∧
      other.content again.expectedVersion =
        command.content header.expectedVersion

/-- Every repeat of the creation returns and changes nothing, and its semantic
identity is refused with other content or another actor. -/
def Outbox.RemembersCreation (outbox : Outbox Digest) (call : CreateCall) :
    Prop :=
  (∀ (again : CreateCall) (seen : Findings), call.Repeats again →
    seen.admitted = true → createMessage outbox again seen = .ok outbox) ∧
  ∀ (again : CreateCall) (seen : Findings) (result : Outbox Digest),
    again.identity.semantic = call.identity.semantic →
    createMessage outbox again seen = .ok result →
    result = outbox ∧ again.actorId = call.actorId ∧
      again.content = call.content

/-- No command on the message of `identity` is accepted under `command`. -/
def Outbox.Spends (outbox : Outbox Digest) (identity : DeliveryIdentity)
    (command : Uuid) : Prop :=
  ∃ message, outbox.semantic? identity = some message ∧
    ∀ (header : CommandHeader) (other : JournalCommand) (seen : Findings)
      (result : Outbox Digest), header.messageId = message.id →
      header.commandId = command →
      other.apply header seen outbox ≠ .ok result

/-- A digest that keeps the whole content. -/
abbrev WholeContent : Type :=
  RenderContent ⊕ CommandContent

instance : DeliveryDigests WholeContent where
  payload := Sum.inl
  command := Sum.inr

/-- An operational notice that carries no credentials. -/
def noticeCreation : CreateCall where
  identity := ⟨1, 2, .production, .operational, .operational, none, none, .none,
    none⟩
  render := ⟨.ordinary, 3, none, ⟨"", "", [], [], "", "", ""⟩⟩
  actorId := 4
  correlationId := 5
  commandId := 6
  credential := none
  notBefore := none

def quietFindings (instant : Int) : Findings where
  admitted := true
  instant := instant
  freshMessage := 7
  freshTask := 8
  freshRender := 9
  freshHold := 10
  paused := none
  guarded := true

def noticeHeader (command : Uuid) (version : Int) : CommandHeader where
  messageId := 7
  commandId := command
  expectedVersion := version
  actorId := 4
  correlationId := 5

/-- The release of a hold the notice never had. -/
def noticeRelease : OutboxOp :=
  .command (noticeHeader 11 1) .release (quietFindings 1)

end ParishKit.Jobs
