import ParishKit.Jobs.OutboxCommands
import ParishKit.Jobs.TaskChains

/-!
# Creating a message

A creation is known by its semantic identity: it makes one message with its
first event and render, or answers the message that identity already has.
-/

namespace ParishKit.Jobs

open ParishKit.Lib

/-- What one message is created for. -/
structure SemanticIdentity where
  scopeId : Uuid
  mode : DeliveryMode
  semanticKey : Uuid
deriving DecidableEq, Repr

def DeliveryIdentity.semantic (identity : DeliveryIdentity) :
    SemanticIdentity :=
  ⟨identity.scopeId, identity.mode, identity.semanticKey⟩

section Identity

variable {Digest : Type} {outbox : Outbox Digest} {identity : DeliveryIdentity}
  {message : OutboxMessage Digest}

theorem semantic?_eq_find? :
    outbox.semantic? identity = outbox.messages.find?
      fun message => message.identity.semantic == identity.semantic := by
  unfold Outbox.semantic?
  congr 1
  funext message
  rw [Bool.eq_iff_iff]
  simp [DeliveryIdentity.semantic, and_assoc]

theorem semantic?_eq_some
    (found : outbox.semantic? identity = some message) :
    message ∈ outbox.messages ∧
      message.identity.semantic = identity.semantic := by
  rw [semantic?_eq_find?] at found
  refine ⟨List.mem_of_find?_eq_some found, ?_⟩
  simpa using List.find?_some found

theorem semantic?_of_mem
    (keys : (outbox.messages.map (·.identity.semantic)).Nodup)
    (member : message ∈ outbox.messages) (same : message.identity = identity) :
    outbox.semantic? identity = some message := by
  rw [semantic?_eq_find?, ← same]
  exact find?_key_of_mem keys member

theorem semantic?_eq_none
    (absent : outbox.semantic? identity = none) :
    ∀ message ∈ outbox.messages,
      message.identity.semantic ≠ identity.semantic := by
  rw [semantic?_eq_find?] at absent
  intro message member
  simpa using List.find?_eq_none.mp absent message member

end Identity

variable {Digest : Type} [DecidableEq Digest] [DeliveryDigests Digest]

/-- The first event of a message. -/
def Outbox.first? (outbox : Outbox Digest) (message : Uuid) :
    Option (OutboxEvent Digest) :=
  outbox.events.find? fun event =>
    event.messageId == message && event.version == 1

/-- `existing` was created by this call. -/
structure CreateAnswers (outbox : Outbox Digest) (call : CreateCall)
    (existing : OutboxMessage Digest) (first : OutboxEvent Digest) : Prop where
  checked : call.identity.check = .ok ()
  purpose : validateRenderPurpose call.identity call.render = .ok ()
  credentials : ∃ sealed, sealedFields call.identity call.credential = .ok sealed
  found : outbox.semantic? call.identity = some existing
  created : outbox.first? existing.id = some first
  identity : existing.identity = call.identity
  actor : first.actorId = call.actorId
  rendered : outbox.Rendered first call.render
  digest : first.commandDigest = DeliveryDigests.command call.content

/-- A new message with its root task, first event and render. -/
structure Created (outbox next : Outbox Digest) (call : CreateCall)
    (message : OutboxMessage Digest) : Prop where
  checked : call.identity.check = .ok ()
  purpose : validateRenderPurpose call.identity call.render = .ok ()
  credentials : ∃ sealed, sealedFields call.identity call.credential = .ok sealed
  unbound : outbox.semantic? call.identity = none
  unused : outbox.message? message.id = none
  messages : next.messages = outbox.messages ++ [message]
  events : next.events = outbox.events ++ [message.history none]
  renders : ∀ id render, outbox.render? id = some render →
    next.render? id = some render
  rendered : next.Rendered (message.history none) call.render
  tasks : ∃ enqueued, enqueue outbox.tasks enqueued = .ok next.tasks
  identity : message.identity = call.identity
  version : message.version = 1
  attempt : message.attempt = 0
  action : message.action = .created
  commandId : message.commandId = call.commandId
  actor : message.actorId = call.actorId
  digest : message.commandDigest = DeliveryDigests.command call.content
  seals : message.Sealed

theorem createReplay_eq_ok
    {outbox next : Outbox Digest} {existing : OutboxMessage Digest}
    {call : CreateCall} {seen : Findings}
    (accepted : createReplay outbox existing call seen = .ok next) :
    next = outbox ∧ existing.identity = call.identity ∧
      ∃ first, outbox.first? existing.id = some first ∧
        first.actorId = call.actorId ∧ outbox.Rendered first call.render ∧
        first.commandDigest = DeliveryDigests.command call.content := by
  unfold createReplay at accepted
  split at accepted
  · cases accepted
  · rename_i first isFirst
    split at accepted
    · cases accepted
    · rename_i render isRender
      simp only [except_bind_unit, refuseWhen_eq_ok, Bool.or_eq_false_iff,
        bne_eq_false_iff_eq] at accepted
      obtain ⟨⟨⟨⟨⟨⟨identity, actor⟩, payload⟩, configuration⟩, template⟩,
        digest⟩, _, returned⟩ := accepted
      cases returned
      exact ⟨rfl, identity, first, isFirst, actor,
        ⟨render, isRender, payload, configuration, template⟩, digest⟩

theorem message_sealed
    {call : CreateCall} {seen : Findings} {task : Uuid}
    {credentials : Option SealedSubstitutions}
    {hold : Option Uuid} {pauseVersion : Option Int}
    (accepted : sealedFields call.identity call.credential = .ok credentials) :
    ((call.message seen task credentials : OutboxMessage Digest).held hold
      pauseVersion).Sealed := by
  have made : (call.message seen task credentials :
      OutboxMessage Digest).Sealed := by
    unfold CreateCall.message
    exact sealed_withCredentials rfl accepted
  exact sealed_of_unsent rfl rfl rfl rfl made

theorem createMessage_eq_ok
    {outbox next : Outbox Digest} {call : CreateCall} {seen : Findings}
    (accepted : createMessage outbox call seen = .ok next) :
    (∃ existing first, CreateAnswers outbox call existing first ∧
      next = outbox) ∨
    ∃ message, message.id = seen.freshMessage ∧
      Created outbox next call message := by
  unfold createMessage at accepted
  simp only [except_bind_unit] at accepted
  obtain ⟨checked, purpose, accepted⟩ := accepted
  obtain ⟨credentials, sealed, accepted⟩ := except_bind_eq_ok accepted
  cases found : outbox.semantic? call.identity with
  | some existing =>
      rw [found] at accepted
      obtain ⟨same, identity, first, isFirst, actor, rendered, digest⟩ :=
        createReplay_eq_ok accepted
      exact Or.inl ⟨existing, first, ⟨checked, purpose, ⟨credentials, sealed⟩,
        found, isFirst, identity, actor, rendered, digest⟩, same⟩
  | none =>
      simp only [found, except_bind_unit, refuseWhen_eq_ok] at accepted
      obtain ⟨_, unused, accepted⟩ := accepted
      have absent : outbox.message? seen.freshMessage = none := by
        simpa using unused
      obtain ⟨tasks, enqueued, accepted⟩ := except_bind_eq_ok accepted
      obtain ⟨stored, isStored, isRendered⟩ := except_bind_eq_ok accepted
      obtain ⟨message, shape, _, messages, _, events, renders, sameTasks⟩ :=
        store_eq_ok isStored
      obtain ⟨grown, kept, isKept, fields, payload⟩ :=
        render?_addRender isRendered
      obtain ⟨_, isNext⟩ := addRender_eq_ok isRendered
      obtain ⟨hold, pauseVersion, isHeld⟩ := shape
      have sameRenders : ∀ id, stored.render? id = outbox.render? id := by
        intro id
        unfold Outbox.render?
        rw [renders]
      refine Or.inr ⟨message, congrArg OutboxMessage.id isHeld, ?_⟩
      subst isHeld
      exact
        { checked := checked
          purpose := purpose
          credentials := ⟨credentials, sealed⟩
          unbound := found
          unused := absent
          messages := by
            rw [isNext]
            exact messages rfl
          events := by
            rw [isNext]
            exact events
          renders := fun id render given =>
            grown id render ((sameRenders id).trans given)
          rendered := ⟨kept, isKept, payload,
            congrArg RenderFields.configurationId fields,
            congrArg RenderFields.templateId fields⟩
          tasks := ⟨call.task seen, by
            rw [isNext]
            exact (mapError_eq_ok.mp enqueued).trans
              (congrArg Except.ok sameTasks.symm)⟩
          identity := rfl
          version := rfl
          attempt := rfl
          action := rfl
          commandId := rfl
          actor := rfl
          digest := rfl
          seals := message_sealed sealed }

/-- The repeat of a creation returns and changes nothing. -/
theorem createMessage_of_answers
    {outbox : Outbox Digest} {call : CreateCall} {seen : Findings}
    {existing : OutboxMessage Digest} {first : OutboxEvent Digest}
    (answers : CreateAnswers outbox call existing first)
    (admitted : seen.admitted = true) :
    createMessage outbox call seen = .ok outbox := by
  obtain ⟨sealed, isSealed⟩ := answers.credentials
  obtain ⟨render, isRender, payload, configuration, template⟩ :=
    answers.rendered
  have isFirst := answers.created
  unfold Outbox.first? at isFirst
  unfold createMessage
  rw [answers.checked, except_ok_bind, answers.purpose, except_ok_bind,
    isSealed, except_ok_bind]
  simp only [answers.found, createReplay, isFirst, isRender, payload,
    configuration, template, answers.identity, answers.actor, answers.digest,
    bne_self_eq_false, Bool.or_self, except_bind_unit, refuseWhen_eq_ok, admission,
    admitted]
  exact ⟨trivial, rfl, rfl⟩

end ParishKit.Jobs
