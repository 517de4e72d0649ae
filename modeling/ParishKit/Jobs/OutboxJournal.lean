import Mathlib.Data.List.Dedup
import ParishKit.Jobs.OutboxCreation

/-!
# Runs of the delivery journal

Calls on any messages, interleaved with the calls on their task runs. The
journal only grows, a message counts its recorded commands, and a recorded
command answers every later repeat.
-/

namespace ParishKit.Jobs

open ParishKit.Lib

inductive OutboxOp where
  | create (call : CreateCall) (seen : Findings)
  | command (header : CommandHeader) (command : JournalCommand)
      (seen : Findings)
  | task (op : TaskOp)

/-- The journal commands on one message. -/
def commandsOf (id : Uuid) (ops : List OutboxOp) :
    List (CommandHeader × JournalCommand) :=
  ops.filterMap fun
    | .command header command _ =>
        if header.messageId = id then some (header, command) else none
    | _ => none

def acceptedIds (id : Uuid) (ops : List OutboxOp) : List Uuid :=
  (commandsOf id ops).map (·.1.commandId)

def submittedIds (id : Uuid) (ops : List OutboxOp) : List Uuid :=
  ((commandsOf id ops).filter (·.2.submits)).map (·.1.commandId)

theorem commandsOf_concat_command
    (id : Uuid) (ops : List OutboxOp) (header : CommandHeader)
    (command : JournalCommand) (seen : Findings) :
    commandsOf id (ops ++ [.command header command seen]) =
      commandsOf id ops ++
        if header.messageId = id then [(header, command)] else [] := by
  by_cases same : header.messageId = id <;> simp [commandsOf, same]

theorem commandsOf_concat_create
    (id : Uuid) (ops : List OutboxOp) (call : CreateCall) (seen : Findings) :
    commandsOf id (ops ++ [.create call seen]) = commandsOf id ops := by
  simp [commandsOf]

theorem commandsOf_concat_task
    (id : Uuid) (ops : List OutboxOp) (op : TaskOp) :
    commandsOf id (ops ++ [.task op]) = commandsOf id ops := by
  simp [commandsOf]

variable {Digest : Type}

/-- The books only grow, and a message keeps its identity and its root task. -/
structure Outbox.Grown (outbox next : Outbox Digest) : Prop where
  messages : ∀ message ∈ outbox.messages, ∃ later ∈ next.messages,
    later.id = message.id ∧ later.identity = message.identity ∧
      later.taskId = message.taskId
  events : outbox.events <+: next.events
  renders : ∀ id render, outbox.render? id = some render →
    next.render? id = some render
  tasks : ∀ run ∈ outbox.tasks, ∃ kept ∈ next.tasks,
    kept.id = run.id ∧ kept.rootId = run.rootId

theorem Outbox.Grown.refl (outbox : Outbox Digest) : outbox.Grown outbox where
  messages := fun message member => ⟨message, member, rfl, rfl, rfl⟩
  events := List.prefix_refl _
  renders := fun _ _ given => given
  tasks := fun run member => ⟨run, member, rfl, rfl⟩

theorem Outbox.Grown.trans
    {first second third : Outbox Digest} (left : first.Grown second)
    (right : second.Grown third) : first.Grown third where
  messages message member := by
    obtain ⟨middle, middleMember, id, identity, task⟩ :=
      left.messages message member
    obtain ⟨later, laterMember, laterId, laterIdentity, laterTask⟩ :=
      right.messages middle middleMember
    exact ⟨later, laterMember, laterId.trans id, laterIdentity.trans identity,
      laterTask.trans task⟩
  events := left.events.trans right.events
  renders id render given := right.renders id render (left.renders id render given)
  tasks run member := by
    obtain ⟨middle, middleMember, id, root⟩ := left.tasks run member
    obtain ⟨later, laterMember, laterId, laterRoot⟩ :=
      right.tasks middle middleMember
    exact ⟨later, laterMember, laterId.trans id, laterRoot.trans root⟩

variable [DecidableEq Digest] [DeliveryDigests Digest]

/-- A call that raises changes nothing. -/
def OutboxOp.apply (op : OutboxOp) (outbox : Outbox Digest) :
    Option (Outbox Digest) :=
  match op with
  | .create call seen => (createMessage outbox call seen).toOption
  | .command header requested seen =>
      (requested.apply header seen outbox).toOption
  | .task op =>
      (op.apply outbox.tasks).map fun tasks => { outbox with tasks := tasks }

/-! ## The history of a message -/

def Outbox.history (outbox : Outbox Digest) (message : Uuid) :
    List (OutboxEvent Digest) :=
  outbox.events.filter fun event => event.messageId == message

/-- `event` is what this command left behind. -/
structure Made (header : CommandHeader) (command : JournalCommand)
    (event : OutboxEvent Digest) : Prop where
  commandId : event.commandId = header.commandId
  action : event.action = command.action
  actor : event.actorId = header.actorId
  digest : event.commandDigest =
    DeliveryDigests.command (command.content header.expectedVersion)

/-- A message and its history: the creation, then one event for each command
accepted since, whatever their repeats. -/
structure Journalled (commands : List (CommandHeader × JournalCommand))
    (history : List (OutboxEvent Digest)) (message : OutboxMessage Digest) :
    Prop where
  version : message.version = history.length
  attempt : message.attempt =
    (history.filter fun event => event.action == .delivery .submit).length
  numbered : history.map (·.version) = List.range' 1 history.length
  distinct : (history.map (·.commandId)).Nodup
  nonempty : history ≠ []
  created : ∀ event ∈ history, event.action = .created ↔ event.version = 1
  recorded : ∀ event ∈ history, event.action ≠ .created →
    ∃ made ∈ commands, Made made.1 made.2 event
  accepted : ∀ made ∈ commands, ∃ event ∈ history, Made made.1 made.2 event

theorem action_ne_created (command : JournalCommand) :
    command.action ≠ .created := by
  cases command <;> simp [JournalCommand.action]

/-- A repeat of a recorded command adds nothing to count. -/
theorem Journalled.repeated
    {commands : List (CommandHeader × JournalCommand)}
    {history : List (OutboxEvent Digest)} {message : OutboxMessage Digest}
    {header : CommandHeader} {command : JournalCommand}
    {event : OutboxEvent Digest}
    (kept : Journalled commands history message) (member : event ∈ history)
    (made : Made header command event) :
    Journalled (commands ++ [(header, command)]) history message where
  version := kept.version
  attempt := kept.attempt
  numbered := kept.numbered
  distinct := kept.distinct
  nonempty := kept.nonempty
  created := kept.created
  recorded other otherMember later := by
    obtain ⟨found, foundMember, same⟩ := kept.recorded other otherMember later
    exact ⟨found, List.mem_append_left _ foundMember, same⟩
  accepted other otherMember := by
    rcases List.mem_append.mp otherMember with before | now
    · exact kept.accepted other before
    · cases List.mem_singleton.mp now
      exact ⟨event, member, made⟩

/-- A recorded command is counted once. -/
theorem Journalled.concat
    {commands : List (CommandHeader × JournalCommand)}
    {history : List (OutboxEvent Digest)}
    {message saved : OutboxMessage Digest} {header : CommandHeader}
    {command : JournalCommand} {event : OutboxEvent Digest}
    (kept : Journalled commands history message)
    (version : saved.version = message.version + 1)
    (attempt : saved.attempt =
      message.attempt + if command.submits = true then 1 else 0)
    (next : event.version = saved.version)
    (made : Made header command event)
    (unused : ∀ other ∈ history, other.commandId ≠ header.commandId) :
    Journalled (commands ++ [(header, command)]) (history ++ [event])
      saved := by
  have count := kept.version
  have positive := List.length_pos_of_ne_nil kept.nonempty
  refine
    { version := ?_, attempt := ?_, numbered := ?_, distinct := ?_
      nonempty := by simp
      created := ?_, recorded := ?_, accepted := ?_ }
  · rw [version, count, List.length_append, List.length_singleton]
  · rw [attempt, kept.attempt, List.filter_append, List.length_append]
    congr 1
    unfold JournalCommand.submits
    rw [← made.action]
    by_cases submits : (event.action == .delivery .submit) = true
    · simp [submits]
    · simp [submits]
  · rw [List.map_append, kept.numbered, List.length_append,
      List.length_singleton, List.range'_concat]
    simp only [List.map_cons, List.map_nil, next, version, count]
    rw [Nat.one_mul, Nat.add_comm]
  · rw [List.map_append, List.nodup_append]
    refine ⟨kept.distinct, List.nodup_singleton _, ?_⟩
    intro first firstMember second secondMember
    obtain ⟨other, otherMember, rfl⟩ := List.mem_map.mp firstMember
    have isEvent : second = event.commandId := List.mem_singleton.mp secondMember
    rw [isEvent, made.commandId]
    exact unused other otherMember
  · intro other otherMember
    rcases List.mem_append.mp otherMember with before | now
    · exact kept.created other before
    · cases List.mem_singleton.mp now
      rw [made.action, next, version, count]
      constructor
      · exact fun isCreated => absurd isCreated (action_ne_created command)
      · intro isFirst
        omega
  · intro other otherMember later
    rcases List.mem_append.mp otherMember with before | now
    · obtain ⟨found, foundMember, same⟩ := kept.recorded other before later
      exact ⟨found, List.mem_append_left _ foundMember, same⟩
    · cases List.mem_singleton.mp now
      exact ⟨(header, command), List.mem_append_right _ (by simp), made⟩
  · intro other otherMember
    rcases List.mem_append.mp otherMember with before | now
    · obtain ⟨found, foundMember, same⟩ := kept.accepted other before
      exact ⟨found, List.mem_append_left _ foundMember, same⟩
    · cases List.mem_singleton.mp now
      exact ⟨event, List.mem_append_right _ (by simp), made⟩

/-- The history of a message that was just created. -/
theorem Journalled.single
    {message : OutboxMessage Digest} {event : OutboxEvent Digest}
    (version : message.version = 1) (attempt : message.attempt = 0)
    (first : event.version = 1) (action : event.action = .created) :
    Journalled [] [event] message where
  version := version
  attempt := by simp [attempt, action]
  numbered := by simp [first]
  distinct := List.nodup_singleton _
  nonempty := by simp
  created other member := by
    cases List.mem_singleton.mp member
    simp [first, action]
  recorded other member later := by
    cases List.mem_singleton.mp member
    exact absurd action later
  accepted other member := by cases member

theorem length_eq_dedup
    {Value : Type} [DecidableEq Value] {left right : List Value}
    (distinct : left.Nodup) (same : ∀ value, value ∈ left ↔ value ∈ right) :
    left.length = right.dedup.length := by
  refine List.Perm.length_eq
    ((List.perm_ext_iff_of_nodup distinct (List.nodup_dedup right)).mpr ?_)
  intro value
  rw [List.mem_dedup]
  exact same value

/-! ## The books -/

structure OutboxInv (ops : List OutboxOp) (outbox : Outbox Digest) : Prop where
  ids : (outbox.messages.map (·.id)).Nodup
  keys : (outbox.messages.map (·.identity.semantic)).Nodup
  owned : ∀ event ∈ outbox.events,
    ∃ message ∈ outbox.messages, message.id = event.messageId
  journalled : ∀ message ∈ outbox.messages,
    Journalled (commandsOf message.id ops) (outbox.history message.id) message
  seals : ∀ message ∈ outbox.messages, message.Sealed
  tasks : ∃ taskOps, TableInv taskOps outbox.tasks
  unknown : ∀ id, (∀ message ∈ outbox.messages, message.id ≠ id) →
    commandsOf id ops = []

theorem outboxInv_empty : OutboxInv [] (Outbox.empty : Outbox Digest) where
  ids := List.nodup_nil
  keys := List.nodup_nil
  owned := by simp [Outbox.empty]
  journalled := by simp [Outbox.empty]
  seals := by simp [Outbox.empty]
  tasks := ⟨[], tableInv_nil⟩
  unknown := fun _ _ => rfl

theorem later_tasks
    {taskOps : List TaskOp} {tasks next : TaskTable} {op : TaskOp}
    (kept : TableInv taskOps tasks) (applied : op.apply tasks = some next) :
    ∀ run ∈ tasks, ∃ later ∈ next, later.id = run.id ∧
      later.rootId = run.rootId := by
  intro run member
  obtain ⟨later, laterMember, grown⟩ := later_of_step op kept applied run member
  exact ⟨later, laterMember, congrArg TaskBindings.id grown.bindings,
    congrArg TaskBindings.rootId grown.bindings⟩

section Invariant

variable {ops : List OutboxOp} {outbox next : Outbox Digest}

theorem OutboxInv.message?_of_mem
    (kept : OutboxInv ops outbox) {message : OutboxMessage Digest}
    (member : message ∈ outbox.messages) :
    outbox.message? message.id = some message :=
  find?_key_of_mem kept.ids member

theorem OutboxInv.relabel
    {more : List OutboxOp} (kept : OutboxInv ops outbox)
    (same : ∀ id, commandsOf id more = commandsOf id ops) :
    OutboxInv more outbox where
  ids := kept.ids
  keys := kept.keys
  owned := kept.owned
  journalled message member := by
    rw [same]
    exact kept.journalled message member
  seals := kept.seals
  tasks := kept.tasks
  unknown id absent := (same id).trans (kept.unknown id absent)

theorem OutboxInv.created
    {call : CreateCall} {message : OutboxMessage Digest}
    (kept : OutboxInv ops outbox) (made : Created outbox next call message) :
    OutboxInv ops next ∧ outbox.Grown next := by
  have fresh : ∀ other ∈ outbox.messages, other.id ≠ message.id := by
    intro other member
    simpa using List.find?_eq_none.mp made.unused other member
  have noEvents : ∀ event ∈ outbox.events, event.messageId ≠ message.id := by
    intro event member same
    obtain ⟨owner, ownerMember, owns⟩ := kept.owned event member
    exact fresh owner ownerMember (owns.trans same)
  obtain ⟨taskOps, taskInv⟩ := kept.tasks
  obtain ⟨enqueued, isEnqueued⟩ := made.tasks
  have applied : (TaskOp.enqueue enqueued).apply outbox.tasks =
      some next.tasks := toOption_eq_some.mpr isEnqueued
  have history : ∀ id, next.history id = outbox.history id ++
      if message.id = id then [message.history none] else [] := by
    intro id
    unfold Outbox.history
    rw [made.events, List.filter_append]
    congr 1
    by_cases same : message.id = id <;> simp [OutboxMessage.history, same]
  refine ⟨?_, ?_⟩
  · exact
      { ids := by
          rw [made.messages, List.map_append, List.nodup_append]
          refine ⟨kept.ids, List.nodup_singleton _, ?_⟩
          intro first firstMember second secondMember
          obtain ⟨other, otherMember, rfl⟩ := List.mem_map.mp firstMember
          have isMessage : second = message.id :=
            List.mem_singleton.mp secondMember
          rw [isMessage]
          exact fresh other otherMember
        keys := by
          rw [made.messages, List.map_append, List.nodup_append]
          refine ⟨kept.keys, List.nodup_singleton _, ?_⟩
          intro first firstMember second secondMember
          obtain ⟨other, otherMember, rfl⟩ := List.mem_map.mp firstMember
          have isMessage : second = message.identity.semantic :=
            List.mem_singleton.mp secondMember
          rw [isMessage, made.identity]
          exact semantic?_eq_none made.unbound other otherMember
        owned := by
          intro event member
          rw [made.events] at member
          rw [made.messages]
          rcases List.mem_append.mp member with before | now
          · obtain ⟨owner, ownerMember, owns⟩ := kept.owned event before
            exact ⟨owner, List.mem_append_left _ ownerMember, owns⟩
          · cases List.mem_singleton.mp now
            exact ⟨message, List.mem_append_right _ (by simp), rfl⟩
        journalled := by
          intro other member
          rw [made.messages] at member
          rcases List.mem_append.mp member with before | now
          · rw [history, if_neg (fresh other before).symm, List.append_nil]
            exact kept.journalled other before
          · cases List.mem_singleton.mp now
            have empty : outbox.history message.id = [] := by
              unfold Outbox.history
              rw [List.filter_eq_nil_iff]
              intro event eventMember
              simpa using noEvents event eventMember
            rw [history, if_pos rfl, empty, kept.unknown message.id fresh]
            exact Journalled.single made.version made.attempt made.version
              made.action
        seals := by
          intro other member
          rw [made.messages] at member
          rcases List.mem_append.mp member with before | now
          · exact kept.seals other before
          · cases List.mem_singleton.mp now
            exact made.seals
        tasks := ⟨_, taskInv.step _ applied⟩
        unknown := by
          intro id absent
          refine kept.unknown id fun other member => absent other ?_
          rw [made.messages]
          exact List.mem_append_left _ member }
  · exact
      { messages := by
          intro other member
          refine ⟨other, ?_, rfl, rfl, rfl⟩
          rw [made.messages]
          exact List.mem_append_left _ member
        events := by
          rw [made.events]
          exact List.prefix_append _ _
        renders := made.renders
        tasks := later_tasks taskInv applied }

/-- The event that answers a command is its record. -/
theorem Answers.made
    {header : CommandHeader} {command : JournalCommand}
    {message : OutboxMessage Digest} {event : OutboxEvent Digest}
    (answers : Answers outbox header command message event) :
    Made header command event ∧ event ∈ outbox.history message.id := by
  have member := List.mem_of_find?_eq_some answers.recorded
  have matched := List.find?_some answers.recorded
  obtain ⟨_, isMessage⟩ := mem_of_find?_key answers.found
  simp only [Bool.and_eq_true, beq_iff_eq] at matched
  refine ⟨⟨matched.2, answers.action, answers.actor, answers.digest⟩, ?_⟩
  unfold Outbox.history
  rw [List.mem_filter]
  exact ⟨member, by rw [matched.1, isMessage]; exact beq_self_eq_true _⟩

theorem OutboxInv.answered
    {header : CommandHeader} {command : JournalCommand} {seen : Findings}
    {message : OutboxMessage Digest} {event : OutboxEvent Digest}
    (kept : OutboxInv ops outbox)
    (answers : Answers outbox header command message event) :
    OutboxInv (ops ++ [.command header command seen]) outbox := by
  obtain ⟨member, isMessage⟩ := mem_of_find?_key answers.found
  obtain ⟨made, recorded⟩ := answers.made
  exact
    { ids := kept.ids
      keys := kept.keys
      owned := kept.owned
      journalled := by
        intro other otherMember
        rw [commandsOf_concat_command]
        by_cases same : header.messageId = other.id
        · have isOther : other = message :=
            List.inj_on_of_nodup_map kept.ids otherMember member
              (same.symm.trans isMessage.symm)
          subst isOther
          rw [if_pos same]
          exact (kept.journalled other otherMember).repeated recorded made
        · rw [if_neg same, List.append_nil]
          exact kept.journalled other otherMember
      seals := kept.seals
      tasks := kept.tasks
      unknown := by
        intro id absent
        have different : header.messageId ≠ id := by
          rw [← isMessage]
          exact absent message member
        rw [commandsOf_concat_command, if_neg different, List.append_nil]
        exact kept.unknown id absent }

theorem OutboxInv.recorded
    {header : CommandHeader} {command : JournalCommand} {seen : Findings}
    {message saved : OutboxMessage Digest}
    (kept : OutboxInv ops outbox)
    (recorded : Recorded outbox next header command message saved) :
    OutboxInv (ops ++ [.command header command seen]) next ∧
      outbox.Grown next := by
  obtain ⟨member, isMessage⟩ := mem_of_find?_key recorded.found
  have draft := recorded.draft
  have isRow : ∀ other ∈ outbox.messages, other.id = saved.id →
      other = message := fun other otherMember same =>
    List.inj_on_of_nodup_map kept.ids otherMember member
      (same.trans draft.id)
  have membership : ∀ other, other ∈ next.messages ↔
      other = saved ∨ (other ∈ outbox.messages ∧ other.id ≠ saved.id) := by
    intro other
    rw [recorded.messages]
    exact mem_replace_iff member draft.id.symm
  have sameMap : ∀ {Value : Type} (value : OutboxMessage Digest → Value),
      value saved = value message →
      next.messages.map value = outbox.messages.map value := by
    intro Value value same
    rw [recorded.messages]
    refine map_replace fun other otherMember isSaved => ?_
    rw [isRow other otherMember isSaved, same]
  have history : ∀ id, next.history id = outbox.history id ++
      if header.messageId = id then [saved.history (some message.state)]
      else [] := by
    intro id
    have owner : saved.id = header.messageId := draft.id.trans isMessage
    unfold Outbox.history
    rw [recorded.events, List.filter_append]
    congr 1
    by_cases same : header.messageId = id <;>
      simp [OutboxMessage.history, owner, same]
  have made : Made header command (saved.history (some message.state)) :=
    ⟨draft.commandId, draft.action, draft.actor, draft.digest⟩
  have unused : ∀ other ∈ outbox.history header.messageId,
      other.commandId ≠ header.commandId := by
    intro other otherMember
    unfold Outbox.history at otherMember
    rw [List.mem_filter] at otherMember
    obtain ⟨otherMember, sameMessage⟩ := otherMember
    have fresh := List.find?_eq_none.mp recorded.unused other otherMember
    simpa [beq_iff_eq.mp sameMessage] using fresh
  refine ⟨?_, ?_⟩
  · exact
      { ids := by
          rw [sameMap (·.id) draft.id]
          exact kept.ids
        keys := by
          rw [sameMap (·.identity.semantic)
            (congrArg DeliveryIdentity.semantic draft.identity)]
          exact kept.keys
        owned := by
          intro event eventMember
          rw [recorded.events] at eventMember
          rcases List.mem_append.mp eventMember with before | now
          · obtain ⟨owner, ownerMember, owns⟩ := kept.owned event before
            by_cases isSaved : owner.id = saved.id
            · exact ⟨saved, (membership saved).mpr (Or.inl rfl),
                isSaved.symm.trans owns⟩
            · exact ⟨owner, (membership owner).mpr
                (Or.inr ⟨ownerMember, isSaved⟩), owns⟩
          · cases List.mem_singleton.mp now
            exact ⟨saved, (membership saved).mpr (Or.inl rfl), rfl⟩
        journalled := by
          intro other otherMember
          rw [commandsOf_concat_command, history]
          rcases (membership other).mp otherMember with rfl | ⟨before, different⟩
          · have same : header.messageId = other.id :=
              (draft.id.trans isMessage).symm
            rw [if_pos same, if_pos same, ← same]
            have journalled := kept.journalled message member
            rw [isMessage] at journalled
            exact journalled.concat draft.version draft.attempt rfl made unused
          · have notSame : header.messageId ≠ other.id := by
              rw [← isMessage, ← draft.id]
              exact different.symm
            rw [if_neg notSame, if_neg notSame, List.append_nil,
              List.append_nil]
            exact kept.journalled other before
        seals := by
          intro other otherMember
          rcases (membership other).mp otherMember with rfl | ⟨before, _⟩
          · exact draft.seals (kept.seals message member)
          · exact kept.seals other before
        tasks := by
          rw [draft.tasks]
          exact kept.tasks
        unknown := by
          intro id absent
          have different : header.messageId ≠ id := by
            rw [← isMessage, ← draft.id]
            exact absent saved ((membership saved).mpr (Or.inl rfl))
          rw [commandsOf_concat_command, if_neg different, List.append_nil]
          refine kept.unknown id fun other otherMember => ?_
          by_cases isSaved : other.id = saved.id
          · rw [isSaved]
            exact absent saved ((membership saved).mpr (Or.inl rfl))
          · exact absent other ((membership other).mpr
              (Or.inr ⟨otherMember, isSaved⟩)) }
  · exact
      { messages := by
          intro other otherMember
          by_cases isSaved : other.id = saved.id
          · have isOther := isRow other otherMember isSaved
            subst isOther
            exact ⟨saved, (membership saved).mpr (Or.inl rfl), isSaved.symm,
              draft.identity, draft.task⟩
          · exact ⟨other, (membership other).mpr
              (Or.inr ⟨otherMember, isSaved⟩), rfl, rfl, rfl⟩
        events := by
          rw [recorded.events]
          exact List.prefix_append _ _
        renders := draft.renders
        tasks := by
          rw [draft.tasks]
          exact fun run runMember => ⟨run, runMember, rfl, rfl⟩ }

theorem OutboxInv.step
    (op : OutboxOp) (kept : OutboxInv ops outbox)
    (applied : op.apply outbox = some next) :
    OutboxInv (ops ++ [op]) next ∧ outbox.Grown next := by
  cases op with
  | create call seen =>
      rcases createMessage_eq_ok (toOption_eq_some.mp applied) with
        ⟨_, _, _, rfl⟩ | ⟨message, _, made⟩
      · exact ⟨kept.relabel fun id => commandsOf_concat_create id ops call seen,
          Outbox.Grown.refl next⟩
      · obtain ⟨inv, grown⟩ := kept.created made
        exact ⟨inv.relabel fun id => commandsOf_concat_create id ops call seen,
          grown⟩
  | command header command seen =>
      rcases apply_settled (toOption_eq_some.mp applied) with
        ⟨_, _, answers, rfl⟩ | ⟨_, _, recorded⟩
      · exact ⟨kept.answered answers, Outbox.Grown.refl next⟩
      · exact kept.recorded recorded
  | task op =>
      obtain ⟨tasks, moved, rfl⟩ := Option.map_eq_some_iff.mp applied
      obtain ⟨taskOps, taskInv⟩ := kept.tasks
      refine ⟨?_, ⟨?_, List.prefix_refl _, fun _ _ given => given,
        later_tasks taskInv moved⟩⟩
      · refine OutboxInv.relabel ?_ fun id => commandsOf_concat_task id ops op
        exact ⟨kept.ids, kept.keys, kept.owned, kept.journalled, kept.seals,
          ⟨_, taskInv.step op moved⟩, kept.unknown⟩
      · exact fun message member => ⟨message, member, rfl, rfl, rfl⟩

end Invariant

theorem outboxInv_of_run
    {ops : List OutboxOp} {outbox : Outbox Digest}
    (finished : run OutboxOp.apply Outbox.empty ops = some outbox) :
    OutboxInv ops outbox :=
  run_invariant finished outboxInv_empty fun _ _ op _ _ kept applied =>
    (kept.step op applied).1

theorem grown_of_run
    {before after : List OutboxOp} {middle final : Outbox Digest}
    (reached : run OutboxOp.apply Outbox.empty before = some middle)
    (continued : run OutboxOp.apply middle after = some final) :
    middle.Grown final := by
  induction after generalizing before middle with
  | nil =>
      cases continued
      exact Outbox.Grown.refl _
  | cons op after inductionHypothesis =>
      rw [run_cons] at continued
      obtain ⟨next, applied, rest⟩ := Option.bind_eq_some_iff.mp continued
      have nextReached : run OutboxOp.apply Outbox.empty (before ++ [op]) =
          some next := by
        rw [run_concat, reached]
        exact applied
      have step := ((outboxInv_of_run reached).step op applied).2
      exact step.trans (inductionHypothesis nextReached rest)

end ParishKit.Jobs
