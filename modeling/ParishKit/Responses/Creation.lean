import ParishKit.Responses.Capabilities

/-!
# New rows of a Family response

The two ways a response makes a change: a fresh intent compared with the source
at this submit, and, on a form not drawn as the reviewed form, the same answer
again, which carries the earlier change's baseline, decision and edit.
-/

namespace ParishKit.Responses

/-- The execution of a new row, from its merge state. -/
def createdExecution (merge : EffectiveValue) : Execution :=
  if merge.state = .conflict then .conflict else .pending

theorem createdExecution_cases (merge : EffectiveValue) :
    createdExecution merge = .pending ∨
      createdExecution merge = .conflict := by
  unfold createdExecution
  split
  · exact Or.inr rfl
  · exact Or.inl rfl

section Creation

variable [Unicode]

/-- A new intent: its baseline is the source it was submitted against. -/
def freshChange (pk submission : Nat) (item : Item) (source : KnownValue)
    (submitted : Value) (snapshot : Nat) : Option ProposedChange := do
  let merge ← mergeValue item.field.kind source (some ⟨source, submitted, none⟩)
  let handling ← proposalHandling item submitted
  some {
    pk
    submission
    item
    baseline := source
    submittedValue := submitted
    current := source
    currentSource := snapshot
    adminValue := none
    handling
    decision := .unreviewed
    execution := createdExecution merge
    supersededBy := none
    version := 1 }

/-- The same intent again. The derived guard refuses a row whose answer is its
own baseline. An approval that rests on an accepted base is not carried. -/
def carriedChange (pk submission : Nat) (old : ProposedChange)
    (oldActiveBase : Bool) (source : KnownValue) (submitted : Value)
    (snapshot : Nat) : Option ProposedChange := do
  let kind := old.item.field.kind
  let merge ← mergeValue kind source (some ⟨old.baseline, submitted, none⟩)
  let handling ← proposalHandling old.item submitted
  let submittedKey ← canonicalValue kind submitted
  let baselineKey ← knownKey kind old.baseline
  if baselineKey = some submittedKey then
    none
  else
    some {
      pk
      submission
      item := old.item
      baseline := old.baseline
      submittedValue := submitted
      current := source
      currentSource := snapshot
      adminValue := old.adminValue
      handling
      decision :=
        if old.decision = .approved && oldActiveBase then .unreviewed
        else old.decision
      execution := createdExecution merge
      supersededBy := none
      version := 1 }

/-- Whether the source holds the submitted answer, so that it is no change. -/
def unchangedAnswer (kind : ValueKind) (source : KnownValue)
    (submitted : Value) : Bool :=
  match source with
  | some value => canonicalValue kind submitted == canonicalValue kind value
  | none => submitted == .null

end Creation

end ParishKit.Responses
