import ParishKit.Responses.Comparison

/-!
# Three-way field merge

`merge_value` compares the source's current value with a prior Family change in
canonical keys. A value without a canonical key makes the merge raise, which is
`none` here.
-/

namespace ParishKit.Responses

inductive MergeState where
  | current
  | sourceChanged
  | familyChanged
  | upstreamCaughtUp
  | adminResolved
  | conflict
  | unavailable
deriving DecidableEq, Repr

/-- A Family change with an optional confirmed administrative edit. -/
structure PriorChange where
  baseline : KnownValue
  submitted : Value
  resolvedAdminEdit : KnownValue

structure EffectiveValue where
  value : KnownValue
  state : MergeState
  changed : Bool
  conflict : Bool

section Merge

variable [Unicode]

/-- Whether the source holds the confirmed administrative edit. The key of the
edit is read only when there is one. -/
def holdsAdminEdit (kind : ValueKind) (edit : KnownValue) (currentKey : Key) :
    Option Bool :=
  match edit with
  | none => some false
  | some value => (fun key => decide (currentKey = key)) <$>
      canonicalValue kind value

def mergeValue (kind : ValueKind) (current : KnownValue)
    (prior : Option PriorChange) : Option EffectiveValue :=
  match prior with
  | none => do
      let _ ← knownKey kind current
      some ⟨current, if current.isSome then .current else .unavailable,
        false, false⟩
  | some prior => do
      let submitted ← canonicalValue kind prior.submitted
      let baseline ← knownKey kind prior.baseline
      if baseline = some submitted then
        match current with
        | none => some ⟨current, .unavailable, false, false⟩
        | some value => do
            let currentKey ← canonicalValue kind value
            some ⟨current,
              if some currentKey = baseline then .current else .sourceChanged,
              false, false⟩
      else
        match current with
        | none => some ⟨some prior.submitted, .unavailable, true, false⟩
        | some value => do
            let currentKey ← canonicalValue kind value
            if currentKey = submitted then
              some ⟨current, .upstreamCaughtUp, false, false⟩
            else if ← holdsAdminEdit kind prior.resolvedAdminEdit currentKey then
              some ⟨current, .adminResolved, false, false⟩
            else if baseline = some currentKey then
              some ⟨some prior.submitted, .familyChanged, true, false⟩
            else
              some ⟨some prior.submitted, .conflict, true, true⟩

/-- How the merge of an available value came out, with the keys it compared. -/
inductive MergeOutcome (current submitted : Key) (baseline : Option Key) :
    EffectiveValue → Prop where
  | unchanged {result : EffectiveValue} (answered : baseline = some submitted)
      (holds : current = submitted) (state : result.state = .current)
      (agreed : result.conflict = false) :
      MergeOutcome current submitted baseline result
  | sourceChanged {result : EffectiveValue}
      (answered : baseline = some submitted) (differs : current ≠ submitted)
      (state : result.state = .sourceChanged)
      (agreed : result.conflict = false) :
      MergeOutcome current submitted baseline result
  | caughtUp {result : EffectiveValue} (changed : baseline ≠ some submitted)
      (holds : current = submitted) (state : result.state = .upstreamCaughtUp)
      (agreed : result.conflict = false) :
      MergeOutcome current submitted baseline result
  | familyChanged {result : EffectiveValue}
      (changed : baseline ≠ some submitted) (differs : current ≠ submitted)
      (kept : baseline = some current) (state : result.state = .familyChanged)
      (agreed : result.conflict = false) :
      MergeOutcome current submitted baseline result
  | conflict {result : EffectiveValue} (changed : baseline ≠ some submitted)
      (differs : current ≠ submitted) (moved : baseline ≠ some current)
      (state : result.state = .conflict) (disagreed : result.conflict = true) :
      MergeOutcome current submitted baseline result

/-- The one inversion of `mergeValue` for an available source value and no
confirmed administrative edit. -/
theorem mergeValue_cases
    {kind : ValueKind} {value submittedValue : Value} {base : KnownValue}
    {result : EffectiveValue}
    (merged : mergeValue kind (some value)
      (some ⟨base, submittedValue, none⟩) = some result) :
    ∃ current submitted baseline,
      canonicalValue kind value = some current ∧
      canonicalValue kind submittedValue = some submitted ∧
      knownKey kind base = some baseline ∧
      MergeOutcome current submitted baseline result := by
  simp only [mergeValue, holdsAdminEdit, Option.bind_eq_bind,
    Option.bind_eq_some_iff] at merged
  obtain ⟨submitted, submittedKey, baseline, baselineKey, merged⟩ := merged
  by_cases answered : baseline = some submitted
  · rw [if_pos answered, Option.bind_eq_some_iff] at merged
    obtain ⟨current, currentKey, assembled⟩ := merged
    refine ⟨current, submitted, baseline, currentKey, submittedKey,
      baselineKey, ?_⟩
    by_cases holds : current = submitted
    · refine .unchanged answered holds ?_ ?_
      · simp [← Option.some.inj assembled, answered, holds]
      · simp [← Option.some.inj assembled]
    · refine .sourceChanged answered holds ?_ ?_
      · simp [← Option.some.inj assembled, answered, holds]
      · simp [← Option.some.inj assembled]
  · rw [if_neg answered, Option.bind_eq_some_iff] at merged
    obtain ⟨current, currentKey, assembled⟩ := merged
    refine ⟨current, submitted, baseline, currentKey, submittedKey,
      baselineKey, ?_⟩
    by_cases holds : current = submitted
    · rw [if_pos holds] at assembled
      cases assembled
      exact .caughtUp answered holds rfl rfl
    · rw [if_neg holds] at assembled
      simp only [Option.bind_some, Bool.false_eq_true, if_false] at assembled
      by_cases kept : baseline = some current
      · rw [if_pos kept] at assembled
        cases assembled
        exact .familyChanged answered holds kept rfl rfl
      · rw [if_neg kept] at assembled
        cases assembled
        exact .conflict answered holds kept rfl rfl

end Merge

end ParishKit.Responses
