import ParishKit.Responses.ReadBack

/-!
# Publishing is idempotent

Planning again over the record a plan expects finds every written field in
ParishSoft, writes nothing, and leaves every other outcome as it was.
-/

namespace ParishKit.Responses

open ParishKit.Lib

/-! ## The expected record -/

/-- No two fields are written under one name. -/
theorem capability_injective
    {left right : MemberField} {provider : String}
    (ofLeft : left.capability = ⟨.api, some provider⟩)
    (ofRight : right.capability = ⟨.api, some provider⟩) : left = right := by
  rw [← ofLeft] at ofRight
  revert ofRight
  cases left <;> cases ofLeft <;> cases right <;> decide

theorem applyWrites_of_not_mem
    {record : ContactRecord} {writes : List (String × Text)} {provider : String}
    (unwritten : provider ∉ writes.map Prod.fst) :
    applyWrites record writes provider = record provider := by
  unfold applyWrites
  have none' : writes.find? (fun write => write.1 == provider) = none := by
    rw [List.find?_eq_none]
    intro write member same
    exact unwritten (List.mem_map.mpr ⟨write, member, beq_iff_eq.mp same⟩)
  rw [none']

theorem applyWrites_of_mem
    {record : ContactRecord} {writes : List (String × Text)}
    {provider : String} {text : Text} (member : (provider, text) ∈ writes)
    (only : ∀ other, (provider, other) ∈ writes → other = text) :
    applyWrites record writes provider = some (.text text) := by
  unfold applyWrites
  cases found : writes.find? (fun write => write.1 == provider) with
  | none =>
      rw [List.find?_eq_none] at found
      exact absurd (beq_self_eq_true provider) (found _ member)
  | some write =>
      have named : write.1 = provider := by
        simpa using List.find?_some found
      have isWrite : (provider, write.2) ∈ writes :=
        named ▸ List.mem_of_find?_eq_some found
      exact congrArg (fun other => some (RawValue.text other)) (only write.2 isWrite)

theorem clearsValue_of_writableText
    {provider : String} {row : ProposedChange} {encoded : Text}
    (writable : writableText provider row = some encoded) :
    clearsValue row.carried = false := by
  obtain ⟨⟨value, carried, encodes⟩, nonblank, _⟩ :=
    writesText_of_writableText writable
  rw [carried]
  by_contra clears
  rw [Bool.not_eq_false, clearsValue, Bool.or_eq_true, beq_iff_eq,
    beq_iff_eq] at clears
  rcases clears with blank | blank
  · cases blank
    cases encodes
  · cases blank
    rw [encodeMemberValue, if_neg (by simp)] at encodes
    cases encodes
    exact nonblank rfl

section

variable [Unicode] [IsoDates]

/-! ## One field -/

/-- The outcome of a field when the plan's writes are found in the record. -/
def FieldPlan.readBack (plan : FieldPlan) : FieldPlan :=
  if plan.outcome = .write then { plan with outcome := .alreadyInParishSoft }
  else plan

/-- What the plan of one change rests on. -/
inductive PlannedChange (entityKind : EntityKind) (change : Change)
    (record : ContactRecord) : FieldPlan × Option (String × Text) → Prop where
  /-- The record is not read. -/
  | apart (plan : FieldPlan) (kept : plan.outcome ≠ .write)
      (always : ∀ other, planField entityKind change other = some (plan, none)) :
      PlannedChange entityKind change record (plan, none)
  | evaluated {field : MemberField} {provider : String} {encoded : Text}
      (ofMember : change.row.item.field = .member field)
      (capable : field.capability = ⟨.api, some provider⟩)
      (approved : change.row.decision = .approved)
      (automatic : change.row.handling = .api)
      (writable : writableText provider change.row = some encoded)
      (always : ∀ other, planField entityKind change other =
        some (⟨change.row.pk, .member field,
            evaluate change field.definition provider other⟩,
          if evaluate change field.definition provider other = .write then
            some (provider, encoded) else none)) :
      PlannedChange entityKind change record
        (⟨change.row.pk, .member field,
            evaluate change field.definition provider (some record)⟩,
          if evaluate change field.definition provider (some record) = .write then
            some (provider, encoded) else none)

theorem plannedChange_of_planField
    {entityKind : EntityKind} {change : Change} {record : ContactRecord}
    {result : FieldPlan × Option (String × Text)}
    (planned : planField entityKind change (some record) = some result) :
    PlannedChange entityKind change record result := by
  unfold planField at planned
  dsimp only at planned
  split at planned
  · cases planned
  rename_i known registered
  split at planned
  · rename_i provider definition isApi atProvider found
    split at planned
    · rename_i notWritable
      cases planned
      refine .apart _ nofun fun other => ?_
      simp only [planField, registered, isApi, atProvider, found, notWritable]
    · rename_i encoded writable
      split at planned
      · rename_i refused
        cases planned
        refine .apart _ nofun fun other => ?_
        simp only [planField, registered, isApi, atProvider, found, writable,
          if_pos refused]
      · rename_i admitted
        split at planned
        · rename_i undecided
          cases planned
          refine .apart _ nofun fun other => ?_
          simp only [planField, registered, isApi, atProvider, found, writable,
            if_neg admitted, if_pos undecided]
        · rename_i approved
          cases planned
          have always : ∀ other, planField entityKind change other =
              some (⟨change.row.pk, change.row.item.field,
                  evaluate change definition provider other⟩,
                if evaluate change definition provider other = .write then
                  some (provider, encoded) else none) := by
            intro other
            simp only [planField, registered, isApi, atProvider, found, writable,
              if_neg admitted, if_neg approved]
          simp only [not_or, not_not] at admitted approved
          obtain ⟨rfl, automatic⟩ := admitted
          cases ofField : change.row.item.field with
          | member field =>
              rw [ofField] at registered found
              cases registered
              cases found
              rw [ofField] at always
              have capable : field.capability = ⟨.api, some provider⟩ := by
                rw [← isApi, ← atProvider]
              exact .evaluated ofField capable approved automatic writable always
          | request field =>
              rw [ofField] at registered
              cases registered
              cases isApi
          | family field =>
              rw [ofField] at registered
              cases registered
          | newMember =>
              rw [ofField] at registered
              cases registered
  · rename_i noApi
    cases planned
    refine .apart _ nofun fun other => ?_
    unfold planField
    dsimp only
    rw [registered]
    split
    · rename_i shape
      cases shape
    · rename_i found same
      cases same
      split
      · rename_i isApi atProvider definition
        exact absurd definition (noApi _ _ isApi atProvider)
      · rfl

/-! ## The value written -/

omit [IsoDates] in
/-- The merge over the submitted value itself has nothing to write. -/
theorem mergeValue_submitted
    {kind : ValueKind} {value : Value} {base : KnownValue} {key : Key}
    {baseline : Option Key} (valueKey : canonicalValue kind value = some key)
    (baseKey : knownKey kind base = some baseline) :
    ∃ result, mergeValue kind (some value) (some ⟨base, value, none⟩) =
        some result ∧
      (result.state = .current ∨ result.state = .upstreamCaughtUp) := by
  unfold mergeValue
  simp only [Option.bind_eq_bind, valueKey, baseKey, Option.bind_some]
  by_cases answered : baseline = some key
  · rw [if_pos answered, if_pos answered.symm]
    exact ⟨_, rfl, Or.inl rfl⟩
  · rw [if_neg answered, if_pos trivial]
    exact ⟨_, rfl, Or.inr rfl⟩

/-- Planning over the value carried forward finds it in ParishSoft. -/
theorem evaluate_over_carried
    {change : Change} {field : MemberField} {provider : String} {raw : RawValue}
    {record expected : ContactRecord}
    (write : evaluate change field.definition provider (some record) = .write)
    (holds : expected provider = some raw)
    (decodes : decodeMemberValue field.definition raw = some change.row.carried) :
    evaluate change field.definition provider (some expected) =
      .alreadyInParishSoft := by
  unfold evaluate at write ⊢
  split at write
  · cases write
  rename_i noConflict
  split at write
  · cases write
  split at write
  · cases write
  rename_i merge evaluated
  simp only [Option.bind_eq_bind, Option.bind_eq_some_iff] at evaluated
  obtain ⟨_, _, merged⟩ := evaluated
  obtain ⟨_, submitted, baseline, _, submittedKey, baselineKey, _⟩ :=
    mergeValue_cases merged
  obtain ⟨result, mergedAgain, settled⟩ :=
    mergeValue_submitted submittedKey baselineKey
  rw [if_neg noConflict, Option.bind_some, holds]
  dsimp only
  rw [decodes, Option.bind_eq_bind, Option.bind_some, mergedAgain]
  rcases settled with state | state
  · exact (congrArg mergeOutcome state).trans rfl
  · exact (congrArg mergeOutcome state).trans rfl

/-- What a record holds under the field's name decides its evaluation. -/
theorem evaluate_congr
    {change : Change} {definition : CensusField} {provider : String}
    {record other : ContactRecord} (same : other provider = record provider) :
    evaluate change definition provider (some other) =
      evaluate change definition provider (some record) := by
  unfold evaluate
  rw [Option.bind_some, Option.bind_some, same]

/-! ## The whole plan -/

variable [LawfulUnicode] [LawfulIsoDates] [EmailValidator] [PhoneNumbers]

/-- One change planned again over a record that holds what it wrote, or what it
read when it wrote nothing. -/
theorem planField_again
    {entityKind : EntityKind} {change : Change} {record expected : ContactRecord}
    {result : FieldPlan × Option (String × Text)}
    (planned : PlannedChange entityKind change record result)
    (accepted : change.row.decision = .approved → change.row.handling = .api →
      Accepted change.row.item.field change.row.carried)
    (wrote : ∀ provider encoded, result.2 = some (provider, encoded) →
      expected provider = some (.text encoded))
    (left : ∀ field provider, change.row.item.field = .member field →
      field.capability = ⟨.api, some provider⟩ → result.2 = none →
      expected provider = record provider) :
    planField entityKind change (some expected) =
      some (result.1.readBack, none) := by
  cases planned with
  | apart plan kept always =>
      rw [always, FieldPlan.readBack, if_neg kept]
  | @evaluated field provider encoded ofMember capable approved automatic writable
      always =>
      rw [always]
      by_cases write :
          evaluate change field.definition provider (some record) = .write
      · have holds := wrote provider encoded (if_pos write)
        have api : field.capability.handling = .api := by rw [capable]
        have stored := accepted approved automatic
        rw [ofMember] at stored
        obtain ⟨scalar, carried, shape⟩ := stored_of_accepted api stored
          (clearsValue_of_writableText writable)
        obtain ⟨⟨value, isCarried, encodes⟩, nonblank, _⟩ :=
          writesText_of_writableText writable
        rw [carried] at isCarried
        cases isCarried
        rw [ofMember] at encodes
        have given : encoded ≠ [] := by
          rintro rfl
          exact nonblank rfl
        have decodes := decode_encode api shape encodes given
        rw [← carried] at decodes
        have settled := evaluate_over_carried write holds decodes
        rw [settled, write, FieldPlan.readBack, if_pos rfl, if_neg nofun]
      · have same := left field provider ofMember capable (if_neg write)
        rw [evaluate_congr same, if_neg write, FieldPlan.readBack, if_neg write]

omit [LawfulUnicode] [LawfulIsoDates] [EmailValidator] [PhoneNumbers] in
/-- The parts of a plan that has a payload. -/
theorem planEntity_payload
    {payloadDigest : ContactRecord → String} {entityKind : EntityKind}
    {entityKey : String} {changes : List Change} {record : ContactRecord}
    {plan : EntityPlan} {writes : List (String × Text)}
    (planned : planEntity payloadDigest entityKind entityKey changes (some record) =
      some plan) (payload : plan.payload = some writes) :
    ∃ (ordered : List Change) (rows : List (FieldPlan × Option (String × Text))),
      (∀ change ∈ ordered, change ∈ changes ∧ change.row.plannable = true) ∧
      (ordered.map fun change => change.row.item.field).Nodup ∧
      (ordered.mapM fun change => planField entityKind change (some record)) =
        some rows ∧
      plan.fields = rows.map Prod.fst ∧ writes = rows.filterMap Prod.snd ∧
      (∀ row ∈ rows, row.1.outcome.blocking = false) ∧
      ∀ other fresh, (ordered.mapM fun change =>
          planField entityKind change (some other)) = some fresh →
        fresh.filterMap Prod.snd = [] →
        planEntity payloadDigest entityKind entityKey changes (some other) =
          some ⟨entityKind, entityKey, fresh.map Prod.fst,
            (fresh.map Prod.fst).any (·.outcome.blocking), none, none, none⟩ := by
  unfold planEntity at planned
  dsimp only at planned
  split at planned
  · cases planned
  rename_i distinct
  rw [not_not] at distinct
  obtain ⟨rows, traversed, assembled⟩ := Option.bind_eq_some_iff.mp planned
  split at assembled
  · cases assembled
    cases payload
  rename_i unblocked
  cases assembled
  cases payload
  rw [Bool.or_eq_true, not_or, Bool.not_eq_true, List.any_eq_false] at unblocked
  refine ⟨_, rows, fun change member => ?_, ?_, traversed, rfl, rfl, ?_, ?_⟩
  · obtain ⟨inChanges, plannable⟩ :=
      List.mem_filter.mp ((List.mem_insertionSort _).mp member)
    exact ⟨inChanges, plannable⟩
  · exact ((List.perm_insertionSort _ _).map _).nodup_iff.mpr distinct
  · intro row member
    have free := unblocked.1 row.1 (List.mem_map.mpr ⟨row, member, rfl⟩)
    exact Bool.not_eq_true _ ▸ free
  · intro other fresh again nothing
    unfold planEntity
    dsimp only
    rw [if_neg (not_not.mpr distinct), again, Option.bind_eq_bind,
      Option.bind_some, nothing]
    rw [List.isEmpty_nil, Bool.or_true, if_pos rfl]

/-- Publishing is idempotent under read-back. -/
theorem publish_again
    {payloadDigest : ContactRecord → String} {entityKind : EntityKind}
    {entityKey : String} {changes : List Change} {record : ContactRecord}
    {plan : EntityPlan} {writes : List (String × Text)}
    (accepted : ∀ change ∈ changes, change.row.plannable = true →
      change.row.decision = .approved → change.row.handling = .api →
      Accepted change.row.item.field change.row.carried)
    (planned : planEntity payloadDigest entityKind entityKey changes (some record) =
      some plan) (payload : plan.payload = some writes) :
    ∃ again, planEntity payloadDigest entityKind entityKey changes
        (some (applyWrites record writes)) = some again ∧
      again.fields = plan.fields.map FieldPlan.readBack ∧
      (∀ field ∈ again.fields, field.outcome ≠ .write) ∧
      again.blocked = false ∧ again.payload = none := by
  obtain ⟨ordered, rows, fromChanges, distinct, traversed, fields, isWrites,
    unblocked, replanned⟩ := planEntity_payload planned payload
  have each := option_mapM_eq_some traversed
  -- What is written under a name is written by the one change of its field.
  have writer : ∀ provider text, (provider, text) ∈ writes →
      ∃ change ∈ ordered, ∃ field plan, change.row.item.field = .member field ∧
        field.capability = ⟨.api, some provider⟩ ∧
        planField entityKind change (some record) =
          some (plan, some (provider, text)) := by
    intro provider text member
    rw [isWrites] at member
    obtain ⟨row, isRow, isWrite⟩ := List.mem_filterMap.mp member
    obtain ⟨change, isChange, changePlan⟩ := exists_input_of_forall₂ each isRow
    refine ⟨change, isChange, ?_⟩
    cases plannedChange_of_planField changePlan with
    | apart plan kept always => cases isWrite
    | evaluated ofMember capable approved automatic writable always =>
        have same := isWrite
        dsimp only at same
        split at same <;> cases same
        rename_i isWrite'
        exact ⟨_, _, ofMember, capable, changePlan.trans (by rw [if_pos isWrite'])⟩
  have sameChange : ∀ change ∈ ordered, ∀ other ∈ ordered,
      change.row.item.field = other.row.item.field → change = other :=
    fun change isChange other isOther =>
      List.inj_on_of_nodup_map distinct isChange isOther
  have again : (ordered.mapM fun change =>
      planField entityKind change (some (applyWrites record writes))) =
        some (rows.map fun row => (row.1.readBack, none)) := by
    refine option_mapM_map traversed fun change isChange row changePlan => ?_
    refine planField_again (plannedChange_of_planField changePlan)
      (accepted change (fromChanges change isChange).1
        (fromChanges change isChange).2) ?_ ?_
    · intro provider encoded wrote
      have isRow : row ∈ rows := by
        obtain ⟨output, isOutput, ofChange⟩ := exists_output_of_forall₂ each isChange
        rw [changePlan] at ofChange
        cases ofChange
        exact isOutput
      have isWrite : (provider, encoded) ∈ writes :=
        isWrites ▸ List.mem_filterMap.mpr ⟨row, isRow, wrote⟩
      obtain ⟨first, isFirst, field, _, ofFirst, capable, firstPlan⟩ :=
        writer provider encoded isWrite
      refine applyWrites_of_mem isWrite fun text isOther => ?_
      obtain ⟨other, isOther', otherField, _, ofOther, otherCapable, otherPlan⟩ :=
        writer provider text isOther
      have sameField := capability_injective capable otherCapable
      have same := sameChange first isFirst other isOther'
        (by rw [ofFirst, ofOther, sameField])
      rw [same, otherPlan] at firstPlan
      cases firstPlan
      rfl
    · intro field provider ofMember capable nothing
      refine applyWrites_of_not_mem fun named => ?_
      obtain ⟨⟨_, text⟩, isWrite, rfl⟩ := List.mem_map.mp named
      obtain ⟨other, isOther, otherField, _, ofOther, otherCapable, otherPlan⟩ :=
        writer _ text isWrite
      have sameField := capability_injective capable otherCapable
      have same := sameChange change isChange other isOther
        (by rw [ofMember, ofOther, sameField])
      rw [← same, changePlan] at otherPlan
      cases otherPlan
      cases nothing
  have nothing : (rows.map fun row =>
      (row.1.readBack, (none : Option (String × Text)))).filterMap Prod.snd = [] := by
    rw [List.filterMap_map]
    exact List.filterMap_eq_nil_iff.mpr fun row _ => rfl
  have backs : (rows.map fun row =>
      (row.1.readBack, (none : Option (String × Text)))).map Prod.fst =
        plan.fields.map FieldPlan.readBack := by
    rw [fields, List.map_map, List.map_map]
    rfl
  refine ⟨_, replanned _ _ again nothing, backs, ?_, ?_, rfl⟩
  · intro field member write
    rw [backs] at member
    obtain ⟨before, _, rfl⟩ := List.mem_map.mp member
    unfold FieldPlan.readBack at write
    split at write
    · cases write
    · rename_i kept
      exact kept write
  · rw [backs, fields, List.any_eq_false]
    intro field member blocks
    obtain ⟨before, isBefore, rfl⟩ := List.mem_map.mp member
    obtain ⟨row, isRow, rfl⟩ := List.mem_map.mp isBefore
    unfold FieldPlan.readBack at blocks
    split at blocks
    · cases blocks
    · rw [unblocked row isRow] at blocks
      cases blocks

end

/-! ## A Member with two changes -/

/-- An approved new address, over another. -/
def emailChange : Change where
  row := { firstNameChange with
    pk := 2
    item := ⟨.member, "8", .member .email⟩
    baseline := some (.text "a@x.org".toList)
    current := some (.text "a@x.org".toList)
    submittedValue := .text "b@x.org, c@x.org".toList
    decision := .approved }
  reviews := []
  generation := 1

def approvedFirstName : Change where
  row := { firstNameChange with decision := .approved }
  reviews := []
  generation := 1

/-- The record before the changes are published. -/
def memberRecord : ContactRecord
  | "firstName" => some (.text ['a'])
  | "emailAddress" => some (.text "A@x.org".toList)
  | _ => none

instance lawfulPlainDates : @LawfulIsoDates plainDates :=
  letI := plainDates
  { civilDate_of_isIsoDate := fun _ civil => if_pos civil }

/-- The addresses of the example are valid; no phone occurs. -/
abbrev exampleAddresses : EmailValidator where
  valid email := email == "b@x.org".toList || email == "c@x.org".toList

abbrev noNumbers : PhoneNumbers where
  parse _ := none

theorem publish_member_again :
    letI := asciiUnicode
    letI := plainDates
    ∃ plan writes again,
      planEntity (fun _ => "") .member "8" [approvedFirstName, emailChange]
        (some memberRecord) = some plan ∧
      plan.payload = some writes ∧ writes.length = 2 ∧
      planEntity (fun _ => "") .member "8" [approvedFirstName, emailChange]
        (some (applyWrites memberRecord writes)) = some again ∧
      again.fields = plan.fields.map FieldPlan.readBack ∧
      (∀ field ∈ again.fields, field.outcome ≠ .write) ∧
      again.blocked = false ∧ again.payload = none := by
  let := asciiUnicode
  let := plainDates
  let := exampleAddresses
  let := noNumbers
  have planned : planEntity (fun _ => "") .member "8"
      [approvedFirstName, emailChange] (some memberRecord) = some _ := rfl
  have firstName : validateMemberValue .firstName (.text ['b']) none [] =
      .ok (.text ['b']) := rfl
  have email : validateMemberValue .email (.text "C@x.org; b@x.org, c@x.org".toList)
      none [] = .ok (.text "b@x.org, c@x.org".toList) := rfl
  obtain ⟨again, replanned, rest⟩ := publish_again (fun change member _ _ _ => by
    rcases List.mem_cons.mp member with rfl | last
    · exact .answered rfl _ _ _ firstName
    · rw [List.mem_singleton.mp last]
      exact .answered rfl _ _ _ email) planned rfl
  exact ⟨_, _, again, planned, rfl, rfl, replanned, rest⟩

end ParishKit.Responses
