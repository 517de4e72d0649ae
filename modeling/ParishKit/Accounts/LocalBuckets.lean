import Mathlib.Data.List.Nodup
import Mathlib.Data.List.TakeWhile
import Mathlib.Data.Rat.Floor
import ParishKit.Lib.TokenBucket

/-!
# The local fallback buckets

`LocalBuckets` keeps at most `capacity` buckets in the order of their last calls,
and forgets those that were idle for a lifetime. Clock readings are rational.
-/

namespace ParishKit.Accounts

open ParishKit.Lib

variable {Key : Type}

/-- The entries of the ordered dictionary. -/
abbrev BucketEntries (Key : Type) :=
  List (Key × Bucket ℚ)

def lifetime (policy : BucketPolicy ℚ) : ℚ :=
  max 120 (policy.burst / policy.rate)

/-- The entries left once the idle ones at the front are popped. -/
def evict (policy : BucketPolicy ℚ) (now : ℚ) (entries : BucketEntries Key) :
    BucketEntries Key :=
  entries.dropWhile fun entry => decide (entry.2.instant ≤ now - lifetime policy)

/-- The dictionary is full of other fingerprints. -/
def AtCapacity (policy : BucketPolicy ℚ) (capacity : Nat)
    (entries : BucketEntries Key) (key : Key) (now : ℚ) : Prop :=
  key ∉ (evict policy now entries).map Prod.fst ∧
    capacity ≤ (evict policy now entries).length

section

variable [DecidableEq Key]

instance (policy : BucketPolicy ℚ) (capacity : Nat) (entries : BucketEntries Key)
    (key : Key) (now : ℚ) : Decidable (AtCapacity policy capacity entries key now) :=
  inferInstanceAs (Decidable (_ ∧ _))

/-- `LocalBuckets.consume`: the delay and the entries afterwards. -/
def consume (policy : BucketPolicy ℚ) (capacity : Nat) (entries : BucketEntries Key)
    (key : Key) (now : ℚ) : Int × BucketEntries Key :=
  let held := evict policy now entries
  if AtCapacity policy capacity entries key now then
    (60, held)
  else
    let bucket := (held.lookup key).getD ⟨policy.burst, now⟩
    let others := held.filter fun entry => decide (entry.1 ≠ key)
    let tokens := min policy.burst
      (bucket.tokens + max 0 (now - bucket.instant) * policy.rate)
    let delay := if 1 ≤ tokens then 0 else ⌈(1 - tokens) / policy.rate⌉
    (delay, others ++ [(key, ⟨if delay = 0 then tokens - 1 else tokens, now⟩)])

/-- What a call was answered with, and whether it met the capacity. -/
structure Answer (Key : Type) where
  key : Key
  now : ℚ
  delay : Int
  refused : Bool

/-- The answers to a series of calls. -/
def answers (policy : BucketPolicy ℚ) (capacity : Nat) :
    BucketEntries Key → List (Key × ℚ) → List (Answer Key)
  | _, [] => []
  | entries, (key, now) :: rest =>
      ⟨key, now, (consume policy capacity entries key now).1,
          decide (AtCapacity policy capacity entries key now)⟩ ::
        answers policy capacity (consume policy capacity entries key now).2 rest

/-- The entries after a series of calls. -/
def entriesAfter (policy : BucketPolicy ℚ) (capacity : Nat) :
    BucketEntries Key → List (Key × ℚ) → BucketEntries Key
  | entries, [] => entries
  | entries, (key, now) :: rest =>
      entriesAfter policy capacity (consume policy capacity entries key now).2 rest

/-- The tokens a fingerprint would find; one that is not held finds the burst. -/
def levelOf (policy : BucketPolicy ℚ) (entries : BucketEntries Key) (key : Key)
    (now : ℚ) : ℚ :=
  match entries.lookup key with
  | some bucket => policy.level bucket now
  | none => policy.burst

end

/-- Each fingerprint is held once, in the order of the last calls, and no more
than the capacity. -/
structure Held (policy : BucketPolicy ℚ) (capacity : Nat)
    (entries : BucketEntries Key) (now : ℚ) : Prop where
  distinct : (entries.map Prod.fst).Nodup
  sound : ∀ entry ∈ entries, policy.Sound entry.2 now
  ordered : entries.Pairwise fun first second => first.2.instant ≤ second.2.instant
  bounded : entries.length ≤ capacity

section

variable {policy : BucketPolicy ℚ} {capacity : Nat} {entries : BucketEntries Key}
  {key : Key} {now later : ℚ}

theorem Held.mono (held : Held policy capacity entries now) (le : now ≤ later) :
    Held policy capacity entries later :=
  ⟨held.distinct, fun entry member => (held.sound entry member).mono le,
    held.ordered, held.bounded⟩

/-! ## Eviction -/

theorem evict_sublist (policy : BucketPolicy ℚ) (now : ℚ)
    (entries : BucketEntries Key) : (evict policy now entries).Sublist entries :=
  List.dropWhile_sublist _

theorem Held.evict (held : Held policy capacity entries now) :
    Held policy capacity (evict policy now entries) now where
  distinct := ((evict_sublist policy now entries).map Prod.fst).nodup held.distinct
  sound entry member := held.sound entry ((evict_sublist policy now entries).subset member)
  ordered := held.ordered.sublist (evict_sublist policy now entries)
  bounded := le_trans (evict_sublist policy now entries).length_le held.bounded

/-- What is no longer held was idle. -/
theorem mem_evict_or_idle (policy : BucketPolicy ℚ) (now : ℚ)
    {entry : Key × Bucket ℚ} (member : entry ∈ entries) :
    entry ∈ evict policy now entries ∨ entry.2.instant ≤ now - lifetime policy := by
  rw [← List.takeWhile_append_dropWhile
    (p := fun entry : Key × Bucket ℚ =>
      decide (entry.2.instant ≤ now - lifetime policy)) (l := entries)] at member
  rcases List.mem_append.mp member with popped | left
  · have idle := List.mem_takeWhile_imp popped
    exact Or.inr (by simpa using idle)
  · exact Or.inl left

/-- In the order of the last calls, what is still held was not idle. -/
theorem not_idle_of_mem_evict
    (ordered : entries.Pairwise fun first second =>
      first.2.instant ≤ second.2.instant)
    {entry : Key × Bucket ℚ} (member : entry ∈ evict policy now entries) :
    now - lifetime policy < entry.2.instant := by
  induction entries with
  | nil => cases member
  | cons head tail inductionHypothesis =>
      obtain ⟨isFirst, tailOrdered⟩ := List.pairwise_cons.mp ordered
      unfold Accounts.evict at member
      rw [List.dropWhile_cons] at member
      split at member
      · exact inductionHypothesis tailOrdered member
      · rename_i active
        have headActive : now - lifetime policy < head.2.instant := by
          simpa using active
        rcases List.mem_cons.mp member with rfl | later
        · exact headActive
        · exact lt_of_lt_of_le headActive (isFirst entry later)

/-- An entry that was idle for a lifetime is full. -/
theorem Held.level_of_idle
    (held : Held policy capacity entries now) {entry : Key × Bucket ℚ}
    (member : entry ∈ entries) (idle : entry.2.instant ≤ now - lifetime policy)
    (le : now ≤ later) : policy.level entry.2 later = policy.burst := by
  refine ((held.sound entry member).mono le).level_idle ?_
  have long : policy.burst / policy.rate ≤ lifetime policy := le_max_right _ _
  linarith

/-! ## Levels -/

variable [DecidableEq Key]

theorem lookup_eq_none_of_not_mem (absent : key ∉ entries.map Prod.fst) :
    entries.lookup key = none := by
  refine List.lookup_eq_none_iff.mpr fun entry member => ?_
  have different : key ≠ entry.1 := by
    rintro rfl
    exact absent (List.mem_map_of_mem member)
  simpa using different

/-- What is found is what is held. -/
theorem lookup_eq_some_iff_mem
    (distinct : (entries.map Prod.fst).Nodup) {bucket : Bucket ℚ} :
    entries.lookup key = some bucket ↔ (key, bucket) ∈ entries := by
  constructor
  · intro found
    obtain ⟨before, after, rfl, _⟩ := List.lookup_eq_some_iff.mp found
    exact List.mem_append_right _ List.mem_cons_self
  · intro member
    cases found : entries.lookup key with
    | none =>
        have absent := List.lookup_eq_none_iff.mp found _ member
        simp at absent
    | some other =>
        obtain ⟨before, after, isEntries, _⟩ := List.lookup_eq_some_iff.mp found
        have isOther : (key, other) ∈ entries := by
          rw [isEntries]
          exact List.mem_append_right _ List.mem_cons_self
        have same := List.inj_on_of_nodup_map distinct isOther member rfl
        cases same
        rfl

theorem levelOf_of_mem
    (distinct : (entries.map Prod.fst).Nodup) {bucket : Bucket ℚ}
    (member : (key, bucket) ∈ entries) :
    levelOf policy entries key now = policy.level bucket now := by
  unfold levelOf
  rw [(lookup_eq_some_iff_mem distinct).mpr member]

theorem levelOf_of_not_mem (absent : key ∉ entries.map Prod.fst) :
    levelOf policy entries key now = policy.burst := by
  unfold levelOf
  rw [lookup_eq_none_of_not_mem absent]

/-- The bucket a call draws from has the fingerprint's level. -/
theorem level_getD (entries : BucketEntries Key) (key : Key) :
    policy.level ((entries.lookup key).getD (policy.full now)) now =
      levelOf policy entries key now := by
  unfold levelOf
  cases entries.lookup key with
  | none => exact BucketPolicy.level_full
  | some bucket => rfl

theorem Held.levelOf_nonneg (held : Held policy capacity entries now) (key : Key) :
    0 ≤ levelOf policy entries key now := by
  by_cases member : key ∈ entries.map Prod.fst
  · obtain ⟨⟨_, bucket⟩, isEntry, rfl⟩ := List.mem_map.mp member
    rw [levelOf_of_mem held.distinct isEntry]
    exact (held.sound _ isEntry).level_nonneg
  · rw [levelOf_of_not_mem member]
    exact le_trans zero_le_one policy.one_le_burst

theorem levelOf_le_burst : levelOf policy entries key now ≤ policy.burst := by
  unfold levelOf
  split
  · exact BucketPolicy.level_le_burst
  · exact le_refl _

theorem Held.levelOf_rise (held : Held policy capacity entries now) (key : Key)
    (le : now ≤ later) :
    levelOf policy entries key later ≤
      levelOf policy entries key now + policy.rate * (later - now) := by
  by_cases member : key ∈ entries.map Prod.fst
  · obtain ⟨⟨_, bucket⟩, isEntry, rfl⟩ := List.mem_map.mp member
    rw [levelOf_of_mem held.distinct isEntry, levelOf_of_mem held.distinct isEntry]
    exact (held.sound _ isEntry).level_rise le
  · rw [levelOf_of_not_mem member, levelOf_of_not_mem member]
    exact le_add_of_nonneg_right
      (mul_nonneg (le_of_lt policy.rate_pos) (sub_nonneg.mpr le))

/-- Forgetting what was idle does not show. -/
theorem Held.levelOf_evict
    (held : Held policy capacity entries now) (le : now ≤ later) :
    levelOf policy (Accounts.evict policy now entries) key later =
      levelOf policy entries key later := by
  by_cases left : key ∈ (Accounts.evict policy now entries).map Prod.fst
  · obtain ⟨⟨_, bucket⟩, isEntry, rfl⟩ := List.mem_map.mp left
    rw [levelOf_of_mem held.distinct ((evict_sublist policy now entries).subset isEntry),
      levelOf_of_mem held.evict.distinct isEntry]
  · rw [levelOf_of_not_mem left]
    by_cases member : key ∈ entries.map Prod.fst
    · obtain ⟨⟨_, bucket⟩, isEntry, rfl⟩ := List.mem_map.mp member
      rw [levelOf_of_mem held.distinct isEntry]
      rcases mem_evict_or_idle policy now isEntry with
        stays | idle
      · exact absurd (List.mem_map_of_mem stays) left
      · exact (held.level_of_idle isEntry idle le).symm
    · rw [levelOf_of_not_mem member]

/-! ## One call -/

/-- A call that is not refused for the capacity draws from its bucket. -/
theorem consume_eq_draw (notFull : ¬ AtCapacity policy capacity entries key now) :
    consume policy capacity entries key now =
      let drawn := policy.draw
        (((evict policy now entries).lookup key).getD (policy.full now)) now
      (drawn.1, ((evict policy now entries).filter fun entry =>
        decide (entry.1 ≠ key)) ++ [(key, drawn.2)]) := by
  unfold consume
  rw [if_neg notFull, BucketPolicy.draw_eq]
  rfl

theorem delay_of_atCapacity (isFull : AtCapacity policy capacity entries key now) :
    consume policy capacity entries key now = (60, evict policy now entries) := by
  unfold consume
  rw [if_pos isFull]

/-- The bucket a call draws from. -/
def bucketOf (policy : BucketPolicy ℚ) (entries : BucketEntries Key) (key : Key)
    (now : ℚ) : Bucket ℚ :=
  ((evict policy now entries).lookup key).getD (policy.full now)

theorem Held.level_bucketOf (held : Held policy capacity entries now) :
    policy.level (bucketOf policy entries key now) now =
      levelOf policy entries key now := by
  unfold bucketOf
  rw [level_getD, held.levelOf_evict (le_refl now)]

theorem Held.bucketOf_sound (held : Held policy capacity entries now) :
    policy.Sound (bucketOf policy entries key now) now := by
  unfold bucketOf
  cases found : (Accounts.evict policy now entries).lookup key with
  | none =>
      exact ⟨le_trans zero_le_one policy.one_le_burst, le_refl _, le_refl _⟩
  | some bucket =>
      exact held.evict.sound _
        ((lookup_eq_some_iff_mem held.evict.distinct).mp found)

theorem Held.consume (held : Held policy capacity entries now) (key : Key) :
    Held policy capacity (Accounts.consume policy capacity entries key now).2 now := by
  by_cases isFull : AtCapacity policy capacity entries key now
  · rw [delay_of_atCapacity isFull]
    exact held.evict
  rw [consume_eq_draw isFull]
  have kept : ((Accounts.evict policy now entries).filter fun entry =>
      decide (entry.1 ≠ key)).Sublist (Accounts.evict policy now entries) :=
    List.filter_sublist
  refine ⟨?_, fun entry member => ?_, ?_, ?_⟩
  · rw [List.map_append, List.nodup_append]
    refine ⟨(kept.map Prod.fst).nodup held.evict.distinct, List.nodup_singleton _, ?_⟩
    intro other isOther this isThis
    obtain ⟨entry, isEntry, rfl⟩ := List.mem_map.mp isOther
    have different := (List.mem_filter.mp isEntry).2
    rw [List.mem_singleton.mp isThis]
    simpa using different
  · rcases List.mem_append.mp member with isKept | isNew
    · exact held.evict.sound entry (kept.subset isKept)
    · rw [List.mem_singleton.mp isNew]
      exact held.bucketOf_sound.draw
  · refine List.pairwise_append.mpr ⟨held.evict.ordered.sublist kept,
      List.pairwise_singleton _ _, fun entry isKept new isNew => ?_⟩
    rw [List.mem_singleton.mp isNew]
    change entry.2.instant ≤ (policy.draw _ now).2.instant
    rw [BucketPolicy.draw_instant]
    exact (held.evict.sound entry (kept.subset isKept)).passed
  · rw [List.length_append, List.length_singleton]
    by_cases isHeld : key ∈ (Accounts.evict policy now entries).map Prod.fst
    · -- Its own entry made room.
      obtain ⟨entry, isEntry, rfl⟩ := List.mem_map.mp isHeld
      have fewer : ((Accounts.evict policy now entries).filter fun other =>
          decide (other.1 ≠ entry.1)).length <
            (Accounts.evict policy now entries).length :=
        List.length_filter_lt_length_iff_exists.mpr ⟨entry, isEntry, by simp⟩
      have bounded := held.evict.bounded
      omega
    · have room : ¬ capacity ≤ (Accounts.evict policy now entries).length :=
        fun enough => isFull ⟨isHeld, enough⟩
      have fewer := kept.length_le
      omega

/-- Other callers do not change a level. -/
theorem Held.levelOf_consume_of_ne
    (held : Held policy capacity entries now) {other : Key} (different : other ≠ key)
    (le : now ≤ later) :
    levelOf policy (Accounts.consume policy capacity entries key now).2 other later =
      levelOf policy entries other later := by
  rw [← held.levelOf_evict le]
  by_cases isFull : AtCapacity policy capacity entries key now
  · rw [delay_of_atCapacity isFull]
  have after := held.consume key
  rw [consume_eq_draw isFull] at after ⊢
  by_cases member : other ∈ (Accounts.evict policy now entries).map Prod.fst
  · obtain ⟨⟨_, bucket⟩, isEntry, rfl⟩ := List.mem_map.mp member
    rw [levelOf_of_mem held.evict.distinct isEntry]
    refine levelOf_of_mem after.distinct (List.mem_append_left _ ?_)
    exact List.mem_filter.mpr ⟨isEntry, decide_eq_true different⟩
  · rw [levelOf_of_not_mem member]
    refine levelOf_of_not_mem fun isKey => ?_
    obtain ⟨entry, isEntry, rfl⟩ := List.mem_map.mp isKey
    rcases List.mem_append.mp isEntry with isKept | isNew
    · exact member (List.mem_map_of_mem (List.mem_filter.mp isKept).1)
    · rw [List.mem_singleton.mp isNew] at different
      exact different rfl

/-- A caller's own level goes down by the token it took. -/
theorem Held.levelOf_consume_self
    (held : Held policy capacity entries now)
    (notFull : ¬ AtCapacity policy capacity entries key now) :
    levelOf policy (Accounts.consume policy capacity entries key now).2 key later =
      policy.level (policy.draw (bucketOf policy entries key now) now).2 later := by
  have after := held.consume key
  rw [consume_eq_draw notFull] at after ⊢
  exact levelOf_of_mem after.distinct
    (List.mem_append_right _ (List.mem_singleton.mpr rfl))

theorem delay_eq_zero_iff
    (held : Held policy capacity entries now)
    (notFull : ¬ AtCapacity policy capacity entries key now) :
    (Accounts.consume policy capacity entries key now).1 = 0 ↔
      1 ≤ levelOf policy entries key now := by
  rw [consume_eq_draw notFull, ← held.level_bucketOf]
  exact BucketPolicy.draw_eq_zero_iff

/-- A level falls by one with an admission and else stays. -/
theorem Held.levelOf_consume
    (held : Held policy capacity entries now) (key other : Key) :
    levelOf policy (Accounts.consume policy capacity entries key now).2 other now =
      levelOf policy entries other now -
        (if key = other ∧ (Accounts.consume policy capacity entries key now).1 = 0
          then 1 else 0) := by
  by_cases same : key = other
  · subst same
    by_cases isFull : AtCapacity policy capacity entries key now
    · rw [delay_of_atCapacity isFull, held.levelOf_evict (le_refl now)]
      norm_num
    · rw [held.levelOf_consume_self isFull, BucketPolicy.level_draw,
        held.level_bucketOf]
      congr 1
      simp only [true_and, delay_eq_zero_iff held isFull,
        BucketPolicy.draw_eq_zero_iff, held.level_bucketOf]
  · rw [held.levelOf_consume_of_ne (Ne.symm same) (le_refl now),
      if_neg fun both => same both.1, sub_zero]

/-- What is popped without being called was idle. -/
theorem mem_consume_or_idle
    {entry : Key × Bucket ℚ} (member : entry ∈ entries) (different : entry.1 ≠ key) :
    entry ∈ (consume policy capacity entries key now).2 ∨
      entry.2.instant ≤ now - lifetime policy := by
  rcases mem_evict_or_idle policy now member with left | idle
  · left
    by_cases isFull : AtCapacity policy capacity entries key now
    · rw [delay_of_atCapacity isFull]
      exact left
    · rw [consume_eq_draw isFull]
      exact List.mem_append_left _
        (List.mem_filter.mpr ⟨left, decide_eq_true different⟩)
  · exact Or.inr idle

/-- A caller without a token that waits its delay is admitted next. -/
theorem Held.admitted_after_wait
    (held : Held policy capacity entries now)
    (notFull : ¬ AtCapacity policy capacity entries key now)
    (refused : (Accounts.consume policy capacity entries key now).1 ≠ 0)
    (waited : now + ((Accounts.consume policy capacity entries key now).1 : ℚ) ≤
      later) :
    (Accounts.consume policy capacity
      (Accounts.consume policy capacity entries key now).2 key later).1 = 0 := by
  have positive : 0 ≤ (Accounts.consume policy capacity entries key now).1 := by
    rw [consume_eq_draw notFull, BucketPolicy.draw_eq]
    dsimp only
    split
    · exact Int.le_refl 0
    · rename_i tooFew
      refine Int.ceil_nonneg (div_nonneg ?_ (le_of_lt policy.rate_pos))
      exact sub_nonneg.mpr (le_of_lt (not_le.mp tooFew))
  have le : now ≤ later := by
    have wait : (0 : ℚ) ≤ ((Accounts.consume policy capacity entries key now).1 : ℚ) :=
      Int.cast_nonneg positive
    linarith
  have after := (held.consume key).mono le
  have notFullLater : ¬ AtCapacity policy capacity
      (Accounts.consume policy capacity entries key now).2 key later := by
    rintro ⟨absent, isFull⟩
    -- Its own entry was popped, so there is room.
    have isHeld : key ∈
        ((Accounts.consume policy capacity entries key now).2).map Prod.fst := by
      rw [consume_eq_draw notFull]
      exact List.mem_map_of_mem (a := (key, _))
        (List.mem_append_right _ (List.mem_singleton.mpr rfl))
    have shorter : (Accounts.evict policy later
        (Accounts.consume policy capacity entries key now).2).length ≠
          (Accounts.consume policy capacity entries key now).2.length := by
      intro sameLength
      rw [(evict_sublist policy later _).eq_of_length sameLength]
        at absent
      exact absent isHeld
    have notLonger := (evict_sublist policy later
      (Accounts.consume policy capacity entries key now).2).length_le
    have bounded := after.bounded
    omega
  rw [delay_eq_zero_iff after notFullLater, held.levelOf_consume_self notFull]
  rw [consume_eq_draw notFull] at refused waited
  exact BucketPolicy.one_le_level_after refused waited

/-! ## Series of calls -/

/-- The clock readings do not go back, from a first one on. -/
def Nondecreasing (start : ℚ) (calls : List (Key × ℚ)) : Prop :=
  (∀ call ∈ calls, start ≤ call.2) ∧
    calls.Pairwise fun first second => first.2 ≤ second.2

omit [DecidableEq Key] in
theorem Nondecreasing.tail
    {start : ℚ} {call : Key × ℚ} {calls : List (Key × ℚ)}
    (ordered : Nondecreasing start (call :: calls)) : Nondecreasing call.2 calls :=
  List.pairwise_cons.mp ordered.2

theorem Held.entriesAfter
    {calls : List (Key × ℚ)} (held : Held policy capacity entries now)
    (ordered : Nondecreasing now calls) (le : now ≤ later)
    (passed : ∀ call ∈ calls, call.2 ≤ later) :
    Held policy capacity (Accounts.entriesAfter policy capacity entries calls) later := by
  induction calls generalizing entries now with
  | nil => exact held.mono le
  | cons call calls inductionHypothesis =>
      obtain ⟨key, instant⟩ := call
      have since := ordered.1 _ List.mem_cons_self
      exact inductionHypothesis ((held.mono since).consume key) ordered.tail
        (passed _ List.mem_cons_self)
        fun other member => passed other (List.mem_cons_of_mem _ member)

/-- The calls that were not refused for the capacity. -/
def served (all : List (Answer Key)) : List (Answer Key) :=
  all.filter fun answer => !answer.refused

/-- They are answered as buckets of which none is ever forgotten answer them. -/
theorem Held.served_eq_drawAll
    {calls : List (Key × ℚ)} (held : Held policy capacity entries now)
    (ordered : Nondecreasing now calls) (buckets : Key → Option (Bucket ℚ))
    (agree : ∀ key later, now ≤ later →
      policy.levelIn buckets key later = levelOf policy entries key later) :
    (served (answers policy capacity entries calls)).map Answer.delay =
      policy.drawAll buckets ((served (answers policy capacity entries calls)).map
        fun answer => (answer.key, answer.now)) := by
  induction calls generalizing entries now buckets with
  | nil => rfl
  | cons call calls inductionHypothesis =>
      obtain ⟨key, instant⟩ := call
      have since : now ≤ instant := ordered.1 _ List.mem_cons_self
      have heldNow := held.mono since
      by_cases isFull : AtCapacity policy capacity entries key instant
      · have skipped : served (answers policy capacity entries ((key, instant) :: calls)) =
            served (answers policy capacity
              (Accounts.consume policy capacity entries key instant).2 calls) := by
          unfold served
          rw [answers, List.filter_cons_of_neg (by simp [isFull])]
        rw [skipped]
        refine inductionHypothesis (heldNow.consume key) ordered.tail _
          fun other later le => ?_
        rw [agree other later (le_trans since le), delay_of_atCapacity isFull,
          heldNow.levelOf_evict le]
      · have kept : served (answers policy capacity entries ((key, instant) :: calls)) =
            ⟨key, instant, (Accounts.consume policy capacity entries key instant).1,
              decide (AtCapacity policy capacity entries key instant)⟩ ::
            served (answers policy capacity
              (Accounts.consume policy capacity entries key instant).2 calls) := by
          unfold served
          rw [answers, List.filter_cons_of_pos (by simp [isFull])]
        have sameDraw : policy.draw ((buckets key).getD (policy.full instant)) instant =
            policy.draw (bucketOf policy entries key instant) instant := by
          refine BucketPolicy.draw_congr ?_
          rw [BucketPolicy.level_getD_full, agree key instant since,
            heldNow.level_bucketOf]
        rw [kept, List.map_cons, List.map_cons, BucketPolicy.drawAll, sameDraw]
        refine congrArg₂ List.cons ?_ ?_
        · rw [consume_eq_draw isFull]
          rfl
        refine inductionHypothesis (heldNow.consume key) ordered.tail _
          fun other later le => ?_
        by_cases same : other = key
        · subst same
          rw [heldNow.levelOf_consume_self isFull, BucketPolicy.levelIn,
            Function.update_self]
        · rw [heldNow.levelOf_consume_of_ne same le, BucketPolicy.levelIn,
            Function.update_of_ne same]
          exact agree other later (le_trans since le)

/-- The admissions of a fingerprint from one instant to another. -/
def admissions (key : Key) (start stop : ℚ) (all : List (Answer Key)) : Nat :=
  all.countP fun answer => decide (answer.key = key ∧ start ≤ answer.now ∧
    answer.now ≤ stop ∧ answer.delay = 0)

theorem admissions_eq_zero
    {calls : List (Key × ℚ)} {start stop : ℚ} (late : ∀ call ∈ calls, stop < call.2) :
    admissions key start stop (answers policy capacity entries calls) = 0 := by
  induction calls generalizing entries with
  | nil => rfl
  | cons call calls inductionHypothesis =>
      have after := late call List.mem_cons_self
      unfold admissions at inductionHypothesis ⊢
      rw [answers, List.countP_cons_of_neg]
      · exact inductionHypothesis fun other member =>
          late other (List.mem_cons_of_mem _ member)
      · rw [decide_eq_true_eq]
        rintro ⟨_, _, before, _⟩
        exact absurd before (not_le.mpr after)

theorem admissions_cons {start stop : ℚ} (answer : Answer Key)
    (all : List (Answer Key)) :
    admissions key start stop (answer :: all) =
      admissions key start stop all +
        (if answer.key = key ∧ start ≤ answer.now ∧ answer.now ≤ stop ∧
          answer.delay = 0 then 1 else 0) := by
  unfold admissions
  rw [List.countP_cons]
  simp only [decide_eq_true_eq]

/-- From one instant on a fingerprint is admitted for the tokens it finds and the
ones it gains. -/
theorem Held.admissions_le
    {calls : List (Key × ℚ)} (held : Held policy capacity entries now)
    (ordered : Nondecreasing now calls) (key : Key) (start : ℚ) {stop : ℚ}
    (le : now ≤ stop) :
    (admissions key start stop (answers policy capacity entries calls) : ℚ) ≤
      levelOf policy entries key now + policy.rate * (stop - now) := by
  induction calls generalizing entries now with
  | nil =>
      have level := held.levelOf_nonneg key
      have gained := mul_nonneg (le_of_lt policy.rate_pos) (sub_nonneg.mpr le)
      rw [answers]
      change ((0 : Nat) : ℚ) ≤ _
      rw [Nat.cast_zero]
      linarith
  | cons call calls inductionHypothesis =>
      obtain ⟨caller, instant⟩ := call
      have since : now ≤ instant := ordered.1 _ List.mem_cons_self
      have rise := held.levelOf_rise key since
      have heldNow := held.mono since
      by_cases inside : instant ≤ stop
      · have later := inductionHypothesis (heldNow.consume caller) ordered.tail inside
        have step := heldNow.levelOf_consume caller key
        have counted : ((if caller = key ∧ start ≤ instant ∧ instant ≤ stop ∧
            (Accounts.consume policy capacity entries caller instant).1 = 0
              then 1 else 0 : Nat) : ℚ) ≤
            (if caller = key ∧
              (Accounts.consume policy capacity entries caller instant).1 = 0
                then 1 else 0) := by
          by_cases admitted : caller = key ∧
              (Accounts.consume policy capacity entries caller instant).1 = 0
          · rw [if_pos admitted]
            split
            · norm_num
            · norm_num
          · rw [if_neg admitted, if_neg fun all => admitted ⟨all.1, all.2.2.2⟩]
            norm_num
        rw [answers, admissions_cons, Nat.cast_add]
        have total : policy.rate * (stop - now) =
            policy.rate * (instant - now) + policy.rate * (stop - instant) := by
          ring
        dsimp only at later ⊢
        linarith
      · rw [admissions_eq_zero]
        · have level := held.levelOf_nonneg key
          have gained := mul_nonneg (le_of_lt policy.rate_pos) (sub_nonneg.mpr le)
          rw [Nat.cast_zero]
          linarith
        · intro other member
          have isLater := ordered.tail.1
          rcases List.mem_cons.mp member with rfl | isTail
          · exact not_le.mp inside
          · exact lt_of_lt_of_le (not_le.mp inside) (isLater other isTail)

/-- In a window no more than the burst and what the window gains. -/
theorem Held.admissions_window_le
    {calls : List (Key × ℚ)} (held : Held policy capacity entries now)
    (ordered : Nondecreasing now calls) {start stop : ℚ} (before : now ≤ start)
    (le : start ≤ stop) :
    (admissions key start stop (answers policy capacity entries calls) : ℚ) ≤
      policy.burst + policy.rate * (stop - start) := by
  have fits : ∀ {others : List (Key × ℚ)} {left : BucketEntries Key} {since : ℚ},
      Held policy capacity left since → since ≤ start → Nondecreasing start others →
      (admissions key start stop (answers policy capacity left others) : ℚ) ≤
        policy.burst + policy.rate * (stop - start) := by
    intro others left since isHeld earlier fromStart
    have bound := (isHeld.mono earlier).admissions_le fromStart key start le
    have level : levelOf policy left key start ≤ policy.burst := levelOf_le_burst
    linarith
  induction calls generalizing entries now with
  | nil => exact fits held before ⟨fun call member => (by cases member), List.Pairwise.nil⟩
  | cons call calls inductionHypothesis =>
      obtain ⟨caller, instant⟩ := call
      have since : now ≤ instant := ordered.1 _ List.mem_cons_self
      by_cases early : instant < start
      · have later := inductionHypothesis ((held.mono since).consume caller) ordered.tail
          (le_of_lt early)
        rw [answers, admissions_cons,
          if_neg fun counted => absurd counted.2.1 (not_le.mpr early)]
        simpa using later
      · refine fits held before ⟨fun other member => ?_, ordered.2⟩
        have isLater := ordered.tail.1
        rcases List.mem_cons.mp member with rfl | isTail
        · exact not_lt.mp early
        · exact le_trans (not_lt.mp early) (isLater other isTail)

theorem answers_calls (entries : BucketEntries Key) (calls : List (Key × ℚ)) :
    ((answers policy capacity entries calls).map fun answer =>
      (answer.key, answer.now)) = calls := by
  induction calls generalizing entries with
  | nil => rfl
  | cons call calls inductionHypothesis =>
      rw [answers, List.map_cons, inductionHypothesis]

/-- While fewer fingerprints are held than fit, no call is refused for the
capacity. -/
theorem served_eq_answers
    {calls : List (Key × ℚ)}
    (room : ∀ earlier call later, calls = earlier ++ call :: later →
      (entriesAfter policy capacity entries earlier).length < capacity) :
    served (answers policy capacity entries calls) =
      answers policy capacity entries calls := by
  induction calls generalizing entries with
  | nil => rfl
  | cons call calls inductionHypothesis =>
      obtain ⟨key, instant⟩ := call
      have hasRoom := room [] (key, instant) calls rfl
      have notFull : ¬ AtCapacity policy capacity entries key instant := by
        rintro ⟨_, isFull⟩
        have fewer := (evict_sublist policy instant entries).length_le
        change entries.length < capacity at hasRoom
        omega
      unfold served at inductionHypothesis ⊢
      rw [answers, List.filter_cons_of_pos (by simp [notFull]), inductionHypothesis]
      intro earlier other later isCalls
      exact room ((key, instant) :: earlier) other later (by rw [isCalls]; rfl)

/-- The fallback is a token bucket for each fingerprint. Calls are answered as
unbounded buckets answer those that were not refused for the capacity, so all of
them while fewer fingerprints are held than fit. No window admits more than the
burst and what it gains. After any calls, a caller without a token that waits its
delay is admitted next; what is popped was idle, nobody else's level changes, and
a caller refused for the capacity meets only fingerprints that were not idle. -/
theorem local_buckets_are_token_buckets
    (policy : BucketPolicy ℚ) (capacity : Nat) {calls : List (Key × ℚ)}
    (ordered : calls.Pairwise fun first second => first.2 ≤ second.2) :
    (served (answers policy capacity [] calls)).map Answer.delay =
      policy.drawAll (fun _ => none) ((served (answers policy capacity [] calls)).map
        fun answer => (answer.key, answer.now)) ∧
    ((∀ earlier call later, calls = earlier ++ call :: later →
        (entriesAfter policy capacity [] earlier).length < capacity) →
      (answers policy capacity [] calls).map Answer.delay =
        policy.drawAll (fun _ => none) calls) ∧
    (∀ key start stop, start ≤ stop →
      (admissions key start stop (answers policy capacity [] calls) : ℚ) ≤
        policy.burst + policy.rate * (stop - start)) ∧
    ∀ key now, (∀ call ∈ calls, call.2 ≤ now) →
      let entries := entriesAfter policy capacity [] calls
      let next := consume policy capacity entries key now
      (¬ AtCapacity policy capacity entries key now → next.1 ≠ 0 →
        ∀ later, now + (next.1 : ℚ) ≤ later →
          (consume policy capacity next.2 key later).1 = 0) ∧
      (∀ entry ∈ entries, entry.1 ≠ key → entry ∈ next.2 ∨
        entry.2.instant ≤ now - lifetime policy) ∧
      (∀ other ≠ key, ∀ later, now ≤ later →
        levelOf policy next.2 other later = levelOf policy entries other later) ∧
      (AtCapacity policy capacity entries key now →
        ∀ entry ∈ evict policy now entries,
          now - lifetime policy < entry.2.instant) := by
  have isHeld : ∀ start, Held policy capacity ([] : BucketEntries Key) start :=
    fun start => ⟨List.nodup_nil, fun entry member => (by cases member),
      List.Pairwise.nil, Nat.zero_le _⟩
  have begins : ∀ bound, ∃ start ≤ bound, Nondecreasing start calls := by
    intro bound
    cases calls with
    | nil => exact ⟨bound, le_refl _, fun call member => (by cases member), ordered⟩
    | cons call calls =>
        refine ⟨min bound call.2, min_le_left _ _, fun other member => ?_, ordered⟩
        rcases List.mem_cons.mp member with rfl | later
        · exact min_le_right _ _
        · exact le_trans (min_le_right _ _)
            ((List.pairwise_cons.mp ordered).1 other later)
  obtain ⟨first, _, fromFirst⟩ := begins 0
  have asBuckets := (isHeld first).served_eq_drawAll fromFirst
    (fun _ => none) fun key later _ => rfl
  refine ⟨asBuckets, fun room => ?_, fun key start stop le => ?_,
    fun key now passed => ?_⟩
  · rw [served_eq_answers room, answers_calls] at asBuckets
    exact asBuckets
  · obtain ⟨since, before, fromSince⟩ := begins start
    exact (isHeld since).admissions_window_le fromSince before le
  · obtain ⟨since, before, fromSince⟩ := begins now
    have held := (isHeld since).entriesAfter fromSince before passed
    exact ⟨fun notFull refused later waited =>
        held.admitted_after_wait notFull refused waited,
      fun entry member different => mem_consume_or_idle member different,
      fun other different later le => held.levelOf_consume_of_ne different le,
      fun _ entry member => not_idle_of_mem_evict held.ordered member⟩

end

/-- Two tokens, and one more every two seconds. -/
def slowPolicy : BucketPolicy ℚ where
  rate := 1 / 2
  burst := 2
  rate_pos := by norm_num
  one_le_burst := by norm_num

/-- Of five calls within two seconds three are admitted at most. -/
theorem slow_buckets_are_token_buckets :
    (admissions 7 0 2 (answers slowPolicy 3 []
      [(7, 0), (7, 0), (8, 1), (7, 1), (7, 2), (7, 2)]) : ℚ) ≤ 2 + 1 / 2 * (2 - 0) :=
  (local_buckets_are_token_buckets slowPolicy 3
    (show List.Pairwise (fun first second : Nat × ℚ => first.2 ≤ second.2)
      [(7, 0), (7, 0), (8, 1), (7, 1), (7, 2), (7, 2)] by decide +kernel)).2.2.1
    7 0 2 (by norm_num)

/-- A caller refused for the capacity that waits its minute is refused again. -/
theorem capacity_outlasts_its_delay :
    let entries := (consume slowPolicy 1 [] 7 0).2
    (consume slowPolicy 1 entries 8 0).1 = 60 ∧
      (consume slowPolicy 1 (consume slowPolicy 1 entries 8 0).2 8 60).1 = 60 := by
  decide +kernel

end ParishKit.Accounts
